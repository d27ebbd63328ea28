import Serval.Sal.Hop

/-!
# A length that wraps around

One address more than a source extension can count makes its length zero. The
packet still goes out, but no forwarder accepts it: the parser refuses an
extension that is shorter than its header.
-/

namespace Serval

open Serval.Support

/-- Behind some extensions comes one of length zero. -/
structure StuckRow (exts : List SalExt) (row : List UInt8) : Prop where
  bytes :
    ∃ first rest, row = SalExt.join exts ++ (first :: 0 :: rest) ∧ salExtType first = some .source
  room : exts.length ≤ 9
  controls : SalExt.count .control exts ≤ 1
  services : SalExt.count .service exts ≤ 2
  sources : SalExt.count .source exts ≤ 1
  taas : SalExt.count .taas exts ≤ 1

theorem salExtLen_zero {packet rest : List UInt8} {offset : Nat} {first : UInt8}
    (here : packet.drop offset = first :: 0 :: rest)
    (type : salExtType first = some .source) :
    readByte packet offset = .ok first ∧ salExtLen packet offset = .ok 0 := by
  have placed : packet.drop offset = [first, 0] ++ rest := here
  have read : readByte packet offset = .ok first := readByte_within placed 0 rfl
  have readLength : readByte packet (offset + 1) = .ok 0 := readByte_within placed 1 rfl
  refine ⟨read, ?_⟩
  rw [salExtLen_sized read (by rw [type]; decide) readLength]
  rfl

theorem parseExts_stuck {packet rest : List UInt8} {offset more : Nat} {first : UInt8}
    (here : packet.drop offset = first :: 0 :: rest)
    (type : salExtType first = some .source) (room : Nat)
    (ctx : SalContext) :
    parseExts packet (room + 1) offset (more + 1 : Nat) ctx = .ok (-1, ctx) := by
  obtain ⟨read, length⟩ := salExtLen_zero here type
  have refused : parseExt packet offset ctx = .ok (-1, ctx) := by
    simp only [parseExt, length, ok_bind, read, type]
    rfl
  rw [parseExts, if_pos (by omega), refused]
  rfl

section

variable {ids row payload packet : List UInt8} {protocol : UInt8} {exts : List SalExt}

theorem StuckRow.refused (stuck : StuckRow exts row)
    (framed : Framed ids protocol row payload packet) (post : List UInt8)
    (ctx : SalContext) :
    servalSalParseHdr (packet ++ post) .all ≠ .ok (0, ctx) := by
  obtain ⟨first, rest, bytes, type⟩ := stuck.bytes
  obtain ⟨-, -, behind, length, total⟩ := framed.parts
  have rowLength := congrArg List.length bytes
  simp only [List.length_append, List.length_cons] at rowLength
  have here : (packet ++ post).drop 12 =
        SalExt.join exts ++ (first :: 0 :: (rest ++ (payload ++ post))) := by
    rw [List.drop_append_of_le_length (by omega), behind, bytes]
    simp only [List.append_assoc, List.cons_append]
  have inside : (packet ++ post).drop (12 + (SalExt.join exts).length) =
        first :: 0 :: (rest ++ (payload ++ post)) := by
    rw [← List.drop_drop, here, List.drop_left]
  obtain ⟨size, sameLength, run⟩ := servalSalParseHdr_all (show 8 < (packet ++ post).length by
        rw [List.length_append]
        omega)
  rw [salLength_append (by omega)] at run
  have fits : (SalContext.blank size).Fits exts := (SalContext.fits_blank size exts).mpr
      ⟨stuck.controls, stuck.services, stuck.sources, stuck.taas⟩
  obtain ⟨left, room⟩ := Nat.exists_eq_add_of_le stuck.room
  have walked := parseExts_skip here fits (left + 1) (rest.length + 1 + 1)
  rw [parseExts_stuck inside type] at walked
  have rooms : exts.length + (left + 1) = 10 := by omega
  have lengths : ((SalExt.join exts).length + (rest.length + 1 + 1 : Nat) : Int) =
        salLength packet - 12 := by
    omega
  rw [rooms, lengths] at walked
  rw [run, if_neg (by omega), walked]
  intro accepted
  cases accepted

theorem updateTaas_stuck (authenticator : UInt64) {packet rest : List UInt8} {offset : Nat}
    {first : UInt8} (here : packet.drop offset = first :: 0 :: rest)
    (type : salExtType first = some .source) (fuel : Nat) {hdrLen : Int}
    (more : 0 < hdrLen) :
    updateTaas authenticator fuel packet offset hdrLen = .error .fuel := by
  obtain ⟨read, length⟩ := salExtLen_zero here type
  induction fuel with
  | zero => rfl
  | succ fuel ih =>
    rw [updateTaas, if_pos more, read, ok_bind, if_neg (by rw [type]; decide), length, ok_bind,
      salExtNext_of_len length, Nat.cast_zero, Int.sub_zero]
    exact ih

theorem count_of_kinds {exts exts' : List SalExt}
    (kinds : exts'.map SalExt.kind = exts.map SalExt.kind)
    (kind : SalExtType) :
    SalExt.count kind exts' = SalExt.count kind exts := by
  have asKinds (row : List SalExt) : SalExt.count kind row =
        (row.map SalExt.kind).countP (fun k => decide (k = kind)) := by
    rw [List.countP_map]
    rfl
  rw [asKinds, asKinds, kinds]

theorem kinds_map_stamp (authenticator : UInt64) (exts : List SalExt) :
    (exts.map (SalExt.stamp authenticator)).map SalExt.kind = exts.map SalExt.kind := by
  rw [List.map_map]
  exact List.map_congr_left fun e _ => SalExt.stamp_kind authenticator e

theorem StuckRow.of_kinds {exts exts' : List SalExt} {row : List UInt8} (stuck : StuckRow exts row)
    (kinds : exts'.map SalExt.kind = exts.map SalExt.kind) (first : UInt8)
    (rest : List UInt8) (type : salExtType first = some .source) :
    StuckRow exts' (SalExt.join exts' ++ (first :: 0 :: rest)) := by
  have few := congrArg List.length kinds
  rw [List.length_map, List.length_map] at few
  refine ⟨⟨first, rest, rfl, type⟩, ?_, ?_, ?_, ?_, ?_⟩
  · rw [few]
    exact stuck.room
  · rw [count_of_kinds kinds]
    exact stuck.controls
  · rw [count_of_kinds kinds]
    exact stuck.services
  · rw [count_of_kinds kinds]
    exact stuck.sources
  · rw [count_of_kinds kinds]
    exact stuck.taas

theorem StuckRow.updateAuthenticator (stuck : StuckRow exts row)
    (framed : Framed ids protocol row payload packet) {taasAuth : UInt64}
    {post sal : List UInt8}
    (run : updateAuthenticator (packet ++ post) taasAuth = .ok sal) :
    ∃ row' packet', sal = packet' ++ post ∧ packet'.length = packet.length ∧
      Framed ids protocol row' payload packet' ∧
      row'.length = row.length ∧ ∃ exts', StuckRow exts' row' := by
  rw [Serval.updateAuthenticator] at run
  by_cases given : taasAuth ≠ 0
  · rw [if_pos given] at run
    obtain ⟨first, rest, bytes, type⟩ := stuck.bytes
    obtain ⟨value, read, hdr⟩ := framed.shl post
    obtain ⟨size, shl, check, checkSize, words, form⟩ := framed
    have lead : (salPacket ids shl protocol check []).length = 12 := by
      rw [length_salPacket size checkSize]
      rfl
    have few := SalExt.length_le_join exts
    have rowLength := congrArg List.length bytes
    simp only [List.length_append, List.length_cons] at rowLength
    have whole : packet ++ post = salPacket ids shl protocol check [] ++ (SalExt.join exts ++
              (first :: 0 :: (rest ++ (payload ++ post)))) := by
      rw [form, bytes, salPacket_append, salPacket_append]
      simp only [List.append_assoc, List.cons_append, List.nil_append]
    have hdrLen : ((4 * value.toNat : Nat) : Int) - salHeaderLen =
          (SalExt.join exts).length + (rest.length + 2 : Nat) := by
      rw [hdr]
      show ((12 + row.length : Nat) : Int) - 12 = _
      omega
    rw [servalSalUpdateTaasExt, read, ok_bind] at run
    simp only [hdrLen] at run
    have twelve : salHeaderLen = 12 := rfl
    rcases SalExt.none_or_single stuck.taas with none | found
    · have here : (packet ++ post).drop 12 = SalExt.join exts ++
              (first :: 0 :: (rest ++ (payload ++ post))) := by
        rw [whole, List.drop_left' lead]
      have inside : (packet ++ post).drop (12 + (SalExt.join exts).length) =
            first :: 0 :: (rest ++ (payload ++ post)) := by
        rw [← List.drop_drop, here, List.drop_left]
      obtain ⟨left, fuels⟩ := Nat.exists_eq_add_of_le
          (show exts.length ≤ 4 * value.toNat + 1 by omega)
      rw [twelve, fuels, updateTaas_skip taasAuth none here left (rest.length + 2),
        updateTaas_stuck taasAuth inside type left (by omega)] at run
      cases run
    · obtain ⟨before, e, after, rfl, taas, left, right⟩ := found
      have found := updateTaas_found taasAuth (salPacket ids shl protocol check [])
          (first :: 0 :: (rest ++ (payload ++ post))) taas left right
          (show before.length < 4 * value.toNat + 1 by
            rw [List.length_append] at few
            omega) (rest.length + 2)
      rw [lead] at found
      rw [twelve, whole, found] at run
      cases run
      have stampLength := SalExt.length_join_stamp taasAuth (before ++ e :: after)
      refine ⟨SalExt.join ((before ++ e :: after).map (SalExt.stamp taasAuth)) ++
              (first :: 0 :: rest),
          salPacket ids shl protocol check
            (SalExt.join ((before ++ e :: after).map (SalExt.stamp taasAuth)) ++
                (first :: 0 :: rest) ++ payload), ?_, ?_,
          ⟨size, shl, check, checkSize, ?_, rfl⟩, ?_, _,
          stuck.of_kinds (kinds_map_stamp ..) first rest type⟩
      · rw [salPacket_append, salPacket_append]
        simp only [List.append_assoc, List.cons_append, List.nil_append]
      · rw [form, length_salPacket size checkSize, length_salPacket size checkSize]
        simp only [List.length_append, List.length_cons, stampLength, bytes]
      · rw [words, bytes]
        simp only [List.length_append, stampLength]
      · rw [bytes]
        simp only [List.length_append, stampLength]
  · rw [if_neg given] at run
    cases run
    exact ⟨row, packet, rfl, rfl, framed, rfl, exts, stuck⟩

end

/-! ## The hop that makes it -/

structure Plain (exts : List SalExt) : Prop where
  sized : ∀ e ∈ exts, e.kind ≠ .pad
  noSource : ∀ e ∈ exts, e.kind ≠ .source
  room : exts.length ≤ 4
  length : (SalExt.join exts).length ≤ 84
  words : (SalExt.join exts).length % 4 = 0
  controls : SalExt.count .control exts ≤ 1
  services : SalExt.count .service exts ≤ 2
  taas : SalExt.count .taas exts ≤ 1

theorem SalExt.twelve_le_length {e : SalExt} (sized : e.kind ≠ .pad) : 12 ≤ e.bytes.length := by
  have least := e.least
  cases kind : e.kind with
  | pad => exact absurd kind sized
  | control | service =>
    rw [kind] at least
    exact le_trans (by decide) least
  | address | source | taas =>
    rw [kind] at least
    exact least

theorem SalExt.exists_overwritten {e : SalExt} (sized : e.kind ≠ .pad) {new : List UInt8}
    (size : new.length = 4) :
    ∃ e' : SalExt, e'.kind = e.kind ∧ e'.bytes = e.bytes.take (e.bytes.length - 4) ++ new := by
  have long := SalExt.twelve_le_length sized
  have ok := e.ok.overwrite sized (show 2 ≤ e.bytes.length - 4 by omega)
      (show e.bytes.length - 4 + new.length ≤ e.bytes.length by omega)
  have nothing : e.bytes.drop (e.bytes.length - 4 + new.length) = [] :=
    List.drop_eq_nil_of_le (by omega)
  rw [nothing, List.append_nil] at ok
  exact ⟨⟨e.kind, _, ok⟩, rfl, rfl⟩

theorem Plain.stuckRow {exts : List SalExt} (plain : Plain exts) (first : UInt8)
    (rest : List UInt8) :
    StuckRow exts
      (SalExt.join exts ++ (extHdr [first] .source 256 ++ rest)) := by
  have room := plain.room
  refine ⟨⟨_, rest, rfl, salExtType_extHdr [first] .source⟩, by omega, plain.controls,
    plain.services, ?_, plain.taas⟩
  rw [count_eq_zero_of_none plain.noSource]
  exact Nat.zero_le 1

theorem Plain.of_kinds {exts exts' : List SalExt} (plain : Plain exts)
    (kinds : exts'.map SalExt.kind = exts.map SalExt.kind)
    (length : (SalExt.join exts').length = (SalExt.join exts).length) :
    Plain exts' := by
  have few := congrArg List.length kinds
  rw [List.length_map, List.length_map] at few
  have member {e : SalExt} (here : e ∈ exts') : ∃ e' ∈ exts, e'.kind = e.kind := by
    have mapped := List.mem_map_of_mem (f := SalExt.kind) here
    rw [kinds] at mapped
    exact List.mem_map.mp mapped
  constructor
  · intro e here
    obtain ⟨e', there, same⟩ := member here
    rw [← same]
    exact plain.sized e' there
  · intro e here
    obtain ⟨e', there, same⟩ := member here
    rw [← same]
    exact plain.noSource e' there
  · rw [few]
    exact plain.room
  · rw [length]
    exact plain.length
  · rw [length]
    exact plain.words
  · rw [count_of_kinds kinds]
    exact plain.controls
  · rw [count_of_kinds kinds]
    exact plain.services
  · rw [count_of_kinds kinds]
    exact plain.taas

/-- The length becomes zero, and the address goes over the bytes in front: the
end of an extension, or that of the base header. -/
theorem fill_wrapped {ids check daddr : List UInt8} {shl protocol : UInt8}
    {before : List SalExt} {ctx : SalContext}
    (size : ids.length = 8) (checkSize : check.length = 2)
    (plain : Plain before)
    (pointer : ctx.srcExt = some (12 + (SalExt.join before).length))
    (destination : daddr.length = 4) (first len : UInt8)
    (saddr rest : List UInt8) :
    ∃ protocol' exts', Plain exts' ∧ (SalExt.join exts').length = (SalExt.join before).length ∧
      fillGap
          (salPacket ids shl protocol check (SalExt.join before ++ (first :: len :: rest)))
          saddr daddr ctx 4 256 =
        .ok (salPacket ids (UInt8.ofNat ((ctx.length.toNat + 4) / 4)) protocol' [0, 0]
          (SalExt.join exts' ++ (extHdr [first] .source 256 ++ rest))) := by
  rcases List.eq_nil_or_concat before with none | ⟨pre, e, split⟩
  · cases none
    obtain ⟨protocol', filled⟩ :=
      @fillGap_wrapped_base ids check ctx size checkSize shl protocol daddr
        first len saddr rest 256 pointer destination le_rfl (by decide)
    exact ⟨protocol', [], plain, rfl, filled⟩
  rw [List.concat_eq_append] at split
  cases split
  have sized := plain.sized e (by simp)
  have long := SalExt.twelve_le_length sized
  obtain ⟨e', kind', bytes'⟩ := SalExt.exists_overwritten sized destination
  have length' : e'.bytes.length = e.bytes.length := by
    rw [bytes', List.length_append, List.length_take]
    omega
  have row : SalExt.join (pre ++ [e]) = (SalExt.join pre ++ e.bytes.take (e.bytes.length - 4)) ++
          e.bytes.drop (e.bytes.length - 4) := by
    rw [join_snoc, List.append_assoc, List.take_append_drop]
  have sameLength : (SalExt.join (pre ++ [e'])).length = (SalExt.join (pre ++ [e])).length := by
    rw [join_snoc, join_snoc, List.length_append, List.length_append, length']
  rw [row] at pointer
  have filled := @fillGap_wrapped ids check ctx size checkSize shl protocol _ _ daddr
      first len saddr rest 256 pointer
      (by rw [List.length_drop]; omega) destination le_rfl (by decide)
  refine ⟨protocol, pre ++ [e'], plain.of_kinds ?_ sameLength, sameLength, ?_⟩
  · simp only [List.map_append, List.map_cons, kind']
  · rw [row, join_snoc, bytes']
    simp only [List.append_assoc] at filled ⊢
    exact filled

section

variable {skb : LinearSkb} {ctx : SalContext} {front ip post ids : List UInt8}
  {protocol : UInt8} {before : List SalExt} {src : SalExt}
  {payload : List UInt8}

theorem Accepted.insertion_wrapped
    (accepted : Accepted skb ctx front ip post ids protocol (before ++ [src]) payload)
    (plain : Plain before) (kind : src.kind = .source)
    (full : src.bytes.length = 252) :
    ∃ lead rest, Insertion skb ctx front ip lead rest post 4 (src.bytes.length + 4)
        fun packet' =>
          ∃ protocol' row exts', Framed ids protocol' row payload packet' ∧
            row.length = (SalExt.join (before ++ [src])).length + 4 ∧ StuckRow exts' row := by
  have header := accepted.header
  have length := accepted.length
  have short := plain.length
  have words := plain.words
  have pointer := accepted.srcExt_some kind plain.noSource (by simp)
  obtain ⟨shl, check, first, len, body, spare, size, checkSize, -, cut, holds,
    point⟩ := accepted.cut kind pointer
  have total := congrArg List.length cut.bytes
  simp only [List.length_cons, List.length_append] at total
  refine ⟨_, _, holds, header, point, ?_⟩
  intro post gap gapSize
  obtain ⟨protocol', exts', plain', sameLength, filled⟩ :=
    @fill_wrapped ids check ((ip.drop 16).take 4) shl protocol before ctx size
      checkSize plain pointer (length_ip_field (by omega)) first len
      ((ip.drop 12).take 4) (body ++ (gap ++ (spare ++ (payload ++ post))))
  rw [join_snoc, List.length_append] at length
  have rowLength : (SalExt.join exts' ++
          (extHdr [first] .source 256 ++ (body ++ (gap ++ spare)))).length =
        (SalExt.join before).length + 256 := by
    simp only [List.length_append, extHdr, List.length_cons, List.length_nil, gapSize]
    omega
  refine ⟨salPacket ids (UInt8.ofNat ((ctx.length.toNat + 4) / 4)) protocol' [0, 0]
      ((SalExt.join exts' ++ (extHdr [first] .source 256 ++ (body ++ (gap ++ spare)))) ++ payload),
      ?_, ?_, protocol', _, exts', ?_, ?_,
      plain'.stuckRow first (body ++ (gap ++ spare))⟩
  · rw [full, salPacket_append, salPacket_append, salPacket_append]
    simp only [List.append_assoc, List.cons_append] at filled ⊢
    exact filled
  · rw [length_salPacket size rfl, List.length_append, rowLength, List.length_append,
      length_salPacket size checkSize]
    simp only [List.length_append, List.length_cons, SalExt.join, List.map_nil, List.flatten_nil,
      List.length_nil]
    omega
  · apply Framed.of_reset size protocol'
    · omega
    · omega
    · omega
  · rw [rowLength, join_snoc, List.length_append, full]

theorem Accepted.sent_wrapped {env : ForwardEnv} {target : Target} {copied : Bool} {ret : Int}
    {sent : LinearSkb}
    (accepted : Accepted skb ctx front ip post ids protocol (before ++ [src]) payload)
    (plain : Plain before) (kind : src.kind = .source)
    (full : src.bytes.length = 252)
    (run : forwardTo env skb ctx target copied ctx.length.toNat = .ok (ret, some sent)) :
    ∃ protocol' row payload', (∃ exts, StuckRow exts row) ∧
      Framed ids protocol' row payload' sent.packet := by
  obtain ⟨packet, holds, shaped⟩ := accepted.packet
  obtain ⟨skb1, skb2, proto, iphLen, holds1, added, success, finished⟩ := forwardTo_sent run holds
  have accepted1 : Accepted skb1 ctx front ip post ids protocol (before ++ [src])
        payload :=
    { accepted with packet := ⟨packet, holds1, shaped⟩ }
  rw [accepted1.run_another kind plain.noSource (by simp)] at added
  by_cases seen : (ip.drop 16).take 4 ∈ src.addrs
  · rw [if_pos seen] at added
    cases added
    exact absurd success (by decide)
  rw [if_neg seen] at added
  obtain ⟨lead, rest, insertion⟩ := accepted1.insertion_wrapped plain kind full
  obtain ⟨value, front', packet', post', holds', protocol', row, exts', framed, rowLength,
    stuck⟩ := insertion.inv added success
  obtain ⟨row', payload', good, framed'⟩ :=
    finishForward_framed (R := fun row => ∃ exts, StuckRow exts row)
      finished holds' accepted.header (by
        intro sal stamp
        obtain ⟨row', packet1, bytes, length, framed1, sameLength, still⟩ :=
          stuck.updateAuthenticator framed stamp
        refine ⟨row', packet1, bytes, length, framed1, ?_, still⟩
        rw [sameLength, rowLength, value, accepted.length, Int.toNat_natCast, Nat.add_assoc])
  exact ⟨protocol', row', payload', good, framed'⟩

end

end Serval
