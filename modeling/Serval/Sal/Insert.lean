import Serval.Sal.Source

/-!
# The insertion into a forwarded packet

What `serval_sal_add_source_ext` leaves in the buffer, byte by byte: for a new
extension, for an address more in an old one, and for a length that wraps
around.
-/

namespace Serval

open Serval.Support

/-- The memory is some headroom, the IP header, the packet from its SAL header
on, and some tailroom. -/
structure LinearSkb.Placed (skb : LinearSkb) (front ip packet post : List UInt8) : Prop where
  mem : skb.mem = front ++ (ip ++ (packet ++ post))
  network : skb.networkHeader = front.length
  transport : skb.transportHeader = front.length + ip.length
  tail : skb.tail = front.length + ip.length + packet.length

structure LinearSkb.Holds (skb : LinearSkb) (front ip packet post : List UInt8) : Prop extends
    LinearSkb.Placed skb front ip packet post where
  data : skb.data = front.length + ip.length

namespace LinearSkb.Placed

variable {skb : LinearSkb} {front ip packet post : List UInt8}

theorem sal_eq (placed : skb.Placed front ip packet post) : skb.sal = packet ++ post := by
  rw [LinearSkb.sal, placed.mem, placed.transport, ← List.drop_drop, List.drop_left, List.drop_left]

theorem size_eq (placed : skb.Placed front ip packet post) :
    skb.transportHeader - skb.networkHeader = ip.length := by
  rw [placed.transport, placed.network, Nat.add_sub_cancel_left]

theorem ip_field (placed : skb.Placed front ip packet post) {start : Nat}
    (inside : start + 4 ≤ ip.length) :
    Support.readBytes skb.mem (skb.networkHeader + start) 4 = .ok ((ip.drop start).take 4) := by
  have here : skb.mem.drop skb.networkHeader = ip ++ (packet ++ post) := by
    rw [placed.mem, placed.network, List.drop_left]
  exact readBytes_within here start (by decide) inside

theorem withSal (placed : skb.Placed front ip packet post) {packet' : List UInt8}
    (post' : List UInt8) (length : packet'.length = packet.length) :
    (skb.withSal (packet' ++ post')).Placed front ip packet' post' := by
  have cut : skb.mem.take skb.transportHeader = front ++ ip := by
    rw [placed.mem, placed.transport, List.take_length_add_append, List.take_left]
  constructor
  · rw [LinearSkb.withSal, cut, List.append_assoc]
  · exact placed.network
  · exact placed.transport
  · rw [length]
    exact placed.tail

end LinearSkb.Placed

variable {skb : LinearSkb} {front ip daddr post : List UInt8} {extLen : Nat}

theorem LinearSkb.Holds.withSal {packet packet' : List UInt8}
    (holds : skb.Holds front ip packet post) (post' : List UInt8)
    (length : packet'.length = packet.length) :
    (skb.withSal (packet' ++ post')).Holds front ip packet' post' :=
  { holds.toPlaced.withSal post' length with data := holds.data }

structure LinearSkb.AtIp (skb : LinearSkb) (front ip packet post : List UInt8) : Prop where
  mem : skb.mem = front ++ (ip ++ (packet ++ post))
  data : skb.data = front.length
  tail : skb.tail = front.length + ip.length + packet.length

/-- The gap opens behind `before`, and the headroom shrinks by as much. -/
theorem openGap_spec {before after : List UInt8} {extraLen : Nat}
    (atIp : skb.AtIp front ip (before ++ after) post)
    (room : extraLen ≤ front.length) :
    ∃ gap skb', gap.length = extraLen ∧ openGap skb ip.length before.length extraLen = .ok skb' ∧
      skb'.Holds (front.take (front.length - extraLen)) ip
        (before ++ (gap ++ after)) post := by
  obtain ⟨gap, size, moved⟩ := @memmove_back front (ip ++ before) (after ++ post) extraLen room
  have kept : (front.take (front.length - extraLen)).length = front.length - extraLen := by
    rw [List.length_take]
    omega
  have data := atIp.data
  have tail := atIp.tail
  rw [List.length_append] at tail
  have moves : memmove skb.mem (skb.data - extraLen) skb.data (ip.length + before.length) =
        .ok (front.take (front.length - extraLen) ++
          (ip ++ ((before ++ (gap ++ after)) ++ post))) := by
    rw [List.length_append] at moved
    simp only [List.append_assoc] at moved ⊢
    rw [atIp.mem, data, List.append_assoc, moved]
  have pushed : skb.push extraLen = .ok { skb with data := skb.data - extraLen } :=
    if_pos (by omega)
  have pulled (mem : List UInt8) :
      ({ skb with
          mem := mem
          data := skb.data - extraLen
          networkHeader := skb.data - extraLen } : LinearSkb).pull
          ip.length =
        { skb with
          mem := mem
          data := skb.data - extraLen + ip.length
          networkHeader := skb.data - extraLen } :=
    if_neg (by
      show ¬ skb.tail - (skb.data - extraLen) < ip.length
      omega)
  refine ⟨gap,
      { skb with
        mem := front.take (front.length - extraLen) ++ (ip ++ ((before ++ (gap ++ after)) ++ post))
        data := skb.data - extraLen + ip.length
        networkHeader := skb.data - extraLen
        transportHeader := skb.data - extraLen + ip.length },
      size, ?_, ?_⟩
  · simp only [openGap, pushed, ok_bind, moves, pulled]
  · refine ⟨⟨rfl, ?_, ?_, ?_⟩, ?_⟩
    · rw [kept, data]
    · rw [kept, data]
    · show skb.tail = _
      simp only [List.length_append, kept, size]
      omega
    · rw [kept, data]

theorem insertAt_spec {ctx : SalContext} {before after : List UInt8}
    {extraLen : Nat} {P : List UInt8 → Prop}
    (atIp : skb.AtIp front ip (before ++ after) post)
    (header : 20 ≤ ip.length) (room : extraLen ≤ front.length)
    (fill :
      ∀ gap : List UInt8, gap.length = extraLen →
        ∃ packet', fillGap ((before ++ (gap ++ after)) ++ post)
              ((ip.drop 12).take 4) ((ip.drop 16).take 4) ctx extraLen
              extLen =
            .ok (packet' ++ post) ∧ packet'.length = (before ++ after).length + extraLen ∧
          P packet') :
    ∃ front' skb' packet', insertAt skb ctx ip.length before.length extraLen extLen = .ok skb' ∧
      skb'.Holds front' ip packet' post ∧ P packet' := by
  obtain ⟨gap, skb', size, opened, holds⟩ := openGap_spec atIp room
  obtain ⟨packet', filled, length, good⟩ := fill gap size
  have saddr := holds.ip_field (show 12 + 4 ≤ ip.length by omega)
  have daddr := holds.ip_field (show 16 + 4 ≤ ip.length by omega)
  refine ⟨_, skb'.withSal (packet' ++ post), packet', ?_, holds.withSal post ?_, good⟩
  · rw [insertAt, opened, ok_bind, LinearSkb.ipSaddr, saddr, ok_bind, LinearSkb.ipDaddr, daddr,
      ok_bind, holds.sal_eq, filled, ok_bind]
  · rw [length]
    simp only [List.length_append]
    omega

section

variable {skb : LinearSkb} {ctx : SalContext}
  {front ip before after post : List UInt8} {extraLen extLen : Nat}
  {P : List UInt8 → Prop}

variable {packet : List UInt8}

theorem LinearSkb.Holds.pushed (holds : skb.Holds front ip packet post) :
    ∃ skb', skb.push ip.length = .ok skb' ∧ skb'.AtIp front ip packet post ∧
      skb'.hardHeaderLen = skb.hardHeaderLen := by
  have data := holds.data
  refine ⟨{ skb with data := skb.data - ip.length }, if_pos (by omega), ?_, rfl⟩
  constructor
  · exact holds.mem
  · show skb.data - ip.length = front.length
    omega
  · exact holds.tail

theorem LinearSkb.AtIp.copyExpand (atIp : skb.AtIp front ip packet post)
    (extra : Nat) (content : Nat → UInt8) :
    ∃ post', (skb.copyExpand extra content).AtIp
        ((List.range extra).map content ++ front) ip packet post' := by
  have kept : skb.mem.take skb.tail = front ++ (ip ++ packet) := by
    rw [atIp.mem, atIp.tail, Nat.add_assoc, List.take_length_add_append,
      List.take_length_add_append, List.take_left]
  refine ⟨(List.range (skb.mem.length - skb.tail)).map
        fun i => content (extra + skb.tail + i), ?_, ?_, ?_⟩
  · simp only [LinearSkb.copyExpand, kept, List.append_assoc]
  · show skb.data + extra = _
    rw [atIp.data, List.length_append, List.length_map, List.length_range]
    omega
  · show skb.tail + extra = _
    rw [atIp.tail, List.length_append, List.length_map, List.length_range]
    omega

/-- The packet is cut at the point of insertion, and the gap can be filled such
that the packet comes out as `P` says. -/
structure Insertion (skb : LinearSkb) (ctx : SalContext)
    (front ip before after post : List UInt8) (extraLen extLen : Nat)
    (P : List UInt8 → Prop) : Prop where
  holds : skb.Holds front ip (before ++ after) post
  header : 20 ≤ ip.length
  point : insertionPoint ((before ++ after) ++ post) ctx false = .ok before.length
  fill :
    ∀ post gap : List UInt8, gap.length = extraLen →
      ∃ packet', fillGap ((before ++ (gap ++ after)) ++ post)
            ((ip.drop 12).take 4) ((ip.drop 16).take 4) ctx extraLen extLen =
          .ok (packet' ++ post) ∧ packet'.length = (before ++ after).length + extraLen ∧ P packet'

/-- It succeeds with enough headroom, and with a new buffer if the source
extension is not read in the old one. -/
theorem Insertion.of_place
    (insertion : Insertion skb ctx front ip before after post extraLen extLen P)
    {copied : Bool} {fresh : Option (Nat → UInt8)}
    (place :
      extraLen + ip.length + skb.hardHeaderLen ≤ front.length ∨
        fresh.isSome = true ∧ (copied = true ∨ ctx.srcExt = none)) :
    ∃ front' skb' packet' post', insertSourceExt skb ctx copied fresh extraLen extLen =
        .ok ((extraLen : Int), skb') ∧ skb'.Holds front' ip packet' post' ∧ P packet' := by
  obtain ⟨holds, header, point, fill⟩ := insertion
  obtain ⟨pushed, push, atIp, sameLen⟩ := holds.pushed
  rw [insertSourceExt, holds.size_eq, push, ok_bind, holds.sal_eq]
  by_cases roomy : extraLen + ip.length + skb.hardHeaderLen ≤ front.length
  · obtain ⟨front', skb', packet', inserted, holds', good⟩ :=
      insertAt_spec atIp header (show extraLen ≤ front.length by omega)
        (fill post)
    have same : makeRoom pushed ip.length extraLen fresh = some (false, pushed) :=
      if_neg (by rw [atIp.data]; omega)
    refine ⟨front', skb', packet', post, ?_, holds', good⟩
    rw [same]
    simp only [Bool.false_and, point, ok_bind, inserted]
  · obtain ⟨given, readable⟩ := place.resolve_left roomy
    obtain ⟨content, rfl⟩ := Option.isSome_iff_exists.mp given
    obtain ⟨post', atIp'⟩ := atIp.copyExpand extraLen content
    obtain ⟨front', skb', packet', inserted, holds', good⟩ := insertAt_spec atIp' header (by
          rw [List.length_append, List.length_map, List.length_range]
          omega)
        (fill post')
    have expanded : makeRoom pushed ip.length extraLen (some content) =
          some (true, pushed.copyExpand extraLen content) :=
      if_pos (by rw [atIp.data]; omega)
    have point' : insertionPoint ((before ++ after) ++ post) ctx (true && !copied) =
          .ok before.length := by
      rcases readable with copy | none
      · rw [copy]
        exact point
      · rw [← point, insertionPoint, insertionPoint, none]
    refine ⟨front', skb', packet', post', ?_, holds', good⟩
    rw [expanded]
    simp only [point', ok_bind, inserted]

/-- Without memory for a new buffer the old one is left as it is. -/
theorem LinearSkb.Holds.insert_of_full
    {packet : List UInt8} (holds : skb.Holds front ip packet post)
    (tight : front.length < extraLen + ip.length + skb.hardHeaderLen)
    (copied : Bool) :
    ∃ skb', insertSourceExt skb ctx copied none extraLen extLen = .ok (-ENOMEM, skb') ∧
      skb'.sal = skb.sal := by
  obtain ⟨pushed, push, atIp, sameLen⟩ := holds.pushed
  have same : pushed.sal = skb.sal := by
    rw [LinearSkb.push] at push
    split_ifs at push
    cases push
    rfl
  have noRoom : makeRoom pushed ip.length extraLen none = none :=
    if_pos (by rw [atIp.data, sameLen]; exact tight)
  refine ⟨pushed, ?_, same⟩
  rw [insertSourceExt, holds.size_eq, push, ok_bind, noRoom]

/-- The source extension would be read in the buffer that was freed. -/
theorem LinearSkb.Holds.insert_of_freed (holds : skb.Holds front ip packet post)
    (tight : front.length < extraLen + ip.length + skb.hardHeaderLen)
    (content : Nat → UInt8) (given : ctx.srcExt ≠ none) :
    insertSourceExt skb ctx false (some content) extraLen extLen = .error .freed := by
  obtain ⟨pushed, push, atIp, sameLen⟩ := holds.pushed
  have expanded : makeRoom pushed ip.length extraLen (some content) =
        some (true, pushed.copyExpand extraLen content) :=
    if_pos (by rw [atIp.data, sameLen]; exact tight)
  obtain ⟨ext, pointer⟩ := Option.ne_none_iff_exists'.mp given
  rw [insertSourceExt, holds.size_eq, push, ok_bind, expanded]
  simp only [insertionPoint, pointer]
  rfl

/-- One that succeeds puts the same bytes into the packet, also when the buffer
had to be expanded. -/
theorem Insertion.inv (insertion : Insertion skb ctx front ip before after post extraLen extLen P)
    {copied : Bool} {fresh : Option (Nat → UInt8)} {ret : Int}
    {skb' : LinearSkb}
    (run : insertSourceExt skb ctx copied fresh extraLen extLen = .ok (ret, skb'))
    (success : 0 ≤ ret) :
    ret = extraLen ∧
      ∃ front' packet' post', skb'.Holds front' ip packet' post' ∧ P packet' := by
  have placed
      (place :
        extraLen + ip.length + skb.hardHeaderLen ≤ front.length ∨
          fresh.isSome = true ∧ (copied = true ∨ ctx.srcExt = none)) :
      ret = extraLen ∧
        ∃ front' packet' post', skb'.Holds front' ip packet' post' ∧ P packet' := by
    obtain ⟨front', other, packet', post', inserted, holds', good⟩ := insertion.of_place place
    rw [inserted] at run
    cases run
    exact ⟨rfl, front', packet', post', holds', good⟩
  by_cases tight : front.length < extraLen + ip.length + skb.hardHeaderLen
  · cases fresh with
    | none =>
      obtain ⟨other, full, -⟩ := insertion.holds.insert_of_full tight copied
      rw [full] at run
      cases run
      exact absurd success (by decide)
    | some content =>
      by_cases readable : copied = true ∨ ctx.srcExt = none
      · exact placed (.inr ⟨rfl, readable⟩)
      · obtain ⟨own, given⟩ := not_or.mp readable
        rw [Bool.eq_false_of_not_eq_true own,
          insertion.holds.insert_of_freed tight content given] at run
        cases run
  · exact placed (.inl (not_lt.mp tight))

end

/-! ## What the gap is filled with -/

theorem salSourceExtGetLastAddr_eq (ext : Nat) {length : UInt8} (least : 8 ≤ length.toNat) :
    salSourceExtGetLastAddr ext length = .ok (ext + 4 * ((length.toNat - 4) / 4)) := by
  have small := length.toNat_lt
  have count := toNat_salSourceExtNumAddrs (show 4 ≤ length.toNat by omega)
  have one : (1 : UInt64) ≤ salSourceExtNumAddrs length := UInt64.le_iff_toNat_le.mpr (by
      show 1 ≤ _
      omega)
  have index : ((salSourceExtNumAddrs length - 1) * 4).toNat =
        ((length.toNat - 4) / 4 - 1) * 4 := by
    rw [UInt64.toNat_mul, UInt64.toNat_sub_of_le _ _ one, count]
    show ((length.toNat - 4) / 4 - 1) * 4 % 2 ^ 64 = _
    omega
  rw [salSourceExtGetLastAddr]
  rw [if_pos (by omega)]
  congr 1
  omega

/-- A length that wrapped around puts it in front of the extension. -/
theorem salSourceExtGetLastAddr_wrapped {ext : Nat} {length : UInt8} (wrapped : length.toNat < 4)
    (behind : 4 ≤ ext) :
    salSourceExtGetLastAddr ext length = .ok (ext - 4) := by
  have index : (salSourceExtNumAddrs length - 1) * 4 = 0 - 8 := by
    have cases : length = 0 ∨ length = 1 ∨ length = 2 ∨ length = 3 := by
      simp only [← UInt8.toNat_inj]
      show length.toNat = 0 ∨ length.toNat = 1 ∨ length.toNat = 2 ∨ length.toNat = 3
      omega
    rcases cases with rfl | rfl | rfl | rfl <;> rfl
  rw [salSourceExtGetLastAddr]
  simp only [index]
  rw [if_neg (by decide)]
  have back : (0 - (0 - 8) : UInt64).toNat = 8 := rfl
  rw [if_pos (by omega)]
  congr 1

def newSourceExt (gap saddr daddr : List UInt8) : List UInt8 :=
  extHdr gap .source 12 ++ ((gap.drop 2).take 2 ++ (saddr ++ daddr))

theorem writeSourceExt_new (before : List UInt8) {gap saddr : List UInt8}
    (after : List UInt8) (size : gap.length = 12) (source : saddr.length = 4)
    (destination : daddr.length = 4) :
    writeSourceExt (before ++ (gap ++ after)) saddr daddr before.length false
        12 =
      .ok (before ++ (newSourceExt gap saddr daddr ++ after)) := by
  match gap, size with
  | [g0, g1, g2, g3, g4, g5, g6, g7, g8, g9, g10, g11], _ =>
    have first := readByte_behind before
        (show readByte ([g0, g1] ++ ([g2, g3, g4, g5, g6, g7, g8, g9, g10,
          g11] ++ after)) 0 = .ok g0 from rfl)
    have header := writeBytes_behind before
        (@writeBytes_between [] [g0, g1] (extHdr [g0] .source 12)
          ([g2, g3, g4, g5, g6, g7, g8, g9, g10, g11] ++ after) 0 rfl rfl)
    have address0 := writeBytes_behind before
        (@writeBytes_between (extHdr [g0] .source 12 ++ [g2, g3])
          [g4, g5, g6, g7] saddr ([g8, g9, g10, g11] ++ after) 4 rfl
          source.symm)
    have address1 := writeBytes_behind before (@writeBytes_between
          (extHdr [g0] .source 12 ++ ([g2, g3] ++ saddr))
          [g8, g9, g10, g11] daddr after 8
          (by simp [extHdr, source]) destination.symm)
    have made : newSourceExt [g0, g1, g2, g3, g4, g5, g6, g7, g8, g9, g10, g11] saddr daddr =
          extHdr [g0] .source 12 ++ ([g2, g3] ++ (saddr ++ daddr)) :=
      rfl
    rw [made]
    refine (congrArg (· >>= _) first).trans ?_
    rw [ok_bind]
    refine (congrArg (· >>= _) header).trans ?_
    rw [ok_bind]
    refine (congrArg (· >>= _) address0).trans ?_
    refine address1.trans ?_
    simp only [List.append_assoc]

theorem writeExtHdr (lead : List UInt8) (first length : UInt8) (rest : List UInt8) (extLen : Nat) :
    readByte (lead ++ (first :: length :: rest)) lead.length = .ok first ∧
      writeBytes (lead ++ (first :: length :: rest)) lead.length
          (extHdr [first] .source extLen) =
        .ok (lead ++ (extHdr [first] .source extLen ++ rest)) ∧
      readByte (lead ++ (extHdr [first] .source extLen ++ rest))
          (lead.length + 1) =
        .ok (UInt8.ofNat extLen) := by
  refine ⟨?_, ?_, ?_⟩
  · exact readByte_behind lead (show readByte (first :: length :: rest) 0 = .ok first from rfl)
  · exact @writeBytes_between lead [first, length] _ rest lead.length rfl rfl
  · exact readByte_behind lead (show readByte (extHdr [first] .source extLen ++ rest) 1 =
        .ok (UInt8.ofNat extLen) from rfl)

theorem writeSourceExt_append (lead : List UInt8) (first length : UInt8)
    {body gap : List UInt8} (saddr after : List UInt8) (size : gap.length = 4)
    (destination : daddr.length = 4) (least : 8 ≤ extLen)
    (byte : extLen < 256) (place : body.length + 2 = 4 * ((extLen - 4) / 4)) :
    writeSourceExt (lead ++ (first :: length :: (body ++ (gap ++ after))))
        saddr daddr lead.length true extLen =
      .ok (lead ++ (extHdr [first] .source extLen ++ (body ++ (daddr ++ after)))) := by
  have value : (UInt8.ofNat extLen).toNat = extLen := UInt8.toNat_ofNat_of_lt' byte
  obtain ⟨read, header, stored⟩ := writeExtHdr lead first length (body ++ (gap ++ after)) extLen
  have last : salSourceExtGetLastAddr lead.length (UInt8.ofNat extLen) =
        .ok (lead.length + (body.length + 2)) := by
    rw [salSourceExtGetLastAddr_eq _ (by rw [value]; exact least), value, place]
  have appended := writeBytes_behind lead
      (@writeBytes_between (extHdr [first] .source extLen ++ body) gap daddr after (body.length + 2)
        (by
          rfl)
        (size.trans destination.symm))
  rw [List.append_assoc, List.append_assoc] at appended
  rw [writeSourceExt, read, ok_bind, header, ok_bind, if_pos rfl, stored, ok_bind, last, ok_bind,
    appended]

/-- With a length that wraps around, the address overwrites the bytes in front
of the extension. -/
theorem writeSourceExt_wrapped (lead : List UInt8) {old daddr : List UInt8} (first length : UInt8)
    (saddr rest : List UInt8) {extLen : Nat}
    (size : old.length = 4) (destination : daddr.length = 4)
    (wraps : 256 ≤ extLen) (below : extLen < 260) :
    writeSourceExt (lead ++ (old ++ (first :: length :: rest)))
        saddr daddr (lead.length + 4) true extLen =
      .ok (lead ++ (daddr ++ (extHdr [first] .source extLen ++ rest))) := by
  have value : (UInt8.ofNat extLen).toNat < 4 := by
    rw [UInt8.toNat_ofNat']
    omega
  obtain ⟨read, header, stored⟩ := writeExtHdr (lead ++ old) first length rest extLen
  have last : salSourceExtGetLastAddr (lead.length + 4) (UInt8.ofNat extLen) = .ok lead.length :=
    salSourceExtGetLastAddr_wrapped value (by omega)
  have written : writeBytes (lead ++ (old ++ (extHdr [first] .source extLen ++ rest)))
          lead.length daddr =
        .ok (lead ++ (daddr ++ (extHdr [first] .source extLen ++ rest))) :=
    writeBytes_between rfl (size.trans destination.symm)
  rw [List.length_append, size, List.append_assoc] at read header stored
  rw [writeSourceExt, read, ok_bind, header, ok_bind, if_pos rfl, List.append_assoc, stored,
    ok_bind, last, ok_bind, written]

theorem length_of_writeSourceExt {sal saddr sal' : List UInt8} {sxt : Nat} {append : Bool}
    (run : writeSourceExt sal saddr daddr sxt append extLen = .ok sal') :
    sal'.length = sal.length := by
  obtain ⟨first, -, run⟩ := of_bind run
  obtain ⟨written, header, run⟩ := of_bind run
  rw [← length_of_writeBytes header]
  split_ifs at run
  · obtain ⟨length, -, run⟩ := of_bind run
    obtain ⟨last, -, run⟩ := of_bind run
    exact length_of_writeBytes run
  · obtain ⟨written', source, run⟩ := of_bind run
    rw [← length_of_writeBytes source]
    exact length_of_writeBytes run

def salPacket (ids : List UInt8) (shl protocol : UInt8) (check rest : List UInt8) :
    List UInt8 :=
  ids ++ ([shl, protocol] ++ (check ++ rest))

section

variable {ids check : List UInt8}

theorem exists_salPacket {packet : List UInt8} (base : 12 ≤ packet.length) :
    ∃ ids shl protocol check rest, ids.length = 8 ∧ check.length = 2 ∧
      packet = salPacket ids shl protocol check rest := by
  have long : 4 ≤ (packet.drop 8).length := by
    rw [List.length_drop]
    omega
  have split := List.take_append_drop 8 packet
  rcases behind : packet.drop 8 with _ | ⟨shl, _ | ⟨protocol, _ | ⟨c0, _ | ⟨c1, rest⟩⟩⟩⟩
  case cons.cons.cons.cons =>
    refine ⟨packet.take 8, shl, protocol, [c0, c1], rest, ?_, rfl, ?_⟩
    · rw [List.length_take]
      omega
    · rw [behind] at split
      exact split.symm
  all_goals
    rw [behind] at long
    simp at long

theorem resetBase (size : ids.length = 8) (checkSize : check.length = 2)
    (shl protocol : UInt8) (rest : List UInt8) (shl' : UInt8) :
    (do
      let sal ← writeBytes (salPacket ids shl protocol check rest) 10 [0, 0]
      writeBytes sal 8 [shl']) =
      .ok (salPacket ids shl' protocol [0, 0] rest) := by
  have cleared : writeBytes ((ids ++ [shl, protocol]) ++ (check ++ rest)) 10 [0, 0] =
        .ok ((ids ++ [shl, protocol]) ++ ([0, 0] ++ rest)) :=
    writeBytes_between (by rw [List.length_append, size]; rfl) checkSize
  have set : writeBytes (ids ++ ([shl] ++ ([protocol] ++ ([0, 0] ++ rest)))) 8 [shl'] =
        .ok (ids ++ ([shl'] ++ ([protocol] ++ ([0, 0] ++ rest)))) :=
    writeBytes_between size rfl
  rw [List.append_assoc, List.append_assoc] at cleared
  rw [salPacket, cleared]
  exact set

theorem salPacket_append (ids : List UInt8) (shl protocol : UInt8) (check first second :
      List UInt8) :
    salPacket ids shl protocol check first ++ second =
      salPacket ids shl protocol check (first ++ second) := by
  simp only [salPacket, List.append_assoc]

theorem length_salPacket (size : ids.length = 8) (checkSize : check.length = 2)
    (shl protocol : UInt8) (rest : List UInt8) :
    (salPacket ids shl protocol check rest).length = 12 + rest.length := by
  simp only [salPacket, List.length_append, size, checkSize, List.length_cons, List.length_nil]
  omega

section

variable {ctx : SalContext} (size : ids.length = 8) (checkSize : check.length = 2)
  (shl protocol : UInt8)

include size checkSize

theorem fillGap_new {row gap saddr daddr : List UInt8} (after : List UInt8)
    (none : ctx.srcExt = none) (length : ctx.length.toNat = 12 + row.length)
    (gapSize : gap.length = 12) (source : saddr.length = 4)
    (destination : daddr.length = 4) :
    fillGap (salPacket ids shl protocol check (row ++ (gap ++ after))) saddr
        daddr ctx 12 12 =
      .ok (salPacket ids (UInt8.ofNat ((12 + row.length + 12) / 4)) protocol
        [0, 0] (row ++ (newSourceExt gap saddr daddr ++ after))) := by
  have place := length_salPacket size checkSize shl protocol row
  have written := writeSourceExt_new (salPacket ids shl protocol check row) after gapSize
      source destination
  rw [place, salPacket_append, salPacket_append] at written
  have pointer : ctx.srcExt.getD ctx.length.toNat = 12 + row.length := by
    rw [none, length]
    rfl
  have fresh : ctx.srcExt.isSome = false := by
    rw [none]
    rfl
  rw [fillGap, pointer, fresh, written, length]
  exact resetBase size checkSize shl protocol _ _

theorem fillGap_old {sal saddr daddr rest : List UInt8} {sxt extraLen extLen : Nat}
    (pointer : ctx.srcExt = some sxt)
    (written :
      writeSourceExt sal saddr daddr sxt true extLen =
        .ok (salPacket ids shl protocol check rest)) :
    fillGap sal saddr daddr ctx extraLen extLen =
      .ok (salPacket ids (UInt8.ofNat ((ctx.length.toNat + extraLen) / 4)) protocol [0, 0]
        rest) := by
  rw [fillGap, pointer, Option.getD_some, Option.isSome_some, written]
  exact resetBase size checkSize shl protocol _ _

theorem fillGap_append {lead body gap daddr : List UInt8} (first length : UInt8)
    (saddr after : List UInt8) {extLen : Nat}
    (pointer : ctx.srcExt = some (12 + lead.length))
    (gapSize : gap.length = 4) (destination : daddr.length = 4)
    (least : 8 ≤ extLen) (byte : extLen < 256)
    (place : body.length + 2 = 4 * ((extLen - 4) / 4)) :
    fillGap
        (salPacket ids shl protocol check (lead ++ (first :: length :: (body ++ (gap ++ after)))))
        saddr daddr ctx 4 extLen =
      .ok (salPacket ids (UInt8.ofNat ((ctx.length.toNat + 4) / 4)) protocol [0, 0] (lead ++
          (extHdr [first] .source extLen ++ (body ++ (daddr ++ after))))) := by
  have start := length_salPacket size checkSize shl protocol lead
  have written := writeSourceExt_append (salPacket ids shl protocol check lead) first
      length saddr after gapSize destination least byte place
  rw [start, salPacket_append, salPacket_append] at written
  exact fillGap_old size checkSize shl protocol pointer written

/-- A length that wraps around: the extension keeps its place, and the address
goes over the last bytes in front of it. -/
theorem fillGap_wrapped {lead old daddr : List UInt8} (first length : UInt8)
    (saddr rest : List UInt8) {extLen : Nat}
    (pointer : ctx.srcExt = some (12 + (lead ++ old).length))
    (oldSize : old.length = 4) (destination : daddr.length = 4)
    (wraps : 256 ≤ extLen) (below : extLen < 260) :
    fillGap
        (salPacket ids shl protocol check (lead ++ (old ++ (first :: length :: rest))))
        saddr daddr ctx 4 extLen =
      .ok (salPacket ids (UInt8.ofNat ((ctx.length.toNat + 4) / 4)) protocol [0, 0]
        (lead ++ (daddr ++ (extHdr [first] .source extLen ++ rest)))) := by
  have start := length_salPacket size checkSize shl protocol lead
  have written := writeSourceExt_wrapped (salPacket ids shl protocol check lead) first
      length saddr rest oldSize destination wraps below
  rw [start, salPacket_append, salPacket_append] at written
  rw [List.length_append, oldSize] at pointer
  exact fillGap_old size checkSize shl protocol pointer written

/-- Without an extension in front, the address goes over the base header. -/
theorem fillGap_wrapped_base {daddr : List UInt8} (first length : UInt8) (saddr rest : List UInt8)
    {extLen : Nat} (pointer : ctx.srcExt = some 12)
    (destination : daddr.length = 4) (wraps : 256 ≤ extLen)
    (below : extLen < 260) :
    ∃ protocol', fillGap (salPacket ids shl protocol check (first :: length :: rest))
          saddr daddr ctx 4 extLen =
        .ok (salPacket ids (UInt8.ofNat ((ctx.length.toNat + 4) / 4))
          protocol' [0, 0] (extHdr [first] .source extLen ++ rest)) := by
  match daddr, destination with
  | [d0, d1, d2, d3], destination =>
    have written := writeSourceExt_wrapped ids first length saddr rest
        (show ([shl, protocol] ++ check).length = 4 by
          rw [List.length_append, checkSize]
          rfl) destination wraps below
    rw [size] at written
    refine ⟨d1, ?_⟩
    exact fillGap_old size (show [d2, d3].length = 2 from rfl) d0 d1 pointer written

end

end

end Serval
