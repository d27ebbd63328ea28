import Serval.Sal.AddSource
import Serval.Sal.RoundTrip

/-!
# Rewriting a forwarded packet

The changes that `serval_sal_resolve_service` makes to the SAL header before
it passes a packet on: the destination is noted, the authenticator is replaced
if the target has one, and the check is computed again.
-/

namespace Serval

open Serval.Support

/-- An extension stays one when bytes behind its length are overwritten. -/
theorem ExtOk.overwrite {kind : SalExtType} {bytes new : List UInt8} {start : Nat}
    (ok : ExtOk kind bytes) (sized : kind ≠ .pad) (behind : 2 ≤ start)
    (inside : start + new.length ≤ bytes.length) :
    ExtOk kind
      (bytes.take start ++ (new ++ bytes.drop (start + new.length))) := by
  cases ok with
  | pad type => exact absurd rfl sized
  | @sized _ first length body type notPad whole least =>
    obtain ⟨start, rfl⟩ := Nat.exists_eq_add_of_le' behind
    simp only [List.length_cons] at inside
    have shift : start + 2 + new.length = start + new.length + 2 := by omega
    rw [shift, List.take_succ_cons, List.take_succ_cons, List.drop_succ_cons, List.drop_succ_cons,
      List.cons_append,
      List.cons_append]
    refine .sized type notPad ?_ least
    simp only [List.length_append, List.length_take, List.length_drop]
    omega

namespace SalExt

variable {e : SalExt}

theorem taas_length (taas : e.kind = .taas) : 12 ≤ e.bytes.length := by
  have least := e.least
  rw [taas] at least
  exact least

def stamp (authenticator : UInt64) (e : SalExt) : SalExt :=
  if taas : e.kind = .taas then
    { kind := e.kind
      bytes := e.bytes.take 4 ++ (leBytes 8 authenticator.toNat ++
            e.bytes.drop (4 + (leBytes 8 authenticator.toNat).length))
      ok := e.ok.overwrite (by rw [taas]; decide) (by decide) (by
          exact taas_length taas) }
  else
    e

variable (authenticator : UInt64)

theorem stamp_of_ne (other : e.kind ≠ .taas) : stamp authenticator e = e := dif_neg other

theorem stamp_bytes (taas : e.kind = .taas) : (stamp authenticator e).bytes = e.bytes.take 4 ++
        (leBytes 8 authenticator.toNat ++ e.bytes.drop 12) := by
  rw [stamp, dif_pos taas]
  simp only [length_leBytes]

@[simp]
theorem stamp_kind (e : SalExt) : (stamp authenticator e).kind = e.kind := by
  by_cases taas : e.kind = .taas
  · rw [stamp, dif_pos taas]
  · rw [stamp_of_ne authenticator taas]

@[simp]
theorem stamp_length (e : SalExt) : (stamp authenticator e).bytes.length = e.bytes.length := by
  by_cases taas : e.kind = .taas
  · have long := taas_length taas
    simp only [stamp_bytes authenticator taas, List.length_append, List.length_take,
      List.length_drop, length_leBytes]
    omega
  · rw [stamp_of_ne authenticator taas]

theorem map_stamp_of_none {exts : List SalExt} (none : ∀ e ∈ exts, e.kind ≠ .taas) :
    exts.map (stamp authenticator) = exts := by
  rw [List.map_congr_left fun e member =>
    stamp_of_ne authenticator (none e member)]
  exact List.map_id' exts

@[simp]
theorem length_join_stamp (exts : List SalExt) :
    (join (exts.map (stamp authenticator))).length = (join exts).length := by
  simp [join, List.length_flatten, Function.comp_def]

theorem length_le_join (exts : List SalExt) : exts.length ≤ (join exts).length := by
  induction exts with
  | nil => exact Nat.zero_le _
  | cons e rest ih =>
    have joined : join (e :: rest) = e.bytes ++ join rest := rfl
    have one := List.length_pos_iff.mpr e.bytes_ne_nil
    rw [joined, List.length_append, List.length_cons]
    omega

end SalExt

section

variable (authenticator : UInt64)

theorem updateTaas_skip {packet rest : List UInt8} {exts : List SalExt} {offset : Nat}
    (none : ∀ e ∈ exts, e.kind ≠ .taas)
    (here : packet.drop offset = SalExt.join exts ++ rest)
    (fuel more : Nat) :
    updateTaas authenticator (exts.length + fuel) packet offset
        ((SalExt.join exts).length + more : Int) =
      updateTaas authenticator fuel packet
        (offset + (SalExt.join exts).length) more := by
  induction exts generalizing offset with
  | nil => simp [SalExt.join]
  | cons e tail ih =>
    have joined : SalExt.join (e :: tail) = e.bytes ++ SalExt.join tail := rfl
    rw [joined, List.append_assoc] at here
    have after : packet.drop (offset + e.bytes.length) = SalExt.join tail ++ rest := by
      rw [← List.drop_drop, here, List.drop_left]
    have ends := ih (fun x member =>
        none x (List.mem_cons_of_mem e member)) after
    obtain ⟨first, read, type⟩ := SalExt.readType here
    have other : ¬ salExtType first = some .taas := by
      rw [type]
      exact fun same => none e List.mem_cons_self (Option.some.inj same)
    have length := (e.headed here).length
    have positive : 0 < (((SalExt.join (e :: tail)).length + more : Nat) : Int) := by
      have := List.length_pos_iff.mpr e.bytes_ne_nil
      rw [joined, List.length_append]
      omega
    have left : (((SalExt.join (e :: tail)).length + more : Nat) : Int) - e.bytes.length =
          (SalExt.join tail).length + more := by
      rw [joined, List.length_append]
      omega
    have count : (e :: tail).length + fuel = tail.length + fuel + 1 := by
      rw [List.length_cons]
      omega
    rw [← Nat.cast_add, count, updateTaas, if_pos positive, read, ok_bind, if_neg other, length,
      ok_bind, salExtNext_of_len length, ok_bind,
      left, ends, joined, List.length_append, Nat.add_assoc]

theorem updateTaas_hit (lead rest : List UInt8) {e : SalExt} (taas : e.kind = .taas)
    (fuel : Nat) {hdrLen : Int} (more : 0 < hdrLen) :
    updateTaas authenticator (fuel + 1) (lead ++ (e.bytes ++ rest))
        lead.length hdrLen =
      .ok (lead ++ ((SalExt.stamp authenticator e).bytes ++ rest)) := by
  have long := SalExt.taas_length taas
  have here : (lead ++ (e.bytes ++ rest)).drop lead.length = e.bytes ++ rest := List.drop_left ..
  obtain ⟨first, read, type⟩ := SalExt.readType here
  rw [taas] at type
  have parts : e.bytes = e.bytes.take 4 ++ ((e.bytes.drop 4).take 8 ++ e.bytes.drop 12) := by
    have eight : 12 = 4 + 8 := rfl
    rw [eight, ← List.drop_drop, List.take_append_drop, List.take_append_drop]
  have written := writeBytes_behind lead
      (@writeBytes_between (e.bytes.take 4) ((e.bytes.drop 4).take 8)
        (leBytes 8 authenticator.toNat) (e.bytes.drop 12 ++ rest) 4
        (by rw [List.length_take]; omega)
        (by
          rw [length_leBytes, List.length_take, List.length_drop]
          omega))
  rw [updateTaas, if_pos more, read, ok_bind, if_pos type, SalExt.stamp_bytes authenticator taas]
  nth_rewrite 1 [parts]
  simp only [List.append_assoc]
  exact written

theorem updateTaas_found (lead rest : List UInt8) {before after : List SalExt} {e : SalExt}
    (taas : e.kind = .taas) (left : ∀ x ∈ before, x.kind ≠ .taas)
    (right : ∀ x ∈ after, x.kind ≠ .taas) {fuel : Nat}
    (enough : before.length < fuel) (more : Nat) :
    updateTaas authenticator fuel
        (lead ++ (SalExt.join (before ++ e :: after) ++ rest)) lead.length
        ((SalExt.join (before ++ e :: after)).length + more : Int) =
      .ok (lead ++ (SalExt.join ((before ++ e :: after).map (SalExt.stamp authenticator)) ++
            rest)) := by
  obtain ⟨spare, rfl⟩ := Nat.exists_eq_add_of_le (show before.length + 1 ≤ fuel by omega)
  have row : lead ++ (SalExt.join (before ++ e :: after) ++ rest) = (lead ++ SalExt.join before) ++
          (e.bytes ++ (SalExt.join after ++ rest)) := by
    simp only [join_split, List.append_assoc]
  have here : ((lead ++ SalExt.join before) ++
          (e.bytes ++ (SalExt.join after ++ rest))).drop lead.length =
        SalExt.join before ++ (e.bytes ++ (SalExt.join after ++ rest)) := by
    rw [List.append_assoc, List.drop_left]
  have count : ((SalExt.join (before ++ e :: after)).length + more : Int) =
        (SalExt.join before).length + ((e.bytes ++ SalExt.join after).length + more : Nat) := by
    rw [join_split, List.length_append]
    omega
  have skipped := updateTaas_skip authenticator left here (spare + 1)
      ((e.bytes ++ SalExt.join after).length + more)
  have hit := updateTaas_hit authenticator (lead ++ SalExt.join before)
      (SalExt.join after ++ rest) taas spare
      (show 0 < (((e.bytes ++ SalExt.join after).length + more : Nat) : Int) by
          have := SalExt.taas_length taas
          rw [List.length_append]
          omega)
  have fuels : before.length + 1 + spare = before.length + (spare + 1) := by omega
  rw [List.length_append] at hit
  rw [row, count, fuels, skipped, hit, List.map_append, List.map_cons, join_split,
    SalExt.map_stamp_of_none authenticator left,
    SalExt.map_stamp_of_none authenticator right]
  simp only [List.append_assoc]

/-- A header with at most one authenticator gets the new one there. -/
theorem updateTaas_join (lead rest : List UInt8) {exts : List SalExt} {fuel : Nat}
    (single : SalExt.count .taas exts ≤ 1) (enough : exts.length < fuel) :
    updateTaas authenticator fuel (lead ++ (SalExt.join exts ++ rest))
        lead.length (SalExt.join exts).length =
      .ok (lead ++ (SalExt.join (exts.map (SalExt.stamp authenticator)) ++ rest)) := by
  rcases SalExt.none_or_single single with none | found
  · obtain ⟨left, rfl⟩ := Nat.exists_eq_add_of_le enough.le
    have here : (lead ++ (SalExt.join exts ++ rest)).drop lead.length =
          SalExt.join exts ++ rest := List.drop_left ..
    have skipped := updateTaas_skip authenticator none here left 0
    rw [SalExt.map_stamp_of_none authenticator none]
    rw [Nat.cast_zero, Int.add_zero] at skipped
    rw [skipped]
    cases left with
    | zero => omega
    | succ left => rw [updateTaas, if_neg (by decide)]
  · obtain ⟨before, e, after, rfl, taas, left, right⟩ := found
    rw [List.length_append] at enough
    have found := updateTaas_found authenticator lead rest taas left right
        (show before.length < fuel by omega) 0
    exact found

end

/-! ## The steps on a packet -/

section

variable {ids row payload packet : List UInt8} {protocol : UInt8} {exts : List SalExt}

theorem Framed.shl (framed : Framed ids protocol row payload packet) (post : List UInt8) :
    ∃ shl, readByte (packet ++ post) 8 = .ok shl ∧ 4 * shl.toNat = 12 + row.length := by
  obtain ⟨size, shl, check, checkSize, words, form⟩ := framed
  have read := readByte_behind ids (show readByte
          (shl :: ([protocol] ++ (check ++ ((row ++ payload) ++ post)))) 0 =
        .ok shl from rfl)
  rw [size] at read
  refine ⟨shl, ?_, words⟩
  rw [form, salPacket_append]
  exact read

theorem Framed.parts (framed : Framed ids protocol row payload packet) :
    packet.take 8 = ids ∧ packet.getD 9 0 = protocol ∧ packet.drop 12 = row ++ payload ∧
      salLength packet = 12 + row.length ∧ packet.length = 12 + row.length + payload.length := by
  obtain ⟨size, shl, check, checkSize, words, form⟩ := framed
  have base := length_salPacket size checkSize shl protocol []
  refine ⟨?_, ?_, ?_, ?_, ?_⟩
  · rw [form, salPacket, List.take_left' size]
  · rw [form, salPacket, List.getD_append_right _ _ _ _ (by omega), size]
    rfl
  · rw [form, ← List.nil_append (row ++ payload), ← salPacket_append]
    exact List.drop_left' base
  · rw [← words, salLength, form, salPacket, List.getD_append_right _ _ _ _ (by omega), size]
    rfl
  · rw [form, length_salPacket size checkSize, List.length_append, Nat.add_assoc]

theorem Framed.sendCheck (framed : Framed ids protocol row payload packet) (sender : Nat)
    (post : List UInt8) :
    ∃ packet', servalSalSendCheck sender (packet ++ post) = .ok (packet' ++ post) ∧
      packet'.length = packet.length ∧ Framed ids protocol row payload packet' ∧
      ∀ receiver : Nat, servalSalCsum receiver (packet' ++ post) (12 + row.length) = .ok 0 := by
  obtain ⟨size, shl, check, checkSize, words, form⟩ := framed
  have headSize : (ids ++ [shl, protocol]).length = 10 := by
    rw [List.length_append, size]
    rfl
  have field : (ids ++ [shl, protocol]).getD 8 0 = shl := by
    rw [List.getD_append_right _ _ _ _ (by omega), size]
    rfl
  have parts (check : List UInt8) : salPacket ids shl protocol check (row ++ payload) ++ post =
        (ids ++ [shl, protocol]) ++ (check ++ (row ++ (payload ++ post))) := by
    simp only [salPacket, List.append_assoc]
  obtain ⟨sum, sumSize, sent, verified⟩ :=
    @servalSalSendCheck_spec sender _ _ (row ++ (payload ++ post)) headSize
      checkSize (by rw [field]; omega)
      (by rw [field, List.length_append]; omega)
  rw [field, words] at verified
  refine ⟨salPacket ids shl protocol sum (row ++ payload), ?_, ?_,
      ⟨size, shl, sum, sumSize, words, rfl⟩, ?_⟩
  · rw [form, parts, parts, sent]
  · rw [form, length_salPacket size checkSize, length_salPacket size sumSize]
  · intro receiver
    rw [parts]
    exact verified receiver

theorem Framed.checked {before : List UInt8} {sender : Nat}
    (framed : Framed ids protocol row payload before)
    (checked : servalSalSendCheck sender before = .ok packet) :
    packet.length = before.length ∧ Framed ids protocol row payload packet := by
  obtain ⟨packet', sent, same, framed', -⟩ := framed.sendCheck sender []
  rw [List.append_nil, List.append_nil, checked] at sent
  cases sent
  exact ⟨same, framed'⟩

theorem Shaped.updateTaas (shaped : Shaped ids protocol exts payload packet)
    (single : SalExt.count .taas exts ≤ 1) (authenticator : UInt64)
    (post : List UInt8) :
    ∃ packet', servalSalUpdateTaasExt (packet ++ post) authenticator = .ok (packet' ++ post) ∧
      packet'.length = packet.length ∧
      Shaped ids protocol (exts.map (SalExt.stamp authenticator)) payload
        packet' := by
  obtain ⟨value, read, total⟩ := Framed.shl shaped post
  obtain ⟨size, shl, check, checkSize, words, form⟩ := shaped
  have lead : (salPacket ids shl protocol check []).length = 12 := by
    rw [length_salPacket size checkSize]
    rfl
  have few := SalExt.length_le_join exts
  have walked := @updateTaas_join authenticator (salPacket ids shl protocol check [])
      (payload ++ post) exts (4 * value.toNat + 1) single (by omega)
  rw [lead, salPacket_append, salPacket_append] at walked
  have hdrLen : ((4 * value.toNat : Nat) : Int) - salHeaderLen = (SalExt.join exts).length := by
    rw [total]
    show ((12 + (SalExt.join exts).length : Nat) : Int) - 12 = _
    omega
  refine ⟨salPacket ids shl protocol check
      (SalExt.join (exts.map (SalExt.stamp authenticator)) ++ payload), ?_,
      ?_, size, shl, check, checkSize, ?_, rfl⟩
  · rw [servalSalUpdateTaasExt, read, ok_bind]
    simp only [hdrLen]
    rw [form, salPacket_append, salPacket_append, List.append_assoc, List.append_assoc]
    exact walked
  · rw [form, length_salPacket size checkSize, length_salPacket size checkSize, List.length_append,
      List.length_append, SalExt.length_join_stamp]
  · rw [SalExt.length_join_stamp]
    exact words

theorem Shaped.of_split (split : SalSplit packet exts) (whole : salLength packet ≤ packet.length) :
    Shaped (packet.take 8) (packet.getD 9 0) exts
      (packet.drop (salLength packet)) packet := by
  have base := split.base
  obtain ⟨ids, shl, protocol, check, rest, size, checkSize, form⟩ :=
    exists_salPacket (show 12 ≤ packet.length by omega)
  have length : salLength packet = 4 * shl.toNat := by
    rw [salLength, form, salPacket, List.getD_append_right _ _ _ _ (by omega), size]
    rfl
  have total := length_salPacket size checkSize shl protocol rest
  rw [← form] at total
  have framed : Framed ids protocol (rest.take (salLength packet - 12))
        (rest.drop (salLength packet - 12)) packet := by
    refine ⟨size, shl, check, checkSize, ?_, ?_⟩
    · rw [List.length_take]
      omega
    · rw [List.take_append_drop]
      exact form
  obtain ⟨first, ninth, behind, -, -⟩ := framed.parts
  rw [List.take_append_drop] at behind
  have payload : packet.drop (salLength packet) = rest.drop (salLength packet - 12) := by
    have cut : salLength packet = 12 + (salLength packet - 12) := by omega
    nth_rewrite 1 [cut]
    rw [← List.drop_drop, behind]
  have row := split.bytes
  rw [behind] at row
  rw [first, ninth, payload]
  rw [row] at framed
  exact framed

/-- The parts of a packet make it well formed, if the pointers suffice. -/
theorem Shaped.split (shaped : Shaped ids protocol exts payload packet) (room : exts.length ≤ 10)
    (controls : SalExt.count .control exts ≤ 1)
    (services : SalExt.count .service exts ≤ 2)
    (sources : SalExt.count .source exts ≤ 1)
    (taas : SalExt.count .taas exts ≤ 1) :
    SalSplit packet exts ∧ packet.drop (salLength packet) = payload ∧
      salLength packet ≤ packet.length := by
  obtain ⟨-, -, behind, length, total⟩ := Framed.parts shaped
  refine ⟨⟨by omega, ?_, room, controls, services, sources, taas⟩, ?_, by omega⟩
  · rw [behind, length, Nat.add_sub_cancel_left, List.take_left]
  · rw [length, ← List.drop_drop, behind, List.drop_left]

end

theorem SalExt.select_append (kind : SalExtType) (first second : List SalExt) :
    select kind (first ++ second) = select kind first ++ select kind second :=
  List.filter_append ..

theorem SalExt.select_cons (kind : SalExtType) (e : SalExt) (rest : List SalExt) :
    select kind (e :: rest) =
      if e.kind = kind then e :: select kind rest else select kind rest := by
  simp [select, List.filter_cons]

variable {exts : List SalExt}

theorem SalExt.select_of_none {kind : SalExtType}
    (none : ∀ e ∈ exts, e.kind ≠ kind) : select kind exts = [] :=
  List.filter_eq_nil_iff.mpr fun e member => by simpa using none e member

/-- The addresses that a packet names: those of its source extension, or else
its own source. -/
def namedAddrs (saddr : List UInt8) (exts : List SalExt) : List (List UInt8) :=
  match SalExt.select .source exts with
  | [] => [saddr]
  | src :: _ => src.addrs

section

variable {saddr daddr : List UInt8} {exts exts' : List SalExt}

variable {kind : SalExtType}

theorem Noted.select_of_ne (noted : Noted saddr daddr exts exts') (other : kind ≠ .source) :
    SalExt.select kind exts' = SalExt.select kind exts := by
  cases noted with
  | first none isSource length addrs =>
    rw [SalExt.select_append, SalExt.select_cons, isSource, if_neg other.symm]
    exact List.append_nil _
  | another isSource isSource' length addrs =>
    rw [SalExt.select_append, SalExt.select_append, SalExt.select_cons, SalExt.select_cons,
      isSource, isSource', if_neg other.symm,
      if_neg other.symm]

theorem Noted.addrs (noted : Noted saddr daddr exts exts')
    (single : SalExt.count .source exts ≤ 1) :
    (SalExt.select .source exts').map SalExt.addrs = [namedAddrs saddr exts ++ [daddr]] := by
  cases noted with
  | @first _ src none isSource length addrs =>
    rw [SalExt.select_append, SalExt.select_cons, if_pos isSource, namedAddrs,
      SalExt.select_of_none none]
    simp [SalExt.select, addrs]
  | @another before after src src' isSource isSource' length addrs =>
    rw [SalExt.count_eq_select, SalExt.select_append, SalExt.select_cons, if_pos isSource,
      List.length_append, List.length_cons] at single
    have left : SalExt.select .source before = [] := List.eq_nil_of_length_eq_zero (by omega)
    have right : SalExt.select .source after = [] := List.eq_nil_of_length_eq_zero (by omega)
    rw [namedAddrs, SalExt.select_append, SalExt.select_append, SalExt.select_cons,
      SalExt.select_cons, if_pos isSource,
      if_pos isSource', left, right]
    simp [addrs]

theorem Noted.count_of_ne (noted : Noted saddr daddr exts exts') (other : kind ≠ .source) :
    SalExt.count kind exts' = SalExt.count kind exts := by
  rw [SalExt.count_eq_select, SalExt.count_eq_select, noted.select_of_ne other]

theorem Noted.count_source (noted : Noted saddr daddr exts exts')
    (single : SalExt.count .source exts ≤ 1) :
    SalExt.count .source exts' = 1 := by
  have addrs := congrArg List.length (noted.addrs single)
  rw [List.length_map] at addrs
  rw [SalExt.count_eq_select, addrs]
  rfl

theorem Noted.length (noted : Noted saddr daddr exts exts') : exts'.length =
      exts.length + if SalExt.count .source exts = 0 then 1 else 0 := by
  cases noted with
  | first none isSource length addrs =>
    rw [if_pos (count_eq_zero_of_none none), List.length_append]
    rfl
  | another isSource isSource' length addrs =>
    rw [if_neg (count_source_ne_zero (List.mem_append_right _ List.mem_cons_self) isSource)]
    simp only [List.length_append, List.length_cons]
    omega

variable (authenticator : UInt64)

theorem SalExt.select_stamp (kind : SalExtType) (exts : List SalExt) :
    select kind (exts.map (stamp authenticator)) =
      (select kind exts).map (stamp authenticator) := by
  rw [select, List.filter_map]
  simp [select, Function.comp_def]

theorem SalExt.select_stamp_of_ne (other : kind ≠ .taas) (exts : List SalExt) :
    select kind (exts.map (stamp authenticator)) = select kind exts := by
  rw [select_stamp]
  apply map_stamp_of_none
  intro e member
  have same : e.kind = kind := by simpa using (List.mem_filter.mp member).2
  rw [same]
  exact other

theorem SalExt.stamp_field {e : SalExt} (taas : e.kind = .taas) :
    (stamp authenticator e).field 4 8 = leBytes 8 authenticator.toNat := by
  have long := taas_length taas
  rw [field, stamp_bytes authenticator taas, List.drop_left' (by rw [List.length_take]; omega),
    List.take_left' (length_leBytes 8 _)]

end

/-- The authenticator of a target, unless it is zero, goes into the packet. -/
def updateAuthenticator (sal : List UInt8) (taasAuth : UInt64) : Except Fault (List UInt8) :=
  if taasAuth ≠ 0 then servalSalUpdateTaasExt sal taasAuth else .ok sal

/-- The changes to the SAL header of a packet that goes to a target; the check
is computed at the address. -/
def rewriteHeader (skb : LinearSkb) (ctx : SalContext) (copied : Bool)
    (fresh : Option (Nat → UInt8)) (taasAuth : UInt64) (address : Nat) :
    Except Fault (Int × LinearSkb) := do
  let (ret, skb) ← servalSalAddSourceExt skb ctx copied fresh
  if ret < 0 then
    .ok (ret, skb)
  else do
    let sal ← updateAuthenticator skb.sal taasAuth
    let sal ← servalSalSendCheck address sal
    .ok (ret, skb.withSal sal)

def stamped (taasAuth : UInt64) (exts : List SalExt) : List SalExt :=
  if taasAuth ≠ 0 then exts.map (SalExt.stamp taasAuth) else exts

theorem Shaped.updateAuthenticator {ids payload packet : List UInt8}
    {protocol : UInt8} (shaped : Shaped ids protocol exts payload packet)
    (single : SalExt.count .taas exts ≤ 1) (taasAuth : UInt64)
    (post : List UInt8) :
    ∃ packet', updateAuthenticator (packet ++ post) taasAuth = .ok (packet' ++ post) ∧
      packet'.length = packet.length ∧
      Shaped ids protocol (stamped taasAuth exts) payload packet' := by
  by_cases given : taasAuth ≠ 0
  · rw [Serval.updateAuthenticator, if_pos given, stamped, if_pos given]
    exact shaped.updateTaas single taasAuth post
  · rw [Serval.updateAuthenticator, if_neg given, stamped, if_neg given]
    exact ⟨packet, rfl, rfl, shaped⟩

section

variable (taasAuth : UInt64) (exts : List SalExt)

theorem select_stamped {kind : SalExtType} (other : kind ≠ .taas) :
    SalExt.select kind (stamped taasAuth exts) = SalExt.select kind exts := by
  by_cases given : taasAuth ≠ 0
  · rw [stamped, if_pos given, SalExt.select_stamp_of_ne taasAuth other]
  · rw [stamped, if_neg given]

theorem length_select_stamped (kind : SalExtType) :
    (SalExt.select kind (stamped taasAuth exts)).length = (SalExt.select kind exts).length := by
  by_cases given : taasAuth ≠ 0
  · rw [stamped, if_pos given, SalExt.select_stamp, List.length_map]
  · rw [stamped, if_neg given]

theorem length_stamped : (stamped taasAuth exts).length = exts.length := by
  by_cases given : taasAuth ≠ 0
  · rw [stamped, if_pos given, List.length_map]
  · rw [stamped, if_neg given]

theorem authenticators_stamped :
    (SalExt.select .taas (stamped taasAuth exts)).map (SalExt.field 4 8) =
      (SalExt.select .taas exts).map fun e =>
        if taasAuth ≠ 0 then leBytes 8 taasAuth.toNat else e.field 4 8 := by
  by_cases given : taasAuth ≠ 0
  · rw [stamped, if_pos given, SalExt.select_stamp, List.map_map]
    apply List.map_congr_left
    intro e member
    have taas : e.kind = .taas := by simpa using (List.mem_filter.mp member).2
    rw [if_pos given]
    exact SalExt.stamp_field taasAuth taas
  · rw [stamped, if_neg given]
    apply List.map_congr_left
    intro e member
    rw [if_neg given]

end

theorem SalSplit.accepted {skb : LinearSkb} {ctx : SalContext} {front ip packet post : List UInt8}
    (holds : skb.Holds front ip packet post) (header : 20 ≤ ip.length)
    (split : SalSplit packet exts) (whole : salLength packet ≤ packet.length)
    (parsed : servalSalParseHdr skb.sal .all = .ok (0, ctx)) :
    Accepted skb ctx front ip post (packet.take 8) (packet.getD 9 0) exts
      (packet.drop (salLength packet)) := by
  obtain ⟨ctx', again, length, described⟩ := split.parse whole
  have same := servalSalParseHdr_ahead again post
  rw [← holds.sal_eq, parsed] at same
  cases same
  have shaped := Shaped.of_split split whole
  have total := (Framed.parts shaped).2.2.2.1
  exact ⟨⟨packet, holds, shaped⟩, described, length.trans total, split.sources, header⟩

structure FitsOnward (exts : List SalExt) : Prop extends RoomForOne exts where
  extensions : exts.length + (if SalExt.count .source exts = 0 then 1 else 0) ≤ 10

/-- An accepted packet that has not been here and still fits is rewritten into
one that is accepted again and sums up to zero. It has the same flow ids,
protocol, payload and other extensions, its addresses are the old ones and the
destination, and its authenticator is that of the target, if there is one. -/
theorem rewriteHeader_forwards
    {skb : LinearSkb} {ctx : SalContext} {front ip packet post : List UInt8}
    {exts : List SalExt} (holds : skb.Holds front ip packet post)
    (header : 20 ≤ ip.length)
    (whole : salLength packet ≤ packet.length)
    (parsed : servalSalParseHdr skb.sal .all = .ok (0, ctx))
    (split : SalSplit packet exts) (unseen : Unseen ip exts)
    (fits : FitsOnward exts)
    (headroom : sourceGrowth exts + ip.length + skb.hardHeaderLen ≤ front.length)
    (copied : Bool) (fresh : Option (Nat → UInt8)) (taasAuth : UInt64)
    (address : Nat) :
    ∃ skb' ctx' front' packet' post' exts', rewriteHeader skb ctx copied fresh taasAuth address =
        .ok ((sourceGrowth exts : Int), skb') ∧ skb'.Holds front' ip packet' post' ∧
      servalSalParseHdr skb'.sal .all = .ok (0, ctx') ∧
      (∀ receiver, servalSalCsum receiver skb'.sal ctx'.length.toNat = .ok 0) ∧
      SalSplit packet' exts' ∧ packet'.take 8 = packet.take 8 ∧ packet'.getD 9 0 = packet.getD 9 0 ∧
      packet'.drop (salLength packet') = packet.drop (salLength packet) ∧
      (∀ kind, kind ≠ .source → kind ≠ .taas → SalExt.select kind exts' = SalExt.select kind exts) ∧
      (SalExt.select .source exts').map SalExt.addrs =
        [namedAddrs ((ip.drop 12).take 4) exts ++ [(ip.drop 16).take 4]] ∧
      (SalExt.select .taas exts').map (SalExt.field 4 8) = (SalExt.select .taas exts).map fun e =>
          if taasAuth ≠ 0 then leBytes 8 taasAuth.toNat
          else e.field 4 8 := by
  have accepted := SalSplit.accepted holds header split whole parsed
  obtain ⟨noting, added, front', noted, post', exts', holds', note,
    shaped⟩ := accepted.addSource_of_room unseen fits.toRoomForOne headroom
      copied fresh
  have counts (kind : SalExtType) : SalExt.count kind (stamped taasAuth exts') =
        SalExt.count kind exts' := by
    rw [SalExt.count_eq_select, SalExt.count_eq_select, length_select_stamped]
  obtain ⟨stampedPacket, stamping, stampLength, stampShaped⟩ := shaped.updateAuthenticator
      (by rw [note.count_of_ne (by decide)]; exact split.taas) taasAuth
      post'
  obtain ⟨packet', checked, checkLength, checkShaped, verified⟩ :=
    Framed.sendCheck stampShaped address post'
  obtain ⟨ids, protocol, -, length, -⟩ := Framed.parts checkShaped
  obtain ⟨split', payload, inside⟩ := Shaped.split checkShaped
      (by rw [length_stamped, note.length]; exact fits.extensions)
      (by rw [counts, note.count_of_ne (by decide)]; exact split.controls)
      (by rw [counts, note.count_of_ne (by decide)]; exact split.services)
      (by rw [counts, note.count_source split.sources])
      (by rw [counts, note.count_of_ne (by decide)]; exact split.taas)
  obtain ⟨ctx', parsed', ctxLength, -⟩ := split'.parse inside
  have final := holds'.withSal post' (checkLength.trans stampLength)
  refine ⟨noting.withSal (packet' ++ post'), ctx', front', packet', post', stamped taasAuth exts',
    ?_, final, ?_, ?_, split', ids, protocol,
    payload, ?_, ?_, ?_⟩
  · have success : ¬ ((sourceGrowth exts : Nat) : Int) < 0 := by omega
    rw [rewriteHeader, added]
    simp only [if_neg success, holds'.sal_eq, stamping, ok_bind, checked]
  · rw [final.sal_eq]
    exact servalSalParseHdr_ahead parsed' post'
  · intro receiver
    rw [final.sal_eq, ctxLength, length]
    exact verified receiver
  · intro kind notSource notTaas
    rw [select_stamped taasAuth exts' notTaas, note.select_of_ne notSource]
  · rw [select_stamped taasAuth exts' (by decide)]
    exact note.addrs split.sources
  · rw [authenticators_stamped, note.select_of_ne (by decide)]

def sampleIp : List UInt8 := [0x45, 0, 0, 0, 0, 0, 0, 0, 64, 144, 0, 0, 10, 0, 0, 1, 10, 0, 0, 2]

def sampleSkb : LinearSkb where
  mem := List.replicate 64 0 ++ (sampleIp ++ (taasPacket ++ []))
  data := 84
  tail := 84 + taasPacket.length
  networkHeader := 64
  transportHeader := 84
  hardHeaderLen := 14

theorem sampleSkb_parsed : sampleSkb.Holds (List.replicate 64 0) sampleIp taasPacket [] ∧
      salLength taasPacket ≤ taasPacket.length ∧ SalSplit taasPacket taasExts ∧
      Unseen sampleIp taasExts ∧ FitsOnward taasExts ∧
      ∃ ctx, servalSalParseHdr sampleSkb.sal .all = .ok (0, ctx) := by
  have holds : sampleSkb.Holds (List.replicate 64 0) sampleIp taasPacket [] :=
    ⟨⟨rfl, rfl, rfl, rfl⟩, rfl⟩
  have whole : salLength taasPacket ≤ taasPacket.length := by decide
  have split : SalSplit taasPacket taasExts :=
    ⟨by decide, rfl, by decide, by decide, by decide, by decide, by decide⟩
  have kinds : ∀ e ∈ taasExts, e.kind ≠ .source := by simp [taasExts]
  obtain ⟨ctx, parsed, -, -⟩ := split.parse whole
  refine ⟨holds, whole, split, fun src member source => absurd source (kinds src member),
    ⟨⟨fun src member source => absurd source (kinds src member), by decide⟩, by decide⟩, ctx, ?_⟩
  exact servalSalParseHdr_ahead parsed []

theorem rewriteHeader_forwards_taas : ∃ ctx skb' front' packet' post' exts',
      servalSalParseHdr sampleSkb.sal .all = .ok (0, ctx) ∧
      rewriteHeader sampleSkb ctx false none 7 4 = .ok (12, skb') ∧
      skb'.Holds front' sampleIp packet' post' ∧ SalSplit packet' exts' ∧
      (SalExt.select .source exts').map SalExt.addrs = [[[10, 0, 0, 1], [10, 0, 0, 2]]] ∧
      (SalExt.select .taas exts').map (SalExt.field 4 8) = [[7, 0, 0, 0, 0, 0, 0, 0]] := by
  obtain ⟨holds, whole, split, unseen, fits, ctx, read⟩ := sampleSkb_parsed
  obtain ⟨skb', -, front', packet', post', exts', run, holds', -, -, split', -, -, -, -, addrs,
    authenticators⟩ :=
    rewriteHeader_forwards holds (by decide) whole read split unseen fits (by decide) false none 7 4
  exact ⟨ctx, skb', front', packet', post', exts', read, run, holds', split', addrs, authenticators⟩

end Serval
