import Serval.Sal.Accept
import Serval.Sal.Insert

/-!
# The addresses a packet has passed

The source extension as a list of addresses: where the list is in a header,
how the code looks an address up in it, and what bytes one address more
makes.
-/

namespace Serval

open Serval.Support

/-- The addresses in a row of bytes. Fewer than four bytes at its end are no
address. -/
def quads : List UInt8 → List (List UInt8)
  | a :: b :: c :: d :: rest => [a, b, c, d] :: quads rest
  | _ => []

theorem quads_of_le {bytes : List UInt8} (long : 4 ≤ bytes.length) :
    quads bytes = bytes.take 4 :: quads (bytes.drop 4) := by
  rcases bytes with _ | ⟨a, _ | ⟨b, _ | ⟨c, _ | ⟨d, rest⟩⟩⟩⟩
  case cons.cons.cons.cons =>
    rfl
  all_goals
    simp at long

theorem quads_of_lt {bytes : List UInt8} (short : bytes.length < 4) : quads bytes = [] := by
  rcases bytes with _ | ⟨a, _ | ⟨b, _ | ⟨c, _ | ⟨d, rest⟩⟩⟩⟩
  case cons.cons.cons.cons =>
    simp only [List.length_cons] at short
    omega
  all_goals
    rfl

theorem quads_append {first : List UInt8} {count : Nat} (whole : first.length = 4 * count)
    (second : List UInt8) :
    quads (first ++ second) = quads first ++ quads second := by
  induction count generalizing first with
  | zero =>
    rw [List.eq_nil_of_length_eq_zero whole]
    rfl
  | succ count ih =>
    have rest : (first.drop 4).length = 4 * count := by
      rw [List.length_drop]
      omega
    have tail := ih rest
    rw [quads_of_le (show 4 ≤ first.length by omega),
      quads_of_le (show 4 ≤ (first ++ second).length by
        rw [List.length_append]; omega),
      List.take_append_of_le_length (by omega),
      List.drop_append_of_le_length (by omega), tail, List.cons_append]

theorem quads_single {addr : List UInt8} (size : addr.length = 4) : quads addr = [addr] := by
  rw [quads_of_le (by omega), List.take_of_length_le (by omega), List.drop_of_length_le (by omega)]
  rfl

def SalExt.addrs (e : SalExt) : List (List UInt8) := quads (e.bytes.drop 4)

theorem hasAddr_eq {packet row rest : List UInt8} {ext : Nat}
    (here : packet.drop (ext + 4) = row ++ rest) (ipaddr : List UInt8)
    {left i : Nat} (count : i + left = row.length / 4) :
    hasAddr packet ext ipaddr left i = .ok (decide (ipaddr ∈ quads (row.drop (4 * i)))) := by
  induction left generalizing i with
  | zero =>
    have short : (row.drop (4 * i)).length < 4 := by
      rw [List.length_drop]
      omega
    rw [quads_of_lt short]
    rfl
  | succ left ih =>
    have long : 4 ≤ (row.drop (4 * i)).length := by
      rw [List.length_drop]
      omega
    have read : Support.readBytes packet (salSourceExtGetAddr ext i) 4 =
          .ok ((row.drop (4 * i)).take 4) := by
      rw [salSourceExtGetAddr, Nat.mul_comm i 4]
      exact readBytes_within here (4 * i) (by decide) (by omega)
    have tail := @ih (i + 1) (by omega)
    rw [hasAddr, read, quads_of_le long, tail, Nat.mul_succ]
    by_cases found : (row.drop (4 * i)).take 4 = ipaddr
    · simp [found]
    · have other : ¬ ipaddr = (row.drop (4 * i)).take 4 := fun same => found same.symm
      simp [found, other]

theorem servalSalSourceExtCheck_eq
    {packet rest : List UInt8} {ctx : SalContext} {src : SalExt} {ext : Nat}
    (here : packet.drop ext = src.bytes ++ rest)
    (pointer : ctx.srcExt = some ext) (kind : src.kind = .source)
    (ipaddr : List UInt8) :
    servalSalSourceExtCheck packet ctx ipaddr =
      .ok (if ipaddr ∈ src.addrs then .ipExists else .ipNone) := by
  have least := src.least
  rw [kind] at least
  have least : 12 ≤ src.bytes.length := least
  obtain ⟨length, read, same⟩ := SalExt.readLength here (by rw [kind]; decide)
  have row : packet.drop (ext + 4) = src.bytes.drop 4 ++ rest := by
    rw [← List.drop_drop, here, List.drop_append_of_le_length (by omega)]
  have looked := @hasAddr_eq _ _ _ _ row ipaddr (salSourceExtNumAddrs length).toNat 0 (by
      rw [toNat_salSourceExtNumAddrs (by omega), List.length_drop]
      omega)
  rw [List.drop_zero, ← SalExt.addrs] at looked
  rw [servalSalSourceExtCheck, pointer]
  by_cases found : ipaddr ∈ src.addrs
  · simp [read, looked, found]
  · simp [read, looked, found]

/-! ## The one extension of a kind -/

namespace SalExt

theorem placed_append (offset : Nat) (first second : List SalExt) :
    placed offset (first ++ second) = placed offset first ++
        placed (offset + (join first).length) second := by
  induction first generalizing offset with
  | nil => rfl
  | cons e rest ih =>
    have joined : join (e :: rest) = e.bytes ++ join rest := rfl
    rw [List.cons_append, placed, placed, ih, joined, List.length_append, Nat.add_assoc,
      List.cons_append]

variable {kind : SalExtType}

theorem ofKind_of_none {exts : List SalExt} (none : ∀ e ∈ exts, e.kind ≠ kind)
    (offset : Nat) : ofKind kind (placed offset exts) = [] := by
  induction exts generalizing offset with
  | nil => rfl
  | cons e rest ih =>
    have other := none e List.mem_cons_self
    have tail := ih (fun x member =>
        none x (List.mem_cons_of_mem e member)) (offset + e.bytes.length)
    rw [placed, ofKind, List.filter_cons_of_neg (by simpa using other)]
    exact tail

theorem ofKind_of_single {first second : List SalExt} {e : SalExt}
    (same : e.kind = kind) (before : ∀ x ∈ first, x.kind ≠ kind)
    (after : ∀ x ∈ second, x.kind ≠ kind) (offset : Nat) :
    ofKind kind (placed offset (first ++ e :: second)) = [(offset + (join first).length, e)] := by
  have split : ofKind kind (placed offset (first ++ e :: second)) =
        ofKind kind (placed offset first) ++ ofKind kind
            (placed (offset + (join first).length) (e :: second)) := by
    rw [placed_append, ofKind, List.filter_append]
    rfl
  have tail := ofKind_of_none after (offset + (join first).length + e.bytes.length)
  rw [ofKind] at tail
  rw [split, ofKind_of_none before, List.nil_append, placed, ofKind,
    List.filter_cons_of_pos (by simpa using same), tail]

theorem none_or_single {exts : List SalExt} (most : count kind exts ≤ 1) :
    (∀ e ∈ exts, e.kind ≠ kind) ∨
      ∃ first e second, exts = first ++ e :: second ∧ e.kind = kind ∧
        (∀ x ∈ first, x.kind ≠ kind) ∧ ∀ x ∈ second, x.kind ≠ kind := by
  induction exts with
  | nil => exact Or.inl fun e member => by simp at member
  | cons e rest ih =>
    rw [count_cons] at most
    by_cases same : e.kind = kind
    · rw [if_pos same] at most
      have none : ∀ x ∈ rest, x.kind ≠ kind := by
        intro x member other
        have positive : 0 < count kind rest :=
          List.countP_pos_iff.mpr ⟨x, member, by simpa using other⟩
        omega
      exact Or.inr ⟨[], e, rest, rfl, same, by simp, none⟩
    · rw [if_neg same] at most
      rcases ih most with none | single
      · refine Or.inl ?_
        intro x member
        rcases List.mem_cons.mp member with here | there
        · rw [here]
          exact same
        · exact none x there
      · obtain ⟨first, found, second, split, isKind, before, after⟩ := single
        refine Or.inr ⟨e :: first, found, second, ?_, isKind, ?_, after⟩
        · rw [split, List.cons_append]
        · intro x member
          rcases List.mem_cons.mp member with here | there
          · rw [here]
            exact same
          · exact before x there

end SalExt

/-! ## One address more -/

/-- What becomes of the extensions when a packet is passed on: the destination
is noted behind the addresses that are there, or behind the source. -/
inductive Noted (saddr daddr : List UInt8) : List SalExt → List SalExt → Prop
  | first {exts : List SalExt} {src : SalExt}
      (none : ∀ e ∈ exts, e.kind ≠ .source) (kind : src.kind = .source)
      (length : src.bytes.length = 12) (addrs : src.addrs = [saddr, daddr]) :
      Noted saddr daddr exts (exts ++ [src])
  | another {before after : List SalExt} {src src' : SalExt}
      (kind : src.kind = .source) (kind' : src'.kind = .source)
      (length : src'.bytes.length = src.bytes.length + 4)
      (addrs : src'.addrs = src.addrs ++ [daddr]) :
      Noted saddr daddr (before ++ src :: after) (before ++ src' :: after)

theorem length_newSourceExt {gap saddr daddr : List UInt8} (gapSize : gap.length = 12)
    (source : saddr.length = 4) (destination : daddr.length = 4) :
    (newSourceExt gap saddr daddr).length = 12 := by
  simp only [newSourceExt, List.length_append, source, destination,
    length_reserved (show 4 ≤ gap.length by omega)]
  rfl

/-- The bytes that go into a new gap are an extension with two addresses. -/
theorem exists_newSource {gap saddr daddr : List UInt8} (gapSize : gap.length = 12)
    (source : saddr.length = 4) (destination : daddr.length = 4) :
    ∃ src : SalExt, src.kind = .source ∧ src.bytes = newSourceExt gap saddr daddr ∧
      src.addrs = [saddr, daddr] := by
  have reserved := length_reserved (show 4 ≤ gap.length by omega)
  have header : (extHdr gap .source 12 ++ (gap.drop 2).take 2).length = 4 := by
    rw [List.length_append, reserved]
    rfl
  have ok : ExtOk .source (newSourceExt gap saddr daddr) := by
    apply extOk_extHdr gap (by decide) _ (by decide) le_rfl
    simp only [List.length_append, source, destination, reserved]
    rfl
  have row : (newSourceExt gap saddr daddr).drop 4 = saddr ++ daddr := by
    rw [newSourceExt, ← List.append_assoc, List.drop_left' header]
  refine ⟨⟨.source, _, ok⟩, rfl, rfl, ?_⟩
  rw [SalExt.addrs, row, quads_append (show saddr.length = 4 * 1 by omega), quads_single source,
    quads_single destination]
  rfl

structure SourceCut (src : SalExt) (first length : UInt8) (body spare : List UInt8) : Prop where
  bytes : src.bytes = first :: length :: (body ++ spare)
  type : salExtType first = some .source
  value : length.toNat = src.bytes.length
  addresses : body.length + 2 = 4 * (src.bytes.length / 4)

theorem exists_sourceCut {src : SalExt} (kind : src.kind = .source) :
    ∃ first length body spare, SourceCut src first length body spare := by
  have least := src.least
  rw [kind] at least
  have least : 12 ≤ src.bytes.length := least
  cases src with
  | mk kind' bytes ok =>
    cases ok with
    | pad type => cases kind
    | @sized kind first length row type notPad whole _ =>
      cases kind
      simp only [List.length_cons] at least
      refine ⟨first, length, row.take (4 * ((row.length + 2) / 4) - 2),
        row.drop (4 * ((row.length + 2) / 4) - 2), ?_, type, ?_, ?_⟩
      · rw [List.take_append_drop]
      · simpa using whole
      · simp only [List.length_take, List.length_cons]
        omega

section

variable {src : SalExt} {first length : UInt8} {body spare daddr : List UInt8}

theorem SourceCut.addrs (cut : SourceCut src first length body spare) :
    src.addrs = quads (body.drop 2) := by
  have addresses := cut.addresses
  have total := congrArg List.length cut.bytes
  simp only [List.length_cons, List.length_append] at total
  have row : src.bytes.drop 4 = body.drop 2 ++ spare := by
    rw [cut.bytes]
    show (body ++ spare).drop 2 = _
    rw [List.drop_append_of_le_length (by omega)]
  have whole : (body.drop 2).length = 4 * (src.bytes.length / 4 - 1) := by
    rw [List.length_drop]
    omega
  rw [SalExt.addrs, row, quads_append whole, quads_of_lt (show spare.length < 4 by omega),
    List.append_nil]

/-- With one address more they are an extension again, if the length fits its
byte. -/
theorem SourceCut.appended (cut : SourceCut src first length body spare)
    (least : 12 ≤ src.bytes.length) (fits : src.bytes.length + 4 ≤ 255)
    (destination : daddr.length = 4) {after : List UInt8}
    (size : after.length = spare.length) :
    ∃ src' : SalExt, src'.kind = .source ∧
      src'.bytes = extHdr [first] .source (src.bytes.length + 4) ++ (body ++ (daddr ++ after)) ∧
      src'.addrs = src.addrs ++ [daddr] := by
  have addresses := cut.addresses
  have total := congrArg List.length cut.bytes
  simp only [List.length_cons, List.length_append] at total
  have ok : ExtOk .source (extHdr [first] .source (src.bytes.length + 4) ++
          (body ++ (daddr ++ after))) := by
    apply extOk_extHdr [first] (by decide)
    · simp only [List.length_append, destination]
      omega
    · omega
    · show 12 ≤ _
      omega
  have row : (extHdr [first] .source (src.bytes.length + 4) ++ (body ++ (daddr ++ after))).drop 4 =
        body.drop 2 ++ (daddr ++ after) := by
    show (body ++ (daddr ++ after)).drop 2 = _
    rw [List.drop_append_of_le_length (by omega)]
  have whole : (body.drop 2).length = 4 * (src.bytes.length / 4 - 1) := by
    rw [List.length_drop]
    omega
  refine ⟨⟨.source, _, ok⟩, rfl, rfl, ?_⟩
  rw [SalExt.addrs, row, quads_append whole, quads_append (show daddr.length = 4 * 1 by omega),
    quads_single destination,
    quads_of_lt (show after.length < 4 by omega), cut.addrs]
  rfl

theorem SourceCut.insertionPoint (cut : SourceCut src first length body spare)
    (least : 12 ≤ src.bytes.length) {packet rest : List UInt8} {ext : Nat}
    {ctx : SalContext} (here : packet.drop ext = src.bytes ++ rest)
    (pointer : ctx.srcExt = some ext) :
    insertionPoint packet ctx false = .ok (ext + (body.length + 2)) := by
  have addresses := cut.addresses
  have value := cut.value
  have read : readByte packet (ext + 1) = .ok length := by
    rw [cut.bytes] at here
    exact readByte_within here 1 rfl
  rw [Serval.insertionPoint, pointer]
  simp only [Bool.false_eq_true, if_false, read, ok_bind,
    salSourceExtGetLastAddr_eq ext (show 8 ≤ length.toNat by omega)]
  congr 1
  omega

end

end Serval
