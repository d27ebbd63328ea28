import Serval.Sal.Parse

/-!
# The grammar of SAL headers

An extension is a single padding byte, or a run of bytes that starts with its
type and its own length. A header is well formed when its length field cuts out
the base header and a row of such extensions, at most ten of them and not too
many of one kind.
-/

namespace Serval

open Serval.Support

/-- The length from which on an extension is accepted. A source extension
has room for two addresses. -/
def leastLength : SalExtType → Nat
  | .pad => 1
  | .control => 20
  | .service => 36
  | .address => 12
  | .source => 12
  | .taas => 12

inductive ExtOk : SalExtType → List UInt8 → Prop
  | pad {first : UInt8} (type : salExtType first = some .pad) : ExtOk .pad [first]
  | sized {kind : SalExtType} {first length : UInt8} {body : List UInt8}
      (type : salExtType first = some kind) (notPad : kind ≠ .pad)
      (whole : length.toNat = body.length + 2)
      (least : leastLength kind ≤ length.toNat) :
      ExtOk kind (first :: length :: body)

structure SalExt where
  kind : SalExtType
  bytes : List UInt8
  ok : ExtOk kind bytes

namespace SalExt

def verno (e : SalExt) : UInt32 := ntohl ((e.bytes.drop 4).take 4)

def ackno (e : SalExt) : UInt32 := ntohl ((e.bytes.drop 8).take 4)

def bit (e : SalExt) (index : Nat) : Nat := ((e.bytes.getD 2 0).toNat.testBit index).toNat

/-- The six flags of a control extension; its two low bits are reserved. -/
def flags (e : SalExt) : UInt16 :=
  UInt16.ofNat
    (svhSyn * e.bit 7 + svhRsyn * e.bit 6 + svhAck * e.bit 5 +
      svhNack * e.bit 4 + svhRst * e.bit 3 + svhFin * e.bit 2)

theorem least (e : SalExt) : leastLength e.kind ≤ e.bytes.length := by
  cases e with
  | mk kind bytes ok =>
    cases ok with
    | pad type => simp [leastLength]
    | sized type notPad whole least =>
      simp only [List.length_cons]
      omega

theorem bytes_ne_nil (e : SalExt) : e.bytes ≠ [] := by
  cases e with
  | mk kind bytes ok => cases ok <;> exact List.cons_ne_nil _ _

variable {e : SalExt}

theorem eq_of_append {e' : SalExt} {rest rest' : List UInt8}
    (same : e.bytes ++ rest = e'.bytes ++ rest') : e = e' ∧ rest = rest' := by
  obtain ⟨kind, bytes, ok⟩ := e
  obtain ⟨kind', bytes', ok'⟩ := e'
  have kinds : kind = kind' := by
    cases ok <;> cases ok' <;> simp only [List.cons_append, List.cons.injEq] at same <;> grind
  cases ok with
  | pad type =>
    cases ok' with
    | pad type' =>
      obtain ⟨rfl, rfl⟩ := same
      exact ⟨rfl, rfl⟩
    | sized type' notPad whole least => exact absurd kinds.symm notPad
  | sized type notPad whole least =>
    cases ok' with
    | pad type' => exact absurd kinds notPad
    | sized type' notPad' whole' least' =>
      simp only [List.cons_append, List.cons.injEq] at same
      obtain ⟨rfl, rfl, same⟩ := same
      obtain ⟨rfl, rfl⟩ := List.append_inj same (by omega)
      cases kinds
      exact ⟨rfl, rfl⟩

/-- The kind and the length of the extension that a row starts with. -/
theorem sized_of_append {kind : SalExtType} {first length : UInt8}
    {tail rest : List UInt8} (row : first :: length :: tail = e.bytes ++ rest)
    (type : salExtType first = some kind) (sized : kind ≠ .pad) :
    e.kind = kind ∧ length.toNat = e.bytes.length := by
  obtain ⟨kind', bytes, ok⟩ := e
  cases ok with
  | pad type' =>
    simp only [List.cons_append, List.cons.injEq] at row
    rw [← row.1, type] at type'
    cases type'
    exact absurd rfl sized
  | sized type' notPad whole least =>
    simp only [List.cons_append, List.cons.injEq] at row
    rw [← row.1, type] at type'
    cases type'
    refine ⟨rfl, ?_⟩
    rw [row.2.1, whole]
    rfl

theorem lengthByte {e : SalExt} (sized : e.kind ≠ .pad) :
    (e.bytes.getD 1 0).toNat = e.bytes.length := by
  cases e with
  | mk kind bytes ok =>
    cases ok with
    | pad type => exact absurd rfl sized
    | sized type notPad whole least => simpa using whole

theorem length_lt (sized : e.kind ≠ .pad) : e.bytes.length < 256 := by
  rw [← lengthByte sized]
  exact (e.bytes.getD 1 0).toNat_lt

def join (exts : List SalExt) : List UInt8 := (exts.map bytes).flatten

theorem join_injective {exts exts' : List SalExt}
    (same : join exts = join exts') : exts = exts' := by
  induction exts generalizing exts' with
  | nil =>
    cases exts' with
    | nil => rfl
    | cons e rest =>
      exact absurd (List.append_eq_nil_iff.mp same.symm).1 e.bytes_ne_nil
  | cons e rest ih =>
    cases exts' with
    | nil => exact absurd (List.append_eq_nil_iff.mp same).1 e.bytes_ne_nil
    | cons e' rest' =>
      obtain ⟨rfl, tail⟩ := eq_of_append same
      rw [ih tail]

def placed : Nat → List SalExt → List (Nat × SalExt)
  | _, [] => []
  | offset, e :: rest => (offset, e) :: placed (offset + e.bytes.length) rest

def ofKind (kind : SalExtType) (exts : List (Nat × SalExt)) : List (Nat × SalExt) :=
  exts.filter fun entry => entry.2.kind = kind

def count (kind : SalExtType) (exts : List SalExt) : Nat := exts.countP fun e => e.kind = kind

theorem length_ofKind_placed (kind : SalExtType) (offset : Nat) (exts : List SalExt) :
    (ofKind kind (placed offset exts)).length = count kind exts := by
  induction exts generalizing offset with
  | nil => rfl
  | cons e rest ih =>
    have tail := ih (offset + e.bytes.length)
    rw [ofKind, ← List.countP_eq_length_filter] at tail ⊢
    rw [placed, count, List.countP_cons, List.countP_cons, tail, count]

end SalExt

def salLength (packet : List UInt8) : Nat := 4 * (packet.getD 8 0).toNat

structure SalSplit (packet : List UInt8) (exts : List SalExt) : Prop where
  base : 12 ≤ salLength packet
  bytes : (packet.drop 12).take (salLength packet - 12) = SalExt.join exts
  room : exts.length ≤ 10
  controls : SalExt.count .control exts ≤ 1
  services : SalExt.count .service exts ≤ 2
  sources : SalExt.count .source exts ≤ 1
  taas : SalExt.count .taas exts ≤ 1

/-- The context points at the extensions and holds the control fields; what
the header does not have is null or zero. -/
structure Describes (exts : List (Nat × SalExt)) (ctx : SalContext) : Prop where
  ctrlExt : ctx.ctrlExt = (SalExt.ofKind .control exts)[0]?.map Prod.fst
  verno : ctx.verno = ((SalExt.ofKind .control exts)[0]?.map (·.2.verno)).getD 0
  ackno : ctx.ackno = ((SalExt.ofKind .control exts)[0]?.map (·.2.ackno)).getD 0
  flags : ctx.flags = ((SalExt.ofKind .control exts)[0]?.map (·.2.flags)).getD 0
  srvExt0 : ctx.srvExt0 = (SalExt.ofKind .service exts)[0]?.map Prod.fst
  srvExt1 : ctx.srvExt1 = (SalExt.ofKind .service exts)[1]?.map Prod.fst
  srcExt : ctx.srcExt = (SalExt.ofKind .source exts)[0]?.map Prod.fst
  taasExt : ctx.taasExt = (SalExt.ofKind .taas exts)[0]?.map Prod.fst

def SalContext.HasSlot (ctx : SalContext) : SalExtType → Prop
  | .pad => True
  | .control => ctx.ctrlExt = none
  | .service => ctx.srvExt0 = none ∨ ctx.srvExt1 = none
  | .address => True
  | .source => ctx.srcExt = none
  | .taas => ctx.taasExt = none

/-- The context after an accepted extension: the pointers and fields of its
kind are filled in. -/
def SalContext.absorb (ctx : SalContext) (offset : Nat) (e : SalExt) :
    SalContext :=
  { ctx with
    ctrlExt := if e.kind = .control then some offset else ctx.ctrlExt
    verno := if e.kind = .control then e.verno else ctx.verno
    ackno := if e.kind = .control then e.ackno else ctx.ackno
    flags :=
      if e.kind = .control then
        parseCtrlFlags (e.bytes.getD 2 0) ctx.flags
      else ctx.flags
    srvExt0 :=
      if e.kind = .service ∧ ctx.srvExt0 = none then some offset
      else ctx.srvExt0
    srvExt1 :=
      if e.kind = .service ∧ ctx.srvExt0 ≠ none then some offset
      else ctx.srvExt1
    srcExt := if e.kind = .source then some offset else ctx.srcExt
    taasExt := if e.kind = .taas then some offset else ctx.taasExt }

theorem minExtLength_le (kind : SalExtType) : minExtLength kind ≤ leastLength kind := by
  cases kind <;> decide

variable {kind : SalExtType} {len : Nat} {rest : List UInt8} {ctx : SalContext}

theorem two_le_leastLength (sized : kind ≠ .pad) : 2 ≤ leastLength kind := by
  cases kind with
  | pad => exact absurd rfl sized
  | _ => decide

structure Headed (packet : List UInt8) (offset : Nat) (kind : SalExtType) (len : Nat) : Prop where
  type : ∃ first, readByte packet offset = .ok first ∧ salExtType first = some kind
  length : salExtLen packet offset = .ok len
  least : leastLength kind ≤ len

variable {packet : List UInt8} {length : UInt8} {offset : Nat}

theorem salExtLen_pad {first : UInt8} (read : readByte packet offset = .ok first)
    (type : salExtType first = some .pad) :
    salExtLen packet offset = .ok 1 := by
  simp only [salExtLen, read, ok_bind, if_pos type]

theorem salExtLen_sized {first : UInt8} (read : readByte packet offset = .ok first)
    (notPad : salExtType first ≠ some .pad)
    (readLength : readByte packet (offset + 1) = .ok length) :
    salExtLen packet offset = .ok length.toNat := by
  simp only [salExtLen, read, ok_bind, if_neg notPad, readLength]

theorem salExtNext_of_len (length : salExtLen packet offset = .ok len) :
    salExtNext packet offset = .ok (offset + len) := by
  obtain ⟨first, read, rest⟩ := of_bind length
  by_cases pad : salExtType first = some .pad
  · rw [if_pos pad] at rest
    cases rest
    simp only [salExtNext, read, ok_bind, if_pos pad]
  · rw [if_neg pad] at rest
    obtain ⟨byte, readLength, same⟩ := of_bind rest
    cases same
    simp only [salExtNext, read, ok_bind, if_neg pad, readLength]

variable {e : SalExt}

theorem SalExt.readLength (here : packet.drop offset = e.bytes ++ rest) (sized : e.kind ≠ .pad) :
    ∃ length, readByte packet (offset + 1) = .ok length ∧ length.toNat = e.bytes.length := by
  cases e with
  | mk kind bytes ok =>
    cases ok with
    | pad type => exact absurd rfl sized
    | @sized kind first length body type notPad whole least =>
      exact ⟨length, readByte_within here 1 rfl, by simpa using whole⟩

theorem SalExt.readType (here : packet.drop offset = e.bytes ++ rest) :
    ∃ first, readByte packet offset = .ok first ∧ salExtType first = some e.kind := by
  cases e with
  | mk kind bytes ok =>
    cases ok with
    | @pad first type => exact ⟨first, readByte_within here 0 rfl, type⟩
    | @sized kind first length body type notPad whole least =>
      exact ⟨first, readByte_within here 0 rfl, type⟩

theorem SalExt.length_pad (pad : e.kind = .pad) : e.bytes.length = 1 := by
  cases e with
  | mk kind bytes ok =>
    cases ok with
    | pad type => rfl
    | sized type notPad whole least => exact absurd pad notPad

theorem SalExt.headed (e : SalExt) (here : packet.drop offset = e.bytes ++ rest) :
    Headed packet offset e.kind e.bytes.length := by
  obtain ⟨first, read, type⟩ := SalExt.readType here
  refine ⟨⟨first, read, type⟩, ?_, e.least⟩
  by_cases pad : e.kind = .pad
  · rw [pad] at type
    rw [SalExt.length_pad pad]
    exact salExtLen_pad read type
  obtain ⟨length, readLength, same⟩ := SalExt.readLength here pad
  rw [← same]
  apply salExtLen_sized read _ readLength
  rw [type]
  exact fun other => pad (Option.some.inj other)

theorem toNat_salSourceExtNumAddrs (minimum : 4 ≤ length.toNat) :
    (salSourceExtNumAddrs length).toNat = (length.toNat - 4) / 4 := by
  have wide : length.toUInt64.toNat = length.toNat := UInt8.toNat_toUInt64 length
  have header : (4 : UInt64) ≤ length.toUInt64 :=
    UInt64.le_iff_toNat_le.mpr (by rw [wide]; exact minimum)
  rw [salSourceExtNumAddrs, UInt64.toNat_div, UInt64.toNat_sub_of_le _ _ header]
  rfl

theorem salSourceExtNumAddrs_lt_two (minimum : 4 ≤ length.toNat) :
    salSourceExtNumAddrs length < 2 ↔ length.toNat < 12 := by
  rw [UInt64.lt_iff_toNat_lt, toNat_salSourceExtNumAddrs minimum]
  show (length.toNat - 4) / 4 < 2 ↔ length.toNat < 12
  omega

theorem parseExtFunc_accepts (e : SalExt)
    (here : packet.drop offset = e.bytes ++ rest) (slot : ctx.HasSlot e.kind) :
    parseExtFunc packet offset e.bytes.length ctx e.kind =
      .ok (e.bytes.length, ctx.absorb offset e) := by
  have least := e.least
  cases kind : e.kind with
  | pad =>
    simp [parseExtFunc, parsePadExt, SalContext.absorb, kind, SalExt.length_pad kind]
  | control =>
    rw [kind] at slot least
    have free : ctx.ctrlExt = none := slot
    have long : 20 ≤ e.bytes.length := least
    have verno := readBytes_within here 4 (by decide : 0 < 4) (by omega)
    have ackno := readBytes_within here 8 (by decide : 0 < 4) (by omega)
    have bits : readByte packet (offset + 2) = .ok (e.bytes.getD 2 0) := by
      apply readByte_within here 2
      rw [List.getD_eq_getElem?_getD, List.getElem?_eq_getElem (by omega)]
      rfl
    simp [parseExtFunc, parseControlExt, free, verno, ackno, bits, SalContext.absorb, kind,
      SalExt.verno, SalExt.ackno]
  | service =>
    rw [kind] at slot
    cases first : ctx.srvExt0 with
    | none =>
      simp [parseExtFunc, parseServiceExt, SalContext.absorb, kind, first]
    | some occupied =>
      have free : ctx.srvExt1 = none := by
        rcases slot with none | none
        · rw [first] at none
          cases none
        · exact none
      simp [parseExtFunc, parseServiceExt, SalContext.absorb, kind, first, free]
  | address => simp [parseExtFunc, parseAddressExt, SalContext.absorb, kind]
  | source =>
    rw [kind] at slot least
    have free : ctx.srcExt = none := slot
    have long : 12 ≤ e.bytes.length := least
    obtain ⟨length, read, same⟩ := SalExt.readLength here (by rw [kind]; decide)
    have enough : ¬ salSourceExtNumAddrs length < 2 := by
      rw [salSourceExtNumAddrs_lt_two (by omega)]
      omega
    simp only [parseExtFunc, parseSourceExt, free, read, ok_bind, if_neg enough]
    simp [SalContext.absorb, kind]
  | taas =>
    rw [kind] at slot
    have free : ctx.taasExt = none := slot
    simp [parseExtFunc, parseTaasExt, SalContext.absorb, kind, free]

theorem parseExt_of_headed (headed : Headed packet offset kind len) (ctx : SalContext) :
    parseExt packet offset ctx =
      parseExtFunc packet offset len ctx kind := by
  obtain ⟨first, read, type⟩ := headed.type
  have long : ¬ len < minExtLength kind := not_lt.mpr ((minExtLength_le kind).trans headed.least)
  simp only [parseExt, headed.length, read, ok_bind, type, if_neg long]

/-- An extension in place is accepted when its kind has a free pointer. -/
theorem parseExt_accepts (e : SalExt)
    (here : packet.drop offset = e.bytes ++ rest) (slot : ctx.HasSlot e.kind) :
    parseExt packet offset ctx = .ok (e.bytes.length, ctx.absorb offset e) := by
  rw [parseExt_of_headed (e.headed here), parseExtFunc_accepts e here slot]

/-- A handler that does not refuse the extension has a pointer for it. -/
theorem parseExtFunc_positive {ctx' : SalContext} {ret : Int} (padLen : kind = .pad → len = 1)
    (sizedLen :
      kind ≠ .pad →
        ∃ length, readByte packet (offset + 1) = .ok length ∧
          length.toNat = len) (minimum : minExtLength kind ≤ len)
    (run : parseExtFunc packet offset len ctx kind = .ok (ret, ctx'))
    (positive : 0 < ret) :
    ret = len ∧ leastLength kind ≤ len ∧ ctx.HasSlot kind := by
  have refused {other : SalContext} {P : Prop}
      (run : (Except.ok (-1, other) : Except Fault (Int × SalContext)) = .ok (ret, ctx')) : P := by
    cases run
    cases positive
  cases kind with
  | pad =>
    cases run
    rw [padLen rfl]
    exact ⟨rfl, le_rfl, trivial⟩
  | control =>
    rw [parseExtFunc, parseControlExt] at run
    cases taken : ctx.ctrlExt with
    | some occupied =>
      rw [taken] at run
      exact refused run
    | none =>
      rw [taken] at run
      obtain ⟨verno, -, run⟩ := of_bind run
      obtain ⟨ackno, -, run⟩ := of_bind run
      obtain ⟨bits, -, run⟩ := of_bind run
      cases run
      exact ⟨rfl, minimum, taken⟩
  | service =>
    rw [parseExtFunc, parseServiceExt] at run
    cases first : ctx.srvExt0 with
    | none =>
      rw [first] at run
      cases run
      exact ⟨rfl, minimum, Or.inl first⟩
    | some occupied =>
      cases second : ctx.srvExt1 with
      | none =>
        rw [first, second] at run
        cases run
        exact ⟨rfl, minimum, Or.inr second⟩
      | some taken =>
        rw [first, second] at run
        exact refused run
  | address =>
    cases run
    exact ⟨rfl, minimum, trivial⟩
  | source =>
    rw [parseExtFunc, parseSourceExt] at run
    cases taken : ctx.srcExt with
    | some occupied =>
      rw [taken] at run
      exact refused run
    | none =>
      obtain ⟨length, read, same⟩ := sizedLen (by decide)
      have atLeast : 4 ≤ length.toNat := by
        rw [same]
        exact minimum
      simp only [taken, Option.isSome_none, Bool.false_eq_true, if_false, read, ok_bind] at run
      by_cases few : salSourceExtNumAddrs length < 2
      · rw [if_pos few] at run
        exact refused run
      have enough : 12 ≤ len := by
        rw [salSourceExtNumAddrs_lt_two atLeast] at few
        omega
      rw [if_neg few] at run
      cases run
      exact ⟨rfl, enough, taken⟩
  | taas =>
    rw [parseExtFunc, parseTaasExt] at run
    cases taken : ctx.taasExt with
    | some occupied =>
      rw [taken] at run
      exact refused run
    | none =>
      rw [taken] at run
      cases run
      exact ⟨rfl, minimum, taken⟩

/-- An extension that is not refused has a head of the grammar, and its kind
has a free pointer. -/
theorem parseExt_positive {ctx' : SalContext} {ret : Int}
    (run : parseExt packet offset ctx = .ok (ret, ctx')) (positive : 0 < ret) :
    ∃ (kind : SalExtType) (len : Nat), ret = len ∧
      Headed packet offset kind len ∧ ctx.HasSlot kind := by
  obtain ⟨len, extLen, run⟩ := of_bind run
  obtain ⟨first, read, run⟩ := of_bind run
  cases type : salExtType first with
  | none =>
    rw [type] at run
    cases run
    cases positive
  | some kind =>
    simp only [type] at run
    by_cases short : len < minExtLength kind
    · rw [if_pos short] at run
      cases run
      cases positive
    rw [if_neg short] at run
    have padLen : kind = .pad → len = 1 := by
      intro pad
      rw [pad] at type
      rw [salExtLen_pad read type] at extLen
      cases extLen
      rfl
    have sizedLen : kind ≠ .pad →
          ∃ length, readByte packet (offset + 1) = .ok length ∧ length.toNat = len := by
      intro sized
      have notPad : ¬ salExtType first = some .pad := by
        rw [type]
        exact fun same => sized (Option.some.inj same)
      simp only [salExtLen, read, ok_bind, if_neg notPad] at extLen
      obtain ⟨length, readLength, same⟩ := of_bind extLen
      cases same
      exact ⟨length, readLength, rfl⟩
    obtain ⟨same, least, slot⟩ := parseExtFunc_positive padLen sizedLen (not_lt.mp short) run
        positive
    exact ⟨kind, len, same, ⟨⟨first, read, type⟩, extLen, least⟩, slot⟩

/-- All the bytes are there that `parse_ext` looks at. It looks at the
length of all extensions but padding, and into the first control extension;
`fresh` says that there was none so far. -/
def ExtReadable (fresh : Prop) : List UInt8 → Prop
  | [] => False
  | [first] => salExtType first = some .pad
  | first :: length :: body =>
    fresh → salExtType first = some .control → 20 ≤ length.toNat → 10 ≤ body.length

theorem parseExtFunc_ok_iff (readable : offset + 1 < packet.length) :
    (∃ result, parseExtFunc packet offset len ctx kind = .ok result) ↔
      (ctx.ctrlExt = none → kind = .control → offset + 12 ≤ packet.length) := by
  cases kind with
  | pad | address =>
    exact iff_of_true ⟨_, rfl⟩ (fun _ other => by cases other)
  | control =>
    rw [parseExtFunc, parseControlExt]
    cases taken : ctx.ctrlExt with
    | some occupied =>
      exact iff_of_true ⟨_, rfl⟩ (fun free => by cases free)
    | none =>
      constructor
      · rintro ⟨result, run⟩ - -
        obtain ⟨verno, -, run⟩ := of_bind run
        obtain ⟨ackno, read, -⟩ := of_bind run
        rw [readBytes] at read
        split at read
        · assumption
        · cases read
      · intro enough
        have inside : offset + 12 ≤ packet.length := by simpa using enough
        obtain ⟨bits, read⟩ := readByte_of_lt (show offset + 2 < packet.length by omega)
        rw [readBytes_of_le (show offset + 4 + 4 ≤ packet.length by omega),
          readBytes_of_le (show offset + 8 + 4 ≤ packet.length by omega),
          read]
        exact ⟨_, rfl⟩
  | service =>
    refine iff_of_true ?_ (fun _ other => by cases other)
    rw [parseExtFunc, parseServiceExt]
    split_ifs <;> exact ⟨_, rfl⟩
  | source =>
    refine iff_of_true ?_ (fun _ other => by cases other)
    obtain ⟨length, read⟩ := readByte_of_lt readable
    rw [parseExtFunc, parseSourceExt, read, ok_bind]
    split_ifs <;> exact ⟨_, rfl⟩
  | taas =>
    refine iff_of_true ?_ (fun _ other => by cases other)
    rw [parseExtFunc, parseTaasExt]
    split_ifs <;> exact ⟨_, rfl⟩

/-- `parse_ext` comes to an answer exactly when the bytes it looks at are
there. -/
theorem parseExt_ok_iff : (∃ result, parseExt packet offset ctx = .ok result) ↔
      ExtReadable (ctx.ctrlExt = none) (packet.drop offset) := by
  cases here : packet.drop offset with
  | nil =>
    refine iff_of_false ?_ id
    rintro ⟨result, run⟩
    obtain ⟨len, -, run⟩ := of_bind run
    obtain ⟨first, read, -⟩ := of_bind run
    rw [drop_of_readByte read] at here
    cases here
  | cons first tail =>
    have lengths := congrArg List.length here
    rw [List.length_drop, List.length_cons] at lengths
    have read : readByte packet offset = .ok first := @readByte_within _ [first] tail _ here 0 _ rfl
    by_cases pad : salExtType first = some .pad
    · refine iff_of_true ?_ ?_
      · rw [parseExt, salExtLen_pad read pad, ok_bind, read, ok_bind, pad]
        exact ⟨_, rfl⟩
      · cases tail with
        | nil => exact pad
        | cons length body =>
          intro _ control
          rw [pad] at control
          cases control
    · cases tail with
      | nil =>
        refine iff_of_false ?_ pad
        rintro ⟨result, run⟩
        obtain ⟨len, extLen, -⟩ := of_bind run
        simp only [salExtLen, read, ok_bind, if_neg pad] at extLen
        obtain ⟨length, readLength, -⟩ := of_bind extLen
        have more := congrArg List.length (drop_of_readByte readLength)
        rw [List.length_drop, List.length_cons] at more
        rw [List.length_nil] at lengths
        omega
      | cons length body =>
        rw [List.length_cons] at lengths
        have readLength : readByte packet (offset + 1) = .ok length :=
          @readByte_within _ [first, length] body _ here 1 _ rfl
        rw [parseExt, salExtLen_sized read pad readLength, ok_bind, read, ok_bind]
        cases type : salExtType first with
        | none =>
          refine iff_of_true ⟨_, rfl⟩ ?_
          intro _ control
          rw [type] at control
          cases control
        | some kind =>
          dsimp only [ExtReadable]
          rw [type]
          by_cases short : length.toNat < minExtLength kind
          · rw [if_pos short]
            refine iff_of_true ⟨_, rfl⟩ ?_
            intro _ control atLeast
            cases control
            exact absurd atLeast (not_le.mpr short)
          rw [if_neg short, parseExtFunc_ok_iff (show offset + 1 < packet.length by
              omega)]
          constructor
          · intro enough fresh control _
            have inside := enough fresh (Option.some.inj control)
            omega
          · intro enough fresh control
            subst control
            have inside := enough fresh rfl (not_lt.mp short)
            omega

theorem extReadable_of_length (fresh : Prop) {bytes : List UInt8} (enough : 12 ≤ bytes.length) :
    ExtReadable fresh bytes := by
  match bytes, enough with
  | first :: length :: body, enough =>
    intro _ _ _
    rw [List.length_cons, List.length_cons] at enough
    omega

/-- A head of the grammar whose bytes are all there starts an extension. -/
theorem Headed.extension (headed : Headed packet offset kind len)
    (inside : offset + len ≤ packet.length) :
    ∃ e : SalExt, e.kind = kind ∧ e.bytes.length = len ∧
      packet.drop offset = e.bytes ++ packet.drop (offset + len) := by
  have split : packet.drop offset =
        (packet.drop offset).take len ++ packet.drop (offset + len) := by
    rw [← List.drop_drop, List.take_append_drop]
  have size : ((packet.drop offset).take len).length = len := by
    rw [List.length_take, List.length_drop]
    omega
  have ok : ExtOk kind ((packet.drop offset).take len) := by
    obtain ⟨first, read, type⟩ := headed.type
    have start := drop_of_readByte read
    have extLen := headed.length
    by_cases pad : kind = .pad
    · rw [pad] at type ⊢
      rw [salExtLen_pad read type] at extLen
      cases extLen
      rw [start]
      exact .pad type
    have notPad : salExtType first ≠ some .pad := by
      rw [type]
      exact fun same => pad (Option.some.inj same)
    rw [salExtLen, read, ok_bind, if_neg notPad] at extLen
    obtain ⟨length, readLength, same⟩ := of_bind extLen
    have second := drop_of_readByte readLength
    have least := headed.least
    cases same
    obtain ⟨body, total⟩ := Nat.exists_eq_add_of_le' ((two_le_leastLength pad).trans least)
    rw [start, second, total]
      at size ⊢
    refine .sized type pad ?_ least
    rw [total]
    exact size.symm
  exact ⟨⟨kind, _, ok⟩, rfl, size, split⟩

end Serval
