import Mathlib.Algebra.Group.Int.Defs
import Mathlib.Algebra.Group.Nat.Defs
import Mathlib.Data.List.Basic

/-!
# The arguments of the service tool

`service_parse_args` of `tools/service.c` and the hexadecimal conversion of
`netinet/serval.h`. A string is the list of its characters in front of the
terminating zero.
-/

namespace Serval

/-- The result is `none` when the source returns -1. -/
def hextobyte (c : UInt8) : Option UInt8 :=
  if 48 ≤ c ∧ c ≤ 57 then some (c - 48)
  else
    let d := c ||| 32
    if 97 ≤ d ∧ d ≤ 102 then some (d - 97 + 10) else none

/-- What `serval_hexton` returns, the bytes that it has written and the number
of characters that it has looked at. -/
structure Hexton where
  ret : Int
  written : List UInt8
  reads : Nat
  deriving DecidableEq, Repr

/-- One more byte, behind `count` characters. -/
def Hexton.push (value : UInt8) (count : Nat) (result : Hexton) : Hexton where
  ret := result.ret
  written := value :: result.written
  reads := count + result.reads

@[simp]
theorem Hexton.push_written (value : UInt8) (count : Nat) (result : Hexton) :
    (result.push value count).written = value :: result.written :=
  rfl

@[simp]
theorem Hexton.push_reads (value : UInt8) (count : Nat) (result : Hexton) :
    (result.push value count).reads = count + result.reads :=
  rfl

/-- `src` is the memory behind the pointer. Its characters are looked at
before the two lengths, and `src_len` goes on from the greatest `size_t` when
it has passed zero. -/
def servalHexton (src : Nat → UInt8) (srcLen : Nat) : Nat → Hexton
  | 0 => ⟨1, [], 1⟩
  | dstLen + 1 =>
    if src 0 = 0 ∨ srcLen = 0 then ⟨1, [], 1⟩
    else
      match hextobyte (src 0) with
      | none => ⟨0, [], 1⟩
      | some high =>
        if src 1 = 0 then
          (servalHexton (fun k => src (k + 1)) (srcLen - 1) dstLen).push
            (high * 16) 1
        else if srcLen = 1 then
          (servalHexton (fun k => src (k + 1)) (2 ^ 64 - 1) dstLen).push
            (high * 16) 1
        else
          match hextobyte (src 1) with
          | none => ⟨0, [], 2⟩
          | some low =>
            (servalHexton (fun k => src (k + 2)) (srcLen - 2) dstLen).push (high * 16 + low) 2

def charsAt (s : List UInt8) (k : Nat) : UInt8 := s.getD k 0

def servalPton (s : List UInt8) : Hexton := servalHexton (charsAt s) 64 32

def ascii (s : String) : List UInt8 := s.toList.map fun c => UInt8.ofNat c.toNat

inductive ServiceOp where
  | add
  | del
  | mod
  deriving DecidableEq, Repr

/-- The search through `opnames`. -/
def serviceOpNamed (name : List UInt8) : Option ServiceOp :=
  if name = ascii "add" then some .add
  else if name = ascii "del" ∨ name = ascii "delete" then some .del
  else if name = ascii "mod" ∨ name = ascii "modify" then some .mod
  else none

/-- `strtoul` in base 10 gives the number and what stands behind it. -/
structure ToolLibc where
  strtoul : List UInt8 → UInt64 × List UInt8
  nameToInetAddr : List UInt8 → Option UInt32

inductive ToolRule where
  | forward
  | delay
  | drop
  deriving DecidableEq, Repr

structure Arguments where
  op : ServiceOp
  type : ToolRule
  srvid : List UInt8
  ip1 : Option UInt32
  ip2 : Option UInt32
  priority : UInt32
  weight : UInt32
  prefixBits : UInt16
  taasAuth : UInt64
  ipN : Option UInt32
  deriving DecidableEq, Repr

def paddedId (bytes : List UInt8) : List UInt8 := bytes ++ List.replicate (32 - bytes.length) 0

def isColon (c : UInt8) : Bool := c = 58

def idPart (id : List UInt8) : List UInt8 := id.takeWhile fun c => !isColon c

def prefixPart (id : List UInt8) : Option (List UInt8) := (id.dropWhile fun c => !isColon c).tail?

section

variable (libc : ToolLibc)

/-- The service id and the string of its prefix bits. `serval_pton` is
compared with -1, which it never returns. -/
def parseServiceId (id : List UInt8) : Option (List UInt8 × Option (List UInt8)) :=
  if id = ascii "default" then some (paddedId [], none)
  else if charsAt id 0 = 48 ∧ charsAt id 1 = 120 then
    let result := servalPton (idPart (id.drop 2))
    if result.ret = -1 then none
    else some (paddedId result.written, prefixPart (id.drop 2))
  else
    let (number, rest) := libc.strtoul id
    if rest = [] ∨ charsAt rest 0 = 58 then
      let word := number.toUInt32
      some (paddedId [(word >>> 24).toUInt8, (word >>> 16).toUInt8, (word >>> 8).toUInt8,
        word.toUInt8], rest.tail?)
    else none

def parsePrefixBits : Option (List UInt8) → Option UInt16
  | none => some 256
  | some text =>
    let (number, rest) := libc.strtoul text
    if rest ≠ [] then none
    else if number.toUInt16 > 256 ∨ number.toUInt16 = 0 then some 256
    else some number.toUInt16

def tolower (c : UInt8) : UInt8 :=
  if 65 ≤ c ∧ c ≤ 90 then c + 32 else c

def parseTarget (target : List UInt8) : Option (ToolRule × Option UInt32) :=
  let target := target.map tolower
  if target = ascii "delay" then some (.delay, none)
  else if target = ascii "drop" then some (.drop, none)
  else (libc.nameToInetAddr target).map fun ip => (.forward, some ip)

def optionNumber (value : List UInt8) : Option UInt64 :=
  let (number, rest) := libc.strtoul value
  if rest ≠ [] ∨ value = [] then none else some number

def namedOption (args : Arguments) (name : List UInt8) : Option (List UInt8 → Option Arguments) :=
  if name = ascii "priority" then
    some fun value => (optionNumber libc value).map fun n =>
      { args with priority := n.toUInt32 }
  else if name = ascii "weight" then
    some fun value => (optionNumber libc value).map fun n =>
      { args with weight := n.toUInt32 }
  else if name = ascii "taas" then
    some fun value => (optionNumber libc value).map fun n =>
      { args with taasAuth := n }
  else if name = ascii "nat_src_addr" then
    some fun value => (libc.nameToInetAddr value).map fun ip =>
      { args with ipN := some ip }
  else none

def parseOptions (libc : ToolLibc) : Arguments → List (List UInt8) → Option Arguments
  | args, [] => some args
  | args, name :: rest =>
    match namedOption libc args name, rest with
    | some _, [] => none
    | some set, value :: rest => do
      let args ← set value
      parseOptions libc args rest
    | none, rest => do
      let ip ← libc.nameToInetAddr name
      parseOptions libc { args with ip2 := some ip } rest

/-- The result is `none` when the source returns -1. -/
def serviceParseArgs : List (List UInt8) → Option Arguments
  | name :: id :: target :: rest => do
    let op ← serviceOpNamed name
    let (srvid, text) ← parseServiceId libc id
    let prefixBits ← parsePrefixBits libc text
    let (type, ip1) ← parseTarget libc target
    parseOptions libc
      { op, type, srvid, ip1, ip2 := none, priority := 1, weight := 0, prefixBits, taasAuth := 0,
        ipN := none } rest
  | _ => none

end

/-! ## What a hexadecimal string denotes -/

def hexDigit (c : UInt8) : Option UInt8 :=
  if 48 ≤ c ∧ c ≤ 57 then some (c - 48)
  else if 65 ≤ c ∧ c ≤ 70 then some (c - 55)
  else if 97 ≤ c ∧ c ≤ 102 then some (c - 87)
  else none

def Hexadecimal (s : List UInt8) : Prop := ∀ c ∈ s, (hexDigit c).isSome = true

/-- Two digits a byte; a last digit alone is the upper half of its byte. -/
def hexBytes : List UInt8 → List UInt8
  | [] => []
  | [a] => [(hexDigit a).getD 0 * 16]
  | a :: b :: rest =>
    ((hexDigit a).getD 0 * 16 + (hexDigit b).getD 0) :: hexBytes rest

theorem hextobyte_eq (c : UInt8) : hextobyte c = hexDigit c := by
  have all : ∀ n : Fin 256, hextobyte (.ofFin n) = hexDigit (.ofFin n) := by decide +kernel
  exact all c.toFin

theorem hexBytes_length (s : List UInt8) : (hexBytes s).length = (s.length + 1) / 2 := by
  induction s using hexBytes.induct with
  | case1 => rfl
  | case2 a => simp [hexBytes]
  | case3 a b rest ih =>
    rw [hexBytes]
    simp only [List.length_cons]
    omega

variable (src : Nat → UInt8) (srcLen dstLen : Nat)

theorem servalHexton_written : (servalHexton src srcLen dstLen).written.length ≤ dstLen := by
  induction dstLen generalizing src srcLen with
  | zero => exact Nat.le_refl 0
  | succ dstLen ih =>
    rw [servalHexton]
    repeat' split
    all_goals simp [ih]

theorem servalHexton_reads_pos : 1 ≤ (servalHexton src srcLen dstLen).reads := by
  cases dstLen with
  | zero => exact Nat.le_refl 1
  | succ dstLen =>
    rw [servalHexton]
    repeat' split
    all_goals simp only [Hexton.push_reads]; omega

/-- No character behind `src_len` is looked at exactly if the destination is
full before, or something that is no digit comes before. -/
theorem servalHexton_reads_iff : (servalHexton src srcLen dstLen).reads ≤ srcLen ↔
      2 * dstLen < srcLen ∨ ∃ k < srcLen, hexDigit (src k) = none := by
  induction dstLen generalizing src srcLen with
  | zero =>
    show 1 ≤ srcLen ↔ _
    constructor
    · exact fun some => .inl some
    · rintro (some | ⟨k, small, -⟩)
      · exact some
      · omega
  | succ dstLen ih =>
    cases srcLen with
    | zero =>
      rw [servalHexton]
      simp
    | succ n =>
      rw [servalHexton, hextobyte_eq, hextobyte_eq]
      by_cases ended : src 0 = 0
      · rw [if_pos (.inl ended)]
        exact ⟨fun _ => .inr ⟨0, n.succ_pos, by rw [ended]; rfl⟩, fun _ => n.succ_pos⟩
      rw [if_neg (by simp [ended])]
      cases first : hexDigit (src 0) with
      | none => exact ⟨fun _ => .inr ⟨0, n.succ_pos, first⟩, fun _ => n.succ_pos⟩
      | some high =>
        have rest : (∃ k < n + 1, hexDigit (src k) = none) ↔
              ∃ k < n, hexDigit (src (k + 1)) = none := by
          rw [Nat.exists_lt_succ_left]
          simp [first]
        rw [rest]
        dsimp only
        split
        · rename_i ended
          have inner := ih (fun k => src (k + 1)) n
          rw [Hexton.push_reads, Nat.add_sub_cancel, Nat.add_comm 1, Nat.add_le_add_iff_right,
            inner]
          cases n with
          | zero => simp
          | succ n =>
            have stop : ∃ k < n + 1, hexDigit (src (k + 1)) = none :=
              ⟨0, n.succ_pos, by rw [ended]; rfl⟩
            exact ⟨fun _ => .inr stop, fun _ => .inr stop⟩
        · split
          · rename_i passed
            have some := servalHexton_reads_pos (fun k => src (k + 1)) (2 ^ 64 - 1) dstLen
            obtain rfl : n = 0 := by omega
            rw [Hexton.push_reads]
            refine iff_of_false (by omega) ?_
            rintro (more | ⟨k, small, -⟩) <;> omega
          · cases n with
            | zero => contradiction
            | succ n =>
              cases second : hexDigit (src 1) with
              | none =>
                exact ⟨fun _ => .inr ⟨0, n.succ_pos, second⟩, fun _ => Nat.succ_le_succ n.succ_pos⟩
              | some low =>
                have inner := ih (fun k => src (k + 2)) n
                rw [Nat.exists_lt_succ_left]
                simp only [Nat.zero_add, second, reduceCtorEq, false_or]
                show 2 + (servalHexton _ n dstLen).reads ≤ _ ↔ _
                rw [Nat.add_comm 2, Nat.add_le_add_iff_right, inner]
                exact or_congr_left (by omega)

/-! ## Service ids of the command line -/

theorem servalHexton_empty : (servalHexton (charsAt []) srcLen dstLen).written = [] := by
  cases dstLen with
  | zero => rfl
  | succ dstLen =>
    rw [servalHexton, if_pos (.inl rfl)]

theorem servalHexton_digits {s : List UInt8} (digits : Hexadecimal s) {srcLen dstLen : Nat}
    (source : s.length ≤ srcLen) (fits : s.length ≤ 2 * dstLen) :
    (servalHexton (charsAt s) srcLen dstLen).written = hexBytes s := by
  have nonzero {c value : UInt8} (digit : hexDigit c = some value) : c ≠ 0 := by
    rintro rfl
    cases digit
  induction s using hexBytes.induct generalizing srcLen dstLen with
  | case1 => exact servalHexton_empty srcLen dstLen
  | case2 a =>
    obtain ⟨high, first⟩ := Option.isSome_iff_exists.mp (digits a List.mem_cons_self)
    obtain ⟨dstLen, rfl⟩ : ∃ n, dstLen = n + 1 :=
      Nat.exists_eq_succ_of_ne_zero (by rintro rfl; cases fits)
    have some : srcLen ≠ 0 := by
      rintro rfl
      cases source
    have step : servalHexton (charsAt [a]) srcLen (dstLen + 1) =
          (servalHexton (charsAt []) (srcLen - 1) dstLen).push
            (high * 16) 1 := by
      simp [servalHexton, hextobyte_eq, charsAt, first, nonzero first, some]
      rfl
    rw [step, Hexton.push_written, servalHexton_empty, hexBytes, first]
    rfl
  | case3 a b rest ih =>
    obtain ⟨high, first⟩ := Option.isSome_iff_exists.mp (digits a List.mem_cons_self)
    obtain ⟨low, second⟩ := Option.isSome_iff_exists.mp
      (digits b (List.mem_cons_of_mem a List.mem_cons_self))
    obtain ⟨dstLen, rfl⟩ : ∃ n, dstLen = n + 1 :=
      Nat.exists_eq_succ_of_ne_zero (by rintro rfl; cases fits)
    simp only [List.length_cons] at source fits
    have inner := @ih (fun c member =>
      digits c (.tail a (.tail b member))) (srcLen - 2) dstLen (by omega)
      (by omega)
    have two : srcLen ≠ 0 ∧ srcLen ≠ 1 := by omega
    have step : servalHexton (charsAt (a :: b :: rest)) srcLen (dstLen + 1) =
          (servalHexton (charsAt rest) (srcLen - 2) dstLen).push
            (high * 16 + low) 2 := by
      simp [servalHexton, hextobyte_eq, charsAt, first, nonzero first, two, second, nonzero second]
      rfl
    rw [step, Hexton.push_written, inner, hexBytes, first, second]
    rfl

theorem servalHexton_ret : (servalHexton src srcLen dstLen).ret ≠ -1 := by
  induction dstLen generalizing src srcLen with
  | zero => exact (by decide : (1 : Int) ≠ -1)
  | succ dstLen ih =>
    rw [servalHexton]
    repeat' split
    all_goals first | exact ih _ _ | decide

theorem paddedId_length {bytes : List UInt8} (fits : bytes.length ≤ 32) :
    (paddedId bytes).length = 32 := by
  rw [paddedId, List.length_append, List.length_replicate]
  omega

def BadPrefix (libc : ToolLibc) (id : List UInt8) : Prop :=
  ∃ text, prefixPart id = some text ∧ (libc.strtoul text).2 ≠ []

theorem parseServiceId_hex (libc : ToolLibc) (id : List UInt8) :
    parseServiceId libc (48 :: 120 :: id) =
      some (paddedId (servalPton (idPart id)).written, prefixPart id) := by
  rw [parseServiceId]
  exact if_neg (servalHexton_ret _ _ _)

variable {libc : ToolLibc}

theorem parsePrefixBits_isSome {id : List UInt8} :
    (∃ bits, parsePrefixBits libc (prefixPart id) = some bits) ↔ ¬ BadPrefix libc id := by
  rw [BadPrefix]
  cases prefixPart id with
  | none => simp [parsePrefixBits]
  | some text =>
    dsimp only [parsePrefixBits]
    split_ifs with rest wide
    · simpa using rest
    · simpa using rest
    · simpa using rest

theorem namedOption_srvid {args args' : Arguments} {name value : List UInt8}
    {set : List UInt8 → Option Arguments}
    (named : namedOption libc args name = some set)
    (run : set value = some args') : args'.srvid = args.srvid := by
  rw [namedOption] at named
  split_ifs at named
  all_goals
    cases named
    obtain ⟨n, -, rfl⟩ := Option.map_eq_some_iff.mp run
    rfl

theorem parseOptions_srvid {args args' : Arguments} {rest : List (List UInt8)}
    (run : parseOptions libc args rest = some args') :
    args'.srvid = args.srvid := by
  induction args, rest using parseOptions.induct libc with
  | case1 args =>
    cases run
    rfl
  | case2 args name set named =>
    unfold parseOptions at run
    simp [named] at run
  | case3 args name set value rest named ih =>
    unfold parseOptions at run
    simp only [named] at run
    obtain ⟨args'', changed, run⟩ := Option.bind_eq_some_iff.mp run
    rw [ih args'' run, namedOption_srvid named changed]
  | case4 args name rest named ih =>
    unfold parseOptions at run
    simp only [named] at run
    obtain ⟨ip, -, run⟩ := Option.bind_eq_some_iff.mp run
    exact ih ip run

/-- A hexadecimal id is validated exactly if its prefix bits are refused, or
it has at most 64 characters and all are digits; the conversion stays in its
source exactly if the destination ends before or no digit comes before, and
always in its destination. -/
theorem serviceParseArgs_validates_iff (libc : ToolLibc) (id : List UInt8) (src : Nat → UInt8)
    (srcLen dstLen : Nat) :
    ((∀ name rest args, serviceParseArgs libc (name :: (48 :: 120 :: id) :: rest) = some args →
          Hexadecimal (idPart id) ∧ args.srvid = paddedId (hexBytes (idPart id))) ↔
      BadPrefix libc id ∨ Hexadecimal (idPart id) ∧ (idPart id).length ≤ 64) ∧
    ((servalHexton src srcLen dstLen).reads ≤ srcLen ↔
      2 * dstLen < srcLen ∨ ∃ k < srcLen, hexDigit (src k) = none) ∧
    (servalHexton src srcLen dstLen).written.length ≤ dstLen := by
  refine ⟨⟨?_, ?_⟩, servalHexton_reads_iff src srcLen dstLen,
    servalHexton_written src srcLen dstLen⟩
  · intro valid
    refine or_iff_not_imp_left.mpr fun good => ?_
    obtain ⟨bits, parsed⟩ := parsePrefixBits_isSome.mpr good
    -- The rest of the line is accepted: a rule that drops packets.
    have accepted : serviceParseArgs libc [ascii "add", 48 :: 120 :: id, ascii "drop"] =
          some { op := .add, type := .drop,
                 srvid := paddedId (servalPton (idPart id)).written,
                 ip1 := none, ip2 := none, priority := 1, weight := 0,
                 prefixBits := bits, taasAuth := 0, ipN := none } := by
      rw [serviceParseArgs, parseServiceId_hex]
      show (parsePrefixBits libc (prefixPart id) >>= _) = _
      rw [parsed]
      rfl
    obtain ⟨digits, srvid⟩ := valid _ _ _ accepted
    refine ⟨digits, ?_⟩
    have fits : (servalPton (idPart id)).written.length ≤ 32 := servalHexton_written _ _ _
    have size := (paddedId_length fits).symm.trans (congrArg List.length srvid)
    rw [paddedId, List.length_append, hexBytes_length] at size
    omega
  · intro condition name rest args parsed
    cases rest with
    | nil => cases parsed
    | cons target rest =>
      rw [serviceParseArgs, parseServiceId_hex] at parsed
      obtain ⟨op, -, parsed⟩ := Option.bind_eq_some_iff.mp parsed
      obtain ⟨ids, converted, parsed⟩ := Option.bind_eq_some_iff.mp parsed
      cases converted
      obtain ⟨bits, number, parsed⟩ := Option.bind_eq_some_iff.mp parsed
      obtain ⟨type, -, parsed⟩ := Option.bind_eq_some_iff.mp parsed
      rcases condition with bad | ⟨digits, short⟩
      · exact absurd bad (parsePrefixBits_isSome.mp ⟨bits, number⟩)
      · rw [parseOptions_srvid parsed, servalPton, servalHexton_digits digits short short]
        exact ⟨digits, rfl⟩

/-- Something that is no hexadecimal number is a service id of zeros, and one
character of a source of one character is followed by those behind it. -/
theorem serviceParseArgs_takes_zz : (∃ args, serviceParseArgs ⟨fun s => (0, s), fun _ => none⟩
          [ascii "add", ascii "0xzz", ascii "drop"] = some args ∧
        ¬ Hexadecimal (idPart (ascii "zz")) ∧ args.srvid = List.replicate 32 0) ∧
    (servalHexton (charsAt (ascii "abcd")) 1 8).reads = 5 := by
  refine ⟨⟨_, rfl, ?_, rfl⟩, by decide +kernel⟩
  intro digits
  exact absurd (digits 122 (by decide)) (by decide)

end Serval
