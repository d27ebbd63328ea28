import Serval.Support.OnesSum

/-!
# The header checksum

`do_csum` sums a block in the widest words its address allows, so the words it
adds depend on where the block lies. The sum does not: it is the one's
complement sum of the bytes. A little-endian host is assumed.
-/

namespace Serval

open Serval.Support

/-- A load of `size` bytes at `buff`. -/
def loadWord (size : Nat) (buff : List UInt8) : UInt32 := UInt32.ofNat (leNat (buff.take size))

def foldWord (x : UInt32) : UInt32 := (x &&& (0xffff : UInt32)) + (x >>> 16)

def from32to16 (x : UInt32) : UInt32 := foldWord (foldWord x)

/-- The loop over 32-bit words, with the carry of the last addition. -/
def csumWords : Nat → List UInt8 → UInt32 → UInt32 → UInt32
  | 0, _, result, carry => result + carry
  | count + 1, buff, result, carry =>
    let w := loadWord 4 buff
    let result := result + carry
    let result := result + w
    let carry := if w > result then 1 else 0
    csumWords count (buff.drop 4) result carry

def csumByte (len : Nat) (buff : List UInt8) (result : UInt32) : UInt32 :=
  if len % 2 = 1 then result + loadWord 1 buff else result

def csumShort (len : Nat) (buff : List UInt8) (result : UInt32) : UInt32 :=
  if len / 2 % 2 = 1 then
    csumByte len (buff.drop 2) (result + loadWord 2 buff)
  else
    csumByte len buff result

def csumLongs (count len : Nat) (buff : List UInt8) (result : UInt32) :
    UInt32 :=
  if count = 0 then
    csumShort len buff result
  else
    csumShort len (buff.drop (4 * count))
      (foldWord (csumWords count buff result 0))

def csumEven (address len : Nat) (buff : List UInt8) (result : UInt32) :
    UInt32 :=
  let count := len / 2
  if count = 0 then
    csumByte len buff result
  else if address / 2 % 2 = 1 then
    csumLongs ((count - 1) / 2) (len - 2) (buff.drop 2)
      (result + loadWord 2 buff)
  else
    csumLongs (count / 2) len buff result

def swapBytes (x : UInt32) : UInt32 :=
  ((x >>> 8) &&& (0xff : UInt32)) ||| ((x &&& (0xff : UInt32)) <<< 8)

/-- The sum of the `len` bytes at `buff`, which lies at the address. -/
def doCsum (address : Nat) (buff : List UInt8) (len : Nat) : UInt32 :=
  if len = 0 then 0
  else if address % 2 = 1 then
    swapBytes
      (from32to16 (csumEven (address + 1) (len - 1) (buff.drop 1) (loadWord 1 buff <<< 8)))
  else
    from32to16 (csumEven address len buff 0)

/-- `ip_compute_csum` of the first `len` bytes of the packet. -/
def servalSalCsum (address : Nat) (packet : List UInt8) (len : Nat) :
    Except Fault UInt16 :=
  if len ≤ packet.length then
    .ok (~~~ (doCsum address packet len)).toUInt16
  else
    .error .bounds

def servalSalSendCheck (address : Nat) (packet : List UInt8) : Except Fault (List UInt8) := do
  let packet ← writeBytes packet 10 [0, 0]
  let shl ← readByte packet 8
  let check ← servalSalCsum address packet (4 * shl.toNat)
  writeBytes packet 10 (leBytes 2 check.toNat)

/-! ## What it computes -/

theorem toNat_add_of_lt {a b : UInt32} (room : a.toNat + b.toNat < 2 ^ 32) :
    (a + b).toNat = a.toNat + b.toNat := by
  rw [UInt32.toNat_add, Nat.mod_eq_of_lt room]

theorem toNat_loadWord {size : Nat} (word : size ≤ 4) (buff : List UInt8) :
    (loadWord size buff).toNat = leNat (buff.take size) := by
  have small := leNat_lt (buff.take size)
  have short : (buff.take size).length ≤ 4 := (List.length_take_le size buff).trans word
  have bound : 256 ^ (buff.take size).length ≤ 256 ^ 4 := Nat.pow_le_pow_right (by decide) short
  exact UInt32.toNat_ofNat_of_lt' (by
    show _ < 2 ^ 32
    omega)

theorem leNat_take_lt (size : Nat) (buff : List UInt8) : leNat (buff.take size) < 256 ^ size :=
  (leNat_lt _).trans_le
    (Nat.pow_le_pow_right (by decide) (List.length_take_le size buff))

theorem toNat_foldWord (x : UInt32) : (foldWord x).toNat = x.toNat % 65536 + x.toNat / 65536 := by
  have small := x.toNat_lt
  have low : (x &&& (0xffff : UInt32)).toNat = x.toNat % 65536 := by
    exact Nat.and_two_pow_sub_one_eq_mod _ 16
  have high : (x >>> 16).toNat = x.toNat / 65536 := by
    exact Nat.shiftRight_eq_div_pow _ 16
  rw [foldWord, UInt32.toNat_add]
  omega

theorem from32to16_spec (x : UInt32) :
    (from32to16 x).toNat ≤ 65535 ∧ SameSum x.toNat (from32to16 x).toNat := by
  have once := SameSum.fold x.toNat
  have twice := SameSum.fold (foldWord x).toNat
  have small := x.toNat_lt
  rw [← toNat_foldWord] at once twice
  refine ⟨?_, once.trans twice⟩
  rw [from32to16, toNat_foldWord, toNat_foldWord]
  omega

theorem csumWords_sum {count : Nat} {buff : List UInt8} {result carry : UInt32}
    (inside : 4 * count ≤ buff.length)
    (room : result.toNat + carry.toNat < 2 ^ 32) :
    SameSum (result.toNat + carry.toNat + leNat (buff.take (4 * count)))
      (csumWords count buff result carry).toNat := by
  induction count generalizing buff result carry with
  | zero =>
    rw [List.take_zero, leNat_nil, Nat.add_zero, csumWords, toNat_add_of_lt room]
  | succ count ih =>
    have step := SameSum.endAround (result + carry) (loadWord 4 buff)
    have rest := @ih (buff.drop 4) _ _ (by rw [List.length_drop]; omega) step.2
    have split := @sameSum_leNat_take buff 2 (by omega) (4 * count)
    rw [toNat_add_of_lt room, toNat_loadWord (le_refl 4)] at step
    calc
      SameSum
          (result.toNat + carry.toNat + leNat (buff.take (4 * (count + 1))))
          (result.toNat + carry.toNat + (leNat (buff.take 4) +
              leNat ((buff.drop 4).take (4 * count)))) := by
        rw [Nat.mul_succ, Nat.add_comm (4 * count) 4]
        exact split.add_left _
      SameSum _ _ := by
        rw [← Nat.add_assoc]
        exact (step.1.add (SameSum.refl _)).trans rest

variable {len : Nat}

theorem csumByte_sum (buff : List UInt8) {result : UInt32} (small : result.toNat < 2 ^ 20) :
    (csumByte len buff result).toNat = result.toNat + leNat (buff.take (len % 2)) := by
  have bound := leNat_take_lt 1 buff
  rcases Nat.mod_two_eq_zero_or_one len with even | odd
  · rw [csumByte, even, if_neg (by decide), List.take_zero, leNat_nil, Nat.add_zero]
  · have load := toNat_loadWord (show 1 ≤ 4 by decide) buff
    rw [csumByte, odd, if_pos rfl, toNat_add_of_lt (by omega), load]

theorem csumShort_sum {len : Nat} {buff : List UInt8} {result : UInt32}
    (inside : len % 4 ≤ buff.length) (small : result.toNat < 2 ^ 19) :
    SameSum (result.toNat + leNat (buff.take (len % 4)))
      (csumShort len buff result).toNat := by
  have bound := leNat_take_lt 2 buff
  by_cases word : len / 2 % 2 = 1
  · have load := toNat_loadWord (show 2 ≤ 4 by decide) buff
    have sum : (result + loadWord 2 buff).toNat = result.toNat + leNat (buff.take 2) := by
      rw [toNat_add_of_lt (by omega), load]
    have bytes : len % 4 = 2 * 1 + len % 2 := by omega
    have split := @sameSum_leNat_take buff 1 (by omega) (len % 2)
    rw [csumShort, if_pos word, csumByte_sum _ (by omega), sum, bytes, Nat.add_assoc]
    exact split.add_left _
  · have bytes : len % 4 = len % 2 := by omega
    rw [csumShort, if_neg word, csumByte_sum _ (by omega), bytes]

theorem csumLongs_sum {len : Nat} {buff : List UInt8} {result : UInt32}
    (inside : len ≤ buff.length) (small : result.toNat < 2 ^ 19) :
    SameSum (result.toNat + leNat (buff.take len))
      (csumLongs (len / 4) len buff result).toNat := by
  by_cases none : len / 4 = 0
  · have bytes : len = len % 4 := by omega
    rw [csumLongs, if_pos none]
    nth_rewrite 1 [bytes]
    exact csumShort_sum (by omega) small
  have words : 4 * (len / 4) ≤ buff.length := by omega
  have loop := @csumWords_sum _ _ result 0 words (by rw [UInt32.toNat_zero]; omega)
  have folded := SameSum.fold (csumWords (len / 4) buff result 0).toNat
  have below := (csumWords (len / 4) buff result 0).toNat_lt
  rw [← toNat_foldWord] at folded
  have rest := @csumShort_sum len (buff.drop (4 * (len / 4)))
    (foldWord (csumWords (len / 4) buff result 0))
    (by rw [List.length_drop]; omega)
    (by rw [toNat_foldWord]; omega)
  have split := @sameSum_leNat_take buff (2 * (len / 4)) (by omega) (len % 4)
  have whole : 2 * (2 * (len / 4)) = 4 * (len / 4) := by omega
  rw [whole, Nat.div_add_mod] at split
  calc
    SameSum (result.toNat + leNat (buff.take len))
        (result.toNat + leNat (buff.take (4 * (len / 4))) +
          leNat ((buff.drop (4 * (len / 4))).take (len % 4))) := by
      rw [Nat.add_assoc]
      exact split.add_left _
    SameSum _
        ((foldWord (csumWords (len / 4) buff result 0)).toNat +
          leNat ((buff.drop (4 * (len / 4))).take (len % 4))) :=
      (loop.trans folded).add (SameSum.refl _)
    SameSum _ (csumLongs (len / 4) len buff result).toNat := by
      rw [csumLongs, if_neg none]
      exact rest

theorem csumEven_sum (address : Nat) {len : Nat} {buff : List UInt8} {result : UInt32}
    (inside : len ≤ buff.length) (small : result.toNat < 2 ^ 17) :
    SameSum (result.toNat + leNat (buff.take len))
      (csumEven address len buff result).toNat := by
  rw [csumEven]
  by_cases few : len / 2 = 0
  · have bytes : len % 2 = len := by omega
    rw [if_pos few, csumByte_sum _ (by omega), bytes]
  rw [if_neg few]
  by_cases half : address / 2 % 2 = 1
  · have bound := leNat_take_lt 2 buff
    have load := toNat_loadWord (show 2 ≤ 4 by decide) buff
    have sum : (result + loadWord 2 buff).toNat = result.toNat + leNat (buff.take 2) := by
      rw [toNat_add_of_lt (by omega), load]
    have count : (len / 2 - 1) / 2 = (len - 2) / 4 := by omega
    have rest := @csumLongs_sum (len - 2) (buff.drop 2)
      (result + loadWord 2 buff) (by rw [List.length_drop]; omega)
      (by omega)
    have split := @sameSum_leNat_take buff 1 (by omega) (len - 2)
    have whole : 2 * 1 + (len - 2) = len := by omega
    rw [whole] at split
    rw [sum, Nat.add_assoc] at rest
    rw [if_pos half, count]
    exact (split.add_left _).trans rest
  · have count : len / 2 / 2 = len / 4 := by omega
    rw [if_neg half, count]
    exact csumLongs_sum inside (by omega)

variable {x : UInt32}

theorem toNat_swapBytes (word : x.toNat ≤ 65535) :
    (swapBytes x).toNat = 256 * (x.toNat % 256) + x.toNat / 256 := by
  have high : (x >>> 8 &&& (0xff : UInt32)).toNat = x.toNat / 256 := by
    show x.toNat >>> 8 &&& 2 ^ 8 - 1 = _
    rw [Nat.and_two_pow_sub_one_eq_mod]
    omega
  have low : ((x &&& (0xff : UInt32)) <<< 8).toNat = 2 ^ 8 * (x.toNat % 256) := by
    show (x.toNat &&& 2 ^ 8 - 1) <<< 8 % 2 ^ 32 = _
    rw [Nat.and_two_pow_sub_one_eq_mod]
    omega
  rw [swapBytes, UInt32.toNat_or, high, low, Nat.or_comm,
    ← Nat.two_pow_add_eq_or_of_lt (show x.toNat / 256 < 2 ^ 8 by omega)]

theorem swapBytes_sum (word : x.toNat ≤ 65535) : SameSum (256 * x.toNat) (swapBytes x).toNat := by
  rw [toNat_swapBytes word]
  constructor <;> omega

theorem doCsum_sum (address : Nat) {buff : List UInt8} (inside : len ≤ buff.length) :
    (doCsum address buff len).toNat ≤ 65535 ∧
      SameSum (leNat (buff.take len)) (doCsum address buff len).toNat := by
  rw [doCsum]
  by_cases empty : len = 0
  · rw [if_pos empty, empty]
    exact ⟨by decide, SameSum.refl 0⟩
  rw [if_neg empty]
  by_cases odd : address % 2 = 1
  · have byte := leNat_take_lt 1 buff
    have first : (loadWord 1 buff <<< 8).toNat = 256 * leNat (buff.take 1) := by
      rw [UInt32.toNat_shiftLeft, toNat_loadWord (by decide)]
      show leNat (buff.take 1) <<< 8 % 2 ^ 32 = _
      omega
    have even := @csumEven_sum (address + 1) (len - 1) (buff.drop 1)
      (loadWord 1 buff <<< 8) (by rw [List.length_drop]; omega)
      (by omega)
    have word := from32to16_spec (csumEven (address + 1) (len - 1) (buff.drop 1)
        (loadWord 1 buff <<< 8))
    have whole : leNat (buff.take len) = leNat (buff.take 1) +
          256 * leNat ((buff.drop 1).take (len - 1)) := by
      have bytes : len = 1 + (len - 1) := by omega
      nth_rewrite 1 [bytes]
      rw [List.take_add, leNat_append, List.length_take_of_le (by omega), Nat.pow_one]
    have turned : SameSum (leNat (buff.take len)) (256 * (256 * leNat (buff.take 1) +
            leNat ((buff.drop 1).take (len - 1)))) := by
      constructor <;> omega
    rw [first] at even
    rw [if_pos odd]
    refine ⟨?_, ?_⟩
    · rw [toNat_swapBytes word.1]
      omega
    · exact turned.trans (((even.trans word.2).mul_left 256).trans (swapBytes_sum word.1))
  · have even := @csumEven_sum address _ _ 0 inside (by decide)
    have word := from32to16_spec (csumEven address len buff 0)
    rw [UInt32.toNat_zero, Nat.zero_add] at even
    rw [if_neg odd]
    exact ⟨word.1, even.trans word.2⟩

theorem toNat_not_toUInt16 (word : x.toNat ≤ 65535) : (~~~ x).toUInt16.toNat = 65535 - x.toNat := by
  have small : x.toUInt16.toNat = x.toNat := by
    rw [UInt32.toNat_toUInt16]
    omega
  rw [UInt32.toUInt16_not, UInt16.toNat_not, small]
  rfl

theorem header_sum {head check : List UInt8} (rest : List UInt8)
    (headSize : head.length = 10) (checkSize : check.length = 2)
    (base : 12 ≤ len) :
    SameSum (leNat ((head ++ (check ++ rest)).take len))
      (leNat check + (leNat head + leNat (rest.take (len - 12)))) := by
  have cut : (head ++ (check ++ rest)).take len = head ++ (check ++ rest.take (len - 12)) := by
    rw [List.take_append, List.take_append, headSize, checkSize, List.take_of_length_le (by omega),
      List.take_of_length_le (by omega),
      Nat.sub_sub]
  have first := @sameSum_leNat_append head 5 headSize (check ++ rest.take (len - 12))
  have second := @sameSum_leNat_append check 1 checkSize (rest.take (len - 12))
  rw [cut, Nat.add_left_comm]
  exact first.trans (second.add_left _)

/-- A check that is the complement of the other words' sum makes the header
sum up to all ones, and the code's answer zero. -/
theorem servalSalCsum_zero {head check rest : List UInt8} {sum : Nat}
    (headSize : head.length = 10) (checkSize : check.length = 2)
    (base : 12 ≤ len) (inside : len ≤ rest.length + 12)
    (others : SameSum (leNat head + leNat (rest.take (len - 12))) sum)
    (word : sum ≤ 65535) (complement : leNat check = 65535 - sum)
    (address : Nat) :
    servalSalCsum address (head ++ (check ++ rest)) len = .ok 0 := by
  have fits : len ≤ (head ++ (check ++ rest)).length := by
    simp only [List.length_append]
    omega
  obtain ⟨word', computed⟩ := doCsum_sum address fits
  have whole := header_sum rest headSize checkSize base
  rw [complement] at whole
  have ones : SameSum (doCsum address (head ++ (check ++ rest)) len).toNat 65535 :=
    calc
      SameSum (doCsum address (head ++ (check ++ rest)) len).toNat
          (65535 - sum + (leNat head + leNat (rest.take (len - 12)))) :=
        computed.symm.trans whole
      SameSum _ (65535 - sum + sum) := others.add_left _
      _ = 65535 := by omega
  have value := toNat_not_toUInt16 word'
  rw [ones.eq_of_le word' le_rfl] at value
  rw [servalSalCsum, if_pos fits]
  exact congrArg Except.ok (UInt16.toNat_inj.mp value)

/-- The sender writes the check, and nothing else; then the sum over the
header comes out as zero, wherever the receiver's copy lies. -/
theorem servalSalSendCheck_spec (sender : Nat) {head check rest : List UInt8}
    (headSize : head.length = 10) (checkSize : check.length = 2)
    (base : 12 ≤ 4 * (head.getD 8 0).toNat)
    (inside : 4 * (head.getD 8 0).toNat ≤ rest.length + 12) :
    ∃ sum : List UInt8, sum.length = 2 ∧
      servalSalSendCheck sender (head ++ (check ++ rest)) = .ok (head ++ (sum ++ rest)) ∧
      ∀ receiver, servalSalCsum receiver (head ++ (sum ++ rest))
          (4 * (head.getD 8 0).toNat) = .ok 0 := by
  have fits : 4 * (head.getD 8 0).toNat ≤ (head ++ ([0, 0] ++ rest)).length := by
    simp only [List.length_append, List.length_cons, List.length_nil]
    omega
  have shl : readByte (head ++ ([0, 0] ++ rest)) (0 + 8) = .ok (head.getD 8 0) := by
    apply readByte_within (List.drop_zero ..) 8
    rw [List.getD_eq_getElem?_getD, List.getElem?_eq_getElem (by omega)]
    rfl
  obtain ⟨word, summed⟩ := doCsum_sum sender fits
  have others := (header_sum rest headSize (show [0, 0].length = 2 from rfl) base).symm
  rw [show leNat [0, 0] = 0 from rfl, Nat.zero_add] at others
  have complement := toNat_not_toUInt16 word
  refine ⟨leBytes 2 (65535 - (doCsum sender (head ++ ([0, 0] ++ rest))
      (4 * (head.getD 8 0).toNat)).toNat), length_leBytes _ _, ?_, ?_⟩
  · rw [servalSalSendCheck, writeBytes_between headSize checkSize, ok_bind, shl, ok_bind,
      servalSalCsum, if_pos fits, ok_bind, complement,
      writeBytes_between headSize (by rw [length_leBytes]; rfl)]
  · apply servalSalCsum_zero headSize (length_leBytes _ _) base inside (others.trans summed) word
    rw [leNat_leBytes, Nat.mod_eq_of_lt (by omega)]

end Serval
