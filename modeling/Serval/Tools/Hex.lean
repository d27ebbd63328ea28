import Serval.Support.Bytes
import Serval.Tools.ServiceArgs

/-!
# Hexadecimal text

`serval_ntohex` writes a row of bytes as digits into a buffer that may end in
the middle of a byte; `serval_hexton` reads them back.
-/

namespace Serval

open Serval.Support

def hex : List UInt8 := ascii "0123456789abcdef"

/-- The loop of `serval_ntohex`. The pointer into the source moves only when
both digits of a byte are written. -/
def ntohexLoop (src : List UInt8) :
    Nat → Nat → List UInt8 → Nat → Nat → Except Fault (List UInt8 × Nat × Nat)
  | 0, _, dst, dstPtr, dstLen => .ok (dst, dstPtr, dstLen)
  | srcLen + 1, srcPtr, dst, dstPtr, dstLen =>
    if dstLen > 1 then do
      let byte ← readByte src srcPtr
      let digit ← readByte hex (byte >>> 4).toNat
      let dst ← writeBytes dst dstPtr [digit]
      if dstLen - 1 > 1 then do
        let digit ← readByte hex (byte &&& 0xf).toNat
        let dst ← writeBytes dst (dstPtr + 1) [digit]
        ntohexLoop src srcLen (srcPtr + 1) dst (dstPtr + 2) (dstLen - 2)
      else
        ntohexLoop src srcLen srcPtr dst (dstPtr + 1) (dstLen - 1)
    else
      .ok (dst, dstPtr, dstLen)

def servalNtohex (src : List UInt8) (srcLen : Nat) (dst : List UInt8) (dstLen : Nat) :
    Except Fault (List UInt8) := do
  let (dst, dstPtr, dstLen) ← ntohexLoop src srcLen 0 dst 0 dstLen
  if dstLen ≠ 0 then writeBytes dst dstPtr [0] else .ok dst

def upperDigit (byte : UInt8) : UInt8 := hex.getD (byte >>> 4).toNat 0

def lowerDigit (byte : UInt8) : UInt8 := hex.getD (byte &&& 0xf).toNat 0

def hexText (bytes : List UInt8) : List UInt8 :=
  bytes.flatMap fun byte => [upperDigit byte, lowerDigit byte]

theorem length_hexText (bytes : List UInt8) : (hexText bytes).length = 2 * bytes.length := by
  simp [hexText, Nat.mul_comm]

theorem readByte_hex (byte : UInt8) : readByte hex (byte >>> 4).toNat = .ok (upperDigit byte) ∧
      readByte hex (byte &&& 0xf).toNat = .ok (lowerDigit byte) := by
  have all : ∀ n : Fin 256, readByte hex (UInt8.ofFin n >>> 4).toNat = .ok (upperDigit (.ofFin n)) ∧
      readByte hex (UInt8.ofFin n &&& 0xf).toNat = .ok (lowerDigit (.ofFin n)) := by
    decide +kernel
  exact all byte.toFin

private theorem hextobyte_digits (byte : UInt8) :
    (upperDigit byte ≠ 0 ∧ hextobyte (upperDigit byte) = some (byte >>> 4)) ∧
      (lowerDigit byte ≠ 0 ∧ hextobyte (lowerDigit byte) = some (byte &&& 0xf)) ∧
      (byte >>> 4) * 16 + (byte &&& 0xf) = byte := by
  have all : ∀ n : Fin 256,
      (upperDigit (.ofFin n) ≠ 0 ∧ hextobyte (upperDigit (.ofFin n)) = some (UInt8.ofFin n >>> 4)) ∧
        (lowerDigit (.ofFin n) ≠ 0 ∧ hextobyte (lowerDigit (.ofFin n)) = some (UInt8.ofFin n &&& 0xf)) ∧
        (UInt8.ofFin n >>> 4) * 16 + (.ofFin n &&& 0xf) = .ofFin n := by
    decide +kernel
  exact all byte.toFin

theorem writeBytes_next (done : List UInt8) (old : UInt8) (rest : List UInt8) (new : UInt8) :
    writeBytes (done ++ old :: rest) done.length [new] = .ok (done ++ new :: rest) :=
  @writeBytes_between done [old] [new] rest _ rfl rfl

theorem ntohexLoop_full (src : List UInt8) (srcLen srcPtr : Nat) (dst : List UInt8) (dstPtr : Nat) :
    ntohexLoop src srcLen srcPtr dst dstPtr 1 = .ok (dst, dstPtr, 1) := by
  cases srcLen <;> rfl

/-- What is behind `done` is filled with digits, but for its last byte. -/
theorem ntohexLoop_spec {src : List UInt8} (bytes : List UInt8) {srcPtr : Nat}
    (here : src.drop srcPtr = bytes) (done rest : List UInt8) (room : rest ≠ []) :
    ∃ digits, digits = (hexText bytes).take (rest.length - 1) ∧
      ntohexLoop src bytes.length srcPtr (done ++ rest) done.length rest.length =
        .ok (done ++ (digits ++ rest.drop digits.length), done.length + digits.length,
          rest.length - digits.length) := by
  induction bytes generalizing srcPtr done rest with
  | nil => exact ⟨[], by simp [hexText], rfl⟩
  | cons byte bytes ih =>
    have read : readByte src srcPtr = .ok byte :=
      @readByte_within src (byte :: bytes) [] srcPtr (by simp [here]) 0 _ rfl
    have behind : src.drop (srcPtr + 1) = bytes := by
      rw [← List.drop_drop, here, List.drop_one, List.tail_cons]
    match rest with
    | [last] => exact ⟨[], rfl, ntohexLoop_full ..⟩
    | [first, last] =>
      refine ⟨[upperDigit byte], rfl, ?_⟩
      simp only [List.length_cons, List.length_nil, ntohexLoop, read, ok_bind,
        (readByte_hex byte).1, writeBytes_next]
      exact ntohexLoop_full ..
    | first :: second :: third :: rest =>
      obtain ⟨digits, same, run⟩ := ih behind (done ++ [upperDigit byte, lowerDigit byte])
          (third :: rest) (by simp)
      refine ⟨upperDigit byte :: lowerDigit byte :: digits, ?_, ?_⟩
      · rw [same]
        rfl
      · have second' := writeBytes_next (done ++ [upperDigit byte]) second
          (third :: rest) (lowerDigit byte)
        simp only [List.append_assoc, List.cons_append, List.nil_append, List.length_append,
          List.length_cons, List.length_nil] at second' run
        have more : rest.length + 1 + 1 + 1 - 2 = rest.length + 1 := by omega
        simp only [List.length_cons, ntohexLoop, read, ok_bind, (readByte_hex byte).1,
          (readByte_hex byte).2, writeBytes_next, second', more]
        rw [if_pos (by omega), if_pos (by omega), run]
        simp only [List.drop_succ_cons, List.cons_append, Except.ok.injEq, Prod.mk.injEq, true_and]
        omega

private theorem servalHexton_hexText (bytes rest : List UInt8) :
    servalHexton (charsAt (hexText bytes ++ rest)) (2 * bytes.length) bytes.length =
      ⟨1, bytes, 2 * bytes.length + 1⟩ := by
  induction bytes with
  | nil => rfl
  | cons byte bytes ih =>
    obtain ⟨⟨upper, high⟩, ⟨lower, low⟩, whole⟩ := hextobyte_digits byte
    have first : charsAt (hexText (byte :: bytes) ++ rest) 0 = upperDigit byte := rfl
    have second : charsAt (hexText (byte :: bytes) ++ rest) 1 = lowerDigit byte := rfl
    have behind : (fun k => charsAt (hexText (byte :: bytes) ++ rest) (k + 2)) =
        charsAt (hexText bytes ++ rest) := rfl
    rw [List.length_cons, servalHexton, first, second, behind, high, low, if_neg (by simp [upper])]
    dsimp only
    rw [if_neg lower, if_neg (by omega), whole, Nat.mul_add, Nat.add_sub_cancel, ih]
    simp only [Hexton.push, Hexton.mk.injEq, true_and]
    omega

/-- A buffer of any size gets as many digits as there is room for and a null
byte behind them; with room for all of them the text reads back. -/
theorem servalNtohex_servalHexton (x dst : List UInt8) (room : dst ≠ []) :
    ∃ dst', servalNtohex x x.length dst dst.length = .ok dst' ∧ dst'.length = dst.length ∧
      (∃ tail, dst' = (hexText x).take (min (2 * x.length) (dst.length - 1)) ++ 0 :: tail) ∧
      (2 * x.length < dst.length → servalHexton (charsAt dst') (2 * x.length) x.length =
        ⟨1, x, 2 * x.length + 1⟩) := by
  obtain ⟨digits, same, run⟩ := @ntohexLoop_spec x x 0 rfl [] dst room
  have positive := List.length_pos_iff.mpr room
  have count : digits.length = min (2 * x.length) (dst.length - 1) := by
    rw [same, List.length_take, length_hexText, Nat.min_comm]
  have sized : (hexText x).take (min (2 * x.length) (dst.length - 1)) = digits := by
    rw [same, List.take_eq_take_iff, length_hexText]
    omega
  obtain ⟨old, tail, behind⟩ : ∃ old tail, dst.drop digits.length = old :: tail :=
    List.exists_cons_of_ne_nil (by rw [ne_eq, List.drop_eq_nil_iff]; omega)
  have text : servalNtohex x x.length dst dst.length = .ok (digits ++ 0 :: tail) := by
    simp only [List.nil_append, List.length_nil, Nat.zero_add] at run
    rw [servalNtohex, run, ok_bind]
    dsimp only
    rw [if_pos (by omega), behind, writeBytes_next]
  refine ⟨_, text, ?_, ⟨tail, by rw [sized]⟩, ?_⟩
  · have length := congrArg List.length behind
    rw [List.length_drop, List.length_cons] at length
    rw [List.length_append, List.length_cons]
    omega
  · intro fits
    have whole : digits = hexText x := by
      rw [same, List.take_of_length_le]
      rw [length_hexText]
      omega
    rw [whole]
    exact servalHexton_hexText x (0 :: tail)

/-- A buffer that ends in the middle of the second byte. -/
theorem servalNtohex_half : ∃ dst' tail, servalNtohex [0x1f, 0xa0] 2 [9, 9, 9, 9] 4 = .ok dst' ∧
      dst' = ascii "1fa" ++ 0 :: tail := by
  obtain ⟨dst', run, -, ⟨tail, text⟩, -⟩ :=
    servalNtohex_servalHexton [0x1f, 0xa0] [9, 9, 9, 9] (by decide)
  exact ⟨dst', tail, run, text⟩

end Serval
