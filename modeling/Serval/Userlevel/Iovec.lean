import Serval.Support.Bytes

/-!
# Copying from a vector of buffers

`memcpy_fromiovecend` of `platform.c` and the copy into a packet that rests on
it. Its loop treats what `memcpy` returns, the destination, like the number of
bytes that a copy from user space could not copy.
-/

namespace Serval.Userlevel

open Serval.Support

/-- The value returned is the destination, which is not null. -/
def memcpy (dest : List UInt8) (place : Nat) (src : List UInt8) :
    Except Fault (Bool × List UInt8) := do
  let dest ← writeBytes dest place src
  return (true, dest)

def EFAULT : Int := 14

/-- The first loop of `memcpy_fromiovecend`: the vector is read past its end
when the offset lies behind it. -/
def skipFinished : List (List UInt8) → Nat → Except Fault (List (List UInt8) × Nat)
  | [], _ => .error .bounds
  | iov :: rest, offset =>
    if offset ≥ iov.length then skipFinished rest (offset - iov.length)
    else return (iov :: rest, offset)

/-- The second loop. The lengths are compared as `unsigned int`. -/
def copyPieces : List (List UInt8) → Nat → Nat → List UInt8 → Nat → Except Fault (Int × List UInt8)
  | _, _, 0, kdata, _ => return (0, kdata)
  | [], _, _ + 1, _, _ => .error .bounds
  | iov :: rest, offset, len + 1, kdata, place => do
    let copy := min (len + 1) ((iov.length - offset) % 2 ^ 32)
    let base ← Support.readBytes iov offset copy
    let (status, kdata) ← memcpy kdata place base
    if status then
      return (-EFAULT, kdata)
    copyPieces rest 0 (len + 1 - copy) kdata (place + copy)

/-- The bytes are to go to `place` in `kdata`. -/
def memcpyFromiovecend (kdata : List UInt8) (place : Nat) (iov : List (List UInt8))
    (offset len : Nat) : Except Fault (Int × List UInt8) := do
  let (iov, offset) ← skipFinished iov offset
  copyPieces iov offset len kdata place

/-- `data` is the linear part of the packet. -/
def skbCopyDatagramFromIovec (data : List UInt8) (offset : Nat) (iov : List (List UInt8))
    (fromOffset len : Nat) : Except Fault (Int × List UInt8) := do
  let start : Int := data.length
  if start - offset > 0 then
    let copy := min (start - offset).toNat len
    let (status, data) ← memcpyFromiovecend data offset iov fromOffset copy
    if status ≠ 0 then
      return (-EFAULT, data)
    return (if len - copy = 0 then 0 else -EFAULT, data)
  return (if len = 0 then 0 else -EFAULT, data)

def Delivers (run : Except Fault (Int × List UInt8)) (place : Nat) (bytes : List UInt8) : Prop :=
  ∃ dest, run = .ok (0, dest) ∧ (dest.drop place).take bytes.length = bytes

private theorem skipFinished_spec : ∀ (iov : List (List UInt8)) {offset : Nat},
    offset < iov.flatten.length →
    ∃ piece rest index, skipFinished iov offset = .ok (piece :: rest, index) ∧ index < piece.length
  | [], offset, inside => by cases inside
  | piece :: rest, offset, inside => by
    rw [skipFinished]
    split_ifs with finished
    · apply skipFinished_spec rest
      rw [List.flatten_cons, List.length_append] at inside
      omega
    · exact ⟨piece, rest, offset, rfl, Nat.lt_of_not_le finished⟩

variable {kdata : List UInt8} {place : Nat} {iov : List (List UInt8)} {offset len : Nat}

private theorem memcpyFromiovecend_none (kdata : List UInt8) (place : Nat)
    (inside : offset < iov.flatten.length) :
    memcpyFromiovecend kdata place iov offset 0 = .ok (0, kdata) := by
  obtain ⟨piece, rest, index, run, -⟩ := skipFinished_spec iov inside
  rw [memcpyFromiovecend, run, ok_bind]
  rfl

/-- The first piece is copied, and reported as a fault. -/
theorem memcpyFromiovecend_faults (inside : offset < iov.flatten.length)
    (room : place + (len + 1) ≤ kdata.length) :
    ∃ kdata', memcpyFromiovecend kdata place iov offset (len + 1) = .ok (-EFAULT, kdata') := by
  obtain ⟨piece, rest, index, run, within⟩ := skipFinished_spec iov inside
  set copy := min (len + 1) ((piece.length - index) % 2 ^ 32) with isCopy
  have fits : index + copy ≤ piece.length := by omega
  have read := readBytes_of_le fits
  have size := length_of_readBytes read
  have write := writeBytes_of_le (show place + ((piece.drop index).take copy).length ≤
    kdata.length by omega)
  rw [memcpyFromiovecend, run, ok_bind]
  simp only [copyPieces, ← isCopy, read, ok_bind, memcpy, write]
  exact ⟨_, rfl⟩

/-- With an offset inside the vector and room in the destination, either copy
succeeds exactly when there is nothing to copy: any byte that `memcpy` has
copied makes the loop report a fault. -/
theorem memcpyFromiovecend_delivers_iff (inside : offset < iov.flatten.length)
    (room : place + len ≤ kdata.length) :
    (Delivers (memcpyFromiovecend kdata place iov offset len) place
        ((iov.flatten.drop offset).take len) ↔ len = 0) ∧
      (Delivers (skbCopyDatagramFromIovec kdata place iov offset len) place
        ((iov.flatten.drop offset).take len) ↔ len = 0) := by
  cases len with
  | zero =>
    have none := memcpyFromiovecend_none kdata place inside
    refine ⟨iff_of_true ⟨kdata, none, rfl⟩ rfl, iff_of_true ⟨kdata, ?_, rfl⟩ rfl⟩
    simp [skbCopyDatagramFromIovec, none]
  | succ len =>
    obtain ⟨kdata', run⟩ := memcpyFromiovecend_faults inside room
    have copy : min ((kdata.length : Int) - place).toNat (len + 1) = len + 1 := by omega
    have faults : skbCopyDatagramFromIovec kdata place iov offset (len + 1) =
        .ok (-EFAULT, kdata') := by
      simp only [skbCopyDatagramFromIovec, copy, run, ok_bind]
      rw [if_pos (by omega)]
      rfl
    constructor <;> refine iff_of_false ?_ (Nat.succ_ne_zero len)
    · rintro ⟨dest, ends, -⟩
      rw [run] at ends
      cases ends
    · rintro ⟨dest, ends, -⟩
      rw [faults] at ends
      cases ends

/-- Nothing is asked for, behind the first byte of the second piece. -/
theorem memcpyFromiovecend_delivers_nothing :
    Delivers (memcpyFromiovecend [0] 0 [[], [7, 8]] 1 0) 0 [] ∧
      Delivers (skbCopyDatagramFromIovec [0] 0 [[], [7, 8]] 1 0) 0 [] := by
  have both := memcpyFromiovecend_delivers_iff (show 1 < [[], [(7 : UInt8), 8]].flatten.length by
    decide) (show 0 + 0 ≤ [(0 : UInt8)].length by decide)
  exact ⟨both.1.mpr rfl, both.2.mpr rfl⟩

/-- One byte of a vector with one byte: it arrives, and the copy has failed. -/
theorem memcpyFromiovecend_one :
    memcpyFromiovecend [0] 0 [[7]] 0 1 = .ok (-EFAULT, [7]) ∧
      skbCopyDatagramFromIovec [0] 0 [[7]] 0 1 = .ok (-EFAULT, [7]) :=
  ⟨rfl, rfl⟩

end Serval.Userlevel
