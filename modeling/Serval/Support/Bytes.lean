import Mathlib.Data.Nat.Digits.Lemmas
import Serval.Support.Heap

/-!
# Bytes of a buffer

Reading a buffer at an offset, and the numbers that a run of bytes spells: the
lowest byte first, or in network order the highest byte first.
-/

namespace Serval.Support

def readByte (buffer : List UInt8) (offset : Nat) : Except Fault UInt8 :=
  match buffer[offset]? with
  | some byte => .ok byte
  | none => .error .bounds

def readBytes (buffer : List UInt8) (offset count : Nat) : Except Fault (List UInt8) :=
  if offset + count ≤ buffer.length then
    .ok ((buffer.drop offset).take count)
  else
    .error .bounds

def writeBytes (buffer : List UInt8) (offset : Nat) (bytes : List UInt8) :
    Except Fault (List UInt8) :=
  if offset + bytes.length ≤ buffer.length then
    .ok (buffer.take offset ++ (bytes ++ buffer.drop (offset + bytes.length)))
  else
    .error .bounds

variable {buffer : List UInt8} {offset count : Nat} {bytes : List UInt8}

theorem readByte_of_lt (inside : offset < buffer.length) :
    ∃ byte, readByte buffer offset = .ok byte := by
  refine ⟨buffer[offset], ?_⟩
  simp only [readByte, List.getElem?_eq_getElem inside]

theorem drop_of_readByte {byte : UInt8} (read : readByte buffer offset = .ok byte) :
    buffer.drop offset = byte :: buffer.drop (offset + 1) := by
  rw [List.drop_eq_getElem?_toList_append]
  cases found : buffer[offset]? with
  | none => simp [readByte, found] at read
  | some other =>
    simp only [readByte, found, Except.ok.injEq] at read
    rw [read]
    rfl

/-- The bytes of a piece of the buffer are read by their place in it. -/
theorem readByte_within {buffer piece rest : List UInt8} {offset : Nat}
    (placed : buffer.drop offset = piece ++ rest) (index : Nat) {byte : UInt8}
    (here : piece[index]? = some byte) :
    readByte buffer (offset + index) = .ok byte := by
  have inside := (List.getElem?_eq_some_iff.mp here).1
  have found : buffer[offset + index]? = some byte := by
    rw [← List.getElem?_drop, placed, List.getElem?_append_left inside, here]
  simp only [readByte, found]

theorem readBytes_of_le {buffer : List UInt8} {offset count : Nat}
    (inside : offset + count ≤ buffer.length) :
    readBytes buffer offset count = .ok ((buffer.drop offset).take count) :=
  if_pos inside

theorem length_of_readBytes (read : readBytes buffer offset count = .ok bytes) :
    bytes.length = count := by
  rw [readBytes] at read
  split_ifs at read with inside
  cases read
  rw [List.length_take, List.length_drop]
  omega

theorem readBytes_within {piece rest : List UInt8}
    (placed : buffer.drop offset = piece ++ rest) (index : Nat)
    (positive : 0 < count) (inside : index + count ≤ piece.length) :
    readBytes buffer (offset + index) count = .ok ((piece.drop index).take count) := by
  have lengths := congrArg List.length placed
  rw [List.length_drop, List.length_append] at lengths
  rw [readBytes_of_le (by omega), ← List.drop_drop, placed,
    List.drop_append_of_le_length (by omega),
    List.take_append_of_le_length (by rw [List.length_drop]; omega)]

theorem writeBytes_between {before old new after : List UInt8} {offset : Nat}
    (start : before.length = offset) (size : old.length = new.length) :
    writeBytes (before ++ (old ++ after)) offset new = .ok (before ++ (new ++ after)) := by
  have inside : offset + new.length ≤ (before ++ (old ++ after)).length := by
    simp only [List.length_append]
    omega
  rw [writeBytes, if_pos inside, List.take_left' start, ← List.drop_drop, List.drop_left' start,
    List.drop_left' size]

section

variable {buffer bytes written : List UInt8} {offset : Nat}

theorem writeBytes_of_le (inside : offset + bytes.length ≤ buffer.length) :
    writeBytes buffer offset bytes = .ok (buffer.take offset ++
        (bytes ++ buffer.drop (offset + bytes.length))) :=
  if_pos inside

theorem inside_of_writeBytes (write : writeBytes buffer offset bytes = .ok written) :
    offset + bytes.length ≤ buffer.length := by
  rw [writeBytes] at write
  split_ifs at write with inside
  exact inside

theorem length_of_writeBytes (write : writeBytes buffer offset bytes = .ok written) :
    written.length = buffer.length := by
  have inside := inside_of_writeBytes write
  rw [writeBytes_of_le inside] at write
  cases write
  simp only [List.length_append, List.length_take, List.length_drop]
  omega

theorem take_of_writeBytes (write : writeBytes buffer offset bytes = .ok written) :
    written.take (offset + bytes.length) = buffer.take offset ++ bytes := by
  have inside := inside_of_writeBytes write
  rw [writeBytes_of_le inside] at write
  cases write
  rw [← List.append_assoc, List.take_left']
  rw [List.length_append, List.length_take]
  omega

theorem drop_of_writeBytes (write : writeBytes buffer offset bytes = .ok written) {place : Nat}
    (behind : offset + bytes.length ≤ place) :
    written.drop place = buffer.drop place := by
  have inside := inside_of_writeBytes write
  rw [writeBytes_of_le inside] at write
  cases write
  obtain ⟨more, rfl⟩ := Nat.exists_eq_add_of_le behind
  have front : (buffer.take offset ++ bytes).length = offset + bytes.length := by
    rw [List.length_append, List.length_take]
    omega
  rw [← List.append_assoc, ← List.drop_drop, List.drop_left' front, List.drop_drop]

end

/-! ## Behind other bytes

An access at an offset into the second part of a buffer is one into that
part. -/

section

variable {buffer : List UInt8} {offset : Nat}

variable (front : List UInt8)

theorem readByte_behind {byte : UInt8} (read : readByte buffer offset = .ok byte) :
    readByte (front ++ buffer) (front.length + offset) = .ok byte := by
  rw [readByte] at read ⊢
  rw [List.getElem?_append_right (Nat.le_add_right ..), Nat.add_sub_cancel_left]
  exact read

theorem writeBytes_behind {bytes written : List UInt8}
    (write : writeBytes buffer offset bytes = .ok written) :
    writeBytes (front ++ buffer) (front.length + offset) bytes = .ok (front ++ written) := by
  rw [writeBytes] at write ⊢
  split_ifs at write with inside
  cases write
  rw [if_pos (by rw [List.length_append]; omega), List.take_length_add_append, Nat.add_assoc,
    ← List.drop_drop,
    List.drop_left, List.append_assoc]

end

theorem writeBytes_piece {front piece rest bytes written : List UInt8} {index : Nat}
    (write : writeBytes (front ++ (piece ++ rest)) (front.length + index) bytes = .ok written)
    (inside : index + bytes.length ≤ piece.length) :
    ∃ piece', piece'.length = piece.length ∧ written = front ++ (piece' ++ rest) := by
  have parts : piece = piece.take index ++ ((piece.drop index).take bytes.length ++
            piece.drop (index + bytes.length)) := by
    rw [← List.drop_drop, List.take_append_drop, List.take_append_drop]
  have between := writeBytes_behind front (@writeBytes_between (piece.take index)
        ((piece.drop index).take bytes.length) bytes
        (piece.drop (index + bytes.length) ++ rest) index
        (by rw [List.length_take]; omega)
        (by rw [List.length_take, List.length_drop]; omega))
  rw [parts] at write
  simp only [List.append_assoc] at write
  rw [between] at write
  cases write
  refine ⟨piece.take index ++ (bytes ++ piece.drop (index + bytes.length)), ?_, ?_⟩
  · simp only [List.length_append, List.length_take, List.length_drop]
    omega
  · simp only [List.append_assoc]

theorem writeBytes_beyond {front rest written : List UInt8} {index : Nat}
    (write : writeBytes (front ++ rest) (front.length + index) bytes = .ok written) :
    ∃ rest', rest'.length = rest.length ∧ written = front ++ rest' := by
  have inside : index + bytes.length ≤ rest.length := by
    rw [writeBytes] at write
    split_ifs at write with fits
    rw [List.length_append] at fits
    omega
  rw [← List.append_nil rest] at write
  obtain ⟨rest', length, same⟩ := writeBytes_piece write inside
  rw [List.append_nil] at same
  exact ⟨rest', length, same⟩

theorem readByte_ahead {byte : UInt8}
    (read : readByte buffer offset = .ok byte) (rest : List UInt8) :
    readByte (buffer ++ rest) offset = .ok byte := by
  cases found : buffer[offset]? with
  | none => simp [readByte, found] at read
  | some other =>
    rw [readByte, List.getElem?_append_left (List.getElem?_eq_some_iff.mp found).1]
    exact read

theorem readBytes_ahead (read : readBytes buffer offset count = .ok bytes) (rest : List UInt8) :
    readBytes (buffer ++ rest) offset count = .ok bytes := by
  rw [readBytes] at read ⊢
  split_ifs at read with inside
  rw [if_pos (by rw [List.length_append]; omega), List.drop_append_of_le_length (by omega),
    List.take_append_of_le_length (by rw [List.length_drop]; omega)]
  exact read

/-- `memmove` inside one buffer: the source is read as it was before. -/
def memmove (buffer : List UInt8) (target source count : Nat) : Except Fault (List UInt8) := do
  let bytes ← readBytes buffer source count
  writeBytes buffer target bytes

/-- A piece is moved towards the front. Behind it a gap opens, which still
holds old bytes. -/
theorem memmove_back {front piece rest : List UInt8} {extra : Nat} (room : extra ≤ front.length) :
    ∃ gap, gap.length = extra ∧
      memmove (front ++ (piece ++ rest)) (front.length - extra) front.length
          piece.length =
        .ok (front.take (front.length - extra) ++ (piece ++ (gap ++ rest))) := by
  have size : (front.drop (front.length - extra)).length = extra := by
    rw [List.length_drop]
    omega
  have read : readBytes (front ++ (piece ++ rest)) front.length piece.length = .ok piece := by
    rw [readBytes, if_pos (by simp only [List.length_append]; omega), List.drop_left,
      List.take_left]
  refine ⟨(front.drop (front.length - extra) ++ piece).drop piece.length, ?_, ?_⟩
  · rw [List.length_drop, List.length_append]
    omega
  · have whole : front ++ (piece ++ rest) = front.take (front.length - extra) ++
            ((front.drop (front.length - extra) ++ piece).take piece.length ++
              ((front.drop (front.length - extra) ++ piece).drop piece.length ++ rest)) := by
      rw [← List.append_assoc (List.take piece.length _), List.take_append_drop, List.append_assoc,
        ← List.append_assoc (List.take _ front), List.take_append_drop]
    rw [memmove, read, whole]
    apply writeBytes_between
    · rw [List.length_take]
      omega
    · rw [List.length_take, List.length_append]
      omega

/-- The number that the bytes spell, the lowest byte first. -/
def leNat (bytes : List UInt8) : Nat := Nat.ofDigits 256 (bytes.map UInt8.toNat)

/-- The lowest `count` bytes of a number, the lowest first. -/
def leBytes : Nat → Nat → List UInt8
  | 0, _ => []
  | count + 1, value => UInt8.ofNat value :: leBytes count (value / 256)

@[simp]
theorem leNat_nil : leNat [] = 0 := rfl

@[simp]
theorem leNat_cons (byte : UInt8) (rest : List UInt8) :
    leNat (byte :: rest) = byte.toNat + 256 * leNat rest :=
  Nat.ofDigits_cons ..

theorem leNat_append (first second : List UInt8) : leNat (first ++ second) =
      leNat first + 256 ^ first.length * leNat second := by
  simp only [leNat, List.map_append, Nat.ofDigits_append, List.length_map]

theorem leNat_lt (bytes : List UInt8) : leNat bytes < 256 ^ bytes.length := by
  induction bytes with
  | nil => simp
  | cons byte rest ih =>
    have small := byte.toNat_lt
    rw [leNat_cons, List.length_cons]
    omega

@[simp]
theorem length_leBytes (count value : Nat) : (leBytes count value).length = count := by
  induction count generalizing value with
  | zero => rfl
  | succ count ih => simp only [leBytes, List.length_cons, ih]

theorem leNat_leBytes (count value : Nat) : leNat (leBytes count value) = value % 256 ^ count := by
  induction count generalizing value with
  | zero => simp [leBytes, Nat.mod_one]
  | succ count ih =>
    have low : (UInt8.ofNat value).toNat = value % 256 := UInt8.toNat_ofNat'
    rw [leBytes, leNat_cons, ih, low, Nat.pow_succ', Nat.mod_mul]

/-! ## Network order -/

def htonl (value : UInt32) : List UInt8 := (leBytes 4 value.toNat).reverse

def ntohl (bytes : List UInt8) : UInt32 := UInt32.ofNat (leNat bytes.reverse)

@[simp]
theorem length_htonl (value : UInt32) : (htonl value).length = 4 := by
  rw [htonl, List.length_reverse, length_leBytes]

@[simp]
theorem ntohl_htonl (value : UInt32) : ntohl (htonl value) = value := by
  have small : value.toNat % 256 ^ 4 = value.toNat := Nat.mod_eq_of_lt value.toNat_lt
  rw [ntohl, htonl, List.reverse_reverse, leNat_leBytes, small, UInt32.ofNat_toNat]

end Serval.Support
