/-
Module: TezosSigner.Proofs.Machine.Keys
Purpose: Reading and writing keys on a machine.
Main exports:
  KeyPath.lengthOn, KeyPath.writeOn, KeyPath.decodeOn, KeyPath.writeOn_eq, KeyPath.decodeOn_eq
-/
import TezosSigner.Proofs.Machine.Access
import TezosSigner.Proofs.Wire.Keys

namespace TezosSigner.KeyPath

/-!
A key is written and read through an index that moves along the buffer.  The length of the
buffer is checked once, before the first word; from then on the index alone decides what is
accessed.
-/

section Definitions

variable (machine : Machine)

/-- The number of bytes that a key asks for. -/
def lengthOn (key : KeyPath) : Checked Nat := do
  machine.add 2 (← machine.mul key.path.length 4)

/-- Write a key to the front of a buffer. -/
def writeOn (key : KeyPath) (buffer : Bytes) : Checked (Except WireError Written) := do
  let length ← key.lengthOn machine
  if buffer.length < length then
    .ok (.error .invalidLength)
  else do
    let buffer ← Slice.setByte 0 (UInt8.ofNat key.path.length) buffer
    let index ← machine.add 0 1
    let (index, buffer) ← machine.putWords key.path index buffer
    let buffer ← Slice.setByte index key.curve.code buffer
    let index ← machine.add index 1
    .ok (.ok { length := index, buffer := buffer })

/-- Read a key from the front of a byte string. -/
def decodeOn (bytes : Bytes) : Checked (Except WireError (KeyPath × Nat)) :=
  if bytes.isEmpty then
    .ok (.error .invalidLength)
  else do
    let count ← Slice.byteAt bytes 0
    let index ← machine.add 0 1
    if count.toNat = 0 ∨ maxDepth < count.toNat then
      .ok (.error .invalidLength)
    else do
      let length ← machine.add (← machine.add 1 (← machine.mul count.toNat 4)) 1
      if bytes.length < length then
        .ok (.error .invalidLength)
      else do
        let (path, index) ← machine.takeWords bytes count.toNat index Bounded.empty
        match Curve.ofCode? (← Slice.byteAt bytes index) with
        | none => .ok (.error .invalidEncoding)
        | some curve => do
            let index ← machine.add index 1
            .ok (.ok ({ curve := curve, path := path.elements, depth_le := path.fits }, index))

end Definitions

variable {machine : Machine}

theorem lengthOn_eq (key : KeyPath) : key.lengthOn machine = .ok key.layout.length := by
  have depth : key.path.length ≤ 10 := key.depth_le
  rw [lengthOn, Machine.mul_small (by omega), Checked.ok_bind, Machine.add_small (by omega),
    length_layout, Nat.mul_comm]

/-- A key is written in bounds, and as its layout says. -/
theorem writeOn_eq (key : KeyPath) (buffer : Bytes) :
    key.writeOn machine buffer = .ok (writeInto buffer key.layout) := by
  have depth : key.path.length ≤ 10 := key.depth_le
  rw [writeOn, lengthOn_eq, Checked.ok_bind, writeInto]
  split
  · rfl
  rename_i room
  rw [length_layout, Nat.not_lt] at room
  cases buffer with
  | nil => exact absurd room (by simp)
  | cons first tail =>
    rw [List.length_cons] at room
    have last : tail.drop (4 * key.path.length) =
        tail[4 * key.path.length] :: tail.drop (4 * key.path.length + 1) :=
      List.drop_eq_getElem_cons (by omega)
    have steps : machine.putWords key.path 1 (UInt8.ofNat key.path.length :: tail) =
        .ok (1 + 4 * key.path.length,
          UInt8.ofNat key.path.length :: (encodeWords key.path ++
            tail[4 * key.path.length] :: tail.drop (4 * key.path.length + 1))) := by
      rw [← last]
      exact @Machine.putWords_append machine key.path [UInt8.ofNat key.path.length] tail
        (by omega) (by simp only [List.length_singleton]; omega)
    have curve : Slice.setByte (1 + 4 * key.path.length) key.curve.code
        (UInt8.ofNat key.path.length :: (encodeWords key.path ++
          tail[4 * key.path.length] :: tail.drop (4 * key.path.length + 1))) =
        .ok (key.layout ++ tail.drop (4 * key.path.length + 1)) := by
      rw [← List.cons_append, Slice.setByte_append (by simp; omega), layout]
      simp
    rw [Slice.setByte_zero, Checked.ok_bind, Machine.add_small (by decide), Checked.ok_bind,
      steps, Checked.ok_bind]
    dsimp only
    rw [curve, Checked.ok_bind, Machine.add_small (by omega), Checked.ok_bind, length_layout]
    rw [show 2 + 4 * key.path.length = (4 * key.path.length + 1) + 1 by omega, List.drop_succ_cons,
      show 1 + 4 * key.path.length + 1 = (4 * key.path.length + 1) + 1 by omega]

/-- A key is read in bounds, and as its decoder says. -/
theorem decodeOn_eq (bytes : Bytes) : decodeOn machine bytes = .ok (decode bytes) := by
  cases bytes with
  | nil => rfl
  | cons count bytes =>
    rw [decodeOn, if_neg (by simp), Slice.byteAt_zero, Checked.ok_bind,
      Machine.add_small (by decide), Checked.ok_bind]
    split
    · rename_i limits
      rw [decode_of_count limits]
    rename_i limits
    have depth : maxDepth = 10 := rfl
    rw [Machine.mul_small (by omega), Checked.ok_bind, Machine.add_small (by omega),
      Checked.ok_bind, Machine.add_small (by omega), Checked.ok_bind]
    split
    · rename_i short
      rw [List.length_cons] at short
      rw [decode_of_short (by omega)]
    rename_i enough
    rw [List.length_cons] at enough
    obtain ⟨path, rest, counted, rfl⟩ := exists_encodeWords count.toNat bytes (by omega)
    rw [List.length_append, length_encodeWords] at enough
    cases rest with
    | nil => exact absurd enough (by simp [counted]; omega)
    | cons curveByte rest =>
      have fits : path.length ≤ maxDepth := by omega
      have steps : path ≠ [] := by
        rintro rfl
        exact limits (.inl counted.symm)
      have taken : machine.takeWords (count :: (encodeWords path ++ curveByte :: rest))
          path.length 1 Bounded.empty = .ok (⟨path, fits⟩, 1 + 4 * path.length) :=
        @Machine.takeWords_append machine maxDepth path [count] (curveByte :: rest) _ ⟨path, fits⟩
          rfl (by simp only [List.length_singleton]; omega)
      have curve : Slice.byteAt (count :: (encodeWords path ++ curveByte :: rest))
          (1 + 4 * path.length) = .ok curveByte := by
        rw [← List.cons_append]
        exact Slice.byteAt_append (by simp; omega)
      rw [decode_words counted ⟨steps, fits⟩, ← counted, taken, Checked.ok_bind]
      dsimp only
      rw [curve, Checked.ok_bind]
      cases Curve.ofCode? curveByte with
      | none => rfl
      | some curve =>
        dsimp only
        rw [Machine.add_small (by omega), Checked.ok_bind,
          show 1 + 4 * path.length + 1 = 2 + 4 * path.length by omega]

end TezosSigner.KeyPath
