/-
Module: TezosSigner.Proofs.Machine.Records
Purpose: Reading and writing the persisted record on a machine.
Main exports:
  BakingState.encodeOn, BakingState.decodeOn, BakingState.encodeOn_eq, BakingState.decodeOn_eq
-/
import TezosSigner.Proofs.Machine.Keys
import TezosSigner.Proofs.RecordCodec

namespace TezosSigner

namespace Machine

/-!
The record has a place for each of ten steps, and the place of a step is worked out from its
number.  That is the row of words that an index would move along.
-/

variable (machine : Machine)

/-- The place of a step in the record. -/
def stepPlace (number : Nat) : Checked Nat := do
  machine.add 2 (← machine.mul number 4)

/-- Write steps, each to its place, from the one with the given number on. -/
def putSteps : List UInt32 → Nat → Bytes → Checked Bytes
  | [], _, buffer => .ok buffer
  | step :: steps, number, buffer => do
      let buffer ← Slice.onRest (← machine.stepPlace number) (Slice.putWord step) buffer
      putSteps steps (number + 1) buffer

/-- Read so many steps, each from its place, from the one with the given number on, and push
each of them. -/
def takeSteps {capacity : Nat} (bytes : Bytes) :
    Nat → Nat → Bounded UInt32 capacity → Checked (Bounded UInt32 capacity)
  | 0, _, steps => .ok steps
  | count + 1, number, steps => do
      let step ← Slice.word (← Slice.rest bytes (← machine.stepPlace number))
      let steps ← steps.push step
      takeSteps bytes count (number + 1) steps

variable {machine : Machine}

theorem stepPlace_eq {number : Nat} (small : number < 10000) :
    machine.stepPlace number = .ok (2 + number * 4) := by
  rw [stepPlace, mul_small (by omega), Checked.ok_bind, add_small (by omega)]

/-- Steps that are written to their places are words written in a row. -/
theorem putSteps_eq {steps : List UInt32} {number : Nat} {buffer : Bytes}
    (small : number + steps.length < 10000) :
    machine.putSteps steps number buffer =
      (machine.putWords steps (2 + number * 4) buffer).map Prod.snd := by
  induction steps generalizing number buffer with
  | nil => rfl
  | cons step steps ih =>
    rw [List.length_cons] at small
    rw [putSteps, stepPlace_eq (by omega), Checked.ok_bind, putWords]
    cases Slice.onRest (2 + number * 4) (Slice.putWord step) buffer with
    | error fault => rfl
    | ok buffer =>
      rw [Checked.ok_bind, Checked.ok_bind, add_small (by omega), Checked.ok_bind,
        ih (by omega)]
      congr 2
      omega

/-- Steps that are read from their places are words read in a row. -/
theorem takeSteps_eq {capacity count number : Nat} {bytes : Bytes}
    {steps : Bounded UInt32 capacity} (small : number + count < 10000) :
    machine.takeSteps bytes count number steps =
      (machine.takeWords bytes count (2 + number * 4) steps).map Prod.fst := by
  induction count generalizing number steps with
  | zero => rfl
  | succ count ih =>
    rw [takeSteps, stepPlace_eq (by omega), Checked.ok_bind, takeWords]
    cases Slice.rest bytes (2 + number * 4) with
    | error fault => rfl
    | ok rest =>
      rw [Checked.ok_bind, Checked.ok_bind]
      cases Slice.word rest with
      | error fault => rfl
      | ok step =>
        rw [Checked.ok_bind, Checked.ok_bind]
        cases steps.push step with
        | error fault => rfl
        | ok steps =>
          rw [Checked.ok_bind, Checked.ok_bind, add_small (by omega), Checked.ok_bind,
            ih (by omega)]
          congr 2
          omega

end Machine

namespace BakingState

section Definitions

variable (machine : Machine)

/-- Write the key to its place in the record. -/
def putKeyOn (key : Option KeyPath) (buffer : Bytes) : Checked Bytes :=
  match key with
  | none => .ok buffer
  | some key => do
      let buffer ← Slice.setByte 0 key.curve.code buffer
      let buffer ← Slice.setByte 1 (UInt8.ofNat key.path.length) buffer
      machine.putSteps key.path 0 buffer

/-- The record that holds a state. -/
def encodeOn (state : BakingState) : Checked Record := do
  let buffer ← putKeyOn machine state.key (List.replicate recordSize 0)
  let buffer ← Slice.onRest 42 (Slice.putWord state.mark.level) buffer
  let buffer ← Slice.setByte 46 (if state.mark.endorsement then 1 else 0) buffer
  Slice.field 48 buffer

/-- The key in a record, if the record holds one. -/
def takeKeyOn (bytes : Bytes) : Checked (Option KeyPath) := do
  let count ← Slice.byteAt bytes 1
  match Curve.ofCode? (← Slice.byteAt bytes 0) with
  | none => .ok none
  | some curve =>
      if 1 ≤ count.toNat ∧ count.toNat ≤ maxDepth then do
        let path ← machine.takeSteps bytes count.toNat 0 Bounded.empty
        .ok (some { curve := curve, path := path.elements, depth_le := path.fits })
      else
        .ok none

/-- The state that a record holds. -/
def decodeOn (record : Record) : Checked BakingState := do
  let key ← takeKeyOn machine record.toList
  let level ← Slice.word (← Slice.rest record.toList 42)
  let endorsement ← Slice.byteAt record.toList 46
  .ok { key := key, mark := { level := level, endorsement := endorsement != 0 } }

end Definitions

variable {machine : Machine}

/-- The key is written to the first 42 bytes, and the rest stays empty. -/
theorem putKeyOn_eq (state : BakingState) :
    ∃ front : Bytes, front.length = 42 ∧
      state.layout =
        front ++ (encodeWord state.mark.level ++ [if state.mark.endorsement then 1 else 0, 0]) ∧
      putKeyOn machine state.key (List.replicate recordSize 0) =
        .ok (front ++ List.replicate 6 0) := by
  cases bound : state.key with
  | none =>
    refine ⟨0 :: 0 :: stepsField [], by simp [length_stepsField], ?_, rfl⟩
    rw [layout_of_no_key bound]
    rfl
  | some key =>
    have depth : key.path.length ≤ 10 := key.depth_le
    refine ⟨key.curve.code :: UInt8.ofNat key.path.length :: stepsField key.path,
      by simp [length_stepsField], ?_, ?_⟩
    · rw [layout_of_key bound]
      rfl
    · have empty : List.replicate recordSize (0 : UInt8) = 0 :: 0 :: List.replicate 46 0 := rfl
      have written := @Machine.putWords_append machine key.path
        [key.curve.code, UInt8.ofNat key.path.length] (List.replicate 46 0)
        (by simp only [List.length_replicate]; omega)
        (by simp only [List.length_cons, List.length_nil]; omega)
      have unwritten : (List.replicate 46 (0 : UInt8)).drop (4 * key.path.length) =
          List.replicate (40 - 4 * key.path.length) 0 ++ List.replicate 6 0 := by
        rw [List.drop_replicate, List.replicate_append_replicate]
        congr 1
        omega
      rw [putKeyOn, empty, Slice.setByte_zero, Checked.ok_bind, Slice.setByte_one,
        Checked.ok_bind, Machine.putSteps_eq (by omega)]
      refine (congrArg (Except.map Prod.snd) written).trans ?_
      rw [unwritten, stepsField_eq key.depth_le]
      simp [Except.map]

/-- A state is written in bounds, and as its layout says. -/
theorem encodeOn_eq (state : BakingState) : state.encodeOn machine = .ok state.encode := by
  obtain ⟨front, long, layoutEq, key⟩ := @putKeyOn_eq machine state
  have level : Slice.onRest 42 (Slice.putWord state.mark.level) (front ++ List.replicate 6 0) =
      .ok (front ++ (encodeWord state.mark.level ++ [0, 0])) :=
    Slice.onRest_append long.symm (Slice.putWord_eq (by decide))
  have endorsement : Slice.setByte 46 (if state.mark.endorsement then 1 else 0)
      (front ++ (encodeWord state.mark.level ++ [0, 0])) = .ok state.layout := by
    rw [layoutEq, ← List.append_assoc, ← List.append_assoc]
    exact Slice.setByte_append (by simp [long])
  rw [encodeOn, key, Checked.ok_bind, level, Checked.ok_bind, endorsement, Checked.ok_bind,
    ← toList_encode, Slice.field, fixed?_toList]

theorem byteAt_toList (record : Record) {index : Nat} (bound : index < 48) :
    Slice.byteAt record.toList index = .ok record[index] := by
  simp [Slice.byteAt, bound]

/-- The key is read in bounds, and as its decoder says. -/
theorem takeKeyOn_eq (record : Record) :
    takeKeyOn machine record.toList = .ok (decodeKey record) := by
  have limit : maxDepth = 10 := rfl
  rw [takeKeyOn, byteAt_toList record (by decide), Checked.ok_bind,
    byteAt_toList record (by decide), Checked.ok_bind]
  cases known : Curve.ofCode? record[0] with
  | none => rw [decodeKey, known]
  | some curve =>
    dsimp only
    split
    · rename_i limits
      have room : 4 * record[1].toNat ≤ (record.toList.drop 2).length := by
        rw [List.length_drop, Vector.length_toList]
        omega
      obtain ⟨path, rest, counted, bytes⟩ := exists_encodeWords _ _ room
      have fits : path ≠ [] ∧ path.length ≤ maxDepth :=
        ⟨List.length_pos_iff.1 (by omega), by omega⟩
      have whole : record.toList = [record[0], record[1]] ++ (encodeWords path ++ rest) := by
        have first := @drop_toList record 0 (by decide)
        rw [List.drop_zero, drop_toList record (by decide), bytes] at first
        exact first
      have taken : machine.takeWords record.toList record[1].toNat 2 Bounded.empty =
          .ok (⟨path, fits.2⟩, 2 + 4 * path.length) := by
        rw [whole, ← counted]
        exact @Machine.takeWords_append machine maxDepth path [record[0], record[1]] rest _
          ⟨path, fits.2⟩ rfl (by simp only [List.length_cons, List.length_nil]; omega)
      rw [Machine.takeSteps_eq (by omega), taken,
        decodeKey_of_words (Curve.ofCode?_eq_some_iff.1 known) counted fits bytes]
      rfl
    · rename_i limits
      rw [decodeKey_of_limits limits]

/-- A record is read in bounds, and as its decoder says. -/
theorem decodeOn_eq (record : Record) : decodeOn machine record = .ok (decode record) := by
  rw [decodeOn, takeKeyOn_eq, Checked.ok_bind,
    Slice.rest_eq (by rw [Vector.length_toList]; decide), Checked.ok_bind, drop_level,
    Slice.word_append, Checked.ok_bind, byteAt_toList record (by decide), Checked.ok_bind]
  rfl

end BakingState

end TezosSigner
