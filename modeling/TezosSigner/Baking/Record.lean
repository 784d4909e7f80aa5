/-
Module: TezosSigner.Baking.Record
Purpose: The baking state, and the 48-byte record that keeps it through a power cut.
Main exports: Record, BakingState, BakingState.encode, BakingState.decode
-/
import TezosSigner.Bytes
import TezosSigner.Baking.Mark
import TezosSigner.Key.Path

namespace TezosSigner

/-!
The baking state is the authorized key and the high-water mark.  It is kept in one
record that is always written as a whole, so a power cut leaves either the old
record or the new one:

    | curve | count | ten steps, zero padded | level | endorsed | reserved |
       1       1               40                4        1          1

A record with no steps, too many steps or an unknown curve holds no key; its mark
counts all the same.
-/

/-- The size of the persisted record. -/
def recordSize : Nat := 48

/-- The persisted record. -/
abbrev Record := Vector UInt8 48

/-- What a baking device remembers. -/
structure BakingState where
  /-- The key that may sign blocks and endorsements. -/
  key : Option KeyPath
  /-- The highest mark signed so far. -/
  mark : Mark
deriving Repr, DecidableEq

namespace BakingState

/-- The number of bytes that ten derivation steps take. -/
def stepsSize : Nat := 40

/-- The bytes of the record that holds a state. -/
def layout (state : BakingState) : Bytes :=
  let (curveByte, path) :=
    match state.key with
    | some key => (key.curve.code, key.path)
    | none => (0, [])
  curveByte :: UInt8.ofNat path.length ::
    ((padded stepsSize (encodeWords path)).toList ++
      (encodeWord state.mark.level ++ [if state.mark.endorsement then 1 else 0, 0]))

@[simp] theorem length_layout (state : BakingState) : state.layout.length = recordSize := by
  simp [layout, stepsSize, recordSize]

/-- The record that holds a state. -/
def encode (state : BakingState) : Record :=
  ⟨state.layout.toArray, by simp [recordSize]⟩

/-- The key in a record, if the record holds one. -/
def decodeKey (record : Record) : Option KeyPath :=
  match Curve.ofCode? record[0], decodeWords? record[1].toNat (record.toList.drop 2) with
  | some curve, some (path, _) =>
      if h : path ≠ [] ∧ path.length ≤ maxDepth then
        some { curve := curve, path := path, depth_le := KeyPath.depth_le_of_steps h }
      else
        none
  | _, _ => none

/-- The mark in a record; any byte but zero stands for an endorsed level. -/
def decodeMark (record : Record) : Mark :=
  { level := wordOfBytes record[42] record[43] record[44] record[45]
    endorsement := record[46] != 0 }

/-- The state that a record holds. -/
def decode (record : Record) : BakingState :=
  { key := decodeKey record, mark := decodeMark record }

end BakingState

end TezosSigner
