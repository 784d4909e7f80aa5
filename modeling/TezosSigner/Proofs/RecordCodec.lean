/-
Module: TezosSigner.Proofs.RecordCodec
Purpose: A baking state that was written to a record reads back from it.
Main exports:
  Record.curveByte, Record.countByte, Record.flagByte, Record.reservedByte,
  BakingState.decodeMark_encode, BakingState.decode_encode, BakingState.key_decode_path
-/
import TezosSigner.Baking.Record

namespace TezosSigner

/-!
The mark reads back whatever stands in the record for the key.  The key reads back unless
it has no steps: the record has no room to tell such a key from no key at all.
-/

namespace Record

/-- The byte that tells the curve of the key. -/
def curveByte (record : Record) : UInt8 :=
  record.get 0

/-- The byte that tells the number of steps of the key. -/
def countByte (record : Record) : UInt8 :=
  record.get 1

/-- The byte that tells whether the level of the mark is an endorsed one. -/
def flagByte (record : Record) : UInt8 :=
  record.get 46

/-- The byte that is not read. -/
def reservedByte (record : Record) : UInt8 :=
  record.get 47

end Record

namespace BakingState

theorem toList_encode (state : BakingState) : state.encode.toList = state.layout := by
  simp [encode, Vector.toList]

theorem getElem_encode (state : BakingState) (index : Nat) (bound : index < 48) :
    state.encode[index] = state.layout.get ⟨index, by simpa [recordSize] using bound⟩ := by
  simp [encode]

/-- The bytes of the steps, filled up to their place in the record. -/
def stepsField (path : List UInt32) : Bytes :=
  (padded stepsSize (encodeWords path)).toList

theorem length_stepsField (path : List UInt32) : (stepsField path).length = 40 := by
  simp [stepsField, stepsSize]

/-- Ten steps at most are written as they are. -/
theorem stepsField_eq {path : List UInt32} (depth : path.length ≤ maxDepth) :
    stepsField path = encodeWords path ++ List.replicate (40 - 4 * path.length) 0 := by
  have fits : (encodeWords path).length ≤ stepsSize := by
    unfold maxDepth at depth
    simp only [length_encodeWords, stepsSize]
    omega
  rw [stepsField, toList_padded, List.take_of_length_le fits, length_encodeWords]
  rfl

theorem layout_of_key {state : BakingState} {key : KeyPath} (bound : state.key = some key) :
    state.layout = key.curve.code :: UInt8.ofNat key.path.length ::
      (stepsField key.path ++
        (encodeWord state.mark.level ++ [if state.mark.endorsement then 1 else 0, 0])) := by
  simp [layout, stepsField, bound]

theorem layout_of_no_key {state : BakingState} (unbound : state.key = none) :
    state.layout = 0 :: 0 ::
      (stepsField [] ++
        (encodeWord state.mark.level ++ [if state.mark.endorsement then 1 else 0, 0])) := by
  simp [layout, stepsField, unbound]

/-- Whether there is a key or not, the mark stands behind 42 bytes. -/
theorem exists_layout (state : BakingState) :
    ∃ front : Bytes, front.length = 42 ∧ state.layout =
      front ++ (encodeWord state.mark.level ++ [if state.mark.endorsement then 1 else 0, 0]) := by
  cases keyEq : state.key with
  | none => exact ⟨0 :: 0 :: stepsField [], by simp [length_stepsField], by
      rw [layout_of_no_key keyEq]; rfl⟩
  | some key =>
    exact ⟨key.curve.code :: UInt8.ofNat key.path.length :: stepsField key.path, by
      simp [length_stepsField], by rw [layout_of_key keyEq]; rfl⟩

theorem exists_encodeWord (word : UInt32) :
    ∃ a b c d, encodeWord word = [a, b, c, d] ∧ wordOfBytes a b c d = word := by
  have read := decodeWord?_encodeWord word []
  simp only [encodeWord, List.append_nil, decodeWord?, Option.some.injEq, Prod.mk.injEq,
    and_true] at read
  exact ⟨_, _, _, _, rfl, read⟩

/-- The mark in a record is the one that was written. -/
theorem decodeMark_encode (state : BakingState) : decodeMark state.encode = state.mark := by
  obtain ⟨front, long, layoutEq⟩ := exists_layout state
  obtain ⟨a, b, c, d, bytes, level⟩ := exists_encodeWord state.mark.level
  have flag : ((if state.mark.endorsement then 1 else 0 : UInt8) != 0) =
      state.mark.endorsement := by
    cases state.mark.endorsement <;> rfl
  simp only [decodeMark, getElem_encode, layoutEq, bytes, List.get_eq_getElem]
  simp [List.getElem_append_right, long, level, flag]

/-- The key in a record is the one that was written. -/
theorem decodeKey_encode_of_key {state : BakingState} {key : KeyPath}
    (bound : state.key = some key) (steps : key.path ≠ []) :
    decodeKey state.encode = some key := by
  have depth := key.depth_le
  have count := KeyPath.toNat_ofNat_length depth
  have words := decodeWords?_encodeWords key.path
  simp only [decodeKey, getElem_encode, toList_encode, layout_of_key bound, stepsField_eq depth,
    List.get_eq_getElem]
  simp [count, words, steps, depth]

theorem decodeKey_encode_of_no_key {state : BakingState} (unbound : state.key = none) :
    decodeKey state.encode = none := by
  simp only [decodeKey, getElem_encode, toList_encode, layout_of_no_key unbound,
    List.get_eq_getElem]
  rfl

/-- A written state reads back, unless its key has no steps. -/
theorem decode_encode {state : BakingState}
    (steps : ∀ key, state.key = some key → key.path ≠ []) : decode state.encode = state := by
  have keyEq : decodeKey state.encode = state.key := by
    cases bound : state.key with
    | none => exact decodeKey_encode_of_no_key bound
    | some key => exact decodeKey_encode_of_key bound (steps key bound)
  simp only [decode, keyEq, decodeMark_encode]

/-- A state with a key that has a step is read back. -/
theorem decode_encode_of_bound {state : BakingState} {key : KeyPath}
    (bound : state.key = some key) (steps : key.path ≠ []) : decode state.encode = state := by
  refine decode_encode fun other same => ?_
  rw [bound] at same
  exact Option.some.inj same ▸ steps

theorem drop_toList (record : Record) {index : Nat} (bound : index < 48) :
    record.toList.drop index = record[index] :: record.toList.drop (index + 1) := by
  have inside : index < record.toList.length := by simpa using bound
  rw [List.drop_eq_getElem_cons inside, Vector.getElem_toList]

/-- The level of the mark stands behind the key. -/
theorem drop_level (record : Record) : record.toList.drop 42 =
    encodeWord (decodeMark record).level ++ record.toList.drop 46 := by
  rw [decodeMark, encodeWord_wordOfBytes, drop_toList record (by decide),
    drop_toList record (by decide), drop_toList record (by decide), drop_toList record (by decide)]
  rfl

/-- A record with a number of steps out of its limits holds no key. -/
theorem decodeKey_of_limits {record : Record}
    (limits : ¬ (1 ≤ record.countByte.toNat ∧ record.countByte.toNat ≤ maxDepth)) :
    decodeKey record = none := by
  unfold decodeKey
  split
  · rename_i path rest _ read
    have counted : path.length = record.countByte.toNat := (decodeWords?_eq_some_iff.1 read).1
    refine dif_neg fun fits => limits ?_
    have steps := List.length_pos_iff.2 fits.1
    omega
  · rfl

/-- The key in a record is read off its curve and as many steps as it says. -/
theorem decodeKey_of_words {record : Record} {curve : Curve} {path : List UInt32} {rest : Bytes}
    (code : record.curveByte = curve.code) (counted : path.length = record.countByte.toNat)
    (limits : path ≠ [] ∧ path.length ≤ maxDepth)
    (bytes : record.toList.drop 2 = encodeWords path ++ rest) :
    decodeKey record = some { curve := curve, path := path, depth_le := limits.2 } := by
  have known : Curve.ofCode? record.curveByte = some curve := by
    rw [code, Curve.ofCode?_code]
  have read : decodeWords? record.countByte.toNat (record.toList.drop 2) = some (path, rest) := by
    rw [bytes, ← counted, decodeWords?_encodeWords]
  unfold decodeKey
  split
  · rename_i firstEq secondEq
    cases known.symm.trans firstEq
    cases read.symm.trans secondEq
    exact dif_pos limits
  · rename_i others
    exact absurd read (others _ _ _ known)

/-- A key that was read from a record has at least one step. -/
theorem key_decode_path {record : Record} {key : KeyPath}
    (bound : (decode record).key = some key) : key.path ≠ [] := by
  simp only [decode, decodeKey] at bound
  split at bound
  · split at bound
    · rename_i steps
      cases bound
      exact steps.1
    · cases bound
  · cases bound

end BakingState

end TezosSigner
