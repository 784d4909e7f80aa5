/-
Module: TezosSigner.Proofs.CanonicalRecords
Purpose: Which records a device writes, and what becomes of the others when they are read.
Main exports:
  Record.IsCanonical, BakingState.isCanonical_encode, BakingState.encode_decode_iff,
  BakingState.record_codec
-/
import TezosSigner.Proofs.RecordCodec

namespace TezosSigner

/-!
Any 48 bytes are a record, and any record is read.  Many of them hold the same state: a record
without a key may have anything in the place of the key, and any flag but zero stands for an
endorsed level.  Of the records that hold a state one is canonical, and that is the one that a
device writes.
-/

namespace Record

/-- The bytes of a record in the place of the steps. -/
def pathBytes (record : Record) : Bytes :=
  (record.toList.drop 2).take BakingState.stepsSize

/-- Nothing in the record could be different without a difference in the state: the bytes that
are not read are zero, and so is the whole place of a key that is not there. -/
structure IsCanonical (record : Record) : Prop where
  reserved : record.reservedByte = 0
  flag : record.flagByte = 0 ∨ record.flagByte = 1
  key : (record.countByte = 0 ∧ record.curveByte = 0) ∨
    (1 ≤ record.countByte.toNat ∧ record.countByte.toNat ≤ maxDepth ∧
      record.curveByte.toNat ≤ 2)
  filling : ∀ byte ∈ record.pathBytes.drop (4 * record.countByte.toNat), byte = 0

theorem isCanonical_iff {record : Record} :
    (record.reservedByte = 0 ∧ (record.flagByte = 0 ∨ record.flagByte = 1) ∧
      ((record.countByte = 0 ∧ record.curveByte = 0) ∨
        (1 ≤ record.countByte.toNat ∧ record.countByte.toNat ≤ maxDepth ∧
          record.curveByte.toNat ≤ 2)) ∧
      ∀ byte ∈ record.pathBytes.drop (4 * record.countByte.toNat), byte = 0) ↔
        record.IsCanonical :=
  ⟨fun h => ⟨h.1, h.2.1, h.2.2.1, h.2.2.2⟩, fun h => ⟨h.reserved, h.flag, h.key, h.filling⟩⟩

instance (record : Record) : Decidable record.IsCanonical :=
  have := List.decidableBAll (fun byte => byte = 0)
    (record.pathBytes.drop (4 * record.countByte.toNat))
  decidable_of_iff _ isCanonical_iff

variable {record : Record} {curveByte count : UInt8} {path tail : Bytes}

theorem length_pathBytes (record : Record) : record.pathBytes.length = 40 := by
  simp [pathBytes, BakingState.stepsSize]

theorem pathBytes_append (record : Record) :
    record.pathBytes ++ record.toList.drop 42 = record.toList.drop 2 := by
  have split := List.take_append_drop BakingState.stepsSize (record.toList.drop 2)
  rw [List.drop_drop] at split
  exact split

/-- The flag and the byte that is not read stand behind the level. -/
theorem drop_flag (record : Record) :
    record.toList.drop 46 = [record.flagByte, record.reservedByte] := by
  rw [BakingState.drop_toList record (by decide), BakingState.drop_toList record (by decide),
    List.drop_of_length_le (by simp)]
  rfl

theorem toList_eq (record : Record) : record.toList =
    record.curveByte :: record.countByte :: (record.pathBytes ++ record.toList.drop 42) := by
  have front := @BakingState.drop_toList record 0 (by decide)
  rw [List.drop_zero, BakingState.drop_toList record (by decide)] at front
  rw [pathBytes_append]
  exact front

/-- The fields of the key are told by the bytes of the record. -/
theorem key_of_toList (bytes : record.toList = curveByte :: count :: (path ++ tail))
    (long : path.length = 40) :
    record.curveByte = curveByte ∧ record.countByte = count ∧ record.pathBytes = path := by
  rw [toList_eq, List.cons.injEq, List.cons.injEq] at bytes
  obtain ⟨curve, counted, rest⟩ := bytes
  exact ⟨curve, counted, List.append_inj_left rest (by rw [length_pathBytes, long])⟩

end Record

namespace BakingState

variable {state : BakingState} {record : Record}

/-- Behind the steps, their place in the record is empty. -/
theorem drop_stepsField {path : List UInt32} (depth : path.length ≤ maxDepth) :
    (stepsField path).drop (4 * path.length) = List.replicate (40 - 4 * path.length) 0 := by
  rw [stepsField_eq depth, List.drop_left' (length_encodeWords path)]

/-- What stands behind the level in a record that is written. -/
theorem flag_encode (state : BakingState) :
    state.encode.flagByte = (if state.mark.endorsement then 1 else 0) ∧
      state.encode.reservedByte = 0 := by
  obtain ⟨front, long, layoutEq⟩ := exists_layout state
  have behind := drop_level state.encode
  rw [decodeMark_encode, Record.drop_flag, toList_encode, layoutEq, List.drop_left' long] at behind
  have bytes := List.append_cancel_left behind
  simp only [List.cons.injEq, and_true] at bytes
  exact ⟨bytes.1.symm, bytes.2.symm⟩

/-- A record that is written is canonical, unless its key has no steps. -/
theorem isCanonical_encode (steps : ∀ key, state.key = some key → key.path ≠ []) :
    state.encode.IsCanonical := by
  obtain ⟨flag, reserved⟩ := flag_encode state
  have valid : state.encode.flagByte = 0 ∨ state.encode.flagByte = 1 := by
    rw [flag]
    cases state.mark.endorsement with
    | false => exact .inl rfl
    | true => exact .inr rfl
  have written := toList_encode state
  cases bound : state.key with
  | none =>
    rw [layout_of_no_key bound] at written
    obtain ⟨curve, count, path⟩ := Record.key_of_toList written (length_stepsField [])
    refine ⟨reserved, valid, .inl ⟨count, curve⟩, ?_⟩
    intro byte member
    rw [path, count] at member
    exact List.eq_of_mem_replicate member
  | some key =>
    rw [layout_of_key bound] at written
    obtain ⟨curve, count, path⟩ := Record.key_of_toList written (length_stepsField key.path)
    have counted := KeyPath.toNat_ofNat_length key.depth_le
    refine ⟨reserved, valid, .inr ⟨?_, ?_, Curve.exists_code_iff.1 ⟨key.curve, curve⟩⟩, ?_⟩
    · rw [count, counted]
      exact List.length_pos_iff.2 (steps key bound)
    · rw [count, counted]
      exact key.depth_le
    · intro byte member
      rw [path, count, counted, drop_stepsField key.depth_le] at member
      exact List.eq_of_mem_replicate member

/-- In a canonical record there are steps, and nothing else, in the place of the steps. -/
theorem exists_stepsField (canonical : record.IsCanonical) :
    ∃ path : List UInt32, path.length = record.countByte.toNat ∧ path.length ≤ maxDepth ∧
      record.pathBytes = stepsField path := by
  have depth : record.countByte.toNat ≤ maxDepth := by
    rcases canonical.key with ⟨empty, _⟩ | ⟨_, depth, _⟩
    · rw [empty]
      decide
    · exact depth
  have limit : maxDepth = 10 := rfl
  obtain ⟨path, filling, counted, bytes⟩ :=
    exists_encodeWords record.countByte.toNat record.pathBytes
      (by rw [Record.length_pathBytes]; omega)
  have long := record.length_pathBytes
  rw [bytes, List.length_append, length_encodeWords] at long
  have zeros : filling = List.replicate (40 - 4 * path.length) 0 := by
    refine List.eq_replicate_iff.2 ⟨by omega, fun byte member => canonical.filling byte ?_⟩
    rw [bytes, ← counted, List.drop_left' (length_encodeWords path)]
    exact member
  have fits : path.length ≤ maxDepth := by omega
  exact ⟨path, counted, fits, by rw [bytes, zeros, stepsField_eq fits]⟩

/-- The mark of a canonical record is written as it was read. -/
theorem encode_mark (canonical : record.IsCanonical) :
    encodeWord (decode record).mark.level ++
        [if (decode record).mark.endorsement then 1 else 0, 0] = record.toList.drop 42 := by
  have read : (decode record).mark.endorsement = (record.flagByte != 0) := rfl
  have flag : (if (decode record).mark.endorsement then 1 else 0 : UInt8) = record.flagByte := by
    rw [read]
    rcases canonical.flag with zero | one
    · rw [zero]
      rfl
    · rw [one]
      rfl
  rw [flag, drop_level, Record.drop_flag, canonical.reserved]
  rfl

theorem encode_decode_of_isCanonical (canonical : record.IsCanonical) :
    (decode record).encode = record := by
  obtain ⟨path, counted, depth, place⟩ := exists_stepsField canonical
  have mark := encode_mark canonical
  apply Vector.toList_inj.1
  rw [toList_encode, Record.toList_eq, place]
  rcases canonical.key with ⟨empty, plain⟩ | ⟨positive, _, known⟩
  · have unbound : (decode record).key = none := decodeKey_of_limits (by rw [empty]; decide)
    rw [empty] at counted
    cases List.length_eq_zero_iff.1 counted
    rw [layout_of_no_key unbound, mark, empty, plain]
  · obtain ⟨curve, code⟩ := Curve.exists_code_iff.2 known
    have limits : path ≠ [] ∧ path.length ≤ maxDepth :=
      ⟨List.length_pos_iff.1 (by omega), depth⟩
    have bytes := record.pathBytes_append
    rw [place, stepsField_eq depth, List.append_assoc] at bytes
    have bound : (decode record).key = some { curve := curve, path := path, depth_le := depth } :=
      decodeKey_of_words code counted limits bytes.symm
    rw [layout_of_key bound, mark, code, counted, UInt8.ofNat_toNat]

/-- The canonical records are those that are written as they were read. -/
theorem encode_decode_iff : (decode record).encode = record ↔ record.IsCanonical := by
  constructor
  · intro same
    have canonical := @isCanonical_encode (decode record) fun _ bound => key_decode_path bound
    rwa [same] at canonical
  · exact encode_decode_of_isCanonical

/-- The mark is read off five bytes, whatever the others are. -/
theorem decode_mark_congr {record other : Record}
    (same : ∀ index (inside : index < 48), 42 ≤ index → index ≤ 46 →
      record[index] = other[index]) : (decode record).mark = (decode other).mark := by
  simp only [decode, decodeMark, same 42 (by decide) (by decide) (by decide),
    same 43 (by decide) (by decide) (by decide), same 44 (by decide) (by decide) (by decide),
    same 45 (by decide) (by decide) (by decide), same 46 (by decide) (by decide) (by decide)]

/-- A state that is written reads back, a record that is read is written as the canonical record
of its state, and what stands in the place of the key has no bearing on the mark. -/
theorem record_codec :
    (∀ state : BakingState, (∀ key, state.key = some key → key.path ≠ []) →
      decode state.encode = state) ∧
    (∀ record : Record, decode (decode record).encode = decode record) ∧
    (∀ record : Record, (decode record).encode = record ↔ record.IsCanonical) ∧
    (∀ record other : Record,
      (∀ index (inside : index < 48), 42 ≤ index → index ≤ 46 → record[index] = other[index]) →
        (decode record).mark = (decode other).mark) ∧
    (∀ (record : Record) (key : KeyPath), (decode record).key = some key →
      1 ≤ key.path.length ∧ key.path.length ≤ 10) := by
  refine ⟨fun state steps => decode_encode steps, ?_, fun record => encode_decode_iff,
    fun record other same => decode_mark_congr same, ?_⟩
  · intro record
    exact decode_encode fun key bound => key_decode_path bound
  · intro record key bound
    exact ⟨List.length_pos_iff.2 (key_decode_path bound), key.depth_le⟩

/-- An empty record is canonical, and a record without a key keeps its mark. -/
theorem empty_record_kept :
    (decode (Vector.replicate 48 0)).encode = Vector.replicate 48 0 ∧
      decode (encode { key := none, mark := { level := 7, endorsement := true } }) =
        { key := none, mark := { level := 7, endorsement := true } } :=
  ⟨(record_codec.2.2.1 _).2 (by decide), record_codec.1 _ (by simp)⟩

end BakingState

end TezosSigner
