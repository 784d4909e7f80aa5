/-
Module: TezosSigner.Proofs.StoredState
Purpose: The queries tell what is stored, and the record is put together from their responses.
Main exports: Device.Tells, BakingState.toList_encode_eq, Device.stored_told
-/
import TezosSigner.Proofs.History
import TezosSigner.Proofs.RecordCodec
import TezosSigner.Proofs.Wire.Responses

namespace TezosSigner

/-!
The baking state is written down twice: in the record that outlives a power cut, and in the
responses to the two queries.  The record is read by the device and the responses are read by the
host, and both read the same state, even off a record that no device has written.  When a device
writes the record, the two responses are what it is made of.
-/

namespace BakingState

/-- A record is the response to the query for the key, filled up to the room of ten steps, and the
response to the query for the mark. -/
theorem toList_encode_eq (state : BakingState) :
    state.encode.toList =
      AuthKeyResponse.layout ⟨state.key⟩ ++
        List.replicate (42 - (AuthKeyResponse.layout ⟨state.key⟩).length) 0 ++
          state.mark.layout ++ [0] := by
  rw [toList_encode, AuthKeyResponse.length_layout]
  cases bound : state.key with
  | none =>
    rw [layout_of_no_key bound, stepsField_eq (by decide)]
    simp [AuthKeyResponse.layout, Mark.layout]
  | some key =>
    have filling : 42 - (2 + key.path.length * 4) = 40 - 4 * key.path.length := by omega
    rw [layout_of_key bound, stepsField_eq key.depth_le]
    simp [AuthKeyResponse.layout, Mark.layout, filling]

end BakingState

namespace Device

/-- The device answers the input at once: it makes no call, and stays as it is. -/
def Tells (device : Device) (input : Input) (answer : Answer) : Prop :=
  ∀ exchanges given next, Happens device (.step input exchanges given) next ↔
    exchanges = [] ∧ given = some (.ok answer) ∧ next = device

variable {device : Device} {input : Input}

/-- A command that is performed without a call, and leaves the signer as it is, tells its answer. -/
theorem tells_of_performs {command : Command} {answer : Answer}
    (read : input.command? = some command)
    (performs : device.signer.perform (BakingState.decode device.record) command =
      pure (answer, device.signer)) : device.Tells input answer := by
  obtain ⟨signer, record⟩ := device
  intro exchanges given next
  rw [happens_command_iff read, performs]
  constructor
  · rintro ⟨outcome, yields, rfl, rfl⟩
    obtain ⟨rfl, rfl⟩ := Act.yields_pure_iff.1 yields
    exact ⟨rfl, rfl, rfl⟩
  · rintro ⟨rfl, rfl, rfl⟩
    exact ⟨_, Act.yields_pure_iff.2 ⟨rfl, rfl⟩, rfl, rfl⟩

theorem tells_authorizedKey (baking : device.signer.config.mode = .baking)
    (read : input.command? = some .queryAuthKey) :
    device.Tells input (.authorizedKey (BakingState.decode device.record).key) :=
  tells_of_performs read (by rw [Signer.perform, if_pos (by rw [baking]; rfl)])

theorem tells_highWaterMark (baking : device.signer.config.mode = .baking)
    (read : input.command? = some .queryHighWaterMark) :
    device.Tells input (.highWaterMark (BakingState.decode device.record).mark) :=
  tells_of_performs read (by rw [Signer.perform, if_pos (by rw [baking]; rfl)])

/-- Whatever record a baking device has, a host that queries it for the key and for the mark reads
the ones that the device reads off its record.  The record of a state is made of what would be
told about it. -/
theorem stored_told :
    (∀ (device : Device) (input : Input), device.signer.config.mode = .baking →
      input.command? = some .queryAuthKey →
        ∃ told size, device.Tells input told ∧ size ≤ 42 ∧
          ∀ buffer : Bytes, size ≤ buffer.length → ∃ written, told.write buffer = .ok written ∧
            written.length = size ∧
            AuthKeyResponse.decode written.content =
              .ok (⟨(BakingState.decode device.record).key⟩, size)) ∧
    (∀ (device : Device) (input : Input), device.signer.config.mode = .baking →
      input.command? = some .queryHighWaterMark →
        ∃ told, device.Tells input told ∧
          ∀ buffer : Bytes, 5 ≤ buffer.length → ∃ written, told.write buffer = .ok written ∧
            written.length = 5 ∧
            Mark.decode written.content = .ok ((BakingState.decode device.record).mark, 5)) ∧
    (∀ state : BakingState, state.encode.toList =
      AuthKeyResponse.layout ⟨state.key⟩ ++
        List.replicate (42 - (AuthKeyResponse.layout ⟨state.key⟩).length) 0 ++
          state.mark.layout ++ [0]) := by
  refine ⟨?_, ?_, BakingState.toList_encode_eq⟩
  · intro device input baking read
    have back := @AuthKeyResponse.readsBack ⟨(BakingState.decode device.record).key⟩
      fun _ bound => BakingState.key_decode_path bound
    have short := AuthKeyResponse.length_layout_le ⟨(BakingState.decode device.record).key⟩
    refine ⟨_, _, tells_authorizedKey baking read, short, ?_⟩
    intro buffer room
    obtain ⟨written, wrote, length, content⟩ := exists_written room
    refine ⟨written, wrote, length, ?_⟩
    rw [content]
    exact back.alone
  · intro device input baking read
    refine ⟨_, tells_highWaterMark baking read, ?_⟩
    intro buffer room
    obtain ⟨written, wrote, length, content⟩ := @exists_written buffer
      (BakingState.decode device.record).mark.layout room
    refine ⟨written, wrote, length, ?_⟩
    rw [content]
    exact (BakingState.decode device.record).mark.readsBack.alone

/-- An erased record holds no key, and that is what a host is told. -/
theorem erased_record_told :
    ∃ told size,
      (Device.boot { mode := .baking } (Vector.replicate 48 0xff)).Tells
        (.command .queryAuthKey) told ∧ size ≤ 42 ∧
      ∀ buffer : Bytes, size ≤ buffer.length → ∃ written, told.write buffer = .ok written ∧
        written.length = size ∧ AuthKeyResponse.decode written.content = .ok (⟨none⟩, size) :=
  stored_told.1 (.boot { mode := .baking } (Vector.replicate 48 0xff)) (.command .queryAuthKey)
    rfl rfl

end Device

end TezosSigner
