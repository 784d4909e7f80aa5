/-
Module: TezosSigner.Proofs.Authorization
Purpose: Whatever a baking device has signed was authorized when the platform was called.
Main exports: Device.Authorizes, Device.Run.signature_authorized
-/
import TezosSigner.Proofs.SinglePacket

namespace TezosSigner

/-!
A baking device signs with a key that it was told to trust, and on two occasions only.  The
statement is about the call itself, so it covers calls that fail and calls that power is
lost after.  The self-delegation is guarded when its packet comes and signed when the
operator confirms; nothing that may happen in between touches the record or puts another
session in its place.
-/

namespace Device

/-- What stands behind a call for a signature on the hash of `data`: the one data packet of a
request of `history`, which has just come or was shown to the operator. -/
inductive Authorizes (device : Device) (history : List Happening) (happening : Happening)
    (mark : Mark) (instruction : Instruction) (key : KeyPath) (data : Bytes) : Prop where
  /-- The packet has just come, and holds a block or an endorsement beyond the mark. -/
  | advance {payload : BakingPayload}
      (came : happening.command? =
        some (.signNext instruction { kind := .next, last := true } data))
      (opened : Submits .baking history { instruction := instruction, key := key, packets := [] })
      (holds : BakingPayload.ofBytes? data = some payload)
      (wellFormed : payload.mark.level &&& 0xC0000000 = 0) (above : mark < payload.mark)
  /-- The operator was shown the delegation of the key to itself, and confirms. -/
  | selfDelegation {group : OperationGroup} {pending : Pending}
      (confirms : happening.input = .confirm)
      (submitted : Submits .baking history
        { instruction := instruction
          key := key
          packets := [{
            control := { kind := .next, last := true }
            data := data
            exchanges := [⟨.parse key data Mode.baking.acceptedTags, some group⟩] }] })
      (kind : data.head? = some 0x03)
      (delegation : group.operation.tag.isDelegation = true)
      (source : group.operation.source = group.signing)
      (destination : group.operation.destination = some group.signing)
      (waits : device.signer.pending = some pending)
      (shown : pending.prompt = Prompt.registerDelegate group)

variable {device next : Device} {history : List Happening} {happening : Happening} {mark : Mark}
  {key : KeyPath} {message : Bytes}

/-- A call for a signature on `message` under `key`, made over `state`, is for the hash of
`data`, under the authorized key, and with good reason. -/
def Justifies (device : Device) (history : List Happening) (happening : Happening)
    (state : BakingState) (key : KeyPath) (message data : Bytes) : Prop :=
  ∃ instruction, (instruction = .sign ∨ instruction = .signWithHash) ∧
    message = (Blake2b.hash data).toList ∧ state.key = some key ∧ key.path ≠ [] ∧
    device.Authorizes history happening state.mark instruction key data

/-- There is only one data packet that a call can be about. -/
theorem Authorizes.data_unique {one two : Instruction} {first second : Bytes}
    (left : device.Authorizes history happening mark one key first)
    (right : device.Authorizes history happening mark two key second) : first = second := by
  cases left with
  | advance came opened holds wellFormed above =>
    cases right with
    | advance came' =>
      rw [came] at came'
      cases came'
      rfl
    | selfDelegation confirms =>
      rw [Happening.command?, confirms] at came
      cases came
  | selfDelegation confirms submitted =>
    cases right with
    | advance came' =>
      rw [Happening.command?, confirms] at came'
      cases came'
    | selfDelegation _ submitted' =>
      have same := submitted.unique submitted'
      simp only [SigningRequest.mk.injEq, List.cons.injEq, DataPacket.mk.injEq] at same
      exact same.2.2.1.2.1

/-- A block or an endorsement is signed because its packet is beyond the mark. -/
theorem Reflects.authorizes_of_vouched {progress : Progress} {instruction : Instruction}
    {control : PacketControl} {data : Bytes} {session taken : Session} {payload : BakingPayload}
    (reflects : device.Reflects progress)
    (submitted : ∀ request, progress.request? = some request →
      Submits .baking history request)
    (baking : device.signer.config.mode = .baking)
    (came : happening.command? = some (.signNext instruction control data))
    (continues : device.signer.Continues instruction control session)
    (takes : session.Takes .baking control data [] taken) (last : control.last = true)
    (vouched : (BakingState.decode device.record).Vouches taken.finish payload)
    (asked : taken.finish.toSign? = some message) :
    (instruction = .sign ∨ instruction = .signWithHash) ∧
      message = (Blake2b.hash data).toList ∧
      device.Authorizes history happening (BakingState.decode device.record).mark instruction
        taken.finish.key data := by
  obtain ⟨key, rfl, kind, carried, understands⟩ := reflects.takes_only baking continues takes
  -- It is the first packet and marked as the last, so its bytes are the whole message.
  obtain ⟨_, _⟩ := control
  cases kind
  cases last
  have parsed : taken.parsed = .baking payload := by simpa using vouched.parsed
  have holds : BakingPayload.ofBytes? data = some payload := understands.ofBytes? parsed
  have permits := BakingState.permits_iff.1 vouched.permitted
  have sameKey : taken.finish.key = key := by simpa using carried.key
  rw [sameKey]
  refine ⟨carried.isHashing_iff.1 (carried.baking rfl).1, carried.eq_hash_of_single asked, ?_⟩
  exact .advance came (submitted _ rfl) holds ((isValidLevel_iff _).1 permits.1) permits.2

/-- A self-delegation is signed because the operator was shown it. -/
theorem Reflects.authorizes_of_consented {progress : Progress} {prompt : Prompt}
    {session : Session} (reflects : device.Reflects progress)
    (submitted : ∀ request, progress.request? = some request → Submits .baking history request)
    (baking : device.signer.config.mode = .baking) (confirms : happening.input = .confirm)
    (waits : device.signer.pending = some { prompt := prompt, action := .sign session })
    (asked : session.toSign? = some message) :
    (BakingState.decode device.record).authorizes session.key = true ∧
      ∃ data instruction, (instruction = .sign ∨ instruction = .signWithHash) ∧
        message = (Blake2b.hash data).toList ∧
        device.Authorizes history happening (BakingState.decode device.record).mark instruction
          session.key data := by
  obtain ⟨request, unfinished, rfl, rfl, carries, complete, shown⟩ := reflects.consented waits
  rw [baking] at carries shown
  obtain ⟨group, kind, parsed, authorized, selfDelegation, rfl⟩ := shown
  obtain ⟨data, exchanges, alone, understands⟩ := carries.single complete
  obtain ⟨instruction, key, packets⟩ := request
  cases alone
  have sameKey : unfinished.finish.key = key := by simpa using carries.key
  have read : exchanges = [⟨.parse key data Mode.baking.acceptedTags, some group⟩] := by
    have made := understands.exchanges (by simpa using parsed)
    rw [carries.key] at made
    exact made
  subst read
  have magic : Magic.ofPayload data = .unsafeOp := by
    have same : unfinished.magic = Magic.ofPayload data := understands.1
    rw [← same]
    simpa using kind
  have leading : data.head? = some 0x03 := by
    rw [Magic.head?_of_ofPayload (by simp [magic]), magic]
    rfl
  simp only [OperationGroup.isSelfDelegation, Bool.and_eq_true, beq_iff_eq] at selfDelegation
  obtain ⟨⟨delegation, source⟩, destination⟩ := selfDelegation
  refine ⟨authorized, data, instruction, carries.isHashing_iff.1 (carries.baking rfl).1,
    carries.eq_hash_of_single asked, ?_⟩
  rw [sameKey]
  exact .selfDelegation confirms (submitted _ rfl) leading delegation source destination waits
    rfl

/-- Whenever a baking device calls for a signature, there is exactly one data packet that
justifies the call, over the record as it stands at that moment. -/
theorem Run.signature_authorized {config : Config} {record : Record}
    {reply : Except SignerError SignReply} {before after : List Exchange}
    (run : Run (.boot config record) history device) (happens : Happens device happening next)
    (baking : config.mode = .baking)
    (call : happening.exchanges = before ++ ⟨.sign key message, reply⟩ :: after) :
    ∃! data, device.Justifies history happening
      (BakingState.decode (device.record.after before)) key message data := by
  obtain ⟨sameConfig, reflects⟩ := run.reflects
  have submitted := run.submits
  rw [baking] at submitted
  have sameMode : device.signer.config.mode = .baking := by rw [sameConfig, baking]
  obtain ⟨rfl, occasion⟩ := happens.occasion call
  have stands : device.record.after [] = device.record := rfl
  rw [stands]
  have authorized : (BakingState.decode device.record).authorizes key = true ∧
      ∃ data instruction, (instruction = .sign ∨ instruction = .signWithHash) ∧
        message = (Blake2b.hash data).toList ∧
        device.Authorizes history happening (BakingState.decode device.record).mark instruction
          key data := by
    cases occasion with
    | @vouched instruction control data session taken payload _ came continues takes last vouched
        sameKey asked =>
      subst sameKey
      have reason := reflects.authorizes_of_vouched submitted sameMode came continues takes last
        vouched asked
      exact ⟨vouched.authorized, data, instruction, reason⟩
    | consented confirms waits sameKey asked =>
      subst sameKey
      exact reflects.authorizes_of_consented submitted sameMode confirms waits asked
  obtain ⟨trusted, data, instruction, signing, hashed, reason⟩ := authorized
  obtain ⟨bound, steps⟩ := BakingState.authorizes_iff.1 trusted
  refine ⟨data, ⟨instruction, signing, hashed, bound, steps, reason⟩, ?_⟩
  rintro other ⟨_, _, _, _, _, otherReason⟩
  exact otherReason.data_unique reason

/-- The first block of a new baker is signed with good reason. -/
theorem Run.first_block_authorized :
    ∃ history device next happening after,
      Run (.boot { mode := .baking } newBaker.encode) history device ∧
      Happens device happening next ∧
      happening.exchanges = [] ++
        ⟨.sign bakingKey (Blake2b.hash (blockHeader mainChain 1 0)).toList,
          .ok signedReply⟩ :: after ∧
      ∃! data, device.Justifies history happening (BakingState.decode (device.record.after []))
        bakingKey (Blake2b.hash (blockHeader mainChain 1 0)).toList data := by
  obtain ⟨_, opens, signs⟩ := run_pair_iff.1 Run.bakes_first
  exact ⟨_, _, _, _, _, .single opens, signs, rfl,
    (Run.single opens).signature_authorized signs rfl rfl⟩

end Device

end TezosSigner
