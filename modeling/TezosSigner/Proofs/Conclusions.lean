/-
Module: TezosSigner.Proofs.Conclusions
Purpose: A signature or a hash that is answered belongs to one signing request.
Main exports:
  Answer.Concludes, Happening.Concludes, Device.Reflects.concludes, Device.Run.concludes
-/
import TezosSigner.Proofs.Resumption

namespace TezosSigner

/-!
A device answers by a signature, or by a hash, on two occasions: the operator confirms a
finished signing request, or a baking device takes the only data packet of one.  Either way the
request can be found in the history, and what the answer holds is told by it alone.  The one
call for a signature comes first; all that may follow it is the store of the new mark.
-/

/-- An answer that a signing request ends with. -/
def Answer.Concludes : Answer → Prop
  | .signature _ _ => True
  | .hash _ => True
  | _ => False

/-- The request that a happening after this history concludes: the one that the operator
confirms, or the one whose last packet is taken. -/
def Happening.Concludes (mode : Mode) (history : List Happening) (happening : Happening)
    (request : SigningRequest) : Prop :=
  (happening.input = .confirm ∧ Submits mode history request) ∨
    (∃ control data, happening.accepted? = some (.signNext request.instruction control data)) ∧
      Submits mode (history ++ [happening]) request

/-- A happening concludes one request at most. -/
theorem Happening.Concludes.unique {mode : Mode} {history : List Happening}
    {happening : Happening} {one two : SigningRequest}
    (first : happening.Concludes mode history one)
    (second : happening.Concludes mode history two) : one = two := by
  have exclusive {request : SigningRequest} (confirms : happening.input = .confirm)
      (accepts : ∃ control data,
        happening.accepted? = some (.signNext request.instruction control data)) : False := by
    obtain ⟨control, data, accepted⟩ := accepts
    unfold accepted? at accepted
    split at accepted
    · cases confirms
      cases accepted
    · cases accepted
  rcases first with ⟨confirms, submits⟩ | ⟨accepts, submits⟩
  · rcases second with ⟨_, submits'⟩ | ⟨accepts, _⟩
    · exact submits.unique submits'
    · exact (exclusive confirms accepts).elim
  · rcases second with ⟨confirms, _⟩ | ⟨_, submits'⟩
    · exact (exclusive confirms accepts).elim
    · exact submits.unique submits'

/-- A request that is answered is answered alike with whatever exchanges its packet is noted. -/
theorem Question.Confirmed.of_packet {state : BakingState} {instruction : Instruction}
    {key : KeyPath} {control : PacketControl} {data : Bytes} {before after made : List Exchange}
    {answer : Answer}
    (confirmed : (Question.sign
      { instruction := instruction
        key := key
        packets := [{ control := control, data := data, exchanges := before }] }).Confirmed state
          made answer) :
    (Question.sign
      { instruction := instruction
        key := key
        packets := [{ control := control, data := data, exchanges := after }] }).Confirmed state
          made answer := by
  have wants : ∀ exchanges, SigningRequest.WantsHash
      { instruction := instruction
        key := key
        packets := [{ control := control, data := data, exchanges := exchanges }] } ↔
      instruction ≠ .signUnsafe ∧ control.kind = .hashOnlyNext := by
    intro exchanges
    simp [SigningRequest.WantsHash]
  cases confirmed with
  | hash flagged => exact .hash ((wants after).2 ((wants before).1 flagged))
  | sign signs => exact .sign fun flagged => signs ((wants before).2 ((wants after).1 flagged))

/-- A signature is made by one call, on the bytes that the request says. -/
theorem Question.Confirmed.of_signature {state : BakingState} {request : SigningRequest}
    {exchanges : List Exchange} {digest : Option Digest} {bytes : Bytes}
    (confirmed : (Question.sign request).Confirmed state exchanges (.signature digest bytes)) :
    ∃ reply, exchanges = [⟨.sign request.key request.toSign, .ok reply⟩] ∧
      bytes = reply.signature request.key.curve ∧ digest = request.sentHash? := by
  cases confirmed with
  | sign signs => exact ⟨_, rfl, rfl, rfl⟩

namespace Device

variable {device next : Device} {progress : Progress} {input : Input} {exchanges : List Exchange}
  {answer : Answer}

/-- Of the answers to a data packet, only those of a baking device conclude a request, which
consists of that packet. -/
theorem Reflects.concludes_packet {instruction : Instruction} {control : PacketControl}
    {data : Bytes} {after : Signer} (reflects : device.Reflects progress)
    (takes : device.signer.TakesPacket (BakingState.decode device.record) instruction control
      data exchanges (.ok (answer, after)))
    (concludes : answer.Concludes) :
    ∃ key, progress = .receiving { instruction := instruction, key := key, packets := [] } ∧
      control.last = true ∧ instruction.isSigning = true ∧
      ∃ front record reply, exchanges = front ++ [⟨.store record, reply⟩] ∧
        ∀ made, (Question.sign
          { instruction := instruction
            key := key
            packets := [{ control := control, data := data, exchanges := made }] }).Confirmed
              (BakingState.decode device.record) front answer := by
  generalize outcomeEq : Except.ok (answer, after) = outcome at takes
  cases takes with
  | refused => cases outcomeEq
  | overflowed _ _ => cases outcomeEq
  | collected _ _ _ _ =>
    cases outcomeEq
    exact concludes.elim
  | finished continues takes last completes =>
    rename_i session taken before rest outcome
    cases outcome with
    | error error => cases outcomeEq
    | ok completion =>
      cases completion with
      | awaits pending =>
        cases outcomeEq
        exact concludes.elim
      | answered given =>
        cases outcomeEq
        rcases Mode.complete_stores completes with
          ⟨_, unanswered⟩ | ⟨baking, _, front, _, reply, vouched, signs, rfl, same⟩
        · exact absurd rfl (unanswered answer)
        cases reply with
        | error error => cases same
        | ok done =>
          cases same
          rw [baking] at takes
          -- What the state vouches for is classified without a call.
          have kind : taken.magic.isBaking = true := by simpa using vouched.kind
          cases takes.eq_nil_of_isBaking kind
          obtain ⟨key, same, _, carries, _⟩ := reflects.takes_only baking continues takes
          have signing := carries.signing
          rw [carries.instruction] at signing
          exact ⟨key, same, last, signing, front, _, _, rfl, fun made =>
            (carries.confirmed signs).of_packet⟩

/-- A signature or a hash is the answer to a request that was under way and is complete. -/
theorem Reflects.concludes {after : Signer} (reflects : device.Reflects progress)
    (steps : device.signer.Steps device.record input exchanges (some (.ok answer)) after)
    (concludes : answer.Concludes) :
    ∃ request front rest, request.IsComplete ∧ request.instruction.isSigning = true ∧
      exchanges = front ++ rest ∧ (∀ exchange ∈ rest, exchange.Unsigning) ∧
      (Question.sign request).Confirmed (BakingState.decode device.record) front answer ∧
      (input = .confirm ∧ progress = .signing request ∨
        ∃ instruction key control data,
          input.command? = some (.signNext instruction control data) ∧
          progress = .receiving { instruction := instruction, key := key, packets := [] } ∧
          request =
            { instruction := instruction
              key := key
              packets := [{ control := control, data := data, exchanges := exchanges }] }) := by
  generalize givenEq : some (Except.ok answer) = given at steps
  cases steps with
  | obeyed read performs =>
    cases givenEq
    generalize outcomeEq : Except.ok (answer, after) = outcome at performs
    cases performs with
    | signNext takes =>
      cases outcomeEq
      obtain ⟨key, same, last, signing, front, record, reply, rfl, confirmed⟩ :=
        reflects.concludes_packet takes concludes
      refine ⟨_, front, [⟨.store record, reply⟩], ⟨[], _, rfl, by simp, last⟩, signing, rfl, ?_,
        confirmed _, .inr ⟨_, key, _, _, read, same, rfl⟩⟩
      intro exchange member other message signed impossible
      cases (List.mem_singleton.1 member).symm.trans impossible
    | refused => cases outcomeEq
    | keyRefused _ => cases outcomeEq
    | _ =>
      cases outcomeEq
      exact concludes.elim
  | @confirmed pending _ _ waits performs =>
    cases givenEq
    obtain ⟨prompt, action⟩ := pending
    generalize outcomeEq : Except.ok answer = outcome at performs
    cases performs with
    | sign signs =>
      cases outcomeEq
      obtain ⟨request, unfinished, same, rfl, carries, complete, _⟩ := reflects.consented waits
      have signing := carries.signing
      rw [carries.instruction] at signing
      exact ⟨request, exchanges, [], complete, signing, (List.append_nil _).symm, by simp,
        carries.confirmed signs, .inl ⟨rfl, same⟩⟩
    | exportKey =>
      cases outcomeEq
      exact concludes.elim
    | unbound _ => cases outcomeEq
    | @authorize _ _ reply _ =>
      cases reply <;> cases outcomeEq
      exact concludes.elim
    | unmoved _ => cases outcomeEq
    | @reset _ reply _ =>
      cases reply <;> cases outcomeEq
      exact concludes.elim
  | rejected _ =>
    cases givenEq
    exact concludes.elim
  | _ => cases givenEq

/-- A signature or a hash is the answer to a request that the history ends with.  The answer is
what the request says, and no call for a signature is made but the one for it. -/
theorem Run.concludes {config : Config} {record : Record} {history : List Happening}
    (run : Run (.boot config record) history device)
    (happens : Happens device (.step input exchanges (some (.ok answer))) next)
    (concludes : answer.Concludes) :
    ∃ request front rest,
      (Happening.step input exchanges (some (.ok answer))).Concludes config.mode history request ∧
      request.IsComplete ∧ request.instruction.isSigning = true ∧ exchanges = front ++ rest ∧
      (∀ exchange ∈ rest, exchange.Unsigning) ∧
      (Question.sign request).Confirmed (BakingState.decode device.record) front answer := by
  obtain ⟨_, reflects⟩ := run.reflects
  obtain ⟨request, front, rest, complete, signing, split, unsigning, confirmed, occasion⟩ :=
    reflects.concludes happens.steps.1 concludes
  refine ⟨request, front, rest, ?_, complete, signing, split, unsigning, confirmed⟩
  rcases occasion with ⟨rfl, same⟩ | ⟨instruction, key, control, data, read, same, rfl⟩
  · exact .inl ⟨rfl, run.submits request (by rw [same]; rfl)⟩
  · have opened := run.submits { instruction := instruction, key := key, packets := [] }
      (by rw [same]; rfl)
    exact .inr ⟨⟨control, data, read⟩, opened.pushed read⟩

end Device

end TezosSigner
