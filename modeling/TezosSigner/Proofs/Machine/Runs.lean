/-
Module: TezosSigner.Proofs.Machine.Runs
Purpose: Nothing that a device is given or told brings a machine to a fault.
Main exports:
  Signer.Steps.fits, Device.Run.fits, Machine.Reads, Machine.Writes, Machine.Obeys,
  Device.Run.obeyed, Machine.never_faults
-/
import TezosSigner.Proofs.Machine.Responses
import TezosSigner.Proofs.Machine.Steps
import TezosSigner.Proofs.SinglePacket

namespace TezosSigner

/-!
The codecs come to no fault on any bytes at all.  A step of the signer needs more than that: the
number of bytes that were absorbed already is added up, and this sum is safe only because the
message that a signer is receiving keeps to its buffer.  Every step sees to it that the next one
finds it so, whatever the platform replies.
-/

namespace Signer

variable {signer next : Signer} {record : Record} {state : BakingState}
  {exchanges : List Exchange}

/-- A signer that receives nothing has nothing that could be too long. -/
theorem fits_of_unheld (unheld : signer.session = none) : signer.Fits := by
  intro session held
  rw [unheld] at held
  cases held

/-- A session that was just started has no bytes yet. -/
theorem fits_of_started {instruction : Instruction} {key : KeyPath} {session : Session}
    (started : Session.start instruction key = .ok session)
    (held : signer.session = some session) : signer.Fits := by
  intro same holds
  rw [held] at holds
  cases holds
  unfold Session.start at started
  split at started
  · cases started
    exact Nat.zero_le _
  · cases started

/-- A session whose packet was taken keeps to its buffer, or is completed. -/
theorem TakesPacket.fits {instruction : Instruction} {control : PacketControl} {data : Bytes}
    {answer : Answer}
    (takes : signer.TakesPacket state instruction control data exchanges (.ok (answer, next))) :
    next.Fits := by
  generalize outcomeEq : Except.ok (answer, next) = outcome at takes
  cases takes with
  | refused => cases outcomeEq
  | overflowed _ _ => cases outcomeEq
  | collected continues takes more counts =>
    cases outcomeEq
    obtain ⟨_, _, read, _, appending⟩ := takes
    rintro _ ⟨⟩
    exact Session.length_pending_append appending
  | finished continues takes last completes =>
    rename_i completed
    cases completed with
    | error error => cases outcomeEq
    | ok completion =>
      cases completion with
      | answered given =>
        cases outcomeEq
        exact fits_of_unheld rfl
      | awaits pending =>
        cases outcomeEq
        exact fits_of_unheld rfl

/-- After a command that is obeyed, the session in progress keeps to its buffer. -/
theorem Performs.fits {command : Command} {answer : Answer} (fits : signer.Fits)
    (performs : signer.Performs state command exchanges (.ok (answer, next))) : next.Fits := by
  generalize outcomeEq : Except.ok (answer, next) = outcome at performs
  cases performs with
  | refused => cases outcomeEq
  | keyRefused _ => cases outcomeEq
  | signFirst available more started =>
    cases outcomeEq
    exact fits_of_started started rfl
  | signNext takes =>
    subst outcomeEq
    exact takes.fits
  | exporting _ _ | exported _ _ | authorizing _ _ | resetting _ _ =>
    cases outcomeEq
    exact fits_of_unheld rfl
  | none | queryAuthKey _ | queryHighWaterMark _ =>
    cases outcomeEq
    exact fits

/-- After every step, the session in progress keeps to its buffer. -/
theorem Steps.fits {input : Input} {answer : Option (Except SignerError Answer)}
    (steps : signer.Steps record input exchanges answer next) (before : signer.Fits) :
    next.Fits := by
  cases steps with
  | obeyed read performs => exact performs.fits before
  | confirmed waits performs => exact before
  | rejected waits => exact before
  | refused _ _ | unread _ | unconfirmed _ _ | unasked _ _ | reset => exact fits_of_unheld rfl

end Signer

namespace Device

variable {device next : Device} {config : Config} {record : Record} {history : List Happening}

theorem Happens.fits {happening : Happening} (before : device.signer.Fits)
    (happens : Happens device happening next) : next.signer.Fits := by
  cases happens with
  | step yields => exact (Signer.steps_of_yields yields).fits before
  | powerCut begins => exact Signer.fits_of_unheld rfl

/-- Whatever has happened, the session in progress keeps to its buffer. -/
theorem Run.fits (run : Run (.boot config record) history device) : device.signer.Fits := by
  refine Run.concat_induction (motive := fun _ device => device.signer.Fits) ?_ ?_ run
  · exact Signer.fits_of_unheld rfl
  · intro _ _ _ _ _ before happens
    exact happens.fits before

end Device

/-- A dialog that comes to no fault comes to the results that it should, and to nothing else. -/
theorem Risky.safely_yields_iff {Result : Type} {dialog : Dialog Result}
    {exchanges : List Exchange} {result : Checked Result} :
    (Risky.safely dialog).run.Yields exchanges result ↔
      ∃ value, result = .ok value ∧ dialog.Yields exchanges value := by
  constructor
  · intro yields
    obtain ⟨before, after, value, rfl, yields, more⟩ := Dialog.yields_bind_iff.1 yields
    obtain ⟨rfl, rfl⟩ := Dialog.yields_done_iff.1 more
    exact ⟨value, rfl, by rwa [List.append_nil]⟩
  · rintro ⟨value, rfl, yields⟩
    exact Dialog.yields_bind_iff.2
      ⟨exchanges, [], value, (List.append_nil exchanges).symm, yields, .done _⟩

namespace Machine

/-- Every byte string is read without a fault, and as it should be, whatever is read from it. -/
structure Reads (machine : Machine) : Prop where
  key : ∀ bytes, KeyPath.decodeOn machine bytes = .ok (KeyPath.decode bytes)
  publicKey : ∀ bytes,
    PublicKeyResponse.decodeOn machine bytes = .ok (PublicKeyResponse.decode bytes)
  reset : ∀ bytes, ResetRequest.decodeOn bytes = .ok (ResetRequest.decode bytes)
  authorizedKey : ∀ bytes,
    AuthKeyResponse.decodeOn machine bytes = .ok (AuthKeyResponse.decode bytes)
  mark : ∀ bytes, Mark.decodeOn bytes = .ok (Mark.decode bytes)
  signature : ∀ withHash bytes,
    SignatureResponse.decodeWithOn withHash bytes =
      .ok (SignatureResponse.decodeWith withHash bytes)
  payload : ∀ bytes, BakingPayload.ofBytesOn bytes = .ok (BakingPayload.ofBytes? bytes)
  command : ∀ instruction control payload,
    Command.decodeOn machine instruction control payload =
      .ok (Command.decode instruction control payload)
  record : ∀ record, BakingState.decodeOn machine record = .ok (BakingState.decode record)

/-- Everything is written without a fault, and as it should be, into a buffer of any size.  A
signature or a public key may have as many bytes as the machine can hold. -/
structure Writes (machine : Machine) : Prop where
  keyLength : ∀ key, KeyPath.lengthOn machine key = .ok (WireFormat.encodedLength key)
  key : ∀ key buffer, KeyPath.writeOn machine key buffer = .ok (WireFormat.write key buffer)
  data : ∀ data buffer, Request.writeDataOn data buffer = .ok (writeInto buffer data)
  reset : ∀ (request : ResetRequest) buffer,
    request.writeOn buffer = .ok (WireFormat.write request buffer)
  publicKeyLength : ∀ response : PublicKeyResponse, machine.Holds response.publicKey →
    response.lengthOn machine = .ok (WireFormat.encodedLength response)
  publicKey : ∀ (response : PublicKeyResponse) buffer,
    response.writeOn machine buffer = .ok (WireFormat.write response buffer)
  authorizedKeyLength : ∀ response : AuthKeyResponse,
    response.lengthOn machine = .ok (WireFormat.encodedLength response)
  authorizedKey : ∀ (response : AuthKeyResponse) buffer,
    response.writeOn machine buffer = .ok (WireFormat.write response buffer)
  mark : ∀ (mark : Mark) buffer, mark.writeOn buffer = .ok (WireFormat.write mark buffer)
  signatureLength : ∀ response : SignatureResponse, machine.Holds response.signature →
    response.lengthOn machine = .ok (WireFormat.encodedLength response)
  signature : ∀ response : SignatureResponse, machine.Holds response.signature →
    ∀ buffer, response.writeOn machine buffer = .ok (WireFormat.write response buffer)
  answer : ∀ answer : Answer,
    (∀ digest bytes, answer = .signature digest bytes → machine.Holds bytes) →
      ∀ buffer, answer.writeOn machine buffer = .ok (answer.write buffer)
  record : ∀ state : BakingState, state.encodeOn machine = .ok state.encode

/-- An input is taken without a fault, and as it should be, whatever the platform replies. -/
structure Obeys (machine : Machine) (device : Device) (input : Input) : Prop where
  same : device.signer.stepOn machine device.record input =
    Risky.safely (device.signer.step device.record input)
  unfailing : ∀ exchanges fault,
    ¬ (device.signer.stepOn machine device.record input).run.Yields exchanges (.error fault)

variable (machine : Machine)

theorem reads : machine.Reads where
  key := KeyPath.decodeOn_eq
  publicKey := PublicKeyResponse.decodeOn_eq
  reset := ResetRequest.decodeOn_eq
  authorizedKey := AuthKeyResponse.decodeOn_eq
  mark := Mark.decodeOn_eq
  signature := SignatureResponse.decodeWithOn_eq
  payload := BakingPayload.ofBytesOn_eq
  command := Command.decodeOn_eq
  record := BakingState.decodeOn_eq

theorem writes : machine.Writes where
  keyLength := KeyPath.lengthOn_eq
  key := KeyPath.writeOn_eq
  data := Request.writeDataOn_eq
  reset := ResetRequest.writeOn_eq
  publicKeyLength _ held := PublicKeyResponse.lengthOn_eq held
  publicKey := PublicKeyResponse.writeOn_eq
  authorizedKeyLength := AuthKeyResponse.lengthOn_eq
  authorizedKey := AuthKeyResponse.writeOn_eq
  mark := Mark.writeOn_eq
  signatureLength _ held := SignatureResponse.lengthOn_eq held
  signature _ held := SignatureResponse.writeOn_eq held
  answer _ held := Answer.writeOn_eq held
  record := BakingState.encodeOn_eq

end Machine

namespace Device

variable {device : Device} {config : Config} {record : Record} {history : List Happening}

/-- After every run, each input is taken without a fault. -/
theorem Run.obeyed (run : Run (.boot config record) history device) (machine : Machine)
    (input : Input) : machine.Obeys device input where
  same := Signer.stepOn_eq run.fits input
  unfailing exchanges fault yields := by
    rw [Signer.stepOn_eq run.fits] at yields
    obtain ⟨_, failed, _⟩ := Risky.safely_yields_iff.1 yields
    cases failed

end Device

/-- No machine comes to a fault: not by what it reads, not by what it writes, and not by any
input that a device takes after any run, power cuts included. -/
theorem Machine.never_faults (machine : Machine) :
    machine.Reads ∧ machine.Writes ∧
      ∀ (config : Config) (record : Record) (history : List Happening) (device : Device),
        Device.Run (.boot config record) history device →
          ∀ input, machine.Obeys device input :=
  ⟨machine.reads, machine.writes, fun _ _ _ _ run input => run.obeyed machine input⟩

/-- A machine with addresses of 32 bits writes a signature that it holds, and takes the consent of
the operator once they were asked about a transfer. -/
theorem Machine.consent_obeyed :
    (∀ buffer, SignatureResponse.writeOn ⟨32, by decide⟩ ⟨none, [0x5a, 0x5a]⟩ buffer =
      .ok (WireFormat.write (SignatureResponse.mk none [0x5a, 0x5a]) buffer)) ∧
    ∃ device, Device.Run (.boot { mode := .wallet } newBaker.encode)
        (Device.singlePacket .sign bakingKey transferBytes
          [⟨.parse bakingKey transferBytes Mode.wallet.acceptedTags, some transfer⟩] .pending)
        device ∧
      Machine.Obeys ⟨32, by decide⟩ device .confirm := by
  obtain ⟨_, writes, runs⟩ := Machine.never_faults ⟨32, by decide⟩
  have held : Machine.Holds ⟨32, by decide⟩ [0x5a, 0x5a] := by decide
  obtain ⟨_, _, run, _⟩ := Device.Run.signs_transfer
  exact ⟨writes.signature ⟨none, [0x5a, 0x5a]⟩ held, _, run, runs _ _ _ _ run .confirm⟩

end TezosSigner
