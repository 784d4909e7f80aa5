/-
Module: TezosSigner.Proofs.Isolation
Purpose: Whatever a device did before, a request that begins something new makes it forget.
Main exports:
  Input.restarts, Signer.step_eq_of_restarts, Device.Happens.of_restarts, Device.Run.isolated
-/
import TezosSigner.Proofs.Play
import TezosSigner.Proofs.Refusals
import TezosSigner.Proofs.SinglePacket

namespace TezosSigner

/-!
The past of a device is in its signer and in its record.  A request that begins something new
replaces all of the signer but its configuration, and so does its refusal, wherever it is
refused: before the command is read, where the mode does not allow it, or by the platform.  Two
devices of one configuration and one record are therefore the same device once they have taken
such a request, with whatever calls they have made for it.
-/

/-- An input that begins something new, that cannot be read, or that resets the signer. -/
def Input.restarts : Input → Bool
  | .apdu received =>
      match Command.ofApdu received with
      | .ok given => given.begins
      | .error _ => true
  | .command given => given.begins
  | .confirm => false
  | .reject => false
  | .reset => true

namespace Signer

variable {signer other : Signer}

/-- Of the signer that is given a command that begins something new, only the configuration
matters. -/
theorem perform_eq_of_begins {command : Command} (config : signer.config = other.config)
    (begins : command.begins = true) (state : BakingState) :
    signer.perform state command = other.perform state command := by
  obtain ⟨configuration, status, session, pending⟩ := signer
  obtain ⟨_, otherStatus, otherSession, otherPending⟩ := other
  cases config
  -- Each of these builds the signer that it leaves out of the configuration alone, so that both
  -- sides compute to the same act.
  cases command with
  | signFirst instruction key control => rfl
  | getPublicKey key => rfl
  | authorizeBaking key => rfl
  | resetHighWaterMark level => rfl
  | _ => cases begins

theorem abort_eq (config : signer.config = other.config) : signer.abort = other.abort := by
  simp only [abort, discard, config]

theorem update_eq_of_begins {command : Command} (config : signer.config = other.config)
    (begins : command.begins = true) (state : BakingState) :
    signer.update state command = other.update state command := by
  simp only [update, settle, perform_eq_of_begins config begins, abort_eq config]

/-- The whole step is the same dialog, the calls, the answer and the signer that is left
included. -/
theorem step_eq_of_restarts {input : Input} (config : signer.config = other.config)
    (restarts : input.restarts = true) (record : Record) :
    signer.step record input = other.step record input := by
  cases input with
  | apdu received =>
    unfold Input.restarts at restarts
    cases readEq : Command.ofApdu received with
    | ok command =>
      simp only [readEq] at restarts
      simp only [step, handleApdu, readEq, update_eq_of_begins config restarts]
    | error error => simp only [step, handleApdu, readEq, abort_eq config]
  | command command => simp only [step, update_eq_of_begins config restarts]
  | confirm => cases restarts
  | reject => cases restarts
  | reset => simp only [step, reset, discard, config]

end Signer

namespace Device

variable {device other next : Device}

/-- Whatever can happen to one of two devices that take the request can happen to the other, a
power cut included, and leaves it in the same state. -/
theorem Happens.of_restarts {happening : Happening}
    (config : device.signer.config = other.signer.config) (record : device.record = other.record)
    (restarts : happening.input.restarts = true) (happens : Happens device happening next) :
    Happens other happening next := by
  have same := Signer.step_eq_of_restarts config restarts device.record
  obtain ⟨signer, stored⟩ := other
  cases record
  cases happens with
  | step yields => exact .step (same ▸ yields)
  | powerCut begins =>
    dsimp only at config
    rw [config]
    exact .powerCut (same ▸ begins)

/-- On one platform, the two devices make the same calls and give the same answers from the
request on, and they are the same device after each step. -/
theorem play_eq_of_restarts {request : Input}
    (config : device.signer.config = other.signer.config) (record : device.record = other.record)
    (restarts : request.restarts = true) (platform : Platform) (earlier : List Call)
    (inputs : List Input) :
    device.play platform earlier (request :: inputs) =
      other.play platform earlier (request :: inputs) := by
  simp only [play, record, Signer.step_eq_of_restarts config restarts]

/-- Two devices of one configuration that have come to the same record, each in its own way, do
not differ once they take the same request: not on any platform that is the same for both, and
not in what they could do on another. -/
theorem Run.isolated {config : Config} {start otherStart : Record}
    {history otherHistory : List Happening} {request : Input}
    (run : Run (.boot config start) history device)
    (otherRun : Run (.boot config otherStart) otherHistory other)
    (record : device.record = other.record) (restarts : request.restarts = true) :
    (∀ platform inputs, device.play platform [] (request :: inputs) =
      other.play platform [] (request :: inputs)) ∧
    ∀ happening rest last, happening.input = request →
      (Run device (happening :: rest) last ↔ Run other (happening :: rest) last) := by
  have same : device.signer.config = other.signer.config :=
    run.reflects.1.trans otherRun.reflects.1.symm
  refine ⟨fun platform inputs => play_eq_of_restarts same record restarts platform [] inputs, ?_⟩
  rintro happening rest last rfl
  constructor
  · intro later
    cases later with
    | cons head tail => exact .cons (head.of_restarts same record restarts) tail
  · intro later
    cases later with
    | cons head tail => exact .cons (head.of_restarts same.symm record.symm restarts) tail

/-- A wallet that waits for the operator to consent to a transfer and one that has just started
do not differ once a request is opened. -/
theorem Run.pending_transfer_isolated :
    ∃ device, Run (.boot { mode := .wallet } newBaker.encode)
        (singlePacket .sign bakingKey transferBytes
          [⟨.parse bakingKey transferBytes Mode.wallet.acceptedTags, some transfer⟩] .pending)
        device ∧
      device.record = newBaker.encode ∧ (Input.apdu openingPacket).restarts = true ∧
      (∀ platform inputs, device.play platform [] (.apdu openingPacket :: inputs) =
        (boot { mode := .wallet } newBaker.encode).play platform []
          (.apdu openingPacket :: inputs)) ∧
      ∀ happening rest last, happening.input = .apdu openingPacket →
        (Run device (happening :: rest) last ↔
          Run (.boot { mode := .wallet } newBaker.encode) (happening :: rest) last) := by
  obtain ⟨_, _, run, _⟩ := Run.signs_transfer
  exact ⟨_, run, rfl, rfl, run.isolated (.nil _) rfl rfl⟩

end Device

end TezosSigner
