/-
Module: TezosSigner.Signer.Step
Purpose: The signer itself: its state, and what each input does to it.
Main exports: Status, Signer, Signer.boot, Signer.perform, Signer.update, Signer.confirm,
  Signer.reject, Signer.reset, Input, Signer.step
-/
import TezosSigner.Command
import TezosSigner.Signer.Policy

namespace TezosSigner

/-!
A signer holds at most one session or one pending request.  It is told what to do by
commands from the host, and by the operator, who confirms or rejects what is pending.

All of it is volatile: after a power cut the signer boots anew, over the baking
record that the platform has kept.  The record is therefore no part of the signer;
each step is given the record as it stands, and changes it only by asking the
platform to store another.

Any refusal aborts: no session and nothing pending is left, so nothing can be resumed
half-way.
-/

/-- What the signer is doing. -/
inductive Status where
  /-- Nothing. -/
  | idle
  /-- Receiving a message, of which so many data packets have come. -/
  | receiving (packets : UInt8)
  /-- Waiting for the operator. -/
  | pending
  /-- The last request was answered. -/
  | complete
  /-- The last request was rejected by the operator. -/
  | rejected
  /-- The last request was refused. -/
  | error
deriving Repr, Inhabited, DecidableEq

namespace Status

/-- Statuses are named without the number of packets. -/
instance : Labelled Status where
  all := [.idle, .receiving 0, .pending, .complete, .rejected, .error]
  label
    | .idle => "Idle"
    | .receiving _ => "Receiving"
    | .pending => "Pending"
    | .complete => "Complete"
    | .rejected => "Rejected"
    | .error => "Error"

/-- A status as text, with the number of packets. -/
def text (status : Status) : String :=
  match status with
  | .receiving packets => s!"{Labelled.label status}({packets.toNat})"
  | _ => Labelled.label status

end Status

/-- The volatile state of a device. -/
structure Signer where
  config : Config
  status : Status
  /-- The session in progress. -/
  session : Option Session
  /-- The request that waits for the operator. -/
  pending : Option Pending
deriving Repr, DecidableEq

namespace Signer

/-- The signer as it starts. -/
def boot (config : Config) : Signer :=
  { config := config, status := .idle, session := none, pending := none }

/-- Drop the session and the pending request. -/
def discard (signer : Signer) : Signer :=
  { signer with session := none, pending := none }

/-- Drop everything after a refusal. -/
def abort (signer : Signer) : Signer :=
  { signer.discard with status := .error }

/-- Drop everything, as if just started. -/
def reset (signer : Signer) : Signer :=
  { signer.discard with status := .idle }

/-- Wait for the operator. -/
def suspend (signer : Signer) (pending : Pending) : Answer × Signer :=
  (.pending, { signer with pending := some pending, status := .pending })

/-- The public key of a path; the platform may not report more than its room
holds. -/
def fetchPublicKey (key : KeyPath) : Act Bytes := do
  let reply ← Act.publicKey key
  if reply.length ≤ maxPublicKey then
    pure (reply.buffer.toList.take reply.length)
  else
    throw .memoryError

/-- Open a session in place of anything in progress.  The first packet carries no
data, so it cannot be the last. -/
def signFirst (signer : Signer) (instruction : Instruction) (key : KeyPath)
    (control : PacketControl) : Act (Answer × Signer) :=
  if control.last then
    throw .wrongParameter
  else do
    let session ← Act.ofExcept (Session.start instruction key)
    pure (.none, { signer.discard with session := some session, status := .receiving 0 })

/-- Take a data packet, and complete the session after the last one.  The session is there to be
completed, since it has just taken the packet. -/
def signNext (signer : Signer) (state : BakingState) (instruction : Instruction)
    (control : PacketControl) (data : Bytes) : Act (Answer × Signer) :=
  if control.kind = .hashOnlyNext ∧ signer.config.mode ≠ .wallet then
    throw .wrongParameter
  else
    match signer.session with
    | none => throw .parseError
    | some session =>
        if session.instruction ≠ instruction then
          throw .parseError
        else do
          let (counted, session) := session.nextPacket control.kind
          let packet ← Act.ofExcept counted
          let session ← signer.config.mode.classify session packet data
          let (appended, session) := session.append data
          Act.ofExcept appended
          if control.last then
            match ← signer.config.mode.complete state session.finish with
            | .answered answer =>
                pure (answer, { signer with session := none, status := .complete })
            | .awaits pending => pure ({ signer with session := none }.suspend pending)
          else
            pure (.none, { signer with session := some session, status := .receiving packet })

/-- Do what a command says, given the baking state. -/
def perform (signer : Signer) (state : BakingState) (command : Command) :
    Act (Answer × Signer) :=
  if command.isAvailable signer.config.mode then
    match command with
    | .none => pure (.none, signer)
    | .signFirst instruction key control => signer.signFirst instruction key control
    | .signNext instruction control data => signer.signNext state instruction control data
    | .getPublicKey key => do
        let publicKey ← fetchPublicKey key
        if signer.config.promptPublicKey then
          pure (signer.discard.suspend
            { prompt := Prompt.providePublicKey publicKey, action := .exportKey publicKey })
        else
          pure (.publicKey publicKey, { signer.discard with status := .complete })
    | .authorizeBaking key => do
        let publicKey ← fetchPublicKey key
        pure (signer.discard.suspend
          { prompt := Prompt.authorizeBaking publicKey, action := .authorize key publicKey })
    | .resetHighWaterMark level =>
        if isValidLevel level then
          pure (signer.discard.suspend
            { prompt := Prompt.resetHighWaterMark level, action := .reset level })
        else
          throw .wrongParameter
    | .queryAuthKey => pure (.authorizedKey state.key, signer)
    | .queryHighWaterMark => pure (.highWaterMark state.mark, signer)
  else
    throw .invalidInstruction

/-- Finish a step: take over the signer it leaves, or abort where it was refused. -/
def settle (signer : Signer) (act : Act (Answer × Signer)) :
    Dialog (Except SignerError Answer × Signer) := do
  match ← act.run with
  | .ok (answer, next) => pure (.ok answer, next)
  | .error error => pure (.error error, signer.abort)

/-- Obey a command. -/
def update (signer : Signer) (state : BakingState) (command : Command) :
    Dialog (Except SignerError Answer × Signer) :=
  signer.settle (signer.perform state command)

/-- Obey a command as it arrives. -/
def handleApdu (signer : Signer) (state : BakingState) (apdu : Apdu) :
    Dialog (Except SignerError Answer × Signer) :=
  match Command.ofApdu apdu with
  | .ok command => signer.update state command
  | .error error => pure (.error error, signer.abort)

/-- Do what is pending, as the operator has consented. -/
def confirm (signer : Signer) (state : BakingState) :
    Dialog (Except SignerError Answer × Signer) :=
  match signer.pending with
  | none => pure (.error .invalidState, signer.abort)
  | some pending =>
      signer.settle do
        let answer ← pending.action.perform state
        pure (answer, { signer with pending := none, status := .complete })

/-- Drop what is pending, as the operator wants. -/
def reject (signer : Signer) : Except SignerError Answer × Signer :=
  match signer.pending with
  | none => (.error .invalidState, signer.abort)
  | some _ => (.ok .rejected, { signer with pending := none, status := .rejected })

end Signer

/-- Everything that can happen to a signer. -/
inductive Input where
  /-- A command arrives from the host. -/
  | apdu (apdu : Apdu)
  /-- A command is given that was read elsewhere. -/
  | command (command : Command)
  /-- The operator confirms. -/
  | confirm
  /-- The operator rejects. -/
  | reject
  /-- The signer is reset. -/
  | reset
deriving Repr, DecidableEq

/-- One step of a signer over the record as it stands.  All but a reset have an
answer. -/
def Signer.step (signer : Signer) (record : Record) :
    Input → Dialog (Option (Except SignerError Answer) × Signer)
  | .apdu apdu => do
      let (answer, next) ← signer.handleApdu (BakingState.decode record) apdu
      pure (some answer, next)
  | .command command => do
      let (answer, next) ← signer.update (BakingState.decode record) command
      pure (some answer, next)
  | .confirm => do
      let (answer, next) ← signer.confirm (BakingState.decode record)
      pure (some answer, next)
  | .reject => do
      let (answer, next) := signer.reject
      pure (some answer, next)
  | .reset => pure (none, signer.reset)

end TezosSigner
