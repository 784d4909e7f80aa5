/-
Module: TezosSigner.Proofs.Counterparts
Purpose: A signer that is sent the other of the two instructions that sign a hash.
Main exports:
  Instruction.counterpart, Input.counterpart, Signer.counterpart, Answer.SameButHash,
  Signer.step_counterpart
-/
import TezosSigner.Proofs.Parallel

namespace TezosSigner

/-!
Two instructions sign the hash of a message, and one of them returns that hash too.  Replacing
each by the other, in every packet, gives the `counterpart` of what a host sends.  A signer that
is sent the counterpart of an input is at every moment the counterpart of the signer that is
sent the input itself: its sessions, and what waits for the operator, carry the other
instruction and are otherwise the same.  So the two go in parallel through every step, and
differ only in the hash beside a signature.
-/

namespace Instruction

/-- The other of the two instructions that sign a hash; every other instruction is left
alone. -/
def counterpart : Instruction → Instruction
  | .sign => .signWithHash
  | .signWithHash => .sign
  | other => other

@[simp] theorem counterpart_counterpart (instruction : Instruction) :
    instruction.counterpart.counterpart = instruction := by
  cases instruction <;> rfl

theorem counterpart_inj {one two : Instruction} :
    one.counterpart = two.counterpart ↔ one = two := by
  constructor
  · intro same
    rw [← counterpart_counterpart one, same, counterpart_counterpart]
  · exact congrArg counterpart

@[simp] theorem isSigning_counterpart (instruction : Instruction) :
    instruction.counterpart.isSigning = instruction.isSigning := by
  cases instruction <;> rfl

@[simp] theorem counterpart_beq_signUnsafe (instruction : Instruction) :
    (instruction.counterpart == .signUnsafe) = (instruction == .signUnsafe) := by
  cases instruction <;> rfl

/-- The instruction byte, with those of the two instructions exchanged. -/
def counterpartCode (byte : UInt8) : UInt8 :=
  if byte = sign.code then signWithHash.code
  else if byte = signWithHash.code then sign.code
  else byte

/-- The byte is exchanged exactly as the instruction that it stands for. -/
theorem ofCode?_counterpartCode (byte : UInt8) :
    ofCode? (counterpartCode byte) = (ofCode? byte).map counterpart := by
  cases known : ofCode? byte with
  | none =>
    have signs : byte ≠ sign.code := fun same => by simp [same] at known
    have sends : byte ≠ signWithHash.code := fun same => by simp [same] at known
    rw [counterpartCode, if_neg signs, if_neg sends, known]
    rfl
  | some instruction =>
    rw [ofCode?_eq_some_iff.1 known]
    cases instruction <;> rfl

end Instruction

/-- A command with the other instruction. -/
def Command.counterpart : Command → Command
  | .signFirst instruction key control => .signFirst instruction.counterpart key control
  | .signNext instruction control data => .signNext instruction.counterpart control data
  | other => other

/-- An APDU with the other instruction. -/
def Apdu.counterpart (apdu : Apdu) : Apdu :=
  { apdu with instruction := Instruction.counterpartCode apdu.instruction }

/-- An input with the other instruction. -/
def Input.counterpart : Input → Input
  | .apdu received => .apdu received.counterpart
  | .command given => .command given.counterpart
  | other => other

namespace Command

/-- A packet is read alike under both instructions. -/
theorem decodePacket_counterpart (instruction : Instruction) (control : UInt8) (payload : Bytes) :
    decodePacket instruction.counterpart control payload =
      (decodePacket instruction control payload).map counterpart := by
  unfold decodePacket
  cases PacketControl.decode control with
  | error error => rfl
  | ok control =>
    obtain ⟨kind, last⟩ := control
    cases kind with
    | first => cases decodeKey payload <;> rfl
    | next => rfl
    | hashOnlyNext => rfl

theorem decode_counterpart (code control : UInt8) (payload : Bytes) :
    decode (Instruction.counterpartCode code) control payload =
      (decode code control payload).map counterpart := by
  unfold decode
  rw [Instruction.ofCode?_counterpartCode]
  by_cases long : maxPayload < payload.length
  · simp only [if_pos long]
    rfl
  · simp only [if_neg long]
    cases Instruction.ofCode? code with
    | none => rfl
    | some instruction =>
      cases instruction with
      | sign => exact decodePacket_counterpart .sign control payload
      | signWithHash => exact decodePacket_counterpart .signWithHash control payload
      | signUnsafe => exact decodePacket_counterpart .signUnsafe control payload
      | getPublicKey =>
        simp only [Option.map_some, Instruction.counterpart]
        split
        · rfl
        · cases decodeKey payload <;> rfl
      | authorizeBaking =>
        simp only [Option.map_some, Instruction.counterpart]
        cases decodeKey payload <;> rfl
      | resetHighWaterMark =>
        simp only [Option.map_some, Instruction.counterpart]
        split <;> rfl
      | queryAuthKey => rfl
      | queryHighWaterMark => rfl

/-- The counterpart of an APDU is refused like it, or read as the counterpart of its command. -/
theorem ofApdu_counterpart (apdu : Apdu) :
    ofApdu apdu.counterpart = (ofApdu apdu).map counterpart := by
  have sameClass : apdu.counterpart.commandClass = apdu.commandClass := rfl
  unfold ofApdu
  rw [sameClass]
  split
  · exact decode_counterpart apdu.instruction apdu.control apdu.payload
  · rfl

@[simp] theorem isAvailable_counterpart (command : Command) (mode : Mode) :
    command.counterpart.isAvailable mode = command.isAvailable mode := by
  cases command <;> simp [counterpart, isAvailable]

end Command

theorem Input.command?_counterpart (input : Input) :
    input.counterpart.command? = input.command?.map Command.counterpart := by
  cases input with
  | apdu apdu =>
    simp only [counterpart, command?, Command.ofApdu_counterpart]
    cases Command.ofApdu apdu <;> rfl
  | _ => rfl

/-- A session with the other instruction. -/
def Session.counterpart (session : Session) : Session :=
  { session with instruction := session.instruction.counterpart }

/-- An action with the other instruction. -/
def Action.counterpart : Action → Action
  | .sign session => .sign session.counterpart
  | other => other

/-- What waits for the operator, with the other instruction. -/
def Pending.counterpart (pending : Pending) : Pending :=
  { pending with action := pending.action.counterpart }

/-- A signer with the other instruction. -/
def Signer.counterpart (signer : Signer) : Signer :=
  { signer with
    session := signer.session.map Session.counterpart
    pending := signer.pending.map Pending.counterpart }

/-- Answers that are the same, up to the hash beside a signature. -/
inductive Answer.SameButHash : Answer → Answer → Prop where
  | same (answer : Answer) : SameButHash answer answer
  | signature (one two : Option Digest) (bytes : Bytes) :
      SameButHash (.signature one bytes) (.signature two bytes)

namespace Session

variable {session : Session}

@[simp] theorem isHashing_counterpart (session : Session) :
    session.counterpart.isHashing = session.isHashing := by
  simp [isHashing, counterpart, bne]

theorem start_counterpart (instruction : Instruction) (key : KeyPath) :
    start instruction.counterpart key = (start instruction key).map counterpart := by
  unfold start
  rw [Instruction.isSigning_counterpart]
  split <;> rfl

theorem nextPacket_counterpart (session : Session) (kind : PacketKind) :
    session.counterpart.nextPacket kind =
      ((session.nextPacket kind).1, (session.nextPacket kind).2.counterpart) := by
  have counts (session : Session) :
      nextPacket.count session.counterpart =
        ((nextPacket.count session).1, (nextPacket.count session).2.counterpart) := by
    unfold nextPacket.count
    simp only [show session.counterpart.packets = session.packets from rfl]
    split <;> rfl
  cases kind with
  | first => rfl
  | next => exact counts session
  | hashOnlyNext => exact counts { session with hashOnly := true }

theorem append_counterpart (session : Session) (bytes : Bytes) :
    session.counterpart.append bytes =
      ((session.append bytes).1, (session.append bytes).2.counterpart) := by
  have absorbs : session.counterpart.absorb = session.absorb.counterpart := by
    unfold absorb
    rw [isHashing_counterpart]
    split <;> rfl
  unfold append
  simp only [absorbs, show session.absorb.counterpart.message = session.absorb.message from rfl]
  split <;> rfl

theorem finish_counterpart (session : Session) :
    session.counterpart.finish = session.finish.counterpart := by
  unfold finish
  rw [isHashing_counterpart]
  split <;> rfl

/-- Both are signed by the same call, on the same bytes. -/
theorem sign_counterpart (session : Session) :
    session.sign.Parallels Answer.SameButHash session.counterpart.sign := by
  unfold sign
  rw [isHashing_counterpart]
  split
  · simp only [show session.counterpart.finalHash = session.finalHash from rfl,
      show session.counterpart.hashOnly = session.hashOnly from rfl]
    split
    · exact .throw _ _
    · split
      · exact .pure (.same _)
      · exact .bind_same fun _ => .bind_same fun _ => .pure (.signature _ _ _)
  · exact .bind_same fun _ => .bind_same fun _ => .pure (.same _)

end Session

/-- Completions that are the same, up to the instruction and the hash beside a signature. -/
inductive Completion.Counterparts : Completion → Completion → Prop where
  | answered {one two : Answer} (same : one.SameButHash two) :
      Counterparts (.answered one) (.answered two)
  | awaits (pending : Pending) : Counterparts (.awaits pending) (.awaits pending.counterpart)

namespace Mode

/-- Both are understood alike, by the same call. -/
theorem classify_counterpart (mode : Mode) (session : Session) (packet : UInt8) (data : Bytes) :
    (mode.classify session packet data).Parallels (fun one two => two = one.counterpart)
      (mode.classify session.counterpart packet data) := by
  unfold classify
  rw [Session.isHashing_counterpart]
  split
  · cases mode with
    | wallet =>
      simp only [classifyForWallet]
      split
      · exact .pure rfl
      · split
        · exact .bind_same fun _ => .pure rfl
        · exact .throw _ _
    | baking =>
      simp only [classifyForBaking]
      split
      · exact .throw _ _
      · split
        · split
          · split <;> exact .pure rfl
          · exact .bind_same fun _ => .pure rfl
        · exact .throw _ _
  · exact .pure rfl

theorem completeForWallet_counterpart (session : Session) :
    OutcomesRelated Completion.Counterparts (completeForWallet session)
      (completeForWallet session.counterpart) := by
  have prompts (hash : Digest) :
      walletPrompt session.counterpart hash = walletPrompt session hash := rfl
  unfold completeForWallet
  rw [Session.isHashing_counterpart]
  split
  · simp only [show session.counterpart.finalHash = session.finalHash from rfl]
    split
    · exact .refused _
    · rw [prompts]
      cases walletPrompt session _ with
      | error error => exact .refused error
      | ok prompt => exact .succeeded (.awaits _)
  · exact .succeeded (.awaits _)

theorem completeForBaking_counterpart (state : BakingState) (session : Session) :
    (completeForBaking state session).Parallels Completion.Counterparts
      (completeForBaking state session.counterpart) := by
  unfold completeForBaking
  simp only [show session.counterpart.magic = session.magic from rfl,
    show session.counterpart.parsed = session.parsed from rfl,
    show session.counterpart.key = session.key from rfl]
  split
  · refine .bind_same fun payload => (Session.sign_counterpart session).bind ?_
    intro one two same
    exact .bind_same fun _ => .pure (.answered same)
  · split
    · exact .bind_same fun _ => .pure (.awaits _)
    · exact .throw _ _

theorem complete_counterpart (mode : Mode) (state : BakingState) (session : Session) :
    (mode.complete state session).Parallels Completion.Counterparts
      (mode.complete state session.counterpart) := by
  cases mode with
  | wallet => exact .ofExcept (completeForWallet_counterpart session)
  | baking => exact completeForBaking_counterpart state session

end Mode

namespace Signer

variable (signer : Signer) (state : BakingState)

theorem signFirst_counterpart (instruction : Instruction) (key : KeyPath)
    (control : PacketControl) :
    (signer.signFirst instruction key control).Parallels (Images counterpart Answer.SameButHash)
      (signer.counterpart.signFirst instruction.counterpart key control) := by
  unfold signFirst
  split
  · exact .throw _ _
  · rw [Session.start_counterpart]
    cases Session.start instruction key with
    | error error => exact .throw _ error
    | ok session => exact .pure ⟨.same _, rfl⟩

theorem signNext_counterpart (instruction : Instruction) (control : PacketControl)
    (data : Bytes) :
    (signer.signNext state instruction control data).Parallels
      (Images counterpart Answer.SameButHash)
      (signer.counterpart.signNext state instruction.counterpart control data) := by
  unfold signNext
  simp only [show signer.counterpart.config = signer.config from rfl]
  split
  · exact .throw _ _
  · cases held : signer.session with
    | none =>
      simp only [counterpart, held, Option.map_none]
      exact .throw _ _
    | some session =>
      have held' : signer.counterpart.session = some session.counterpart := by
        simp [counterpart, held]
      simp only [held', show session.counterpart.instruction = session.instruction.counterpart
        from rfl, ne_eq, Instruction.counterpart_inj]
      split
      · exact .throw _ _
      · simp only [Session.nextPacket_counterpart]
        refine .bind_same fun packet => ?_
        refine (Mode.classify_counterpart _ _ _ _).bind ?_
        rintro read _ rfl
        simp only [Session.append_counterpart]
        refine .bind_same fun _ => ?_
        split
        · rw [Session.finish_counterpart]
          refine (Mode.complete_counterpart _ _ _).bind ?_
          intro one two completions
          cases completions with
          | answered same => exact .pure ⟨same, rfl⟩
          | awaits pending => exact .pure ⟨.same _, rfl⟩
        · exact .pure ⟨.same _, rfl⟩

theorem perform_counterpart (command : Command) :
    (signer.perform state command).Parallels (Images counterpart Answer.SameButHash)
      (signer.counterpart.perform state command.counterpart) := by
  unfold perform
  simp only [show signer.counterpart.config = signer.config from rfl,
    Command.isAvailable_counterpart]
  split
  · cases command with
    | none => exact .pure ⟨.same _, rfl⟩
    | signFirst instruction key control => exact signer.signFirst_counterpart _ _ _
    | signNext instruction control data => exact signer.signNext_counterpart _ _ _ _
    | getPublicKey key =>
      refine .bind_same fun publicKey => ?_
      split <;> exact .pure ⟨.same _, rfl⟩
    | authorizeBaking key => exact .bind_same fun publicKey => .pure ⟨.same _, rfl⟩
    | resetHighWaterMark level =>
      dsimp only [Command.counterpart]
      split
      · exact .pure ⟨.same _, rfl⟩
      · exact .throw _ _
    | queryAuthKey => exact .pure ⟨.same _, rfl⟩
    | queryHighWaterMark => exact .pure ⟨.same _, rfl⟩
  · exact .throw _ _

theorem confirm_counterpart :
    (signer.confirm state).Parallels (Images counterpart (OutcomesRelated Answer.SameButHash))
      (signer.counterpart.confirm state) := by
  cases waits : signer.pending with
  | none =>
    have waits' : signer.counterpart.pending = none := by simp [counterpart, waits]
    simp only [confirm, waits, waits']
    exact .done ⟨.refused _, rfl⟩
  | some pending =>
    have waits' : signer.counterpart.pending = some pending.counterpart := by
      simp [counterpart, waits]
    simp only [confirm, waits, waits']
    refine settle_images rfl ?_
    have performs : (pending.action.perform state).Parallels Answer.SameButHash
        (pending.counterpart.action.perform state) := by
      obtain ⟨prompt, action⟩ := pending
      cases action with
      | sign session => exact session.sign_counterpart
      | exportKey publicKey => exact .pure (.same _)
      | authorize key publicKey => exact .bind_same fun _ => .pure (.same _)
      | reset level => exact .bind_same fun _ => .pure (.same _)
    refine performs.bind ?_
    intro answer answer' same
    exact .pure ⟨same, rfl⟩

/-- A step by the counterpart of an input goes in parallel with the step by the input: the calls
are the same, the signer stays the counterpart, and the answers are the same up to the hash
beside a signature. -/
theorem step_counterpart (record : Record) (input : Input) :
    (signer.step record input).Parallels
      (Images counterpart (Option.Rel (OutcomesRelated Answer.SameButHash)))
      (signer.counterpart.step record input.counterpart) := by
  cases input with
  | apdu apdu =>
    refine answered_images ?_
    simp only [handleApdu, Command.ofApdu_counterpart]
    cases Command.ofApdu apdu with
    | error error => exact .done ⟨.refused error, rfl⟩
    | ok command => exact settle_images rfl (signer.perform_counterpart _ command)
  | command command =>
    exact answered_images (settle_images rfl (signer.perform_counterpart _ command))
  | confirm => exact answered_images (signer.confirm_counterpart _)
  | reject =>
    cases waits : signer.pending with
    | none =>
      have waits' : signer.counterpart.pending = none := by simp [counterpart, waits]
      simp only [step, Input.counterpart, reject, waits, waits']
      exact .done ⟨.some (.refused _), rfl⟩
    | some pending =>
      have waits' : signer.counterpart.pending = some pending.counterpart := by
        simp [counterpart, waits]
      simp only [step, Input.counterpart, reject, waits, waits']
      exact .done ⟨.some (.succeeded (.same _)), rfl⟩
  | reset => exact .done ⟨.none, rfl⟩

end Signer

end TezosSigner
