/-
Module: TezosSigner.Proofs.Machine.Steps
Purpose: The steps of the signer on a machine.
Main exports:
  Mode.classifyOn, Mode.completeOn, Signer.discardOn, Signer.signNextOn, Signer.performOn,
  Signer.stepOn, Signer.Fits, Signer.stepOn_eq
-/
import TezosSigner.Proofs.Machine.Requests
import TezosSigner.Proofs.Machine.Signing
import TezosSigner.Proofs.Requests

namespace TezosSigner

namespace Mode

section Definitions

variable (machine : Machine)

/-- Classify a session of a baking device by its data packet of the given number. -/
def classifyForBakingOn (session : Session) (packet : UInt8) (data : Bytes) : RiskyAct Session :=
  if packet ≠ 1 then
    throw .parseError
  else if (Magic.ofPayload data).isAllowed .baking then
    if (Magic.ofPayload data).isBaking then do
      match ← RiskyAct.check (BakingPayload.ofBytesOn data) with
      | some payload => pure (session.classifyAs (Magic.ofPayload data) (.baking payload))
      | none => pure (session.classifyAs (Magic.ofPayload data) .invalid)
    else do
      let parsed ← RiskyAct.safely (readOperations .baking session data)
      pure (session.classifyAs (Magic.ofPayload data) parsed)
  else
    throw .parseError

/-- Classify a session by its data packet of the given number. -/
def classifyOn (mode : Mode) (session : Session) (packet : UInt8) (data : Bytes) :
    RiskyAct Session :=
  if session.isHashing then
    match mode with
    | .wallet => RiskyAct.safely (classifyForWallet session packet data)
    | .baking => classifyForBakingOn session packet data
  else
    pure session

/-- The prompt for a hashed message in a wallet, where its kind may be signed. -/
def walletPromptOn (session : Session) (hash : Digest) : Checked (Except SignerError Prompt) := do
  match session.magic, session.parsed with
  | .unsafeOp, .operations group =>
      match ← Prompt.operationOn group with
      | some prompt => .ok (.ok prompt)
      | none => .ok (.ok (← Prompt.rawHashOn hash))
  | .unsafeOp, _ => .ok (.ok (← Prompt.rawHashOn hash))
  | .unsafeOp2, _ => .ok (.ok (← Prompt.rawHashOn hash))
  | .unsafeOp3, _ => .ok (.ok (← Prompt.rawHashOn hash))
  | _, _ => .ok (.error .parseError)

/-- Complete a session of a wallet: the operator is asked. -/
def completeForWalletOn (session : Session) : RiskyAct Completion :=
  if session.isHashing then
    match session.finalHash with
    | none => throw .memoryError
    | some hash => do
        let prompt ← RiskyAct.ofChecked (walletPromptOn session hash)
        pure (.awaits { prompt := prompt, action := .sign session })
  else do
    let prompt ← RiskyAct.check Prompt.preHashedOn
    pure (.awaits { prompt := prompt, action := .sign session })

/-- Complete a session of a baking device: guard it, then sign and record it, or ask the
operator. -/
def completeForBakingOn (record : Record) (session : Session) : RiskyAct Completion :=
  if session.magic.isBaking then do
    let payload :=
      match session.parsed with
      | .baking payload => some payload
      | _ => none
    let payload ← RiskyAct.ofChecked
      (BakingState.guardBakingOn machine record session.key payload)
    let answer ← session.thenWipe session.signOn
    BakingState.recordSignedOn machine record payload.mark
    pure (.answered answer)
  else
    match session.magic, session.parsed with
    | .unsafeOp, .operations group => do
        RiskyAct.ofChecked (BakingState.guardSelfDelegationOn machine record session.key group)
        let prompt ← RiskyAct.check (Prompt.registerDelegateOn group)
        pure (.awaits { prompt := prompt, action := .sign session })
    | _, _ => throw .parseError

/-- Complete a finished session. -/
def completeOn (mode : Mode) (record : Record) (session : Session) : RiskyAct Completion :=
  match mode with
  | .wallet => completeForWalletOn session
  | .baking => completeForBakingOn machine record session

end Definitions

variable {machine : Machine} {record : Record}

theorem classifyForBakingOn_eq (session : Session) (packet : UInt8) (data : Bytes) :
    classifyForBakingOn session packet data =
      RiskyAct.safely (classifyForBaking session packet data) := by
  rw [classifyForBakingOn, classifyForBaking, BakingPayload.ofBytesOn_eq, RiskyAct.check_ok,
    pure_bind]
  split
  · rfl
  split
  · split
    · cases BakingPayload.ofBytes? data <;> rfl
    · rw [RiskyAct.safely_bind]
      rfl
  · rfl

/-- A session is classified without faults, and as it should be. -/
theorem classifyOn_eq (mode : Mode) (session : Session) (packet : UInt8) (data : Bytes) :
    mode.classifyOn session packet data = RiskyAct.safely (mode.classify session packet data) := by
  unfold classifyOn classify
  split
  · cases mode with
    | wallet => rfl
    | baking => exact classifyForBakingOn_eq session packet data
  · rfl

theorem walletPromptOn_eq (session : Session) (hash : Digest) :
    walletPromptOn session hash = .ok (walletPrompt session hash) := by
  have raw : Prompt.rawHashOn hash = .ok (Prompt.rawHash hash) :=
    Prompt.ofFieldsOn_eq (Nat.le_add_right 2 5)
  unfold walletPromptOn walletPrompt
  simp only [raw, Prompt.operationOn_eq, Checked.ok_bind]
  cases session.magic with
  | unsafeOp =>
    cases session.parsed with
    | operations group =>
      dsimp only
      cases Prompt.operation? group <;> rfl
    | _ => rfl
  | _ => rfl

theorem completeForWalletOn_eq (session : Session) :
    completeForWalletOn session =
      RiskyAct.safely (Act.ofExcept (completeForWallet session)) := by
  have plain : Prompt.preHashedOn = .ok Prompt.preHashed :=
    Prompt.ofFieldsOn_eq (Nat.le_add_right 2 5)
  rw [completeForWalletOn, completeForWallet, plain, RiskyAct.check_ok, pure_bind]
  split
  · cases session.finalHash with
    | none => rfl
    | some hash =>
      dsimp only
      rw [walletPromptOn_eq]
      cases walletPrompt session hash <;> rfl
  · rfl

theorem completeForBakingOn_eq (session : Session) :
    completeForBakingOn machine record session =
      RiskyAct.safely (completeForBaking (BakingState.decode record) session) := by
  have prompt (group : OperationGroup) :
      Prompt.registerDelegateOn group = .ok (Prompt.registerDelegate group) :=
    Prompt.ofFieldsOn_eq (Nat.le_add_right 3 4)
  unfold completeForBakingOn completeForBaking
  simp only [BakingState.guardBakingOn_eq, BakingState.guardSelfDelegationOn_eq,
    RiskyAct.ofChecked_ok, prompt, RiskyAct.check_ok, pure_bind, Session.thenWipe_eq,
    Session.signOn_eq, BakingState.recordSignedOn_eq]
  split
  · simp only [RiskyAct.safely_bind]
    rfl
  · cases session.magic with
    | unsafeOp =>
      cases session.parsed with
      | operations group =>
        dsimp only
        rw [RiskyAct.safely_bind]
        rfl
      | _ => rfl
    | _ => rfl

/-- A session is completed without faults, and as it should be. -/
theorem completeOn_eq (mode : Mode) (session : Session) :
    mode.completeOn machine record session =
      RiskyAct.safely (mode.complete (BakingState.decode record) session) := by
  cases mode with
  | wallet => exact completeForWalletOn_eq session
  | baking => exact completeForBakingOn_eq session

end Mode

/-- The session that a pending request holds. -/
def Pending.session? (pending : Pending) : Option Session :=
  match pending.action with
  | .sign session => some session
  | _ => none

/-- Wipe a session that is let go of, if there is one. -/
def Session.letGoOn (session : Option Session) : Checked Unit :=
  match session with
  | some session => do
      let _wiped ← session.wipeOn
      .ok ()
  | none => .ok ()

theorem Session.letGoOn_eq (session : Option Session) : letGoOn session = .ok () := by
  cases session with
  | none => rfl
  | some session => rw [letGoOn, wipeOn_eq, Checked.ok_bind]

namespace Signer

/-!
A session that a signer lets go of is wiped, whether it was under way or pending.  A session that
is refused while it is being completed has left the signer by then; here it is wiped with the
others when the signer aborts, since what it holds makes no difference to the wiping.
-/

section Definitions

/-- Drop the session and the pending request. -/
def discardOn (signer : Signer) : Checked Signer := do
  Session.letGoOn signer.session
  Session.letGoOn (signer.pending.bind Pending.session?)
  .ok signer.discard

/-- Drop everything after a refusal. -/
def abortOn (signer : Signer) : Checked Signer := do
  let dropped ← signer.discardOn
  .ok { dropped with status := .error }

/-- Drop everything, as if just started. -/
def resetOn (signer : Signer) : Checked Signer := do
  let dropped ← signer.discardOn
  .ok { dropped with status := .idle }

/-- Open a session in place of anything in progress. -/
def signFirstOn (signer : Signer) (instruction : Instruction) (key : KeyPath)
    (control : PacketControl) : RiskyAct (Answer × Signer) := do
  let dropped ← RiskyAct.check signer.discardOn
  if control.last then
    throw .wrongParameter
  else do
    let session ← RiskyAct.safely (Act.ofExcept (Session.start instruction key))
    pure (.none, { dropped with session := some session, status := .receiving 0 })

/-- Take the session out of a signer.  One that has taken a data packet has a session, so that
the refusal is out of reach. -/
def takeSession (signer : Signer) : Except SignerError (Session × Signer) :=
  match signer.session with
  | none => .error .invalidState
  | some session => .ok (session, { signer with session := none })

variable (machine : Machine)

/-- Take a data packet, and complete the session after the last one. -/
def signNextOn (signer : Signer) (record : Record) (instruction : Instruction)
    (control : PacketControl) (data : Bytes) : RiskyAct (Answer × Signer) :=
  if control.kind = .hashOnlyNext ∧ signer.config.mode ≠ .wallet then
    throw .wrongParameter
  else
    match signer.session with
    | none => throw .parseError
    | some session =>
        if session.instruction ≠ instruction then
          throw .parseError
        else do
          let (counted, session) ← RiskyAct.check (session.nextPacketOn control.kind)
          let packet ← RiskyAct.safely (Act.ofExcept counted)
          let session ← signer.config.mode.classifyOn session packet data
          let (appended, session) ← RiskyAct.check (session.appendOn machine data)
          RiskyAct.safely (Act.ofExcept appended)
          let receiving := { signer with session := some session }
          if control.last then
            let (session, freed) ← RiskyAct.safely (Act.ofExcept receiving.takeSession)
            let session ← RiskyAct.check (session.finishOn machine)
            match ← signer.config.mode.completeOn machine record session with
            | .answered answer => pure (answer, { freed with status := .complete })
            | .awaits pending => pure (freed.suspend pending)
          else
            pure (.none, { receiving with status := .receiving packet })

/-- Do what a command says, over the record as it stands. -/
def performOn (signer : Signer) (record : Record) (command : Command) :
    RiskyAct (Answer × Signer) :=
  if command.isAvailable signer.config.mode then
    match command with
    | .none => pure (.none, signer)
    | .signFirst instruction key control => signer.signFirstOn instruction key control
    | .signNext instruction control data =>
        signer.signNextOn machine record instruction control data
    | .getPublicKey key => do
        let dropped ← RiskyAct.check signer.discardOn
        let publicKey ← RiskyAct.safely (fetchPublicKey key)
        if signer.config.promptPublicKey then
          let prompt ← RiskyAct.check (Prompt.providePublicKeyOn publicKey)
          pure (dropped.suspend { prompt := prompt, action := .exportKey publicKey })
        else
          pure (.publicKey publicKey, { dropped with status := .complete })
    | .authorizeBaking key => do
        let dropped ← RiskyAct.check signer.discardOn
        let publicKey ← RiskyAct.safely (fetchPublicKey key)
        let prompt ← RiskyAct.check (Prompt.authorizeBakingOn publicKey)
        pure (dropped.suspend { prompt := prompt, action := .authorize key publicKey })
    | .resetHighWaterMark level => do
        let dropped ← RiskyAct.check signer.discardOn
        if isValidLevel level then
          let prompt ← RiskyAct.check (Prompt.resetHighWaterMarkOn level)
          pure (dropped.suspend { prompt := prompt, action := .reset level })
        else
          throw .wrongParameter
    | .queryAuthKey => do
        let state ← RiskyAct.check (BakingState.decodeOn machine record)
        pure (.authorizedKey state.key, signer)
    | .queryHighWaterMark => do
        let state ← RiskyAct.check (BakingState.decodeOn machine record)
        pure (.highWaterMark state.mark, signer)
  else
    throw .invalidInstruction

/-- Finish a step: take over the signer it leaves, or abort where it was refused. -/
def settleOn (signer : Signer) (act : RiskyAct (Answer × Signer)) :
    Risky (Except SignerError Answer × Signer) := do
  match ← act.run with
  | .ok (answer, next) => pure (.ok answer, next)
  | .error error => do
      let aborted ← Risky.check signer.abortOn
      pure (.error error, aborted)

/-- Obey a command. -/
def updateOn (signer : Signer) (record : Record) (command : Command) :
    Risky (Except SignerError Answer × Signer) :=
  signer.settleOn (signer.performOn machine record command)

/-- Obey a command as it arrives. -/
def handleApduOn (signer : Signer) (record : Record) (apdu : Apdu) :
    Risky (Except SignerError Answer × Signer) := do
  match ← Risky.check (Command.ofApduOn machine apdu) with
  | .ok command => signer.updateOn machine record command
  | .error error => do
      let aborted ← Risky.check signer.abortOn
      pure (.error error, aborted)

/-- Do what is pending, as the operator has consented. -/
def confirmOn (signer : Signer) (record : Record) : Risky (Except SignerError Answer × Signer) :=
  match signer.pending with
  | none => do
      let aborted ← Risky.check signer.abortOn
      pure (.error .invalidState, aborted)
  | some pending =>
      signer.settleOn do
        let answer ← pending.action.performOn machine record
        pure (answer, { signer with pending := none, status := .complete })

/-- Drop what is pending, as the operator wants. -/
def rejectOn (signer : Signer) : Checked (Except SignerError Answer × Signer) :=
  match signer.pending with
  | none => do
      let aborted ← signer.abortOn
      .ok (.error .invalidState, aborted)
  | some pending => do
      Session.letGoOn pending.session?
      .ok (.ok .rejected, { signer with pending := none, status := .rejected })

/-- One step of a signer over the record as it stands. -/
def stepOn (signer : Signer) (record : Record) :
    Input → Risky (Option (Except SignerError Answer) × Signer)
  | .apdu apdu => do
      let (answer, next) ← signer.handleApduOn machine record apdu
      pure (some answer, next)
  | .command command => do
      let (answer, next) ← signer.updateOn machine record command
      pure (some answer, next)
  | .confirm => do
      let (answer, next) ← signer.confirmOn machine record
      pure (some answer, next)
  | .reject => do
      let (answer, next) ← Risky.check signer.rejectOn
      pure (some answer, next)
  | .reset => do
      let next ← Risky.check signer.resetOn
      pure (none, next)

end Definitions

variable {machine : Machine} {record : Record} {signer : Signer}

theorem discardOn_eq (signer : Signer) : signer.discardOn = .ok signer.discard := by
  rw [discardOn, Session.letGoOn_eq, Checked.ok_bind, Session.letGoOn_eq, Checked.ok_bind]

theorem abortOn_eq (signer : Signer) : signer.abortOn = .ok signer.abort := by
  rw [abortOn, discardOn_eq, Checked.ok_bind, abort]

theorem resetOn_eq (signer : Signer) : signer.resetOn = .ok signer.reset := by
  rw [resetOn, discardOn_eq, Checked.ok_bind, reset]

theorem rejectOn_eq (signer : Signer) : signer.rejectOn = .ok signer.reject := by
  unfold rejectOn reject
  cases signer.pending with
  | none =>
    dsimp only
    rw [abortOn_eq, Checked.ok_bind]
  | some pending =>
    dsimp only
    rw [Session.letGoOn_eq, Checked.ok_bind]

theorem signFirstOn_eq (instruction : Instruction) (key : KeyPath) (control : PacketControl) :
    signer.signFirstOn instruction key control =
      RiskyAct.safely (signer.signFirst instruction key control) := by
  rw [signFirstOn, discardOn_eq, RiskyAct.check_ok, pure_bind, signFirst]
  split
  · rfl
  · rw [RiskyAct.safely_bind]
    rfl

/-- The session that a signer is receiving keeps to its buffer. -/
def Fits (signer : Signer) : Prop :=
  ∀ session, signer.session = some session →
    session.message.pending.length ≤ MessageBuffer.capacity

/-- What is left of a step once the packet was counted. -/
theorem signNextOn_of_room {instruction : Instruction} {control : PacketControl} {data : Bytes}
    {session : Session} (continues : signer.Continues instruction control session)
    (carries : control.kind ≠ .first) (room : session.packets < Session.maxPackets) :
    signer.signNextOn machine record instruction control data = (do
      let read ← signer.config.mode.classifyOn (session.counted control.kind)
        (session.counted control.kind).packets data
      let (appended, taken) ← RiskyAct.check (read.appendOn machine data)
      RiskyAct.safely (Act.ofExcept appended)
      if control.last then
        let finished ← RiskyAct.check (taken.finishOn machine)
        let completion ← signer.config.mode.completeOn machine record finished
        pure (signer.concluded completion)
      else
        pure (.none, { signer with
          session := some taken
          status := .receiving (session.counted control.kind).packets })) := by
  have permitted : ¬ (control.kind = .hashOnlyNext ∧ signer.config.mode ≠ .wallet) :=
    fun ⟨flag, other⟩ => other (continues.permitted flag)
  have taking (taken : Session) :
      takeSession { signer with session := some taken } =
        .ok (taken, { signer with session := none }) := rfl
  rw [signNextOn, if_neg permitted, continues.held]
  simp only [continues.same, ne_eq, not_true_eq_false, if_false, Session.nextPacketOn_eq,
    RiskyAct.check_ok, pure_bind, Session.nextPacket_of_room carries room, taking,
    RiskyAct.safely_ok_bind]
  refine bind_congr fun read => bind_congr fun ⟨appended, taken⟩ => bind_congr fun _ => ?_
  split
  · refine bind_congr fun finished => bind_congr fun completion => ?_
    cases completion <;> rfl
  · rfl

/-- A packet that the counter refuses is refused. -/
theorem signNextOn_of_uncounted {instruction : Instruction} {control : PacketControl}
    {data : Bytes} {session : Session}
    (continues : signer.Continues instruction control session) {error : SignerError}
    (uncounted : (session.nextPacket control.kind).1 = .error error) :
    signer.signNextOn machine record instruction control data =
      RiskyAct.safely
        (signer.signNext (BakingState.decode record) instruction control data) := by
  have permitted : ¬ (control.kind = .hashOnlyNext ∧ signer.config.mode ≠ .wallet) :=
    fun ⟨flag, other⟩ => other (continues.permitted flag)
  rw [signNextOn, if_neg permitted, continues.held, signNext, if_neg permitted, continues.held]
  simp only [continues.same, ne_eq, not_true_eq_false, if_false, Session.nextPacketOn_eq,
    RiskyAct.check_ok, pure_bind, uncounted]
  rfl

/-- A packet that is counted is taken without faults, and as it should be. -/
theorem signNextOn_of_counted {instruction : Instruction} {control : PacketControl}
    {data : Bytes} {session : Session} (fits : signer.Fits)
    (continues : signer.Continues instruction control session) (carries : control.kind ≠ .first)
    (room : session.packets < Session.maxPackets) :
    signer.signNextOn machine record instruction control data =
      RiskyAct.safely
        (signer.signNext (BakingState.decode record) instruction control data) := by
  have capacity : MessageBuffer.capacity = 1024 := rfl
  have short := fits session continues.held
  rw [signNextOn_of_room continues carries room, signNext_of_room continues carries room,
    Mode.classifyOn_eq, RiskyAct.safely_bind]
  refine RiskyAct.safely_bind_congr fun exchanges read yields => ?_
  have same : read.message = session.message := by
    rcases Mode.classify_yields yields with ⟨_, _, impossible⟩ | ⟨_, same, classifies⟩
    · cases impossible
    · cases same
      obtain ⟨magic, parsed, rfl⟩ := Session.exists_of_classifies classifies
      rfl
  rw [Session.appendOn_eq (by rw [same]; omega), RiskyAct.check_ok, pure_bind,
    RiskyAct.safely_bind]
  cases appending : read.append data with
  | mk appended taken =>
    cases appended with
    | error error => rfl
    | ok done =>
      -- Only a message that was added to has to be finished, and it keeps to its buffer.
      have kept := Session.length_pending_append appending
      refine bind_congr fun _ => ?_
      dsimp only
      split
      · rw [Session.finishOn_eq (by omega), RiskyAct.check_ok, pure_bind, Mode.completeOn_eq,
          RiskyAct.safely_bind]
        rfl
      · rfl

/-- A data packet is taken without faults, and as it should be. -/
theorem signNextOn_eq (fits : signer.Fits) (instruction : Instruction) (control : PacketControl)
    (data : Bytes) :
    signer.signNextOn machine record instruction control data =
      RiskyAct.safely (signer.signNext (BakingState.decode record) instruction control data) := by
  by_cases barred : control.kind = .hashOnlyNext ∧ signer.config.mode ≠ .wallet
  · rw [signNextOn, if_pos barred, signNext, if_pos barred]
    rfl
  cases held : signer.session with
  | none =>
    rw [signNextOn, if_neg barred, held, signNext, if_neg barred, held]
    rfl
  | some session =>
    by_cases same : session.instruction = instruction
    · have continues : signer.Continues instruction control session :=
        ⟨held, same, fun flag => Decidable.not_not.1 fun other => barred ⟨flag, other⟩⟩
      by_cases first : control.kind = .first
      · exact signNextOn_of_uncounted continues
          (congrArg (fun kind => (session.nextPacket kind).1) first)
      · by_cases room : session.packets < Session.maxPackets
        · exact signNextOn_of_counted fits continues first room
        · exact signNextOn_of_uncounted continues (Session.nextPacket_of_full first room)
    · rw [signNextOn, if_neg barred, held, signNext, if_neg barred, held]
      dsimp only
      rw [if_pos same, if_pos same]
      rfl

/-- A command is obeyed without faults, and as it should be. -/
theorem performOn_eq (fits : signer.Fits) (command : Command) :
    signer.performOn machine record command =
      RiskyAct.safely (signer.perform (BakingState.decode record) command) := by
  have dropped := discardOn_eq signer
  have provide (key : Bytes) :
      Prompt.providePublicKeyOn key = .ok (Prompt.providePublicKey key) :=
    Prompt.ofFieldsOn_eq (Nat.le_add_right 2 5)
  have authorize (key : Bytes) :
      Prompt.authorizeBakingOn key = .ok (Prompt.authorizeBaking key) :=
    Prompt.ofFieldsOn_eq (Nat.le_add_right 2 5)
  have reset (level : UInt32) :
      Prompt.resetHighWaterMarkOn level = .ok (Prompt.resetHighWaterMark level) :=
    Prompt.ofFieldsOn_eq (Nat.le_add_right 1 6)
  unfold performOn perform
  split
  · cases command with
    | none => rfl
    | signFirst instruction key control => exact signFirstOn_eq instruction key control
    | signNext instruction control data => exact signNextOn_eq fits instruction control data
    | getPublicKey key =>
      dsimp only
      rw [dropped, RiskyAct.check_ok, pure_bind, RiskyAct.safely_bind]
      refine bind_congr fun publicKey => ?_
      rw [provide, RiskyAct.check_ok, pure_bind]
      split <;> rfl
    | authorizeBaking key =>
      dsimp only
      rw [dropped, RiskyAct.check_ok, pure_bind, RiskyAct.safely_bind]
      refine bind_congr fun publicKey => ?_
      rw [authorize]
      rfl
    | resetHighWaterMark level =>
      dsimp only
      rw [dropped, RiskyAct.check_ok, pure_bind, reset, RiskyAct.check_ok, pure_bind]
      split <;> rfl
    | queryAuthKey =>
      dsimp only
      rw [BakingState.decodeOn_eq]
      rfl
    | queryHighWaterMark =>
      dsimp only
      rw [BakingState.decodeOn_eq]
      rfl
  · rfl

theorem settleOn_eq (signer : Signer) (act : Act (Answer × Signer)) :
    signer.settleOn (RiskyAct.safely act) = Risky.safely (signer.settle act) := by
  rw [settleOn, abortOn_eq]
  refine Eq.trans ?_ (Risky.safely_bind act.run _).symm
  refine bind_congr fun outcome => ?_
  cases outcome <;> rfl

theorem updateOn_eq (fits : signer.Fits) (command : Command) :
    signer.updateOn machine record command =
      Risky.safely (signer.update (BakingState.decode record) command) := by
  rw [updateOn, performOn_eq fits, settleOn_eq, update]

theorem handleApduOn_eq (fits : signer.Fits) (apdu : Apdu) :
    signer.handleApduOn machine record apdu =
      Risky.safely (signer.handleApdu (BakingState.decode record) apdu) := by
  rw [handleApduOn, Command.ofApduOn_eq, abortOn_eq, handleApdu]
  cases Command.ofApdu apdu with
  | ok command => exact updateOn_eq fits command
  | error error => rfl

theorem confirmOn_eq (signer : Signer) :
    signer.confirmOn machine record =
      Risky.safely (signer.confirm (BakingState.decode record)) := by
  unfold confirmOn confirm
  cases signer.pending with
  | none =>
    dsimp only
    rw [abortOn_eq]
    rfl
  | some pending =>
    dsimp only
    rw [← settleOn_eq, Action.performOn_eq, RiskyAct.safely_bind]
    rfl

/-- A step that is answered comes to no fault if its dialog does not. -/
theorem answeredOn_eq (dialog : Dialog (Except SignerError Answer × Signer)) :
    (do
      let (answer, next) ← Risky.safely dialog
      pure (some answer, next) : Risky (Option (Except SignerError Answer) × Signer)) =
    Risky.safely (do
      let (answer, next) ← dialog
      pure (some answer, next)) := by
  refine Eq.trans (bind_congr fun ⟨answer, next⟩ => ?_) (Risky.safely_bind dialog _).symm
  rfl

/-- A step of a signer whose session keeps to its buffer comes to no fault, and goes as it
should, whatever the platform replies. -/
theorem stepOn_eq (fits : signer.Fits) (input : Input) :
    signer.stepOn machine record input = Risky.safely (signer.step record input) := by
  cases input with
  | apdu apdu =>
    rw [stepOn, handleApduOn_eq fits]
    exact answeredOn_eq _
  | command command =>
    rw [stepOn, updateOn_eq fits]
    exact answeredOn_eq _
  | confirm =>
    rw [stepOn, confirmOn_eq]
    exact answeredOn_eq _
  | reject =>
    rw [stepOn, rejectOn_eq]
    rfl
  | reset =>
    rw [stepOn, resetOn_eq]
    rfl

end Signer

end TezosSigner
