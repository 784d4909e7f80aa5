/-
Module: TezosSigner.Proofs.Causes
Purpose: The errors that guard against the impossible come from the platform alone.
Main exports:
  Exchange.failure?, Exchange.Fits, SignerError.isDefensive, Act.Blames, Signer.perform_blames,
  Device.Confirms, Device.Run.confirms, Device.Run.refused_for_cause
-/
import TezosSigner.Proofs.Commands
import TezosSigner.Proofs.Resumption

namespace TezosSigner

/-!
Some checks can fail only if the signer itself is broken: a message that is not hashed when it
is to be signed, a confirmed key without steps, a level that was refused before.  Their errors
are also those that a platform may report, and that is the one way in which they are ever seen,
as long as the platform keeps to the room that it is given.  An act `Blames` the platform if it
ends in such an error only after a call has failed with it.
-/

namespace Exchange

/-- The error that a call has failed with, if it has. -/
def failure? : Exchange → Option SignerError
  | ⟨.sign _ _, .error error⟩ => some error
  | ⟨.publicKey _, .error error⟩ => some error
  | ⟨.store _, .error error⟩ => some error
  | _ => none

/-- What the platform reports fits the room that it was given; a signature is not empty. -/
def Fits : Exchange → Prop
  | ⟨.sign _ _, .ok reply⟩ => 0 < reply.length ∧ reply.length ≤ maxSignature
  | ⟨.publicKey _, .ok reply⟩ => reply.length ≤ maxPublicKey
  | _ => True

end Exchange

/-- The errors of the checks that never fail. -/
def SignerError.isDefensive : SignerError → Bool
  | .memoryError => true
  | .invalidState => true
  | .encodingFailed => true
  | .storage => true
  | _ => false

namespace Act

variable {First Second : Type}

/-- An act that ends in a defensive error only if a call has failed with it. -/
def Blames (act : Act First) : Prop :=
  ∀ exchanges error, act.Yields exchanges (.error error) →
    (∀ exchange ∈ exchanges, exchange.Fits) → error.isDefensive = true →
      ∃ exchange ∈ exchanges, exchange.failure? = some error

theorem blames_pure (value : First) : (pure value : Act First).Blames := by
  intro exchanges error yields
  cases (yields_pure_iff.1 yields).2

theorem blames_ofExcept {result : Except SignerError First}
    (innocent : ∀ error, result = .error error → error.isDefensive = false) :
    (ofExcept result).Blames := by
  intro exchanges error yields _ defensive
  have same := (yields_ofExcept_iff.1 yields).2
  rw [innocent error same.symm] at defensive
  cases defensive

theorem blames_throw {error : SignerError} (innocent : error.isDefensive = false) :
    (throw error : Act First).Blames :=
  blames_ofExcept (by rintro _ ⟨⟩; exact innocent)

/-- An act whose both parts blame the platform does so, too.  The second part may count on what
the first has come to. -/
theorem Blames.bind {act : Act First} {next : First → Act Second} (first : act.Blames)
    (more : ∀ exchanges value, act.Yields exchanges (.ok value) →
      (∀ exchange ∈ exchanges, exchange.Fits) → (next value).Blames) :
    (act >>= next).Blames := by
  intro exchanges error yields fits defensive
  rcases yields_bind_iff.1 yields with ⟨_, same, failing⟩ | ⟨front, back, value, rfl, head, tail⟩
  · cases same
    exact first exchanges error failing fits defensive
  · rw [List.forall_mem_append] at fits
    obtain ⟨exchange, member, failed⟩ :=
      more front value head fits.1 back error tail fits.2 defensive
    exact ⟨exchange, List.mem_append_right front member, failed⟩

/-- A single call that is refused with its reply. -/
theorem blames_reply {request : Call} {outcomeOf : request.Reply → Except SignerError First}
    (failure : ∀ reply error, outcomeOf reply = .error error →
      Exchange.failure? ⟨request, reply⟩ = some error) :
    (call request >>= fun reply => ofExcept (outcomeOf reply)).Blames := by
  intro exchanges error yields _ _
  obtain ⟨reply, rfl, same⟩ := yields_reply_iff.1 yields
  exact ⟨_, List.mem_singleton.2 rfl, failure reply error same.symm⟩

theorem blames_publicKey (key : KeyPath) : (publicKey key).Blames :=
  blames_reply (by rintro _ _ rfl; rfl)

theorem blames_store (record : Record) : (store record).Blames :=
  blames_reply (by rintro _ _ rfl; rfl)

end Act

/-!
## The acts of the signer
-/

namespace Session

variable {session : Session}

/-- A session that hashes its message has the hash by the time it is signed. -/
def Finished (session : Session) : Prop :=
  session.isHashing = true → session.finalHash ≠ none

theorem finished_finish (session : Session) : session.finish.Finished := by
  intro hashing
  rw [isHashing_finish] at hashing
  rw [finish_of_hashing hashing]
  simp

/-- A signature that fits its room is taken. -/
theorem signatureOf_ne_error {key : KeyPath} {message : Bytes} {reply : SignReply}
    {error : SignerError} (fits : Exchange.Fits ⟨.sign key message, .ok reply⟩) :
    session.signatureOf reply ≠ .error error := by
  have fits : 0 < reply.length ∧ reply.length ≤ maxSignature := fits
  rw [signatureOf, if_pos fits]
  simp

theorem sign_blames (finished : session.Finished) : session.sign.Blames := by
  intro exchanges error yields fits defensive
  generalize outcomeEq : Except.error error = outcome at yields
  cases signs_of_yields yields with
  | unfinished hashing unfinished => exact absurd unfinished (finished hashing)
  | failed _ =>
    cases outcomeEq
    exact ⟨_, List.mem_singleton.2 rfl, rfl⟩
  | unfit _ unfit => exact absurd unfit (signatureOf_ne_error (fits _ (List.mem_singleton.2 rfl)))
  | _ => cases outcomeEq

theorem nextPacket_innocent {kind : PacketKind} {error : SignerError}
    (h : (session.nextPacket kind).1 = .error error) : error.isDefensive = false := by
  cases kind with
  | first =>
    cases h
    rfl
  | next =>
    simp only [nextPacket, nextPacket.count] at h
    split at h <;> cases h
    rfl
  | hashOnlyNext =>
    simp only [nextPacket, nextPacket.count] at h
    split at h <;> cases h
    rfl

theorem append_innocent {bytes : Bytes} {error : SignerError}
    (h : (session.append bytes).1 = .error error) : error.isDefensive = false := by
  simp only [append] at h
  split at h <;> cases h
  rfl

theorem start_innocent {instruction : Instruction} {key : KeyPath} {error : SignerError}
    (h : start instruction key = .error error) : error.isDefensive = false := by
  unfold start at h
  split at h <;> cases h
  rfl

end Session

namespace BakingState

variable {state : BakingState}

theorem guardSelfDelegation_innocent {key : KeyPath} {group : OperationGroup}
    {error : SignerError} (h : state.guardSelfDelegation key group = .error error) :
    error.isDefensive = false := by
  unfold guardSelfDelegation at h
  split at h <;> cases h
  rfl

theorem bindKey_blames (state : BakingState) (key : KeyPath) : (state.bindKey key).Blames := by
  unfold bindKey
  split
  · exact Act.blames_throw rfl
  · exact Act.blames_store _

theorem recordSigned_blames (state : BakingState) (mark : Mark) :
    (state.recordSigned mark).Blames := by
  unfold recordSigned
  split
  · exact Act.blames_store _
  · exact Act.blames_pure _

theorem resetTo_blames (state : BakingState) (level : UInt32) : (state.resetTo level).Blames := by
  unfold resetTo
  split
  · exact Act.blames_store _
  · exact Act.blames_throw rfl

end BakingState

namespace Mode

variable {mode : Mode} {state : BakingState} {session : Session} {data : Bytes}

theorem readOperations_blames (mode : Mode) (session : Session) (data : Bytes) :
    (mode.readOperations session data).Blames := by
  intro exchanges error yields
  obtain ⟨_, _, impossible⟩ := readOperations_yields_iff.1 yields
  cases impossible

theorem classify_blames (mode : Mode) (session : Session) (packet : UInt8) (data : Bytes) :
    (mode.classify session packet data).Blames := by
  have read (mode : Mode) : (do
      let parsed ← mode.readOperations session data
      pure (session.classifyAs (Magic.ofPayload data) parsed) : Act Session).Blames :=
    (readOperations_blames mode session data).bind fun _ _ _ _ => Act.blames_pure _
  unfold classify
  split
  · cases mode with
    | wallet =>
      simp only [classifyForWallet]
      split
      · exact Act.blames_pure _
      · split
        · exact read .wallet
        · exact Act.blames_throw rfl
    | baking =>
      simp only [classifyForBaking]
      split
      · exact Act.blames_throw rfl
      · split
        · split
          · split <;> exact Act.blames_pure _
          · exact read .baking
        · exact Act.blames_throw rfl
  · exact Act.blames_pure _

theorem walletPrompt_innocent {hash : Digest} {error : SignerError}
    (h : walletPrompt session hash = .error error) : error.isDefensive = false := by
  unfold walletPrompt at h
  split at h <;> cases h
  rfl

theorem completeForWallet_innocent (finished : session.Finished) {error : SignerError}
    (h : completeForWallet session = .error error) : error.isDefensive = false := by
  unfold completeForWallet at h
  split at h
  · rename_i hashing
    split at h
    · rename_i unfinished
      exact absurd unfinished (finished hashing)
    · rename_i hash _
      cases chosen : walletPrompt session hash with
      | error reason =>
        rw [chosen] at h
        cases h
        exact walletPrompt_innocent chosen
      | ok prompt =>
        rw [chosen] at h
        cases h
  · cases h

theorem completeForBaking_blames (state : BakingState) (finished : session.Finished) :
    (completeForBaking state session).Blames := by
  unfold completeForBaking
  split
  · refine (Act.blames_ofExcept ?_).bind fun _ payload _ _ => ?_
    · intro error stopped
      rw [BakingState.guardBaking_error stopped]
      rfl
    · refine (Session.sign_blames finished).bind fun _ answer _ _ => ?_
      exact (BakingState.recordSigned_blames state _).bind fun _ _ _ _ => Act.blames_pure _
  · split
    · refine (Act.blames_ofExcept ?_).bind fun _ _ _ _ => Act.blames_pure _
      intro error stopped
      exact BakingState.guardSelfDelegation_innocent stopped
    · exact Act.blames_throw rfl

theorem complete_blames (mode : Mode) (state : BakingState) (finished : session.Finished) :
    (mode.complete state session).Blames := by
  cases mode with
  | wallet => exact Act.blames_ofExcept fun _ => completeForWallet_innocent finished
  | baking => exact completeForBaking_blames state finished

end Mode

namespace Signer

variable {signer : Signer} {state : BakingState}

/-- A platform that reports a public key within its room is never refused for its length. -/
theorem fetchPublicKey_blames (key : KeyPath) : (fetchPublicKey key).Blames := by
  refine (Act.blames_publicKey key).bind fun exchanges reply yields fits => ?_
  obtain ⟨_, rfl, rfl⟩ := Act.yields_publicKey_iff.1 yields
  have fit : reply.length ≤ maxPublicKey := fits _ (List.mem_singleton.2 rfl)
  rw [if_pos fit]
  exact Act.blames_pure _

theorem signFirst_blames (signer : Signer) (instruction : Instruction) (key : KeyPath)
    (control : PacketControl) : (signer.signFirst instruction key control).Blames := by
  unfold signFirst
  split
  · exact Act.blames_throw rfl
  · exact (Act.blames_ofExcept fun _ => Session.start_innocent).bind
      fun _ _ _ _ => Act.blames_pure _

theorem signNext_blames (signer : Signer) (state : BakingState) (instruction : Instruction)
    (control : PacketControl) (data : Bytes) :
    (signer.signNext state instruction control data).Blames := by
  unfold signNext
  split
  · exact Act.blames_throw rfl
  split
  · exact Act.blames_throw rfl
  split
  · exact Act.blames_throw rfl
  refine (Act.blames_ofExcept fun _ => Session.nextPacket_innocent).bind fun _ packet _ _ => ?_
  refine (Mode.classify_blames _ _ packet data).bind fun _ read _ _ => ?_
  refine (Act.blames_ofExcept fun _ => Session.append_innocent).bind fun _ _ _ _ => ?_
  split
  · refine (Mode.complete_blames _ state (Session.finished_finish _)).bind
      fun _ completion _ _ => ?_
    cases completion <;> exact Act.blames_pure _
  · exact Act.blames_pure _

/-- No command is refused with a defensive error on the signer's own account. -/
theorem perform_blames (signer : Signer) (state : BakingState) (command : Command) :
    (signer.perform state command).Blames := by
  unfold perform
  split
  · cases command with
    | none => exact Act.blames_pure _
    | signFirst instruction key control => exact signFirst_blames signer instruction key control
    | signNext instruction control data =>
      exact signNext_blames signer state instruction control data
    | getPublicKey key =>
      refine (fetchPublicKey_blames key).bind fun _ publicKey _ _ => ?_
      split <;> exact Act.blames_pure _
    | authorizeBaking key =>
      exact (fetchPublicKey_blames key).bind fun _ _ _ _ => Act.blames_pure _
    | resetHighWaterMark level =>
      dsimp only
      split
      · exact Act.blames_pure _
      · exact Act.blames_throw rfl
    | queryAuthKey => exact Act.blames_pure _
    | queryHighWaterMark => exact Act.blames_pure _
  · exact Act.blames_throw rfl

end Signer

/-- What the operator has confirmed is not refused with one either, if it was ready to be
signed. -/
theorem Action.perform_blames (state : BakingState) {action : Action}
    (finished : ∀ session, action = .sign session → session.Finished) :
    (action.perform state).Blames := by
  cases action with
  | sign session => exact Session.sign_blames (finished session rfl)
  | exportKey publicKey => exact Act.blames_pure _
  | authorize key publicKey =>
    exact (BakingState.bindKey_blames state key).bind fun _ _ _ _ => Act.blames_pure _
  | reset level =>
    exact (BakingState.resetTo_blames state level).bind fun _ _ _ _ => Act.blames_pure _

/-!
## Reading commands
-/

theorem SignerError.ofWireError_innocent (error : WireError) :
    (ofWireError error).isDefensive = false := by
  cases error <;> rfl

namespace Command

variable {error : SignerError} {payload : Bytes}

theorem decodeKey_innocent (h : decodeKey payload = .error error) : error.isDefensive = false := by
  unfold decodeKey at h
  split at h
  · cases h
  · cases h
    rfl
  · cases h
    exact SignerError.ofWireError_innocent _

/-- A command that is read off a key is refused for the key only. -/
private theorem bind_decodeKey_innocent {next : KeyPath → Command}
    (h : (do let key ← decodeKey payload; return next key : Except SignerError Command) =
      .error error) : error.isDefensive = false := by
  cases decoded : decodeKey payload with
  | error reason =>
    rw [decoded] at h
    cases h
    exact decodeKey_innocent decoded
  | ok key =>
    rw [decoded] at h
    cases h

theorem decodePacket_innocent {instruction : Instruction} {control : UInt8}
    (h : decodePacket instruction control payload = .error error) :
    error.isDefensive = false := by
  unfold decodePacket at h
  split at h
  · cases h
    rfl
  · split at h
    · exact bind_decodeKey_innocent h
    · cases h
    · cases h

theorem decode_innocent {instruction control : UInt8}
    (h : decode instruction control payload = .error error) : error.isDefensive = false := by
  unfold decode at h
  split at h
  · cases h
    rfl
  split at h
  · cases h
    rfl
  · exact decodePacket_innocent h
  · exact decodePacket_innocent h
  · exact decodePacket_innocent h
  · split at h
    · cases h
      rfl
    · exact bind_decodeKey_innocent h
  · exact bind_decodeKey_innocent h
  · split at h
    · cases h
    · cases h
      exact SignerError.ofWireError_innocent _
  · cases h
  · cases h

theorem ofApdu_innocent {apdu : Apdu} (h : ofApdu apdu = .error error) :
    error.isDefensive = false := by
  unfold ofApdu at h
  split at h
  · exact decode_innocent h
  · cases h
    rfl

/-- A key that is to be authorized has steps, if the command came off the wire. -/
theorem path_of_ofApdu {apdu : Apdu} {key : KeyPath}
    (h : ofApdu apdu = .ok (.authorizeBaking key)) : key.path ≠ [] := by
  cases reads_of_ofApdu h with
  | authorizeBaking _ named => exact path_of_decodeKey named

end Command

namespace Signer

variable {signer next : Signer} {record : Record} {input : Input} {exchanges : List Exchange}
  {error : SignerError}

/-- A step that ends in a defensive error has had a call fail with it, or there was nothing to
confirm or to reject. -/
theorem step_blames
    (finished : ∀ prompt session,
      signer.pending = some { prompt := prompt, action := .sign session } → session.Finished)
    (yields : (signer.step record input).Yields exchanges (some (.error error), next))
    (fits : ∀ exchange ∈ exchanges, exchange.Fits) (defensive : error.isDefensive = true) :
    (∃ exchange ∈ exchanges, exchange.failure? = some error) ∨
      error = .invalidState ∧ (input = .confirm ∨ input = .reject) ∧ signer.pending = none := by
  generalize answerEq : some (Except.error error) = answer at yields
  -- The list of steps does not tell why a command was refused, so the act itself is looked at.
  cases steps_of_yields yields with
  | refused read _ =>
    obtain ⟨outcome, performs, same, _⟩ := (step_command_iff read).1 yields
    cases answerEq
    cases outcome with
    | ok result => cases same
    | error reason =>
      cases same
      exact .inl (perform_blames signer _ _ exchanges error performs fits defensive)
  | unread unread =>
    cases answerEq
    rw [Command.ofApdu_innocent unread] at defensive
    cases defensive
  | @unconfirmed pending _ _ waits _ =>
    obtain ⟨outcome, performs, same, _⟩ := (step_confirm_iff waits).1 yields
    cases answerEq
    cases same
    refine .inl (Action.perform_blames _ ?_ exchanges error performs fits defensive)
    intro session same
    exact finished pending.prompt session (by rw [waits, ← same])
  | unasked resumes nothing =>
    cases answerEq
    exact .inr ⟨rfl, resumes, nothing⟩
  | _ => cases answerEq

end Signer

namespace Device

variable {device next : Device} {history : List Happening} {config : Config} {record : Record}
  {pending : Pending} {input : Input} {exchanges : List Exchange} {error : SignerError}
  {answer : Option (Except SignerError Answer)}

/-- What is to be signed is finished by the time the operator is asked. -/
theorem Run.finished (run : Run (.boot config record) history device) {prompt : Prompt}
    {session : Session}
    (waits : device.signer.pending = some { prompt := prompt, action := .sign session }) :
    session.Finished := by
  obtain ⟨_, unfinished, _, rfl, _⟩ := run.reflects.2.consented waits
  exact unfinished.finished_finish

/-- The key that the operator is asked to authorize has steps, if all commands came off the
wire. -/
theorem Run.path_of_waiting (run : Run (.boot config record) history device)
    (wired : ∀ happening ∈ history, ∀ command, happening.input ≠ .command command)
    {prompt : Prompt} {key : KeyPath} {publicKey : Bytes}
    (waits : device.signer.pending =
      some { prompt := prompt, action := .authorize key publicKey }) : key.path ≠ [] := by
  obtain ⟨earlier, input, exchanges, command, between, rfl, _, read, left, _⟩ := run.waited waits
  have unread := wired (.step input exchanges (some (.ok .pending))) (by simp)
  cases left with
  | command asks =>
    cases asks with
    | authorizeBaking baking fetched =>
      cases input with
      | apdu apdu =>
        cases decoded : Command.ofApdu apdu with
        | error reason =>
          rw [Input.command?, decoded] at read
          cases read
        | ok command =>
          rw [Input.command?, decoded] at read
          cases read
          exact Command.path_of_ofApdu decoded
      | command given => exact absurd rfl (unread given)
      | confirm => cases read
      | reject => cases read
      | reset => cases read

/-- The level that the operator is asked about is well formed. -/
theorem Run.isValidLevel_of_waiting (run : Run (.boot config record) history device)
    {prompt : Prompt} {level : UInt32}
    (waits : device.signer.pending = some { prompt := prompt, action := .reset level }) :
    isValidLevel level = true := by
  rcases (run.reflects.2.waiting waits).2 with ⟨_, _, _, impossible, _⟩ | ⟨_, _, _, asks⟩
  · cases impossible
  · cases asks with
    | resetHighWaterMark _ valid => exact valid

/-- What becomes of a confirmed action: it is answered, and no call has failed, or its one call
has failed, and that is the answer. -/
inductive Confirms : List Exchange → Option (Except SignerError Answer) → Prop where
  | answered {exchanges : List Exchange} {given : Answer}
      (unfailed : ∀ exchange ∈ exchanges, exchange.failure? = none) :
      Confirms exchanges (some (.ok given))
  | unsigned {key : KeyPath} {message : Bytes} {error : SignerError} :
      Confirms [⟨.sign key message, .error error⟩] (some (.error error))
  | unstored {record : Record} {error : SignerError} :
      Confirms [⟨.store record, .error error⟩] (some (.error error))

/-- A store whose reply is the outcome. -/
theorem confirms_store {given : Answer} (reply : Except SignerError Unit) :
    Confirms [⟨.store record, reply⟩] (some (reply.map fun _ => given)) := by
  cases reply with
  | error error => exact .unstored
  | ok done => exact .answered (by simp [Exchange.failure?])

/-- Whatever waits is ready to be done: nothing but a failed call is in its way. -/
theorem Run.confirms (run : Run (.boot config record) history device)
    (wired : ∀ happening ∈ history, ∀ command, happening.input ≠ .command command)
    (waits : device.signer.pending = some pending)
    (happens : Happens device (.step .confirm exchanges answer) next)
    (fits : ∀ exchange ∈ exchanges, exchange.Fits) : Confirms exchanges answer := by
  cases happens with
  | step yields =>
    obtain ⟨outcome, performs, rfl, _⟩ := (Signer.step_confirm_iff waits).1 yields
    obtain ⟨prompt, action⟩ := pending
    cases Action.performs_of_yields performs with
    | sign signs =>
      cases signs with
      | unfinished hashing unfinished => exact absurd unfinished (run.finished waits hashing)
      | hashOnly _ _ _ => exact .answered (by simp)
      | failed _ => exact .unsigned
      | unfit _ unfit =>
        exact absurd unfit (Session.signatureOf_ne_error (fits _ (List.mem_singleton.2 rfl)))
      | signed _ _ => exact .answered (by simp [Exchange.failure?])
    | exportKey => exact .answered (by simp)
    | unbound empty => exact absurd empty (run.path_of_waiting wired waits)
    | authorize steps => exact confirms_store _
    | unmoved malformed =>
      rw [run.isValidLevel_of_waiting waits] at malformed
      cases malformed
    | reset valid => exact confirms_store _

theorem Happens.blames (happens : Happens device (.step input exchanges (some (.error error))) next)
    (run : Run (.boot config record) history device)
    (fits : ∀ exchange ∈ exchanges, exchange.Fits) (defensive : error.isDefensive = true) :
    (∃ exchange ∈ exchanges, exchange.failure? = some error) ∨
      error = .invalidState ∧ (input = .confirm ∨ input = .reject) ∧
        device.signer.pending = none := by
  have finished (prompt : Prompt) (session : Session)
      (waits : device.signer.pending = some { prompt := prompt, action := .sign session }) :
      session.Finished := run.finished waits
  cases happens with
  | step yields => exact Signer.step_blames finished yields fits defensive

/-- As long as the platform keeps to the room that it is given, a confirmed action is answered
unless a call to sign or to store has failed, and then that is the answer; and on every such
platform there is an answer.  An error that guards against the impossible is one that a call
of the same step has failed with; that there was nothing to confirm or to reject is the one
other reason for `invalidState`. -/
theorem Run.refused_for_cause (run : Run (.boot config record) history device)
    (wired : ∀ happening ∈ history, ∀ command, happening.input ≠ .command command) :
    (device.signer.pending ≠ none →
      (∀ exchanges answer next, Happens device (.step .confirm exchanges answer) next →
        (∀ exchange ∈ exchanges, exchange.Fits) → Confirms exchanges answer) ∧
      ∀ platform : (call : Call) → call.Reply, ∃ exchanges answer next,
        Happens device (.step .confirm exchanges answer) next ∧
          ∀ exchange ∈ exchanges, exchange.reply = platform exchange.call) ∧
    ∀ input exchanges error next,
      Happens device (.step input exchanges (some (.error error))) next →
      (∀ exchange ∈ exchanges, exchange.Fits) →
        (error = .memoryError ∨ error = .storage ∨ error = .encodingFailed →
          ∃ exchange ∈ exchanges, exchange.failure? = some error) ∧
        (error = .invalidState →
          (∃ exchange ∈ exchanges, exchange.failure? = some error) ∨
            (input = .confirm ∨ input = .reject) ∧ device.signer.pending = none) := by
  refine ⟨fun waiting => ?_, ?_⟩
  · obtain ⟨pending, waits⟩ := Option.ne_none_iff_exists'.1 waiting
    exact ⟨fun _ _ _ happens => run.confirms wired waits happens,
      fun platform => exists_happens platform device .confirm⟩
  · intro input exchanges error next happens fits
    have blames (defensive : error.isDefensive = true) := happens.blames run fits defensive
    refine ⟨?_, ?_⟩
    · rintro (rfl | rfl | rfl)
      all_goals
        rcases blames rfl with failed | ⟨impossible, _⟩
        · exact failed
        · cases impossible
    · rintro rfl
      exact (blames rfl).imp_right fun nothing => nothing.2

/-- The data packet of a transfer, as it arrives. -/
def transferPacket : Apdu :=
  { commandClass := commandClass
    instruction := Instruction.sign.code
    control := PacketControl.encode { kind := .next, last := true }
    payload := transferBytes }

/-- A wallet that asks the operator about a transfer is ready to sign it: only the platform can
still fail. -/
theorem Run.transfer_ready :
    ∃ history device,
      history = [.step (.apdu openingPacket) [] (some (.ok .none)),
        .step (.apdu transferPacket)
          [⟨.parse bakingKey transferBytes Mode.wallet.acceptedTags, some transfer⟩]
          (some (.ok .pending))] ∧
      Run (.boot { mode := .wallet } newBaker.encode) history device ∧
      device.signer.pending ≠ none ∧
      ∀ exchanges answer next, Happens device (.step .confirm exchanges answer) next →
        (∀ exchange ∈ exchanges, exchange.Fits) → Confirms exchanges answer := by
  have transferRead : (Input.apdu transferPacket).command? =
      some (.signNext .sign { kind := .next, last := true } transferBytes) := rfl
  obtain ⟨pending, _, commands, _⟩ := Run.signs_transfer
  obtain ⟨_, opens, asks⟩ := run_pair_iff.1 commands
  have run := run_pair_iff.2 ⟨_, (happens_read_iff openingPacket_reads).2 opens,
    (happens_read_iff transferRead).2 asks⟩
  have waits : ((Signer.boot { mode := .wallet }).suspend pending).2.pending ≠ none :=
    Option.some_ne_none pending
  refine ⟨_, _, rfl, run, waits, ((run.refused_for_cause ?_).1 waits).1⟩
  simp [Happening.input]

end Device

end TezosSigner
