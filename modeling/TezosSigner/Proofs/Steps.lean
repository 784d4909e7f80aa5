/-
Module: TezosSigner.Proofs.Steps
Purpose: The ways in which a command, an operator's consent and any other input can go.
Main exports:
  Action.Performs, Signer.Performs, Input.command?, Signer.Steps, Signer.settled,
  Signer.step_command_iff, Signer.step_confirm_iff, Signer.steps_of_yields
-/
import TezosSigner.Proofs.Packets

namespace TezosSigner

/-!
`Signer.Steps` lists everything that one step can do: which calls it makes, what it answers
and where it leaves the signer.  A property of all steps is proved by going through that
list; the programs themselves are opened here and nowhere else.
-/

/-- The ways in which an action can go once the operator has consented to it. -/
inductive Action.Performs (state : BakingState) :
    Action → List Exchange → Except SignerError Answer → Prop where
  | sign {session : Session} {exchanges : List Exchange} {outcome : Except SignerError Answer}
      (signs : session.Signs exchanges outcome) :
      Action.Performs state (.sign session) exchanges outcome
  | exportKey {publicKey : Bytes} :
      Action.Performs state (.exportKey publicKey) [] (.ok (.publicKey publicKey))
  | unbound {key : KeyPath} {publicKey : Bytes} (empty : key.path = []) :
      Action.Performs state (.authorize key publicKey) [] (.error .wrongLength)
  | authorize {key : KeyPath} {publicKey : Bytes} {reply : Except SignerError Unit}
      (steps : key.path ≠ []) :
      Action.Performs state (.authorize key publicKey)
        [⟨.store { state with key := some key }.encode, reply⟩]
        (reply.map fun _ => .publicKey publicKey)
  | unmoved {level : UInt32} (malformed : isValidLevel level = false) :
      Action.Performs state (.reset level) [] (.error .wrongParameter)
  | reset {level : UInt32} {reply : Except SignerError Unit} (valid : isValidLevel level = true) :
      Action.Performs state (.reset level)
        [⟨.store { state with mark := { level := level, endorsement := false } }.encode, reply⟩]
        (reply.map fun _ => .none)

theorem Action.performs_of_yields {state : BakingState} {action : Action}
    {exchanges : List Exchange} {outcome : Except SignerError Answer}
    (h : (action.perform state).Yields exchanges outcome) :
    Action.Performs state action exchanges outcome := by
  cases action with
  | sign session => exact .sign (Session.signs_of_yields h)
  | exportKey publicKey =>
    obtain ⟨rfl, rfl⟩ := Act.yields_pure_iff.1 h
    exact .exportKey
  | authorize key publicKey =>
    obtain ⟨result, binding, rfl⟩ := Act.yields_bind_pure_iff.1 h
    rcases BakingState.bindKey_yields binding with ⟨empty, rfl, rfl⟩ | ⟨steps, rfl⟩
    · exact .unbound empty
    · exact .authorize steps
  | reset level =>
    obtain ⟨result, moving, rfl⟩ := Act.yields_bind_pure_iff.1 h
    rcases BakingState.resetTo_yields moving with ⟨malformed, rfl, rfl⟩ | ⟨valid, rfl⟩
    · exact .unmoved malformed
    · exact .reset valid

namespace Signer

/-- A public key that the platform has reported within its room. -/
def Fetched (reply : KeyReply) (publicKey : Bytes) : Prop :=
  reply.length ≤ maxPublicKey ∧ publicKey = reply.buffer.toList.take reply.length

theorem fetchPublicKey_yields {key : KeyPath} {exchanges : List Exchange}
    {outcome : Except SignerError Bytes} (h : (fetchPublicKey key).Yields exchanges outcome) :
    (∃ reply error, exchanges = [⟨.publicKey key, reply⟩] ∧ outcome = .error error) ∨
      ∃ reply publicKey, exchanges = [⟨.publicKey key, .ok reply⟩] ∧
        Fetched reply publicKey ∧ outcome = .ok publicKey := by
  rcases Act.yields_bind_iff.1 h with ⟨error, rfl, first⟩ | ⟨front, back, reply, rfl, first, more⟩
  · obtain ⟨reply, rfl, rfl⟩ := Act.yields_publicKey_iff.1 first
    exact .inl ⟨_, error, rfl, rfl⟩
  · obtain ⟨_, rfl, rfl⟩ := Act.yields_publicKey_iff.1 first
    split at more
    · rename_i fits
      obtain ⟨rfl, rfl⟩ := Act.yields_pure_iff.1 more
      exact .inr ⟨reply, _, rfl, ⟨fits, rfl⟩, rfl⟩
    · obtain ⟨rfl, rfl⟩ := Act.yields_throw_iff.1 more
      exact .inl ⟨_, _, rfl, rfl⟩

theorem fetchPublicKey_fetches {key : KeyPath} {reply : KeyReply} {publicKey : Bytes}
    (fetched : Fetched reply publicKey) :
    (fetchPublicKey key).Yields [⟨.publicKey key, .ok reply⟩] (.ok publicKey) := by
  obtain ⟨fits, rfl⟩ := fetched
  rw [← List.append_nil [_], fetchPublicKey]
  refine Act.Yields.bind (Act.yields_publicKey_iff.2 ⟨.ok reply, rfl, rfl⟩) ?_
  rw [if_pos fits]
  exact Act.yields_pure_iff.2 ⟨rfl, rfl⟩

/-- A command that asks for a public key first either ends there, or goes on with the key. -/
theorem fetchPublicKey_bind_yields {Result : Type} {key : KeyPath} {next : Bytes → Act Result}
    {exchanges : List Exchange} {outcome : Except SignerError Result}
    (h : (fetchPublicKey key >>= next).Yields exchanges outcome) :
    (∃ reply error, exchanges = [⟨.publicKey key, reply⟩] ∧ outcome = .error error) ∨
      ∃ reply publicKey more, exchanges = ⟨.publicKey key, .ok reply⟩ :: more ∧
        Fetched reply publicKey ∧ (next publicKey).Yields more outcome := by
  rcases Act.yields_bind_iff.1 h with ⟨error, rfl, fetching⟩ | ⟨_, more, _, rfl, fetching, rest⟩
  · rcases fetchPublicKey_yields fetching with ⟨reply, _, rfl, _⟩ | ⟨_, _, _, _, impossible⟩
    · exact .inl ⟨reply, error, rfl, rfl⟩
    · cases impossible
  · rcases fetchPublicKey_yields fetching with ⟨_, _, _, impossible⟩ | ⟨_, _, rfl, fetched, same⟩
    · cases impossible
    · cases same
      exact .inr ⟨_, _, more, rfl, fetched, rest⟩

/-- The ways in which a command can go. -/
inductive Performs (signer : Signer) (state : BakingState) :
    Command → List Exchange → Except SignerError (Answer × Signer) → Prop where
  | refused {command : Command} {error : SignerError} :
      Performs signer state command [] (.error error)
  | keyRefused {command : Command} {key : KeyPath} {reply : Except SignerError KeyReply}
      {error : SignerError}
      (asks : command = .getPublicKey key ∨ command = .authorizeBaking key) :
      Performs signer state command [⟨.publicKey key, reply⟩] (.error error)
  | none : Performs signer state .none [] (.ok (.none, signer))
  | signFirst {instruction : Instruction} {key : KeyPath} {control : PacketControl}
      {session : Session} (available : instruction = .signUnsafe → signer.config.mode = .wallet)
      (more : control.last = false) (started : Session.start instruction key = .ok session) :
      Performs signer state (.signFirst instruction key control) []
        (.ok (.none, { signer.discard with session := some session, status := .receiving 0 }))
  | signNext {instruction : Instruction} {control : PacketControl} {data : Bytes}
      {exchanges : List Exchange} {outcome : Except SignerError (Answer × Signer)}
      (takes : signer.TakesPacket state instruction control data exchanges outcome) :
      Performs signer state (.signNext instruction control data) exchanges outcome
  | exporting {key : KeyPath} {reply : KeyReply} {publicKey : Bytes}
      (prompts : signer.config.promptPublicKey = true) (fetched : Fetched reply publicKey) :
      Performs signer state (.getPublicKey key) [⟨.publicKey key, .ok reply⟩]
        (.ok (signer.discard.suspend
          { prompt := Prompt.providePublicKey publicKey, action := .exportKey publicKey }))
  | exported {key : KeyPath} {reply : KeyReply} {publicKey : Bytes}
      (prompts : signer.config.promptPublicKey = false) (fetched : Fetched reply publicKey) :
      Performs signer state (.getPublicKey key) [⟨.publicKey key, .ok reply⟩]
        (.ok (.publicKey publicKey, { signer.discard with status := .complete }))
  | authorizing {key : KeyPath} {reply : KeyReply} {publicKey : Bytes}
      (baking : signer.config.mode = .baking) (fetched : Fetched reply publicKey) :
      Performs signer state (.authorizeBaking key) [⟨.publicKey key, .ok reply⟩]
        (.ok (signer.discard.suspend
          { prompt := Prompt.authorizeBaking publicKey, action := .authorize key publicKey }))
  | resetting {level : UInt32} (baking : signer.config.mode = .baking)
      (valid : isValidLevel level = true) :
      Performs signer state (.resetHighWaterMark level) []
        (.ok (signer.discard.suspend
          { prompt := Prompt.resetHighWaterMark level, action := .reset level }))
  | queryAuthKey (baking : signer.config.mode = .baking) :
      Performs signer state .queryAuthKey [] (.ok (.authorizedKey state.key, signer))
  | queryHighWaterMark (baking : signer.config.mode = .baking) :
      Performs signer state .queryHighWaterMark [] (.ok (.highWaterMark state.mark, signer))

variable {signer : Signer} {state : BakingState} {exchanges : List Exchange}

theorem signFirst_yields {instruction : Instruction} {key : KeyPath} {control : PacketControl}
    {outcome : Except SignerError (Answer × Signer)}
    (available : instruction = .signUnsafe → signer.config.mode = .wallet)
    (h : (signer.signFirst instruction key control).Yields exchanges outcome) :
    signer.Performs state (.signFirst instruction key control) exchanges outcome := by
  unfold signFirst at h
  split at h
  · obtain ⟨rfl, rfl⟩ := Act.yields_throw_iff.1 h
    exact .refused
  · rename_i more
    rcases Act.yields_ofExcept_bind_iff.1 h with ⟨error, _, rfl, rfl⟩ | ⟨session, started, last⟩
    · exact .refused
    · obtain ⟨rfl, rfl⟩ := Act.yields_pure_iff.1 last
      exact .signFirst available (Bool.not_eq_true _ ▸ more) started

theorem performs_of_yields {command : Command}
    {outcome : Except SignerError (Answer × Signer)}
    (h : (signer.perform state command).Yields exchanges outcome) :
    signer.Performs state command exchanges outcome := by
  unfold perform at h
  split at h
  · rename_i available
    cases command with
    | none =>
      obtain ⟨rfl, rfl⟩ := Act.yields_pure_iff.1 h
      exact .none
    | signFirst instruction key control =>
      refine signFirst_yields (fun raw => ?_) h
      subst raw
      cases mode : signer.config.mode with
      | wallet => rfl
      | baking =>
        rw [mode] at available
        cases available
    | signNext instruction control data => exact .signNext (signNext_yields h)
    | getPublicKey key =>
      rcases fetchPublicKey_bind_yields h with
        ⟨reply, error, rfl, rfl⟩ | ⟨reply, publicKey, more, rfl, fetched, rest⟩
      · exact .keyRefused (.inl rfl)
      · split at rest
        · rename_i prompts
          obtain ⟨rfl, rfl⟩ := Act.yields_pure_iff.1 rest
          exact .exporting prompts fetched
        · rename_i prompts
          obtain ⟨rfl, rfl⟩ := Act.yields_pure_iff.1 rest
          exact .exported (Bool.not_eq_true _ ▸ prompts) fetched
    | authorizeBaking key =>
      have baking : signer.config.mode = .baking := beq_iff_eq.1 available
      rcases fetchPublicKey_bind_yields h with
        ⟨reply, error, rfl, rfl⟩ | ⟨reply, publicKey, more, rfl, fetched, rest⟩
      · exact .keyRefused (.inr rfl)
      · obtain ⟨rfl, rfl⟩ := Act.yields_pure_iff.1 rest
        exact .authorizing baking fetched
    | resetHighWaterMark level =>
      have baking : signer.config.mode = .baking := beq_iff_eq.1 available
      dsimp only at h
      split at h
      · rename_i valid
        obtain ⟨rfl, rfl⟩ := Act.yields_pure_iff.1 h
        exact .resetting baking valid
      · obtain ⟨rfl, rfl⟩ := Act.yields_throw_iff.1 h
        exact .refused
    | queryAuthKey =>
      have baking : signer.config.mode = .baking := beq_iff_eq.1 available
      obtain ⟨rfl, rfl⟩ := Act.yields_pure_iff.1 h
      exact .queryAuthKey baking
    | queryHighWaterMark =>
      have baking : signer.config.mode = .baking := beq_iff_eq.1 available
      obtain ⟨rfl, rfl⟩ := Act.yields_pure_iff.1 h
      exact .queryHighWaterMark baking
  · obtain ⟨rfl, rfl⟩ := Act.yields_throw_iff.1 h
    exact .refused

/-- What a step comes to: the answer with the signer that it leaves, or an abort. -/
def settled (signer : Signer) : Except SignerError (Answer × Signer) →
    Except SignerError Answer × Signer
  | .ok (answer, next) => (.ok answer, next)
  | .error error => (.error error, signer.abort)

theorem settle_yields_iff {act : Act (Answer × Signer)}
    {result : Except SignerError Answer × Signer} :
    (signer.settle act).Yields exchanges result ↔
      ∃ outcome, act.Yields exchanges outcome ∧ result = signer.settled outcome := by
  have settle : signer.settle act = act.run.bind fun outcome => .done (signer.settled outcome) := by
    refine bind_congr fun outcome => ?_
    cases outcome <;> rfl
  rw [settle, Dialog.yields_bind_iff]
  constructor
  · rintro ⟨front, back, outcome, rfl, first, more⟩
    obtain ⟨rfl, rfl⟩ := Dialog.yields_done_iff.1 more
    exact ⟨outcome, (List.append_nil front).symm ▸ first, rfl⟩
  · rintro ⟨outcome, first, rfl⟩
    exact ⟨exchanges, [], outcome, (List.append_nil exchanges).symm, first, .done _⟩

/-- A baking device asks the operator before it authorizes a key. -/
theorem authorizeBaking_asks {key : KeyPath} {reply : KeyReply} {publicKey : Bytes}
    (baking : signer.config.mode = .baking) (fetched : Fetched reply publicKey) :
    (signer.perform state (.authorizeBaking key)).Yields [⟨.publicKey key, .ok reply⟩]
      (.ok (signer.discard.suspend
        { prompt := Prompt.authorizeBaking publicKey, action := .authorize key publicKey })) := by
  rw [perform, if_pos (by rw [baking]; rfl)]
  exact Act.yields_bind_pure_iff.2 ⟨.ok publicKey, fetchPublicKey_fetches fetched, rfl⟩

/-- A baking device asks the operator before it moves its mark to a level that is well formed. -/
theorem resetHighWaterMark_asks {level : UInt32} (baking : signer.config.mode = .baking)
    (valid : isValidLevel level = true) :
    (signer.perform state (.resetHighWaterMark level)).Yields []
      (.ok (signer.discard.suspend
        { prompt := Prompt.resetHighWaterMark level, action := .reset level })) := by
  rw [perform, if_pos (by rw [baking]; rfl)]
  simp only [if_pos valid]
  exact Act.yields_pure_iff.2 ⟨rfl, rfl⟩

/-- A baking device answers a query for its mark without a call. -/
theorem queryHighWaterMark_answers (baking : signer.config.mode = .baking) :
    (signer.perform state .queryHighWaterMark).Yields []
      (.ok (.highWaterMark state.mark, signer)) := by
  rw [perform, if_pos (by rw [baking]; rfl)]
  exact Act.yields_pure_iff.2 ⟨rfl, rfl⟩

end Signer

/-- The command that an input brings, if it brings one that can be read. -/
def Input.command? : Input → Option Command
  | .apdu received => (Command.ofApdu received).toOption
  | .command given => some given
  | _ => none

namespace Signer

/-- The ways in which a step can go. -/
inductive Steps (signer : Signer) (record : Record) :
    Input → List Exchange → Option (Except SignerError Answer) → Signer → Prop where
  | obeyed {input : Input} {command : Command} {exchanges : List Exchange} {answer : Answer}
      {next : Signer} (read : input.command? = some command)
      (performs : signer.Performs (BakingState.decode record) command exchanges
        (.ok (answer, next))) :
      Steps signer record input exchanges (some (.ok answer)) next
  | refused {input : Input} {command : Command} {exchanges : List Exchange}
      {error : SignerError} (read : input.command? = some command)
      (performs : signer.Performs (BakingState.decode record) command exchanges
        (.error error)) :
      Steps signer record input exchanges (some (.error error)) signer.abort
  | unread {apdu : Apdu} {error : SignerError} (unread : Command.ofApdu apdu = .error error) :
      Steps signer record (.apdu apdu) [] (some (.error error)) signer.abort
  | confirmed {pending : Pending} {exchanges : List Exchange} {answer : Answer}
      (waits : signer.pending = some pending)
      (performs : Action.Performs (BakingState.decode record) pending.action exchanges
        (.ok answer)) :
      Steps signer record .confirm exchanges (some (.ok answer))
        { signer with pending := none, status := .complete }
  | unconfirmed {pending : Pending} {exchanges : List Exchange} {error : SignerError}
      (waits : signer.pending = some pending)
      (performs : Action.Performs (BakingState.decode record) pending.action exchanges
        (.error error)) :
      Steps signer record .confirm exchanges (some (.error error)) signer.abort
  | rejected {pending : Pending} (waits : signer.pending = some pending) :
      Steps signer record .reject [] (some (.ok .rejected))
        { signer with pending := none, status := .rejected }
  | unasked {input : Input} (resumes : input = .confirm ∨ input = .reject)
      (nothing : signer.pending = none) :
      Steps signer record input [] (some (.error .invalidState)) signer.abort
  | reset : Steps signer record .reset [] none signer.reset

variable {signer next : Signer} {record : Record} {exchanges : List Exchange}

/-- The shape that all inputs with an answer share. -/
private theorem answer_yields_iff {act : Dialog (Except SignerError Answer × Signer)}
    {answer : Option (Except SignerError Answer)} :
    (do let (answer, next) ← act; pure (some answer, next) :
      Dialog (Option (Except SignerError Answer) × Signer)).Yields exchanges (answer, next) ↔
    ∃ given, answer = some given ∧ act.Yields exchanges (given, next) := by
  constructor
  · intro h
    obtain ⟨front, back, ⟨given, after⟩, rfl, first, more⟩ := Dialog.yields_bind_iff.1 h
    obtain ⟨rfl, same⟩ := Dialog.yields_done_iff.1 more
    cases same
    exact ⟨given, rfl, (List.append_nil front).symm ▸ first⟩
  · rintro ⟨given, rfl, yields⟩
    exact Dialog.yields_bind_iff.2
      ⟨exchanges, [], (given, next), (List.append_nil exchanges).symm, yields, .done _⟩

/-- An input that brings a command is obeyed like the command. -/
theorem step_of_command? {input : Input} {command : Command}
    (read : input.command? = some command) :
    signer.step record input = (do
      let (answer, next) ← signer.update (BakingState.decode record) command
      pure (some answer, next)) := by
  cases input with
  | apdu apdu =>
    cases readEq : Command.ofApdu apdu with
    | error error =>
      rw [Input.command?, readEq] at read
      cases read
    | ok given =>
      rw [Input.command?, readEq] at read
      cases read
      rw [step, handleApdu, readEq]
  | command given =>
    cases read
    rfl
  | confirm => cases read
  | reject => cases read
  | reset => cases read

/-- A step by a command is the command, performed and settled. -/
theorem step_command_iff {input : Input} {command : Command}
    {answer : Option (Except SignerError Answer)} (read : input.command? = some command) :
    (signer.step record input).Yields exchanges (answer, next) ↔
      ∃ outcome, (signer.perform (BakingState.decode record) command).Yields exchanges outcome ∧
        answer = some (signer.settled outcome).1 ∧ next = (signer.settled outcome).2 := by
  rw [step_of_command? read, answer_yields_iff]
  constructor
  · rintro ⟨given, rfl, updates⟩
    obtain ⟨outcome, performs, same⟩ := settle_yields_iff.1 updates
    exact ⟨outcome, performs, by rw [← same], by rw [← same]⟩
  · rintro ⟨outcome, performs, rfl, rfl⟩
    exact ⟨_, rfl, settle_yields_iff.2 ⟨outcome, performs, rfl⟩⟩

/-- A step by the operator's consent is the action that waits, performed and settled. -/
theorem step_confirm_iff {pending : Pending} {answer : Option (Except SignerError Answer)}
    (waits : signer.pending = some pending) :
    (signer.step record .confirm).Yields exchanges (answer, next) ↔
      ∃ outcome, (pending.action.perform (BakingState.decode record)).Yields exchanges outcome ∧
        answer = some outcome ∧
        next = (signer.settled (outcome.map fun given =>
          (given, { signer with pending := none, status := .complete }))).2 := by
  have confirms : signer.confirm (BakingState.decode record) = signer.settle (do
      let given ← pending.action.perform (BakingState.decode record)
      pure (given, { signer with pending := none, status := .complete })) := by
    rw [confirm, waits]
  refine answer_yields_iff.trans ?_
  simp only [confirms, settle_yields_iff, Act.yields_bind_pure_iff]
  constructor
  · rintro ⟨given, rfl, _, ⟨outcome, performs, rfl⟩, same⟩
    refine ⟨outcome, performs, ?_, by rw [← same]⟩
    cases outcome <;> cases same <;> rfl
  · rintro ⟨outcome, performs, rfl, rfl⟩
    refine ⟨outcome, rfl, _, ⟨outcome, performs, rfl⟩, ?_⟩
    cases outcome <;> rfl

/-- Whatever a step does is listed. -/
theorem steps_of_yields {input : Input} {answer : Option (Except SignerError Answer)}
    (h : (signer.step record input).Yields exchanges (answer, next)) :
    signer.Steps record input exchanges answer next := by
  cases read : input.command? with
  | some command =>
    obtain ⟨outcome, performs, rfl, rfl⟩ := (step_command_iff read).1 h
    cases outcome with
    | error error => exact .refused read (performs_of_yields performs)
    | ok result => exact .obeyed read (performs_of_yields performs)
  | none =>
    cases input with
    | apdu apdu =>
      cases readEq : Command.ofApdu apdu with
      | ok command =>
        rw [Input.command?, readEq] at read
        cases read
      | error error =>
        simp only [step, handleApdu, readEq] at h
        obtain ⟨rfl, same⟩ := Dialog.yields_done_iff.1 h
        cases same
        exact .unread readEq
    | command command => cases read
    | confirm =>
      cases waits : signer.pending with
      | none =>
        simp only [step, confirm, waits] at h
        obtain ⟨rfl, same⟩ := Dialog.yields_done_iff.1 h
        cases same
        exact .unasked (.inl rfl) waits
      | some pending =>
        obtain ⟨outcome, performs, rfl, rfl⟩ := (step_confirm_iff waits).1 h
        cases outcome with
        | error error => exact .unconfirmed waits (Action.performs_of_yields performs)
        | ok given => exact .confirmed waits (Action.performs_of_yields performs)
    | reject =>
      obtain ⟨rfl, same⟩ := Dialog.yields_done_iff.1 h
      cases waits : signer.pending with
      | none =>
        simp only [waits] at same
        cases same
        exact .unasked (.inr rfl) waits
      | some pending =>
        simp only [waits] at same
        cases same
        exact .rejected waits
    | reset =>
      obtain ⟨rfl, same⟩ := Dialog.yields_done_iff.1 h
      cases same
      exact .reset

/-- A command that is obeyed is a step. -/
theorem step_command_yields {command : Command} {answer : Answer}
    (h : (signer.perform (BakingState.decode record) command).Yields exchanges
      (.ok (answer, next))) :
    (signer.step record (.command command)).Yields exchanges (some (.ok answer), next) :=
  (step_command_iff rfl).2 ⟨_, h, rfl, rfl⟩

/-- A confirmed action that succeeds is a step. -/
theorem step_confirm_yields {pending : Pending} {answer : Answer}
    (waits : signer.pending = some pending)
    (h : (pending.action.perform (BakingState.decode record)).Yields exchanges (.ok answer)) :
    (signer.step record .confirm).Yields exchanges
      (some (.ok answer), { signer with pending := none, status := .complete }) :=
  (step_confirm_iff waits).2 ⟨.ok answer, h, rfl, rfl⟩

end Signer

end TezosSigner
