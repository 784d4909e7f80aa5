/-
Module: TezosSigner.Proofs.Progress
Purpose: After every run, a device holds exactly what its history says it has under way.
Main exports:
  Session.Shows, Pending.Asks, Device.Reflects, Device.Happens.reflects, Device.Run.reflects,
  Device.Run.submits
-/
import TezosSigner.Proofs.Requests

namespace TezosSigner

/-!
`Device.Reflects` ties the volatile state of a device to the progress that an observer reads
off its history.  It holds of a device that has just booted, and everything that can happen
keeps it, power cuts included.  Whatever is said about a session or a pending request can
thus be said about the packets that the host has sent and the operator has seen.
-/

/-- What the operator is shown before a finished session is signed.  A baking device has
checked by then that the key is the authorized one. -/
def Session.Shows (mode : Mode) (state : BakingState) (session : Session) (prompt : Prompt) :
    Prop :=
  match mode with
  | .wallet =>
      session.isHashing = false ∧ prompt = Prompt.preHashed ∨
        ∃ hash, session.isHashing = true ∧ session.finalHash = some hash ∧
          Mode.walletPrompt session hash = .ok prompt
  | .baking =>
      ∃ group, session.magic = .unsafeOp ∧ session.parsed = .operations group ∧
        state.authorizes session.key = true ∧ group.isSelfDelegation = true ∧
        prompt = Prompt.registerDelegate group

/-- What waits for the operator once a command that is no signing packet was accepted.  Only
a baking device is told what its baking state is to be. -/
inductive Pending.Asks (mode : Mode) : Command → List Exchange → Pending → Prop where
  | getPublicKey {key : KeyPath} {reply : KeyReply} {publicKey : Bytes}
      (fetched : Signer.Fetched reply publicKey) :
      Pending.Asks mode (.getPublicKey key) [⟨.publicKey key, .ok reply⟩]
        { prompt := Prompt.providePublicKey publicKey, action := .exportKey publicKey }
  | authorizeBaking {key : KeyPath} {reply : KeyReply} {publicKey : Bytes}
      (baking : mode = .baking) (fetched : Signer.Fetched reply publicKey) :
      Pending.Asks mode (.authorizeBaking key) [⟨.publicKey key, .ok reply⟩]
        { prompt := Prompt.authorizeBaking publicKey, action := .authorize key publicKey }
  | resetHighWaterMark {level : UInt32} (baking : mode = .baking)
      (valid : isValidLevel level = true) :
      Pending.Asks mode (.resetHighWaterMark level) []
        { prompt := Prompt.resetHighWaterMark level, action := .reset level }

namespace Mode

/-- A finished session waits for the operator without a call, and with a prompt that belongs
to it. -/
theorem complete_awaits {mode : Mode} {state : BakingState} {session : Session}
    {exchanges : List Exchange} {pending : Pending}
    (completes : (mode.complete state session).Yields exchanges (.ok (.awaits pending))) :
    exchanges = [] ∧ ∃ prompt, pending = { prompt := prompt, action := .sign session } ∧
      session.Shows mode state prompt := by
  cases mode with
  | wallet =>
    obtain ⟨rfl, completed⟩ := Act.yields_ofExcept_iff.1 completes
    obtain ⟨prompt, same, shown⟩ := Mode.completeForWallet_ok completed.symm
    cases same
    exact ⟨rfl, prompt, rfl, shown⟩
  | baking =>
    generalize outcomeEq : Except.ok (Completion.awaits pending) = outcome at completes
    cases Mode.completeForBaking_yields completes with
    | asks kind parsed authorized selfDelegation =>
      cases outcomeEq
      exact ⟨rfl, _, rfl, _, kind, parsed, authorized, selfDelegation, rfl⟩
    | _ => cases outcomeEq

/-- A finished session stores nothing and is not answered, or it is vouched for and signed, and
then the mark is stored. -/
theorem complete_stores {mode : Mode} {state : BakingState} {session : Session}
    {exchanges : List Exchange} {outcome : Except SignerError Completion}
    (completes : (mode.complete state session).Yields exchanges outcome) :
    ((∀ exchange ∈ exchanges, exchange.Unstoring) ∧
        ∀ answer, outcome ≠ .ok (.answered answer)) ∨
      mode = .baking ∧ ∃ payload front answer reply, state.Vouches session payload ∧
        session.Signs front (.ok answer) ∧
        exchanges = front ++ [⟨.store { state with mark := payload.mark }.encode, reply⟩] ∧
        outcome = reply.map fun _ => .answered answer := by
  cases mode with
  | wallet =>
    obtain ⟨rfl, rfl⟩ := Act.yields_ofExcept_iff.1 completes
    refine .inl ⟨by simp, ?_⟩
    intro answer same
    obtain ⟨prompt, impossible, _⟩ := Mode.completeForWallet_ok same
    cases impossible
  | baking =>
    cases Mode.completeForBaking_yields completes with
    | refused => exact .inl ⟨by simp, by simp⟩
    | asks _ _ _ _ => exact .inl ⟨by simp, by simp⟩
    | unsigned vouched signs => exact .inl ⟨signs.unstoring, by simp⟩
    | unrecorded vouched signs =>
      exact .inr ⟨rfl, _, _, _, .error _, vouched, signs, rfl, rfl⟩
    | baked vouched signs => exact .inr ⟨rfl, _, _, _, .ok (), vouched, signs, rfl, rfl⟩

/-- Where a finished session is answered at once, it was signed. -/
theorem complete_answered {mode : Mode} {state : BakingState} {session : Session}
    {exchanges : List Exchange} {answer : Answer}
    (completes : (mode.complete state session).Yields exchanges (.ok (.answered answer))) :
    ∃ front, session.Signs front (.ok answer) := by
  rcases complete_stores completes with
    ⟨_, unanswered⟩ | ⟨_, _, front, _, reply, _, signs, _, same⟩
  · exact absurd rfl (unanswered answer)
  · cases reply with
    | ok done =>
      cases same
      exact ⟨front, signs⟩
    | error error => cases same

end Mode

/-- Signing a session is answered by a signature or a hash. -/
theorem Session.Signs.answered {session : Session} {exchanges : List Exchange} {answer : Answer}
    (signs : session.Signs exchanges (.ok answer)) : answer ≠ .none ∧ answer ≠ .pending := by
  generalize outcomeEq : Except.ok answer = outcome at signs
  cases signs with
  | hashOnly hashing finished flag =>
    cases outcomeEq
    exact ⟨by simp, by simp⟩
  | signed asked fits =>
    cases outcomeEq
    exact ⟨by simp, by simp⟩
  | _ => cases outcomeEq

namespace Signer

variable {signer next : Signer} {record : Record} {state : BakingState} {command : Command}
  {input : Input} {exchanges : List Exchange}

/-- A command changes neither the mode nor the rest of the configuration. -/
theorem Performs.config {answer : Answer}
    (performs : signer.Performs state command exchanges (.ok (answer, next))) :
    next.config = signer.config := by
  generalize outcomeEq : Except.ok (answer, next) = outcome at performs
  cases performs with
  | signNext takes =>
    cases takes with
    | finished continues takes last completes =>
      rename_i outcome
      cases outcome with
      | error error => cases outcomeEq
      | ok completion =>
        cases completion <;> cases outcomeEq <;> rfl
    | _ => cases outcomeEq <;> rfl
  | _ => cases outcomeEq <;> rfl

/-- No step changes the configuration. -/
theorem Steps.config {answer : Option (Except SignerError Answer)}
    (steps : signer.Steps record input exchanges answer next) : next.config = signer.config := by
  cases steps with
  | obeyed read performs => exact performs.config
  | _ => rfl

/-- Only a baking device answers the queries. -/
theorem Performs.baking_of_query {answer : Answer}
    (performs : signer.Performs state command exchanges (.ok (answer, next)))
    (query : command = .queryAuthKey ∨ command = .queryHighWaterMark) :
    signer.config.mode = .baking := by
  generalize outcomeEq : Except.ok (answer, next) = outcome at performs
  rcases query with rfl | rfl
  · cases performs with
    | queryAuthKey baking => exact baking
    | _ => cases outcomeEq
  · cases performs with
    | queryHighWaterMark baking => exact baking
    | _ => cases outcomeEq

end Signer

/-- An answer that settles a data packet leaves nothing under way. -/
theorem Progress.pushed_of_answered {progress : Progress} {packet : DataPacket}
    {answer : Answer} (settled : answer ≠ .none) (decided : answer ≠ .pending) :
    progress.pushed packet answer = .nothing := by
  unfold Progress.pushed
  split
  · exact absurd rfl settled
  · exact absurd rfl decided
  · rfl

namespace Device

/-- Whatever happens, a device keeps the configuration that it booted with. -/
theorem Happens.config {device next : Device} {happening : Happening}
    (happens : Happens device happening next) : next.signer.config = device.signer.config := by
  cases happens with
  | step yields => exact (Signer.steps_of_yields yields).config
  | powerCut begins => rfl

/-- A device that holds what the given progress says. -/
inductive Reflects (device : Device) : Progress → Prop where
  | nothing (unheld : device.signer.session = none) (unasked : device.signer.pending = none) :
      Reflects device .nothing
  | receiving {session : Session} {request : SigningRequest}
      (held : device.signer.session = some session) (unasked : device.signer.pending = none)
      (carries : session.Carries device.signer.config.mode request)
      (more : ∀ packet ∈ request.packets, packet.control.last = false) :
      Reflects device (.receiving request)
  | signing {session : Session} {prompt : Prompt} {request : SigningRequest}
      (unheld : device.signer.session = none)
      (waits : device.signer.pending =
        some { prompt := prompt, action := .sign session.finish })
      (carries : session.Carries device.signer.config.mode request)
      (complete : request.IsComplete)
      (shown : session.finish.Shows device.signer.config.mode
        (BakingState.decode device.record) prompt) :
      Reflects device (.signing request)
  | asked {command : Command} {exchanges : List Exchange} {pending : Pending}
      (unheld : device.signer.session = none) (waits : device.signer.pending = some pending)
      (asks : Pending.Asks device.signer.config.mode command exchanges pending) :
      Reflects device (.asked command exchanges)

variable {device next : Device} {progress : Progress} {happening : Happening}

theorem Reflects.boot (config : Config) (record : Record) :
    (Device.boot config record).Reflects .nothing :=
  .nothing rfl rfl

/-- What waits for the operator is a finished signing request, or another command that they
are asked about; no session is under way meanwhile. -/
theorem Reflects.waiting (reflects : device.Reflects progress) {pending : Pending}
    (waits : device.signer.pending = some pending) :
    device.signer.session = none ∧
      ((∃ request unfinished, progress = .signing request ∧
          pending.action = .sign (Session.finish unfinished) ∧
          unfinished.Carries device.signer.config.mode request ∧ request.IsComplete ∧
          unfinished.finish.Shows device.signer.config.mode
            (BakingState.decode device.record) pending.prompt) ∨
        ∃ command exchanges, progress = .asked command exchanges ∧
          Pending.Asks device.signer.config.mode command exchanges pending) := by
  cases reflects with
  | nothing _ unasked =>
    rw [unasked] at waits
    cases waits
  | receiving _ unasked _ _ =>
    rw [unasked] at waits
    cases waits
  | signing unheld same carries complete shown =>
    rw [same] at waits
    cases waits
    exact ⟨unheld, .inl ⟨_, _, rfl, rfl, carries, complete, shown⟩⟩
  | asked unheld same asks =>
    rw [same] at waits
    cases waits
    exact ⟨unheld, .inr ⟨_, _, rfl, asks⟩⟩

/-- A session under way is that of the request that is being received. -/
theorem Reflects.received (reflects : device.Reflects progress) {session : Session}
    (held : device.signer.session = some session) :
    ∃ request, progress = .receiving request ∧ device.signer.pending = none ∧
      session.Carries device.signer.config.mode request ∧
      ∀ packet ∈ request.packets, packet.control.last = false := by
  cases reflects with
  | nothing unheld _ =>
    rw [unheld] at held
    cases held
  | receiving same unasked carries more =>
    rw [held] at same
    cases same
    exact ⟨_, rfl, unasked, carries, more⟩
  | signing unheld _ _ _ _ =>
    rw [unheld] at held
    cases held
  | asked unheld _ _ =>
    rw [unheld] at held
    cases held

/-- A data packet that a baking device takes is the only one of the request that is being
received. -/
theorem Reflects.takes_only {instruction : Instruction} {control : PacketControl} {data : Bytes}
    {session taken : Session} {exchanges : List Exchange} (reflects : device.Reflects progress)
    (baking : device.signer.config.mode = .baking)
    (continues : device.signer.Continues instruction control session)
    (takes : session.Takes .baking control data exchanges taken) :
    ∃ key, progress = .receiving { instruction := instruction, key := key, packets := [] } ∧
      control.kind = .next ∧
      taken.Carries .baking
        { instruction := instruction
          key := key
          packets := [{ control := control, data := data, exchanges := exchanges }] } ∧
      taken.Understands .baking
        [{ control := control, data := data, exchanges := exchanges }] := by
  obtain ⟨request, rfl, _, carries, _⟩ := reflects.received continues.held
  have permitted := continues.permitted
  rw [baking] at carries permitted
  obtain ⟨none, kind, carried, understands⟩ := carries.take_only takes permitted
  have same : request.instruction = instruction :=
    carries.instruction.symm.trans continues.same
  obtain ⟨opened, key, packets⟩ := request
  subst same
  cases none
  exact ⟨key, rfl, kind, carried, understands⟩

/-- What waits before a session is signed is the request that the operator is asked about. -/
theorem Reflects.consented (reflects : device.Reflects progress) {prompt : Prompt}
    {session : Session}
    (waits : device.signer.pending = some { prompt := prompt, action := .sign session }) :
    ∃ request unfinished, progress = .signing request ∧ session = Session.finish unfinished ∧
      unfinished.Carries device.signer.config.mode request ∧ request.IsComplete ∧
      session.Shows device.signer.config.mode (BakingState.decode device.record) prompt := by
  rcases (reflects.waiting waits).2 with
    ⟨request, unfinished, same, action, carries, complete, shown⟩ | ⟨_, _, _, asks⟩
  · cases action
    exact ⟨request, unfinished, same, rfl, carries, complete, shown⟩
  · cases asks

/-- A data packet that is accepted goes on with the request, or ends it.  Nothing is stored
before the operator is asked, so what was checked for the prompt is still so when they
decide. -/
theorem Reflects.pushed {instruction : Instruction} {control : PacketControl} {data : Bytes}
    {exchanges : List Exchange} {answer : Answer} {after : Signer}
    (reflects : device.Reflects progress)
    (takes : device.signer.TakesPacket (BakingState.decode device.record) instruction control
      data exchanges (.ok (answer, after))) :
    Reflects { signer := after, record := device.record.after exchanges }
      (progress.pushed { control := control, data := data, exchanges := exchanges } answer) := by
  generalize outcomeEq : Except.ok (answer, after) = outcome at takes
  cases takes with
  | refused => cases outcomeEq
  | overflowed _ _ => cases outcomeEq
  | collected continues takes more counts =>
    cases outcomeEq
    obtain ⟨request, rfl, unasked, carries, earlier⟩ := reflects.received continues.held
    refine .receiving rfl unasked (carries.take takes continues.permitted) ?_
    intro packet member
    rcases List.mem_append.1 member with old | new
    · exact earlier packet old
    · rw [List.mem_singleton.1 new]
      exact more
  | finished continues takes last completes =>
    rename_i session taken before rest outcome
    obtain ⟨request, rfl, unasked, carries, earlier⟩ := reflects.received continues.held
    cases outcome with
    | error error => cases outcomeEq
    | ok completion =>
      cases completion with
      | answered given =>
        cases outcomeEq
        obtain ⟨_, signs⟩ := Mode.complete_answered completes
        rw [Progress.pushed_of_answered signs.answered.1 signs.answered.2]
        exact .nothing rfl unasked
      | awaits pending =>
        cases outcomeEq
        obtain ⟨rfl, prompt, rfl, shown⟩ := Mode.complete_awaits completes
        rw [List.append_nil]
        obtain ⟨_, classifies, _⟩ := takes.understood
        rw [Record.after_eq_self (Exchange.filterMap_stored?_of_unstoring classifies.unstoring)]
        -- The prompt was checked against the record that is still there.
        have carried := carries.take takes continues.permitted
        exact .signing rfl rfl carried ⟨request.packets, _, rfl, earlier, last⟩ shown

/-- A command that is obeyed keeps a device to its progress. -/
theorem Reflects.obeyed {command : Command} {exchanges : List Exchange} {answer : Answer}
    {after : Signer} (reflects : device.Reflects progress)
    (performs : device.signer.Performs (BakingState.decode device.record) command exchanges
      (.ok (answer, after))) :
    Reflects { signer := after, record := device.record.after exchanges }
      (progress.obeyed command exchanges answer) := by
  generalize outcomeEq : Except.ok (answer, after) = outcome at performs
  cases performs with
  | refused => cases outcomeEq
  | keyRefused _ => cases outcomeEq
  | none =>
    cases outcomeEq
    exact reflects
  | signFirst available more started =>
    cases outcomeEq
    exact .receiving rfl rfl (Session.Carries.start started available) (by simp)
  | signNext takes =>
    cases outcomeEq
    exact reflects.pushed takes
  | exporting prompts fetched =>
    cases outcomeEq
    exact .asked rfl rfl (.getPublicKey fetched)
  | exported prompts fetched =>
    cases outcomeEq
    exact .nothing rfl rfl
  | authorizing baking fetched =>
    cases outcomeEq
    exact .asked rfl rfl (.authorizeBaking baking fetched)
  | resetting baking valid =>
    cases outcomeEq
    exact .asked rfl rfl (.resetHighWaterMark baking valid)
  | queryAuthKey baking =>
    cases outcomeEq
    exact reflects
  | queryHighWaterMark baking =>
    cases outcomeEq
    exact reflects

/-- Whatever happens, a device holds what its progress says. -/
theorem Happens.reflects (reflects : device.Reflects progress)
    (happens : Happens device happening next) : next.Reflects (progress.next happening) := by
  cases happens with
  | powerCut begins => exact .nothing rfl rfl
  | @step signer after record input exchanges answer yields =>
    cases Signer.steps_of_yields yields with
    | obeyed read performs =>
      have obeyed := reflects.obeyed performs
      simp only [Progress.next, read]
      exact obeyed
    | refused read performs => exact .nothing rfl rfl
    | unread unread => exact .nothing rfl rfl
    | confirmed waits performs => exact .nothing (reflects.waiting waits).1 rfl
    | unconfirmed waits performs => exact .nothing rfl rfl
    | rejected waits => exact .nothing (reflects.waiting waits).1 rfl
    | unasked resumes nothing => exact .nothing rfl rfl
    | reset => exact .nothing rfl rfl

/-- After every run, a device holds what its history says, in the configuration that it
booted with. -/
theorem Run.reflects {config : Config} {record : Record} {history : List Happening}
    (run : Run (.boot config record) history device) :
    device.signer.config = config ∧ device.Reflects (.ofHistory history) := by
  refine Run.concat_induction (motive := fun history device =>
    device.signer.config = config ∧ device.Reflects (.ofHistory history)) ?_ ?_ run
  · exact ⟨rfl, .boot config record⟩
  · intro history middle last happening _ before happens
    obtain ⟨sameConfig, reflects⟩ := before
    rw [Progress.ofHistory_concat]
    exact ⟨happens.config.trans sameConfig, happens.reflects reflects⟩

end Device

/-!
## The request in the history

Progress is a summary.  The packets that it counts to a request are in the history, in this
order and with nothing between them that could have put another request in their place.
-/

/-- The signing request that is under way, if there is one. -/
def Progress.request? : Progress → Option SigningRequest
  | .receiving request => some request
  | .signing request => some request
  | _ => none

theorem Progress.eq_push_of_pushed {earlier request : SigningRequest} {packet : DataPacket}
    {answer : Answer}
    (underWay : ((Progress.receiving earlier).pushed packet answer).request? = some request) :
    request = earlier.push packet := by
  cases answer with
  | none =>
    cases underWay
    rfl
  | pending =>
    cases underWay
    rfl
  | _ => cases underWay

/-- A data packet that is obeyed is taken. -/
theorem Signer.Performs.takes {signer next : Signer} {state : BakingState}
    {instruction : Instruction} {control : PacketControl} {data : Bytes}
    {exchanges : List Exchange} {answer : Answer}
    (performs : signer.Performs state (.signNext instruction control data) exchanges
      (.ok (answer, next))) :
    signer.TakesPacket state instruction control data exchanges (.ok (answer, next)) := by
  generalize outcomeEq : Except.ok (answer, next) = outcome at performs ⊢
  cases performs with
  | signNext takes => exact takes
  | _ => cases outcomeEq

/-- A data packet that is accepted goes on with a session. -/
theorem Signer.TakesPacket.continues {signer next : Signer} {state : BakingState}
    {instruction : Instruction} {control : PacketControl} {data : Bytes}
    {exchanges : List Exchange} {answer : Answer}
    (takes : signer.TakesPacket state instruction control data exchanges (.ok (answer, next))) :
    ∃ session, signer.Continues instruction control session := by
  generalize outcomeEq : Except.ok (answer, next) = outcome at takes
  cases takes with
  | refused => cases outcomeEq
  | overflowed _ _ => cases outcomeEq
  | collected continues _ _ _ => exact ⟨_, continues⟩
  | finished continues _ _ _ => exact ⟨_, continues⟩

namespace Device

variable {device next : Device} {progress : Progress} {happening : Happening}
  {history : List Happening} {request : SigningRequest}

/-- A command that is obeyed keeps the request under way in the history. -/
theorem Reflects.submits {command : Command} {exchanges : List Exchange} {answer : Answer}
    {after : Signer} (reflects : device.Reflects progress)
    (submitted : ∀ request, progress.request? = some request →
      Submits device.signer.config.mode history request)
    (performs : device.signer.Performs (BakingState.decode device.record) command exchanges
      (.ok (answer, after)))
    (accepted : happening.accepted? = some command) (made : happening.exchanges = exchanges)
    (underWay : (progress.obeyed command exchanges answer).request? = some request) :
    Submits device.signer.config.mode (history ++ [happening]) request := by
  cases command with
  | none => exact (submitted request underWay).idled accepted trivial
  | queryAuthKey =>
    have idle : device.signer.config.mode.Idle .queryAuthKey := by
      rw [performs.baking_of_query (.inl rfl)]
      trivial
    exact (submitted request underWay).idled accepted idle
  | queryHighWaterMark =>
    have idle : device.signer.config.mode.Idle .queryHighWaterMark := by
      rw [performs.baking_of_query (.inr rfl)]
      trivial
    exact (submitted request underWay).idled accepted idle
  | signFirst instruction key control =>
    cases underWay
    exact .opened ⟨control, accepted⟩
  | signNext instruction control data =>
    obtain ⟨session, continues⟩ := performs.takes.continues
    obtain ⟨earlier, rfl, _, carries, _⟩ := reflects.received continues.held
    have same : instruction = earlier.instruction :=
      continues.same.symm.trans carries.instruction
    subst same
    have pushed := (submitted earlier rfl).pushed accepted
    rw [Progress.eq_push_of_pushed underWay, ← made]
    exact pushed
  | getPublicKey key =>
    simp only [Progress.obeyed] at underWay
    split at underWay <;> cases underWay
  | authorizeBaking key => cases underWay
  | resetHighWaterMark level => cases underWay

theorem Happens.submits (reflects : device.Reflects progress)
    (submitted : ∀ request, progress.request? = some request →
      Submits device.signer.config.mode history request)
    (happens : Happens device happening next)
    (underWay : (progress.next happening).request? = some request) :
    Submits device.signer.config.mode (history ++ [happening]) request := by
  cases happens with
  | powerCut begins => cases underWay
  | @step signer after record input exchanges answer yields =>
    cases Signer.steps_of_yields yields with
    | obeyed read performs =>
      simp only [Progress.next, read] at underWay
      exact reflects.submits submitted performs read rfl underWay
    | _ => cases underWay

/-- The request that is under way after a run is the one that its history ends with. -/
theorem Run.submits {config : Config} {record : Record}
    (run : Run (.boot config record) history device) :
    ∀ request, (Progress.ofHistory history).request? = some request →
      Submits config.mode history request := by
  refine Run.concat_induction (motive := fun history _ =>
    ∀ request, (Progress.ofHistory history).request? = some request →
      Submits config.mode history request) ?_ ?_ run
  · intro request impossible
    cases impossible
  · intro history middle last happening before submitted happens request underWay
    obtain ⟨sameConfig, reflects⟩ := before.reflects
    rw [Progress.ofHistory_concat] at underWay
    rw [← sameConfig] at submitted ⊢
    exact happens.submits reflects submitted underWay

end Device

end TezosSigner
