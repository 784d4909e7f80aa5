/-
Module: TezosSigner.Proofs.Representation
Purpose: What a device can hold, and what its status tells of it, after every run.
Main exports:
  Session.Sound, Session.Sound.take, Signer.WellFormed, Signer.Steps.wellFormed,
  Device.Run.wellFormed, Signer.Holds, Device.Represents, Device.Run.represents
-/
import TezosSigner.Proofs.SinglePacket

namespace TezosSigner

/-!
The session, the pending request and the status of a signer are separate fields, and most of
their combinations make no sense.  `Signer.WellFormed` lists the ones that a signer can be in:
it is receiving a message, or asking the operator, or at rest, and its status says which.
Every step goes from one of them to another, so a device never leaves them.
-/

namespace Mode.Classifies

variable {mode : Mode} {session read : Session} {data : Bytes} {exchanges : List Exchange}

/-- A hashed message is of a kind that the mode accepts once it was classified. -/
theorem isAllowed (classifies : mode.Classifies session data exchanges read)
    (hashing : session.isHashing = true)
    (known : session.packets ≠ 1 → session.magic.isAllowed mode = true) :
    read.magic.isAllowed mode = true := by
  cases classifies with
  | raw raw =>
    rw [hashing] at raw
    cases raw
  | later _ _ later => exact known later
  | payload _ baking _ kind =>
    subst baking
    exact Magic.isAllowed_of_isBaking kind
  | operations _ _ allowed _ => exact allowed

/-- What is understood is understood from the first data packet of a hashed message. -/
theorem first_of_isValid (classifies : mode.Classifies session data exchanges read)
    (raw : session.isHashing = false → session.parsed.isValid = false)
    (valid : read.parsed.isValid = true) : session.isHashing = true ∧ session.packets = 1 := by
  cases classifies with
  | raw unhashed =>
    rw [raw unhashed] at valid
    cases valid
  | later _ _ _ => cases valid
  | payload hashing _ first _ => exact ⟨hashing, first⟩
  | operations hashing first _ _ => exact ⟨hashing, first⟩

end Mode.Classifies

namespace Session

/-- What holds of every session that a device of the given mode has, finished or not. -/
structure Sound (mode : Mode) (session : Session) : Prop where
  /-- A message was understood only as long as its first data packet is the only one. -/
  understood : session.parsed.isValid = true → session.isHashing = true ∧ session.packets = 1
  kind : session.isHashing = true → session.packets ≠ 0 → session.magic.isAllowed mode = true
  baking : mode = .baking →
    session.instruction ≠ .signUnsafe ∧ session.hashOnly = false ∧ session.packets.toNat ≤ 1

variable {mode : Mode} {session taken : Session}

theorem Sound.start {instruction : Instruction} {key : KeyPath}
    (started : Session.start instruction key = .ok session)
    (available : instruction = .signUnsafe → mode = .wallet) : session.Sound mode := by
  unfold Session.start at started
  split at started
  · cases started
    refine { understood := by simp [Parsed.isValid], kind := by simp, baking := ?_ }
    intro baking
    refine ⟨fun raw => ?_, rfl, Nat.zero_le _⟩
    rw [available raw] at baking
    cases baking
  · cases started

/-- Every data packet that is taken leaves a sound session sound. -/
theorem Sound.take {control : PacketControl} {data : Bytes} {exchanges : List Exchange}
    (sound : session.Sound mode) (takes : session.Takes mode control data exchanges taken)
    (permitted : control.kind = .hashOnlyNext → mode = .wallet) : taken.Sound mode := by
  obtain ⟨_, _, read, classifies, appending⟩ := takes
  obtain ⟨magic, parsed, rfl⟩ := exists_of_classifies classifies
  obtain ⟨message, rfl, _⟩ := append_ok appending
  have first := packets_counted_eq_one_iff session control.kind
  refine { understood := ?_, kind := ?_, baking := ?_ }
  · intro valid
    apply classifies.first_of_isValid ?_ valid
    intro raw
    by_contra understood
    rw [Bool.not_eq_false] at understood
    have hashing : session.isHashing = true := (sound.understood understood).1
    have unhashed : session.isHashing = false := raw
    rw [hashing] at unhashed
    cases unhashed
  · intro hashing _
    apply classifies.isAllowed hashing
    intro later
    apply sound.kind hashing
    intro none
    rw [Ne, first, none] at later
    exact later rfl
  · intro baking
    subst baking
    obtain ⟨hashed, unflagged, _⟩ := sound.baking rfl
    have hashing : session.isHashing = true := by simpa [isHashing] using hashed
    refine ⟨hashed, ?_, ?_⟩
    · have kind : control.kind ≠ .hashOnlyNext := fun flag => by cases permitted flag
      simpa [counted, classifyAs, unflagged] using kind
    · have only : (session.counted control.kind).packets = 1 :=
        classifies.first_of_baking hashing
      simp [classifyAs, only]

@[simp] theorem packets_finish : session.finish.packets = session.packets := by
  unfold finish
  split <;> rfl

theorem Sound.finish (sound : session.Sound mode) : session.finish.Sound mode :=
  { understood := by simpa using sound.understood
    kind := by simpa using sound.kind
    baking := by simpa using sound.baking }

/-- A hashed message that is finished has its hash, and its bytes are gone. -/
def Closed (session : Session) : Prop :=
  session.isHashing = true →
    (∃ hash, session.finalHash = some hash) ∧ session.message.pending = []

theorem closed_finish (session : Session) : session.finish.Closed := by
  intro hashing
  rw [isHashing_finish] at hashing
  rw [finish_of_hashing hashing]
  exact ⟨⟨_, rfl⟩, rfl⟩

end Session

/-- A status that a signer without a session or a pending request reports. -/
def Status.isResting : Status → Bool
  | .idle => true
  | .receiving _ => false
  | .pending => false
  | .complete => true
  | .rejected => true
  | .error => true

theorem Status.isResting_iff {status : Status} :
    status.isResting = true ↔ (∀ count, status ≠ .receiving count) ∧ status ≠ .pending := by
  cases status <;> simp [isResting]

namespace Signer

/-- The states of a signer that make sense. -/
inductive WellFormed (signer : Signer) : Prop where
  | receiving {session : Session} (held : signer.session = some session)
      (unasked : signer.pending = none)
      (status : signer.status = .receiving session.packets)
      (sound : session.Sound signer.config.mode) (unfinished : session.finalHash = none)
  | asking {pending : Pending} (unheld : signer.session = none)
      (waits : signer.pending = some pending) (status : signer.status = .pending)
      (closed : ∀ session, pending.action = .sign session →
        session.Sound signer.config.mode ∧ session.Closed)
  | resting (unheld : signer.session = none) (unasked : signer.pending = none)
      (status : signer.status.isResting = true)

variable {signer next : Signer} {record : Record} {state : BakingState}
  {exchanges : List Exchange}

theorem wellFormed_boot (config : Config) : (boot config).WellFormed :=
  .resting rfl rfl rfl

theorem wellFormed_abort (signer : Signer) : signer.abort.WellFormed :=
  .resting rfl rfl rfl

/-- A session that goes on is sound, and not finished. -/
theorem WellFormed.received {instruction : Instruction} {control : PacketControl}
    {session : Session} (wellFormed : signer.WellFormed)
    (continues : signer.Continues instruction control session) :
    signer.pending = none ∧ session.Sound signer.config.mode ∧ session.finalHash = none := by
  have held := continues.held
  cases wellFormed with
  | receiving same unasked status sound unfinished =>
    rw [same] at held
    cases held
    exact ⟨unasked, sound, unfinished⟩
  | asking unheld _ _ _ =>
    rw [unheld] at held
    cases held
  | resting unheld _ _ =>
    rw [unheld] at held
    cases held

/-- While the operator is asked, no session is in progress. -/
theorem WellFormed.waiting {pending : Pending} (wellFormed : signer.WellFormed)
    (waits : signer.pending = some pending) : signer.session = none := by
  cases wellFormed with
  | receiving _ unasked _ _ _ =>
    rw [unasked] at waits
    cases waits
  | asking unheld _ _ _ => exact unheld
  | resting unheld _ _ => exact unheld

/-- A data packet that is taken keeps a signer well formed, whether it goes on with the session
or completes it. -/
theorem WellFormed.packet {instruction : Instruction} {control : PacketControl} {data : Bytes}
    {answer : Answer} (wellFormed : signer.WellFormed)
    (takes : signer.TakesPacket state instruction control data exchanges (.ok (answer, next))) :
    next.WellFormed := by
  generalize outcomeEq : Except.ok (answer, next) = outcome at takes
  cases takes with
  | refused => cases outcomeEq
  | overflowed _ _ => cases outcomeEq
  | collected continues takes more counts =>
    cases outcomeEq
    obtain ⟨unasked, sound, unfinished⟩ := wellFormed.received continues
    have taken := sound.take takes continues.permitted
    obtain ⟨_, _, read, classifies, appending⟩ := takes
    obtain ⟨magic, parsed, rfl⟩ := Session.exists_of_classifies classifies
    obtain ⟨message, rfl, _⟩ := Session.append_ok appending
    exact .receiving rfl unasked (by rw [counts]; rfl) taken unfinished
  | finished continues takes last completes =>
    rename_i completed
    obtain ⟨unasked, sound, _⟩ := wellFormed.received continues
    cases completed with
    | error error => cases outcomeEq
    | ok completion =>
      cases completion with
      | answered given =>
        cases outcomeEq
        exact .resting rfl unasked rfl
      | awaits pending =>
        cases outcomeEq
        obtain ⟨_, prompt, rfl, _⟩ := Mode.complete_awaits completes
        refine .asking rfl rfl rfl ?_
        rintro _ ⟨⟩
        exact ⟨(sound.take takes continues.permitted).finish, Session.closed_finish _⟩

/-- A command that is obeyed keeps a signer well formed. -/
theorem WellFormed.obeyed {command : Command} {answer : Answer} (wellFormed : signer.WellFormed)
    (performs : signer.Performs state command exchanges (.ok (answer, next))) :
    next.WellFormed := by
  generalize outcomeEq : Except.ok (answer, next) = outcome at performs
  cases performs with
  | refused => cases outcomeEq
  | keyRefused _ => cases outcomeEq
  | none =>
    cases outcomeEq
    exact wellFormed
  | signFirst available more started =>
    cases outcomeEq
    have sound := Session.Sound.start started available
    unfold Session.start at started
    split at started
    · cases started
      exact .receiving rfl rfl rfl sound rfl
    · cases started
  | signNext takes =>
    subst outcomeEq
    exact wellFormed.packet takes
  | exporting prompts fetched =>
    cases outcomeEq
    exact .asking rfl rfl rfl (by rintro _ ⟨⟩)
  | exported prompts fetched =>
    cases outcomeEq
    exact .resting rfl rfl rfl
  | authorizing baking fetched =>
    cases outcomeEq
    exact .asking rfl rfl rfl (by rintro _ ⟨⟩)
  | resetting baking valid =>
    cases outcomeEq
    exact .asking rfl rfl rfl (by rintro _ ⟨⟩)
  | queryAuthKey baking =>
    cases outcomeEq
    exact wellFormed
  | queryHighWaterMark baking =>
    cases outcomeEq
    exact wellFormed

/-- Every step keeps a signer well formed, also one that is refused. -/
theorem Steps.wellFormed {input : Input} {answer : Option (Except SignerError Answer)}
    (steps : signer.Steps record input exchanges answer next) (before : signer.WellFormed) :
    next.WellFormed := by
  cases steps with
  | obeyed read performs => exact before.obeyed performs
  | refused read performs => exact wellFormed_abort signer
  | unread unread => exact wellFormed_abort signer
  | confirmed waits performs => exact .resting (before.waiting waits) rfl rfl
  | unconfirmed waits performs => exact wellFormed_abort signer
  | rejected waits => exact .resting (before.waiting waits) rfl rfl
  | unasked resumes nothing => exact wellFormed_abort signer
  | reset => exact .resting rfl rfl rfl

/-- A session that a signer has, in progress or waiting to be signed. -/
def Holds (signer : Signer) (session : Session) : Prop :=
  signer.session = some session ∨
    ∃ prompt, signer.pending = some { prompt := prompt, action := .sign session }

/-- A session that a signer has is sound, and one that waits to be signed is closed. -/
theorem WellFormed.sound {session : Session} (wellFormed : signer.WellFormed)
    (holds : signer.Holds session) :
    session.Sound signer.config.mode ∧ (signer.session = none → session.Closed) := by
  rcases holds with held | ⟨prompt, waits⟩
  · cases wellFormed with
    | receiving same _ _ sound _ =>
      rw [held] at same
      cases same
      exact ⟨sound, fun unheld => by cases held.symm.trans unheld⟩
    | asking unheld _ _ _ => cases held.symm.trans unheld
    | resting unheld _ _ => cases held.symm.trans unheld
  · cases wellFormed with
    | receiving _ unasked _ _ _ => cases waits.symm.trans unasked
    | asking _ same _ closed =>
      rw [waits] at same
      cases same
      exact ⟨(closed session rfl).1, fun _ => (closed session rfl).2⟩
    | resting _ unasked _ => cases waits.symm.trans unasked

theorem WellFormed.exclusive (wellFormed : signer.WellFormed) :
    signer.session = none ∨ signer.pending = none := by
  cases wellFormed with
  | receiving _ unasked _ _ _ => exact .inr unasked
  | asking unheld _ _ _ => exact .inl unheld
  | resting unheld _ _ => exact .inl unheld

/-- The status counts the data packets of a session in progress, and of no other. -/
theorem WellFormed.receiving_iff (wellFormed : signer.WellFormed) (count : UInt8) :
    signer.status = .receiving count ↔
      ∃ session, signer.session = some session ∧ session.packets = count := by
  cases wellFormed with
  | receiving held _ status _ _ => simp [held, status]
  | asking unheld _ status _ => simp [unheld, status]
  | resting unheld _ resting => simp [unheld, (Status.isResting_iff.1 resting).1 count]

theorem WellFormed.pending_iff (wellFormed : signer.WellFormed) :
    signer.status = .pending ↔ signer.pending ≠ none := by
  cases wellFormed with
  | receiving _ unasked status _ _ => simp [unasked, status]
  | asking _ waits status _ => simp [waits, status]
  | resting _ unasked resting => simp [unasked, (Status.isResting_iff.1 resting).2]

theorem WellFormed.unfinished {session : Session} (wellFormed : signer.WellFormed)
    (held : signer.session = some session) : session.finalHash = none := by
  cases wellFormed with
  | receiving same _ _ _ unfinished =>
    rw [held] at same
    cases same
    exact unfinished
  | asking unheld _ _ _ => cases held.symm.trans unheld
  | resting unheld _ _ => cases held.symm.trans unheld

end Signer

namespace Device

variable {device next : Device} {config : Config} {record : Record} {history : List Happening}

theorem Happens.wellFormed {happening : Happening} (before : device.signer.WellFormed)
    (happens : Happens device happening next) : next.signer.WellFormed := by
  cases happens with
  | step yields => exact (Signer.steps_of_yields yields).wellFormed before
  | powerCut begins => exact Signer.wellFormed_boot _

/-- Whatever has happened, the signer is in a state that makes sense. -/
theorem Run.wellFormed (run : Run (.boot config record) history device) :
    device.signer.WellFormed := by
  refine Run.concat_induction (motive := fun _ device => device.signer.WellFormed) ?_ ?_ run
  · exact Signer.wellFormed_boot config
  · intro _ _ _ _ _ before happens
    exact happens.wellFormed before

/-- A session that a device has is that of the request which its history ends with, and has
counted the data packets of that request. -/
theorem Run.counts (run : Run (.boot config record) history device) {session : Session}
    (holds : device.signer.Holds session) :
    ∃ request, Submits config.mode history request ∧
      session.instruction = request.instruction ∧ session.key = request.key ∧
      session.packets.toNat = request.packets.length := by
  obtain ⟨_, reflects⟩ := run.reflects
  rcases holds with held | ⟨prompt, waits⟩
  · obtain ⟨request, progress, _, carries, _⟩ := reflects.received held
    refine ⟨request, run.submits request ?_, carries.instruction, carries.key, carries.count⟩
    rw [progress]
    rfl
  · obtain ⟨request, unfinished, progress, rfl, carries, _⟩ := reflects.consented waits
    rw [Session.instruction_finish, Session.key_finish, Session.packets_finish]
    refine ⟨request, run.submits request ?_, carries.instruction, carries.key, carries.count⟩
    rw [progress]
    rfl

/-- What the state of a device says, and what its history says of it. -/
structure Represents (mode : Mode) (device : Device) (history : List Happening) : Prop where
  exclusive : device.signer.session = none ∨ device.signer.pending = none
  /-- The status tells the number of data packets of the session in progress. -/
  receiving_iff : ∀ count, device.signer.status = .receiving count ↔
    ∃ session, device.signer.session = some session ∧ session.packets = count
  pending_iff : device.signer.status = .pending ↔ device.signer.pending ≠ none
  /-- That number is the number of data packets accepted since the request was opened. -/
  counted : ∀ session, device.signer.Holds session →
    ∃ request, Submits mode history request ∧
      session.instruction = request.instruction ∧ session.key = request.key ∧
      session.packets.toNat = request.packets.length
  unfinished : ∀ session, device.signer.session = some session → session.finalHash = none
  finished : ∀ prompt session,
    device.signer.pending = some { prompt := prompt, action := .sign session } →
      session.instruction ≠ .signUnsafe →
        (∃ hash, session.finalHash = some hash) ∧ session.message.pending = []
  understood : ∀ session, device.signer.Holds session →
    session.parsed.isValid = true → session.packets = 1
  kind : ∀ session, device.signer.Holds session → session.instruction ≠ .signUnsafe →
    session.packets ≠ 0 → session.magic.isAllowed mode = true
  baking : mode = .baking → ∀ session, device.signer.Holds session →
    session.instruction ≠ .signUnsafe ∧ session.hashOnly = false ∧ session.packets.toNat ≤ 1

/-- After every run on every platform, power cuts included, the session, the pending request and
the status of a device agree with each other and with its history. -/
theorem Run.represents (run : Run (.boot config record) history device) :
    device.Represents config.mode history := by
  have wellFormed := run.wellFormed
  have sound {session : Session} (holds : device.signer.Holds session) :=
    run.reflects.1 ▸ wellFormed.sound holds
  have hashing {session : Session} (hashed : session.instruction ≠ .signUnsafe) :
      session.isHashing = true := by simpa [Session.isHashing] using hashed
  refine {
    exclusive := wellFormed.exclusive
    receiving_iff := wellFormed.receiving_iff
    pending_iff := wellFormed.pending_iff
    counted := fun session holds => run.counts holds
    unfinished := fun session held => wellFormed.unfinished held
    finished := ?_
    understood := fun session holds valid => ((sound holds).1.understood valid).2
    kind := fun session holds hashed => (sound holds).1.kind (hashing hashed)
    baking := fun baking session holds => (sound holds).1.baking baking }
  intro prompt session waits hashed
  exact (sound (.inr ⟨prompt, waits⟩)).2 (wellFormed.waiting waits) (hashing hashed)

/-- A wallet that asks the operator about a transfer holds its session, closed and
understood. -/
theorem Run.transfer_represented :
    ∃ device, Run (.boot { mode := .wallet } newBaker.encode)
        (singlePacket .sign bakingKey transferBytes
          [⟨.parse bakingKey transferBytes Mode.wallet.acceptedTags, some transfer⟩] .pending)
        device ∧
      device.signer.status = .pending ∧
      device.Represents .wallet
        (singlePacket .sign bakingKey transferBytes
          [⟨.parse bakingKey transferBytes Mode.wallet.acceptedTags, some transfer⟩] .pending) := by
  obtain ⟨_, _, run, _⟩ := Run.signs_transfer
  exact ⟨_, run, rfl, run.represents⟩

end Device

end TezosSigner
