/-
Module: TezosSigner.Proofs.HashOnly
Purpose: When the operator's consent to a signing request is answered by the hash alone.
Main exports:
  SigningRequest.IsFlagged, Device.Happens.confirms, Device.Run.hashOnly_iff,
  Device.Run.flagged_raw_signed
-/
import TezosSigner.Proofs.Resumption

namespace TezosSigner

/-!
Any data packet may flag its request: the host then wants the hash of the message, and no
signature.  A session that hashes its message keeps to that, whichever packet set the flag and
however many came after it.  A raw session has no hash to answer with; it carries the flag and is
signed all the same.
-/

/-- One of the packets asks for the hash alone. -/
def SigningRequest.IsFlagged (request : SigningRequest) : Prop :=
  ∃ packet ∈ request.packets, packet.control.kind = .hashOnlyNext

/-- A step that answers a request by the hash of its whole message, without a signature. -/
def SigningRequest.HashedBy (request : SigningRequest) (exchanges : List Exchange)
    (answer : Option (Except SignerError Answer)) : Prop :=
  (∀ exchange ∈ exchanges, exchange.Unsigning) ∧
    answer = some (.ok (.hash (Blake2b.hash request.message)))

theorem Session.Carries.hashOnly_iff_isFlagged {mode : Mode} {session : Session}
    {request : SigningRequest} (carries : session.Carries mode request) :
    session.hashOnly = true ↔ request.IsFlagged := by
  rw [carries.hashOnly]
  simp [SigningRequest.IsFlagged]

/-- Signing a session either answers with its hash and makes no call, or makes the one call for
a signature and answers with no hash. -/
theorem Session.Signs.hash_or_call {session : Session} {exchanges : List Exchange}
    {outcome : Except SignerError Answer} (signs : session.Signs exchanges outcome)
    (finished : session.isHashing = true → session.finalHash ≠ none) :
    (∃ hash, session.isHashing = true ∧ session.hashOnly = true ∧
        session.finalHash = some hash ∧ exchanges = [] ∧ outcome = .ok (.hash hash)) ∨
      ∃ message reply, session.toSign? = some message ∧
        exchanges = [⟨.sign session.key message, reply⟩] ∧
        ∀ hash, outcome ≠ .ok (.hash hash) := by
  cases signs with
  | unfinished hashing unfinished => exact absurd unfinished (finished hashing)
  | @hashOnly hash hashing held flag => exact .inl ⟨hash, hashing, flag, held, rfl, rfl⟩
  | failed asked => exact .inr ⟨_, _, asked, rfl, by simp⟩
  | unfit asked unfit => exact .inr ⟨_, _, asked, rfl, by simp⟩
  | signed asked fits => exact .inr ⟨_, _, asked, rfl, by simp⟩

namespace Device

variable {device next : Device} {history : List Happening} {request : SigningRequest}
  {exchanges : List Exchange} {answer : Option (Except SignerError Answer)}

/-- The operator's consent to a signing request is the signing of a session that carries it. -/
theorem Reflects.confirms (reflects : device.Reflects (.signing request))
    (happens : Happens device (.step .confirm exchanges answer) next) :
    ∃ (session : Session) (outcome : Except SignerError Answer),
      session.Carries device.signer.config.mode request ∧
        session.finish.Signs exchanges outcome ∧ answer = some outcome := by
  cases reflects with
  | @signing session prompt _ unheld waits carries complete shown =>
    cases happens with
    | step yields =>
      obtain ⟨outcome, performs, rfl, _⟩ := (Signer.step_confirm_iff waits).1 yields
      exact ⟨session, outcome, carries, Session.signs_of_yields performs, rfl⟩

variable {config : Config} {record : Record}

/-- Once the operator has consented, a flagged request is answered by its hash without a call
for a signature, and one that is not flagged never by a hash: this holds of every request but a
flagged one for raw signing, and of none of those. -/
theorem Run.hashOnly_iff (run : Run (.boot config record) history device)
    (asked : Progress.ofHistory history = .signing request)
    (confirms : Happens device (.step .confirm exchanges answer) next) :
    ((request.IsFlagged → request.HashedBy exchanges answer) ∧
        (¬ request.IsFlagged → ∀ hash, answer ≠ some (.ok (.hash hash)))) ↔
      ¬ (request.IsFlagged ∧ request.instruction = .signUnsafe) := by
  obtain ⟨_, reflects⟩ := run.reflects
  rw [asked] at reflects
  obtain ⟨session, outcome, carries, signs, rfl⟩ := reflects.confirms confirms
  have flag := carries.hashOnly_iff_isFlagged
  have hashing := carries.isHashing_iff_ne
  have finished (hashes : session.isHashing = true) := carries.finalHash_finish hashes
  have atEnd : session.finish.isHashing = true → session.finish.finalHash ≠ none := by
    intro hashes
    rw [finished (by simpa using hashes)]
    simp
  rcases signs.hash_or_call atEnd with
    ⟨hash, hashes, flagged, held, rfl, rfl⟩ | ⟨message, reply, asked, rfl, unhashed⟩
  · rw [Session.isHashing_finish] at hashes
    rw [Session.hashOnly_finish, flag] at flagged
    rw [finished hashes] at held
    have same := Option.some.inj held
    subst same
    refine iff_of_true ⟨fun _ => ⟨by simp, rfl⟩, fun unflagged => absurd flagged unflagged⟩ ?_
    exact fun raw => hashing.1 hashes raw.2
  · -- The call for a signature is made unless the session both hashes and is flagged.
    have exempt : ¬ (session.isHashing = true ∧ session.hashOnly = true) := by
      rintro ⟨hashes, flagged⟩
      simp [Session.toSign?, hashes, flagged] at asked
    have signed : ¬ request.HashedBy [⟨.sign session.finish.key message, reply⟩]
        (some outcome) := by
      rintro ⟨unsigning, _⟩
      exact unsigning _ (List.mem_singleton.2 rfl) _ _ _ rfl
    have unanswered : ∀ hash, some outcome ≠ some (.ok (.hash hash)) := by
      intro hash same
      exact unhashed hash (Option.some.inj same)
    rw [flag, hashing] at exempt
    constructor
    · rintro ⟨answered, _⟩ ⟨flagged, _⟩
      exact signed (answered flagged)
    · intro kept
      refine ⟨fun flagged => ?_, fun _ => unanswered⟩
      exact (exempt ⟨fun raw => kept ⟨flagged, raw⟩, flagged⟩).elim

/-- A transfer that is not flagged is not answered by its hash. -/
theorem Run.transfer_not_hashed :
    ∃ history request device exchanges answer next,
      Run (.boot { mode := .wallet } newBaker.encode) history device ∧
      Progress.ofHistory history = .signing request ∧
      Happens device (.step .confirm exchanges answer) next ∧
      (((request.IsFlagged → request.HashedBy exchanges answer) ∧
          (¬ request.IsFlagged → ∀ hash, answer ≠ some (.ok (.hash hash)))) ↔
        ¬ (request.IsFlagged ∧ request.instruction = .signUnsafe)) := by
  obtain ⟨_, next, run, happens⟩ := Run.signs_transfer
  exact ⟨_, _, _, _, _, next, run, rfl, happens, run.hashOnly_iff rfl happens⟩

/-- A raw request for two bytes, of which only the hash is wanted. -/
def flaggedBytes : Bytes :=
  [0xaa, 0xbb]

def rawOpening : Apdu :=
  { commandClass := commandClass
    instruction := Instruction.signUnsafe.code
    control := PacketControl.encode { kind := .first, last := false }
    payload := bakingKey.layout }

def rawFlagged : Apdu :=
  { commandClass := commandClass
    instruction := Instruction.signUnsafe.code
    control := PacketControl.encode { kind := .hashOnlyNext, last := true }
    payload := flaggedBytes }

/-- The session that the raw request leaves. -/
def flaggedSession : Session :=
  { Session.opened .signUnsafe bakingKey with
    packets := 1
    message := { hashed := none, pending := flaggedBytes }
    hashOnly := true }

/-- The raw request is flagged, and it is signed all the same. -/
theorem Run.flagged_raw_signed :
    ∃ history request device next,
      Run (.boot { mode := .wallet } newBaker.encode) history device ∧
      history.map Happening.input = [.apdu rawOpening, .apdu rawFlagged] ∧
      Progress.ofHistory history = .signing request ∧ request.IsFlagged ∧
      request.message = flaggedBytes ∧
      Happens device
        (.step .confirm [⟨.sign bakingKey flaggedBytes, .ok signedReply⟩]
          (some (.ok (.signature none (signedReply.signature .ed25519))))) next := by
  have opens : (Signer.perform (.boot { mode := .wallet }) (BakingState.decode newBaker.encode)
      (.signFirst .signUnsafe bakingKey { kind := .first, last := false })).Yields []
      (.ok (.none, Signer.opening (.boot { mode := .wallet }) .signUnsafe bakingKey)) :=
    Act.yields_pure_iff.2 ⟨rfl, rfl⟩
  have asks : ((Signer.opening (.boot { mode := .wallet }) .signUnsafe bakingKey).perform
      (BakingState.decode newBaker.encode)
      (.signNext .signUnsafe { kind := .hashOnlyNext, last := true } flaggedBytes)).Yields []
      (.ok ((Signer.boot { mode := .wallet }).suspend
        { prompt := Prompt.preHashed, action := .sign flaggedSession })) :=
    Act.yields_pure_iff.2 ⟨rfl, rfl⟩
  have signs : (Action.perform (BakingState.decode newBaker.encode) (.sign flaggedSession)).Yields
      [⟨.sign bakingKey flaggedBytes, .ok signedReply⟩]
      (.ok (.signature none (signedReply.signature .ed25519))) :=
    Session.sign_yields rfl rfl
  have openingRead : (Input.apdu rawOpening).command? =
      some (.signFirst .signUnsafe bakingKey { kind := .first, last := false }) := rfl
  have flaggedRead : (Input.apdu rawFlagged).command? =
      some (.signNext .signUnsafe { kind := .hashOnlyNext, last := true } flaggedBytes) := rfl
  have run := run_pair_iff.2 ⟨_,
    (happens_read_iff openingRead).2 (.step (Signer.step_command_yields opens)),
    (happens_read_iff flaggedRead).2 (.step (Signer.step_command_yields asks))⟩
  refine ⟨_, _, _, _, run, rfl, rfl, ?_, rfl, .step (Signer.step_confirm_yields rfl signs)⟩
  exact ⟨_, List.mem_singleton.2 rfl, rfl⟩

end Device

end TezosSigner
