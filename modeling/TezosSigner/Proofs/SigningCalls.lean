/-
Module: TezosSigner.Proofs.SigningCalls
Purpose: The occasions on which a signer calls on the platform to sign.
Main exports: Signer.Occasion, Signer.Steps.occasion, Device.Happens.occasion
-/
import TezosSigner.Proofs.Progress

namespace TezosSigner

/-!
There are two: a baking device takes the only data packet of a block or an endorsement that
its state vouches for, or the operator confirms a finished session.  In both the call is the
first exchange of the step, so the record that the step was given still stands when it is
made.
-/

/-- Why a signer calls for a signature under a key, and on which bytes. -/
inductive Signer.Occasion (signer : Signer) (record : Record) (input : Input) (key : KeyPath)
    (message : Bytes) : Prop where
  /-- A block or an endorsement has come, and the baking state vouches for it. -/
  | vouched {instruction : Instruction} {control : PacketControl} {data : Bytes}
      {session taken : Session} {payload : BakingPayload} (baking : signer.config.mode = .baking)
      (read : input.command? = some (.signNext instruction control data))
      (continues : signer.Continues instruction control session)
      (takes : session.Takes .baking control data [] taken) (last : control.last = true)
      (vouched : (BakingState.decode record).Vouches taken.finish payload)
      (sameKey : taken.finish.key = key) (asked : taken.finish.toSign? = some message)
  /-- The operator confirms a finished session. -/
  | consented {prompt : Prompt} {session : Session} (confirms : input = .confirm)
      (waits : signer.pending = some { prompt := prompt, action := .sign session })
      (sameKey : session.key = key) (asked : session.toSign? = some message)

/-- An exchange that calls for no signature. -/
def Exchange.Unsigning (exchange : Exchange) : Prop :=
  ∀ key message reply, exchange ≠ ⟨.sign key message, reply⟩

theorem store_unsigning (record : Record) (reply : Except SignerError Unit) :
    ∀ exchange ∈ [(⟨.store record, reply⟩ : Exchange)], exchange.Unsigning := by
  intro exchange member key message signed same
  rw [List.mem_singleton.1 member] at same
  cases same

theorem publicKey_unsigning (key : KeyPath) (reply : Except SignerError KeyReply) :
    ∀ exchange ∈ [(⟨.publicKey key, reply⟩ : Exchange)], exchange.Unsigning := by
  intro exchange member key message signed same
  rw [List.mem_singleton.1 member] at same
  cases same

section

variable {key : KeyPath} {message : Bytes} {reply : Except SignerError SignReply}
  {before after exchanges rest : List Exchange}

/-- A call for a signature is not among exchanges that call for none. -/
private theorem not_unsigning (split : exchanges = before ++ ⟨.sign key message, reply⟩ :: after)
    (unsigning : ∀ exchange ∈ exchanges, exchange.Unsigning) : False := by
  have member : (⟨.sign key message, reply⟩ : Exchange) ∈ exchanges := by simp [split]
  exact unsigning _ member key message reply rfl

/-- A call for a signature comes after whatever calls for none. -/
private theorem skip_unsigning
    (split : exchanges ++ rest = before ++ ⟨.sign key message, reply⟩ :: after)
    (unsigning : ∀ exchange ∈ exchanges, exchange.Unsigning) :
    ∃ between, before = exchanges ++ between ∧
      rest = between ++ ⟨.sign key message, reply⟩ :: after := by
  rcases List.append_eq_append_iff.1 split with ⟨between, rfl, tails⟩ | ⟨between, rfl, tails⟩
  · exact ⟨between, rfl, tails⟩
  · cases between with
    | nil => exact ⟨[], by simp, tails.symm⟩
    | cons first between =>
      have same : ⟨.sign key message, reply⟩ = first := List.head_eq_of_cons_eq tails
      subst same
      exact (not_unsigning rfl unsigning).elim

/-- Signing a session calls for one signature, first of all. -/
theorem Session.Signs.of_split {session : Session} {outcome : Except SignerError Answer}
    (signs : session.Signs exchanges outcome)
    (split : exchanges ++ rest = before ++ ⟨.sign key message, reply⟩ :: after)
    (unsigning : ∀ exchange ∈ rest, exchange.Unsigning) :
    before = [] ∧ session.key = key ∧ session.toSign? = some message := by
  have onlyFirst {asked : Bytes} {given : Except SignerError SignReply}
      (toSign : session.toSign? = some asked)
      (split : ⟨.sign session.key asked, given⟩ :: rest =
        before ++ ⟨.sign key message, reply⟩ :: after) :
      before = [] ∧ session.key = key ∧ session.toSign? = some message := by
    cases before with
    | nil =>
      cases split
      exact ⟨rfl, rfl, toSign⟩
    | cons first before =>
      have later : rest = before ++ ⟨.sign key message, reply⟩ :: after :=
        List.tail_eq_of_cons_eq split
      exact (not_unsigning later unsigning).elim
  cases signs with
  | unfinished hashing unfinished => exact (not_unsigning split unsigning).elim
  | hashOnly hashing finished flag => exact (not_unsigning split unsigning).elim
  | failed asked => exact onlyFirst asked split
  | unfit asked unfit => exact onlyFirst asked split
  | signed asked fits => exact onlyFirst asked split

/-- Completing a session calls for a signature only where the baking state vouches for it. -/
theorem Mode.complete_split {mode : Mode} {state : BakingState} {session : Session}
    {outcome : Except SignerError Completion}
    (completes : (mode.complete state session).Yields exchanges outcome)
    (split : exchanges = before ++ ⟨.sign key message, reply⟩ :: after) :
    mode = .baking ∧ before = [] ∧ session.key = key ∧ session.toSign? = some message ∧
      ∃ payload, state.Vouches session payload := by
  cases mode with
  | wallet =>
    obtain ⟨none, _⟩ := Act.yields_ofExcept_iff.1 completes
    rw [none] at split
    exact (not_unsigning split (by simp)).elim
  | baking =>
    cases Mode.completeForBaking_yields completes with
    | refused => exact (not_unsigning split (by simp)).elim
    | asks _ _ _ _ => exact (not_unsigning split (by simp)).elim
    | unsigned vouched signs =>
      rw [← List.append_nil exchanges] at split
      obtain ⟨first, sameKey, asked⟩ := signs.of_split split (by simp)
      exact ⟨rfl, first, sameKey, asked, _, vouched⟩
    | unrecorded vouched signs =>
      obtain ⟨first, sameKey, asked⟩ := signs.of_split split (store_unsigning _ _)
      exact ⟨rfl, first, sameKey, asked, _, vouched⟩
    | baked vouched signs =>
      obtain ⟨first, sameKey, asked⟩ := signs.of_split split (store_unsigning _ _)
      exact ⟨rfl, first, sameKey, asked, _, vouched⟩

/-- Classifying a session calls for no signature. -/
theorem Mode.Classifies.unsigning {mode : Mode} {session read : Session} {data : Bytes}
    (classifies : mode.Classifies session data exchanges read) :
    ∀ exchange ∈ exchanges, exchange.Unsigning := by
  intro exchange member key message reply same
  cases classifies with
  | operations hashing first allowed kind =>
    rw [List.mem_singleton.1 member] at same
    cases same
  | _ => cases member

/-- A call for a signature by a data packet. -/
private theorem takesPacket_occasion {signer : Signer} {record : Record} {input : Input}
    {instruction : Instruction} {control : PacketControl} {data : Bytes}
    {outcome : Except SignerError (Answer × Signer)}
    (read : input.command? = some (.signNext instruction control data))
    (takes : signer.TakesPacket (BakingState.decode record) instruction control data exchanges
      outcome)
    (split : exchanges = before ++ ⟨.sign key message, reply⟩ :: after) :
    before = [] ∧ signer.Occasion record input key message := by
  cases takes with
  | refused => exact (not_unsigning split (by simp)).elim
  | overflowed _ classifies => exact (not_unsigning split classifies.unsigning).elim
  | collected _ takes _ _ =>
    obtain ⟨_, classifies, _⟩ := takes.understood
    exact (not_unsigning split classifies.unsigning).elim
  | finished continues takes last completes =>
    rename_i session taken front back outcome
    obtain ⟨_, classifies, _⟩ := takes.understood
    obtain ⟨between, rfl, tails⟩ := skip_unsigning split classifies.unsigning
    obtain ⟨baking, rfl, sameKey, asked, payload, vouched⟩ := Mode.complete_split completes tails
    -- What the state vouches for is classified without a call, so nothing comes before.
    rw [baking] at takes
    have kind : taken.magic.isBaking = true := by simpa using vouched.kind
    cases takes.eq_nil_of_isBaking kind
    exact ⟨rfl, .vouched baking read continues takes last vouched sameKey asked⟩

/-- A call for a signature by a command. -/
private theorem performs_occasion {signer : Signer} {record : Record} {input : Input}
    {command : Command} {outcome : Except SignerError (Answer × Signer)}
    (read : input.command? = some command)
    (performs : signer.Performs (BakingState.decode record) command exchanges outcome)
    (split : exchanges = before ++ ⟨.sign key message, reply⟩ :: after) :
    before = [] ∧ signer.Occasion record input key message := by
  cases performs with
  | signNext takes => exact takesPacket_occasion read takes split
  | keyRefused asks => exact (not_unsigning split (publicKey_unsigning _ _)).elim
  | exporting _ _ => exact (not_unsigning split (publicKey_unsigning _ _)).elim
  | exported _ _ => exact (not_unsigning split (publicKey_unsigning _ _)).elim
  | authorizing _ _ => exact (not_unsigning split (publicKey_unsigning _ _)).elim
  | _ => exact (not_unsigning split (by simp)).elim

/-- A call for a signature by a confirmed action. -/
private theorem action_occasion {signer : Signer} {record : Record} {pending : Pending}
    {outcome : Except SignerError Answer} (waits : signer.pending = some pending)
    (performs : Action.Performs (BakingState.decode record) pending.action exchanges outcome)
    (split : exchanges = before ++ ⟨.sign key message, reply⟩ :: after) :
    before = [] ∧ signer.Occasion record .confirm key message := by
  obtain ⟨prompt, action⟩ := pending
  cases performs with
  | sign signs =>
    rw [← List.append_nil exchanges] at split
    obtain ⟨first, sameKey, asked⟩ := signs.of_split split (by simp)
    exact ⟨first, .consented rfl waits sameKey asked⟩
  | exportKey => exact (not_unsigning split (by simp)).elim
  | unbound _ => exact (not_unsigning split (by simp)).elim
  | authorize _ => exact (not_unsigning split (store_unsigning _ _)).elim
  | unmoved _ => exact (not_unsigning split (by simp)).elim
  | reset _ => exact (not_unsigning split (store_unsigning _ _)).elim

/-- A signer calls for a signature on one of the two occasions, and calls for nothing else
in that step before. -/
theorem Signer.Steps.occasion {signer next : Signer} {record : Record} {input : Input}
    {answer : Option (Except SignerError Answer)}
    (steps : signer.Steps record input exchanges answer next)
    (split : exchanges = before ++ ⟨.sign key message, reply⟩ :: after) :
    before = [] ∧ signer.Occasion record input key message := by
  cases steps with
  | obeyed read performs => exact performs_occasion read performs split
  | refused read performs => exact performs_occasion read performs split
  | confirmed waits performs => exact action_occasion waits performs split
  | unconfirmed waits performs => exact action_occasion waits performs split
  | _ => exact (not_unsigning split (by simp)).elim

/-- It makes no difference whether power is lost after the call. -/
theorem Device.Happens.occasion {device next : Device} {happening : Happening}
    (happens : Happens device happening next)
    (split : happening.exchanges = before ++ ⟨.sign key message, reply⟩ :: after) :
    before = [] ∧ device.signer.Occasion device.record happening.input key message := by
  obtain ⟨⟨rest, answer, final, steps⟩, _⟩ := happens.completes
  have longer : happening.exchanges ++ rest =
      before ++ ⟨.sign key message, reply⟩ :: (after ++ rest) := by
    rw [split, List.append_assoc, List.cons_append]
  exact steps.occasion longer

end

end TezosSigner
