/-
Module: TezosSigner.Proofs.StoreCalls
Purpose: The changes of the baking state, and the happenings that store them.
Main exports:
  Change, BakingState.after, Happening.change?, Signer.Writes, Device.Happens.storesChange,
  Device.Happens.unstoring
-/
import TezosSigner.Proofs.Progress

namespace TezosSigner

/-!
The baking state changes in three ways: a key is authorized, the mark is reset, or the mark
moves to what was signed.  Each is one store of the whole record, as the last exchange of its step.
Which change a happening makes can be told from outside: from its input, from its answer,
and from what was under way.
-/

/-- A change of the baking state. -/
inductive Change where
  /-- The operator has authorized a key. -/
  | authorized (key : KeyPath)
  /-- The operator has moved the mark. -/
  | reset (level : UInt32)
  /-- A block or an endorsement was signed. -/
  | signed (mark : Mark)
deriving Repr, DecidableEq

namespace BakingState

/-- The state after a change. -/
def after (state : BakingState) : Change → BakingState
  | .authorized key => { state with key := some key }
  | .reset level => { state with mark := { level := level, endorsement := false } }
  | .signed mark => { state with mark := mark }

/-- The changes that a state allows. -/
def Admits (state : BakingState) : Change → Prop
  | .authorized key => key.path ≠ []
  | .reset level => isValidLevel level = true
  | .signed mark => isValidLevel mark.level = true ∧ state.mark < mark

end BakingState

/-- The change that the operator is being asked about. -/
def Progress.change? : Progress → Option Change
  | .asked (.authorizeBaking key) _ => some (.authorized key)
  | .asked (.resetHighWaterMark level) _ => some (.reset level)
  | _ => none

/-- The change that an input makes, if it goes through. -/
def Input.change? (input : Input) (progress : Progress) : Option Change :=
  match input with
  | .confirm => progress.change?
  | _ =>
      match input.command? with
      | some (.signNext _ _ data) => (BakingPayload.ofBytes? data).map (.signed ·.mark)
      | _ => none

/-- Whether an answer is a signature. -/
def Answer.isSignature : Answer → Bool
  | .signature _ _ => true
  | _ => false

namespace Happening

/-- The records that were stored. -/
def stores (happening : Happening) : List Record :=
  happening.exchanges.filterMap Exchange.stored?

/-- The input has gone through: the operator's consent was answered well, a signature was
answered, or power was lost after the record was stored. -/
def settles : Happening → Bool
  | .step input _ (some (.ok answer)) => input = .confirm || answer.isSignature
  | .step _ _ _ => false
  | .powerCut _ exchanges => exchanges.any (·.stored?.isSome)

/-- The change that a happening makes. -/
def change? (happening : Happening) (progress : Progress) : Option Change :=
  if happening.settles then happening.input.change? progress else none

variable {progress : Progress} {happening : Happening}

theorem change?_of_settled (settled : happening.settles = true) :
    happening.change? progress = happening.input.change? progress := by
  rw [change?, settled]
  rfl

theorem change?_of_unsettled (unsettled : happening.settles = false) :
    happening.change? progress = none := by
  rw [change?, unsettled]
  rfl

/-- A happening that changes nothing and stores nothing, or stores the one change that it
makes; only a baking device does that. -/
def StoresChange (happening : Happening) (progress : Progress) (mode : Mode)
    (state : BakingState) : Prop :=
  (happening.change? progress = none ∧ happening.stores = []) ∨
    ∃ change, happening.change? progress = some change ∧ mode = .baking ∧
      state.Admits change ∧ happening.stores = [(state.after change).encode]

/-- A power cut changes nothing unless something was stored before it. -/
theorem change?_of_unstored {input : Input} {exchanges : List Exchange}
    (unstored : exchanges.filterMap Exchange.stored? = []) :
    (Happening.powerCut input exchanges).change? progress = none := by
  apply change?_of_unsettled
  rw [settles, List.any_eq_false]
  intro exchange member
  simp [List.filterMap_eq_nil_iff.1 unstored exchange member]

end Happening

/-- A session that is not for the hash alone is answered by the signature that the platform
was called for. -/
theorem Session.Signs.signature {session : Session} {exchanges : List Exchange} {answer : Answer}
    (signs : session.Signs exchanges (.ok answer)) (signing : session.hashOnly = false) :
    ∃ message reply digest signature, session.toSign? = some message ∧
      exchanges = [⟨.sign session.key message, .ok reply⟩] ∧
      answer = .signature digest signature := by
  generalize outcomeEq : Except.ok answer = outcome at signs
  cases signs with
  | hashOnly _ _ flag =>
    rw [signing] at flag
    cases flag
  | signed asked _ =>
    cases outcomeEq
    exact ⟨_, _, _, _, asked, rfl, rfl⟩
  | _ => cases outcomeEq

namespace Signer

/-- What a step does to the record: nothing, or one store at its end.  Where the store
succeeded the step has gone through, and where it failed the step was refused. -/
inductive Writes (state : BakingState) (mode : Mode) (progress : Progress) (input : Input) :
    List Exchange → Option (Except SignerError Answer) → Prop where
  | nothing {exchanges : List Exchange} {answer : Option (Except SignerError Answer)}
      (unstoring : ∀ exchange ∈ exchanges, exchange.Unstoring)
      (unsettled : (Happening.step input exchanges answer).change? progress = none) :
      Writes state mode progress input exchanges answer
  | stored {front : List Exchange} {change : Change} {answer : Answer} (baking : mode = .baking)
      (unstoring : ∀ exchange ∈ front, exchange.Unstoring)
      (entered : input.change? progress = some change) (admitted : state.Admits change)
      (settled : (Happening.step input [] (some (.ok answer))).settles = true) :
      Writes state mode progress input (front ++ [⟨.store (state.after change).encode, .ok ()⟩])
        (some (.ok answer))
  | unstored {front : List Exchange} {change : Change} {error : SignerError}
      (baking : mode = .baking) (unstoring : ∀ exchange ∈ front, exchange.Unstoring)
      (entered : input.change? progress = some change) (admitted : state.Admits change) :
      Writes state mode progress input
        (front ++ [⟨.store (state.after change).encode, .error error⟩]) (some (.error error))

variable {signer next : Signer} {record : Record} {state : BakingState} {progress : Progress}
  {input : Input} {command : Command} {exchanges : List Exchange}

/-- A data packet stores nothing and is not answered by a signature, or it is a block or an
endorsement beyond the mark.  Then its hash is signed, and the mark moves to it before the
signature is answered. -/
theorem TakesPacket.stores {instruction : Instruction} {control : PacketControl} {data : Bytes}
    {outcome : Except SignerError (Answer × Signer)}
    (reflects : Device.Reflects ⟨signer, record⟩ progress)
    (takes : signer.TakesPacket state instruction control data exchanges outcome) :
    ((∀ exchange ∈ exchanges, exchange.Unstoring) ∧
        ∀ digest signature after, outcome ≠ .ok (.signature digest signature, after)) ∨
      signer.config.mode = .baking ∧ ∃ payload key given digest signature after reply,
        BakingPayload.ofBytes? data = some payload ∧ state.Admits (.signed payload.mark) ∧
        exchanges = [⟨.sign key (Blake2b.hash data).toList, .ok given⟩,
          ⟨.store (state.after (.signed payload.mark)).encode, reply⟩] ∧
        outcome = reply.map fun _ => (.signature digest signature, after) := by
  cases takes with
  | refused => exact .inl ⟨by simp, by simp⟩
  | overflowed continues classifies => exact .inl ⟨classifies.unstoring, by simp⟩
  | collected continues takes more counts =>
    obtain ⟨_, classifies, _⟩ := takes.understood
    exact .inl ⟨classifies.unstoring, by simp⟩
  | finished continues takes last completes =>
    rename_i session taken before after outcome
    obtain ⟨_, classifies, _⟩ := takes.understood
    rcases Mode.complete_stores completes with
      ⟨unstoring, unanswered⟩ | ⟨baking, payload, front, answer, reply, vouched, signs, rfl, rfl⟩
    · refine .inl ⟨List.forall_mem_append.2 ⟨classifies.unstoring, unstoring⟩, ?_⟩
      intro digest signature final same
      cases outcome with
      | error error => cases same
      | ok completion =>
        cases completion with
        | answered answer => exact unanswered answer rfl
        | awaits pending => cases same
    · rw [baking] at takes
      obtain ⟨_, rfl, _, carried, understands⟩ := reflects.takes_only baking continues takes
      have signing : taken.finish.hashOnly = false := by
        rw [Session.hashOnly_finish]
        exact carried.unflagged
      obtain ⟨message, given, digest, signature, asked, rfl, rfl⟩ := signs.signature signing
      -- Substituting the hash would have it evaluated.
      rw [carried.eq_hash_of_single asked]
      have parsed : taken.parsed = .baking payload := by simpa using vouched.parsed
      have kind : taken.magic.isBaking = true := by simpa using vouched.kind
      cases takes.eq_nil_of_isBaking kind
      refine .inr ⟨baking, payload, taken.finish.key, given, digest, signature,
        { signer with session := none, status := .complete }, reply,
        understands.ofBytes? parsed, BakingState.permits_iff.1 vouched.permitted, rfl, ?_⟩
      cases reply <;> rfl

theorem ne_confirm_of_command? (read : input.command? = some command) : input ≠ .confirm := by
  intro confirms
  rw [confirms] at read
  cases read

/-- A command that is answered by no signature settles nothing. -/
theorem change?_of_command? {answer : Option (Except SignerError Answer)}
    (read : input.command? = some command)
    (unsigned : ∀ given, answer = some (.ok given) → given.isSignature = false) :
    (Happening.step input exchanges answer).change? progress = none := by
  have unsettled : (Happening.step input exchanges answer).settles = false := by
    match answer with
    | none => rfl
    | some (.error error) => rfl
    | some (.ok given) =>
      simp [Happening.settles, ne_confirm_of_command? read, unsigned given rfl]
  exact Happening.change?_of_unsettled unsettled

/-- The change that a block or an endorsement makes. -/
theorem change?_of_signNext {instruction : Instruction} {control : PacketControl} {data : Bytes}
    (read : input.command? = some (.signNext instruction control data)) :
    input.change? progress = (BakingPayload.ofBytes? data).map (.signed ·.mark) := by
  cases input with
  | confirm => cases read
  | _ => simp only [Input.change?, read]

/-- What a data packet does to the record. -/
theorem packet_writes {instruction : Instruction} {control : PacketControl} {data : Bytes}
    {outcome : Except SignerError (Answer × Signer)}
    (reflects : Device.Reflects ⟨signer, record⟩ progress)
    (read : input.command? = some (.signNext instruction control data))
    (takes : signer.TakesPacket state instruction control data exchanges outcome) :
    Writes state signer.config.mode progress input exchanges
      (some (outcome.map (·.1))) := by
  rcases takes.stores reflects with
    ⟨unstoring, unsigned⟩ |
    ⟨baking, payload, key, given, digest, signature, after, reply, holds, admits, rfl, rfl⟩
  · refine .nothing unstoring (change?_of_command? read ?_)
    intro given same
    cases outcome with
    | error error => cases same
    | ok value =>
      obtain ⟨answer, after⟩ := value
      cases same
      cases answer with
      | signature digest bytes => exact absurd rfl (unsigned digest bytes after)
      | _ => rfl
  · have changes : input.change? progress = some (.signed payload.mark) := by
      rw [change?_of_signNext read, holds, Option.map_some]
    have settles : (Happening.step input []
        (some (.ok (.signature digest signature)))).settles = true := by
      simp [Happening.settles, Answer.isSignature]
    have signing : ∀ exchange ∈
        [(⟨.sign key (Blake2b.hash data).toList, .ok given⟩ : Exchange)],
        exchange.Unstoring := by
      intro exchange member record stored same
      rw [List.mem_singleton.1 member] at same
      exact nomatch congrArg Exchange.call same
    cases reply with
    | ok done => exact .stored baking signing changes admits settles
    | error error => exact .unstored baking signing changes admits

/-- What a command does to the record. -/
theorem performs_writes {outcome : Except SignerError (Answer × Signer)}
    (reflects : Device.Reflects ⟨signer, record⟩ progress)
    (read : input.command? = some command)
    (performs : signer.Performs state command exchanges outcome) :
    Writes state signer.config.mode progress input exchanges (some (outcome.map (·.1))) := by
  have quiet {exchanges : List Exchange} {answer : Answer} {after : Signer}
      (unstoring : ∀ exchange ∈ exchanges, exchange.Unstoring)
      (unsigned : answer.isSignature = false) :
      Writes state signer.config.mode progress input exchanges
        (some ((.ok (answer, after) : Except SignerError (Answer × Signer)).map (·.1))) := by
    refine .nothing unstoring (change?_of_command? read ?_)
    intro given same
    cases same
    exact unsigned
  have fetching (key : KeyPath) (reply : Except SignerError KeyReply) :
      ∀ exchange ∈ [(⟨.publicKey key, reply⟩ : Exchange)], exchange.Unstoring := by
    intro exchange member record stored same
    rw [List.mem_singleton.1 member] at same
    cases same
  cases performs with
  | refused => exact .nothing (by simp) (Happening.change?_of_unsettled rfl)
  | keyRefused asks => exact .nothing (fetching _ _) (Happening.change?_of_unsettled rfl)
  | none => exact quiet (by simp) rfl
  | signFirst available more started => exact quiet (by simp) rfl
  | signNext takes => exact packet_writes reflects read takes
  | exporting prompts fetched => exact quiet (fetching _ _) rfl
  | exported prompts fetched => exact quiet (fetching _ _) rfl
  | authorizing baking fetched => exact quiet (fetching _ _) rfl
  | resetting baking valid => exact quiet (by simp) rfl
  | queryAuthKey baking => exact quiet (by simp) rfl
  | queryHighWaterMark baking => exact quiet (by simp) rfl

end Signer

/-- The change that the operator's consent to an action makes. -/
def Action.change? : Action → Option Change
  | .authorize key _ => some (.authorized key)
  | .reset level => some (.reset level)
  | _ => none

/-- An action stores nothing, and has no change to make or is refused; or all it does is to
store its change. -/
theorem Action.Performs.stores {state : BakingState} {action : Action}
    {exchanges : List Exchange} {outcome : Except SignerError Answer}
    (performs : Action.Performs state action exchanges outcome) :
    ((∀ exchange ∈ exchanges, exchange.Unstoring) ∧
        (action.change? = none ∨ ∃ error, outcome = .error error)) ∨
      ∃ change answer reply, action.change? = some change ∧ state.Admits change ∧
        exchanges = [⟨.store (state.after change).encode, reply⟩] ∧
        outcome = reply.map fun _ => answer := by
  cases performs with
  | sign signs => exact .inl ⟨signs.unstoring, .inl rfl⟩
  | exportKey => exact .inl ⟨by simp, .inl rfl⟩
  | unbound empty => exact .inl ⟨by simp, .inr ⟨_, rfl⟩⟩
  | unmoved malformed => exact .inl ⟨by simp, .inr ⟨_, rfl⟩⟩
  | authorize steps => exact .inr ⟨_, _, _, rfl, steps, rfl, rfl⟩
  | reset valid => exact .inr ⟨_, _, _, rfl, valid, rfl, rfl⟩

namespace Device

variable {device next : Device} {progress : Progress} {happening : Happening}

/-- The operator is asked about the change that their consent makes, and only a baking device
asks about one. -/
theorem Reflects.change? (reflects : device.Reflects progress) {pending : Pending}
    (waits : device.signer.pending = some pending) :
    progress.change? = pending.action.change? ∧
      (pending.action.change? ≠ none → device.signer.config.mode = .baking) := by
  rcases (reflects.waiting waits).2 with ⟨_, _, rfl, action, _⟩ | ⟨_, _, rfl, asks⟩
  · rw [action]
    exact ⟨rfl, fun changes => absurd rfl changes⟩
  · cases asks with
    | getPublicKey fetched => exact ⟨rfl, fun changes => absurd rfl changes⟩
    | authorizeBaking baking fetched => exact ⟨rfl, fun _ => baking⟩
    | resetHighWaterMark baking valid => exact ⟨rfl, fun _ => baking⟩

end Device

namespace Signer

variable {signer next : Signer} {record : Record} {state : BakingState} {progress : Progress}
  {input : Input} {exchanges : List Exchange}

/-- What the operator's consent does to the record. -/
theorem action_writes {pending : Pending} {outcome : Except SignerError Answer}
    (reflects : Device.Reflects ⟨signer, record⟩ progress)
    (waits : signer.pending = some pending)
    (performs : Action.Performs state pending.action exchanges outcome) :
    Writes state signer.config.mode progress .confirm exchanges (some outcome) := by
  obtain ⟨asked, onlyBaking⟩ := reflects.change? waits
  rcases performs.stores with
    ⟨unstoring, unchanged | ⟨error, rfl⟩⟩ | ⟨change, answer, reply, changes, admits, rfl, rfl⟩
  · apply Writes.nothing unstoring
    have unasked : Input.change? .confirm progress = none := asked.trans unchanged
    rw [Happening.change?]
    split
    · exact unasked
    · rfl
  · exact .nothing unstoring (Happening.change?_of_unsettled rfl)
  · have entered : Input.change? .confirm progress = some change := asked.trans changes
    have baking : signer.config.mode = .baking := onlyBaking (by simp [changes])
    have nothing : ∀ exchange ∈ ([] : List Exchange), exchange.Unstoring := by simp
    cases reply with
    | ok done => exact .stored baking nothing entered admits (by simp [Happening.settles])
    | error error => exact .unstored baking nothing entered admits

/-- What a step does to the record. -/
theorem Steps.writes {answer : Option (Except SignerError Answer)}
    (reflects : Device.Reflects ⟨signer, record⟩ progress)
    (steps : signer.Steps record input exchanges answer next) :
    Writes (.decode record) signer.config.mode progress input exchanges answer := by
  cases steps with
  | obeyed read performs => exact performs_writes reflects read performs
  | refused read performs => exact performs_writes reflects read performs
  | unread unread => exact .nothing (by simp) (Happening.change?_of_unsettled rfl)
  | confirmed waits performs => exact action_writes reflects waits performs
  | unconfirmed waits performs => exact action_writes reflects waits performs
  | rejected waits => exact .nothing (by simp) (Happening.change?_of_unsettled rfl)
  | unasked resumes nothing => exact .nothing (by simp) (Happening.change?_of_unsettled rfl)
  | reset => exact .nothing (by simp) (Happening.change?_of_unsettled rfl)

end Signer

/-- The exchanges before a power cut either end with the last one of the step, or have left
it out. -/
private theorem cut_before_last {first rest front : List Exchange} {last : Exchange}
    (whole : first ++ rest = front ++ [last]) :
    first = front ++ [last] ∨ ∃ more, front = first ++ more := by
  rcases List.eq_nil_or_concat rest with rfl | ⟨more, final, rfl⟩
  · exact .inl (by simpa using whole)
  · rw [List.concat_eq_append, ← List.append_assoc] at whole
    exact .inr ⟨more, (List.append_inj_left' whole rfl).symm⟩

namespace Signer.Writes

variable {state : BakingState} {mode : Mode} {progress : Progress} {input : Input}
  {answer : Option (Except SignerError Answer)}

/-- The one store at the end of a step is all that is stored. -/
private theorem stores_concat {front : List Exchange} {last : Exchange}
    (unstoring : ∀ exchange ∈ front, exchange.Unstoring) :
    (front ++ [last]).filterMap Exchange.stored? = last.stored?.toList := by
  rw [List.filterMap_append, Exchange.filterMap_stored?_of_unstoring unstoring]
  cases stored : last.stored? <;> simp [stored]

theorem step {exchanges : List Exchange}
    (writes : Writes state mode progress input exchanges answer) :
    (Happening.step input exchanges answer).StoresChange progress mode state := by
  cases writes with
  | nothing unstoring unsettled =>
    exact .inl ⟨unsettled, Exchange.filterMap_stored?_of_unstoring unstoring⟩
  | stored baking unstoring entered admitted settled =>
    have changed := (Happening.change?_of_settled settled).trans entered
    exact .inr ⟨_, changed, baking, admitted, stores_concat unstoring⟩
  | unstored baking unstoring entered admitted =>
    exact .inl ⟨Happening.change?_of_unsettled rfl, stores_concat unstoring⟩

/-- Power is lost after some of the exchanges of a step: before its store, or after it. -/
theorem powerCut {first rest : List Exchange}
    (writes : Writes state mode progress input (first ++ rest) answer) :
    (Happening.powerCut input first).StoresChange progress mode state := by
  have before (unstoring : ∀ exchange ∈ first, exchange.Unstoring) :
      (Happening.powerCut input first).StoresChange progress mode state := by
    have unstored := Exchange.filterMap_stored?_of_unstoring unstoring
    exact .inl ⟨Happening.change?_of_unstored unstored, unstored⟩
  generalize wholeEq : first ++ rest = whole at writes
  cases writes with
  | nothing unstoring unsettled =>
    rw [← wholeEq] at unstoring
    exact before (List.forall_mem_append.1 unstoring).1
  | stored baking unstoring entered admitted settled =>
    rcases cut_before_last wholeEq with rfl | ⟨more, rfl⟩
    · refine .inr ⟨_, (Happening.change?_of_settled ?_).trans entered, baking, admitted,
        stores_concat unstoring⟩
      simp [Happening.settles, Exchange.stored?]
    · exact before (List.forall_mem_append.1 unstoring).1
  | unstored baking unstoring entered admitted =>
    rcases cut_before_last wholeEq with rfl | ⟨more, rfl⟩
    · exact .inl ⟨Happening.change?_of_unstored (stores_concat unstoring),
        stores_concat unstoring⟩
    · exact before (List.forall_mem_append.1 unstoring).1

end Signer.Writes

namespace Device

variable {device next : Device} {progress : Progress} {happening : Happening}

/-- Whatever happens, all that is stored is the one change that it makes. -/
theorem Happens.storesChange (reflects : device.Reflects progress)
    (happens : Happens device happening next) :
    happening.StoresChange progress device.signer.config.mode
      (BakingState.decode device.record) := by
  cases happens with
  | step yields => exact ((Signer.steps_of_yields yields).writes reflects).step
  | powerCut begins =>
    -- The step was on its way to some end; what it would have stored there is known.
    obtain ⟨rest, ⟨answer, after⟩, yields⟩ := Dialog.begins_iff.1 begins
    exact ((Signer.steps_of_yields yields).writes reflects).powerCut

/-- A wallet never calls to store anything. -/
theorem Happens.unstoring (reflects : device.Reflects progress)
    (happens : Happens device happening next) (wallet : device.signer.config.mode = .wallet) :
    ∀ exchange ∈ happening.exchanges, exchange.Unstoring := by
  obtain ⟨⟨rest, answer, after, steps⟩, _⟩ := happens.completes
  have noBaking (baking : device.signer.config.mode = .baking) : False := by
    rw [wallet] at baking
    cases baking
  generalize wholeEq : happening.exchanges ++ rest = whole at steps
  cases steps.writes reflects with
  | nothing unstoring unsettled =>
    rw [← wholeEq] at unstoring
    exact (List.forall_mem_append.1 unstoring).1
  | stored baking _ _ _ _ => exact (noBaking baking).elim
  | unstored baking _ _ _ => exact (noBaking baking).elim

end Device

end TezosSigner
