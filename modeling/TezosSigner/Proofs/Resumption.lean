/-
Module: TezosSigner.Proofs.Resumption
Purpose: The operator's decision resumes the one step that asked for it, and does what it showed.
Main exports:
  Happening.Asks, Happening.Decides, Resumes, Question, Poses, Question.Settles, Pending.Puts,
  Device.Run.waited, Device.Run.resumed_once
-/
import TezosSigner.Proofs.BakingRequests

namespace TezosSigner

/-!
A step that asks the operator leaves a question, and the operator's decision settles it.  Both
are steps of the history, so which decision belongs to which question can be read off from
their places: nothing but idle commands may stand between them.  Every decision that was taken
has such a question, and no question has two decisions.  What the decision does is what the
question was, down to the bytes that the platform replied with when it was put.
-/

namespace Happening

/-- A step that asks the operator. -/
def Asks (happening : Happening) : Prop :=
  ∃ input exchanges, happening = .step input exchanges (some (.ok .pending))

/-- A decision of the operator that was taken. -/
def Decides (happening : Happening) : Prop :=
  ∃ input exchanges answer, (input = .confirm ∨ input = .reject) ∧
    happening = .step input exchanges (some (.ok answer))

/-- A step that leaves alone what is under way. -/
def Idles (mode : Mode) (happening : Happening) : Prop :=
  ∃ command, happening.accepted? = some command ∧ mode.Idle command

theorem Decides.not_idles {mode : Mode} {happening : Happening} (decides : happening.Decides) :
    ¬ happening.Idles mode := by
  rintro ⟨command, accepted, _⟩
  obtain ⟨input, exchanges, answer, rfl | rfl, rfl⟩ := decides <;> cases accepted

end Happening

/-- Places of a history such that the later one decides what the earlier one has asked. -/
structure Resumes (mode : Mode) (history : List Happening) (asked decided : Nat) : Prop where
  earlier : asked < decided
  asks : ∃ happening, history[asked]? = some happening ∧ happening.Asks
  decides : ∃ happening, history[decided]? = some happening ∧ happening.Decides
  idles : ∀ place happening, asked < place → place < decided →
    history[place]? = some happening → happening.Idles mode

/-- The places of a history that is split at one of them. -/
private theorem places_of_split {history earlier between : List Happening} {asking : Happening}
    {decided : Nat} (split : history.take decided = earlier ++ asking :: between)
    (bound : decided < history.length) :
    earlier.length < decided ∧ history[earlier.length]? = some asking ∧
      history.take (earlier.length + 1) = earlier ++ [asking] ∧
      ∀ place happening, earlier.length < place → place < decided →
        history[place]? = some happening → happening ∈ between := by
  have counted : earlier.length + (between.length + 1) = decided := by
    have lengths := congrArg List.length split
    simp only [List.length_take, List.length_append, List.length_cons] at lengths
    omega
  have places (place : Nat) (before : place < decided) :
      history[place]? = (earlier ++ asking :: between)[place]? := by
    rw [← split, List.getElem?_take_of_lt before]
  refine ⟨by omega, ?_, ?_, ?_⟩
  · rw [places _ (by omega)]
    simp
  · have front := congrArg (List.take (earlier.length + 1)) split
    rw [List.take_take, Nat.min_eq_left (by omega)] at front
    rw [front, List.take_length_add_append]
    rfl
  · intro place happening after before there
    rw [places place before, List.getElem?_append_right (by omega)] at there
    obtain ⟨offset, same⟩ : ∃ offset, place - earlier.length = offset + 1 :=
      ⟨place - earlier.length - 1, by omega⟩
    rw [same, List.getElem?_cons_succ] at there
    exact List.mem_of_getElem? there

/-- No question has two decisions. -/
theorem Resumes.decided_unique {mode : Mode} {history : List Happening} {asked one two : Nat}
    (first : Resumes mode history asked one) (second : Resumes mode history asked two) :
    one = two := by
  obtain ⟨deciding, there, decides⟩ := first.decides
  obtain ⟨deciding', there', decides'⟩ := second.decides
  rcases Nat.lt_trichotomy one two with before | same | after
  · exact absurd (second.idles one deciding first.earlier before there) decides.not_idles
  · exact same
  · exact absurd (first.idles two deciding' second.earlier after there') decides'.not_idles

/-!
## Questions

What the operator is asked, the bytes of the platform's reply included.
-/

/-- What the operator can be asked. -/
inductive Question where
  | exportKey (publicKey : Bytes)
  | authorize (key : KeyPath) (publicKey : Bytes)
  | reset (level : UInt32)
  | sign (request : SigningRequest)

/-- A history that ends by asking a question: its last step tells which one. -/
inductive Poses (mode : Mode) : List Happening → Question → Prop where
  | exportKey {earlier : List Happening} {input : Input} {key : KeyPath} {reply : KeyReply}
      (read : input.command? = some (.getPublicKey key)) (fits : reply.length ≤ maxPublicKey) :
      Poses mode
        (earlier ++ [.step input [⟨.publicKey key, .ok reply⟩] (some (.ok .pending))])
        (.exportKey (reply.buffer.toList.take reply.length))
  | authorize {earlier : List Happening} {input : Input} {key : KeyPath} {reply : KeyReply}
      (baking : mode = .baking) (read : input.command? = some (.authorizeBaking key))
      (fits : reply.length ≤ maxPublicKey) :
      Poses mode
        (earlier ++ [.step input [⟨.publicKey key, .ok reply⟩] (some (.ok .pending))])
        (.authorize key (reply.buffer.toList.take reply.length))
  | reset {earlier : List Happening} {input : Input} {level : UInt32} (baking : mode = .baking)
      (read : input.command? = some (.resetHighWaterMark level)) :
      Poses mode (earlier ++ [.step input [] (some (.ok .pending))]) (.reset level)
  | sign {earlier : List Happening} {input : Input} {control : PacketControl} {data : Bytes}
      {exchanges : List Exchange} {request : SigningRequest}
      (read : input.command? = some (.signNext request.instruction control data))
      (submits : Submits mode (earlier ++ [.step input exchanges (some (.ok .pending))]) request)
      (complete : request.IsComplete) :
      Poses mode (earlier ++ [.step input exchanges (some (.ok .pending))]) (.sign request)

namespace SigningRequest

/-- The bytes that a signature for a request is made on. -/
def toSign (request : SigningRequest) : Bytes :=
  if request.instruction = .signUnsafe then request.message
  else (Blake2b.hash request.message).toList

/-- The hash that goes along with the signature. -/
def sentHash? (request : SigningRequest) : Option Digest :=
  if request.instruction = .signWithHash then some (Blake2b.hash request.message) else none

/-- Only the hash is wanted, as one of the packets says. -/
def WantsHash (request : SigningRequest) : Prop :=
  request.instruction ≠ .signUnsafe ∧
    ∃ packet ∈ request.packets, packet.control.kind = .hashOnlyNext

end SigningRequest

namespace Question

/-- The line of the prompt that tells what a question is about, where it is one line. -/
def line? : Question → Option (String × PromptValue)
  | .exportKey publicKey => some ("Public Key", .publicKey publicKey)
  | .authorize _ publicKey => some ("Public Key", .publicKey publicKey)
  | .reset level => some ("Reset HWM", .level level)
  | .sign _ => none

/-- A prompt that shows what a question is about. -/
def ShownBy (question : Question) (prompt : Prompt) : Prop :=
  ∀ label value, question.line? = some (label, value) → prompt.value? label = some value

/-- What is done once the operator has confirmed, given the baking state. -/
inductive Confirmed (state : BakingState) : Question → List Exchange → Answer → Prop where
  | exportKey {publicKey : Bytes} :
      Confirmed state (.exportKey publicKey) [] (.publicKey publicKey)
  | authorize {key : KeyPath} {publicKey : Bytes} :
      Confirmed state (.authorize key publicKey)
        [⟨.store { state with key := some key }.encode, .ok ()⟩] (.publicKey publicKey)
  | reset {level : UInt32} :
      Confirmed state (.reset level)
        [⟨.store { state with mark := { level := level, endorsement := false } }.encode, .ok ()⟩]
        .none
  | hash {request : SigningRequest} (wants : request.WantsHash) :
      Confirmed state (.sign request) [] (.hash (Blake2b.hash request.message))
  | sign {request : SigningRequest} {reply : SignReply} (signs : ¬ request.WantsHash) :
      Confirmed state (.sign request) [⟨.sign request.key request.toSign, .ok reply⟩]
        (.signature request.sentHash? (reply.signature request.key.curve))

/-- What the operator's decision does, given the baking state. -/
inductive Settles (state : BakingState) (question : Question) : Happening → Prop where
  | confirmed {exchanges : List Exchange} {answer : Answer}
      (confirmed : question.Confirmed state exchanges answer) :
      Settles state question (.step .confirm exchanges (some (.ok answer)))
  | rejected : Settles state question (.step .reject [] (some (.ok .rejected)))

end Question

/-- A public key that fits its room is shown as it is. -/
theorem Prompt.shownPublicKey_of_fetched {reply : KeyReply} {publicKey : Bytes}
    (fetched : Signer.Fetched reply publicKey) : Prompt.shownPublicKey publicKey = publicKey := by
  obtain ⟨fits, rfl⟩ := fetched
  refine if_pos ?_
  simp only [List.length_take]
  omega

namespace Session

variable {mode : Mode} {session : Session} {request : SigningRequest}

theorem Carries.wantsHash_iff (carries : session.Carries mode request) :
    request.WantsHash ↔ session.isHashing = true ∧ session.hashOnly = true := by
  rw [SigningRequest.WantsHash, carries.isHashing_iff_ne, carries.hashOnly]
  simp

/-- A request is signed by the bytes that it says. -/
theorem Carries.eq_toSign (carries : session.Carries mode request) {message : Bytes}
    (asked : session.finish.toSign? = some message) : message = request.toSign := by
  have raw := carries.isHashing_iff_ne
  rw [SigningRequest.toSign]
  cases hashing : session.isHashing with
  | true =>
    rw [if_neg (raw.1 hashing)]
    exact carries.eq_of_hashing hashing asked
  | false =>
    rw [if_pos (by simpa [hashing] using raw)]
    exact carries.eq_of_raw hashing asked

theorem Carries.sentHash?_eq (carries : session.Carries mode request) :
    session.finish.sentHash? = request.sentHash? := by
  rw [sentHash?, SigningRequest.sentHash?, emitsHash, instruction_finish, carries.instruction]
  by_cases sends : request.instruction = .signWithHash
  · have hashing := carries.isHashing_iff_ne.2 (by simp [sends])
    simp [sends, carries.finalHash_finish hashing]
  · simp [sends]

/-- A finished request is signed as it says, once the operator has confirmed. -/
theorem Carries.confirmed {state : BakingState} {exchanges : List Exchange} {answer : Answer}
    (carries : session.Carries mode request)
    (signs : session.finish.Signs exchanges (.ok answer)) :
    (Question.sign request).Confirmed state exchanges answer := by
  generalize outcomeEq : Except.ok answer = outcome at signs
  cases signs with
  | hashOnly hashing finished flag =>
    cases outcomeEq
    rw [isHashing_finish] at hashing
    rw [hashOnly_finish] at flag
    rw [carries.finalHash_finish hashing] at finished
    rw [← Option.some.inj finished]
    exact .hash (carries.wantsHash_iff.2 ⟨hashing, flag⟩)
  | signed asked fits =>
    cases outcomeEq
    have signs : ¬ request.WantsHash := by
      rw [carries.wantsHash_iff]
      rintro ⟨hashing, flag⟩
      simp [toSign?, hashing, flag] at asked
    unfold signatureOf at fits
    split at fits
    · cases fits
      rw [carries.eq_toSign asked, carries.sentHash?_eq, key_finish, carries.key]
      exact .sign signs
    · cases fits
  | _ => cases outcomeEq

/-- A session keeps its instruction. -/
theorem Takes.instruction {control : PacketControl} {data : Bytes} {exchanges : List Exchange}
    {taken : Session} (takes : session.Takes mode control data exchanges taken) :
    taken.instruction = session.instruction := by
  obtain ⟨read, classifies, appending⟩ := takes.understood
  obtain ⟨magic, parsed, rfl⟩ := exists_of_classifies classifies
  obtain ⟨message, rfl, _⟩ := append_ok appending
  rfl

end Session

/-- A confirmation that puts a question to the operator: the prompt shows it, and to confirm it
does it. -/
structure Pending.Puts (pending : Pending) (question : Question) : Prop where
  shown : question.ShownBy pending.prompt
  confirmed : ∀ {state : BakingState} {made : List Exchange} {answer : Answer},
    pending.action.Performs state made (.ok answer) → question.Confirmed state made answer

namespace Pending

variable {reply : KeyReply} {publicKey : Bytes}

theorem puts_exportKey (fetched : Signer.Fetched reply publicKey) :
    Pending.Puts
      { prompt := Prompt.providePublicKey publicKey, action := .exportKey publicKey }
      (.exportKey publicKey) where
  shown := by
    rintro label value ⟨⟩
    simp [Prompt.providePublicKey, Prompt.ofFields, Prompt.maxFields, Prompt.value?,
      Prompt.shownPublicKey_of_fetched fetched]
  confirmed := by
    intro state made answer performs
    cases performs
    exact .exportKey

theorem puts_authorize (key : KeyPath) (fetched : Signer.Fetched reply publicKey) :
    Pending.Puts
      { prompt := Prompt.authorizeBaking publicKey, action := .authorize key publicKey }
      (.authorize key publicKey) where
  shown := by
    rintro label value ⟨⟩
    simp [Prompt.authorizeBaking, Prompt.ofFields, Prompt.maxFields, Prompt.value?,
      Prompt.shownPublicKey_of_fetched fetched]
  confirmed := by
    intro state made answer performs
    generalize outcomeEq : Except.ok answer = outcome at performs
    cases performs with
    | unbound _ => cases outcomeEq
    | @authorize _ _ stored _ =>
      cases stored <;> cases outcomeEq
      exact .authorize

theorem puts_reset (level : UInt32) :
    Pending.Puts { prompt := Prompt.resetHighWaterMark level, action := .reset level }
      (.reset level) where
  shown := by
    rintro label value ⟨⟩
    simp [Prompt.resetHighWaterMark, Prompt.ofFields, Prompt.maxFields, Prompt.value?]
  confirmed := by
    intro state made answer performs
    generalize outcomeEq : Except.ok answer = outcome at performs
    cases performs with
    | unmoved _ => cases outcomeEq
    | @reset _ stored _ =>
      cases stored <;> cases outcomeEq
      exact .reset

/-- What a session is signed for is what its packets have carried.  The prompt of a request is
not one line, so there is nothing to be shown here. -/
theorem puts_sign {mode : Mode} {session : Session} {request : SigningRequest}
    (carries : session.Carries mode request) (prompt : Prompt) :
    Pending.Puts { prompt := prompt, action := .sign session.finish } (.sign request) where
  shown := by rintro label value ⟨⟩
  confirmed := by
    intro state made answer performs
    generalize outcomeEq : Except.ok answer = outcome at performs
    cases performs with
    | sign signs =>
      subst outcomeEq
      exact carries.confirmed signs

/-- A command that asks poses the question that waits. -/
theorem Asks.poses {mode : Mode} {earlier : List Happening} {input : Input}
    {exchanges : List Exchange} {command : Command} {pending : Pending}
    (asks : Pending.Asks mode command exchanges pending) (read : input.command? = some command) :
    ∃ question, Poses mode (earlier ++ [.step input exchanges (some (.ok .pending))]) question ∧
      pending.Puts question := by
  cases asks with
  | getPublicKey fetched =>
    have puts := puts_exportKey fetched
    obtain ⟨fits, rfl⟩ := fetched
    exact ⟨_, .exportKey read fits, puts⟩
  | authorizeBaking baking fetched =>
    have puts := fun key => puts_authorize key fetched
    obtain ⟨fits, rfl⟩ := fetched
    exact ⟨_, .authorize baking read fits, puts _⟩
  | resetHighWaterMark baking valid => exact ⟨_, .reset baking read, puts_reset _⟩

end Pending

/-- What a command leaves to wait for the operator. -/
inductive Pending.LeftBy (mode : Mode) : Command → List Exchange → Pending → Prop where
  | command {command : Command} {exchanges : List Exchange} {pending : Pending}
      (asks : Pending.Asks mode command exchanges pending) :
      Pending.LeftBy mode command exchanges pending
  | packet {instruction : Instruction} {control : PacketControl} {data : Bytes}
      {exchanges : List Exchange} {prompt : Prompt} {session : Session}
      (same : session.instruction = instruction) :
      Pending.LeftBy mode (.signNext instruction control data) exchanges
        { prompt := prompt, action := .sign session }

namespace Device

variable {device next first last : Device} {happening : Happening} {history : List Happening}
  {pending : Pending} {progress : Progress} {config : Config} {record : Record}

/-- What waits after a data packet was taken is the session that it has finished. -/
theorem Reflects.leaves {instruction : Instruction} {control : PacketControl} {data : Bytes}
    {exchanges : List Exchange} {answer : Answer} {after : Signer} {state : BakingState}
    (reflects : device.Reflects progress)
    (takes : device.signer.TakesPacket state instruction control data exchanges
      (.ok (answer, after)))
    (waits : after.pending = some pending) :
    answer = .pending ∧
      pending.LeftBy device.signer.config.mode (.signNext instruction control data) exchanges := by
  generalize outcomeEq : Except.ok (answer, after) = outcome at takes
  -- Nothing waits while a session is under way.
  have unasked {session : Session}
      (continues : device.signer.Continues instruction control session) :
      device.signer.pending = none := by
    obtain ⟨_, _, unasked, _⟩ := reflects.received continues.held
    exact unasked
  cases takes with
  | refused => cases outcomeEq
  | overflowed _ _ => cases outcomeEq
  | collected continues takes more counts =>
    cases outcomeEq
    rw [unasked continues] at waits
    cases waits
  | finished continues takes last completes =>
    rename_i session taken front back outcome
    cases outcome with
    | error error => cases outcomeEq
    | ok completion =>
      cases completion with
      | answered given =>
        cases outcomeEq
        have same := waits.symm.trans (unasked continues)
        cases same
      | awaits left =>
        cases outcomeEq
        cases waits
        obtain ⟨_, prompt, rfl, _⟩ := Mode.complete_awaits completes
        refine ⟨rfl, .packet ?_⟩
        rw [Session.instruction_finish, takes.instruction, continues.same]

/-- What waits after a command was obeyed waited before it, or the command has left it. -/
theorem Reflects.asks {command : Command} {exchanges : List Exchange} {answer : Answer}
    {after : Signer} {state : BakingState} (reflects : device.Reflects progress)
    (performs : device.signer.Performs state command exchanges (.ok (answer, after)))
    (waits : after.pending = some pending) :
    device.signer.config.mode.Idle command ∨
      answer = .pending ∧ pending.LeftBy device.signer.config.mode command exchanges := by
  generalize outcomeEq : Except.ok (answer, after) = outcome at performs
  cases performs with
  | refused => cases outcomeEq
  | keyRefused _ => cases outcomeEq
  | none => exact .inl trivial
  | signFirst available more started =>
    cases outcomeEq
    cases waits
  | signNext takes =>
    subst outcomeEq
    exact .inr (reflects.leaves takes waits)
  | exporting prompts fetched =>
    cases outcomeEq
    cases waits
    exact .inr ⟨rfl, .command (.getPublicKey fetched)⟩
  | exported prompts fetched =>
    cases outcomeEq
    cases waits
  | authorizing baking fetched =>
    cases outcomeEq
    cases waits
    exact .inr ⟨rfl, .command (.authorizeBaking baking fetched)⟩
  | resetting baking valid =>
    cases outcomeEq
    cases waits
    exact .inr ⟨rfl, .command (.resetHighWaterMark baking valid)⟩
  | queryAuthKey baking =>
    rw [baking]
    exact .inl trivial
  | queryHighWaterMark baking =>
    rw [baking]
    exact .inl trivial

theorem Happens.asks (reflects : device.Reflects progress)
    (happens : Happens device happening next) (waits : next.signer.pending = some pending) :
    happening.Idles device.signer.config.mode ∨
      ∃ input exchanges command, happening = .step input exchanges (some (.ok .pending)) ∧
        input.command? = some command ∧
        pending.LeftBy device.signer.config.mode command exchanges := by
  cases happens with
  | powerCut begins => cases waits
  | @step signer after record input exchanges answer yields =>
    cases Signer.steps_of_yields yields with
    | obeyed read performs =>
      rcases reflects.asks performs waits with idle | ⟨rfl, left⟩
      · exact .inl ⟨_, read, idle⟩
      · exact .inr ⟨input, exchanges, _, rfl, read, left⟩
    | _ => cases waits

/-!
## The step that asked

Whatever waits for the operator was left by one step, and nothing but idle commands has come
since.
-/

/-- Whatever waits after a run was left by one step of it, and waits as that step has left
it. -/
theorem Run.waited (run : Run (.boot config record) history device)
    (waits : device.signer.pending = some pending) :
    ∃ earlier input exchanges command between,
      history = earlier ++ .step input exchanges (some (.ok .pending)) :: between ∧
      Run (.boot config record)
        (earlier ++ [.step input exchanges (some (.ok .pending))]) device ∧
      input.command? = some command ∧ pending.LeftBy config.mode command exchanges ∧
      ∀ happening ∈ between, happening.Idles config.mode := by
  revert waits
  refine Run.concat_induction (motive := fun history device =>
    device.signer.pending = some pending → ∃ earlier input exchanges command between,
      history = earlier ++ .step input exchanges (some (.ok .pending)) :: between ∧
      Run (.boot config record)
        (earlier ++ [.step input exchanges (some (.ok .pending))]) device ∧
      input.command? = some command ∧ pending.LeftBy config.mode command exchanges ∧
      ∀ happening ∈ between, happening.Idles config.mode) ?_ ?_ run
  · intro impossible
    cases impossible
  · intro history middle last happening before found happens waits
    obtain ⟨sameConfig, reflects⟩ := before.reflects
    have asks := happens.asks reflects waits
    rw [sameConfig] at asks
    rcases asks with idles | ⟨input, exchanges, command, rfl, read, left⟩
    · obtain ⟨command, accepted, idle⟩ := id idles
      obtain ⟨rfl, _⟩ := happens.eq_of_idle accepted idle
      obtain ⟨earlier, input, exchanges, asked, between, rfl, asking, read, left, idling⟩ :=
        found waits
      refine ⟨earlier, input, exchanges, asked, between ++ [happening], by simp, asking, read,
        left, ?_⟩
      intro later member
      rcases List.mem_append.1 member with old | new
      · exact idling later old
      · rw [List.mem_singleton.1 new]
        exact idles
    · exact ⟨history, input, exchanges, command, [], rfl,
        run_concat_iff.2 ⟨middle, before, happens⟩, read, left, by simp⟩

/-- What waits is the question that was posed. -/
theorem Run.poses {earlier : List Happening} {input : Input} {exchanges : List Exchange}
    {command : Command}
    (run : Run (.boot config record)
      (earlier ++ [.step input exchanges (some (.ok .pending))]) device)
    (waits : device.signer.pending = some pending) (read : input.command? = some command)
    (left : pending.LeftBy config.mode command exchanges) :
    ∃ question,
      Poses config.mode (earlier ++ [.step input exchanges (some (.ok .pending))]) question ∧
      pending.Puts question := by
  cases left with
  | command asks => exact asks.poses read
  | packet same =>
    obtain ⟨request, unfinished, progress, rfl, carries, complete, _⟩ :=
      run.reflects.2.consented waits
    have submits := run.submits request (by rw [progress]; rfl)
    rw [Session.instruction_finish, carries.instruction] at same
    subst same
    exact ⟨_, .sign read submits complete, Pending.puts_sign carries _⟩

/-- A decision that was taken settles what waits. -/
theorem Happens.decides (happens : Happens device happening next)
    (decides : happening.Decides) :
    ∃ pending, device.signer.pending = some pending ∧
      ((∃ exchanges answer, happening = .step .confirm exchanges (some (.ok answer)) ∧
          pending.action.Performs (BakingState.decode device.record) exchanges (.ok answer)) ∨
        happening = .step .reject [] (some (.ok .rejected))) := by
  obtain ⟨input, exchanges, answer, resumes, rfl⟩ := decides
  obtain ⟨steps, _⟩ := happens.steps
  generalize answerEq : some (Except.ok answer) = given at steps
  generalize next.signer = after at steps
  cases steps with
  | obeyed read performs => rcases resumes with rfl | rfl <;> cases read
  | confirmed waits performs =>
    cases answerEq
    exact ⟨_, waits, .inl ⟨_, _, rfl, performs⟩⟩
  | rejected waits =>
    cases answerEq
    exact ⟨_, waits, .inr rfl⟩
  | _ => cases answerEq

/-- A place in a run is a happening between two devices. -/
theorem Run.at {place : Nat} (run : Run first history last)
    (there : history[place]? = some happening) :
    ∃ before after, Run first (history.take place) before ∧ Happens before happening after := by
  obtain ⟨bound, same⟩ := List.getElem?_eq_some_iff.1 there
  have split : history = history.take place ++ happening :: history.drop (place + 1) := by
    rw [← same, ← List.drop_eq_getElem_cons bound, List.take_append_drop]
  rw [split] at run
  obtain ⟨before, earlier, later⟩ := run_append_iff.1 run
  cases later with
  | cons head tail => exact ⟨before, _, earlier, head⟩

theorem Happens.not_idles {mode : Mode} (happens : Happens device happening next)
    (asks : happening.Asks) : ¬ happening.Idles mode := by
  rintro ⟨command, accepted, idle⟩
  obtain ⟨_, input, answer, rfl, unasked⟩ := happens.eq_of_idle accepted idle
  obtain ⟨_, _, same⟩ := asks
  cases same
  exact unasked rfl

/-- What is decided was asked by one step only. -/
theorem Run.asked_unique {one two decided : Nat} {mode : Mode} (run : Run first history last)
    (left : Resumes mode history one decided) (right : Resumes mode history two decided) :
    one = two := by
  obtain ⟨asking, there, asks⟩ := left.asks
  obtain ⟨asking', there', asks'⟩ := right.asks
  rcases Nat.lt_trichotomy one two with before | same | after
  · obtain ⟨_, _, _, happens⟩ := run.at there'
    exact absurd (left.idles two asking' before right.earlier there') (happens.not_idles asks')
  · exact same
  · obtain ⟨_, _, _, happens⟩ := run.at there
    exact absurd (right.idles one asking after left.earlier there) (happens.not_idles asks)

/-- What a decision settles is the question of the step that it resumes. -/
theorem Run.resumed {decided : Nat} (run : Run (.boot config record) history device)
    (there : history[decided]? = some happening) (decides : happening.Decides) :
    ∃ asked waiting pending question, Resumes config.mode history asked decided ∧
      Run (.boot config record) (history.take (asked + 1)) waiting ∧
      Run (.boot config record) (history.take decided) waiting ∧
      waiting.signer.pending = some pending ∧
      Poses config.mode (history.take (asked + 1)) question ∧
      question.ShownBy pending.prompt ∧
      question.Settles (BakingState.decode waiting.record) happening := by
  obtain ⟨waiting, _, before, happens⟩ := run.at there
  obtain ⟨pending, waits, settles⟩ := happens.decides decides
  obtain ⟨earlier, input, exchanges, command, between, split, asking, read, left, idling⟩ :=
    before.waited waits
  obtain ⟨question, poses, puts⟩ := asking.poses waits read left
  obtain ⟨bound, _⟩ := List.getElem?_eq_some_iff.1 there
  obtain ⟨counted, askedThere, front, later⟩ := places_of_split split bound
  refine ⟨earlier.length, waiting, pending, question, ?_, ?_, before, waits, ?_, puts.shown, ?_⟩
  · exact
      { earlier := by omega
        asks := ⟨_, askedThere, _, _, rfl⟩
        decides := ⟨happening, there, decides⟩
        idles := fun place other after before found =>
          idling other (later place other after before found) }
  · rw [front]
    exact asking
  · rw [front]
    exact poses
  · rcases settles with ⟨made, answer, rfl, performs⟩ | rfl
    · exact .confirmed (puts.confirmed performs)
    · exact .rejected

/-- Every decision of the operator that is taken resumes one step that has asked for it, and no
two decisions resume the same step.  The device has waited unchanged in between.  What the
prompt shows is what that step was about, with the bytes that the platform replied to it, and
what the decision does is just that. -/
theorem Run.resumed_once (run : Run (.boot config record) history device) :
    (∀ decided happening, history[decided]? = some happening → happening.Decides →
      ∃! asked, Resumes config.mode history asked decided) ∧
    (∀ asked one two, Resumes config.mode history asked one →
      Resumes config.mode history asked two → one = two) ∧
    ∀ asked decided happening, Resumes config.mode history asked decided →
      history[decided]? = some happening →
      ∃ waiting pending question,
        Run (.boot config record) (history.take (asked + 1)) waiting ∧
        Run (.boot config record) (history.take decided) waiting ∧
        waiting.signer.pending = some pending ∧
        Poses config.mode (history.take (asked + 1)) question ∧
        question.ShownBy pending.prompt ∧
        question.Settles (BakingState.decode waiting.record) happening := by
  refine ⟨?_, fun _ _ _ => Resumes.decided_unique, ?_⟩
  · intro decided happening there decides
    obtain ⟨asked, _, _, _, resumes, _⟩ := run.resumed there decides
    exact ⟨asked, resumes, fun other also => run.asked_unique also resumes⟩
  · intro asked decided happening resumes there
    obtain ⟨deciding, there', decides⟩ := resumes.decides
    cases there.symm.trans there'
    obtain ⟨asked', waiting, pending, question, also, content⟩ := run.resumed there decides
    rw [run.asked_unique resumes also]
    exact ⟨waiting, pending, question, content⟩

/-- A baker is given a key, tells its mark, and has the operator confirm. -/
def authorization (state : BakingState) (key : KeyPath) (reply : KeyReply) (publicKey : Bytes) :
    List Happening :=
  [.step (.command (.authorizeBaking key)) [⟨.publicKey key, .ok reply⟩] (some (.ok .pending)),
    .step (.command .queryHighWaterMark) [] (some (.ok (.highWaterMark state.mark))),
    .step .confirm [⟨.store { state with key := some key }.encode, .ok ()⟩]
      (some (.ok (.publicKey publicKey)))]

/-- Whatever a baking device was doing, the operator can have it authorize any key that has
steps. -/
theorem Run.authorizes {signer : Signer} {key : KeyPath} {reply : KeyReply} {publicKey : Bytes}
    (baking : signer.config.mode = .baking) (steps : key.path ≠ [])
    (fetched : Signer.Fetched reply publicKey) :
    Run { signer := signer, record := record }
      (authorization (.decode record) key reply publicKey)
      { signer := { signer.discard with status := .complete }
        record := { BakingState.decode record with key := some key }.encode } := by
  have binds : ((Action.authorize key publicKey).perform (.decode record)).Yields
      [⟨.store { BakingState.decode record with key := some key }.encode, .ok ()⟩]
      (.ok (.publicKey publicKey)) := by
    refine Act.yields_bind_pure_iff.2 ⟨.ok (), ?_, rfl⟩
    rw [BakingState.bindKey, if_neg (by simpa using steps)]
    exact Act.yields_store_iff.2 ⟨.ok (), rfl, rfl⟩
  exact .cons
    (.step (Signer.step_command_yields (Signer.authorizeBaking_asks baking fetched)))
    (.cons (.step (Signer.step_command_yields (Signer.queryHighWaterMark_answers baking)))
      (.single (.step (Signer.step_confirm_yields rfl binds))))

/-- A public key of the usual length. -/
def bakingKeyReply : KeyReply :=
  { buffer := Vector.replicate 65 0x02, length := 33 }

/-- The confirmation of a new baker's key resumes the step that has asked for it, over the query
in between, and no other. -/
theorem Run.authorization_resumed :
    ∃ history device,
      history = authorization newBaker bakingKey bakingKeyReply (List.replicate 33 0x02) ∧
      Run (.boot { mode := .baking } newBaker.encode) history device ∧
      Resumes .baking history 0 2 ∧ ∀ asked, Resumes .baking history asked 2 → asked = 0 := by
  have steps : bakingKey.path ≠ [] := by decide
  have fetched : Signer.Fetched bakingKeyReply (List.replicate 33 0x02) := ⟨by decide, by decide⟩
  have run : Run (.boot { mode := .baking } newBaker.encode) _ _ :=
    Run.authorizes rfl steps fetched
  rw [decode_encode_newBaker] at run
  obtain ⟨asked, resumes, unique⟩ := run.resumed_once.1 2 _ rfl ⟨_, _, _, .inl rfl, rfl⟩
  have first : asked = 0 := by
    obtain ⟨happening, there, _, _, asks⟩ := resumes.asks
    have earlier := resumes.earlier
    match asked with
    | 0 => rfl
    | 1 =>
      cases there
      cases asks
    | later + 2 => omega
  subst first
  exact ⟨_, _, rfl, run, resumes, unique⟩

end Device

end TezosSigner
