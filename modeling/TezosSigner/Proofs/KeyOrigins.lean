/-
Module: TezosSigner.Proofs.KeyOrigins
Purpose: Where the keys come from that a device calls on its platform with.
Main exports:
  KeyPath.WellFormed, Call.key?, Command.key?, Signer.Warrants, Signer.Steps.warrants,
  Happening.Brings, Device.Run.keys_wellFormed_or_given, Device.Happens.stepless_key_prompted
-/
import TezosSigner.Proofs.Commands
import TezosSigner.Proofs.Play
import TezosSigner.Proofs.Resumption

namespace TezosSigner

/-!
A key that is read off the wire, or out of the record, has steps; but a key can be built without
any, and a command that is given to the signer directly may hold such a key.  The signer checks
it where a key is bound or a baking key is used, and nowhere else.  So every key that it calls on
the platform with is followed back to the input that brought it.  One that came as an APDU is
well formed; only one that was given otherwise may have no steps.
-/

/-- A key with at least one step and no more than ten. -/
def KeyPath.WellFormed (key : KeyPath) : Prop :=
  1 ≤ key.path.length ∧ key.path.length ≤ maxDepth

theorem KeyPath.wellFormed_iff {key : KeyPath} : key.WellFormed ↔ key.path ≠ [] := by
  rw [WellFormed, ← List.length_pos_iff]
  exact and_iff_left key.depth_le

/-- The key that a call is made with. -/
def Call.key? : Call → Option KeyPath
  | .sign key _ => some key
  | .publicKey key => some key
  | .parse key _ _ => some key
  | .store _ => none

/-- The key that a command names. -/
def Command.key? : Command → Option KeyPath
  | .signFirst _ key _ => some key
  | .getPublicKey key => some key
  | .authorizeBaking key => some key
  | _ => Option.none

/-- A key that was read off the wire is well formed. -/
theorem Command.wellFormed_of_ofApdu {apdu : Apdu} {command : Command} {key : KeyPath}
    (read : ofApdu apdu = .ok command) (named : command.key? = some key) : key.WellFormed := by
  rw [KeyPath.wellFormed_iff]
  cases reads_of_ofApdu read with
  | signFirst _ _ _ _ decoded =>
    cases named
    exact path_of_decodeKey decoded
  | getPublicKey _ _ decoded =>
    cases named
    exact path_of_decodeKey decoded
  | authorizeBaking _ decoded =>
    cases named
    exact path_of_decodeKey decoded
  | _ => cases named

/-!
## Calls of a step
-/

/-- What lets a signer make a call: its key is that of the command, of the session under way, or
of the session that waits for the operator; and a state is stored only with a key that has
steps. -/
inductive Signer.Warrants (signer : Signer) (record : Record) (input : Input) : Call → Prop where
  | publicKey {command : Command} {key : KeyPath} (read : input.command? = some command)
      (named : command.key? = some key) : Warrants signer record input (.publicKey key)
  | parse {session : Session} {data : Bytes} {allowed : List OperationTag}
      (held : signer.session = some session) :
      Warrants signer record input (.parse session.key data allowed)
  | vouched {session : Session} {message : Bytes} (held : signer.session = some session)
      (authorized : (BakingState.decode record).authorizes session.key = true) :
      Warrants signer record input (.sign session.key message)
  | consented {prompt : Prompt} {session : Session} {message : Bytes}
      (waits : signer.pending = some { prompt := prompt, action := .sign session }) :
      Warrants signer record input (.sign session.key message)
  | store {state : BakingState} (steps : ∀ key, state.key = some key → key.path ≠ []) :
      Warrants signer record input (.store state.encode)

/-- Signing a session makes no call but one for its key. -/
theorem Session.Signs.call {session : Session} {exchanges : List Exchange}
    {outcome : Except SignerError Answer} (signs : session.Signs exchanges outcome) :
    ∀ exchange ∈ exchanges, ∃ message, exchange.call = .sign session.key message := by
  intro exchange member
  cases signs with
  | unfinished _ _ => cases member
  | hashOnly _ _ _ => cases member
  | failed _ => exact ⟨_, by rw [List.mem_singleton.1 member]⟩
  | unfit _ _ => exact ⟨_, by rw [List.mem_singleton.1 member]⟩
  | signed _ _ => exact ⟨_, by rw [List.mem_singleton.1 member]⟩

/-- Classifying a session makes no call but one for its key. -/
theorem Mode.Classifies.call {mode : Mode} {session read : Session} {data : Bytes}
    {exchanges : List Exchange} (classifies : mode.Classifies session data exchanges read) :
    ∀ exchange ∈ exchanges, ∃ allowed, exchange.call = .parse session.key data allowed := by
  intro exchange member
  cases classifies with
  | operations _ _ _ _ => exact ⟨_, by rw [List.mem_singleton.1 member]⟩
  | _ => cases member

/-- A session that takes a packet keeps its key. -/
theorem Session.Takes.key {mode : Mode} {session taken : Session} {control : PacketControl}
    {data : Bytes} {exchanges : List Exchange}
    (takes : session.Takes mode control data exchanges taken) : taken.key = session.key := by
  obtain ⟨read, classifies, appending⟩ := takes.understood
  obtain ⟨magic, parsed, rfl⟩ := Session.exists_of_classifies classifies
  obtain ⟨message, rfl, _⟩ := Session.append_ok appending
  rfl

/-- A state with a key of the record has stored a key with steps. -/
theorem BakingState.steps_of_decode (record : Record) (mark : Mark) :
    ∀ key, ({ BakingState.decode record with mark := mark } : BakingState).key = some key →
      key.path ≠ [] :=
  fun _ bound => BakingState.key_decode_path bound

namespace Signer

variable {signer : Signer} {record : Record} {input : Input} {exchanges : List Exchange}

private theorem completes_warrants {mode : Mode} {session : Session}
    {outcome : Except SignerError Completion} {held : Session}
    (holds : signer.session = some held) (sameKey : session.key = held.key)
    (completes : (mode.complete (BakingState.decode record) session).Yields exchanges outcome) :
    ∀ exchange ∈ exchanges, signer.Warrants record input exchange.call := by
  have signing {payload : BakingPayload} {made : List Exchange}
      {answered : Except SignerError Answer}
      (vouched : (BakingState.decode record).Vouches session payload)
      (signs : session.Signs made answered) :
      ∀ exchange ∈ made, signer.Warrants record input exchange.call := by
    intro exchange member
    obtain ⟨message, same⟩ := signs.call exchange member
    have authorized := vouched.authorized
    rw [same, sameKey]
    rw [sameKey] at authorized
    exact .vouched holds authorized
  cases mode with
  | wallet =>
    obtain ⟨rfl, _⟩ := Act.yields_ofExcept_iff.1 completes
    simp
  | baking =>
    cases Mode.completeForBaking_yields completes with
    | refused => simp
    | asks _ _ _ _ => simp
    | unsigned vouched signs => exact signing vouched signs
    | unrecorded vouched signs =>
      intro exchange member
      rcases List.mem_append.1 member with earlier | last
      · exact signing vouched signs exchange earlier
      · rw [List.mem_singleton.1 last]
        exact .store (BakingState.steps_of_decode record _)
    | baked vouched signs =>
      intro exchange member
      rcases List.mem_append.1 member with earlier | last
      · exact signing vouched signs exchange earlier
      · rw [List.mem_singleton.1 last]
        exact .store (BakingState.steps_of_decode record _)

private theorem takesPacket_warrants {instruction : Instruction} {control : PacketControl}
    {data : Bytes} {outcome : Except SignerError (Answer × Signer)}
    (takes : signer.TakesPacket (BakingState.decode record) instruction control data exchanges
      outcome) :
    ∀ exchange ∈ exchanges, signer.Warrants record input exchange.call := by
  have reading {session read : Session} {kind : PacketKind} {made : List Exchange}
      (held : signer.session = some session)
      (classifies : signer.config.mode.Classifies (session.counted kind) data made read) :
      ∀ exchange ∈ made, signer.Warrants record input exchange.call := by
    intro exchange member
    obtain ⟨allowed, same⟩ := classifies.call exchange member
    have warranted : signer.Warrants record input (.parse session.key data allowed) :=
      .parse held
    rw [same]
    exact warranted
  cases takes with
  | refused => simp
  | overflowed continues classifies => exact reading continues.held classifies
  | collected continues takes _ _ =>
    obtain ⟨_, classifies, _⟩ := takes.understood
    exact reading continues.held classifies
  | finished continues takes _ completes =>
    obtain ⟨_, classifies, _⟩ := takes.understood
    intro exchange member
    rcases List.mem_append.1 member with earlier | later
    · exact reading continues.held classifies exchange earlier
    · have sameKey := takes.key
      rw [← Session.key_finish] at sameKey
      exact completes_warrants continues.held sameKey completes exchange later

private theorem performs_warrants {command : Command}
    {outcome : Except SignerError (Answer × Signer)} (read : input.command? = some command)
    (performs : signer.Performs (BakingState.decode record) command exchanges outcome) :
    ∀ exchange ∈ exchanges, signer.Warrants record input exchange.call := by
  have fetching {key : KeyPath} {reply : Except SignerError KeyReply}
      (named : command.key? = some key) :
      ∀ exchange ∈ [(⟨.publicKey key, reply⟩ : Exchange)],
        signer.Warrants record input exchange.call := by
    intro exchange member
    rw [List.mem_singleton.1 member]
    exact .publicKey read named
  cases performs with
  | signNext takes => exact takesPacket_warrants takes
  | keyRefused asks => rcases asks with rfl | rfl <;> exact fetching rfl
  | exporting _ _ => exact fetching rfl
  | exported _ _ => exact fetching rfl
  | authorizing _ _ => exact fetching rfl
  | _ => simp

private theorem action_warrants {pending : Pending} {outcome : Except SignerError Answer}
    (waits : signer.pending = some pending)
    (performs : Action.Performs (BakingState.decode record) pending.action exchanges outcome) :
    ∀ exchange ∈ exchanges, signer.Warrants record input exchange.call := by
  obtain ⟨prompt, action⟩ := pending
  intro exchange member
  cases performs with
  | sign signs =>
    obtain ⟨message, same⟩ := signs.call exchange member
    rw [same]
    exact .consented waits
  | authorize steps =>
    rw [List.mem_singleton.1 member]
    refine .store fun key bound => ?_
    cases bound
    exact steps
  | reset _ =>
    rw [List.mem_singleton.1 member]
    exact .store (BakingState.steps_of_decode record _)
  | _ => cases member

/-- Every call of a step is warranted. -/
theorem Steps.warrants {next : Signer} {answer : Option (Except SignerError Answer)}
    (steps : signer.Steps record input exchanges answer next) :
    ∀ exchange ∈ exchanges, signer.Warrants record input exchange.call := by
  cases steps with
  | obeyed read performs => exact performs_warrants read performs
  | refused read performs => exact performs_warrants read performs
  | confirmed waits performs => exact action_warrants waits performs
  | unconfirmed waits performs => exact action_warrants waits performs
  | _ => simp

end Signer

/-!
## Keys of a run
-/

/-- A happening whose input was given as a command, not as an APDU, and names this key. -/
def Happening.Gives (happening : Happening) (key : KeyPath) : Prop :=
  ∃ command, happening.input = .command command ∧ command.key? = some key

/-- A key that is well formed, or that a command in the history was given with. -/
def KeyPath.Accounted (key : KeyPath) (history : List Happening) : Prop :=
  key.WellFormed ∨ ∃ happening ∈ history, happening.Gives key

theorem Happening.accounted {happening : Happening} {command : Command} {key : KeyPath}
    {history : List Happening} (member : happening ∈ history)
    (brought : happening.command? = some command) (named : command.key? = some key) :
    key.Accounted history := by
  cases came : happening.input with
  | apdu received =>
    cases readEq : Command.ofApdu received with
    | error error =>
      rw [command?, came, Input.command?, readEq] at brought
      cases brought
    | ok read =>
      rw [command?, came, Input.command?, readEq] at brought
      cases brought
      exact .inl (Command.wellFormed_of_ofApdu readEq named)
  | command given =>
    rw [command?, came] at brought
    cases brought
    exact .inr ⟨happening, member, _, came, named⟩
  | _ =>
    rw [command?, came] at brought
    cases brought

theorem KeyPath.Accounted.concat {key : KeyPath} {history : List Happening}
    (accounted : key.Accounted history) (happening : Happening) :
    key.Accounted (history ++ [happening]) := by
  rcases accounted with wellFormed | ⟨earlier, member, gives⟩
  · exact .inl wellFormed
  · exact .inr ⟨earlier, List.mem_append_left _ member, gives⟩

theorem Happening.command?_of_accepted? {happening : Happening} {command : Command}
    (accepted : happening.accepted? = some command) : happening.command? = some command := by
  unfold accepted? at accepted
  split at accepted
  · exact accepted
  · cases accepted

/-- The key of a signing request was brought by the packet that opened it. -/
theorem Submits.accounted {mode : Mode} {history : List Happening} {request : SigningRequest}
    (submits : Submits mode history request) : request.key.Accounted history := by
  obtain ⟨earlier, opening, later, rfl, ⟨control, accepted⟩, _⟩ := submits
  exact Happening.accounted (by simp) (Happening.command?_of_accepted? accepted) rfl

/-- An APDU that asks for a key, or opens a signing request for one, but whose key has no
steps. -/
structure Apdu.NamesNoSteps (apdu : Apdu) : Prop where
  stepless : apdu.payload.head? = some 0
  asks : ∃ instruction, Instruction.ofCode? apdu.instruction = some instruction ∧
    (instruction = .getPublicKey ∨ instruction = .authorizeBaking ∨
      instruction.isSigning = true ∧
        ∃ control, PacketControl.decode apdu.control = .ok control ∧ control.kind = .first)

theorem Apdu.NamesNoSteps.unread {apdu : Apdu} (stepless : apdu.NamesNoSteps) :
    ∃ error, Command.ofApdu apdu = .error error := by
  have undecoded {key : KeyPath} : Command.decodeKey apdu.payload ≠ .ok key := by
    intro decoded
    obtain ⟨rest, payload⟩ := List.head?_eq_some_iff.1 stepless.stepless
    rw [payload] at decoded
    have refused : KeyPath.decode (0 :: rest) = .error .invalidLength := by
      cases rest <;> rfl
    rw [Command.decodeKey, refused] at decoded
    cases decoded
  cases readEq : Command.ofApdu apdu with
  | error error => exact ⟨error, rfl⟩
  | ok command =>
    obtain ⟨instruction, code, asks⟩ := stepless.asks
    -- Every other command has another instruction, or a packet of another kind.
    cases Command.reads_of_ofApdu readEq with
    | signFirst _ _ _ _ decoded => exact absurd decoded undecoded
    | getPublicKey _ _ decoded => exact absurd decoded undecoded
    | authorizeBaking _ decoded => exact absurd decoded undecoded
    | signNext code' signing decoded data =>
      cases code.symm.trans code'
      rcases asks with rfl | rfl | ⟨_, control, decoded', first⟩
      · cases signing
      · cases signing
      · cases decoded.symm.trans decoded'
        exact absurd first data
    | resetHighWaterMark code' _ =>
      cases code.symm.trans code'
      simp [Instruction.isSigning] at asks
    | queryAuthKey code' =>
      cases code.symm.trans code'
      simp [Instruction.isSigning] at asks
    | queryHighWaterMark code' =>
      cases code.symm.trans code'
      simp [Instruction.isSigning] at asks

namespace Device

variable {device next : Device} {happening : Happening} {config : Config} {record : Record}
  {history : List Happening}

theorem Happens.warrants (happens : Happens device happening next) :
    ∀ exchange ∈ happening.exchanges,
      device.signer.Warrants device.record happening.input exchange.call := by
  obtain ⟨⟨rest, answer, after, steps⟩, _⟩ := happens.completes
  intro exchange member
  exact steps.warrants exchange (List.mem_append_left rest member)

/-- A session that is under way after a run, or that waits for the operator, is for a key that
was brought in that run. -/
theorem Run.session_accounted (run : Run (.boot config record) history device) {session : Session}
    (held : device.signer.session = some session ∨ ∃ prompt,
      device.signer.pending = some { prompt := prompt, action := .sign session }) :
    session.key.Accounted history := by
  obtain ⟨_, reflects⟩ := run.reflects
  rcases held with held | ⟨prompt, waits⟩
  · obtain ⟨request, same, _, carries, _⟩ := reflects.received held
    rw [carries.key]
    exact (run.submits request (by rw [same]; rfl)).accounted
  · obtain ⟨request, unfinished, same, rfl, carries, _, _⟩ := reflects.consented waits
    rw [Session.key_finish, carries.key]
    exact (run.submits request (by rw [same]; rfl)).accounted

/-- A baking device signs under the authorized key, and that has steps. -/
theorem Run.signs_wellFormed (run : Run (.boot config record) history device)
    (happens : Happens device happening next) (baking : config.mode = .baking)
    {key : KeyPath} {message : Bytes} {reply : Except SignerError SignReply}
    (member : ⟨.sign key message, reply⟩ ∈ happening.exchanges) : key.WellFormed := by
  obtain ⟨sameConfig, reflects⟩ := run.reflects
  have authorized : (BakingState.decode device.record).authorizes key = true := by
    have warrants : device.signer.Warrants device.record happening.input (.sign key message) :=
      happens.warrants _ member
    cases warrants with
    | vouched held authorized => exact authorized
    | consented waits =>
      obtain ⟨_, _, _, _, _, _, shown⟩ := reflects.consented waits
      rw [sameConfig, baking] at shown
      obtain ⟨_, _, _, authorized, _, _⟩ := shown
      exact authorized
  exact KeyPath.wellFormed_iff.2 (BakingState.authorizes_iff.1 authorized).2

/-- Every key that a device calls on its platform with is well formed, or was given to it
without steps by a command that did not come as an APDU; a baking device signs under no other
key even then.  Every record that it stores holds a well-formed key or none.  And an APDU that
names a key without steps is refused before any call and before the operator is asked. -/
theorem Run.keys_wellFormed_or_given (run : Run (.boot config record) history device)
    (happens : Happens device happening next) :
    (∀ exchange ∈ happening.exchanges, ∀ key, exchange.call.key? = some key →
      key.Accounted (history ++ [happening])) ∧
    (config.mode = .baking → ∀ key message reply,
      ⟨.sign key message, reply⟩ ∈ happening.exchanges → key.WellFormed) ∧
    (∀ stored reply, ⟨.store stored, reply⟩ ∈ happening.exchanges →
      ∃ state : BakingState, stored = state.encode ∧
        ∀ key, state.key = some key → key.WellFormed) ∧
    ∀ received, happening.input = .apdu received → received.NamesNoSteps →
      happening.exchanges = [] ∧ next.signer.session = none ∧ next.signer.pending = none ∧
        ∀ answer, happening.answer = some answer → ∃ error, answer = .error error := by
  refine ⟨?_, fun baking key message reply member => run.signs_wellFormed happens baking member,
    ?_, ?_⟩
  · intro exchange member key named
    have warrants := happens.warrants exchange member
    generalize exchange.call = made at named warrants
    cases warrants with
    | publicKey read same =>
      cases named
      exact Happening.accounted (by simp) read same
    | parse held =>
      cases named
      exact (run.session_accounted (.inl held)).concat happening
    | vouched held _ =>
      cases named
      exact (run.session_accounted (.inl held)).concat happening
    | consented waits =>
      cases named
      exact (run.session_accounted (.inr ⟨_, waits⟩)).concat happening
    | store _ => cases named
  · intro stored reply member
    have warrants : device.signer.Warrants device.record happening.input (.store stored) :=
      happens.warrants _ member
    cases warrants with
    | store steps =>
      exact ⟨_, rfl, fun key bound => KeyPath.wellFormed_iff.2 (steps key bound)⟩
  · intro received came stepless
    obtain ⟨error, unread⟩ := stepless.unread
    obtain ⟨signer, stored⟩ := device
    cases happens with
    | step yields =>
      cases came
      simp only [Signer.step, Signer.handleApdu, unread] at yields
      obtain ⟨rfl, same⟩ := Dialog.yields_done_iff.1 yields
      cases same
      exact ⟨rfl, rfl, rfl, fun answer given => ⟨error, (Option.some.inj given).symm⟩⟩
    | powerCut begins =>
      cases came
      simp only [Signer.step, Signer.handleApdu, unread] at begins
      cases begins
      exact ⟨rfl, rfl, rfl, fun answer given => by cases given⟩

/-- The key of the first block of a baker is well formed, and so is that of the record. -/
theorem Run.first_block_key_wellFormed :
    ∃ history device happening next,
      Run (.boot { mode := .baking } newBaker.encode) history device ∧
      Happens device happening next ∧
      ⟨.sign bakingKey (Blake2b.hash (blockHeader mainChain 1 0)).toList, .ok signedReply⟩ ∈
        happening.exchanges ∧
      bakingKey.Accounted (history ++ [happening]) ∧ bakingKey.WellFormed ∧
      ∃ state : BakingState,
        { newBaker with mark := { level := 1, endorsement := false } }.encode = state.encode ∧
        ∀ key, state.key = some key → key.WellFormed := by
  obtain ⟨device, opens, happens⟩ := run_pair_iff.1 Run.bakes_first
  have keys := (Run.single opens).keys_wellFormed_or_given happens
  exact ⟨_, device, _, _, .single opens, happens, .head _,
    keys.1 _ (.head _) _ rfl, keys.2.1 rfl _ _ _ (.head _), keys.2.2.1 _ _ (.tail _ (.head _))⟩

/-- A key without steps. -/
def steplessKey : KeyPath :=
  { curve := .ed25519, path := [], depth_le := Nat.zero_le _ }

/-- A wallet that is given a command for it calls for its public key, and asks the operator. -/
theorem Happens.stepless_key_prompted :
    ∃ next, Happens (.boot { mode := .wallet } newBaker.encode)
        (.step (.command (.getPublicKey steplessKey))
          [⟨.publicKey steplessKey, .ok bakingKeyReply⟩] (some (.ok .pending))) next ∧
      ¬ steplessKey.WellFormed ∧
      next.signer.pending = some
        { prompt := Prompt.providePublicKey (List.replicate 33 0x02)
          action := .exportKey (List.replicate 33 0x02) } := by
  have fetched : Signer.Fetched bakingKeyReply (List.replicate 33 0x02) := ⟨by decide, by decide⟩
  have prompts : ((Signer.boot { mode := .wallet }).perform (BakingState.decode newBaker.encode)
      (.getPublicKey steplessKey)).Yields [⟨.publicKey steplessKey, .ok bakingKeyReply⟩]
      (.ok ((Signer.boot { mode := .wallet }).suspend
        { prompt := Prompt.providePublicKey (List.replicate 33 0x02)
          action := .exportKey (List.replicate 33 0x02) })) :=
    Act.yields_bind_pure_iff.2 ⟨_, Signer.fetchPublicKey_fetches fetched, rfl⟩
  refine ⟨_, .step (Signer.step_command_yields prompts), ?_, rfl⟩
  rintro ⟨steps, _⟩
  cases steps

end Device

end TezosSigner
