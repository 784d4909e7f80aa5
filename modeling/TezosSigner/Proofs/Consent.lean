/-
Module: TezosSigner.Proofs.Consent
Purpose: A wallet signs what the operator was shown, and has it read at most once.
Main exports: SigningRequest.UnderstoodAs, SigningRequest.ShownAs, Device.Run.signature_consented
-/
import TezosSigner.Proofs.SinglePacket

namespace TezosSigner

/-!
The operator sees what was understood of the first data packet; the signature is made from
the bytes of all of them, which went through the hash one block at a time.  The two belong
together because an operation counts as understood only while the first packet is all there
is, and because the prompt, the hash and the key wait together for the operator.
-/

namespace SigningRequest

/-- A request that is shown by its operation: a single data packet, of the kind that holds
operations, from which the platform read a group that there is a prompt for. -/
def UnderstoodAs (request : SigningRequest) (prompt : Prompt) : Prop :=
  ∃ packet group, request.packets = [packet] ∧ packet.data.head? = some 0x03 ∧
    packet.exchanges =
      [⟨.parse request.key packet.data Mode.wallet.acceptedTags, some group⟩] ∧
    Prompt.operation? group = some prompt

/-- A request that is shown by its hash: one of the kinds that a wallet signs, but not
understood. -/
def ShownByHash (request : SigningRequest) (prompt : Prompt) : Prop :=
  (∀ shown, ¬ request.UnderstoodAs shown) ∧ prompt = Prompt.rawHash (Blake2b.hash request.message)

/-- What a wallet shows of a request before it signs `message` for it. -/
structure ShownAs (request : SigningRequest) (pending : Pending) (message : Bytes) : Prop where
  complete : request.IsComplete
  atMost : request.packets.length ≤ 255
  raw : request.instruction = .signUnsafe →
    message = request.message ∧ pending.prompt = Prompt.preHashed ∧
      pending.message? = some message
  hashed : request.instruction ≠ .signUnsafe →
    message = (Blake2b.hash request.message).toList ∧
      (∃ first rest, request.packets = first :: rest ∧
        (first.data.head? = some 0x03 ∨ first.data.head? = some 0x04 ∨
          first.data.head? = some 0x05)) ∧
      (request.UnderstoodAs pending.prompt ∨ request.ShownByHash pending.prompt)

theorem IsComplete.packets_ne_nil {request : SigningRequest} (complete : request.IsComplete) :
    request.packets ≠ [] := by
  obtain ⟨front, final, split, _⟩ := complete
  simp [split]

end SigningRequest

namespace Session

variable {session : Session} {request : SigningRequest} {state : BakingState}

/-- A session of a wallet knows its first data packet by its kind. -/
theorem Understands.first {packets : List DataPacket}
    (understands : session.Understands .wallet packets) (some : packets ≠ []) :
    ∃ first rest, packets = first :: rest ∧ session.magic = Magic.ofPayload first.data ∧
      session.magic.isAllowed .wallet = true := by
  match packets with
  | [] => exact absurd rfl some
  | [first] => exact ⟨first, [], rfl, understands.1, understands.2.1⟩
  | first :: second :: rest => exact ⟨first, second :: rest, rfl, understands.1, understands.2.1⟩

/-- An operation is understood exactly if it came in a single packet and was read. -/
theorem Carries.understoodAs_iff (carries : session.Carries .wallet request)
    (hashing : session.isHashing = true) {prompt : Prompt} :
    request.UnderstoodAs prompt ↔
      ∃ group, session.magic = .unsafeOp ∧ session.parsed = .operations group ∧
        Prompt.operation? group = some prompt := by
  have understands := carries.understands hashing
  constructor
  · rintro ⟨packet, group, single, leading, made, template⟩
    rw [single] at understands
    obtain ⟨kind, _, ⟨_, none, _⟩ | ⟨_, reply, read, parsed⟩⟩ := understands
    · rw [none] at made
      cases made
    · rw [made, carries.key] at read
      cases read
      exact ⟨group, kind.trans (Magic.ofPayload_eq_unsafeOp_iff.2 leading), parsed, template⟩
  · rintro ⟨group, kind, parsed, template⟩
    match known : request.packets with
    | [] =>
      rw [known] at understands
      rw [understands.2] at parsed
      cases parsed
    | [packet] =>
      rw [known] at understands
      have made := understands.exchanges parsed
      rw [carries.key] at made
      have magic : Magic.ofPayload packet.data = .unsafeOp := understands.1.symm.trans kind
      have leading : packet.data.head? = some 0x03 := by
        rw [Magic.head?_of_ofPayload (by simp [magic]), magic]
        rfl
      exact ⟨packet, group, known, leading, made, template⟩
    | first :: second :: rest =>
      rw [known] at understands
      rw [understands.2.2] at parsed
      cases parsed

/-- What a wallet shows of a finished session belongs to the request that the session
carries. -/
theorem Carries.shownAs {prompt : Prompt} {message : Bytes}
    (carries : session.Carries .wallet request) (complete : request.IsComplete)
    (shown : session.finish.Shows .wallet state prompt)
    (asked : session.finish.toSign? = some message) :
    request.ShownAs { prompt := prompt, action := .sign session.finish } message := by
  have counted : request.packets.length ≤ 255 := by
    have bound := session.packets.toNat_lt
    rw [← carries.count]
    omega
  refine ⟨complete, counted, ?_, ?_⟩
  · intro rawSigning
    have raw : session.isHashing = false := by
      rw [← Bool.not_eq_true, carries.isHashing_iff_ne]
      simp [rawSigning]
    have signed := carries.eq_of_raw raw asked
    rcases shown with ⟨_, same⟩ | ⟨_, hashing, _⟩
    · refine ⟨signed, same, ?_⟩
      have held : session.message.pending = request.message := by
        rw [carries.raw raw]
      simp [Pending.message?, finish_of_raw raw, raw, held, signed]
    · rw [isHashing_finish, raw] at hashing
      cases hashing
  · intro hashedSigning
    have hashing := carries.isHashing_iff_ne.2 hashedSigning
    have finished := carries.finalHash_finish hashing
    obtain ⟨first, rest, split, kind, allowed⟩ :=
      (carries.understands hashing).first complete.packets_ne_nil
    rw [kind] at allowed
    refine ⟨carries.eq_of_hashing hashing asked,
      ⟨first, rest, split, Magic.isAllowed_wallet_iff.1 allowed⟩, ?_⟩
    rcases shown with ⟨raw, _⟩ | ⟨hash, _, same, chosen⟩
    · rw [isHashing_finish, hashing] at raw
      cases raw
    · rw [finished] at same
      have sameHash : hash = Blake2b.hash request.message := (Option.some.inj same).symm
      subst sameHash
      rcases Mode.walletPrompt_ok chosen with ⟨group, magic, parsed, template⟩ | ⟨none, byHash⟩
      · rw [magic_finish] at magic
        rw [parsed_finish] at parsed
        exact .inl ((carries.understoodAs_iff hashing).2 ⟨group, magic, parsed, template⟩)
      · refine .inr ⟨?_, byHash⟩
        intro other understood
        obtain ⟨group, magic, parsed, template⟩ :=
          (carries.understoodAs_iff hashing).1 understood
        have untold := none group (magic_finish.trans magic) (parsed_finish.trans parsed)
        rw [untold] at template
        cases template

end Session

/-!
## What the platform is asked to read

A wallet has the platform read operations when it classifies a data packet, and at no other
time.  It does so for the first data packet only, so at most once for each request.
-/

namespace Signer

variable {signer next : Signer} {state : BakingState} {record : Record} {command : Command}
  {instruction : Instruction} {control : PacketControl} {key : KeyPath} {data : Bytes}
  {allowed : List OperationTag} {reply : Option OperationGroup} {exchanges : List Exchange}

/-- The exchanges that a wallet makes for a data packet are those of its classification. -/
theorem TakesPacket.classifies {outcome : Except SignerError (Answer × Signer)}
    (takes : signer.TakesPacket state instruction control data exchanges outcome)
    (wallet : signer.config.mode = .wallet) (made : exchanges ≠ []) :
    ∃ session read, signer.Continues instruction control session ∧
      Mode.wallet.Classifies (session.counted control.kind) data exchanges read := by
  cases takes with
  | refused => exact absurd rfl made
  | overflowed continues classifies =>
    rw [wallet] at classifies
    exact ⟨_, _, continues, classifies⟩
  | collected continues takes _ _ =>
    obtain ⟨read, classifies, _⟩ := takes.understood
    rw [wallet] at classifies
    exact ⟨_, read, continues, classifies⟩
  | finished continues takes _ completes =>
    obtain ⟨read, classifies, _⟩ := takes.understood
    rw [wallet] at classifies completes
    obtain ⟨rfl, _⟩ := Act.yields_ofExcept_iff.1 completes
    rw [List.append_nil]
    exact ⟨_, read, continues, classifies⟩

/-- The data packet that a wallet has read, and the session that it belongs to. -/
def Reads (signer : Signer) (input : Input) (call : Call) (exchanges : List Exchange) : Prop :=
  ∃ instruction control data session, input.command? = some (.signNext instruction control data) ∧
    signer.Continues instruction control session ∧ session.isHashing = true ∧
    session.packets.toNat = 0 ∧ call = .parse session.key data Mode.wallet.acceptedTags ∧
    ∃ reply, exchanges = [⟨.parse session.key data Mode.wallet.acceptedTags, reply⟩]

theorem Performs.reads {input : Input} {outcome : Except SignerError (Answer × Signer)}
    (performs : signer.Performs state command exchanges outcome)
    (wallet : signer.config.mode = .wallet) (read : input.command? = some command)
    (member : ⟨.parse key data allowed, reply⟩ ∈ exchanges) :
    signer.Reads input (.parse key data allowed) exchanges := by
  cases performs with
  | signNext takes =>
    obtain ⟨session, _, continues, classifies⟩ :=
      takes.classifies wallet (List.ne_nil_of_mem member)
    cases classifies with
    | operations hashing first _ _ =>
      have isFirst := (Session.packets_counted_eq_one_iff session _).1 first
      cases List.mem_singleton.1 member
      exact ⟨_, _, _, session, read, continues, hashing, isFirst, rfl, _, rfl⟩
    | _ => cases member
  | keyRefused _ => cases List.mem_singleton.1 member
  | exporting _ _ => cases List.mem_singleton.1 member
  | exported _ _ => cases List.mem_singleton.1 member
  | authorizing _ _ => cases List.mem_singleton.1 member
  | _ => cases member

end Signer

/-- A confirmed action has nothing read. -/
theorem Action.Performs.reads_nothing {state : BakingState} {action : Action}
    {key : KeyPath} {data : Bytes} {allowed : List OperationTag} {reply : Option OperationGroup}
    {exchanges : List Exchange} {outcome : Except SignerError Answer}
    (performs : action.Performs state exchanges outcome) :
    (⟨.parse key data allowed, reply⟩ : Exchange) ∉ exchanges := by
  intro member
  cases performs with
  | sign signs =>
    cases signs with
    | failed _ => cases List.mem_singleton.1 member
    | unfit _ _ => cases List.mem_singleton.1 member
    | signed _ _ => cases List.mem_singleton.1 member
    | _ => cases member
  | authorize _ => cases List.mem_singleton.1 member
  | reset _ => cases List.mem_singleton.1 member
  | _ => cases member

/-- Whatever a wallet has read is a data packet that it takes. -/
theorem Signer.Steps.reads {signer next : Signer} {record : Record} {input : Input}
    {key : KeyPath} {data : Bytes} {allowed : List OperationTag} {reply : Option OperationGroup}
    {exchanges : List Exchange} {answer : Option (Except SignerError Answer)}
    (steps : signer.Steps record input exchanges answer next)
    (wallet : signer.config.mode = .wallet)
    (member : ⟨.parse key data allowed, reply⟩ ∈ exchanges) :
    signer.Reads input (.parse key data allowed) exchanges := by
  cases steps with
  | obeyed read performs => exact performs.reads wallet read member
  | refused read performs => exact performs.reads wallet read member
  | confirmed _ performs => exact absurd member performs.reads_nothing
  | unconfirmed _ performs => exact absurd member performs.reads_nothing
  | _ => cases member

/-- A happening that has the platform read the first data packet of the request that a
history ends with, and does nothing else; nor was anything else asked of the platform since
the request was opened. -/
def Happening.ReadsFirst (happening : Happening) (history : List Happening) (key : KeyPath)
    (data : Bytes) : Prop :=
  ∃ instruction control, instruction ≠ .signUnsafe ∧
    happening.command? = some (.signNext instruction control data) ∧
    (∃ reply, happening.exchanges = [⟨.parse key data Mode.wallet.acceptedTags, reply⟩]) ∧
    ∃ earlier opening later, history = earlier ++ opening :: later ∧
      opening.Opens instruction key ∧ Gathers .wallet instruction later [] ∧
      ∀ past ∈ opening :: later, past.exchanges = []

namespace Device

variable {first last device next : Device} {history : List Happening} {happening : Happening}

/-- Opening a request and idling ask nothing of the platform. -/
theorem Happens.silent {command : Command} (happens : Happens device happening next)
    (accepted : happening.accepted? = some command)
    (idle : Mode.wallet.Idle command ∨ ∃ instruction key control,
      command = .signFirst instruction key control) : happening.exchanges = [] := by
  rcases idle with idle | ⟨instruction, key, control, rfl⟩
  · obtain ⟨_, input, answer, rfl, _⟩ := happens.eq_of_idle accepted idle
    rfl
  · obtain ⟨answer, _, performs⟩ := happens.performs accepted
    generalize happening.exchanges = exchanges at performs
    generalize Except.ok (answer, next.signer) = outcome at performs
    cases performs with
    | keyRefused asks => rcases asks with impossible | impossible <;> cases impossible
    | _ => rfl

theorem Run.silent {instruction : Instruction} {later : List Happening}
    (run : Run first later last) (gathers : Gathers .wallet instruction later []) :
    ∀ past ∈ later, past.exchanges = [] := by
  -- A history that gathers no packet is made of idle commands.
  generalize none : ([] : List DataPacket) = packets at gathers
  induction gathers generalizing first with
  | nil =>
    intro past impossible
    cases impossible
  | idle accepted idle _ ih =>
    intro past member
    cases run with
    | cons happens rest =>
      rcases List.mem_cons.1 member with rfl | member
      · exact happens.silent accepted (.inl idle)
      · exact ih rest none past member
  | packet _ _ => cases none

/-- What a wallet signs, it signs because the operator confirms what they were shown. -/
theorem Reflects.shownAs {progress : Progress} {key : KeyPath} {message : Bytes}
    (reflects : device.Reflects progress) (wallet : device.signer.config.mode = .wallet)
    (occasion : device.signer.Occasion device.record happening.input key message) :
    happening.input = .confirm ∧ ∃ request pending, progress = .signing request ∧
      request.key = key ∧ device.signer.pending = some pending ∧
      request.ShownAs pending message := by
  cases occasion with
  | vouched baking =>
    rw [wallet] at baking
    cases baking
  | consented confirms waits sameKey asked =>
    obtain ⟨request, unfinished, rfl, rfl, carries, complete, shown⟩ := reflects.consented waits
    rw [wallet] at carries shown
    rw [Session.key_finish, carries.key] at sameKey
    exact ⟨confirms, request, _, rfl, sameKey, waits, carries.shownAs complete shown asked⟩

/-- What a wallet has read is the first data packet of the request under way. -/
theorem Reflects.readsFirst {progress : Progress} {call : Call}
    (reflects : device.Reflects progress)
    (reads : device.signer.Reads happening.input call happening.exchanges) :
    ∃ instruction key control data, instruction ≠ .signUnsafe ∧
      progress = .receiving { instruction := instruction, key := key, packets := [] } ∧
      happening.command? = some (.signNext instruction control data) ∧
      call = .parse key data Mode.wallet.acceptedTags ∧
      ∃ reply, happening.exchanges = [⟨.parse key data Mode.wallet.acceptedTags, reply⟩] := by
  obtain ⟨instruction, control, data, session, read, continues, hashing, isFirst, rfl, made⟩ :=
    reads
  obtain ⟨request, rfl, _, carries, _⟩ := reflects.received continues.held
  have hashed := carries.isHashing_iff_ne.1 hashing
  have same : request.instruction = instruction :=
    carries.instruction.symm.trans continues.same
  have count := carries.count
  rw [isFirst] at count
  have none : request.packets = [] := List.length_eq_zero_iff.1 count.symm
  rw [carries.key] at made ⊢
  obtain ⟨opened, key, packets⟩ := request
  subst same
  cases none
  exact ⟨opened, key, control, data, hashed, rfl, read, rfl, made⟩

theorem Happens.reads {key : KeyPath} {data : Bytes} {allowed : List OperationTag}
    {reply : Option OperationGroup} (happens : Happens device happening next)
    (wallet : device.signer.config.mode = .wallet)
    (member : ⟨.parse key data allowed, reply⟩ ∈ happening.exchanges) :
    device.signer.Reads happening.input (.parse key data allowed) happening.exchanges := by
  obtain ⟨⟨rest, answer, after, steps⟩, _⟩ := happens.completes
  obtain ⟨instruction, control, data', session, read, continues, hashing, isFirst, same, reply',
    made⟩ := steps.reads wallet (List.mem_append_left rest member)
  refine ⟨instruction, control, data', session, read, continues, hashing, isFirst, same, reply', ?_⟩
  rcases List.append_eq_singleton_iff.1 made with ⟨none, _⟩ | ⟨only, _⟩
  · rw [none] at member
    cases member
  · exact only

/-- Whenever a wallet calls for a signature, the operator confirms a request that they were
shown, and the signature is on that request under its key.  Whenever it has an operation
read, it is the first data packet of a hashed request, and it is read once. -/
theorem Run.signature_consented {config : Config} {record : Record}
    (run : Run (.boot config record) history device) (happens : Happens device happening next)
    (wallet : config.mode = .wallet) :
    (∀ key message reply, ⟨.sign key message, reply⟩ ∈ happening.exchanges →
      happening.input = .confirm ∧ ∃ request pending, Submits .wallet history request ∧
        request.key = key ∧ device.signer.pending = some pending ∧
        request.ShownAs pending message) ∧
    ∀ key data allowed reply, ⟨.parse key data allowed, reply⟩ ∈ happening.exchanges →
      happening.ReadsFirst history key data := by
  obtain ⟨sameConfig, reflects⟩ := run.reflects
  have submitted := run.submits
  rw [wallet] at submitted
  have sameMode : device.signer.config.mode = .wallet := by rw [sameConfig, wallet]
  constructor
  · intro key message reply member
    obtain ⟨before, after, split⟩ := List.append_of_mem member
    obtain ⟨_, occasion⟩ := happens.occasion split
    obtain ⟨confirms, request, pending, same, sameKey, waits, shown⟩ :=
      reflects.shownAs sameMode occasion
    have submits := submitted request (by rw [same]; rfl)
    exact ⟨confirms, request, pending, submits, sameKey, waits, shown⟩
  · intro key data allowed reply member
    have reads := happens.reads sameMode member
    obtain ⟨instruction, _, control, _, hashed, same, came, sameCall, made⟩ :=
      reflects.readsFirst reads
    cases sameCall
    have submits := submitted { instruction := instruction, key := key, packets := [] }
      (by rw [same]; rfl)
    obtain ⟨earlier, opening, later, rfl, opens, gathers⟩ := submits
    obtain ⟨_, _, since⟩ := run_append_iff.1 run
    refine ⟨instruction, control, hashed, came, made, earlier, opening, later, rfl, opens, gathers,
      ?_⟩
    intro past since'
    cases since with
    | cons opened rest =>
      rcases List.mem_cons.1 since' with rfl | later
      · obtain ⟨first, accepted⟩ := opens
        exact opened.silent accepted (.inr ⟨instruction, key, first, rfl⟩)
      · exact rest.silent gathers past later

/-- A transfer that the platform reads is shown by its fields, and signed once confirmed. -/
theorem Run.transfer_consented :
    ∃ history device next happening,
      Run (.boot { mode := .wallet } newBaker.encode) history device ∧
      Happens device happening next ∧
      ⟨.sign bakingKey (Blake2b.hash transferBytes).toList, .ok signedReply⟩ ∈
        happening.exchanges ∧
      happening.input = .confirm ∧ ∃ request pending, Submits .wallet history request ∧
        request.key = bakingKey ∧ device.signer.pending = some pending ∧
        request.ShownAs pending (Blake2b.hash transferBytes).toList := by
  obtain ⟨_, next, run, happens⟩ := Run.signs_transfer
  have consented := (run.signature_consented happens rfl).1 _ _ _ (List.mem_singleton.2 rfl)
  exact ⟨_, _, next, _, run, happens, List.mem_singleton.2 rfl, consented⟩

end Device

end TezosSigner
