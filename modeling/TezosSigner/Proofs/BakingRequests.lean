/-
Module: TezosSigner.Proofs.BakingRequests
Purpose: The complete decision table of a baking device for requests of a single data packet.
Main exports:
  BakingState.Passes, SignReply.Answers, BakingState.Decides, Signer.perform_opening_iff,
  Device.run_opening_iff, Device.Run.baking_request_decided
-/
import TezosSigner.Proofs.SinglePacket

namespace TezosSigner

/-!
What a baking device makes of a request depends on the leading byte of its one data packet,
on the baking state, and on the replies of the platform.  `BakingState.Decides` is the table:
a row for every way that a request can go, with the calls that are made, in their order, and
the outcome.  A run of the two packets is possible exactly if the table has a row for it, so
the table rules out a signature that should not be given and a refusal that should not be.
-/

/-- A block or an endorsement that a baking state lets a key sign without the operator. -/
structure BakingState.Passes (state : BakingState) (key : KeyPath) (data : Bytes)
    (payload : BakingPayload) : Prop where
  bound : state.key = some key
  holds : BakingPayload.ofBytes? data = some payload
  /-- The level is below 2^30. -/
  valid : payload.mark.level < 0x40000000
  /-- The levels are compared first, and an endorsement comes after the block. -/
  beyond : state.mark.level < payload.mark.level ∨
    state.mark.level = payload.mark.level ∧
      state.mark.endorsement = false ∧ payload.mark.endorsement = true

/-- What a request is answered, by the reply to the one call that has its hash signed. -/
inductive SignReply.Answers (instruction : Instruction) (key : KeyPath) (data : Bytes) :
    Except SignerError SignReply → Except SignerError Answer → Prop where
  | failed {error : SignerError} : Answers instruction key data (.error error) (.error error)
  | unfit {reply : SignReply} (unfit : reply.length = 0 ∨ maxSignature < reply.length) :
      Answers instruction key data (.ok reply) (.error .memoryError)
  | signed {reply : SignReply} (fits : 0 < reply.length ∧ reply.length ≤ maxSignature) :
      Answers instruction key data (.ok reply) (.ok (.signature
        (if instruction = .signWithHash then some (Blake2b.hash data) else none)
        (reply.signature key.curve)))

/-- What becomes of a request over a baking state, by the exchanges that are made for it. -/
inductive BakingState.Decides (state : BakingState) (instruction : Instruction) (key : KeyPath)
    (data : Bytes) : List Exchange → Except SignerError Completion → Prop where
  /-- A baking device does not know the kind. -/
  | unknown (kind : data.head? ≠ some 0x01 ∧ data.head? ≠ some 0x02 ∧ data.head? ≠ some 0x03) :
      Decides state instruction key data [] (.error .parseError)
  /-- A block or an endorsement does not pass. -/
  | stopped (kind : data.head? = some 0x01 ∨ data.head? = some 0x02)
      (stopped : ∀ payload, ¬ state.Passes key data payload) :
      Decides state instruction key data [] (.error .securityError)
  /-- It passes, but the platform does not sign it. -/
  | unsigned {payload : BakingPayload} {reply : Except SignerError SignReply}
      {error : SignerError} (passes : state.Passes key data payload)
      (answers : SignReply.Answers instruction key data reply (.error error)) :
      Decides state instruction key data
        [⟨.sign key (Blake2b.hash data).toList, reply⟩] (.error error)
  /-- It is signed, and answered once the mark is stored. -/
  | signed {payload : BakingPayload} {reply : Except SignerError SignReply} {answer : Answer}
      {stored : Except SignerError Unit} (passes : state.Passes key data payload)
      (answers : SignReply.Answers instruction key data reply (.ok answer)) :
      Decides state instruction key data
        [⟨.sign key (Blake2b.hash data).toList, reply⟩,
          ⟨.store { state with mark := payload.mark }.encode, stored⟩]
        (stored.map fun _ => .answered answer)
  /-- The platform does not read an operation. -/
  | unread (kind : data.head? = some 0x03) :
      Decides state instruction key data
        [⟨.parse key data Mode.baking.acceptedTags, none⟩] (.error .parseError)
  /-- It reads one that is not the delegation of the authorized key to itself. -/
  | foreign {group : OperationGroup} (kind : data.head? = some 0x03)
      (foreign : ¬ (state.key = some key ∧ group.isSelfDelegation = true)) :
      Decides state instruction key data
        [⟨.parse key data Mode.baking.acceptedTags, some group⟩] (.error .securityError)
  /-- It reads the one that the operator is asked about. -/
  | asks {group : OperationGroup} (kind : data.head? = some 0x03) (bound : state.key = some key)
      (selfDelegation : group.isSelfDelegation = true) :
      Decides state instruction key data
        [⟨.parse key data Mode.baking.acceptedTags, some group⟩]
        (.ok (.awaits
          { prompt := Prompt.registerDelegate group
            action := .sign (Session.taken instruction key data (.operations group)).finish }))

/-- The row of a payload that passes and that the platform signs, by what becomes of the
store. -/
theorem BakingState.Passes.decides {state : BakingState} {instruction : Instruction}
    {key : KeyPath} {data : Bytes} {payload : BakingPayload}
    {reply : Except SignerError SignReply} {answer : Answer}
    (passes : state.Passes key data payload)
    (answers : SignReply.Answers instruction key data reply (.ok answer))
    (stored : Except SignerError Unit) :
    state.Decides instruction key data
      [⟨.sign key (Blake2b.hash data).toList, reply⟩,
        ⟨.store { state with mark := payload.mark }.encode, stored⟩]
      (stored.map fun _ => .answered answer) :=
  .signed passes answers

namespace Session

variable {instruction : Instruction} {key : KeyPath} {data : Bytes} {parsed : Parsed}
  {exchanges : List Exchange} {answered : Except SignerError Answer}

theorem signatureOf_taken (reply : SignReply) :
    (taken instruction key data parsed).finish.signatureOf reply =
      if 0 < reply.length ∧ reply.length ≤ maxSignature then .ok (reply.signature key.curve)
      else .error .memoryError := by
  rw [signatureOf, key_finish]
  rfl

/-- A request is signed by one call, and answered by the signature if it fits its room. -/
theorem sign_taken_iff (hashed : instruction = .sign ∨ instruction = .signWithHash) :
    (taken instruction key data parsed).finish.sign.Yields exchanges answered ↔
      ∃ reply, exchanges = [⟨.sign key (Blake2b.hash data).toList, reply⟩] ∧
        SignReply.Answers instruction key data reply answered := by
  have hashing : (opened instruction key).isHashing = true := isHashing_opened hashed
  rw [sign_yields_iff (toSign?_taken hashing), key_finish, sentHash?_taken hashing]
  refine exists_congr fun reply => and_congr_right fun _ => ?_
  cases reply with
  | error error =>
    constructor
    · rintro rfl
      exact .failed
    · rintro ⟨⟩
      rfl
  | ok reply =>
    simp only [Except.bind, signatureOf_taken]
    by_cases fits : 0 < reply.length ∧ reply.length ≤ maxSignature
    · simp only [if_pos fits, Except.map]
      constructor
      · rintro rfl
        exact .signed fits
      · rintro (_ | unfit | _)
        · omega
        · rfl
    · simp only [if_neg fits, Except.map]
      constructor
      · rintro rfl
        exact .unfit (by omega)
      · rintro (_ | _ | fits')
        · rfl
        · exact absurd fits' fits

end Session

namespace Mode

variable {state : BakingState} {session : Session}

/-- An operation waits for the operator, if it is the delegation of the authorized key to
itself. -/
theorem completeForBaking_operation_eq {reply : Option OperationGroup}
    (kind : session.magic = .unsafeOp) (parsed : session.parsed = Parsed.ofReply reply) :
    completeForBaking state session =
      Act.ofExcept (match reply with
        | none => .error .parseError
        | some group =>
          if state.authorizes session.key = true ∧ group.isSelfDelegation = true then
            .ok (.awaits { prompt := Prompt.registerDelegate group, action := .sign session })
          else .error .securityError) := by
  rw [completeForBaking, if_neg (by rw [kind]; decide), kind, parsed]
  cases reply with
  | none => rfl
  | some group =>
    simp only [Parsed.ofReply, BakingState.guardSelfDelegation, Bool.and_eq_true]
    split <;> rfl

end Mode

namespace BakingState

variable {state : BakingState} {instruction : Instruction} {key : KeyPath} {data : Bytes}
  {payload : BakingPayload} {exchanges : List Exchange}
  {outcome : Except SignerError Completion}

/-- A key that has no steps is never authorized, but no record can hold one either. -/
theorem authorizes_iff_bound (steps : ∀ bound, state.key = some bound → bound.path ≠ []) :
    state.authorizes key = true ↔ state.key = some key :=
  authorizes_iff.trans (and_iff_left_of_imp (steps key))

/-- The state vouches for the session of a request exactly if the request passes. -/
theorem vouches_taken_iff (steps : ∀ bound, state.key = some bound → bound.path ≠ [])
    (kind : (Magic.ofPayload data).isBaking = true) :
    state.Vouches (Session.taken instruction key data (Parsed.ofPayload data)).finish payload ↔
      state.Passes key data payload := by
  constructor
  · rintro ⟨_, parsed, authorized, permitted⟩
    rw [Session.parsed_finish] at parsed
    rw [Session.key_finish] at authorized
    obtain ⟨valid, beyond⟩ := permits_iff.1 permitted
    exact
      { bound := (authorizes_iff_bound steps).1 authorized
        holds := Parsed.ofPayload_eq_baking_iff.1 parsed
        valid := decide_eq_true_iff.1 valid
        beyond := beyond }
  · rintro ⟨bound, holds, valid, beyond⟩
    exact
      { kind := by rw [Session.magic_finish]; exact kind
        parsed := by rw [Session.parsed_finish]; exact Parsed.ofPayload_eq_baking_iff.2 holds
        authorized := by rw [Session.key_finish]; exact (authorizes_iff_bound steps).2 bound
        permitted := permits_iff.2 ⟨decide_eq_true_iff.2 valid, beyond⟩ }

theorem Passes.kind (passes : state.Passes key data payload) :
    data.head? = some 0x01 ∨ data.head? = some 0x02 :=
  Magic.isBaking_ofPayload_iff.1 (Magic.isBaking_of_ofBytes? passes.holds)

/-- The kinds of requests are told apart by the leading byte. -/
theorem not_operation_of_payload (leading : data.head? = some 0x01 ∨ data.head? = some 0x02) :
    data.head? ≠ some 0x03 := by
  intro operation
  rw [operation] at leading
  revert leading
  decide

/-- The rows for what passes: it is signed, and then the mark is stored. -/
theorem decides_passing_iff (hashed : instruction = .sign ∨ instruction = .signWithHash)
    (passes : state.Passes key data payload) :
    (do
      let answer ← (Session.taken instruction key data (Parsed.ofPayload data)).finish.sign
      Act.store { state with mark := payload.mark }.encode
      pure (Completion.answered answer) : Act Completion).Yields exchanges outcome ↔
      state.Decides instruction key data exchanges outcome := by
  have leading := passes.kind
  have notOperation := not_operation_of_payload leading
  rw [Act.yields_bind_iff]
  constructor
  · rintro (⟨error, rfl, signing⟩ | ⟨_, _, answer, rfl, signing, more⟩)
    · obtain ⟨reply, rfl, answers⟩ := (Session.sign_taken_iff hashed).1 signing
      exact .unsigned passes answers
    · obtain ⟨reply, rfl, answers⟩ := (Session.sign_taken_iff hashed).1 signing
      obtain ⟨stored, storing, rfl⟩ := Act.yields_bind_pure_iff.1 more
      obtain ⟨_, rfl, rfl⟩ := Act.yields_store_iff.1 storing
      exact .signed passes answers
  · intro decides
    cases decides with
    | unknown other => tauto
    | stopped _ stopped => exact absurd passes (stopped payload)
    | unsigned _ answers =>
      exact .inl ⟨_, rfl, (Session.sign_taken_iff hashed).2 ⟨_, rfl, answers⟩⟩
    | signed passes' answers =>
      have same := Option.some.inj (passes.holds.symm.trans passes'.holds)
      subst same
      refine .inr ⟨[_], [_], _, rfl, (Session.sign_taken_iff hashed).2 ⟨_, rfl, answers⟩, ?_⟩
      exact Act.yields_bind_pure_iff.2 ⟨_, Act.yields_store_iff.2 ⟨_, rfl, rfl⟩, rfl⟩
    | unread operation => exact absurd operation notOperation
    | foreign operation _ => exact absurd operation notOperation
    | asks operation _ _ => exact absurd operation notOperation

/-- The row for what does not pass. -/
theorem decides_stopped_iff (leading : data.head? = some 0x01 ∨ data.head? = some 0x02)
    (stopped : ∀ payload, ¬ state.Passes key data payload) :
    state.Decides instruction key data exchanges outcome ↔
      exchanges = [] ∧ outcome = .error .securityError := by
  have notOperation := not_operation_of_payload leading
  constructor
  · intro decides
    cases decides with
    | unknown other => tauto
    | stopped _ _ => exact ⟨rfl, rfl⟩
    | unsigned passes _ => exact absurd passes (stopped _)
    | signed passes _ => exact absurd passes (stopped _)
    | unread operation => exact absurd operation notOperation
    | foreign operation _ => exact absurd operation notOperation
    | asks operation _ _ => exact absurd operation notOperation
  · rintro ⟨rfl, rfl⟩
    exact .stopped leading stopped

/-- The rows of the table for blocks and endorsements. -/
theorem decides_payload_iff (hashed : instruction = .sign ∨ instruction = .signWithHash)
    (steps : ∀ bound, state.key = some bound → bound.path ≠ [])
    (kind : (Magic.ofPayload data).isBaking = true) :
    (Mode.completeForBaking state
        (Session.taken instruction key data (Parsed.ofPayload data)).finish).Yields
          exchanges outcome ↔
      state.Decides instruction key data exchanges outcome := by
  by_cases passing : ∃ payload, state.Passes key data payload
  · obtain ⟨payload, passes⟩ := passing
    rw [Mode.completeForBaking_eq ((vouches_taken_iff steps kind).2 passes)]
    exact decides_passing_iff hashed passes
  · rw [not_exists] at passing
    have sameKind : (Session.taken instruction key data
        (Parsed.ofPayload data)).finish.magic.isBaking = true := by
      rw [Session.magic_finish]
      exact kind
    have stopped := Mode.completeForBaking_stopped sameKind fun payload =>
      (vouches_taken_iff steps kind).not.2 (passing payload)
    rw [stopped, Act.yields_throw_iff,
      decides_stopped_iff (Magic.isBaking_ofPayload_iff.1 kind) passing]

/-- The rows of the table for operations. -/
theorem decides_operation_iff (steps : ∀ bound, state.key = some bound → bound.path ≠ [])
    (kind : Magic.ofPayload data = .unsafeOp) :
    (do
      let parsed ← Mode.baking.readOperations
        { Session.opened instruction key with packets := 1 } data
      Mode.completeForBaking state (Session.taken instruction key data parsed).finish :
        Act Completion).Yields exchanges outcome ↔
      state.Decides instruction key data exchanges outcome := by
  have operation := Magic.ofPayload_eq_unsafeOp_iff.1 kind
  have notPayload : ¬ (data.head? = some 0x01 ∨ data.head? = some 0x02) :=
    fun leading => not_operation_of_payload leading operation
  have completed (reply : Option OperationGroup) :=
    @Mode.completeForBaking_operation_eq state
      (Session.taken instruction key data (Parsed.ofReply reply)).finish reply
      (by rw [Session.magic_finish]; exact kind) (by rw [Session.parsed_finish]; rfl)
  rw [Mode.readOperations_eq, bind_assoc, Act.parse, Act.yields_call_bind_iff]
  simp only [pure_bind, completed, Session.key_finish]
  constructor
  · rintro ⟨reply, rest, rfl, more⟩
    obtain ⟨rfl, rfl⟩ := Act.yields_ofExcept_iff.1 more
    cases reply with
    | none => exact .unread operation
    | some group =>
      dsimp only
      split
      · rename_i delegation
        exact .asks operation ((authorizes_iff_bound steps).1 delegation.1) delegation.2
      · rename_i foreign
        rw [authorizes_iff_bound steps] at foreign
        exact .foreign operation foreign
  · intro decides
    cases decides with
    | unknown other => exact absurd operation other.2.2
    | stopped leading _ => exact absurd leading notPayload
    | unsigned passes _ => exact absurd passes.kind notPayload
    | signed passes _ => exact absurd passes.kind notPayload
    | unread _ => exact ⟨none, [], rfl, Act.yields_ofExcept_iff.2 ⟨rfl, rfl⟩⟩
    | foreign _ foreign =>
      rw [← authorizes_iff_bound steps] at foreign
      exact ⟨some _, [], rfl, Act.yields_ofExcept_iff.2 ⟨rfl, (if_neg foreign).symm⟩⟩
    | asks _ bound selfDelegation =>
      have delegation := And.intro ((authorizes_iff_bound steps).2 bound) selfDelegation
      exact ⟨some _, [], rfl, Act.yields_ofExcept_iff.2 ⟨rfl, (if_pos delegation).symm⟩⟩

/-- The row of the table for everything else. -/
theorem decides_unknown_iff (kind : (Magic.ofPayload data).isAllowed .baking = false) :
    state.Decides instruction key data exchanges outcome ↔
      exchanges = [] ∧ outcome = .error .parseError := by
  have known := (@Magic.isAllowed_baking_iff (Magic.ofPayload data)).not.1 (by simp [kind])
  rw [Magic.isBaking_ofPayload_iff, Magic.ofPayload_eq_unsafeOp_iff] at known
  constructor
  · intro decides
    cases decides with
    | unknown _ => exact ⟨rfl, rfl⟩
    | stopped leading _ => tauto
    | unsigned passes _ =>
      have leading := passes.kind
      tauto
    | signed passes _ =>
      have leading := passes.kind
      tauto
    | unread operation => tauto
    | foreign operation _ => tauto
    | asks operation _ _ => tauto
  · rintro ⟨rfl, rfl⟩
    exact .unknown (by tauto)

end BakingState

namespace Signer

variable {signer : Signer} {state : BakingState} {instruction : Instruction} {key : KeyPath}
  {data : Bytes} {exchanges : List Exchange} {result : Except SignerError (Answer × Signer)}

/-- What the signer was doing before a request was opened makes no difference to where the
request leaves it. -/
theorem settled_opening (outcome : Except SignerError Completion) :
    (signer.opening instruction key).settled
        (outcome.map (signer.opening instruction key).concluded) =
      signer.settled (outcome.map signer.discard.concluded) := by
  cases outcome with
  | error error => rfl
  | ok completion => cases completion <;> rfl

/-- Taking the single data packet of a request goes as the table says. -/
theorem perform_opening_iff (baking : signer.config.mode = .baking)
    (hashed : instruction = .sign ∨ instruction = .signWithHash)
    (room : data.length ≤ MessageBuffer.capacity)
    (steps : ∀ bound, state.key = some bound → bound.path ≠ []) :
    ((signer.opening instruction key).perform state
        (.signNext instruction { kind := .next, last := true } data)).Yields exchanges result ↔
      ∃ outcome, state.Decides instruction key data exchanges outcome ∧
        result = outcome.map (signer.opening instruction key).concluded := by
  have opened : (Session.opened instruction key).isHashing = true :=
    Session.isHashing_opened hashed
  have hashing : (Session.isHashing { Session.opened instruction key with packets := 1 }) = true :=
    opened
  cases allowed : (Magic.ofPayload data).isAllowed .baking with
  | false =>
    have refused : (signer.opening instruction key).perform state
        (.signNext instruction { kind := .next, last := true } data) = throw .parseError := by
      rw [perform_opening_eq hashed, baking, Mode.classify_unknown_eq hashing allowed]
      rfl
    simp only [refused, BakingState.decides_unknown_iff allowed, Act.yields_throw_iff]
    constructor
    · rintro ⟨rfl, rfl⟩
      exact ⟨_, ⟨rfl, rfl⟩, rfl⟩
    · rintro ⟨_, ⟨rfl, rfl⟩, rfl⟩
      exact ⟨rfl, rfl⟩
  | true =>
    rcases Magic.isAllowed_baking_iff.1 allowed with kind | kind
    · have classified := Mode.classify_payload_eq hashing kind
      rw [perform_opening_of_classified (pure (Parsed.ofPayload data)) hashed room
        (by rw [baking]; exact classified), Act.yields_bind_pure_iff, baking, pure_bind]
      exact exists_congr fun outcome =>
        and_congr_left fun _ => BakingState.decides_payload_iff hashed steps kind
    · have classified := Mode.classify_operations_eq hashing kind
      rw [perform_opening_of_classified _ hashed room (by rw [baking]; exact classified),
        Act.yields_bind_pure_iff, baking]
      exact exists_congr fun outcome =>
        and_congr_left fun _ => BakingState.decides_operation_iff steps kind

end Signer

namespace Device

variable {signer : Signer} {record : Record} {instruction : Instruction} {key : KeyPath}
  {data : Bytes} {opening packet : Input} {made exchanges : List Exchange}
  {opened answer : Option (Except SignerError Answer)} {last : Device}

/-- A request can be opened at any time, without a call. -/
theorem happens_opening_iff {control : PacketControl}
    (hashed : instruction = .sign ∨ instruction = .signWithHash)
    (first : opening.command? = some (.signFirst instruction key control))
    (more : control.last = false) :
    Happens { signer := signer, record := record } (.step opening made opened) last ↔
      made = [] ∧ opened = some (.ok .none) ∧
        last = { signer := signer.opening instruction key, record := record } := by
  rw [happens_command_iff first, Signer.perform_signFirst_eq hashed more]
  constructor
  · rintro ⟨_, performs, rfl, rfl⟩
    obtain ⟨rfl, rfl⟩ := Act.yields_pure_iff.1 performs
    exact ⟨rfl, rfl, rfl⟩
  · rintro ⟨rfl, rfl, rfl⟩
    exact ⟨_, Act.yields_pure_iff.2 ⟨rfl, rfl⟩, rfl, rfl⟩

/-- The two packets of a request go as the table says, and in no other way. -/
theorem run_opening_iff {control : PacketControl} (baking : signer.config.mode = .baking)
    (hashed : instruction = .sign ∨ instruction = .signWithHash)
    (room : data.length ≤ MessageBuffer.capacity)
    (first : opening.command? = some (.signFirst instruction key control))
    (more : control.last = false)
    (second : packet.command? =
      some (.signNext instruction { kind := .next, last := true } data)) :
    Run { signer := signer, record := record }
        [.step opening made opened, .step packet exchanges answer] last ↔
      made = [] ∧ opened = some (.ok .none) ∧
        ∃ outcome, (BakingState.decode record).Decides instruction key data exchanges outcome ∧
          answer = some (signer.settled (outcome.map signer.discard.concluded)).1 ∧
          last = {
            signer := (signer.settled (outcome.map signer.discard.concluded)).2
            record := record.after exchanges } := by
  have steps (bound : KeyPath) (same : (BakingState.decode record).key = some bound) :
      bound.path ≠ [] := BakingState.key_decode_path same
  rw [run_pair_iff]
  constructor
  · rintro ⟨middle, opens, takes⟩
    obtain ⟨rfl, rfl, rfl⟩ := (happens_opening_iff hashed first more).1 opens
    obtain ⟨_, performs, rfl, rfl⟩ := (happens_command_iff second).1 takes
    obtain ⟨outcome, decides, rfl⟩ :=
      (Signer.perform_opening_iff baking hashed room steps).1 performs
    rw [Signer.settled_opening]
    exact ⟨rfl, rfl, outcome, decides, rfl, rfl⟩
  · rintro ⟨rfl, rfl, outcome, decides, rfl, rfl⟩
    refine ⟨_, (happens_opening_iff hashed first more).2 ⟨rfl, rfl, rfl⟩, ?_⟩
    rw [← Signer.settled_opening]
    exact (happens_command_iff second).2 ⟨_,
      (Signer.perform_opening_iff baking hashed room steps).2 ⟨outcome, decides, rfl⟩, rfl, rfl⟩

/-- Whatever a baking device was doing and whatever its record holds, a request for a hashed
signature whose single data packet is marked as the last goes as the table says, and in no
other way: with these calls, this answer, this signer and this record.  Whatever the platform
replies, there is such a run.  Every packet off the wire has room. -/
theorem Run.baking_request_decided {control : PacketControl}
    (baking : signer.config.mode = .baking)
    (hashed : instruction = .sign ∨ instruction = .signWithHash)
    (room : data.length ≤ MessageBuffer.capacity)
    (first : opening.command? = some (.signFirst instruction key control))
    (more : control.last = false)
    (second : packet.command? =
      some (.signNext instruction { kind := .next, last := true } data)) :
    (∀ made opened exchanges answer last,
      Run { signer := signer, record := record }
          [.step opening made opened, .step packet exchanges answer] last ↔
        made = [] ∧ opened = some (.ok .none) ∧
          ∃ outcome, (BakingState.decode record).Decides instruction key data exchanges outcome ∧
            answer = some (signer.settled (outcome.map signer.discard.concluded)).1 ∧
            last = {
              signer := (signer.settled (outcome.map signer.discard.concluded)).2
              record := record.after exchanges }) ∧
      ∀ platform : (call : Call) → call.Reply, ∃ exchanges answer last,
        Run { signer := signer, record := record }
          [.step opening [] (some (.ok .none)), .step packet exchanges answer] last ∧
        ∀ exchange ∈ exchanges, exchange.reply = platform exchange.call := by
  refine ⟨fun _ _ _ _ _ => run_opening_iff baking hashed room first more second, ?_⟩
  intro platform
  obtain ⟨exchanges, answer, last, takes, replied⟩ := exists_happens platform
    { signer := signer.opening instruction key, record := record } packet
  refine ⟨exchanges, answer, last, run_pair_iff.2 ⟨_, ?_, takes⟩, replied⟩
  exact (happens_opening_iff hashed first more).2 ⟨rfl, rfl, rfl⟩

/-- The two packets that ask for the first block of a chain, as they arrive. -/
def openingPacket : Apdu :=
  { commandClass := commandClass
    instruction := Instruction.sign.code
    control := PacketControl.encode { kind := .first, last := false }
    payload := bakingKey.layout }

def blockPacket : Apdu :=
  { commandClass := commandClass
    instruction := Instruction.sign.code
    control := PacketControl.encode { kind := .next, last := true }
    payload := blockHeader mainChain 1 0 }

theorem openingPacket_reads : (Input.apdu openingPacket).command? =
    some (.signFirst .sign bakingKey { kind := .first, last := false }) :=
  rfl

theorem blockPacket_reads : (Input.apdu blockPacket).command? =
    some (.signNext .sign { kind := .next, last := true } (blockHeader mainChain 1 0)) :=
  rfl

theorem decode_encode_newBaker : BakingState.decode newBaker.encode = newBaker :=
  BakingState.decode_encode_of_bound rfl (by decide : bakingKey.path ≠ [])

theorem newBaker_passes : newBaker.Passes bakingKey (blockHeader mainChain 1 0)
    { chain := mainChain, mark := { level := 1, endorsement := false } } :=
  { bound := rfl
    holds := ofBytes?_blockHeader mainChain 1 0
    valid := by decide
    beyond := .inl (by decide) }

/-- The row of the table for the first block, by what becomes of the store. -/
theorem newBaker_decides (stored : Except SignerError Unit) :
    newBaker.Decides .sign bakingKey (blockHeader mainChain 1 0)
      [⟨.sign bakingKey (Blake2b.hash (blockHeader mainChain 1 0)).toList, .ok signedReply⟩,
        ⟨.store { newBaker with mark := { level := 1, endorsement := false } }.encode, stored⟩]
      (stored.map fun _ => .answered (.signature none (signedReply.signature .ed25519))) := by
  have signed : SignReply.Answers .sign bakingKey (blockHeader mainChain 1 0) (.ok signedReply)
      (.ok (.signature none (signedReply.signature .ed25519))) :=
    .signed (by decide)
  -- Elaborated on its own: against the goal, unification would compute the hash.
  have row := newBaker_passes.decides signed stored
  exact row

/-- A new baker that is asked for its first block signs it, and has moved its mark before it
answers. -/
theorem Run.first_block_decided :
    Run (.boot { mode := .baking } newBaker.encode)
      [.step (.apdu openingPacket) [] (some (.ok .none)),
        .step (.apdu blockPacket)
          [⟨.sign bakingKey (Blake2b.hash (blockHeader mainChain 1 0)).toList, .ok signedReply⟩,
            ⟨.store { newBaker with mark := { level := 1, endorsement := false } }.encode,
              .ok ()⟩]
          (some (.ok (.signature none (signedReply.signature .ed25519))))]
      { signer := { Signer.boot { mode := .baking } with status := .complete }
        record := { newBaker with mark := { level := 1, endorsement := false } }.encode } := by
  have decides := newBaker_decides (.ok ())
  rw [← decode_encode_newBaker] at decides
  have baking : (Signer.boot { mode := .baking }).config.mode = .baking := rfl
  have hashed : Instruction.sign = .sign ∨ Instruction.sign = .signWithHash := .inl rfl
  have run := ((Run.baking_request_decided baking hashed (blockHeader_fits mainChain 1 0)
    openingPacket_reads rfl blockPacket_reads).1 _ _ _ _ _).2 ⟨rfl, rfl, _, decides, rfl, rfl⟩
  rw [decode_encode_newBaker] at run
  exact run

end Device

end TezosSigner
