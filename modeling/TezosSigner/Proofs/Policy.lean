/-
Module: TezosSigner.Proofs.Policy
Purpose: The ways in which a data packet is classified and a finished session is completed.
Main exports:
  Parsed.ofPayload, Parsed.ofReply, Mode.Classifies, Mode.classify_yields, BakingState.Vouches,
  Mode.CompletesForBaking, Mode.completeForBaking_eq, Mode.completeForBaking_stopped,
  Mode.completeForBaking_yields, Mode.completeForWallet_ok
-/
import TezosSigner.Proofs.Signing
import TezosSigner.Signer.Policy

namespace TezosSigner

/-- What a block or an endorsement is understood as. -/
def Parsed.ofPayload (data : Bytes) : Parsed :=
  match BakingPayload.ofBytes? data with
  | some payload => .baking payload
  | none => .invalid

/-- What an operation is understood as, by what the platform has read. -/
def Parsed.ofReply : Option OperationGroup → Parsed
  | some group => .operations group
  | none => .invalid

theorem Parsed.ofPayload_eq_baking_iff {data : Bytes} {payload : BakingPayload} :
    ofPayload data = .baking payload ↔ BakingPayload.ofBytes? data = some payload := by
  unfold ofPayload
  cases BakingPayload.ofBytes? data <;> simp

theorem Parsed.ofPayload_ne_operations {data : Bytes} {group : OperationGroup} :
    ofPayload data ≠ .operations group := by
  unfold ofPayload
  cases BakingPayload.ofBytes? data <;> simp

theorem Parsed.ofReply_eq_operations_iff {reply : Option OperationGroup}
    {group : OperationGroup} : ofReply reply = .operations group ↔ reply = some group := by
  cases reply <;> simp [ofReply]

theorem Parsed.ofReply_ne_baking {reply : Option OperationGroup} {payload : BakingPayload} :
    ofReply reply ≠ .baking payload := by
  cases reply <;> simp [ofReply]

/-- The leading byte of the payloads of a kind. -/
def Magic.leading? : Magic → Option UInt8
  | .invalid => none
  | .block => some 0x01
  | .endorsement => some 0x02
  | .unsafeOp => some 0x03
  | .unsafeOp2 => some 0x04
  | .unsafeOp3 => some 0x05

theorem Magic.head?_of_ofPayload {data : Bytes} (known : ofPayload data ≠ .invalid) :
    data.head? = (ofPayload data).leading? := by
  unfold ofPayload at known ⊢
  split at known
  · rfl
  · rfl
  · rfl
  · rfl
  · rfl
  · exact absurd rfl known

/-- A payload of a known kind is one with the leading byte of that kind. -/
theorem Magic.ofPayload_eq_iff {data : Bytes} {magic : Magic} (known : magic ≠ .invalid) :
    ofPayload data = magic ↔ data.head? = magic.leading? := by
  constructor
  · rintro rfl
    exact head?_of_ofPayload known
  · intro leading
    cases data with
    | nil =>
      cases magic with
      | invalid => exact absurd rfl known
      | _ => cases leading
    | cons byte rest =>
      cases magic with
      | invalid => exact absurd rfl known
      | _ =>
        cases leading
        rfl

/-- The kind of a payload is told by its leading byte alone. -/
theorem Magic.ofPayload_congr {data other : Bytes} (leading : other.head? = data.head?) :
    ofPayload other = ofPayload data := by
  by_cases known : ofPayload data = .invalid
  · by_cases unknown : ofPayload other = .invalid
    · rw [known, unknown]
    · exact ((ofPayload_eq_iff unknown).2 (leading.symm.trans (head?_of_ofPayload unknown))).symm
  · exact (ofPayload_eq_iff known).2 (leading.trans (head?_of_ofPayload known))

theorem Magic.ofPayload_eq_unsafeOp_iff {data : Bytes} :
    ofPayload data = .unsafeOp ↔ data.head? = some 0x03 :=
  ofPayload_eq_iff (by decide)

theorem Magic.isBaking_ofPayload_iff {data : Bytes} :
    (ofPayload data).isBaking = true ↔ data.head? = some 0x01 ∨ data.head? = some 0x02 := by
  have block : ofPayload data = .block ↔ data.head? = some 0x01 := ofPayload_eq_iff (by decide)
  have endorsement : ofPayload data = .endorsement ↔ data.head? = some 0x02 :=
    ofPayload_eq_iff (by decide)
  rw [← block, ← endorsement]
  cases ofPayload data <;> decide

theorem Magic.isBaking_of_isAllowed_wallet {magic : Magic}
    (allowed : magic.isAllowed .wallet = true) : magic.isBaking = false := by
  revert allowed
  cases magic <;> decide

theorem Magic.isAllowed_of_isBaking {magic : Magic} (baking : magic.isBaking = true) :
    magic.isAllowed .baking = true := by
  revert baking
  cases magic <;> decide

/-- A baking device takes blocks, endorsements and operations of the first kind. -/
theorem Magic.isAllowed_baking_iff {magic : Magic} :
    magic.isAllowed .baking = true ↔ magic.isBaking = true ∨ magic = .unsafeOp := by
  cases magic <;> decide

/-- A wallet takes operations of each kind, which it knows by their leading byte. -/
theorem Magic.isAllowed_wallet_iff {data : Bytes} :
    (ofPayload data).isAllowed .wallet = true ↔
      data.head? = some 0x03 ∨ data.head? = some 0x04 ∨ data.head? = some 0x05 := by
  have first : ofPayload data = .unsafeOp ↔ data.head? = some 0x03 := ofPayload_eq_iff (by decide)
  have second : ofPayload data = .unsafeOp2 ↔ data.head? = some 0x04 := ofPayload_eq_iff (by decide)
  have third : ofPayload data = .unsafeOp3 ↔ data.head? = some 0x05 := ofPayload_eq_iff (by decide)
  rw [← first, ← second, ← third]
  cases ofPayload data <;> decide

/-- Only a block or an endorsement carries a level. -/
theorem Magic.isBaking_of_ofBytes? {data : Bytes} {payload : BakingPayload}
    (holds : BakingPayload.ofBytes? data = some payload) :
    (ofPayload data).isBaking = true := by
  unfold BakingPayload.ofBytes? at holds
  split at holds
  · rename_i block
    rw [block]
    rfl
  · rename_i endorsement
    rw [endorsement]
    rfl
  · cases holds

namespace Mode

/-- The ways in which a session that has counted a data packet is classified by it. -/
inductive Classifies (mode : Mode) (session : Session) (data : Bytes) :
    List Exchange → Session → Prop where
  | raw (raw : session.isHashing = false) : mode.Classifies session data [] session
  | later (hashing : session.isHashing = true) (wallet : mode = .wallet)
      (later : session.packets ≠ 1) : mode.Classifies session data [] session.invalidate
  | payload (hashing : session.isHashing = true) (baking : mode = .baking)
      (first : session.packets = 1) (kind : (Magic.ofPayload data).isBaking = true) :
      mode.Classifies session data []
        (session.classifyAs (Magic.ofPayload data) (Parsed.ofPayload data))
  | operations {reply : Option OperationGroup} (hashing : session.isHashing = true)
      (first : session.packets = 1) (allowed : (Magic.ofPayload data).isAllowed mode = true)
      (kind : (Magic.ofPayload data).isBaking = false) :
      mode.Classifies session data [⟨.parse session.key data mode.acceptedTags, reply⟩]
        (session.classifyAs (Magic.ofPayload data) (Parsed.ofReply reply))

variable {mode : Mode} {session : Session} {data : Bytes} {exchanges : List Exchange}

/-- Classifying a session stores nothing. -/
theorem Classifies.unstoring {read : Session}
    (classifies : mode.Classifies session data exchanges read) :
    ∀ exchange ∈ exchanges, exchange.Unstoring := by
  intro exchange member record reply same
  subst same
  cases classifies with
  | operations _ _ _ _ => cases List.mem_singleton.1 member
  | _ => cases member

/-- A baking device classifies a hashed message by its first data packet only. -/
theorem Classifies.first_of_baking {read : Session}
    (classifies : Mode.baking.Classifies session data exchanges read)
    (hashing : session.isHashing = true) : session.packets = 1 := by
  cases classifies with
  | raw raw =>
    rw [hashing] at raw
    cases raw
  | later _ wallet _ => cases wallet
  | payload _ _ first _ => exact first
  | operations _ first _ _ => exact first

/-- Having an operation read is one call, and no reply to it is a refusal. -/
theorem readOperations_eq (mode : Mode) (session : Session) (data : Bytes) :
    mode.readOperations session data = (do
      let reply ← Act.parse session.key data mode.acceptedTags
      pure (Parsed.ofReply reply)) := by
  refine bind_congr fun reply => ?_
  cases reply <;> rfl

theorem readOperations_yields_iff {outcome : Except SignerError Parsed} :
    (mode.readOperations session data).Yields exchanges outcome ↔
      ∃ reply, exchanges = [⟨.parse session.key data mode.acceptedTags, reply⟩] ∧
        outcome = .ok (Parsed.ofReply reply) := by
  rw [readOperations_eq, Act.yields_bind_pure_iff]
  constructor
  · rintro ⟨_, called, rfl⟩
    obtain ⟨reply, rfl, rfl⟩ := Act.yields_call_iff.1 called
    exact ⟨reply, rfl, rfl⟩
  · rintro ⟨reply, rfl, rfl⟩
    exact ⟨_, Act.yields_call_iff.2 ⟨reply, rfl, rfl⟩, rfl⟩

/-- Reading an operation and classifying by it is one call, and is not refused. -/
private theorem readThenClassify_yields {outcome : Except SignerError Session}
    (h : (do
      let parsed ← mode.readOperations session data
      pure (session.classifyAs (Magic.ofPayload data) parsed) : Act Session).Yields
        exchanges outcome) :
    ∃ reply, exchanges = [⟨.parse session.key data mode.acceptedTags, reply⟩] ∧
      outcome = .ok (session.classifyAs (Magic.ofPayload data) (Parsed.ofReply reply)) := by
  obtain ⟨_, reading, rfl⟩ := Act.yields_bind_pure_iff.1 h
  obtain ⟨reply, rfl, rfl⟩ := readOperations_yields_iff.1 reading
  exact ⟨reply, rfl, rfl⟩

theorem classifyForWallet_yields {outcome : Except SignerError Session}
    (hashing : session.isHashing = true)
    (h : (classifyForWallet session session.packets data).Yields exchanges outcome) :
    (exchanges = [] ∧ ∃ error, outcome = .error error) ∨
      ∃ read, outcome = .ok read ∧ Mode.wallet.Classifies session data exchanges read := by
  unfold classifyForWallet at h
  split at h
  · rename_i later
    obtain ⟨rfl, rfl⟩ := Act.yields_pure_iff.1 h
    exact .inr ⟨_, rfl, .later hashing rfl later⟩
  · rename_i first
    split at h
    · rename_i allowed
      obtain ⟨reply, rfl, rfl⟩ := readThenClassify_yields h
      exact .inr ⟨_, rfl, .operations hashing (Decidable.not_not.1 first) allowed
        (Magic.isBaking_of_isAllowed_wallet allowed)⟩
    · obtain ⟨rfl, rfl⟩ := Act.yields_throw_iff.1 h
      exact .inl ⟨rfl, _, rfl⟩

theorem classifyForBaking_yields {outcome : Except SignerError Session}
    (hashing : session.isHashing = true)
    (h : (classifyForBaking session session.packets data).Yields exchanges outcome) :
    (exchanges = [] ∧ ∃ error, outcome = .error error) ∨
      ∃ read, outcome = .ok read ∧ Mode.baking.Classifies session data exchanges read := by
  unfold classifyForBaking at h
  split at h
  · obtain ⟨rfl, rfl⟩ := Act.yields_throw_iff.1 h
    exact .inl ⟨rfl, _, rfl⟩
  · rename_i first
    have first : session.packets = 1 := Decidable.not_not.1 first
    split at h
    · rename_i allowed
      split at h
      · rename_i kind
        have read : exchanges = [] ∧ outcome =
            .ok (session.classifyAs (Magic.ofPayload data) (Parsed.ofPayload data)) := by
          unfold Parsed.ofPayload
          split at h <;> rename_i payload <;> simpa only [payload, Act.yields_pure_iff] using h
        obtain ⟨rfl, rfl⟩ := read
        exact .inr ⟨_, rfl, .payload hashing rfl first kind⟩
      · rename_i kind
        obtain ⟨reply, rfl, rfl⟩ := readThenClassify_yields h
        exact .inr ⟨_, rfl, .operations hashing first allowed (Bool.not_eq_true _ ▸ kind)⟩
    · obtain ⟨rfl, rfl⟩ := Act.yields_throw_iff.1 h
      exact .inl ⟨rfl, _, rfl⟩

/-- A packet is refused without a call, or the session is classified by it. -/
theorem classify_yields {outcome : Except SignerError Session}
    (h : (mode.classify session session.packets data).Yields exchanges outcome) :
    (exchanges = [] ∧ ∃ error, outcome = .error error) ∨
      ∃ read, outcome = .ok read ∧ mode.Classifies session data exchanges read := by
  unfold classify at h
  split at h
  · rename_i hashing
    cases mode with
    | wallet => exact classifyForWallet_yields hashing h
    | baking => exact classifyForBaking_yields hashing h
  · rename_i raw
    obtain ⟨rfl, rfl⟩ := Act.yields_pure_iff.1 h
    exact .inr ⟨_, rfl, .raw (Bool.not_eq_true _ ▸ raw)⟩

end Mode

/-- What lets a block or an endorsement pass without the operator. -/
structure BakingState.Vouches (state : BakingState) (session : Session)
    (payload : BakingPayload) : Prop where
  kind : session.magic.isBaking = true
  parsed : session.parsed = .baking payload
  authorized : state.authorizes session.key = true
  permitted : state.permits payload.mark = true

theorem BakingState.authorizes_iff {state : BakingState} {key : KeyPath} :
    state.authorizes key = true ↔ state.key = some key ∧ key.path ≠ [] := by
  cases bound : state.key with
  | none => simp [authorizes, bound]
  | some authorized =>
    simp only [authorizes, bound, Bool.and_eq_true, Bool.not_eq_true', List.isEmpty_eq_false_iff,
      beq_iff_eq, Option.some.injEq]
    exact And.comm.trans (and_congr_right fun same => same ▸ Iff.rfl)

theorem BakingState.permits_iff {state : BakingState} {mark : Mark} :
    state.permits mark = true ↔ isValidLevel mark.level = true ∧ state.mark < mark := by
  rw [permits, Bool.and_eq_true, Mark.advances_iff_lt]

theorem BakingState.guardBaking_ok {state : BakingState} {key : KeyPath}
    {offered : Option BakingPayload} {payload : BakingPayload}
    (h : state.guardBaking key offered = .ok payload) :
    offered = some payload ∧ state.authorizes key = true ∧ state.permits payload.mark = true := by
  unfold guardBaking at h
  split at h
  · rename_i authorized
    split at h
    · split at h
      · rename_i permitted
        cases h
        exact ⟨rfl, authorized, permitted⟩
      · cases h
    · cases h
  · cases h

/-- There is one reason only to stop a block or an endorsement. -/
theorem BakingState.guardBaking_error {state : BakingState} {key : KeyPath}
    {offered : Option BakingPayload} {error : SignerError}
    (h : state.guardBaking key offered = .error error) : error = .securityError := by
  unfold guardBaking at h
  split at h
  · split at h
    · split at h
      · cases h
      · cases h
        rfl
    · cases h
      rfl
  · cases h
    rfl

theorem BakingState.guardSelfDelegation_ok {state : BakingState} {key : KeyPath}
    {group : OperationGroup} (h : state.guardSelfDelegation key group = .ok ()) :
    state.authorizes key = true ∧ group.isSelfDelegation = true := by
  unfold guardSelfDelegation at h
  split at h
  · rename_i both
    exact Bool.and_eq_true _ _ ▸ both
  · cases h

namespace Mode

/-- The ways in which a baking device completes a finished session. -/
inductive CompletesForBaking (state : BakingState) (session : Session) :
    List Exchange → Except SignerError Completion → Prop where
  | refused {error : SignerError} : CompletesForBaking state session [] (.error error)
  | asks {group : OperationGroup} (kind : session.magic = .unsafeOp)
      (parsed : session.parsed = .operations group)
      (authorized : state.authorizes session.key = true)
      (selfDelegation : group.isSelfDelegation = true) :
      CompletesForBaking state session []
        (.ok (.awaits { prompt := Prompt.registerDelegate group, action := .sign session }))
  | unsigned {payload : BakingPayload} {exchanges : List Exchange} {error : SignerError}
      (vouched : state.Vouches session payload)
      (signs : session.Signs exchanges (.error error)) :
      CompletesForBaking state session exchanges (.error error)
  | unrecorded {payload : BakingPayload} {exchanges : List Exchange} {answer : Answer}
      {error : SignerError} (vouched : state.Vouches session payload)
      (signs : session.Signs exchanges (.ok answer)) :
      CompletesForBaking state session
        (exchanges ++
          [⟨.store { state with mark := payload.mark }.encode, .error error⟩])
        (.error error)
  | baked {payload : BakingPayload} {exchanges : List Exchange} {answer : Answer}
      (vouched : state.Vouches session payload)
      (signs : session.Signs exchanges (.ok answer)) :
      CompletesForBaking state session
        (exchanges ++ [⟨.store { state with mark := payload.mark }.encode, .ok ()⟩])
        (.ok (.answered answer))

/-- What the state vouches for is signed, and then recorded. -/
theorem completeForBaking_eq {state : BakingState} {session : Session} {payload : BakingPayload}
    (vouched : state.Vouches session payload) :
    completeForBaking state session = (do
      let answer ← session.sign
      Act.store { state with mark := payload.mark }.encode
      pure (.answered answer)) := by
  have guarded : state.guardBaking session.key (some payload) = .ok payload := by
    rw [BakingState.guardBaking, if_pos vouched.authorized]
    exact if_pos vouched.permitted
  have recorded : state.recordSigned payload.mark =
      Act.store { state with mark := payload.mark }.encode := by
    rw [BakingState.recordSigned, if_pos (BakingState.permits_iff.1 vouched.permitted).1]
    rfl
  rw [completeForBaking, if_pos vouched.kind, vouched.parsed, ← recorded]
  simp only [guarded]
  rfl

/-- What the state does not vouch for is stopped. -/
theorem completeForBaking_stopped {state : BakingState} {session : Session}
    (kind : session.magic.isBaking = true)
    (stopped : ∀ payload, ¬ state.Vouches session payload) :
    completeForBaking state session = throw .securityError := by
  have refused (offered : Option BakingPayload)
      (same : ∀ payload, offered = some payload → session.parsed = .baking payload) :
      state.guardBaking session.key offered = .error .securityError := by
    cases guarded : state.guardBaking session.key offered with
    | error error => rw [BakingState.guardBaking_error guarded]
    | ok payload =>
      obtain ⟨given, authorized, permitted⟩ := BakingState.guardBaking_ok guarded
      exact absurd ⟨kind, same payload given, authorized, permitted⟩ (stopped payload)
  rw [completeForBaking, if_pos kind]
  cases parsed : session.parsed with
  | baking payload =>
    simp only [refused (some payload) (by rintro _ ⟨⟩; exact parsed)]
    rfl
  | _ =>
    simp only [refused none (by rintro _ ⟨⟩)]
    rfl

theorem completeForBaking_yields {state : BakingState} {session : Session}
    {exchanges : List Exchange} {outcome : Except SignerError Completion}
    (h : (completeForBaking state session).Yields exchanges outcome) :
    CompletesForBaking state session exchanges outcome := by
  by_cases kind : session.magic.isBaking = true
  · by_cases vouching : ∃ payload, state.Vouches session payload
    · obtain ⟨payload, vouched⟩ := vouching
      rw [completeForBaking_eq vouched] at h
      rcases Act.yields_bind_iff.1 h with
        ⟨error, rfl, signing⟩ | ⟨front, back, answer, rfl, signing, more⟩
      · exact .unsigned vouched (Session.signs_of_yields signing)
      · obtain ⟨stored, storing, rfl⟩ := Act.yields_bind_pure_iff.1 more
        obtain ⟨_, rfl, rfl⟩ := Act.yields_store_iff.1 storing
        cases stored with
        | error error => exact .unrecorded vouched (Session.signs_of_yields signing)
        | ok done => exact .baked vouched (Session.signs_of_yields signing)
    · rw [completeForBaking_stopped kind (not_exists.1 vouching)] at h
      obtain ⟨rfl, rfl⟩ := Act.yields_throw_iff.1 h
      exact .refused
  · rw [completeForBaking, if_neg kind] at h
    split at h
    · rename_i group kind parsed
      rcases Act.yields_ofExcept_bind_iff.1 h with ⟨error, _, rfl, rfl⟩ | ⟨_, guarded, more⟩
      · exact .refused
      · obtain ⟨authorized, selfDelegation⟩ := BakingState.guardSelfDelegation_ok guarded
        obtain ⟨rfl, rfl⟩ := Act.yields_pure_iff.1 more
        exact .asks kind parsed authorized selfDelegation
    · obtain ⟨rfl, rfl⟩ := Act.yields_throw_iff.1 h
      exact .refused

/-- A wallet completes a session by asking the operator: about the bytes themselves, or by
a prompt that was chosen for their hash. -/
theorem completeForWallet_ok {session : Session} {completion : Completion}
    (h : completeForWallet session = .ok completion) :
    ∃ prompt, completion = .awaits { prompt := prompt, action := .sign session } ∧
      (session.isHashing = false ∧ prompt = Prompt.preHashed ∨
        ∃ hash, session.isHashing = true ∧ session.finalHash = some hash ∧
          walletPrompt session hash = .ok prompt) := by
  unfold completeForWallet at h
  split at h
  · rename_i hashing
    split at h
    · cases h
    · rename_i hash finished
      cases chosen : walletPrompt session hash with
      | error error =>
        rw [chosen] at h
        cases h
      | ok prompt =>
        rw [chosen] at h
        cases h
        exact ⟨prompt, rfl, .inr ⟨hash, hashing, finished, chosen⟩⟩
  · rename_i raw
    cases h
    exact ⟨Prompt.preHashed, rfl, .inl ⟨Bool.not_eq_true _ ▸ raw, rfl⟩⟩

/-- The prompt for a hashed message is that of the operation where there is one for it, and
that of the hash everywhere else. -/
theorem walletPrompt_ok {session : Session} {hash : Digest} {prompt : Prompt}
    (h : walletPrompt session hash = .ok prompt) :
    (∃ group, session.magic = .unsafeOp ∧ session.parsed = .operations group ∧
        Prompt.operation? group = some prompt) ∨
      ((∀ group, session.magic = .unsafeOp → session.parsed = .operations group →
          Prompt.operation? group = none) ∧ prompt = Prompt.rawHash hash) := by
  unfold walletPrompt at h
  split at h
  · rename_i group kind parsed
    cases h
    cases template : Prompt.operation? group with
    | some shown => exact .inl ⟨group, kind, parsed, template⟩
    | none =>
      refine .inr ⟨?_, rfl⟩
      intro other _ same
      rw [parsed] at same
      cases same
      exact template
  · rename_i kind unread
    cases h
    refine .inr ⟨?_, rfl⟩
    intro group _ parsed
    exact absurd parsed (unread group)
  · rename_i kind
    cases h
    refine .inr ⟨?_, rfl⟩
    intro group other _
    rw [kind] at other
    cases other
  · rename_i kind
    cases h
    refine .inr ⟨?_, rfl⟩
    intro group other _
    rw [kind] at other
    cases other
  · cases h

end Mode

end TezosSigner
