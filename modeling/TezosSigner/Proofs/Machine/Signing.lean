/-
Module: TezosSigner.Proofs.Machine.Signing
Purpose: Prompts, guards and signatures on a machine, for acts that may come to a fault.
Main exports:
  RiskyAct, RiskyAct.check, RiskyAct.safely, RiskyAct.safely_bind, RiskyAct.safely_bind_congr,
  Prompt.ofFieldsOn, Session.signOn, BakingState.guardBakingOn, BakingState.recordSignedOn,
  Action.performOn, and for each of them that it is free of faults
-/
import TezosSigner.Proofs.Exchanges
import TezosSigner.Proofs.Machine.Records
import TezosSigner.Proofs.Machine.Sessions
import TezosSigner.Proofs.Templates
import TezosSigner.Signer.Policy

namespace TezosSigner

/-!
An act of the signer may refuse, and on a machine it may also come to a fault; the two have
nothing to do with each other.  A refusal is answered.  After a fault there is no answer, and the
platform is not called any more.

Parts of the signer that neither access a slice nor count anything are taken over as they are:
`safely` turns an act into one that comes to no fault.
-/

/-- A dialog that may come to a fault. -/
abbrev Risky := ExceptT Fault Dialog

/-- An act that may come to a fault. -/
abbrev RiskyAct := ExceptT SignerError Risky

/-- A dialog that comes to no fault. -/
def Risky.safely {Result : Type} (dialog : Dialog Result) : Risky Result :=
  ExceptT.mk (dialog.bind fun result => .done (.ok result))

/-- Go on with a computation, unless it came to a fault. -/
def Risky.check {Result : Type} (checked : Checked Result) : Risky Result :=
  ExceptT.mk (.done checked)

theorem Risky.safely_bind {First Second : Type} (dialog : Dialog First)
    (next : First → Dialog Second) :
    safely (dialog.bind next) = safely dialog >>= fun result => safely (next result) := by
  induction dialog with
  | done result => rfl
  | ask call more ih => exact congrArg (Dialog.ask call) (funext ih)

/-- What follows a dialog without faults matters only for the results that it can come to. -/
theorem Risky.safely_bind_congr {First Second : Type} {dialog : Dialog First}
    {next next' : First → Risky Second}
    (same : ∀ exchanges result, dialog.Yields exchanges result → next result = next' result) :
    safely dialog >>= next = safely dialog >>= next' := by
  induction dialog with
  | done result => exact same [] result (.done result)
  | ask call more ih =>
    refine congrArg (Dialog.ask call) (funext fun reply => ?_)
    refine ih reply fun exchanges result yields => ?_
    exact same (⟨call, reply⟩ :: exchanges) result (.ask call more reply yields)

namespace RiskyAct

variable {First Second : Type}

/-- Go on with a computation, unless it came to a fault. -/
def check (checked : Checked First) : RiskyAct First :=
  ExceptT.lift (Risky.check checked)

/-- Go on with the result of a computation, or refuse with its error, unless it came to a
fault. -/
def ofChecked (checked : Checked (Except SignerError First)) : RiskyAct First :=
  ExceptT.mk (Risky.check checked)

/-- An act that comes to no fault. -/
def safely (act : Act First) : RiskyAct First :=
  ExceptT.mk (Risky.safely act.run)

theorem check_ok (value : First) : check (.ok value) = pure value :=
  rfl

theorem ofChecked_ok (result : Except SignerError First) :
    ofChecked (.ok result) = safely (Act.ofExcept result) :=
  rfl

theorem safely_pure (value : First) : safely (pure value) = pure value :=
  rfl

theorem safely_ok_bind (value : First) (next : First → RiskyAct Second) :
    safely (Act.ofExcept (.ok value)) >>= next = next value :=
  rfl

/-- An act that goes on comes to no fault if neither of its parts does. -/
theorem safely_bind (act : Act First) (next : First → Act Second) :
    safely (act >>= next) = safely act >>= fun value => safely (next value) := by
  refine (Risky.safely_bind act.run _).trans (bind_congr fun result => ?_)
  cases result <;> rfl

/-- What follows an act without faults matters only where the act can go on. -/
theorem safely_bind_congr {act : Act First} {next next' : First → RiskyAct Second}
    (same : ∀ exchanges value, act.Yields exchanges (.ok value) → next value = next' value) :
    safely act >>= next = safely act >>= next' := by
  refine Risky.safely_bind_congr fun exchanges result yields => ?_
  cases result with
  | error error => rfl
  | ok value => exact congrArg ExceptT.run (same exchanges value yields)

end RiskyAct

namespace Prompt

/-- A prompt of the given fields, each of which is pushed without a look at a refusal. -/
def ofFieldsOn (kind : PromptKind) (fields : List PromptField) : Checked Prompt := do
  let pushed ← fields.foldlM Bounded.push (Bounded.empty : Bounded PromptField maxFields)
  .ok { kind := kind, fields := pushed.elements }

/-- A prompt for an operation that is known only by its hash. -/
def rawHashOn (hash : Digest) : Checked Prompt :=
  ofFieldsOn .rawHash
    [⟨"Unrecognized", .text "Operation"⟩,
     ⟨"Sign Hash", .operationHash hash⟩]

/-- A prompt for bytes that are signed as they are. -/
def preHashedOn : Checked Prompt :=
  ofFieldsOn .preHashed
    [⟨"Pre-hashed", .text "Operation"⟩,
     ⟨"Sign Hash", .message⟩]

/-- A prompt for a baking key that registers itself as a delegate. -/
def registerDelegateOn (group : OperationGroup) : Checked Prompt :=
  ofFieldsOn .registerDelegate
    [⟨"Register", .text "as delegate?"⟩,
     ⟨"Address", .contract group.signing⟩,
     ⟨"Fee", .amount group.totalFee⟩]

/-- A prompt for the export of a public key. -/
def providePublicKeyOn (key : Bytes) : Checked Prompt :=
  ofFieldsOn .providePublicKey
    [⟨"Provide", .text "Public Key?"⟩,
     ⟨"Public Key", .publicKey (shownPublicKey key)⟩]

/-- A prompt for a key that is to sign blocks and endorsements. -/
def authorizeBakingOn (key : Bytes) : Checked Prompt :=
  ofFieldsOn .authorizeBaking
    [⟨"Authorize baking", .text "With Public Key?"⟩,
     ⟨"Public Key", .publicKey (shownPublicKey key)⟩]

/-- A prompt for a new high-water mark. -/
def resetHighWaterMarkOn (level : UInt32) : Checked Prompt :=
  ofFieldsOn .resetHighWaterMark [⟨"Reset HWM", .level level⟩]

/-- The prompt for an operation group, where it has a template. -/
def operationOn (group : OperationGroup) : Checked (Option Prompt) :=
  match template? group with
  | none => .ok none
  | some (kind, fields) => do
      let prompt ← ofFieldsOn kind fields
      .ok (some prompt)

/-- No field is refused as long as there are no more than a prompt can hold. -/
theorem ofFieldsOn_eq {kind : PromptKind} {fields : List PromptField}
    (few : fields.length ≤ maxFields) : ofFieldsOn kind fields = .ok (ofFields kind fields) := by
  have pushed : fields.foldlM Bounded.push (Bounded.empty : Bounded PromptField maxFields) =
      .ok ⟨fields, few⟩ := Bounded.pushAll_eq rfl
  rw [ofFieldsOn, pushed, Checked.ok_bind, ofFields, List.take_of_length_le few]

theorem operationOn_eq (group : OperationGroup) :
    operationOn group = .ok (operation? group) := by
  rw [operationOn, operation?]
  cases template : template? group with
  | none => rfl
  | some chosen =>
    dsimp only
    rw [ofFieldsOn_eq (length_template template)]
    rfl

end Prompt

namespace Session

/-- The signature that a platform reports, which has to fit its room and not be empty.  Only then
is its first byte looked at. -/
def signatureOn (session : Session) (reply : SignReply) : Checked (Except SignerError Bytes) :=
  if reply.length = 0 ∨ maxSignature < reply.length then
    .ok (.error .memoryError)
  else
    let signature := reply.buffer.toList.take reply.length
    if session.key.curve.isEcdsa && reply.parityOdd then do
      let first ← Slice.byteAt signature 0
      let signature ← Slice.setByte 0 (first ||| 0x01) signature
      .ok (.ok signature)
    else
      .ok (.ok signature)

/-- The room that a platform signs into.  It is never refused, though here a refusal would be
answered. -/
def signatureRoomOn : Except SignerError Bytes :=
  match Slice.resize maxSignature maxSignature [] with
  | .ok room => .ok room
  | .error _ => .error .memoryError

/-- Sign a finished session. -/
def signOn (session : Session) : RiskyAct Answer := do
  let hash ←
    match session.isHashing, session.finalHash with
    | true, some hash => pure (some hash)
    | true, none => throw .memoryError
    | false, _ => pure none
  match hash, session.hashOnly with
  | some hash, true => pure (.hash hash)
  | hash, _ => do
      let message :=
        match hash with
        | some hash => hash.toList
        | none => session.message.pending
      let _room ← RiskyAct.safely (Act.ofExcept signatureRoomOn)
      let reply ← RiskyAct.safely (Act.sign session.key message)
      let signature ← RiskyAct.ofChecked (session.signatureOn reply)
      pure (.signature (hash.filter fun _ => session.emitsHash) signature)

/-- Wipe a session after an act, whatever came of it. -/
def thenWipe {Result : Type} (session : Session) (act : RiskyAct Result) : RiskyAct Result :=
  ExceptT.mk do
    let outcome ← act.run
    let _wiped ← Risky.check session.wipeOn
    pure outcome

theorem thenWipe_eq {Result : Type} (session : Session) (act : RiskyAct Result) :
    session.thenWipe act = act := by
  rw [thenWipe, wipeOn_eq]
  exact bind_pure act.run

/-- The first byte of a signature is there when it is changed. -/
theorem signatureOn_eq (session : Session) (reply : SignReply) :
    session.signatureOn reply = .ok (session.signatureOf reply) := by
  rw [signatureOn, signatureOf]
  by_cases fits : 0 < reply.length ∧ reply.length ≤ maxSignature
  · rw [if_neg (by omega), if_pos fits]
    dsimp only
    split
    · rename_i odd
      have long : 0 < (reply.buffer.toList.take reply.length).length := by
        rw [List.length_take, Vector.length_toList]
        omega
      cases signature : reply.buffer.toList.take reply.length with
      | nil => exact absurd long (by simp [signature])
      | cons byte bytes =>
        rw [Slice.byteAt_zero, Checked.ok_bind, Slice.setByte_zero, Checked.ok_bind, odd]
        rfl
    · rename_i even
      rw [Bool.eq_false_iff.2 even]
      cases reply.buffer.toList.take reply.length <;> rfl
  · rw [if_pos (by omega), if_neg fits]

/-- A session is signed without faults, and as it should be. -/
theorem signOn_eq (session : Session) : session.signOn = RiskyAct.safely session.sign := by
  have finished (hash : Option Digest) (message : Bytes) :
      (do
        let reply ← RiskyAct.safely (Act.sign session.key message)
        let signature ← RiskyAct.ofChecked (session.signatureOn reply)
        pure (.signature hash signature) : RiskyAct Answer) =
      RiskyAct.safely (do
        let reply ← Act.sign session.key message
        let signature ← Act.ofExcept (session.signatureOf reply)
        pure (.signature hash signature)) := by
    simp only [signatureOn_eq, RiskyAct.ofChecked_ok, RiskyAct.safely_bind, RiskyAct.safely_pure]
  rw [signOn, sign]
  cases session.isHashing with
  | false => exact finished none session.message.pending
  | true =>
    cases session.finalHash with
    | none => rfl
    | some hash =>
      cases session.hashOnly with
      | true => rfl
      | false =>
        have sent : (some hash).filter (fun _ => session.emitsHash) =
            if session.emitsHash then some hash else none := by
          cases session.emitsHash <;> rfl
        refine (finished ((some hash).filter fun _ => session.emitsHash) hash.toList).trans ?_
        rw [sent]
        rfl

end Session

namespace BakingState

section Definitions

variable (machine : Machine) (record : Record)

/-- Whether a key is the authorized one. -/
def authorizesOn (key : KeyPath) : Checked Bool := do
  let state ← decodeOn machine record
  .ok (state.authorizes key)

/-- Whether a block or an endorsement at a mark may be signed. -/
def permitsOn (mark : Mark) : Checked Bool :=
  if isValidLevel mark.level then do
    let state ← decodeOn machine record
    .ok (state.mark.advances mark)
  else
    .ok false

/-- Let a block or an endorsement pass, if there is one and the record vouches for it. -/
def guardBakingOn (key : KeyPath) (payload : Option BakingPayload) :
    Checked (Except SignerError BakingPayload) := do
  let authorized ← authorizesOn machine record key
  if authorized then
    match payload with
    | some payload => do
        let permitted ← permitsOn machine record payload.mark
        .ok (if permitted then .ok payload else .error .securityError)
    | none => .ok (.error .securityError)
  else
    .ok (.error .securityError)

/-- Let an operation group pass, if it is the delegation of the authorized key to itself. -/
def guardSelfDelegationOn (key : KeyPath) (group : OperationGroup) :
    Checked (Except SignerError Unit) := do
  let authorized ← authorizesOn machine record key
  .ok (if authorized && group.isSelfDelegation then .ok () else .error .securityError)

/-- Write a state to the persisted record. -/
def saveOn (state : BakingState) : RiskyAct Unit := do
  let encoded ← RiskyAct.check (state.encodeOn machine)
  RiskyAct.safely (Act.store encoded)

/-- Bind a key for baking in place of any other. -/
def bindKeyOn (key : KeyPath) : RiskyAct Unit :=
  if key.path.isEmpty || decide (maxDepth < key.path.length) then
    throw .wrongLength
  else do
    let state ← RiskyAct.check (decodeOn machine record)
    saveOn machine { state with key := some key }

/-- Move the mark to what was signed. -/
def recordSignedOn (mark : Mark) : RiskyAct Unit :=
  if isValidLevel mark.level then do
    let state ← RiskyAct.check (decodeOn machine record)
    saveOn machine { state with mark := mark }
  else
    pure ()

/-- Move the mark to a level of the operator's choice. -/
def resetToOn (level : UInt32) : RiskyAct Unit :=
  if isValidLevel level then do
    let state ← RiskyAct.check (decodeOn machine record)
    saveOn machine { state with mark := { level := level, endorsement := false } }
  else
    throw .wrongParameter

end Definitions

variable {machine : Machine} {record : Record}

theorem authorizesOn_eq (key : KeyPath) :
    authorizesOn machine record key = .ok ((decode record).authorizes key) := by
  rw [authorizesOn, decodeOn_eq, Checked.ok_bind]

theorem permitsOn_eq (mark : Mark) :
    permitsOn machine record mark = .ok ((decode record).permits mark) := by
  rw [permitsOn, permits]
  cases isValidLevel mark.level with
  | true => rw [if_pos rfl, decodeOn_eq, Checked.ok_bind, Bool.true_and]
  | false => rw [if_neg Bool.false_ne_true, Bool.false_and]

theorem guardBakingOn_eq (key : KeyPath) (payload : Option BakingPayload) :
    guardBakingOn machine record key payload = .ok ((decode record).guardBaking key payload) := by
  cases payload with
  | none =>
    rw [guardBakingOn, authorizesOn_eq, Checked.ok_bind, guardBaking]
    split <;> rfl
  | some payload =>
    rw [guardBakingOn, authorizesOn_eq, Checked.ok_bind, guardBaking]
    split
    · rw [permitsOn_eq, Checked.ok_bind]
    · rfl

theorem guardSelfDelegationOn_eq (key : KeyPath) (group : OperationGroup) :
    guardSelfDelegationOn machine record key group =
      .ok ((decode record).guardSelfDelegation key group) := by
  rw [guardSelfDelegationOn, authorizesOn_eq, Checked.ok_bind, guardSelfDelegation]

theorem saveOn_eq (state : BakingState) :
    saveOn machine state = RiskyAct.safely state.save := by
  rw [saveOn, encodeOn_eq, RiskyAct.check_ok, pure_bind, save]

/-- A key is bound without faults, and as it should be. -/
theorem bindKeyOn_eq (key : KeyPath) :
    bindKeyOn machine record key = RiskyAct.safely ((decode record).bindKey key) := by
  have depth : decide (maxDepth < key.path.length) = false :=
    decide_eq_false (Nat.not_lt.2 key.depth_le)
  rw [bindKeyOn, depth, Bool.or_false, decodeOn_eq, RiskyAct.check_ok, pure_bind, saveOn_eq,
    bindKey]
  split <;> rfl

/-- The mark is moved without faults, and as it should be. -/
theorem recordSignedOn_eq (mark : Mark) :
    recordSignedOn machine record mark = RiskyAct.safely ((decode record).recordSigned mark) := by
  rw [recordSignedOn, decodeOn_eq, RiskyAct.check_ok, pure_bind, saveOn_eq, recordSigned]
  split <;> rfl

/-- The mark is reset without faults, and as it should be. -/
theorem resetToOn_eq (level : UInt32) :
    resetToOn machine record level = RiskyAct.safely ((decode record).resetTo level) := by
  rw [resetToOn, decodeOn_eq, RiskyAct.check_ok, pure_bind, saveOn_eq, resetTo]
  split <;> rfl

end BakingState

/-- Do what the operator has consented to, over the record as it stands. -/
def Action.performOn (machine : Machine) (record : Record) : Action → RiskyAct Answer
  | .sign session => session.thenWipe session.signOn
  | .exportKey publicKey => pure (.publicKey publicKey)
  | .authorize key publicKey => do
      BakingState.bindKeyOn machine record key
      pure (.publicKey publicKey)
  | .reset level => do
      BakingState.resetToOn machine record level
      pure .none

/-- What the operator has consented to is done without faults, and as it should be. -/
theorem Action.performOn_eq {machine : Machine} {record : Record} (action : Action) :
    action.performOn machine record =
      RiskyAct.safely (action.perform (BakingState.decode record)) := by
  cases action with
  | sign session => exact (session.thenWipe_eq _).trans session.signOn_eq
  | exportKey publicKey => rfl
  | authorize key publicKey =>
    rw [performOn, BakingState.bindKeyOn_eq, perform, RiskyAct.safely_bind]
    rfl
  | reset level =>
    rw [performOn, BakingState.resetToOn_eq, perform, RiskyAct.safely_bind]
    rfl

end TezosSigner
