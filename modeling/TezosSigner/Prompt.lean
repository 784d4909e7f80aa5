/-
Module: TezosSigner.Prompt
Purpose: What the operator is shown before a key is used.
Main exports:
  PromptKind, PromptValue, PromptField, Prompt, Prompt.ofFields, Prompt.value?,
  Prompt.operation?, Prompt.rawHash
-/
import TezosSigner.Bytes
import TezosSigner.Operation.Group
import TezosSigner.Wire.Response

namespace TezosSigner

/-!
A prompt is a list of labelled values.  The values are left as data; how an amount
or an account is drawn is up to the display.  A display shows at most seven fields,
and a prompt never holds more.

An operation group that was understood is shown by its own template.  There is no
template for a vote without its proposal, nor for an origination that its manager
may not spend from; such a group, and any that was not understood, is shown by its
hash.
-/

/-- The template a prompt was made from. -/
inductive PromptKind where
  | rawHash
  | preHashed
  | reveal
  | delegation
  | withdrawal
  | origination
  | transaction
  | proposal
  | ballot
  | registerDelegate
  | providePublicKey
  | authorizeBaking
  | resetHighWaterMark
deriving Repr, Inhabited, DecidableEq

instance : Labelled PromptKind where
  all := [.rawHash, .preHashed, .reveal, .delegation, .withdrawal, .origination,
    .transaction, .proposal, .ballot, .registerDelegate, .providePublicKey,
    .authorizeBaking, .resetHighWaterMark]
  label
    | .rawHash => "RawHash"
    | .preHashed => "PreHashed"
    | .reveal => "Reveal"
    | .delegation => "Delegation"
    | .withdrawal => "Withdrawal"
    | .origination => "Origination"
    | .transaction => "Transaction"
    | .proposal => "Proposal"
    | .ballot => "Ballot"
    | .registerDelegate => "RegisterDelegate"
    | .providePublicKey => "ProvidePublicKey"
    | .authorizeBaking => "AuthorizeBaking"
    | .resetHighWaterMark => "ResetHighWaterMark"

/-- A value beside a label. -/
inductive PromptValue where
  | text (words : String)
  | contract (account : Contract)
  /-- In millionths of a tez. -/
  | amount (amount : UInt64)
  | number (number : UInt64)
  | level (level : UInt32)
  | protocolHash (hash : Vector UInt8 32)
  | operationHash (hash : Digest)
  | publicKey (key : Bytes)
  /-- The bytes to be signed, which stay with the pending request. -/
  | message
deriving Repr, DecidableEq

/-- One line of a prompt. -/
structure PromptField where
  label : String
  value : PromptValue
deriving Repr, DecidableEq

/-- What the operator is shown. -/
structure Prompt where
  kind : PromptKind
  fields : List PromptField
deriving Repr, DecidableEq

namespace Prompt

/-- The most fields that a prompt can hold. -/
def maxFields : Nat := 7

/-- A prompt of the given fields, as far as they can be shown. -/
def ofFields (kind : PromptKind) (fields : List PromptField) : Prompt :=
  { kind := kind, fields := fields.take maxFields }

/-- The value that stands beside a label. -/
def value? (prompt : Prompt) (label : String) : Option PromptValue :=
  (prompt.fields.find? (·.label == label)).map (·.value)

/-- A prompt for an operation that is known only by its hash. -/
def rawHash (hash : Digest) : Prompt :=
  ofFields .rawHash
    [⟨"Unrecognized", .text "Operation"⟩,
     ⟨"Sign Hash", .operationHash hash⟩]

/-- A prompt for bytes that are signed as they are. -/
def preHashed : Prompt :=
  ofFields .preHashed
    [⟨"Pre-hashed", .text "Operation"⟩,
     ⟨"Sign Hash", .message⟩]

/-- A prompt for a baking key that registers itself as a delegate. -/
def registerDelegate (group : OperationGroup) : Prompt :=
  ofFields .registerDelegate
    [⟨"Register", .text "as delegate?"⟩,
     ⟨"Address", .contract group.signing⟩,
     ⟨"Fee", .amount group.totalFee⟩]

/-- A public key as it is shown; one that is too long to be a key is shown empty. -/
def shownPublicKey (key : Bytes) : Bytes :=
  if key.length ≤ maxPublicKey then key else []

/-- A prompt for the export of a public key. -/
def providePublicKey (key : Bytes) : Prompt :=
  ofFields .providePublicKey
    [⟨"Provide", .text "Public Key?"⟩,
     ⟨"Public Key", .publicKey (shownPublicKey key)⟩]

/-- A prompt for a key that is to sign blocks and endorsements. -/
def authorizeBaking (key : Bytes) : Prompt :=
  ofFields .authorizeBaking
    [⟨"Authorize baking", .text "With Public Key?"⟩,
     ⟨"Public Key", .publicKey (shownPublicKey key)⟩]

/-- A prompt for a new high-water mark. -/
def resetHighWaterMark (level : UInt32) : Prompt :=
  ofFields .resetHighWaterMark [⟨"Reset HWM", .level level⟩]

/-- The account beside a label, or the word that there is none. -/
def contractOrNone : Option Contract → PromptValue
  | some account => .contract account
  | none => .text "None"

/-- The words that name what an operation does, marked where it was made through the
manager contract. -/
def manner (viaManager : Bool) (words : String) : PromptValue :=
  .text (if viaManager then "Mgr.tz " ++ words else words)

/-- The delegate of a new contract: one that can be changed, one that is fixed, or
none. -/
def delegateField (operation : Operation) : PromptField :=
  match operation.delegatable, operation.delegate with
  | true, some account => ⟨"Delegate", .contract account⟩
  | true, none => ⟨"Delegate", .text "Any"⟩
  | false, some account => ⟨"Fixed Delegate", .contract account⟩
  | false, none => ⟨"Delegation", .text "Disabled"⟩

/-- The fields for a group that reveals a key. -/
def revealFields (group : OperationGroup) : List PromptField :=
  [⟨"Reveal Key", .text "To Blockchain"⟩,
   ⟨"Key", .contract group.operation.source⟩,
   ⟨"Fee", .amount group.totalFee⟩,
   ⟨"Storage Limit", .number group.totalStorageLimit⟩]

/-- The fields for a group that proposes a protocol. -/
def proposalFields (group : OperationGroup) (governance : Governance) : List PromptField :=
  [⟨"Confirm", .text "Proposal"⟩,
   ⟨"Source", .contract group.operation.source⟩,
   ⟨"Period", .number governance.votingPeriod.toUInt64⟩,
   ⟨"Protocol", .protocolHash governance.protocolHash⟩]

/-- The fields for a group that votes on a protocol. -/
def ballotFields (group : OperationGroup) (governance : Governance) (vote : Vote) :
    List PromptField :=
  [⟨"Confirm Vote", .text (Labelled.label vote)⟩,
   ⟨"Source", .contract group.operation.source⟩,
   ⟨"Protocol", .protocolHash governance.protocolHash⟩,
   ⟨"Period", .number governance.votingPeriod.toUInt64⟩]

/-- The fields for a group that creates a contract. -/
def originationFields (group : OperationGroup) : List PromptField :=
  [⟨"Confirm", .text "Origination"⟩,
   ⟨"Amount", .amount group.operation.amount⟩,
   ⟨"Fee", .amount group.totalFee⟩,
   ⟨"Source", .contract group.operation.source⟩,
   ⟨"Manager", contractOrNone group.operation.destination⟩,
   delegateField group.operation,
   ⟨"Storage Limit", .number group.totalStorageLimit⟩]

/-- The fields for a group that delegates, or withdraws a delegate, under the given
title. -/
def delegationFields (group : OperationGroup) (title : String) : List PromptField :=
  [⟨title, manner group.operation.viaManager "Delegation"⟩,
   ⟨"Fee", .amount group.totalFee⟩,
   ⟨"Source", .contract group.operation.source⟩,
   ⟨"Delegate", contractOrNone group.operation.destination⟩,
   ⟨"Storage Limit", .number group.totalStorageLimit⟩]

/-- The fields for a group that moves an amount. -/
def transactionFields (group : OperationGroup) : List PromptField :=
  [⟨"Confirm", manner group.operation.viaManager "Transaction"⟩,
   ⟨"Amount", .amount group.operation.amount⟩,
   ⟨"Fee", .amount group.totalFee⟩,
   ⟨"Source", .contract group.operation.source⟩,
   ⟨"Destination", contractOrNone group.operation.destination⟩,
   ⟨"Storage Limit", .number group.totalStorageLimit⟩]

/-- The template of an operation group: its kind and all its fields. -/
def template? (group : OperationGroup) : Option (PromptKind × List PromptField) :=
  match group.operation.tag with
  | .none | .athensReveal | .babylonReveal => some (.reveal, revealFields group)
  | .proposal => do
      let governance ← group.operation.governance
      return (.proposal, proposalFields group governance)
  | .ballot => do
      let governance ← group.operation.governance
      let vote ← governance.vote
      return (.ballot, ballotFields group governance vote)
  | .athensOrigination | .babylonOrigination =>
      if group.operation.spendable then some (.origination, originationFields group) else none
  | .athensDelegation | .babylonDelegation =>
      match group.operation.destination with
      | some _ => some (.delegation, delegationFields group "Confirm")
      | none => some (.withdrawal, delegationFields group "Withdraw")
  | .athensTransaction | .babylonTransaction =>
      some (.transaction, transactionFields group)

/-- The prompt for an operation group, where it has a template. -/
def operation? (group : OperationGroup) : Option Prompt :=
  (template? group).map fun (kind, fields) => ofFields kind fields

end Prompt

end TezosSigner
