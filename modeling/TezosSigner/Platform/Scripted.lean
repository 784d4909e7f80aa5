/-
Module: TezosSigner.Platform.Scripted
Purpose: A platform whose replies are laid down beforehand, and which notes its calls.
Main exports: Script, NotedCall, Script.answer
-/
import TezosSigner.Platform.Dialog

namespace TezosSigner

/-!
To rehearse a signer without a device, a `Script` lays down what the platform replies
to each kind of call.  It keeps the baking record in memory, and it notes the calls
made on it in their order.
-/

/-- A call as it was noted; for a store, also whether the record was replaced. -/
inductive NotedCall where
  | sign (key : KeyPath) (message : Bytes)
  | publicKey (key : KeyPath)
  | parse (key : KeyPath) (data : Bytes) (allowed : List OperationTag)
  | store (record : Record) (replaced : Bool)
deriving Repr, DecidableEq

/-- What a platform replies, and what it has seen. -/
structure Script where
  /-- The signature that is handed out, as much of it as fits. -/
  signature : Bytes
  /-- The reported length of the signature, where it is not the true one. -/
  signatureLength : Option Nat
  parityOdd : Bool
  /-- The refusal to sign, where signing is refused. -/
  signError : Option SignerError
  /-- The public key that is handed out, as much of it as fits. -/
  publicKey : Bytes
  /-- The reported length of the key, where it is not the true one. -/
  publicKeyLength : Option Nat
  /-- The refusal to hand out a key, where that is refused. -/
  publicKeyError : Option SignerError
  /-- The group that is read out of any operation. -/
  group : Option OperationGroup
  /-- The group is read even where its tag is not allowed. -/
  ignoresAllowed : Bool
  /-- The refusal to store, where storing is refused. -/
  storeError : Option SignerError
  /-- The baking record. -/
  record : Record
  /-- The calls noted so far. -/
  calls : List NotedCall
deriving Repr, DecidableEq

namespace Script

/-- A script that grants everything: a short signature, a compressed public key, and
no operation that can be read. -/
def granting (record : Record) : Script :=
  { signature := [0x30, 0x44, 0x02, 0x20, 0x01]
    signatureLength := none
    parityOdd := false
    signError := none
    publicKey := List.replicate 33 0x02
    publicKeyLength := none
    publicKeyError := none
    group := none
    ignoresAllowed := false
    storeError := none
    record := record
    calls := [] }

/-- The reply to a request for a signature. -/
def signReply (script : Script) : Except SignerError SignReply :=
  match script.signError with
  | some error => .error error
  | none =>
      .ok
        { buffer := padded 100 script.signature
          length := script.signatureLength.getD script.signature.length
          parityOdd := script.parityOdd }

/-- The reply to a request for a public key. -/
def keyReply (script : Script) : Except SignerError KeyReply :=
  match script.publicKeyError with
  | some error => .error error
  | none =>
      .ok
        { buffer := padded 65 script.publicKey
          length := script.publicKeyLength.getD script.publicKey.length }

/-- The group that is read, unless its tag is not allowed. -/
def groupReply (script : Script) (allowed : List OperationTag) : Option OperationGroup :=
  script.group.filter fun group =>
    script.ignoresAllowed || allowed.contains group.operation.tag

/-- Note a call. -/
def note (script : Script) (call : NotedCall) : Script :=
  { script with calls := script.calls ++ [call] }

/-- Answer a call by the script, and note it. -/
def answer : (call : Call) → StateM Script call.Reply
  | .sign key message => do
      modify (note · (.sign key message))
      return (← get).signReply
  | .publicKey key => do
      modify (note · (.publicKey key))
      return (← get).keyReply
  | .parse key data allowed => do
      modify (note · (.parse key data allowed))
      return (← get).groupReply allowed
  | .store record => do
      match (← get).storeError with
      | some error =>
          modify (note · (.store record false))
          return .error error
      | none =>
          modify fun script => { script.note (.store record true) with record := record }
          return .ok ()

/-- Play a dialog by a script. -/
def play {Result : Type} (script : Script) (dialog : Dialog Result) : Result × Script :=
  (dialog.runWith answer).run script

end Script

end TezosSigner
