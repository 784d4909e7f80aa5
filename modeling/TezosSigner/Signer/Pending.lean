/-
Module: TezosSigner.Signer.Pending
Purpose: A request that waits for the operator, and what happens when it is confirmed.
Main exports: Action, Pending, Pending.message?, Session.sign, Action.perform
-/
import TezosSigner.Answer
import TezosSigner.Baking.Guard
import TezosSigner.Prompt
import TezosSigner.Session

namespace TezosSigner

/-!
While the operator decides, a request waits as a `Pending`: the prompt they see, and
the action that their consent allows.  The action holds everything it needs, so
nothing that happens in between can change what was consented to.
-/

/-- What the operator's consent allows. -/
inductive Action where
  /-- Sign the message of a finished session. -/
  | sign (session : Session)
  /-- Export a public key. -/
  | exportKey (publicKey : Bytes)
  /-- Bind a key for baking. -/
  | authorize (key : KeyPath) (publicKey : Bytes)
  /-- Move the high-water mark. -/
  | reset (level : UInt32)
deriving Repr, DecidableEq

/-- A request that waits for the operator. -/
structure Pending where
  prompt : Prompt
  action : Action
deriving Repr, DecidableEq

/-- The message itself, where it is to be signed as it is. -/
def Pending.message? (pending : Pending) : Option Bytes :=
  match pending.action with
  | .sign session => if session.isHashing then none else some session.message.pending
  | _ => none

/-- Put the recovery parity of an ECDSA signature into the lowest bit of its first
byte. -/
def foldParity (odd : Bool) : Bytes → Bytes
  | [] => []
  | byte :: bytes => (if odd then byte ||| 0x01 else byte) :: bytes

namespace Session

/-- The signature that a platform reports, which has to fit its room and not be
empty. -/
def signatureOf (session : Session) (reply : SignReply) : Except SignerError Bytes :=
  if 0 < reply.length ∧ reply.length ≤ maxSignature then
    .ok (foldParity (session.key.curve.isEcdsa && reply.parityOdd)
      (reply.buffer.toList.take reply.length))
  else
    .error .memoryError

/-- Sign a finished session: the hash of its message, or the message itself where it
is not hashed.  Where only the hash is wanted, the hash is the answer.  There is always
room for the longest signature. -/
def sign (session : Session) : Act Answer :=
  if session.isHashing then
    match session.finalHash with
    | none => throw .memoryError
    | some hash =>
        if session.hashOnly then
          pure (.hash hash)
        else do
          let reply ← Act.sign session.key hash.toList
          let signature ← Act.ofExcept (session.signatureOf reply)
          pure (.signature (if session.emitsHash then some hash else none) signature)
  else do
    let reply ← Act.sign session.key session.message.pending
    let signature ← Act.ofExcept (session.signatureOf reply)
    pure (.signature none signature)

end Session

/-- Do what the operator has consented to, given the baking state. -/
def Action.perform (state : BakingState) : Action → Act Answer
  | .sign session => session.sign
  | .exportKey publicKey => pure (.publicKey publicKey)
  | .authorize key publicKey => do
      state.bindKey key
      pure (.publicKey publicKey)
  | .reset level => do
      state.resetTo level
      pure .none

end TezosSigner
