/-
Module: TezosSigner.Platform.Dialog
Purpose: What the signer asks of the platform it runs on, and programs that ask.
Main exports: Call, Call.Reply, Dialog, Dialog.runWith, Act, Act.call
-/
import TezosSigner.Baking.Record
import TezosSigner.Error
import TezosSigner.Operation.Group

namespace TezosSigner

/-!
The signer holds no secrets and reads no operations itself.  It calls the platform
to sign, to derive a public key, to read an operation group and to store the baking
record, and it has to cope with whatever the platform replies.

A `Dialog` is a program that makes such calls: it is done, or it makes a call and
goes on with the reply.  Since a dialog says how it goes on with every reply, one
dialog stands for the behaviour of the signer on every platform; `runWith` plays it
against a particular one.
-/

/-- What a platform leaves behind after signing. -/
structure SignReply where
  /-- The room for a signature, filled from its front. -/
  buffer : Vector UInt8 100
  /-- How many bytes of it the platform reports as the signature. -/
  length : Nat
  /-- The recovery parity of an ECDSA signature. -/
  parityOdd : Bool
deriving Repr, DecidableEq

/-- What a platform leaves behind after deriving a public key. -/
structure KeyReply where
  /-- The room for a key, filled from its front. -/
  buffer : Vector UInt8 65
  /-- How many bytes of it the platform reports as the key. -/
  length : Nat
deriving Repr, DecidableEq

/-- A call that the signer makes on its platform. -/
inductive Call where
  /-- Sign a message. -/
  | sign (key : KeyPath) (message : Bytes)
  /-- Derive a public key. -/
  | publicKey (key : KeyPath)
  /-- Read an operation group for a signing key, given the tags that are allowed. -/
  | parse (key : KeyPath) (data : Bytes) (allowed : List OperationTag)
  /-- Replace the baking record as a whole, or fail and leave it as it was. -/
  | store (record : Record)
deriving Repr, DecidableEq

/-- What the platform replies to a call. -/
abbrev Call.Reply : Call → Type
  | .sign _ _ => Except SignerError SignReply
  | .publicKey _ => Except SignerError KeyReply
  | .parse _ _ _ => Option OperationGroup
  | .store _ => Except SignerError Unit

/-- A program that makes calls on the platform. -/
inductive Dialog (Result : Type) where
  | done (result : Result)
  | ask (call : Call) (next : call.Reply → Dialog Result)

namespace Dialog

/-- Go on with the result of a dialog. -/
def bind {First Second : Type} (dialog : Dialog First) (next : First → Dialog Second) :
    Dialog Second :=
  match dialog with
  | .done result => next result
  | .ask call continue' => .ask call fun reply => (continue' reply).bind next

instance : Monad Dialog where
  pure := .done
  bind := bind

theorem bind_done {Result : Type} (dialog : Dialog Result) : dialog.bind .done = dialog := by
  induction dialog with
  | done result => rfl
  | ask call next ih => simp [bind, ih]

theorem bind_assoc {First Second Third : Type} (dialog : Dialog First)
    (next : First → Dialog Second) (last : Second → Dialog Third) :
    (dialog.bind next).bind last = dialog.bind fun result => (next result).bind last := by
  induction dialog with
  | done result => rfl
  | ask call continue' ih => simp [bind, ih]

instance : LawfulMonad Dialog :=
  LawfulMonad.mk' Dialog
    (fun dialog => bind_done dialog)
    (fun _ _ => rfl)
    (fun dialog next last => bind_assoc dialog next last)

/-- Play a dialog against a platform that gives the replies. -/
def runWith {m : Type → Type} [Monad m] (answer : (call : Call) → m call.Reply)
    {Result : Type} : Dialog Result → m Result
  | .done result => pure result
  | .ask call next => do
      let reply ← answer call
      (next reply).runWith answer

end Dialog

/-- A dialog that may end in a refusal. -/
abbrev Act := ExceptT SignerError Dialog

namespace Act

/-- Make a call and hand on the reply as it is. -/
def call (request : Call) : Act request.Reply :=
  ExceptT.mk (.ask request fun reply => .done (.ok reply))

/-- Hand on a result, or refuse with its error. -/
def ofExcept {Result : Type} (result : Except SignerError Result) : Act Result :=
  ExceptT.mk (.done result)

/-- Have a message signed; where the platform fails, refuse with its error. -/
def sign (key : KeyPath) (message : Bytes) : Act SignReply := do
  ofExcept (← call (.sign key message))

/-- Have a public key derived; where the platform fails, refuse with its error. -/
def publicKey (key : KeyPath) : Act KeyReply := do
  ofExcept (← call (.publicKey key))

/-- Have an operation group read, if it can be. -/
def parse (key : KeyPath) (data : Bytes) (allowed : List OperationTag) :
    Act (Option OperationGroup) :=
  call (.parse key data allowed)

/-- Have the baking record replaced; where the platform fails, refuse with its
error. -/
def store (record : Record) : Act Unit := do
  ofExcept (← call (.store record))

end Act

end TezosSigner
