/-
Module: TezosSigner.Answer
Purpose: What the device answers, and how an answer is written as a response.
Main exports: Answer, Answer.write, Answer.status
-/
import TezosSigner.Wire.Response
import TezosSigner.Wire.StatusWord

namespace TezosSigner

/-- What the device answers to a command. -/
inductive Answer where
  /-- Success, with nothing to tell. -/
  | none
  /-- A signature, with the hash that was signed where the host asked for it. -/
  | signature (digest : Option Digest) (bytes : Bytes)
  /-- The hash of a message, which was not signed. -/
  | hash (digest : Digest)
  /-- A public key. -/
  | publicKey (key : Bytes)
  /-- The key authorized for baking. -/
  | authorizedKey (key : Option KeyPath)
  /-- The high-water mark. -/
  | highWaterMark (mark : Mark)
  /-- The operator is being asked; the response follows once they decide. -/
  | pending
  /-- The operator rejected the request. -/
  | rejected
deriving Repr, DecidableEq

namespace Answer

/-- Write the response for an answer to the front of a buffer. -/
def write : Answer → Bytes → Except WireError Written
  | .none, buffer => writeInto buffer []
  | .pending, buffer => writeInto buffer []
  | .rejected, buffer => writeInto buffer []
  | .signature digest bytes, buffer =>
      WireFormat.write ({ hash := digest, signature := bytes } : SignatureResponse) buffer
  | .hash digest, buffer =>
      WireFormat.write ({ hash := some digest, signature := [] } : SignatureResponse) buffer
  | .publicKey key, buffer => WireFormat.write (PublicKeyResponse.mk key) buffer
  | .authorizedKey key, buffer => WireFormat.write (AuthKeyResponse.mk key) buffer
  | .highWaterMark mark, buffer => WireFormat.write mark buffer

/-- The status word that goes with an answer. -/
def status : Answer → StatusWord
  | .rejected => .rejected
  | _ => .ok

end Answer

end TezosSigner
