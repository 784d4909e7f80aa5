/-
Module: TezosSigner.Wire.Request
Purpose: The requests a host sends, as commands with a header and a payload.
Main exports: KeyRequest, ResetRequest, QueryRequest, Request, Request.instruction,
  Request.control, Request.payload
-/
import TezosSigner.Key.Layout
import TezosSigner.Wire.Instruction
import TezosSigner.Wire.Packet

namespace TezosSigner

/-- The payload of a request that names a key and says nothing else.  The first packet
of a signing request, the export of a public key and the authorization of a baking key
are written alike. -/
structure KeyRequest where
  key : KeyPath
deriving Repr, DecidableEq

namespace KeyRequest

/-- Read the key, which may be followed by more bytes. -/
def decode (bytes : Bytes) : Except WireError (KeyRequest × Nat) := do
  let (key, length) ← KeyPath.decode bytes
  return ({ key := key }, length)

instance : WireFormat KeyRequest where
  layout request := request.key.layout
  decode := decode

end KeyRequest

/-- The payload that asks to move the high-water mark: the new level, a big-endian
word and nothing else. -/
structure ResetRequest where
  level : UInt32
deriving Repr, DecidableEq

namespace ResetRequest

/-- Read the level, which has to be the whole payload. -/
def decode (bytes : Bytes) : Except WireError (ResetRequest × Nat) :=
  match decodeWord? bytes with
  | some (level, []) => .ok ({ level := level }, 4)
  | _ => .error .invalidLength

instance : WireFormat ResetRequest where
  layout request := encodeWord request.level
  decode := decode

end ResetRequest

/-- The payload of a query, which is empty.  Bytes that come along with a query are
left unread. -/
structure QueryRequest where
deriving Repr, DecidableEq

instance : WireFormat QueryRequest where
  layout _ := []
  decode _ := .ok ({}, 0)

/-- What a host asks for.  The packets of a signing request are the same for each
of the signing instructions; `Request.instruction` names the usual one. -/
inductive Request where
  | signFirst (key : KeyPath)
  | signNext (last : Bool) (data : Bytes)
  | getPublicKey (key : KeyPath)
  | authorizeBaking (key : KeyPath)
  | resetHighWaterMark (level : UInt32)
  | queryAuthKey
  | queryHighWaterMark
deriving Repr, DecidableEq

namespace Request

/-- The instruction of the command that carries a request. -/
def instruction : Request → Instruction
  | .signFirst _ => .sign
  | .signNext _ _ => .sign
  | .getPublicKey _ => .getPublicKey
  | .authorizeBaking _ => .authorizeBaking
  | .resetHighWaterMark _ => .resetHighWaterMark
  | .queryAuthKey => .queryAuthKey
  | .queryHighWaterMark => .queryHighWaterMark

/-- The packet control of a request that is part of a packet sequence. -/
def control : Request → Option PacketControl
  | .signFirst _ => some { kind := .first, last := false }
  | .signNext last _ => some { kind := .next, last := last }
  | _ => none

/-- The payload of the command that carries a request. -/
def payload : Request → Bytes
  | .signFirst key => key.layout
  | .signNext _ data => data
  | .getPublicKey key => key.layout
  | .authorizeBaking key => key.layout
  | .resetHighWaterMark level => WireFormat.layout (ResetRequest.mk level)
  | .queryAuthKey => WireFormat.layout ({} : QueryRequest)
  | .queryHighWaterMark => WireFormat.layout ({} : QueryRequest)

end Request

end TezosSigner
