/-
Module: TezosSigner.Session
Purpose: A signing session, from its first packet to the finished message.
Main exports:
  Parsed, Session, Session.start, Session.nextPacket, Session.append, Session.finish,
  Session.classifyAs, Session.invalidate, Session.wipe
-/
import TezosSigner.Error
import TezosSigner.Hash.MessageBuffer
import TezosSigner.Key.Path
import TezosSigner.Operation.BakingPayload
import TezosSigner.Operation.Group
import TezosSigner.Wire.Instruction
import TezosSigner.Wire.Packet

namespace TezosSigner

/-!
The first packet of a signing request opens a session for a key; each further packet
adds bytes to its message.  A session that hashes its message moves whole blocks into
the hash before every addition, so its message may be of any length.  A raw session
keeps the message as it is and is bounded by the buffer.

An operation that failed is reported together with the session it leaves behind,
since part of the work may be done by then: the hash-only flag is set before the
packets are counted, and blocks are absorbed before the room is checked.
-/

/-- What was understood of a message. -/
inductive Parsed where
  /-- Nothing. -/
  | invalid
  /-- It is this operation group. -/
  | operations (group : OperationGroup)
  /-- It is this block or endorsement. -/
  | baking (payload : BakingPayload)
deriving Repr, DecidableEq

/-- Whether anything was understood. -/
def Parsed.isValid : Parsed → Bool
  | .invalid => false
  | .operations _ => true
  | .baking _ => true

/-- A signing session. -/
structure Session where
  /-- The instruction of all its packets. -/
  instruction : Instruction
  /-- The key that is to sign. -/
  key : KeyPath
  /-- The number of packets that carried data. -/
  packets : UInt8
  /-- The message so far. -/
  message : MessageBuffer
  /-- The hash of the message, once it is finished. -/
  finalHash : Option Digest
  /-- The kind of the message. -/
  magic : Magic
  /-- What was understood of the message. -/
  parsed : Parsed
  /-- Only the hash is wanted, no signature. -/
  hashOnly : Bool
deriving Repr, DecidableEq

namespace Session

/-- The most data packets that a session takes. -/
def maxPackets : UInt8 := 0xff

/-- Open a session, which only the signing instructions do. -/
def start (instruction : Instruction) (key : KeyPath) : Except SignerError Session :=
  if instruction.isSigning then
    .ok
      { instruction := instruction
        key := key
        packets := 0
        message := MessageBuffer.empty
        finalHash := none
        magic := .invalid
        parsed := .invalid
        hashOnly := false }
  else
    .error .invalidInstruction

/-- The message is hashed, and the hash is signed; only raw signing does without. -/
def isHashing (session : Session) : Bool :=
  session.instruction != .signUnsafe

/-- The hash is sent along with the signature. -/
def emitsHash (session : Session) : Bool :=
  session.instruction == .signWithHash

/-- Count a data packet, and note if only the hash is wanted.  The first packet of a
request carries no data and is out of place here. -/
def nextPacket (session : Session) (kind : PacketKind) :
    Except SignerError UInt8 × Session :=
  match kind with
  | .first => (.error .wrongParameter, session)
  | .next => count session
  | .hashOnlyNext => count { session with hashOnly := true }
where
  /-- Count one more packet, while there is room in the counter. -/
  count (session : Session) : Except SignerError UInt8 × Session :=
    if session.packets < maxPackets then
      (.ok (session.packets + 1), { session with packets := session.packets + 1 })
    else
      (.error .parseError, session)

/-- Make room by moving whole blocks into the hash, where the message is hashed. -/
def absorb (session : Session) : Session :=
  if session.isHashing then { session with message := session.message.absorb } else session

/-- Add bytes to the message. -/
def append (session : Session) (bytes : Bytes) : Except SignerError Unit × Session :=
  let absorbed := session.absorb
  match absorbed.message.append? bytes with
  | some message => (.ok (), { absorbed with message := message })
  | none => (.error .parseError, absorbed)

/-- Finish the message: compute its hash, where it is hashed. -/
def finish (session : Session) : Session :=
  if session.isHashing then
    let (digest, message) := session.message.finish
    { session with message := message, finalHash := some digest }
  else
    session

/-- Note the kind of the message and what was understood of it. -/
def classifyAs (session : Session) (magic : Magic) (parsed : Parsed) : Session :=
  { session with magic := magic, parsed := parsed }

/-- Note that the message was not understood after all. -/
def invalidate (session : Session) : Session :=
  { session with parsed := .invalid }

/-- Wipe a session: of what it held, only the instruction and the curve are left. -/
def wipe (session : Session) : Session :=
  { instruction := session.instruction
    key := { curve := session.key.curve, path := [], depth_le := Nat.zero_le _ }
    packets := 0
    message := MessageBuffer.empty
    finalHash := none
    magic := .invalid
    parsed := .invalid
    hashOnly := false }

/-- The line that logs show for a session; the message stays out of it. -/
def summary (session : Session) : String :=
  let steps := ", ".intercalate (session.key.path.map fun step => toString step.toNat)
  let key := s!"KeyPath \x7b curve: {Labelled.label session.key.curve}, path: [{steps}] \x7d"
  s!"SigningSession \x7b ins: {Labelled.label session.instruction}, key: {key}, " ++
    s!"packet_index: {session.packets.toNat}, " ++
    s!"message_len: {session.message.pending.length}, " ++
    s!"magic: {Labelled.label session.magic}, hash_only: {session.hashOnly} \x7d"

end Session

end TezosSigner
