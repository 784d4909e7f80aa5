/-
Module: TezosSigner.Wire.Format
Purpose: What every kind of message has: a layout, a reader, and a bounded writer.
Main exports: Written, writeInto, WireFormat, WireFormat.write
-/
import TezosSigner.Bytes
import TezosSigner.Wire.Error

namespace TezosSigner

/-!
A message is written to the front of a buffer that the caller provides.  It either
fits as a whole, and the bytes after it stay as they were, or nothing is written
and the buffer is reported as too short.  Reading starts at the front as well and
reports how many bytes the message took, so that what follows it can be read next.
-/

/-- A buffer after a message was written to its front. -/
structure Written where
  /-- How many bytes the message takes. -/
  length : Nat
  /-- The whole buffer, the message first. -/
  buffer : Bytes
deriving Repr, DecidableEq

/-- The bytes of the message itself. -/
def Written.content (written : Written) : Bytes :=
  written.buffer.take written.length

/-- Put a message at the front of a buffer. -/
def writeInto (buffer message : Bytes) : Except WireError Written :=
  if buffer.length < message.length then
    .error .invalidLength
  else
    .ok { length := message.length, buffer := message ++ buffer.drop message.length }

/-- A message that fits is written as a whole, and is all that the content is. -/
theorem exists_written {buffer message : Bytes} (room : message.length ≤ buffer.length) :
    ∃ written, writeInto buffer message = .ok written ∧ written.length = message.length ∧
      written.content = message := by
  refine ⟨_, if_neg (Nat.not_lt.2 room), rfl, ?_⟩
  rw [Written.content, List.take_left]

/-- The bytes behind a message that was written are those of the buffer. -/
theorem behind_of_writeInto {buffer message : Bytes} {written : Written}
    (wrote : writeInto buffer message = .ok written) :
    written.buffer.length = buffer.length ∧
      written.buffer.drop written.length = buffer.drop written.length := by
  unfold writeInto at wrote
  split at wrote
  · cases wrote
  · rename_i room
    cases wrote
    refine ⟨?_, List.drop_left⟩
    rw [List.length_append, List.length_drop]
    omega

theorem writeInto_of_short {buffer message : Bytes} (short : buffer.length < message.length) :
    writeInto buffer message = .error .invalidLength :=
  if_pos short

/-- A kind of message that host and device exchange. -/
class WireFormat (Message : Type) where
  /-- The bytes of a message. -/
  layout : Message → Bytes
  /-- Whether a message keeps to the limits of its format. -/
  withinLimits : Message → Bool := fun _ => true
  /-- Read a message from the front of a byte string, with the number of bytes
  it takes. -/
  decode : Bytes → Except WireError (Message × Nat)

namespace WireFormat

/-- The number of bytes that a message asks for. -/
def encodedLength {Message : Type} [WireFormat Message] (message : Message) : Nat :=
  (layout message).length

/-- Write a message to the front of a buffer.  A message beyond the limits of its
format is refused like one that does not fit. -/
def write {Message : Type} [WireFormat Message] (message : Message) (buffer : Bytes) :
    Except WireError Written :=
  if withinLimits message then writeInto buffer (layout message) else .error .invalidLength

end WireFormat

end TezosSigner
