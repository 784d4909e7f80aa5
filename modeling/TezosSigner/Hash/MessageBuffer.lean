/-
Module: TezosSigner.Hash.MessageBuffer
Purpose: A bounded buffer whose full blocks are hashed away as more bytes arrive.
Main exports: MessageBuffer, append?, absorb, finish, clearHash, absorbBlocks
-/
import TezosSigner.Hash.Blake2b

namespace TezosSigner

/-!
An operation may be far longer than the memory of a device.  A `MessageBuffer`
keeps the bytes that are not hashed yet; `absorb` moves whole blocks from its front
into the hash, but always holds back the last block, even a full one, since the
operation may end with it.  The hash starts with the first `absorb`, and `finish`
and `clearHash` put it away again.
-/

/-- Bytes waiting to be hashed, and the hash of those that came before them. -/
structure MessageBuffer where
  /-- The hash of the bytes that have left the buffer, once absorbing has begun. -/
  hashed : Option Blake2b.Stream
  /-- The bytes still in the buffer. -/
  pending : Bytes
deriving DecidableEq, Repr

namespace MessageBuffer

/-- The number of bytes the buffer can hold. -/
def capacity : Nat := 1024

/-- A buffer without bytes or hash. -/
def empty : MessageBuffer :=
  { hashed := none, pending := [] }

/-- Whether absorbing has begun. -/
def hasBegun (buffer : MessageBuffer) : Bool :=
  buffer.hashed.isSome

/-- Add bytes at the end, if there is room for all of them. -/
def append? (buffer : MessageBuffer) (bytes : Bytes) : Option MessageBuffer :=
  if buffer.pending.length + bytes.length ≤ capacity then
    some { buffer with pending := buffer.pending ++ bytes }
  else
    none

/-- Absorb blocks from the front while more than one block is pending. -/
def absorbBlocks (stream : Blake2b.Stream) (pending : Bytes) : Blake2b.Stream × Bytes :=
  if Blake2b.blockSize < pending.length then
    absorbBlocks (stream.absorb (pending.take Blake2b.blockSize))
      (pending.drop Blake2b.blockSize)
  else
    (stream, pending)
termination_by pending.length
decreasing_by
  simp only [List.length_drop, Blake2b.blockSize] at *
  omega

/-- With no more than one block pending, nothing is absorbed. -/
theorem absorbBlocks_of_le {stream : Blake2b.Stream} {pending : Bytes}
    (short : pending.length ≤ Blake2b.blockSize) :
    absorbBlocks stream pending = (stream, pending) := by
  rw [absorbBlocks, if_neg (Nat.not_lt.2 short)]

/-- Absorbing loses no byte: the stream goes on to the same state with the pending
bytes, whether blocks were absorbed before or not. -/
theorem absorb_absorbBlocks (stream : Blake2b.Stream) (pending : Bytes) :
    (absorbBlocks stream pending).1.absorb (absorbBlocks stream pending).2 =
      stream.absorb pending := by
  fun_induction absorbBlocks stream pending with
  | case1 stream pending long ih =>
    rw [ih, ← Blake2b.Stream.absorb_append, List.take_append_drop]
  | case2 => rfl

/-- Begin hashing if it has not begun, and absorb all blocks but the last. -/
def absorb (buffer : MessageBuffer) : MessageBuffer :=
  let stream := buffer.hashed.getD Blake2b.Stream.empty
  let (stream, pending) := absorbBlocks stream buffer.pending
  { hashed := some stream, pending := pending }

/-- The digest of everything absorbed and pending, and the empty buffer that is left. -/
def finish (buffer : MessageBuffer) : Digest × MessageBuffer :=
  let absorbed := buffer.absorb
  let stream := absorbed.hashed.getD Blake2b.Stream.empty
  ((stream.absorb absorbed.pending).digest, empty)

/-- The digest of a buffer is that of the bytes absorbed so far and those pending. -/
theorem finish_eq (buffer : MessageBuffer) :
    buffer.finish =
      (((buffer.hashed.getD Blake2b.Stream.empty).absorb buffer.pending).digest, empty) := by
  simp only [finish, absorb, Option.getD_some, absorb_absorbBlocks]

/-- Forget the bytes absorbed so far; the pending bytes stay. -/
def clearHash (buffer : MessageBuffer) : MessageBuffer :=
  { buffer with hashed := none }

/-- The line that logs show for the hash of a buffer. -/
def hashSummary (buffer : MessageBuffer) : String :=
  s!"Hasher \x7b initialised: {buffer.hasBegun} \x7d"

end MessageBuffer

end TezosSigner
