/-
Module: TezosSigner.Proofs.Chunks
Purpose: A session hashes the chunks that it has accepted, however its message was cut.
Main exports:
  Session.Op, Session.Op.apply, Session.after, Session.chunks, Session.Streams,
  Session.HashesChunks, Session.chunk_invariant
-/
import TezosSigner.Proofs.SinglePacket

namespace TezosSigner

namespace Session

/-!
The bytes of a message move: a chunk is added behind the bytes that are pending, and whole blocks
leave the front of them for the hash before the next chunk comes.  What a session hashes is told
without any of this: it is the chunks that were accepted since the message last began, one after
the other.  `Session.chunks` collects them from the outcomes of the operations alone.
-/

/-- What can be done with a session, in any order. -/
inductive Op where
  | nextPacket (kind : PacketKind)
  | append (chunk : Bytes)
  | classifyAs (magic : Magic) (parsed : Parsed)
  | invalidate
  | finish
  | wipe

/-- The session that an operation leaves, also where it fails. -/
def Op.apply (session : Session) : Op → Session
  | .nextPacket kind => (session.nextPacket kind).2
  | .append chunk => (session.append chunk).2
  | .classifyAs magic parsed => session.classifyAs magic parsed
  | .invalidate => session.invalidate
  | .finish => session.finish
  | .wipe => session.wipe

/-- The chunks of the message under way after an operation: a chunk that was accepted comes last,
and a message that was finished or wiped has none. -/
def Op.collect (session : Session) (chunks : List Bytes) : Op → List Bytes
  | .append chunk =>
      match (session.append chunk).1 with
      | .ok _ => chunks ++ [chunk]
      | .error _ => chunks
  | .finish => []
  | .wipe => []
  | .nextPacket _ => chunks
  | .classifyAs _ _ => chunks
  | .invalidate => chunks

/-- The session that operations leave. -/
def after (session : Session) (ops : List Op) : Session :=
  ops.foldl Op.apply session

/-- The chunks that were accepted since the message last began, behind those that it had. -/
def collected (session : Session) (chunks : List Bytes) : List Op → List Bytes
  | [] => chunks
  | op :: ops => (op.apply session).collected (op.collect session chunks) ops

/-- The chunks that were accepted since the message last began: since the start, or since it was
last finished or wiped. -/
def chunks (session : Session) (ops : List Op) : List Bytes :=
  session.collected [] ops

/-- A session whose hash under way is that of the given bytes. -/
structure Streams (session : Session) (bytes : Bytes) : Prop where
  hashing : session.isHashing = true
  stream : session.message.stream = Blake2b.Stream.empty.absorb bytes

variable {session : Session} {bytes : Bytes}

theorem Streams.start {instruction : Instruction} {key : KeyPath}
    (hashed : instruction = .sign ∨ instruction = .signWithHash)
    (started : Session.start instruction key = .ok session) : session.Streams [] := by
  have signing : instruction.isSigning = true := by
    rcases hashed with rfl | rfl <;> rfl
  rw [start_eq signing] at started
  cases started
  exact ⟨isHashing_opened hashed, rfl⟩

/-- Counting a packet leaves the message alone, whether there is room for it or not. -/
theorem nextPacket_snd (session : Session) (kind : PacketKind) :
    ∃ packets flag, (session.nextPacket kind).2 =
      { session with packets := packets, hashOnly := flag } := by
  cases kind with
  | first => exact ⟨session.packets, session.hashOnly, rfl⟩
  | next =>
    simp only [nextPacket, nextPacket.count]
    split
    · exact ⟨session.packets + 1, session.hashOnly, rfl⟩
    · exact ⟨session.packets, session.hashOnly, rfl⟩
  | hashOnlyNext =>
    simp only [nextPacket, nextPacket.count]
    split
    · exact ⟨session.packets + 1, true, rfl⟩
    · exact ⟨session.packets, true, rfl⟩

/-- A chunk is added to the hash under way, or makes no difference to it. -/
theorem Streams.append (streams : session.Streams bytes) (chunk : Bytes) :
    (session.append chunk).2.Streams
      (match (session.append chunk).1 with
        | .ok _ => bytes ++ chunk
        | .error _ => bytes) := by
  obtain ⟨hashing, stream⟩ := streams
  have moved := MessageBuffer.stream_absorb session.message
  rw [append_of_hashing hashing]
  split
  · exact ⟨hashing, moved.trans stream⟩
  · refine ⟨hashing, ?_⟩
    rw [Blake2b.Stream.absorb_append, ← stream, ← moved]
    exact Blake2b.Stream.absorb_append _ _ _

/-- Every operation keeps a session to the chunks that it has accepted. -/
theorem Streams.apply {chunks : List Bytes} (streams : session.Streams chunks.flatten) (op : Op) :
    (op.apply session).Streams (op.collect session chunks).flatten := by
  cases op with
  | nextPacket kind =>
    obtain ⟨packets, flag, counted⟩ := nextPacket_snd session kind
    simp only [Op.apply, Op.collect, counted]
    exact ⟨streams.hashing, streams.stream⟩
  | append chunk =>
    have appended := streams.append chunk
    simp only [Op.apply, Op.collect]
    split at appended <;> rename_i outcome <;> simpa [outcome] using appended
  | classifyAs magic parsed => exact ⟨streams.hashing, streams.stream⟩
  | invalidate => exact ⟨streams.hashing, streams.stream⟩
  | finish =>
    simp only [Op.apply, finish_of_hashing streams.hashing]
    exact ⟨streams.hashing, rfl⟩
  | wipe => exact ⟨streams.hashing, rfl⟩

/-- After any operations, the hash under way is that of the chunks accepted for it. -/
theorem Streams.run {chunks : List Bytes} (streams : session.Streams chunks.flatten)
    (ops : List Op) : (session.after ops).Streams (session.collected chunks ops).flatten := by
  induction ops generalizing session chunks with
  | nil => exact streams
  | cons op ops ih => exact ih (streams.apply op)

theorem Streams.finalHash_finish (streams : session.Streams bytes) :
    session.finish.finalHash = some (Blake2b.hash bytes) := by
  rw [finish_of_hashing streams.hashing, streams.stream, Blake2b.Stream.digest_absorb]

/-- What a chunk that is refused leaves: the pending bytes are cut in two, the hash has taken the
front, and the rest is pending. -/
structure Shifts (session left : Session) : Prop where
  /-- Nothing but the message buffer has changed. -/
  unchanged : left = { session with message := left.message }
  shifted : ∃ front, session.message.pending = front ++ left.message.pending ∧
    left.message.hashed =
      some ((session.message.hashed.getD Blake2b.Stream.empty).absorb front)
  tail : left.message.pending.length = MessageBuffer.heldBack session.message.pending.length
  /-- The message is finished by the hash that it would have had. -/
  finalHash : left.finish.finalHash = session.finish.finalHash

/-- How a session deals with chunks: with those that it has accepted, and with the next one. -/
structure HashesChunks (session : Session) (chunks : List Bytes) : Prop where
  finalHash : session.finish.finalHash = some (Blake2b.hash chunks.flatten)
  emptied : session.finish.message.pending = []
  /-- A chunk is refused exactly if it does not fit behind the bytes held back. -/
  outcome : ∀ chunk, (session.append chunk).1 =
    if 1024 < MessageBuffer.heldBack session.message.pending.length + chunk.length then
      .error .parseError
    else .ok ()
  refused : ∀ chunk error, (session.append chunk).1 = .error error →
    session.Shifts (session.append chunk).2

/-- A chunk that is refused is not added, and no byte is lost. -/
theorem Streams.shifts (streams : session.Streams bytes) {chunk : Bytes} {error : SignerError}
    (refused : (session.append chunk).1 = .error error) :
    session.Shifts (session.append chunk).2 := by
  have kept := streams.append chunk
  rw [refused] at kept
  have left : (session.append chunk).2 = { session with message := session.message.absorb } := by
    rw [append_of_hashing streams.hashing] at refused ⊢
    split at refused
    · rename_i full
      rw [if_pos full]
    · cases refused
  refine { unchanged := by rw [left], shifted := ?_, tail := ?_, finalHash := ?_ }
  · rw [left, MessageBuffer.absorb_eq]
    exact ⟨_, (List.take_append_drop _ _).symm, rfl⟩
  · rw [left, MessageBuffer.length_pending_absorb]
  · rw [kept.finalHash_finish, streams.finalHash_finish]

theorem Streams.hashesChunks {chunks : List Bytes} (streams : session.Streams chunks.flatten) :
    session.HashesChunks chunks where
  finalHash := streams.finalHash_finish
  emptied := by
    rw [finish_of_hashing streams.hashing]
    rfl
  outcome := by
    intro chunk
    rw [append_of_hashing streams.hashing]
    split <;> rename_i room
    · exact (if_pos room).symm
    · exact (if_neg room).symm
  refused := fun _ _ refused => streams.shifts refused

/-- A session for a hashed signature hashes the chunks that it has accepted since its message last
began, after any operations: its hash is that of their concatenation, so two messages of the same
bytes have the same hash, however each was cut. -/
theorem chunk_invariant {instruction : Instruction} {key : KeyPath} {opened : Session}
    (hashed : instruction = .sign ∨ instruction = .signWithHash)
    (started : Session.start instruction key = .ok opened) (ops : List Op) :
    (opened.after ops).HashesChunks (opened.chunks ops) ∧
      ∀ other key' opened' ops', other = .sign ∨ other = .signWithHash →
        Session.start other key' = .ok opened' →
        (Session.chunks opened' ops').flatten = (opened.chunks ops).flatten →
          (Session.after opened' ops').finish.finalHash = (opened.after ops).finish.finalHash := by
  have streams : (opened.after ops).Streams (opened.chunks ops).flatten :=
    Streams.run (.start hashed started) ops
  refine ⟨streams.hashesChunks, ?_⟩
  intro other key' opened' ops' hashed' started' same
  have streams' : (Session.after opened' ops').Streams (Session.chunks opened' ops').flatten :=
    Streams.run (.start hashed' started') ops'
  rw [streams.finalHash_finish, streams'.finalHash_finish]
  exact congrArg (fun bytes => some (Blake2b.hash bytes)) same

/-- The second chunk of three does not fit, and is not hashed. -/
def unfitOps : List Op :=
  [.nextPacket .next, .append [0x03], .append (List.replicate 1024 0x00), .append [0x05]]

theorem unfit_chunk_unhashed :
    Session.start .sign bakingKey = .ok (opened .sign bakingKey) ∧
      (opened .sign bakingKey).chunks unfitOps = [[0x03], [0x05]] ∧
      ((opened .sign bakingKey).after unfitOps).finish.finalHash =
        some (Blake2b.hash [0x03, 0x05]) := by
  have accepted : (opened .sign bakingKey).chunks unfitOps = [[0x03], [0x05]] := by
    decide +kernel
  have hashes := (chunk_invariant (.inl rfl) (start_eq rfl bakingKey) unfitOps).1.finalHash
  rw [accepted] at hashes
  exact ⟨start_eq rfl bakingKey, accepted, hashes⟩

end Session

end TezosSigner
