/-
Module: TezosSigner.Proofs.Message
Purpose: The stream that stands behind a message buffer, and what each operation adds to it.
Main exports:
  MessageBuffer.stream, MessageBuffer.stream_absorb, MessageBuffer.stream_append?,
  MessageBuffer.heldBack, MessageBuffer.absorb_eq, MessageBuffer.finish_fst,
  Session.append_of_hashing, Session.append_of_raw
-/
import TezosSigner.Session

namespace TezosSigner

namespace MessageBuffer

/-!
A buffer stands for all the bytes it has taken, wherever they are by now: in the hash, or
still pending.  `stream` is the hash that has taken every one of them.  Absorbing moves
bytes about and leaves it alone; appending adds to it; the digest of a buffer is the digest
of its stream.
-/

/-- The hash of all the bytes that a buffer has taken. -/
def stream (buffer : MessageBuffer) : Blake2b.Stream :=
  (buffer.hashed.getD Blake2b.Stream.empty).absorb buffer.pending

/-- Absorbing blocks does not change what the buffer stands for. -/
@[simp] theorem stream_absorb (buffer : MessageBuffer) : buffer.absorb.stream = buffer.stream := by
  have moved := absorb_absorbBlocks (buffer.hashed.getD Blake2b.Stream.empty) buffer.pending
  simpa only [stream, absorb, Option.getD_some] using moved

/-- Appended bytes come after those already taken. -/
theorem stream_append? {buffer appended : MessageBuffer} {bytes : Bytes}
    (h : buffer.append? bytes = some appended) :
    appended.stream = buffer.stream.absorb bytes := by
  unfold append? at h
  split at h
  · cases h
    simp only [stream, Blake2b.Stream.absorb_append]
  · cases h

theorem pending_append? {buffer appended : MessageBuffer} {bytes : Bytes}
    (h : buffer.append? bytes = some appended) :
    appended = { buffer with pending := buffer.pending ++ bytes } := by
  unfold append? at h
  split at h
  · cases h
    rfl
  · cases h

/-- The number of pending bytes that absorbing holds back: all of them while they are no more
than a block, and else those behind the last boundary of blocks that has a byte behind it. -/
def heldBack (count : Nat) : Nat :=
  if count ≤ Blake2b.blockSize then count else (count - 1) % Blake2b.blockSize + 1

theorem heldBack_le_blockSize (count : Nat) : heldBack count ≤ Blake2b.blockSize := by
  unfold heldBack
  split
  · assumption
  · exact Nat.mod_lt _ (by decide)

theorem heldBack_le (count : Nat) : heldBack count ≤ count := by
  unfold heldBack
  split
  · exact Nat.le_refl count
  · rename_i long
    have below := Nat.mod_le (count - 1) Blake2b.blockSize
    omega

/-- A buffer that holds anything holds back something. -/
theorem heldBack_pos {count : Nat} (some : 0 < count) : 0 < heldBack count := by
  unfold heldBack
  split
  · exact some
  · exact Nat.succ_pos _

/-- A block that is absorbed does not change what is held back. -/
theorem heldBack_sub {count : Nat} (long : Blake2b.blockSize < count) :
    heldBack (count - Blake2b.blockSize) = heldBack count := by
  have size : Blake2b.blockSize = 128 := rfl
  rw [heldBack, heldBack, if_neg (Nat.not_le.2 long), size]
  rw [size] at long
  split <;> omega

/-- Absorbing moves a front of the pending bytes into the hash, in their order. -/
theorem absorbBlocks_eq (stream : Blake2b.Stream) (pending : Bytes) :
    absorbBlocks stream pending =
      (stream.absorb (pending.take (pending.length - heldBack pending.length)),
        pending.drop (pending.length - heldBack pending.length)) := by
  fun_induction absorbBlocks stream pending with
  | case1 stream pending long ih =>
    have counts : pending.length - heldBack pending.length =
        Blake2b.blockSize + (pending.length - Blake2b.blockSize - heldBack pending.length) := by
      have held := heldBack_le (pending.length - Blake2b.blockSize)
      rw [heldBack_sub long] at held
      omega
    rw [ih, List.length_drop, heldBack_sub long, counts, List.take_add,
      Blake2b.Stream.absorb_append, List.drop_drop]
  | case2 stream pending short =>
    have held : heldBack pending.length = pending.length := if_pos (Nat.le_of_not_lt short)
    rw [held, Nat.sub_self]
    rfl

/-- What absorbing leaves: the bytes held back are pending, and the hash has taken those before
them. -/
theorem absorb_eq (buffer : MessageBuffer) :
    buffer.absorb =
      { hashed := some ((buffer.hashed.getD Blake2b.Stream.empty).absorb
          (buffer.pending.take (buffer.pending.length - heldBack buffer.pending.length)))
        pending := buffer.pending.drop (buffer.pending.length - heldBack buffer.pending.length) } := by
  simp only [absorb, absorbBlocks_eq]

/-- With no more than a block pending, absorbing begins the hash and does nothing else. -/
theorem absorb_of_short {buffer : MessageBuffer}
    (short : buffer.pending.length ≤ Blake2b.blockSize) :
    buffer.absorb =
      { buffer with hashed := some (buffer.hashed.getD Blake2b.Stream.empty) } := by
  simp only [absorb, absorbBlocks_of_le short]

theorem length_pending_absorb (buffer : MessageBuffer) :
    buffer.absorb.pending.length = heldBack buffer.pending.length := by
  have held := heldBack_le buffer.pending.length
  simp only [absorb_eq, List.length_drop]
  omega

/-- The digest of a buffer is that of everything it has taken. -/
theorem finish_fst (buffer : MessageBuffer) : buffer.finish.1 = buffer.stream.digest := by
  rw [finish_eq]
  rfl

end MessageBuffer

namespace Session

variable {session : Session}

/-- Making room changes the message buffer only. -/
theorem absorb_eq : ∃ message, session.absorb = { session with message := message } ∧
    message.stream = session.message.stream ∧
    (session.isHashing = false → message = session.message) := by
  unfold absorb
  split
  · rename_i hashing
    exact ⟨session.message.absorb, rfl, MessageBuffer.stream_absorb _, by simp [hashing]⟩
  · exact ⟨session.message, rfl, rfl, fun _ => rfl⟩

/-- Bytes that were added are behind those already taken; a message that is not hashed
stays as it is. -/
theorem append_ok {bytes : Bytes} {appended : Session}
    (h : session.append bytes = (.ok (), appended)) :
    ∃ message, appended = { session with message := message } ∧
      message.stream = session.message.stream.absorb bytes ∧
      (session.isHashing = false →
        message = { session.message with pending := session.message.pending ++ bytes }) := by
  obtain ⟨room, absorbed, same, raw⟩ := @absorb_eq session
  simp only [append, absorbed] at h
  split at h
  · rename_i message taken
    cases h
    refine ⟨message, rfl, ?_, ?_⟩
    · rw [MessageBuffer.stream_append? taken, same]
    · intro unhashed
      rw [MessageBuffer.pending_append? taken, raw unhashed]
  · cases h

/-- Bytes are added to a hashed message once blocks were absorbed, if there is room then. -/
theorem append_of_hashing (hashing : session.isHashing = true) (bytes : Bytes) :
    session.append bytes =
      if MessageBuffer.capacity <
          MessageBuffer.heldBack session.message.pending.length + bytes.length then
        (.error .parseError, { session with message := session.message.absorb })
      else
        (.ok (), { session with message := { session.message.absorb with
          pending := session.message.absorb.pending ++ bytes } }) := by
  have absorbed : session.absorb = { session with message := session.message.absorb } :=
    if_pos hashing
  rw [append, absorbed]
  simp only [MessageBuffer.append?, MessageBuffer.length_pending_absorb]
  by_cases room : MessageBuffer.heldBack session.message.pending.length + bytes.length ≤
      MessageBuffer.capacity
  · rw [if_pos room, if_neg (Nat.not_lt.2 room)]
  · rw [if_neg room, if_pos (Nat.lt_of_not_le room)]

/-- Bytes are added to a message that is not hashed if there is room for all of it. -/
theorem append_of_raw (raw : session.isHashing = false) (bytes : Bytes) :
    session.append bytes =
      if MessageBuffer.capacity < session.message.pending.length + bytes.length then
        (.error .parseError, session)
      else
        (.ok (), { session with message := { session.message with
          pending := session.message.pending ++ bytes } }) := by
  have absorbed : session.absorb = session := by simp [absorb, raw]
  rw [append, absorbed]
  simp only [MessageBuffer.append?]
  by_cases room : session.message.pending.length + bytes.length ≤ MessageBuffer.capacity
  · rw [if_pos room, if_neg (Nat.not_lt.2 room)]
  · rw [if_neg room, if_pos (Nat.lt_of_not_le room)]

/-- A hashed message is finished by the digest of everything it has taken. -/
theorem finish_of_hashing (hashing : session.isHashing = true) :
    session.finish = { session with
      message := MessageBuffer.empty, finalHash := some session.message.stream.digest } := by
  have digest := MessageBuffer.finish_fst session.message
  have emptied : session.message.finish.2 = MessageBuffer.empty := by
    rw [MessageBuffer.finish_eq]
  unfold finish
  rw [if_pos hashing, ← digest, ← emptied]

@[simp] theorem isHashing_finish : session.finish.isHashing = session.isHashing := by
  unfold finish
  split <;> rfl

@[simp] theorem instruction_finish : session.finish.instruction = session.instruction := by
  unfold finish
  split <;> rfl

@[simp] theorem key_finish : session.finish.key = session.key := by
  unfold finish
  split <;> rfl

@[simp] theorem magic_finish : session.finish.magic = session.magic := by
  unfold finish
  split <;> rfl

@[simp] theorem parsed_finish : session.finish.parsed = session.parsed := by
  unfold finish
  split <;> rfl

@[simp] theorem hashOnly_finish : session.finish.hashOnly = session.hashOnly := by
  unfold finish
  split <;> rfl

theorem finish_of_raw (raw : session.isHashing = false) : session.finish = session := by
  simp [finish, raw]

end Session

end TezosSigner
