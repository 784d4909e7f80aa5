/-
Module: TezosSigner.Proofs.Machine.Sessions
Purpose: Hashing, counting, classifying and wiping on a machine.
Main exports:
  MessageBuffer.absorbOn, MessageBuffer.finishOn, Session.nextPacketOn, Session.appendOn,
  Session.finishOn, Session.wipeOn, BakingPayload.ofBytesOn, and for each of them that it is free
  of faults
-/
import TezosSigner.Proofs.Machine.Access
import TezosSigner.Proofs.Message

namespace TezosSigner

namespace MessageBuffer

/-!
Blocks are absorbed through an offset that moves along the pending bytes, and what is left is
then moved to the front.  The offset stays within the pending bytes, because it moves by a block
only while more than a block is left.
-/

section Definitions

variable (machine : Machine)

/-- What is left behind the offset shrinks with every block. -/
theorem left_of_absorbed {length absorbed remaining next : Nat}
    (left : Checked.subtract length absorbed = .ok remaining)
    (more : Blake2b.blockSize < remaining)
    (moved : machine.add absorbed Blake2b.blockSize = .ok next) :
    length - next < length - absorbed := by
  have difference := (Checked.subtract_ok left).2
  have sum := Machine.add_ok moved
  rw [Blake2b.blockSize] at more sum
  omega

/-- Absorb blocks while more than one block is left behind the offset, and tell the offset that
it has come to. -/
def absorbBlocksOn (stream : Blake2b.Stream) (pending : Bytes) (absorbed : Nat) :
    Checked (Blake2b.Stream × Nat) :=
  match left : Checked.subtract pending.length absorbed with
  | .error fault => .error fault
  | .ok remaining =>
      if more : Blake2b.blockSize < remaining then do
        let block ← Slice.front (← Slice.rest pending absorbed) Blake2b.blockSize
        match moved : machine.add absorbed Blake2b.blockSize with
        | .error fault => .error fault
        | .ok next =>
            have _shrinks := left_of_absorbed machine left more moved
            absorbBlocksOn (stream.absorb block) pending next
      else
        .ok (stream, absorbed)
termination_by pending.length - absorbed

/-- Begin hashing if it has not begun, and absorb all blocks but the last. -/
def absorbOn (buffer : MessageBuffer) : Checked MessageBuffer := do
  let (stream, absorbed) ←
    absorbBlocksOn machine (buffer.hashed.getD Blake2b.Stream.empty) buffer.pending 0
  if 0 < absorbed then do
    let remaining ← Checked.subtract buffer.pending.length absorbed
    let moved ← Slice.moveDown absorbed buffer.pending
    .ok { hashed := some stream, pending := moved.take remaining }
  else
    .ok { hashed := some stream, pending := buffer.pending }

/-- The digest of everything absorbed and pending, and the empty buffer that is left. -/
def finishOn (buffer : MessageBuffer) : Checked (Digest × MessageBuffer) := do
  let absorbed ← buffer.absorbOn machine
  let stream := absorbed.hashed.getD Blake2b.Stream.empty
  .ok ((stream.absorb absorbed.pending).digest, empty)

end Definitions

variable {machine : Machine}

theorem absorbBlocksOn_of_more {stream : Blake2b.Stream} {pending block rest : Bytes}
    {absorbed next remaining : Nat}
    (left : Checked.subtract pending.length absorbed = .ok remaining)
    (more : Blake2b.blockSize < remaining) (behind : Slice.rest pending absorbed = .ok rest)
    (taken : Slice.front rest Blake2b.blockSize = .ok block)
    (moved : machine.add absorbed Blake2b.blockSize = .ok next) :
    absorbBlocksOn machine stream pending absorbed =
      absorbBlocksOn machine (stream.absorb block) pending next := by
  rw [absorbBlocksOn]
  split
  · rename_i fault
    rw [left] at fault
    cases fault
  · rename_i other
    rw [left] at other
    cases other
    rw [dif_pos more, behind, Checked.ok_bind, taken, Checked.ok_bind]
    split
    · rename_i fault
      rw [moved] at fault
      cases fault
    · rename_i other
      rw [moved] at other
      cases other
      rfl

theorem absorbBlocksOn_of_done {stream : Blake2b.Stream} {pending : Bytes}
    {absorbed remaining : Nat} (left : Checked.subtract pending.length absorbed = .ok remaining)
    (done : ¬ Blake2b.blockSize < remaining) :
    absorbBlocksOn machine stream pending absorbed = .ok (stream, absorbed) := by
  rw [absorbBlocksOn]
  split
  · rename_i fault
    rw [left] at fault
    cases fault
  · rename_i other
    rw [left] at other
    cases other
    rw [dif_neg done]

/-- The blocks behind the offset are absorbed but for the bytes held back, and the offset moves
by as much. -/
theorem absorbBlocksOn_append {stream : Blake2b.Stream} {before after : Bytes}
    (small : before.length + after.length < 65536) :
    absorbBlocksOn machine stream (before ++ after) before.length =
      .ok ((absorbBlocks stream after).1,
        before.length + (after.length - heldBack after.length)) := by
  have left {before after : Bytes} :
      Checked.subtract (before ++ after).length before.length = .ok after.length := by
    rw [List.length_append, Checked.subtract_eq (by omega), Nat.add_sub_cancel_left]
  fun_induction absorbBlocks stream after generalizing before with
  | case1 stream after long ih =>
    have moved : (before ++ after.take Blake2b.blockSize).length =
        before.length + Blake2b.blockSize := by
      rw [List.length_append, List.length_take]
      omega
    have held := heldBack_le (after.length - Blake2b.blockSize)
    rw [heldBack_sub long] at held
    have next := @ih (before ++ after.take Blake2b.blockSize) (by
      rw [moved, List.length_drop]
      omega)
    rw [List.append_assoc, List.take_append_drop, moved, List.length_drop,
      heldBack_sub long] at next
    rw [absorbBlocksOn_of_more left long (Slice.rest_append rfl)
      (Slice.front_eq (Nat.le_of_lt long)) (Machine.add_small (by omega)), next]
    congr 2
    omega
  | case2 stream after short =>
    have held : heldBack after.length = after.length := if_pos (Nat.le_of_not_lt short)
    rw [absorbBlocksOn_of_done left short, held, Nat.sub_self, Nat.add_zero]

/-- Blocks are absorbed in bounds, and as they should be. -/
theorem absorbOn_eq {buffer : MessageBuffer} (small : buffer.pending.length < 65536) :
    buffer.absorbOn machine = .ok buffer.absorb := by
  have held := heldBack_le buffer.pending.length
  have blocks := @absorbBlocksOn_append machine (buffer.hashed.getD Blake2b.Stream.empty) []
    buffer.pending (by simpa using small)
  simp only [List.nil_append, List.length_nil, Nat.zero_add] at blocks
  rw [absorbOn, blocks, Checked.ok_bind, absorb_eq, absorbBlocks_eq]
  dsimp only
  split
  · rename_i moves
    rw [Checked.subtract_eq (by omega), Checked.ok_bind, Slice.moveDown,
      Slice.rest_eq (by omega), Checked.ok_bind, Checked.ok_bind, List.take_left']
    rw [List.length_drop]
  · rename_i stays
    have none : buffer.pending.length - heldBack buffer.pending.length = 0 := by omega
    rw [none, List.drop_zero]

/-- A message is finished in bounds, and as it should be. -/
theorem finishOn_eq {buffer : MessageBuffer} (small : buffer.pending.length < 65536) :
    buffer.finishOn machine = .ok buffer.finish := by
  rw [finishOn, absorbOn_eq small, Checked.ok_bind, finish]

end MessageBuffer

namespace Session

section Definitions

variable (machine : Machine)

/-- Count one more packet, while there is room in the counter. -/
def countOn (session : Session) : Checked (Except SignerError UInt8 × Session) :=
  if session.packets ≥ maxPackets then
    .ok (.error .parseError, session)
  else do
    let packets ← Checked.increment session.packets
    .ok (.ok packets, { session with packets := packets })

/-- Count a data packet, and note if only the hash is wanted. -/
def nextPacketOn (session : Session) (kind : PacketKind) :
    Checked (Except SignerError UInt8 × Session) :=
  match kind with
  | .first => .ok (.error .wrongParameter, session)
  | .next => countOn session
  | .hashOnlyNext => countOn { session with hashOnly := true }

/-- Make room by moving whole blocks into the hash, where the message is hashed. -/
def absorbOn (session : Session) : Checked Session :=
  if session.isHashing then do
    let message ← session.message.absorbOn machine
    .ok { session with message := message }
  else
    .ok session

/-- Add bytes to the message. -/
def appendOn (session : Session) (bytes : Bytes) :
    Checked (Except SignerError Unit × Session) := do
  let absorbed ← session.absorbOn machine
  match absorbed.message.append? bytes with
  | some message => .ok (.ok (), { absorbed with message := message })
  | none => .ok (.error .parseError, absorbed)

/-- Finish the message: compute its hash, where it is hashed. -/
def finishOn (session : Session) : Checked Session :=
  if session.isHashing then do
    let (digest, message) ← session.message.finishOn machine
    .ok { session with message := message, finalHash := some digest }
  else
    .ok session

/-- Wipe a session.  Its buffer is first filled up, so that bytes behind the message are
overwritten too. -/
def wipeOn (session : Session) : Checked Session := do
  let _filled ← Slice.resize MessageBuffer.capacity MessageBuffer.capacity session.message.pending
  .ok session.wipe

end Definitions

variable {machine : Machine}

theorem countOn_eq (session : Session) : session.countOn = .ok (nextPacket.count session) := by
  have byte := session.packets.toNat_lt
  rw [countOn, nextPacket.count]
  by_cases room : session.packets < maxPackets
  · have below : session.packets.toNat < 255 := room
    rw [if_neg (UInt8.not_le.2 room), if_pos room, Checked.increment, if_pos (by omega)]
    rfl
  · rw [if_pos (UInt8.not_lt.1 room), if_neg room]

/-- The packet counter does not wrap. -/
theorem nextPacketOn_eq (session : Session) (kind : PacketKind) :
    session.nextPacketOn kind = .ok (session.nextPacket kind) := by
  cases kind with
  | first => rfl
  | next => exact countOn_eq session
  | hashOnlyNext => exact countOn_eq { session with hashOnly := true }

theorem absorbOn_eq {session : Session} (small : session.message.pending.length < 65536) :
    session.absorbOn machine = .ok session.absorb := by
  rw [absorbOn, absorb]
  split
  · rw [MessageBuffer.absorbOn_eq small, Checked.ok_bind]
  · rfl

/-- Bytes are added in bounds, and as they should be. -/
theorem appendOn_eq {session : Session} (small : session.message.pending.length < 65536)
    (bytes : Bytes) : session.appendOn machine bytes = .ok (session.append bytes) := by
  rw [appendOn, absorbOn_eq small, Checked.ok_bind, append]
  cases session.absorb.message.append? bytes <;> rfl

/-- A message is finished in bounds, and as it should be. -/
theorem finishOn_eq {session : Session} (small : session.message.pending.length < 65536) :
    session.finishOn machine = .ok session.finish := by
  rw [finishOn, finish]
  split
  · rw [MessageBuffer.finishOn_eq small, Checked.ok_bind]
  · rfl

/-- A message that took more bytes keeps to its buffer. -/
theorem length_pending_append {session appended : Session} {bytes : Bytes}
    (h : session.append bytes = (.ok (), appended)) :
    appended.message.pending.length ≤ MessageBuffer.capacity := by
  unfold append at h
  dsimp only at h
  split at h
  · rename_i message added
    cases h
    unfold MessageBuffer.append? at added
    split at added
    · rename_i room
      cases added
      rw [List.length_append]
      exact room
    · cases added
  · cases h

/-- Filling up the buffer is not refused. -/
theorem wipeOn_eq (session : Session) : session.wipeOn = .ok session.wipe :=
  rfl

end Session

namespace BakingPayload

/-- Read a chain, and a level between the given offsets. -/
def readOn (bytes : Bytes) (levelStart levelStop : Nat) (endorsement : Bool) :
    Checked (Option BakingPayload) := do
  let chain ← Slice.field 4 (← Slice.range bytes 1 5)
  let level ← Slice.word (← Slice.range bytes levelStart levelStop)
  .ok (some { chain := chain, mark := { level := level, endorsement := endorsement } })

/-- Read a block or an endorsement. -/
def ofBytesOn (bytes : Bytes) : Checked (Option BakingPayload) :=
  match Magic.ofPayload bytes with
  | .block => if blockLength ≤ bytes.length then readOn bytes 5 9 false else .ok none
  | .endorsement =>
      if bytes.length = endorsementLength then readOn bytes 38 42 true else .ok none
  | _ => .ok none

/-- A range of four bytes that lies within a byte string. -/
theorem exists_range {bytes : Bytes} {start : Nat} (enough : start + 4 ≤ bytes.length) :
    ∃ a b c d rest, bytes.drop start = a :: b :: c :: d :: rest ∧
      Slice.range bytes start (start + 4) = .ok [a, b, c, d] := by
  have long : 4 ≤ (bytes.drop start).length := by
    rw [List.length_drop]
    omega
  rw [Slice.range_eq (by omega) enough, List.drop_take, Nat.add_sub_cancel_left]
  match bytes.drop start, long with
  | a :: b :: c :: d :: rest, _ => exact ⟨a, b, c, d, rest, rfl, rfl⟩

/-- A chain and a level are read in bounds, and as they should be. -/
theorem readOn_eq {bytes : Bytes} {start : Nat} (chain : 5 ≤ bytes.length)
    (level : start + 4 ≤ bytes.length) (endorsement : Bool) :
    readOn bytes start (start + 4) endorsement = .ok (read? bytes start endorsement) := by
  obtain ⟨_, _, _, _, _, chainBytes, chainRange⟩ := @exists_range bytes 1 chain
  obtain ⟨_, _, _, _, _, levelBytes, levelRange⟩ := exists_range level
  rw [readOn, chainRange, Checked.ok_bind, levelRange, read?, chainBytes, levelBytes]
  rfl

/-- A block or an endorsement is read in bounds, and as it should be. -/
theorem ofBytesOn_eq (bytes : Bytes) : ofBytesOn bytes = .ok (ofBytes? bytes) := by
  rw [ofBytesOn, ofBytes?]
  cases Magic.ofPayload bytes with
  | block =>
    dsimp only
    split
    · rename_i enough
      rw [blockLength] at enough
      exact readOn_eq (by omega) (by omega) false
    · rfl
  | endorsement =>
    dsimp only
    split
    · rename_i exact'
      rw [endorsementLength] at exact'
      exact readOn_eq (by omega) (by omega) true
    · rfl
  | _ => rfl

end BakingPayload

end TezosSigner
