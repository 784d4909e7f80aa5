/-
Module: TezosSigner.Proofs.Machine.Hashing
Purpose: What a buffer hashes after any appends, absorptions, finishes and clearings.
Main exports:
  MessageBuffer.blocks, MessageBuffer.Absorbs, MessageBuffer.absorbs_blocks, MessageBuffer.Op,
  MessageBuffer.after, MessageBuffer.afterOn, MessageBuffer.absorbed, MessageBuffer.Hashes,
  MessageBuffer.hashes_after
-/
import Mathlib.Data.List.Induction
import TezosSigner.Proofs.Machine.Sessions

namespace TezosSigner

namespace MessageBuffer

/-!
A byte that enters a buffer is pending first, and is then absorbed by the hash with the whole block
that it stands in.  Two operations throw bytes away, and not the same ones: to finish a message
takes both the absorbed and the pending bytes into its digest and drops them all, to clear the hash
drops those that were absorbed and leaves those that are pending.

The hash itself does not show which bytes it has absorbed.  `absorbed` collects them from what has
left the front of the buffer, and every operation keeps the hash to them.
-/

/-- The blocks that absorbing takes off the front of the pending bytes. -/
def blocks (pending : Bytes) : List Bytes :=
  if Blake2b.blockSize < pending.length then
    pending.take Blake2b.blockSize :: blocks (pending.drop Blake2b.blockSize)
  else
    []
termination_by pending.length
decreasing_by
  simp only [List.length_drop, Blake2b.blockSize] at *
  omega

theorem length_of_mem_blocks {pending block : Bytes} (mem : block ∈ blocks pending) :
    block.length = Blake2b.blockSize := by
  fun_induction blocks pending with
  | case1 pending long ih =>
    cases mem with
    | head =>
      rw [List.length_take]
      omega
    | tail _ later => exact ih later
  | case2 => cases mem

/-- The blocks end where the bytes that are held back begin. -/
theorem length_blocks_mul (pending : Bytes) :
    (blocks pending).length * Blake2b.blockSize =
      pending.length - heldBack pending.length := by
  fun_induction blocks pending with
  | case1 pending long ih =>
    have held := heldBack_le (pending.length - Blake2b.blockSize)
    rw [List.length_drop, heldBack_sub long] at ih
    rw [heldBack_sub long] at held
    rw [List.length_cons, Nat.add_mul, ih]
    omega
  | case2 pending short =>
    have held : heldBack pending.length = pending.length := if_pos (Nat.le_of_not_lt short)
    rw [held, Nat.sub_self]
    rfl

/-- Absorbing takes the blocks one after the other, and leaves what is behind them. -/
theorem absorbBlocks_eq_foldl (stream : Blake2b.Stream) (pending : Bytes) :
    (absorbBlocks stream pending).1 = (blocks pending).foldl Blake2b.Stream.absorb stream ∧
      pending = (blocks pending).flatten ++ (absorbBlocks stream pending).2 := by
  fun_induction absorbBlocks stream pending with
  | case1 stream pending long ih =>
    obtain ⟨taken, split⟩ := ih
    rw [blocks, if_pos long]
    refine ⟨taken, ?_⟩
    rw [List.flatten_cons, List.append_assoc, ← split, List.take_append_drop]
  | case2 stream pending short =>
    rw [blocks, if_neg short]
    exact ⟨rfl, rfl⟩

/-- What is absorbed by a buffer, and how a machine comes to it. -/
structure Absorbs (machine : Machine) (buffer : MessageBuffer) (taken : List Bytes) : Prop where
  whole : ∀ block ∈ taken, block.length = 128
  /-- The loop ends, and its offset has passed no more than the pending bytes. -/
  loop : ∀ stream, absorbBlocksOn machine stream buffer.pending 0 =
    .ok (taken.foldl Blake2b.Stream.absorb stream, taken.length * 128)
  within : taken.length * 128 ≤ buffer.pending.length
  carriedOut : buffer.absorbOn machine = .ok buffer.absorb
  hashed : buffer.absorb.hashed =
    some (taken.foldl Blake2b.Stream.absorb (buffer.hashed.getD Blake2b.Stream.empty))
  suffix : buffer.pending = taken.flatten ++ buffer.absorb.pending
  held : buffer.absorb.pending.length =
    if buffer.pending.length ≤ 128 then buffer.pending.length
    else (buffer.pending.length - 1) % 128 + 1
  nonempty : buffer.pending ≠ [] → buffer.absorb.pending ≠ []
  /-- There is nothing more to absorb. -/
  settled : ∀ stream, absorbBlocksOn machine stream buffer.absorb.pending 0 = .ok (stream, 0)
  again : buffer.absorb.absorb = buffer.absorb

variable {machine : Machine} {buffer : MessageBuffer}

/-- Every buffer absorbs the whole blocks of its pending bytes. -/
theorem absorbs_blocks (small : buffer.pending.length < 65536) :
    buffer.Absorbs machine (blocks buffer.pending) := by
  have counted : (blocks buffer.pending).length * 128 =
      buffer.pending.length - heldBack buffer.pending.length := length_blocks_mul buffer.pending
  have held := heldBack_le buffer.pending.length
  have short : buffer.absorb.pending.length ≤ Blake2b.blockSize := by
    rw [length_pending_absorb]
    exact heldBack_le_blockSize _
  have blocksOf := absorbBlocks_eq_foldl (buffer.hashed.getD Blake2b.Stream.empty) buffer.pending
  refine {
    whole := fun block => length_of_mem_blocks
    loop := ?_
    within := by omega
    carriedOut := absorbOn_eq small
    hashed := congrArg some blocksOf.1
    suffix := blocksOf.2
    held := length_pending_absorb buffer
    nonempty := ?_
    settled := ?_
    again := ?_ }
  · intro stream
    have loop := @absorbBlocksOn_append machine stream [] buffer.pending (by simpa using small)
    rw [(absorbBlocks_eq_foldl stream buffer.pending).1, ← counted] at loop
    simpa only [List.nil_append, List.length_nil, Nat.zero_add] using loop
  · intro some
    have left := heldBack_pos (List.length_pos_iff.2 some)
    rw [← length_pending_absorb] at left
    exact List.length_pos_iff.1 left
  · intro stream
    exact absorbBlocksOn_of_done (Checked.subtract_eq (Nat.zero_le _)) (Nat.not_lt.2 short)
  · rw [absorb_of_short short]
    rfl

/-- What can be done with a buffer, in any order. -/
inductive Op where
  | append (bytes : Bytes)
  | absorb
  | finish
  | clearHash
deriving Repr, DecidableEq

/-- The buffer that an operation leaves; bytes that do not fit are not appended. -/
def Op.apply (buffer : MessageBuffer) : Op → MessageBuffer
  | .append bytes => (buffer.append? bytes).getD buffer
  | .absorb => buffer.absorb
  | .finish => buffer.finish.2
  | .clearHash => buffer.clearHash

/-- The same, as a machine carries it out. -/
def Op.applyOn (machine : Machine) (buffer : MessageBuffer) : Op → Checked MessageBuffer
  | .append bytes => .ok ((buffer.append? bytes).getD buffer)
  | .absorb => buffer.absorbOn machine
  | .finish => do
      let (_digest, left) ← buffer.finishOn machine
      .ok left
  | .clearHash => .ok buffer.clearHash

/-- An operation puts the hash away. -/
def Op.Resets (op : Op) : Prop :=
  op = .finish ∨ op = .clearHash

/-- The bytes absorbed after an operation: those that have left the front of the buffer to be
absorbed, until the hash is put away. -/
def Op.collect (buffer : MessageBuffer) (absorbed : Bytes) : Op → Bytes
  | .append _ => absorbed
  | .absorb =>
      absorbed ++ buffer.pending.take (buffer.pending.length - buffer.absorb.pending.length)
  | .finish => []
  | .clearHash => []

/-- The buffer that operations leave. -/
def after (buffer : MessageBuffer) (ops : List Op) : MessageBuffer :=
  ops.foldl Op.apply buffer

/-- The same, as a machine carries them out. -/
def afterOn (machine : Machine) (buffer : MessageBuffer) : List Op → Checked MessageBuffer
  | [] => .ok buffer
  | op :: ops => do
      let next ← op.applyOn machine buffer
      next.afterOn machine ops

/-- The bytes absorbed after operations, behind those that were absorbed before. -/
def collected (buffer : MessageBuffer) (absorbed : Bytes) : List Op → Bytes
  | [] => absorbed
  | op :: ops => (op.apply buffer).collected (op.collect buffer absorbed) ops

/-- The bytes absorbed since the hash last began: since the start, or since it was last put away. -/
def absorbed (ops : List Op) : Bytes :=
  empty.collected [] ops

/-- Something was absorbed, or could have been, since the hash was last put away. -/
def Absorbing (ops : List Op) : Prop :=
  ∃ front back, ops = front ++ .absorb :: back ∧ ∀ op ∈ back, ¬ op.Resets

/-- A buffer within its capacity, whose hash has absorbed the given bytes. -/
structure Holds (buffer : MessageBuffer) (absorbed : Bytes) : Prop where
  room : buffer.pending.length ≤ capacity
  stream : buffer.hashed.getD Blake2b.Stream.empty = Blake2b.Stream.empty.absorb absorbed

theorem holds_empty : empty.Holds [] :=
  ⟨Nat.zero_le _, rfl⟩

variable {bytes : Bytes}

theorem Holds.small (holds : buffer.Holds bytes) : buffer.pending.length < 65536 :=
  Nat.lt_of_le_of_lt holds.room (by decide)

/-- Every operation keeps a buffer to the bytes that it has absorbed. -/
theorem Holds.apply (holds : buffer.Holds bytes) (op : Op) :
    (op.apply buffer).Holds (op.collect buffer bytes) := by
  obtain ⟨room, stream⟩ := holds
  cases op with
  | append added =>
    simp only [Op.apply, Op.collect, append?]
    split
    · rename_i fits
      exact ⟨by simpa only [Option.getD_some, List.length_append] using fits, stream⟩
    · exact ⟨room, stream⟩
  | absorb =>
    have held := heldBack_le buffer.pending.length
    refine ⟨?_, ?_⟩
    · rw [Op.apply, length_pending_absorb]
      omega
    · rw [Op.apply, Op.collect, length_pending_absorb, absorb_eq, Option.getD_some, stream,
        Blake2b.Stream.absorb_append]
  | finish =>
    simp only [Op.apply, Op.collect, finish_eq]
    exact holds_empty
  | clearHash => exact ⟨room, rfl⟩

/-- After any operations, the hash has absorbed what was absorbed since it last began. -/
theorem Holds.run (holds : buffer.Holds bytes) (ops : List Op) :
    (buffer.after ops).Holds (buffer.collected bytes ops) := by
  induction ops generalizing buffer bytes with
  | nil => exact holds
  | cons op ops ih => exact ih (holds.apply op)

/-- A message is finished by the hash of what was absorbed and what is pending. -/
theorem Holds.finish_eq_hash (holds : buffer.Holds bytes) :
    buffer.finish = (Blake2b.hash (bytes ++ buffer.pending), empty) := by
  rw [finish_eq, holds.stream, ← Blake2b.Stream.absorb_append, Blake2b.Stream.digest_absorb]

/-- A machine carries out each operation without a fault. -/
theorem Holds.applyOn (holds : buffer.Holds bytes) (op : Op) :
    op.applyOn machine buffer = .ok (op.apply buffer) := by
  cases op with
  | append added => rfl
  | absorb => exact absorbOn_eq holds.small
  | finish =>
    rw [Op.applyOn, finishOn_eq holds.small]
    rfl
  | clearHash => rfl

theorem Holds.runOn (holds : buffer.Holds bytes) (ops : List Op) :
    buffer.afterOn machine ops = .ok (buffer.after ops) := by
  induction ops generalizing buffer bytes with
  | nil => rfl
  | cons op ops ih =>
    rw [afterOn, holds.applyOn op, Checked.ok_bind]
    exact ih (holds.apply op)

theorem after_concat (ops : List Op) (op : Op) :
    buffer.after (ops ++ [op]) = op.apply (buffer.after ops) := by
  simp only [after, List.foldl_append, List.foldl_cons, List.foldl_nil]

/-- Absorbing begins a hash, finishing and clearing end it, and appending makes no difference. -/
theorem hasBegun_apply (op : Op) :
    (op.apply buffer).hasBegun = true ↔
      op = .absorb ∨ buffer.hasBegun = true ∧ ¬ op.Resets := by
  cases op with
  | append added =>
    have same : (Op.apply buffer (.append added)).hasBegun = buffer.hasBegun := by
      simp only [Op.apply, append?]
      split <;> rfl
    simp [same, Op.Resets]
  | absorb => simp [Op.apply, absorb, hasBegun]
  | finish => simp [Op.apply, finish_eq, empty, hasBegun, Op.Resets]
  | clearHash => simp [Op.apply, clearHash, hasBegun, Op.Resets]

theorem absorbing_concat_iff {ops : List Op} {op : Op} :
    Absorbing (ops ++ [op]) ↔ op = .absorb ∨ Absorbing ops ∧ ¬ op.Resets := by
  constructor
  · rintro ⟨front, back, split, keeps⟩
    rcases List.eq_nil_or_concat back with rfl | ⟨back, last, rfl⟩
    · obtain ⟨-, same⟩ := List.append_inj' split rfl
      exact .inl (List.singleton_inj.1 same)
    · rw [List.concat_eq_append] at split keeps
      rw [← List.cons_append, ← List.append_assoc] at split
      obtain ⟨rfl, same⟩ := List.append_inj' split rfl
      obtain rfl := List.singleton_inj.1 same
      exact .inr ⟨⟨front, back, rfl, fun other mem => keeps other (by simp [mem])⟩,
        keeps op (by simp)⟩
  · rintro (rfl | ⟨⟨front, back, rfl, keeps⟩, keep⟩)
    · exact ⟨ops, [], rfl, by simp⟩
    · refine ⟨front, back ++ [op], by simp, ?_⟩
      intro other mem
      rcases List.mem_append.1 mem with earlier | last
      · exact keeps other earlier
      · rw [List.mem_singleton.1 last]
        exact keep

/-- A hash is under way exactly if there was an absorption since it was last put away. -/
theorem hasBegun_after (ops : List Op) :
    (empty.after ops).hasBegun = true ↔ Absorbing ops := by
  induction ops using List.reverseRecOn with
  | nil => simp [after, empty, hasBegun, Absorbing]
  | append_singleton ops op ih => rw [after_concat, hasBegun_apply, ih, absorbing_concat_iff]

/-- How a buffer hashes that has absorbed the given bytes. -/
structure Hashes (machine : Machine) (buffer : MessageBuffer) (absorbed : Bytes) : Prop where
  room : buffer.pending.length ≤ 1024
  absorbs : ∃ taken, buffer.Absorbs machine taken
  /-- The digest is that of the absorbed bytes and those pending, and nothing is left of them. -/
  finishes : buffer.finishOn machine = .ok (Blake2b.hash (absorbed ++ buffer.pending), empty)
  /-- Clearing the hash leaves the pending bytes, and only they are hashed then. -/
  clears : buffer.clearHash.pending = buffer.pending ∧
    buffer.clearHash.finishOn machine = .ok (Blake2b.hash buffer.pending, empty)

theorem Holds.hashes (holds : buffer.Holds bytes) : buffer.Hashes machine bytes where
  room := holds.room
  absorbs := ⟨blocks buffer.pending, absorbs_blocks holds.small⟩
  finishes := by rw [finishOn_eq holds.small, holds.finish_eq_hash]
  clears := by
    have cleared := holds.apply .clearHash
    exact ⟨rfl, (finishOn_eq cleared.small).trans (congrArg Except.ok cleared.finish_eq_hash)⟩

/-- However a buffer was appended to, absorbed, finished and cleared, on every machine and without
a fault: it absorbs whole blocks in their order, it is finished by the hash of the bytes absorbed
since the hash last began with the pending bytes behind them, and its hash has begun exactly if
there was an absorption since. -/
theorem hashes_after (machine : Machine) (ops : List Op) :
    empty.afterOn machine ops = .ok (empty.after ops) ∧
      (empty.after ops).Hashes machine (absorbed ops) ∧
      ((empty.after ops).hasBegun = true ↔ Absorbing ops) :=
  ⟨holds_empty.runOn ops, (holds_empty.run ops).hashes, hasBegun_after ops⟩

end MessageBuffer

end TezosSigner
