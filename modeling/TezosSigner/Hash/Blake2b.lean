/-
Module: TezosSigner.Hash.Blake2b
Purpose: BLAKE2b with a 32-byte digest and no key, for whole messages and for streams.
Main exports:
  Blake2b.compress, Blake2b.hash, Blake2b.Stream, Blake2b.Stream.absorb, Blake2b.Stream.digest,
  Blake2b.Stream.digest_absorb
-/
import TezosSigner.Bytes

namespace TezosSigner.Blake2b

/-!
BLAKE2b cuts a message into blocks of 128 bytes and folds a compression function
over them.  The last block may be short, and even empty when the message is empty;
it is padded with zeros, and compressed with a flag that marks it as the last.

`hash` follows that definition on a whole message.  A `Stream` takes the message
in pieces: it holds back the last block it has seen, because only at the end is it
known which block is the last.  The two agree however the message is cut
(`Stream.digest_absorb`), and absorbing two pieces is absorbing their
concatenation (`Stream.absorb_append`).
-/

/-- The number of bytes in a block. -/
def blockSize : Nat := 128

/-- The eight words that carry the hash from block to block. -/
abbrev Chain := Vector UInt64 8

/-- The sixteen words that the compression function works on. -/
abbrev Work := Vector UInt64 16

/-- The initial words: the fractional parts of the square roots of the first eight
primes. -/
def initial : Chain :=
  #v[0x6a09e667f3bcc908, 0xbb67ae8584caa73b, 0x3c6ef372fe94f82b, 0xa54ff53a5f1d36f1,
     0x510e527fade682d1, 0x9b05688c2b3e6c1f, 0x1f83d9abfb41bd6b, 0x5be0cd19137e2179]

/-- The chain before the first block: the initial words, the first one combined with
the parameters (a digest of 32 bytes, no key, no tree). -/
def start : Chain :=
  initial.set 0 (initial[0] ^^^ 0x01010020)

/-- The order in which the rounds use the words of a block. -/
def schedule : Vector (Vector (Fin 16) 16) 10 :=
  #v[#v[0, 1, 2, 3, 4, 5, 6, 7, 8, 9, 10, 11, 12, 13, 14, 15],
     #v[14, 10, 4, 8, 9, 15, 13, 6, 1, 12, 0, 2, 11, 7, 5, 3],
     #v[11, 8, 12, 0, 5, 2, 15, 13, 10, 14, 3, 6, 7, 1, 9, 4],
     #v[7, 9, 3, 1, 13, 12, 11, 14, 2, 6, 5, 10, 4, 0, 15, 8],
     #v[9, 0, 5, 7, 2, 4, 10, 15, 14, 1, 11, 12, 6, 8, 3, 13],
     #v[2, 12, 6, 10, 0, 11, 8, 3, 4, 13, 7, 5, 15, 14, 1, 9],
     #v[12, 5, 1, 15, 14, 13, 4, 10, 0, 7, 6, 3, 9, 2, 8, 11],
     #v[13, 11, 7, 14, 12, 1, 3, 9, 5, 0, 15, 4, 8, 6, 2, 10],
     #v[6, 15, 14, 9, 11, 3, 0, 8, 12, 2, 13, 7, 1, 4, 10, 5],
     #v[10, 2, 8, 4, 7, 6, 1, 5, 15, 11, 9, 14, 3, 12, 13, 0]]

/-- Rotate a word to the right. -/
def rotateRight (word amount : UInt64) : UInt64 :=
  (word >>> amount) ||| (word <<< (64 - amount))

/-- Mix two message words into four words of the work vector. -/
def mix (work : Work) (a b c d : Fin 16) (x y : UInt64) : Work :=
  let work := work.set a (work[a] + work[b] + x)
  let work := work.set d (rotateRight (work[d] ^^^ work[a]) 32)
  let work := work.set c (work[c] + work[d])
  let work := work.set b (rotateRight (work[b] ^^^ work[c]) 24)
  let work := work.set a (work[a] + work[b] + y)
  let work := work.set d (rotateRight (work[d] ^^^ work[a]) 16)
  let work := work.set c (work[c] + work[d])
  work.set b (rotateRight (work[b] ^^^ work[c]) 63)

/-- One round: mix the columns, then the diagonals. -/
def round (words work : Work) (order : Vector (Fin 16) 16) : Work :=
  let work := mix work 0 4 8 12 words[order[0]] words[order[1]]
  let work := mix work 1 5 9 13 words[order[2]] words[order[3]]
  let work := mix work 2 6 10 14 words[order[4]] words[order[5]]
  let work := mix work 3 7 11 15 words[order[6]] words[order[7]]
  let work := mix work 0 5 10 15 words[order[8]] words[order[9]]
  let work := mix work 1 6 11 12 words[order[10]] words[order[11]]
  let work := mix work 2 7 8 13 words[order[12]] words[order[13]]
  mix work 3 4 9 14 words[order[14]] words[order[15]]

/-- The orders of the twelve rounds; the last two rounds use the first two again. -/
def roundOrders : List (Vector (Fin 16) 16) :=
  schedule.toList ++ [schedule[0], schedule[1]]

/-- A word from its bytes, least significant first; missing bytes are zero. -/
def wordOfLittleEndian (bytes : Bytes) : UInt64 :=
  bytes.foldr (fun byte word => byte.toUInt64 ||| (word <<< 8)) 0

/-- The sixteen words of a block, padded with zeros. -/
def blockWords (block : Bytes) : Work :=
  Vector.ofFn fun i => wordOfLittleEndian ((block.drop (8 * i.val)).take 8)

/-- Fold one block into the chain.  `count` is the number of message bytes up to the
end of the block, `last` marks the final block. -/
def compress (chain : Chain) (block : Bytes) (count : Nat) (last : Bool) : Chain :=
  let work : Work := chain ++ initial
  let work := work.set 12 (work[12] ^^^ UInt64.ofNat count)
  let work := work.set 13 (work[13] ^^^ UInt64.ofNat (count / 0x10000000000000000))
  let work := if last then work.set 14 (~~~ work[14]) else work
  let work := roundOrders.foldl (round (blockWords block)) work
  Vector.ofFn fun i => chain[i] ^^^ work[i.val] ^^^ work[i.val + 8]

/-- The first 32 bytes of the chain, its words least significant byte first. -/
def digestOf (chain : Chain) : Digest :=
  Vector.ofFn fun i =>
    (chain[i.val / 8] >>> (8 * UInt64.ofNat (i.val % 8))).toUInt8

/-- Fold a message of which `count` bytes came before into the chain. -/
def fold (chain : Chain) (count : Nat) (message : Bytes) : Chain :=
  if message.length ≤ blockSize then
    compress chain message (count + message.length) true
  else
    fold (compress chain (message.take blockSize) (count + blockSize) false)
      (count + blockSize) (message.drop blockSize)
termination_by message.length
decreasing_by
  simp only [List.length_drop, blockSize] at *
  omega

/-- The digest of a message. -/
def hash (message : Bytes) : Digest :=
  digestOf (fold start 0 message)

/-- A message under way. -/
structure Stream where
  /-- The chain after the blocks compressed so far. -/
  chain : Chain
  /-- The number of bytes compressed so far. -/
  count : Nat
  /-- The bytes held back, at most one block. -/
  block : Bytes
deriving DecidableEq, Repr

namespace Stream

/-- A stream that has seen no bytes. -/
def empty : Stream :=
  { chain := start, count := 0, block := [] }

/-- Take one more byte.  A full block is compressed only now that it is known not to
be the last. -/
def push (stream : Stream) (byte : UInt8) : Stream :=
  if stream.block.length < blockSize then
    { stream with block := stream.block ++ [byte] }
  else
    { chain := compress stream.chain stream.block (stream.count + blockSize) false
      count := stream.count + blockSize
      block := [byte] }

/-- Take more bytes. -/
def absorb (stream : Stream) (bytes : Bytes) : Stream :=
  bytes.foldl push stream

/-- The digest of the bytes taken so far. -/
def digest (stream : Stream) : Digest :=
  digestOf (compress stream.chain stream.block (stream.count + stream.block.length) true)

@[simp] theorem absorb_nil (stream : Stream) : stream.absorb [] = stream := rfl

/-- Absorbing two pieces is absorbing their concatenation. -/
theorem absorb_append (stream : Stream) (first second : Bytes) :
    stream.absorb (first ++ second) = (stream.absorb first).absorb second := by
  simp [absorb]

/-- A stream that holds back at most one block finishes as the fold over the bytes
held back and those still to come. -/
theorem digest_absorb_eq_fold (stream : Stream) (bytes : Bytes)
    (held : stream.block.length ≤ blockSize) :
    (stream.absorb bytes).digest =
      digestOf (fold stream.chain stream.count (stream.block ++ bytes)) := by
  induction bytes generalizing stream with
  | nil =>
    rw [absorb_nil, List.append_nil, fold, if_pos held]
    rfl
  | cons byte bytes ih =>
    have step : stream.absorb (byte :: bytes) = (stream.push byte).absorb bytes := rfl
    rw [step]
    by_cases room : stream.block.length < blockSize
    · have pushed : stream.push byte = { stream with block := stream.block ++ [byte] } := by
        simp [push, room]
      have held' : (stream.block ++ [byte]).length ≤ blockSize := by
        simp only [List.length_append, List.length_singleton]
        omega
      rw [pushed, ih _ held']
      simp
    · have full : stream.block.length = blockSize := Nat.le_antisymm held (Nat.le_of_not_lt room)
      have pushed : stream.push byte =
          { chain := compress stream.chain stream.block (stream.count + blockSize) false
            count := stream.count + blockSize
            block := [byte] } := by
        simp [push, room]
      rw [pushed, ih _ (by simp [blockSize])]
      conv => rhs; rw [fold]
      have long : ¬ (stream.block ++ byte :: bytes).length ≤ blockSize := by
        simp [full]
      rw [if_neg long, ← full, List.take_left, List.drop_left, full]
      rfl

/-- However a message is cut, the digest of the stream is the hash of the whole. -/
theorem digest_absorb (bytes : Bytes) : (empty.absorb bytes).digest = hash bytes := by
  rw [digest_absorb_eq_fold empty bytes (by simp [empty])]
  rfl

end Stream

end TezosSigner.Blake2b
