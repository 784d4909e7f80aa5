/-
Module: TezosSigner.Proofs.Machine.Access
Purpose: Slices, bounded vectors and numbers as a machine has them, with the faults that stop it.
Main exports:
  Fault, Checked, Machine, Machine.Holds, Machine.add, Machine.mul, Bounded.push,
  Slice.byteAt, Slice.front, Slice.rest, Slice.word, Slice.onFront, Slice.onRest, Slice.copyFrom,
  Slice.putWord, Machine.putWords, Machine.takeWords
-/
import Mathlib.Algebra.Group.Nat.Defs
import TezosSigner.Key.Path

namespace TezosSigner

/-!
The device runs on a machine, and a machine is less forgiving than a definition.  An index
beyond the end of a slice stops the device, and so does a sum that its type cannot hold; an
element that a full vector refuses is lost without a word.  Each of these is a `Fault` here, and
a `Checked` computation is one that comes to a fault wherever the machine would.

The codecs, the session and the signer are written down once more in this form, access by access
and sum by sum, as the device carries them out.  Each of these accounts is then equal to the
definition that it is an account of: no fault is left, and the bytes are the same.
-/

/-- What goes wrong on a machine. -/
inductive Fault where
  /-- An index or a range lies beyond the end of a slice, or a slice is copied over one of
  another length. -/
  | outOfBounds
  /-- A full vector refused an element, and the refusal was not looked at. -/
  | refused
  /-- A number is too large, or too small, for its type. -/
  | overflow
deriving Repr, DecidableEq

/-- A computation that comes to a fault where the machine would. -/
abbrev Checked := Except Fault

theorem Checked.ok_bind {First Second : Type} (value : First) (next : First → Checked Second) :
    ((Except.ok value : Checked First) >>= next) = next value :=
  rfl

/-- A machine, which tells apart so many addresses.  All lengths and indices are addresses. -/
structure Machine where
  addressBits : Nat
  addressBits_ge : 16 ≤ addressBits
deriving Repr, DecidableEq

namespace Machine

variable (machine : Machine)

/-- The number of addresses. -/
def size : Nat :=
  2 ^ machine.addressBits

/-- A slice that a machine can hold.  No object takes up more than half of the addresses. -/
def Holds (bytes : Bytes) : Prop :=
  2 * bytes.length < machine.size

instance (bytes : Bytes) : Decidable (machine.Holds bytes) :=
  inferInstanceAs (Decidable (2 * bytes.length < machine.size))

/-- The sum of two addresses. -/
def add (left right : Nat) : Checked Nat :=
  if left + right < machine.size then .ok (left + right) else .error .overflow

/-- The product of two addresses. -/
def mul (left right : Nat) : Checked Nat :=
  if left * right < machine.size then .ok (left * right) else .error .overflow

theorem size_ge : 65536 ≤ machine.size :=
  Nat.pow_le_pow_right (n := 2) (by decide) machine.addressBits_ge

variable {machine}

theorem add_eq {left right : Nat} (fits : left + right < machine.size) :
    machine.add left right = .ok (left + right) :=
  if_pos fits

theorem add_ok {left right sum : Nat} (h : machine.add left right = .ok sum) :
    sum = left + right := by
  unfold add at h
  split at h
  · cases h
    rfl
  · cases h

theorem mul_eq {left right : Nat} (fits : left * right < machine.size) :
    machine.mul left right = .ok (left * right) :=
  if_pos fits

/-- Sums below 65536 fit every machine. -/
theorem add_small {left right : Nat} (small : left + right < 65536) :
    machine.add left right = .ok (left + right) :=
  add_eq (Nat.lt_of_lt_of_le small machine.size_ge)

/-- Products below 65536 fit every machine. -/
theorem mul_small {left right : Nat} (small : left * right < 65536) :
    machine.mul left right = .ok (left * right) :=
  mul_eq (Nat.lt_of_lt_of_le small machine.size_ge)

end Machine

/-- The difference of two addresses. -/
def Checked.subtract (left right : Nat) : Checked Nat :=
  if right ≤ left then .ok (left - right) else .error .overflow

theorem Checked.subtract_eq {left right : Nat} (below : right ≤ left) :
    Checked.subtract left right = .ok (left - right) :=
  if_pos below

theorem Checked.subtract_ok {left right difference : Nat}
    (h : Checked.subtract left right = .ok difference) :
    right ≤ left ∧ difference = left - right := by
  unfold Checked.subtract at h
  split at h
  · rename_i below
    cases h
    exact ⟨below, rfl⟩
  · cases h

/-- The successor of a counter of one byte. -/
def Checked.increment (counter : UInt8) : Checked UInt8 :=
  if counter.toNat + 1 < 256 then .ok (counter + 1) else .error .overflow

/-- A vector with room for so many elements. -/
@[ext]
structure Bounded (Element : Type) (capacity : Nat) where
  elements : List Element
  fits : elements.length ≤ capacity

namespace Bounded

variable {Element : Type} {capacity : Nat}

/-- The vector without elements. -/
def empty : Bounded Element capacity :=
  { elements := [], fits := Nat.zero_le _ }

/-- Add an element at the end, where nobody looks at a refusal. -/
def push (vector : Bounded Element capacity) (element : Element) :
    Checked (Bounded Element capacity) :=
  if h : vector.elements.length < capacity then
    .ok { elements := vector.elements ++ [element], fits := by simpa using Nat.succ_le_of_lt h }
  else
    .error .refused

/-- A vector that holds one element more has had room for it. -/
theorem push_eq {vector pushed : Bounded Element capacity} {element : Element}
    (elements : pushed.elements = vector.elements ++ [element]) :
    vector.push element = .ok pushed := by
  obtain ⟨_, fits⟩ := pushed
  subst elements
  have below : vector.elements.length < capacity := by
    rw [List.length_append, List.length_singleton] at fits
    exact fits
  rw [push, dif_pos below]

/-- A vector that holds a list more has had room for each element of it. -/
theorem pushAll_eq {vector pushed : Bounded Element capacity} {more : List Element}
    (elements : pushed.elements = vector.elements ++ more) :
    more.foldlM push vector = .ok pushed := by
  induction more generalizing vector with
  | nil =>
    rw [List.append_nil] at elements
    rw [Bounded.ext elements]
    rfl
  | cons element more ih =>
    have room : (vector.elements ++ [element]).length ≤ capacity := by
      have fits := pushed.fits
      simp only [elements, List.length_append, List.length_cons, List.length_nil] at fits ⊢
      omega
    have first : vector.push element = .ok ⟨vector.elements ++ [element], room⟩ := push_eq rfl
    rw [List.foldlM_cons, first, Checked.ok_bind]
    exact ih (by rw [elements, List.append_assoc, List.singleton_append])

end Bounded

namespace Slice

/-- The byte at an index. -/
def byteAt (bytes : Bytes) (index : Nat) : Checked UInt8 :=
  match bytes[index]? with
  | some byte => .ok byte
  | none => .error .outOfBounds

/-- The first so many bytes. -/
def front (bytes : Bytes) (count : Nat) : Checked Bytes :=
  if count ≤ bytes.length then .ok (bytes.take count) else .error .outOfBounds

/-- The bytes from an index on. -/
def rest (bytes : Bytes) (index : Nat) : Checked Bytes :=
  if index ≤ bytes.length then .ok (bytes.drop index) else .error .outOfBounds

/-- The bytes from one index up to another. -/
def range (bytes : Bytes) (start stop : Nat) : Checked Bytes :=
  if start ≤ stop ∧ stop ≤ bytes.length then
    .ok ((bytes.take stop).drop start)
  else
    .error .outOfBounds

/-- The word at the front. -/
def word (bytes : Bytes) : Checked UInt32 :=
  match decodeWord? bytes with
  | some (word, _) => .ok word
  | none => .error .outOfBounds

/-- The bytes as a field of fixed size, which they have to fill. -/
def field (size : Nat) (bytes : Bytes) : Checked (Vector UInt8 size) :=
  match fixed? size bytes with
  | some field => .ok field
  | none => .error .outOfBounds

/-- Change the byte at an index. -/
def setByte (index : Nat) (byte : UInt8) (bytes : Bytes) : Checked Bytes :=
  if index < bytes.length then .ok (bytes.set index byte) else .error .outOfBounds

/-- Copy over the whole slice, which has to be as long as the source. -/
def copyFrom (source bytes : Bytes) : Checked Bytes :=
  if bytes.length = source.length then .ok source else .error .outOfBounds

/-- Write a word to the front. -/
def putWord (word : UInt32) (bytes : Bytes) : Checked Bytes :=
  if 4 ≤ bytes.length then .ok (encodeWord word ++ bytes.drop 4) else .error .outOfBounds

/-- Move the bytes from an index on to the front.  Behind them, the slice stays as it is. -/
def moveDown (index : Nat) (bytes : Bytes) : Checked Bytes := do
  let moved ← rest bytes index
  .ok (moved ++ bytes.drop moved.length)

/-- Change the length of a vector with room for `capacity` bytes, where nobody looks at a
refusal. -/
def resize (capacity length : Nat) (bytes : Bytes) : Checked Bytes :=
  if length ≤ capacity then
    .ok (bytes.take length ++ List.replicate (length - bytes.length) 0)
  else
    .error .refused

/-- Change the first so many bytes only. -/
def onFront (count : Nat) (change : Bytes → Checked Bytes) (bytes : Bytes) : Checked Bytes := do
  let changed ← change (← front bytes count)
  .ok (changed ++ bytes.drop count)

/-- Change the bytes from an index on only. -/
def onRest (index : Nat) (change : Bytes → Checked Bytes) (bytes : Bytes) : Checked Bytes := do
  let changed ← change (← rest bytes index)
  .ok (bytes.take index ++ changed)

variable {before after : Bytes} {index : Nat}

/-- The byte behind a front of the given length. -/
theorem byteAt_append {byte : UInt8} (place : index = before.length) :
    byteAt (before ++ byte :: after) index = .ok byte := by
  simp [byteAt, place]

theorem byteAt_zero (byte : UInt8) (bytes : Bytes) : byteAt (byte :: bytes) 0 = .ok byte :=
  rfl

theorem byteAt_one (first second : UInt8) (bytes : Bytes) :
    byteAt (first :: second :: bytes) 1 = .ok second :=
  rfl

theorem front_append (place : index = before.length) :
    front (before ++ after) index = .ok before := by
  simp [front, place]

theorem rest_append (place : index = before.length) :
    rest (before ++ after) index = .ok after := by
  simp [rest, place]

theorem front_eq {bytes : Bytes} {count : Nat} (enough : count ≤ bytes.length) :
    front bytes count = .ok (bytes.take count) :=
  if_pos enough

theorem rest_eq {bytes : Bytes} (enough : index ≤ bytes.length) :
    rest bytes index = .ok (bytes.drop index) :=
  if_pos enough

theorem range_eq {bytes : Bytes} {start stop : Nat} (order : start ≤ stop)
    (enough : stop ≤ bytes.length) :
    range bytes start stop = .ok ((bytes.take stop).drop start) :=
  if_pos ⟨order, enough⟩

theorem word_append (word : UInt32) (after : Bytes) :
    Slice.word (encodeWord word ++ after) = .ok word := by
  rw [Slice.word, decodeWord?_encodeWord]

theorem setByte_append {byte old : UInt8} (place : index = before.length) :
    setByte index byte (before ++ old :: after) = .ok (before ++ byte :: after) := by
  simp [setByte, place]

theorem setByte_zero (byte old : UInt8) (bytes : Bytes) :
    setByte 0 byte (old :: bytes) = .ok (byte :: bytes) :=
  rfl

theorem setByte_one (byte first old : UInt8) (bytes : Bytes) :
    setByte 1 byte (first :: old :: bytes) = .ok (first :: byte :: bytes) :=
  rfl

theorem onRest_append {change : Bytes → Checked Bytes} {changed : Bytes}
    (place : index = before.length) (h : change after = .ok changed) :
    onRest index change (before ++ after) = .ok (before ++ changed) := by
  rw [onRest, rest_append place, Checked.ok_bind, h, Checked.ok_bind, place, List.take_left]

theorem copyFrom_eq {source bytes : Bytes} (same : bytes.length = source.length) :
    copyFrom source bytes = .ok source :=
  if_pos same

/-- A source that fits is copied to the front. -/
theorem copyFront_eq {source bytes : Bytes} {count : Nat} (long : count = source.length)
    (room : count ≤ bytes.length) :
    onFront count (copyFrom source) bytes = .ok (source ++ bytes.drop count) := by
  have same : (bytes.take count).length = source.length := by
    rw [List.length_take]
    omega
  rw [onFront, front_eq room, Checked.ok_bind, copyFrom_eq same, Checked.ok_bind]

/-- A source that fits is copied behind a front. -/
theorem copyRest_append {source : Bytes} {count : Nat} (place : index = before.length)
    (long : count = source.length) (room : count ≤ after.length) :
    onRest index (onFront count (copyFrom source)) (before ++ after) =
      .ok (before ++ (source ++ after.drop count)) :=
  onRest_append place (copyFront_eq long room)

theorem putWord_eq {word : UInt32} {bytes : Bytes} (room : 4 ≤ bytes.length) :
    putWord word bytes = .ok (encodeWord word ++ bytes.drop 4) :=
  if_pos room

end Slice

namespace Machine

variable (machine : Machine)

/-- Write words one after the other, from an index that moves on. -/
def putWords : List UInt32 → Nat → Bytes → Checked (Nat × Bytes)
  | [], index, buffer => .ok (index, buffer)
  | word :: words, index, buffer => do
      let buffer ← Slice.onRest index (Slice.putWord word) buffer
      let index ← machine.add index 4
      putWords words index buffer

/-- Read so many words one after the other, from an index that moves on, and push each of
them. -/
def takeWords {capacity : Nat} (bytes : Bytes) :
    Nat → Nat → Bounded UInt32 capacity → Checked (Bounded UInt32 capacity × Nat)
  | 0, index, words => .ok (words, index)
  | count + 1, index, words => do
      let word ← Slice.word (← Slice.rest bytes index)
      let words ← words.push word
      let index ← machine.add index 4
      takeWords bytes count index words

variable {machine}

/-- Words that fit the buffer are written in a row. -/
theorem putWords_append {words : List UInt32} {before after : Bytes}
    (room : 4 * words.length ≤ after.length)
    (small : before.length + 4 * words.length < 65536) :
    machine.putWords words before.length (before ++ after) =
      .ok (before.length + 4 * words.length,
        before ++ (encodeWords words ++ after.drop (4 * words.length))) := by
  induction words generalizing before after with
  | nil => rfl
  | cons word words ih =>
    simp only [List.length_cons] at room small
    have written : Slice.onRest before.length (Slice.putWord word) (before ++ after) =
        .ok (before ++ (encodeWord word ++ after.drop 4)) :=
      Slice.onRest_append rfl (Slice.putWord_eq (by omega))
    have next := @ih (before ++ encodeWord word) (after.drop 4)
      (by simp only [List.length_drop]; omega)
      (by simp only [List.length_append, length_encodeWord]; omega)
    rw [List.length_append, length_encodeWord, List.append_assoc] at next
    rw [putWords, written, Checked.ok_bind, add_small (by omega), Checked.ok_bind, next,
      encodeWords_cons, List.drop_drop]
    simp only [List.append_assoc, List.length_cons]
    rw [show before.length + 4 + 4 * words.length = before.length + 4 * (words.length + 1) by omega,
      show 4 + 4 * words.length = 4 * (words.length + 1) by omega]

/-- A vector that holds the words of a row has had room for each of them. -/
theorem takeWords_append {capacity : Nat} {words : List UInt32} {before after : Bytes}
    {read taken : Bounded UInt32 capacity} (elements : taken.elements = read.elements ++ words)
    (small : before.length + 4 * words.length < 65536) :
    machine.takeWords (before ++ (encodeWords words ++ after)) words.length before.length read =
      .ok (taken, before.length + 4 * words.length) := by
  induction words generalizing before read with
  | nil =>
    rw [List.append_nil] at elements
    rw [Bounded.ext elements]
    rfl
  | cons word words ih =>
    simp only [List.length_cons] at small
    have room : (read.elements ++ [word]).length ≤ capacity := by
      have fits := taken.fits
      simp only [elements, List.length_append, List.length_cons, List.length_nil] at fits ⊢
      omega
    have pushed : read.push word = .ok ⟨read.elements ++ [word], room⟩ := Bounded.push_eq rfl
    have next := @ih (before ++ encodeWord word) ⟨read.elements ++ [word], room⟩
      (by rw [elements, List.append_assoc, List.singleton_append])
      (by simp only [List.length_append, length_encodeWord]; omega)
    rw [List.length_append, length_encodeWord, List.append_assoc] at next
    rw [List.length_cons, takeWords, Slice.rest_append rfl, Checked.ok_bind, encodeWords_cons,
      List.append_assoc, Slice.word_append, Checked.ok_bind, pushed, Checked.ok_bind, add_small
      (by omega), Checked.ok_bind, next,
      show before.length + 4 + 4 * words.length = before.length + 4 * (words.length + 1) by omega]

end Machine

end TezosSigner
