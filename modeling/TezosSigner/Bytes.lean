/-
Module: TezosSigner.Bytes
Purpose: Byte strings, byte fields of a fixed size, and big-endian 32-bit words.
Main exports:
  Bytes, Digest, fixed?, padded, encodeWord, decodeWord?, encodeWords, decodeWords?
-/

namespace TezosSigner

/-!
Everything that crosses the boundary of the device is a string of bytes.  Fields
of a fixed size are vectors, so their size is part of their type; multi-byte
integers are big-endian, the order used by the chain itself.

A word is written through its value, not through shifts: the four bytes are the
base-256 digits of the word, most significant first.  `decodeWord?` reads them
back, and the two are inverse (`decodeWord?_encodeWord`, `encodeWord_wordOfBytes`).
-/

/-- A string of bytes of any length. -/
abbrev Bytes := List UInt8

/-- A 32-byte hash. -/
abbrev Digest := Vector UInt8 32

/-- A byte string of exactly `size` bytes as a field of that size. -/
def fixed? (size : Nat) (bytes : Bytes) : Option (Vector UInt8 size) :=
  if h : bytes.length = size then some ⟨bytes.toArray, by simpa using h⟩ else none

/-- The first `size` bytes of a byte string, followed by zeros where it is
shorter. -/
def padded (size : Nat) (bytes : Bytes) : Vector UInt8 size :=
  ⟨(bytes.take size ++ List.replicate (size - bytes.length) 0).toArray, by
    simp; omega⟩

theorem toList_padded (size : Nat) (bytes : Bytes) :
    (padded size bytes).toList =
      bytes.take size ++ List.replicate (size - bytes.length) 0 := by
  simp [padded, Vector.toList]

theorem fixed?_toList {size : Nat} (field : Vector UInt8 size) :
    fixed? size field.toList = some field := by
  simp [fixed?, Vector.toList]

theorem toList_of_fixed? {size : Nat} {bytes : Bytes} {field : Vector UInt8 size}
    (h : fixed? size bytes = some field) : field.toList = bytes := by
  unfold fixed? at h
  split at h
  · cases h
    simp [Vector.toList]
  · cases h

/-- The four bytes of a word, most significant first. -/
def encodeWord (word : UInt32) : Bytes :=
  [UInt8.ofNat (word.toNat / 0x1000000), UInt8.ofNat (word.toNat / 0x10000),
    UInt8.ofNat (word.toNat / 0x100), UInt8.ofNat word.toNat]

/-- The word whose base-256 digits are the four bytes, most significant first. -/
def wordOfBytes (a b c d : UInt8) : UInt32 :=
  UInt32.ofNat (a.toNat * 0x1000000 + b.toNat * 0x10000 + c.toNat * 0x100 + d.toNat)

/-- Read one word from the front of a byte string. -/
def decodeWord? : Bytes → Option (UInt32 × Bytes)
  | a :: b :: c :: d :: rest => some (wordOfBytes a b c d, rest)
  | _ => none

/-- The words of a list one after the other. -/
def encodeWords (words : List UInt32) : Bytes :=
  words.flatMap encodeWord

/-- Read `count` words from the front of a byte string. -/
def decodeWords? : Nat → Bytes → Option (List UInt32 × Bytes)
  | 0, bytes => some ([], bytes)
  | count + 1, bytes => do
      let (word, rest) ← decodeWord? bytes
      let (words, rest) ← decodeWords? count rest
      pure (word :: words, rest)

@[simp] theorem length_encodeWord (word : UInt32) : (encodeWord word).length = 4 := rfl

@[simp] theorem encodeWords_nil : encodeWords [] = [] := rfl

@[simp] theorem encodeWords_cons (word : UInt32) (words : List UInt32) :
    encodeWords (word :: words) = encodeWord word ++ encodeWords words := rfl

@[simp] theorem length_encodeWords (words : List UInt32) :
    (encodeWords words).length = 4 * words.length := by
  induction words with
  | nil => rfl
  | cons word words ih =>
    simp [ih]
    omega

/-- A written word reads back. -/
theorem decodeWord?_encodeWord (word : UInt32) (rest : Bytes) :
    decodeWord? (encodeWord word ++ rest) = some (word, rest) := by
  have bound := word.toNat_lt
  have value :
      wordOfBytes (UInt8.ofNat (word.toNat / 0x1000000)) (UInt8.ofNat (word.toNat / 0x10000))
        (UInt8.ofNat (word.toNat / 0x100)) (UInt8.ofNat word.toNat) = word := by
    apply UInt32.toNat_inj.mp
    simp only [wordOfBytes, UInt8.toNat_ofNat', UInt32.toNat_ofNat']
    omega
  simp only [encodeWord, List.cons_append, List.nil_append, decodeWord?, value]

/-- The bytes of the word read from four bytes are those four bytes. -/
theorem encodeWord_wordOfBytes (a b c d : UInt8) :
    encodeWord (wordOfBytes a b c d) = [a, b, c, d] := by
  have ha := a.toNat_lt
  have hb := b.toNat_lt
  have hc := c.toNat_lt
  have hd := d.toNat_lt
  have value : (wordOfBytes a b c d).toNat =
      a.toNat * 0x1000000 + b.toNat * 0x10000 + c.toNat * 0x100 + d.toNat := by
    simp only [wordOfBytes, UInt32.toNat_ofNat']
    omega
  simp only [encodeWord, value, List.cons.injEq, and_true]
  refine ⟨?_, ?_, ?_, ?_⟩ <;>
  · apply UInt8.toNat_inj.mp
    rw [UInt8.toNat_ofNat']
    omega

/-- Reading a word takes exactly its four bytes. -/
theorem decodeWord?_eq_some_iff {bytes rest : Bytes} {word : UInt32} :
    decodeWord? bytes = some (word, rest) ↔ bytes = encodeWord word ++ rest := by
  constructor
  · intro h
    unfold decodeWord? at h
    split at h
    · cases h
      rw [encodeWord_wordOfBytes]
      rfl
    · cases h
  · intro h
    rw [h, decodeWord?_encodeWord]

/-- Written words read back, whatever follows them. -/
theorem decodeWords?_encodeWords (words : List UInt32) (rest : Bytes) :
    decodeWords? words.length (encodeWords words ++ rest) = some (words, rest) := by
  induction words with
  | nil => rfl
  | cons word words ih =>
    simp [decodeWords?, List.append_assoc, decodeWord?_encodeWord, ih]

/-- Reading `count` words takes exactly the bytes that write them. -/
theorem decodeWords?_eq_some_iff {count : Nat} {bytes rest : Bytes} {words : List UInt32} :
    decodeWords? count bytes = some (words, rest) ↔
      words.length = count ∧ bytes = encodeWords words ++ rest := by
  constructor
  · intro h
    induction count generalizing bytes words with
    | zero =>
      cases h
      exact ⟨rfl, rfl⟩
    | succ count ih =>
      simp only [decodeWords?, Option.bind_eq_bind, Option.bind_eq_some_iff, Option.pure_def,
        Option.some.injEq, Prod.mk.injEq, Prod.exists] at h
      obtain ⟨word, tail, first, more, last, others, rfl, rfl⟩ := h
      obtain ⟨lengthEq, rfl⟩ := ih others
      rw [decodeWord?_eq_some_iff] at first
      subst first
      simp [lengthEq, List.append_assoc]
  · rintro ⟨rfl, rfl⟩
    exact decodeWords?_encodeWords words rest

/-- A byte string with room for so many words starts with so many words. -/
theorem exists_encodeWords (count : Nat) (bytes : Bytes) (enough : 4 * count ≤ bytes.length) :
    ∃ words rest, words.length = count ∧ bytes = encodeWords words ++ rest := by
  induction count generalizing bytes with
  | zero => exact ⟨[], bytes, rfl, rfl⟩
  | succ count ih =>
    match bytes, enough with
    | a :: b :: c :: d :: bytes, enough =>
      obtain ⟨words, rest, counted, rfl⟩ :=
        ih bytes (by simp only [List.length_cons] at enough; omega)
      refine ⟨wordOfBytes a b c d :: words, rest, by simp [counted], ?_⟩
      rw [encodeWords_cons, encodeWord_wordOfBytes]
      rfl

end TezosSigner
