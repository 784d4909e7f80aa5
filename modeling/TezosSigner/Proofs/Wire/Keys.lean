/-
Module: TezosSigner.Proofs.Wire.Keys
Purpose: Which byte strings start with a key, and what is wrong with the others.
Main exports:
  KeyPath.curveByte?, KeyPath.decode_eq_ok_iff, KeyPath.decode_eq_invalidLength_iff,
  KeyPath.decode_eq_invalidEncoding_iff
-/
import TezosSigner.Key.Layout

namespace TezosSigner.KeyPath

/-!
The first byte of a key says where its last byte is to be found.  A byte string whose first byte
is not a number of steps, or that ends before it gets there, is of the wrong length; all others
start with a key but for the curve that the last byte may or may not stand for.
-/

/-- The byte that stands where a byte string that starts with a key has its curve.  There is none
if the first byte is not a number of steps, or if the bytes end before the curve. -/
def curveByte? : Bytes → Option UInt8
  | [] => none
  | count :: bytes =>
      if 1 ≤ count.toNat ∧ count.toNat ≤ maxDepth then bytes[4 * count.toNat]? else none

/-- A key is not read off a byte string with a number of steps out of its limits. -/
theorem decode_of_count {count : UInt8} {bytes : Bytes}
    (limits : count.toNat = 0 ∨ maxDepth < count.toNat) :
    decode (count :: bytes) = .error .invalidLength := by
  rw [decode]
  split
  · rename_i path _ _ read
    rw [decodeWords?_eq_some_iff] at read
    have outside : ¬ (path ≠ [] ∧ path.length ≤ maxDepth) := by
      rintro ⟨steps, depth⟩
      have some := List.length_pos_iff.2 steps
      omega
    exact dif_neg outside
  · rfl

/-- A key is not read off a byte string that is too short for its steps and its curve. -/
theorem decode_of_short {count : UInt8} {bytes : Bytes}
    (short : bytes.length < 4 * count.toNat + 1) :
    decode (count :: bytes) = .error .invalidLength := by
  rw [decode]
  split
  · rename_i read
    obtain ⟨counted, rfl⟩ := decodeWords?_eq_some_iff.1 read
    simp only [List.length_append, length_encodeWords, List.length_cons] at short
    omega
  · rfl

/-- A key is read off its steps and the byte of its curve. -/
theorem decode_words {count curveByte : UInt8} {path : List UInt32} {bytes : Bytes}
    (counted : path.length = count.toNat) (limits : path ≠ [] ∧ path.length ≤ maxDepth) :
    decode (count :: (encodeWords path ++ curveByte :: bytes)) =
      match Curve.ofCode? curveByte with
      | some curve =>
          .ok ({ curve := curve, path := path, depth_le := limits.2 }, 2 + 4 * path.length)
      | none => .error .invalidEncoding := by
  rw [decode, ← counted, decodeWords?_encodeWords]
  exact dif_pos limits

variable {bytes rest : Bytes} {key : KeyPath} {curveByte : UInt8}

theorem curveByte?_words {path : List UInt32} (limits : path ≠ [] ∧ path.length ≤ maxDepth) :
    curveByte? (UInt8.ofNat path.length :: (encodeWords path ++ curveByte :: rest)) =
      some curveByte := by
  have count := toNat_ofNat_length limits.2
  have steps := List.length_pos_iff.2 limits.1
  rw [curveByte?, count, if_pos ⟨steps, limits.2⟩]
  simp

/-- Before the byte of the curve stand the steps. -/
theorem exists_words (announced : curveByte? bytes = some curveByte) :
    ∃ path rest, path ≠ [] ∧ path.length ≤ maxDepth ∧
      bytes = UInt8.ofNat path.length :: (encodeWords path ++ curveByte :: rest) := by
  cases bytes with
  | nil => cases announced
  | cons count bytes =>
    rw [curveByte?] at announced
    split at announced
    · rename_i limits
      obtain ⟨inside, _⟩ := List.getElem?_eq_some_iff.1 announced
      obtain ⟨path, tail, counted, rfl⟩ := exists_encodeWords count.toNat bytes (by omega)
      have behind : tail[0]? = some curveByte := by
        rw [← announced, List.getElem?_append_right (by simp [counted])]
        simp [counted]
      cases tail with
      | nil => cases behind
      | cons first rest =>
        cases behind
        have steps : path ≠ [] := List.length_pos_iff.1 (by omega)
        refine ⟨path, rest, steps, by omega, ?_⟩
        rw [counted, UInt8.ofNat_toNat]
    · cases announced

theorem curveByte?_layout_append (steps : key.path ≠ []) :
    curveByte? (key.layout ++ rest) = some key.curve.code := by
  have standing := @curveByte?_words rest key.curve.code key.path ⟨steps, key.depth_le⟩
  simpa [layout] using standing

/-- What reading a key comes to. -/
inductive Decodes (bytes : Bytes) : Except WireError (KeyPath × Nat) → Prop where
  | key {key : KeyPath} {rest : Bytes} (steps : key.path ≠ [])
      (starts : bytes = key.layout ++ rest) : Decodes bytes (.ok (key, key.layout.length))
  /-- There is no complete path of one to ten steps. -/
  | incomplete (nowhere : curveByte? bytes = none) : Decodes bytes (.error .invalidLength)
  /-- The path is complete, and the byte after it stands for no curve. -/
  | unknown {curveByte : UInt8} (standing : curveByte? bytes = some curveByte)
      (curve : Curve.ofCode? curveByte = none) : Decodes bytes (.error .invalidEncoding)

theorem decodes (bytes : Bytes) : Decodes bytes (decode bytes) := by
  cases standing : curveByte? bytes with
  | none =>
    have refused : decode bytes = .error .invalidLength := by
      cases bytes with
      | nil => rfl
      | cons count bytes =>
        rw [curveByte?] at standing
        split at standing
        · have short := List.getElem?_eq_none_iff.1 standing
          exact decode_of_short (by omega)
        · rename_i limits
          exact decode_of_count (by omega)
    rw [refused]
    exact .incomplete standing
  | some curveByte =>
    obtain ⟨path, rest, steps, depth, rfl⟩ := exists_words standing
    rw [decode_words (toNat_ofNat_length depth).symm ⟨steps, depth⟩]
    cases curve : Curve.ofCode? curveByte with
    | none => exact .unknown standing curve
    | some known =>
      rw [Curve.ofCode?_eq_some_iff] at curve
      subst curve
      have read := @Decodes.key _ { curve := known, path := path, depth_le := depth } rest steps rfl
      rw [length_layout] at read
      simpa [layout] using read

/-- A key that is read is the one whose bytes come first, and it has steps. -/
theorem decode_eq_ok_iff {length : Nat} :
    decode bytes = .ok (key, length) ↔
      key.path ≠ [] ∧ length = key.layout.length ∧ ∃ rest, bytes = key.layout ++ rest := by
  constructor
  · intro read
    have outcome := decodes bytes
    rw [read] at outcome
    cases outcome with
    | key steps starts => exact ⟨steps, rfl, _, starts⟩
  · rintro ⟨steps, rfl, rest, rfl⟩
    rw [decode_layout_append key rest steps, length_layout]

theorem decode_eq_invalidLength_iff :
    decode bytes = .error .invalidLength ↔ curveByte? bytes = none := by
  constructor
  · intro refused
    have outcome := decodes bytes
    rw [refused] at outcome
    cases outcome with
    | incomplete nowhere => exact nowhere
  · intro nowhere
    generalize outcomeEq : decode bytes = outcome
    have outcomes := decodes bytes
    rw [outcomeEq] at outcomes
    cases outcomes with
    | key steps starts =>
      rw [starts, curveByte?_layout_append steps] at nowhere
      cases nowhere
    | incomplete _ => rfl
    | unknown standing _ => cases nowhere.symm.trans standing

theorem decode_eq_invalidEncoding_iff :
    decode bytes = .error .invalidEncoding ↔
      ∃ curveByte, curveByte? bytes = some curveByte ∧ Curve.ofCode? curveByte = none := by
  constructor
  · intro refused
    have outcome := decodes bytes
    rw [refused] at outcome
    cases outcome with
    | unknown standing curve => exact ⟨_, standing, curve⟩
  · rintro ⟨curveByte, standing, curve⟩
    obtain ⟨path, rest, steps, depth, rfl⟩ := exists_words standing
    rw [decode_words (toNat_ofNat_length depth).symm ⟨steps, depth⟩, curve]

end TezosSigner.KeyPath
