/-
Module: TezosSigner.Key.Path
Purpose: Keys, named by a curve and a derivation path.
Main exports: KeyPath, KeyPath.ofIndices, KeyPath.text
-/
import TezosSigner.Bytes
import TezosSigner.Key.Curve
import TezosSigner.Wire.Error

namespace TezosSigner

/-!
A device derives every key from its seed, so a key is named by the curve it signs
with and the path that leads to it.  A path is a list of at most ten 32-bit
indices, the top bit of an index marking a hardened step; that bound is part of
the type.  The empty path is a value of the type too, but `ofIndices` refuses it
and so does every decoder.
-/

/-- The greatest number of steps in a derivation path. -/
def maxDepth : Nat := 10

/-- The bit that marks a hardened derivation step. -/
def hardened : UInt32 := 0x80000000

/-- A key, named by its curve and derivation path. -/
structure KeyPath where
  curve : Curve
  /-- The derivation steps, from the master key outwards. -/
  path : List UInt32
  depth_le : path.length ≤ maxDepth
deriving DecidableEq, Repr

namespace KeyPath

theorem depth_le_of_steps {path : List UInt32} (h : path ≠ [] ∧ path.length ≤ maxDepth) :
    path.length ≤ maxDepth :=
  h.2

/-- The number of steps of a path fits a byte. -/
theorem toNat_ofNat_length {path : List UInt32} (depth : path.length ≤ maxDepth) :
    (UInt8.ofNat path.length).toNat = path.length := by
  unfold maxDepth at depth
  rw [UInt8.toNat_ofNat']
  omega

/-- The key at the end of a path, which must have between one and ten steps. -/
def ofIndices (curve : Curve) (path : List UInt32) : Except WireError KeyPath :=
  if h : path ≠ [] ∧ path.length ≤ maxDepth then
    .ok { curve := curve, path := path, depth_le := depth_le_of_steps h }
  else
    .error .invalidLength

/-- One derivation step as text: hardened steps are marked by an apostrophe and
written without the mark bit. -/
def stepText (step : UInt32) : String :=
  if step &&& hardened ≠ 0 then
    s!"/{(step &&& 0x7fffffff).toNat}'"
  else
    s!"/{step.toNat}"

/-- A key as text, for instance `Ed25519:m/44'/1729'/3`. -/
def text (key : KeyPath) : String :=
  Labelled.label key.curve ++ ":m" ++ String.join (key.path.map stepText)

end KeyPath

end TezosSigner
