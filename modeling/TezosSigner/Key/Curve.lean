/-
Module: TezosSigner.Key.Curve
Purpose: The signing curves and their one-byte codes.
Main exports: Curve, Curve.code, Curve.ofCode?, Curve.isEcdsa
-/
import TezosSigner.Labelled

namespace TezosSigner

/-- The curve a key signs with. -/
inductive Curve where
  | ed25519
  | secp256k1
  | secp256r1
deriving Repr, Inhabited, DecidableEq

namespace Curve

instance : Labelled Curve where
  all := [.ed25519, .secp256k1, .secp256r1]
  label
    | .ed25519 => "Ed25519"
    | .secp256k1 => "Secp256k1"
    | .secp256r1 => "Secp256r1"

/-- The byte that stands for a curve in messages and in the persisted record. -/
def code : Curve → UInt8
  | .ed25519 => 0x00
  | .secp256k1 => 0x01
  | .secp256r1 => 0x02

/-- The curve a byte stands for. -/
def ofCode? : UInt8 → Option Curve
  | 0x00 => some .ed25519
  | 0x01 => some .secp256k1
  | 0x02 => some .secp256r1
  | _ => none

/-- ECDSA signatures come with a recovery parity and have no fixed length. -/
def isEcdsa : Curve → Bool
  | .ed25519 => false
  | .secp256k1 => true
  | .secp256r1 => true

@[simp] theorem ofCode?_code (curve : Curve) : ofCode? curve.code = some curve := by
  cases curve <;> rfl

theorem ofCode?_eq_some_iff {byte : UInt8} {curve : Curve} :
    ofCode? byte = some curve ↔ byte = curve.code := by
  constructor
  · intro h
    unfold ofCode? at h
    split at h <;> cases h <;> rfl
  · rintro rfl
    exact ofCode?_code curve

theorem ofCode?_eq_none_iff {byte : UInt8} :
    ofCode? byte = none ↔ ∀ curve : Curve, byte ≠ curve.code := by
  simp only [Option.eq_none_iff_forall_ne_some, ne_eq, ofCode?_eq_some_iff]

/-- The bytes up to two are the ones that stand for a curve. -/
theorem exists_code_iff {byte : UInt8} :
    (∃ curve : Curve, byte = curve.code) ↔ byte.toNat ≤ 2 := by
  constructor
  · rintro ⟨curve, rfl⟩
    cases curve <;> decide
  · intro known
    have values : byte.toNat = 0 ∨ byte.toNat = 1 ∨ byte.toNat = 2 := by omega
    rcases values with zero | one | two
    · exact ⟨.ed25519, UInt8.toNat_inj.1 zero⟩
    · exact ⟨.secp256k1, UInt8.toNat_inj.1 one⟩
    · exact ⟨.secp256r1, UInt8.toNat_inj.1 two⟩

end Curve

end TezosSigner
