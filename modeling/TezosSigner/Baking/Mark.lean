/-
Module: TezosSigner.Baking.Mark
Purpose: Levels, and the marks that order what a baking key signs.
Main exports: isValidLevel, isValidLevel_iff, Mark, Mark.advances, Mark.advances_iff_lt
-/

namespace TezosSigner

/-!
A baking key signs at most one block and one endorsement per level, and nothing
below what it has signed.  A `Mark` is a place in that order: a level, and whether
it is the endorsement of that level or the block before it.  Marks are ordered by
level first, and `advances` is the test that the guard makes for that order.
-/

/-- The two top bits of a level are reserved, so levels stay below 2^30. -/
def isValidLevel (level : UInt32) : Bool :=
  level < 0x40000000

/-- A level is valid exactly if its two top bits are clear. -/
theorem isValidLevel_iff (level : UInt32) :
    isValidLevel level = true ↔ level &&& 0xC0000000 = 0 := by
  have bound : level.toNat < 2 ^ 32 := level.toNat_lt
  have mask : (0xC0000000 : UInt32).toNat = 3 <<< 30 := by decide
  have below : isValidLevel level = true ↔ level.toNat < 2 ^ 30 := by
    simp only [isValidLevel, decide_eq_true_eq, UInt32.lt_iff_toNat_lt]
    exact Iff.rfl
  rw [below, ← UInt32.toNat_inj, UInt32.toNat_and, mask]
  constructor
  · intro small
    apply Nat.eq_of_testBit_eq
    intro i
    have high : i ≥ 30 → level.toNat.testBit i = false := by
      intro long
      have larger : 2 ^ 30 ≤ 2 ^ i := Nat.pow_le_pow_right (by decide) long
      exact Nat.testBit_lt_two_pow (Nat.lt_of_lt_of_le small larger)
    rw [Nat.testBit_and, Nat.testBit_shiftLeft]
    by_cases long : i ≥ 30
    · simp [high long]
    · simp [long]
  · intro clear
    apply Nat.lt_pow_two_of_testBit
    intro i long
    -- Of the bits from 30 up, two belong to the mask and the others to no level.
    by_cases top : i < 32
    · have masked : (level.toNat &&& 3 <<< 30).testBit i = false := by
        rw [clear]
        exact Nat.zero_testBit i
      have set : (3 <<< 30 : Nat).testBit i = true := by
        have reserved : i = 30 ∨ i = 31 := by omega
        rcases reserved with rfl | rfl <;> decide
      rw [Nat.testBit_and, set, Bool.and_true] at masked
      exact masked
    · have larger : 2 ^ 32 ≤ 2 ^ i := Nat.pow_le_pow_right (by decide) (by omega)
      exact Nat.testBit_lt_two_pow (Nat.lt_of_lt_of_le bound larger)

/-- A place in the order of what a baking key signs: a level, and whether it has
been endorsed. -/
structure Mark where
  level : UInt32
  endorsement : Bool
deriving Repr, Inhabited, DecidableEq

namespace Mark

/-- Marks are ordered by level, and at one level the block comes before the
endorsement. -/
instance : LT Mark where
  lt mark next :=
    mark.level < next.level ∨
      (mark.level = next.level ∧ mark.endorsement = false ∧ next.endorsement = true)

/-- Whether signing at `next` moves beyond `mark`: any higher level does, and at the
level of the mark only the first endorsement does. -/
def advances (mark next : Mark) : Bool :=
  mark.level < next.level ||
    (next.level == mark.level && next.endorsement && !mark.endorsement)

theorem lt_iff {mark next : Mark} :
    mark < next ↔
      mark.level < next.level ∨
        (mark.level = next.level ∧ mark.endorsement = false ∧ next.endorsement = true) :=
  Iff.rfl

/-- The test of the guard is the order of marks. -/
theorem advances_iff_lt {mark next : Mark} : mark.advances next = true ↔ mark < next := by
  rw [lt_iff]
  simp only [advances, Bool.or_eq_true, decide_eq_true_eq, Bool.and_eq_true, beq_iff_eq,
    Bool.not_eq_true']
  constructor
  · rintro (higher | ⟨⟨same, endorsed⟩, fresh⟩)
    · exact .inl higher
    · exact .inr ⟨same.symm, fresh, endorsed⟩
  · rintro (higher | ⟨same, fresh, endorsed⟩)
    · exact .inl higher
    · exact .inr ⟨⟨same.symm, endorsed⟩, fresh⟩

/-- Marks only move up along the order. -/
theorem lt_trans {first second third : Mark} (one : first < second) (two : second < third) :
    first < third := by
  rw [lt_iff] at *
  rcases one with higher | ⟨same, _, endorsed⟩
  · rcases two with higher' | ⟨same', _, _⟩
    · exact .inl (UInt32.lt_trans higher higher')
    · exact .inl (same' ▸ higher)
  · rcases two with higher' | ⟨_, fresh, _⟩
    · exact .inl (same ▸ higher')
    · rw [endorsed] at fresh
      cases fresh

end Mark

end TezosSigner
