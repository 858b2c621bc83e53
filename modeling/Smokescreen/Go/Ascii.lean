import Mathlib.Data.List.Basic

/-! The ASCII byte classes Go's parsers test (`'a' <= c && c <= 'z'` and the like), as
`Char.isUpper`, `Char.isLower` and `Char.isDigit` compute them, read as ranges of code
points. -/

namespace Smokescreen.Go

theorem isUpper_iff (c : Char) : c.isUpper ↔ 65 ≤ c.toNat ∧ c.toNat ≤ 90 := by
  simp [Char.isUpper, Char.toNat, UInt32.le_def, UInt32.toNat, BitVec.le_def]

theorem isLower_iff (c : Char) : c.isLower ↔ 97 ≤ c.toNat ∧ c.toNat ≤ 122 := by
  simp [Char.isLower, Char.toNat, UInt32.le_def, UInt32.toNat, BitVec.le_def]

theorem isDigit_iff (c : Char) : c.isDigit ↔ 48 ≤ c.toNat ∧ c.toNat ≤ 57 := by
  simp [Char.isDigit, Char.toNat, UInt32.le_def, UInt32.toNat, BitVec.le_def]

/-- A letter or digit is a printable ASCII byte. -/
theorem isAlphanum_range {c : Char} (h : c.isAlphanum) : 48 ≤ c.toNat ∧ c.toNat ≤ 122 := by
  simp only [Char.isAlphanum, Char.isAlpha, Bool.or_eq_true, isUpper_iff, isLower_iff,
    isDigit_iff] at h
  omega

end Smokescreen.Go
