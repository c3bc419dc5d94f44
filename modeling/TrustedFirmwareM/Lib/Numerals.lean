import Mathlib.Algebra.GroupWithZero.Nat

/-!
# Numerals of small finite types

The numerals of `Fin n` are those of a positive `n`.  The sizes that stand in definitions have their
instances here, by name.
-/

instance neZero_one : NeZero (1 : ℕ) := ⟨by decide⟩

instance neZero_two : NeZero (2 : ℕ) := ⟨by decide⟩

instance neZero_three : NeZero (3 : ℕ) := ⟨by decide⟩

instance neZero_four : NeZero (4 : ℕ) := ⟨by decide⟩
