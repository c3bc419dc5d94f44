import Mathlib.Data.List.Basic
import Mathlib.Tactic.TypeStar

/-!
# Cells

The contents of a device whose cells are numbered.  A write replaces consecutive cells.
-/

/-- Contents of the cells of a device. -/
abbrev Cells (β : Type*) := ℕ → β

namespace Cells

variable {β : Type*}

/-- The cells from a number on. -/
def read (cells : Cells β) (base len : ℕ) : List β := (List.range len).map fun i ↦ cells (base + i)

/-- Write cells from a number on. -/
def write (cells : Cells β) (base : ℕ) (values : List β) : Cells β :=
  fun a ↦ if base ≤ a then values[a - base]?.getD (cells a) else cells a

variable {cells cells' : Cells β} {base a : ℕ} {values : List β}

@[simp] theorem length_read (cells : Cells β) (base len : ℕ) :
    (cells.read base len).length = len := by
  simp [read]

theorem getElem?_read {i len : ℕ} (i_lt : i < len) :
    (cells.read base len)[i]? = some (cells (base + i)) := by
  rw [read, List.getElem?_map, List.getElem?_range i_lt]
  rfl

/-- What a write leaves in a cell depends on that cell only. -/
theorem write_congr (base : ℕ) (values : List β) (same : cells' a = cells a) :
    cells'.write base values a = cells.write base values a := by
  simp only [write, same]

theorem write_below (below : a < base) : cells.write base values a = cells a :=
  if_neg (Nat.not_le.2 below)

theorem write_above (above : base + values.length ≤ a) : cells.write base values a = cells a := by
  have beyond : values[a - base]? = none := List.getElem?_eq_none (by omega)
  rw [write, beyond, Option.getD_none, ite_self]

/-- A write changes nothing outside of what it covers. -/
theorem write_outside (outside : a < base ∨ base + values.length ≤ a) :
    cells.write base values a = cells a := by
  cases outside with
  | inl below => exact write_below below
  | inr above => exact write_above above

theorem write_add (cells : Cells β) (base : ℕ) (values : List β) (i : ℕ) :
    cells.write base values (base + i) = values[i]?.getD (cells (base + i)) := by
  rw [write, if_pos (Nat.le_add_right base i), Nat.add_sub_cancel_left]

theorem write_read_add {i len : ℕ} (i_lt : i < len) (source : Cells β) (origin : ℕ) :
    cells.write base (source.read origin len) (base + i) = source (origin + i) := by
  rw [write_add, getElem?_read i_lt, Option.getD_some]

theorem read_congr {len : ℕ} (same : ∀ i < len, cells' (base + i) = cells (base + i)) :
    cells'.read base len = cells.read base len := by
  apply List.map_congr_left
  intro i i_mem
  exact same i (List.mem_range.1 i_mem)

/-- What has been written is read. -/
theorem read_write_self : (cells.write base values).read base values.length = values := by
  apply List.ext_getElem?
  intro i
  rcases Nat.lt_or_ge i values.length with i_lt | i_ge
  · rw [getElem?_read i_lt, write_add, List.getElem?_eq_getElem i_lt, Option.getD_some]
  · rw [List.getElem?_eq_none (by simpa using i_ge), List.getElem?_eq_none i_ge]

theorem read_add (cells : Cells β) (base m n : ℕ) :
    cells.read base (m + n) = cells.read base m ++ cells.read (base + m) n := by
  simp only [read, List.range_add, List.map_append, List.map_map]
  congr 1
  apply List.map_congr_left
  intro i _
  simp only [Function.comp_apply, Nat.add_assoc]

theorem take_read (cells : Cells β) (base m n : ℕ) :
    (cells.read base (m + n)).take m = cells.read base m := by
  rw [read_add, List.take_left' (length_read cells base m)]

end Cells
