import Mathlib.Logic.Relation

/-!
# Settled sets

A set of nodes is settled when it is closed under the steps of a relation and no node of it is on a
cycle.  Settled sets grow by nodes all of whose steps lead into them, and so a search that leaves a
node only after its successors ends with the nodes that are not on cycles.
-/

open Relation

variable {α : Type*} {R : α → α → Prop} {V : α → Prop} {x y : α}

/-- A set is closed under a relation, and no node of it is on a cycle. -/
structure Settled (R : α → α → Prop) (V : α → Prop) : Prop where
  /-- Steps stay in the set. -/
  closed : ∀ x y, V x → R x y → V y
  /-- No node is on a cycle. -/
  acyclic : ∀ x, V x → ¬TransGen R x x

theorem settled_empty : Settled R fun _ ↦ False where
  closed _ _ none _ := none
  acyclic _ none _ := none

theorem Settled.of_path (settled : Settled R V) (path : TransGen R x y) (mem : V x) : V y := by
  induction path with
  | single step => exact settled.closed _ _ mem step
  | tail _ step induction => exact settled.closed _ _ induction step

/-- A node is settled when its successors are. -/
theorem Settled.insert (settled : Settled R V) (leads : ∀ y, R x y → V y) :
    Settled R fun y ↦ y = x ∨ V y where
  closed := by
    intro y z mem step
    rcases mem with rfl | mem
    · exact .inr (leads z step)
    · exact .inr (settled.closed y z mem step)
  acyclic := by
    intro y mem cycle
    rcases mem with rfl | mem
    · -- The first step of the cycle leads into the settled set, and the rest of it back.
      obtain ⟨z, step, rest⟩ := TransGen.head'_iff.mp cycle
      have inside : V y := by
        rcases reflTransGen_iff_eq_or_transGen.mp rest with rfl | path
        · exact leads y step
        · exact settled.of_path path (leads z step)
      exact settled.acyclic y inside cycle
    · exact settled.acyclic y mem cycle

theorem Settled.congr {W : α → Prop} (settled : Settled R V) (same : ∀ x, W x ↔ V x) :
    Settled R W := by
  have eq : W = V := funext fun x ↦ propext (same x)
  rwa [eq]
