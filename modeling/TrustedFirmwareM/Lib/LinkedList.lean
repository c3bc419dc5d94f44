import Mathlib.Logic.Function.Basic
import Mathlib.Data.List.Nodup
import Mathlib.Data.List.Basic

/-!
# Intrusive singly linked lists

A list whose nodes carry their own link is given by a link function and the link stored in its
head.  `Chain` says which nodes are reached from a link before the null link; the remaining results
describe traversal, insertion behind the head and the removal of one node through its holder.
-/

namespace LinkedList

variable {α : Type*}

/-- The nodes reached from a link, in order, ending in the null link. -/
inductive Chain (next : α → Option α) : Option α → List α → Prop
  | nil : Chain next none []
  | cons {node : α} {nodes : List α} (tail : Chain next (next node) nodes) :
      Chain next (some node) (node :: nodes)

/-- Follow the links from a head, giving up after `fuel` nodes. -/
def walk (next : α → Option α) : ℕ → Option α → Option (List α)
  | _, none => some []
  | 0, some _ => none
  | fuel + 1, some node => (walk next fuel (next node)).map (node :: ·)

/-- Split a list at the last entry that satisfies a test. -/
def splitLast (test : α → Bool) : List α → Option (List α × α × List α)
  | [] => none
  | node :: nodes =>
      match splitLast test nodes with
      | some (before, found, after) => some (node :: before, found, after)
      | none => if test node then some ([], node, nodes) else none

/-- The link function and head left when `node`, found behind the nodes `before`, is taken out of
its list: the holder of the node receives the node's own link, which stays in the node. -/
def unlink [DecidableEq α] (next : α → Option α) (head : Option α) (before : List α) (node : α) :
    (α → Option α) × Option α :=
  match before.getLast? with
  | none => (next, next node)
  | some holder => (Function.update next holder (next node), head)

/-! ## Chains -/

theorem Chain.unique {next : α → Option α} {head : Option α} {left right : List α}
    (left_chain : Chain next head left) (right_chain : Chain next head right) : left = right := by
  induction left_chain generalizing right with
  | nil =>
      cases right_chain
      rfl
  | cons _ ih =>
      cases right_chain with
      | cons tail => rw [ih tail]

theorem Chain.congr {next next' : α → Option α} {head : Option α} {nodes : List α}
    (chain : Chain next head nodes) (same : ∀ node ∈ nodes, next' node = next node) :
    Chain next' head nodes := by
  induction chain with
  | nil => exact .nil
  | @cons node nodes _ ih =>
      refine .cons ?_
      rw [same node List.mem_cons_self]
      exact ih fun other member => same other (List.mem_cons_of_mem node member)

theorem Chain.of_append {next : α → Option α} {head : Option α} {before nodes : List α}
    (chain : Chain next head (before ++ nodes)) : ∃ link, Chain next link nodes := by
  induction before generalizing head with
  | nil => exact ⟨head, chain⟩
  | cons node before ih =>
      cases chain with
      | cons tail => exact ih tail

/-- A chain that ends never meets a node twice. -/
theorem Chain.nodup {next : α → Option α} {head : Option α} {nodes : List α}
    (chain : Chain next head nodes) : nodes.Nodup := by
  induction chain with
  | nil => exact List.nodup_nil
  | @cons node nodes tail ih =>
      refine List.nodup_cons.2 ⟨?_, ih⟩
      intro again
      -- the links from the second meeting would repeat the links from the first
      obtain ⟨before, after, split⟩ := List.append_of_mem again
      rw [split] at tail
      obtain ⟨link, later⟩ := tail.of_append
      cases later with
      | cons rest =>
          have lengths := congrArg List.length (rest.unique tail)
          simp only [List.length_append, List.length_cons] at lengths
          omega

theorem Chain.push [DecidableEq α] {next : α → Option α} {head : Option α} {nodes : List α}
    {node : α} (chain : Chain next head nodes) (fresh : node ∉ nodes) :
    Chain (Function.update next node head) (some node) (node :: nodes) := by
  refine .cons ?_
  rw [Function.update_self]
  refine chain.congr fun other member => Function.update_of_ne ?_ _ _
  rintro rfl
  exact fresh member

theorem Chain.unlink [DecidableEq α] {next : α → Option α} {head : Option α}
    {before after : List α} {node : α} (chain : Chain next head (before ++ node :: after)) :
    Chain (unlink next head before node).1 (unlink next head before node).2 (before ++ after) := by
  rcases List.eq_nil_or_concat' before with rfl | ⟨front, holder, rfl⟩
  · cases chain with
    | cons tail => simpa [LinkedList.unlink] using tail
  · simp only [LinkedList.unlink, List.getLast?_append, List.getLast?_singleton, Option.some_or]
    rw [List.append_assoc] at chain ⊢
    have holder_fresh : holder ∉ front := by
      have distinct := chain.nodup
      rw [List.nodup_append] at distinct
      intro member
      exact distinct.2.2 holder member holder (by simp) rfl
    have after_fresh : holder ∉ after := by
      have distinct := chain.nodup
      rw [List.nodup_append] at distinct
      have tail_distinct := distinct.2.1
      simp only [List.singleton_append, List.nodup_cons, List.mem_cons, not_or] at tail_distinct
      exact tail_distinct.1.2
    induction front generalizing head with
    | nil =>
        cases chain with
        | cons tail =>
            generalize next_eq : next holder = link at tail
            cases tail with
            | cons rest =>
                refine .cons ?_
                rw [Function.update_self]
                refine rest.congr fun other member => Function.update_of_ne ?_ _ _
                rintro rfl
                exact after_fresh member
    | cons first front ih =>
        cases chain with
        | cons tail =>
            have first_ne : first ≠ holder := by
              rintro rfl
              exact holder_fresh List.mem_cons_self
            refine .cons ?_
            rw [Function.update_of_ne first_ne]
            exact ih tail fun member => holder_fresh (List.mem_cons_of_mem first member)

/-- Insert a node behind a holder: the node receives the link of the holder. -/
theorem Chain.insert {next next' : α → Option α} {head : Option α}
    {before after : List α} {holder node : α}
    (chain : Chain next head (before ++ holder :: after)) (fresh : node ∉ before ++ holder :: after)
    (node_next : next' node = next holder) (holder_next : next' holder = some node)
    (others : ∀ other, other ≠ node → other ≠ holder → next' other = next other) :
    Chain next' head (before ++ holder :: node :: after) := by
  induction before generalizing head with
  | nil =>
      cases chain with
      | cons tail =>
          have holder_fresh : holder ∉ after := (List.nodup_cons.1 (Chain.cons tail).nodup).1
          refine .cons ?_
          rw [holder_next]
          refine .cons ?_
          rw [node_next]
          refine tail.congr fun other member => others other ?_ ?_
          · rintro rfl
            exact fresh (List.mem_cons_of_mem holder member)
          · rintro rfl
            exact holder_fresh member
  | cons first before ih =>
      have first_ne : first ≠ holder := by
        rintro rfl
        exact (List.nodup_cons.1 chain.nodup).1 (by simp)
      cases chain with
      | cons tail =>
          refine .cons ?_
          rw [others first (by rintro rfl; exact fresh List.mem_cons_self) first_ne]
          exact ih tail fun member => fresh (List.mem_cons_of_mem first member)

/-! ## Traversal -/

theorem Chain.walk_eq {next : α → Option α} {head : Option α} {nodes : List α} {fuel : ℕ}
    (chain : Chain next head nodes) (enough : nodes.length ≤ fuel) :
    walk next fuel head = some nodes := by
  induction chain generalizing fuel with
  | nil => cases fuel <;> rfl
  | cons _ ih =>
      cases fuel with
      | zero => simp at enough
      | succ fuel =>
          rw [walk, ih (by simpa using enough)]
          rfl

/-! ## The last entry that satisfies a test -/

theorem splitLast_eq_none {test : α → Bool} {nodes : List α} :
    splitLast test nodes = none ↔ ∀ node ∈ nodes, test node = false := by
  induction nodes with
  | nil => simp [splitLast]
  | cons node nodes ih =>
      rw [splitLast]
      cases inner : splitLast test nodes with
      | some found =>
          simp only [reduceCtorEq, false_iff]
          intro clear
          have rest := ih.2 fun other member => clear other (List.mem_cons_of_mem node member)
          rw [rest] at inner
          cases inner
      | none =>
          have rest := ih.1 inner
          simp only [ite_eq_right_iff, reduceCtorEq, imp_false, List.mem_cons, forall_eq_or_imp]
          constructor
          · intro test_node
            exact ⟨by simpa using test_node, rest⟩
          · rintro ⟨test_node, -⟩
            simp [test_node]

theorem splitLast_eq_some {test : α → Bool} {nodes before after : List α} {found : α}
    (split : splitLast test nodes = some (before, found, after)) :
    nodes = before ++ found :: after ∧ test found = true ∧ ∀ node ∈ after, test node = false := by
  induction nodes generalizing before found after with
  | nil => cases split
  | cons node nodes ih =>
      rw [splitLast] at split
      cases inner : splitLast test nodes with
      | some result =>
          rw [inner] at split
          cases split
          obtain ⟨nodes_eq, test_found, test_after⟩ := ih inner
          exact ⟨congrArg (node :: ·) nodes_eq, test_found, test_after⟩
      | none =>
          rw [inner] at split
          by_cases test_node : test node = true
          · simp only [test_node, if_true, Option.some.injEq, Prod.mk.injEq] at split
            obtain ⟨rfl, rfl, rfl⟩ := split
            exact ⟨rfl, test_node, splitLast_eq_none.1 inner⟩
          · simp [test_node] at split

end LinkedList
