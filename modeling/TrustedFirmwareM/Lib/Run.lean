import Mathlib.Logic.Relation

/-!
# Runs of partial step functions

A system is given by a step function that may refuse an action.  A guard restricts the actions that
a run may take in a state; results about guarded runs are results about every run when the guard is
trivial.
-/

namespace Run

variable {σ α : Type*}

/-- States reached from `start` by accepted actions, each satisfying the guard where it is taken. -/
inductive Reaches (step : σ → α → Option σ) (guard : σ → α → Prop) (start : σ) : σ → Prop
  | refl : Reaches step guard start start
  | tail {before after : σ} {action : α} (reach : Reaches step guard start before)
      (allowed : guard before action) (step_eq : step before action = some after) :
      Reaches step guard start after

/-- Execute a list of actions, stopping at the first one that is refused. -/
def exec (step : σ → α → Option σ) : σ → List α → Option σ
  | state, [] => some state
  | state, action :: actions =>
      match step state action with
      | none => none
      | some after => exec step after actions

/-- A property of the start that every allowed step preserves holds throughout. -/
theorem Reaches.invariant {step : σ → α → Option σ} {guard : σ → α → Prop} {start state : σ}
    {I : σ → Prop} (reach : Reaches step guard start state) (initial : I start)
    (preserved : ∀ before action after, I before → guard before action →
      step before action = some after → I after) :
    I state := by
  induction reach with
  | refl => exact initial
  | tail _ allowed step_eq ih => exact preserved _ _ _ ih allowed step_eq

/-- A run of a system is a run of another one that its states and steps are mapped to. -/
theorem Reaches.map {τ : Type*} {step : σ → α → Option σ} {step' : τ → α → Option τ}
    {guard : σ → α → Prop} {guard' : τ → α → Prop} {start state : σ} (f : σ → τ)
    (reach : Reaches step guard start state)
    (commutes : ∀ before action after, step before action = some after →
      step' (f before) action = some (f after))
    (allowed : ∀ before action, guard before action → guard' (f before) action) :
    Reaches step' guard' (f start) (f state) := by
  induction reach with
  | refl => exact .refl
  | tail _ guarded step_eq ih => exact .tail ih (allowed _ _ guarded) (commutes _ _ _ step_eq)

theorem Reaches.trans {step : σ → α → Option σ} {guard : σ → α → Prop} {start middle state : σ}
    (first : Reaches step guard start middle) (second : Reaches step guard middle state) :
    Reaches step guard start state := by
  induction second with
  | refl => exact first
  | tail _ allowed step_eq ih => exact .tail ih allowed step_eq

/-- Every action of a list satisfies the guard where it is taken. -/
def Allowed (step : σ → α → Option σ) (guard : σ → α → Prop) : σ → List α → Prop
  | _, [] => True
  | state, action :: actions =>
      guard state action ∧ ∀ after, step state action = some after →
        Allowed step guard after actions

/-- An executed list of allowed actions is a run. -/
theorem exec_reaches {step : σ → α → Option σ} {guard : σ → α → Prop} {start state : σ}
    {actions : List α} (exec_eq : exec step start actions = some state)
    (allowed : Allowed step guard start actions) : Reaches step guard start state := by
  induction actions generalizing start with
  | nil =>
      cases exec_eq
      exact .refl
  | cons action actions ih =>
      rw [exec] at exec_eq
      split at exec_eq
      · cases exec_eq
      · next after step_eq =>
          exact (Reaches.tail .refl allowed.1 step_eq).trans
            (ih exec_eq (allowed.2 after step_eq))

/-- The last action of an executed list is taken in the state that the others lead to. -/
theorem exec_concat_eq_some {step : σ → α → Option σ} {start after : σ} {actions : List α}
    {action : α} (exec_eq : exec step start (actions ++ [action]) = some after) :
    ∃ before, exec step start actions = some before ∧ step before action = some after := by
  induction actions generalizing start with
  | nil =>
      rw [List.nil_append, exec] at exec_eq
      split at exec_eq
      · cases exec_eq
      · next step_eq =>
          cases exec_eq
          exact ⟨start, rfl, step_eq⟩
  | cons first rest ih =>
      rw [List.cons_append, exec] at exec_eq
      rw [exec]
      split at exec_eq
      · cases exec_eq
      · exact ih exec_eq

theorem exec_cons_eq_some {step : σ → α → Option σ} {start state : σ} {action : α}
    {actions : List α}
    (exec_eq : exec step start (action :: actions) = some state) :
    ∃ after, step start action = some after ∧ exec step after actions = some state := by
  rw [exec] at exec_eq
  split at exec_eq
  · cases exec_eq
  · next after step_eq => exact ⟨after, step_eq, exec_eq⟩

/-- The last action of a list is allowed in the state that the others lead to. -/
theorem allowed_concat {step : σ → α → Option σ} {guard : σ → α → Prop} {start state : σ}
    {actions : List α} {action : α} (exec_eq : exec step start actions = some state)
    (allowed : Allowed step guard start (actions ++ [action])) :
    Allowed step guard start actions ∧ guard state action := by
  induction actions generalizing start with
  | nil =>
      cases exec_eq
      exact ⟨trivial, allowed.1⟩
  | cons first rest ih =>
      obtain ⟨after, step_eq, rest_eq⟩ := exec_cons_eq_some exec_eq
      obtain ⟨before, last⟩ := ih rest_eq (allowed.2 after step_eq)
      refine ⟨⟨allowed.1, fun after' step_eq' ↦ ?_⟩, last⟩
      cases step_eq.symm.trans step_eq'
      exact before

/-- Test whether every action of a list satisfies a guard where it is taken. -/
def allowedBy (step : σ → α → Option σ) (test : σ → α → Bool) : σ → List α → Bool
  | _, [] => true
  | state, action :: actions =>
      test state action && (step state action).all fun after ↦ allowedBy step test after actions

theorem allowed_of_allowedBy {step : σ → α → Option σ} {guard : σ → α → Prop} {test : σ → α → Bool}
    {start : σ} {actions : List α}
    (sound : ∀ state action, test state action = true → guard state action)
    (allowed : allowedBy step test start actions = true) : Allowed step guard start actions := by
  induction actions generalizing start with
  | nil => trivial
  | cons action actions ih =>
      rw [allowedBy, Bool.and_eq_true] at allowed
      exact ⟨sound _ _ allowed.1, fun after step_eq ↦
        ih ((Option.all_eq_true ..).1 allowed.2 after step_eq)⟩

/-- A guard that can be decided is its own test. -/
theorem allowed_of_decide {step : σ → α → Option σ} {guard : σ → α → Prop}
    [∀ state action, Decidable (guard state action)] {start : σ} {actions : List α}
    (allowed : allowedBy step (fun state action ↦ decide (guard state action)) start actions =
      true) : Allowed step guard start actions :=
  allowed_of_allowedBy (fun _ _ ↦ of_decide_eq_true) allowed

/-- Every list of actions is allowed by the trivial guard. -/
theorem allowed_true (step : σ → α → Option σ) (start : σ) (actions : List α) :
    Allowed step (fun _ _ ↦ True) start actions := by
  induction actions generalizing start with
  | nil => trivial
  | cons action actions ih => exact ⟨trivial, fun after _ ↦ ih after⟩

/-! ## Simulations -/

section

variable {τ : Type*} {next : τ → α → τ → Prop}

/-- A list of actions leads from one state of a system that may make choices to another. -/
inductive Follows (next : τ → α → τ → Prop) : τ → List α → τ → Prop
  | nil (t : τ) : Follows next t [] t
  | cons {t t' t'' : τ} {action : α} {actions : List α} (first : next t action t')
      (rest : Follows next t' actions t'') : Follows next t (action :: actions) t''

/-- A property that every action of a list preserves. -/
theorem Follows.invariant {I : τ → Prop} {t t' : τ} {actions : List α}
    (follows : Follows next t actions t') (initial : I t)
    (preserved : ∀ before, ∀ action ∈ actions, ∀ after, I before →
      next before action after → I after) :
    I t' := by
  induction follows with
  | nil => exact initial
  | cons first rest ih =>
      exact ih (preserved _ _ List.mem_cons_self _ initial first)
        fun before action member ↦ preserved before action (List.mem_cons_of_mem _ member)

/-- A list of actions in two parts. -/
theorem Follows.append_inv {t t'' : τ} {actions later : List α}
    (follows : Follows next t (actions ++ later) t'') :
    ∃ t', Follows next t actions t' ∧ Follows next t' later t'' := by
  induction actions generalizing t with
  | nil => exact ⟨t, .nil t, follows⟩
  | cons action actions ih =>
      cases follows with
      | cons first rest =>
          obtain ⟨t', before, behind⟩ := ih rest
          exact ⟨t', .cons first before, behind⟩

/-- A system that is simulated step by step is simulated over whole runs. -/
theorem exec_follows {step : σ → α → Option σ} {guard : σ → α → Prop} {R : σ → τ → Prop}
    (simulates : ∀ state t action after, R state t → guard state action →
      step state action = some after → ∃ t', next t action t' ∧ R after t')
    {start state : σ} {t : τ} {actions : List α} (related : R start t)
    (exec_eq : exec step start actions = some state) (allowed : Allowed step guard start actions) :
    ∃ t', Follows next t actions t' ∧ R state t' := by
  induction actions generalizing start t with
  | nil =>
      cases exec_eq
      exact ⟨t, .nil t, related⟩
  | cons action actions ih =>
      rw [exec] at exec_eq
      split at exec_eq
      · cases exec_eq
      · next after step_eq =>
          obtain ⟨t', first, related'⟩ := simulates start t action after related allowed.1 step_eq
          obtain ⟨t'', rest, related''⟩ := ih related' exec_eq (allowed.2 after step_eq)
          exact ⟨t'', .cons first rest, related''⟩

end

end Run
