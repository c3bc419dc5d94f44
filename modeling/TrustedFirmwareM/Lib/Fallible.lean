import Mathlib.Tactic.TypeStar

/-!
# Programs that may fail

A program works on a state and returns a value or an error.  What it has done to the state before it
fails stays done.
-/

/-- A program that works on a state and may fail. -/
def Fallible (σ ε α : Type) : Type := σ → Except ε α × σ

namespace Fallible

variable {σ ε ε' α β γ : Type}

instance : Monad (Fallible σ ε) where
  pure value := fun s ↦ (.ok value, s)
  bind x next := fun s ↦ match x s with
    | (.ok value, s') => next value s'
    | (.error e, s') => (.error e, s')

/-- Fail. -/
def fail (e : ε) : Fallible σ ε α := fun s ↦ (.error e, s)

/-- Fail with another error. -/
def mapError (f : ε → ε') (x : Fallible σ ε α) : Fallible σ ε' α :=
  fun s ↦ ((x s).1.mapError f, (x s).2)

/-- What holds of the result and of the state when a program is done. -/
def Holds (x : Fallible σ ε α) (s : σ) (Q : Except ε α → σ → Prop) : Prop := Q (x s).1 (x s).2

variable {x : Fallible σ ε α} {s : σ}

theorem pure_bind {value : α} {next : α → Fallible σ ε β} : (pure value >>= next) = next value :=
  rfl

/-- A program goes on after a success. -/
theorem bind_of_ok {next : α → Fallible σ ε β} {value : α} {t : σ} (run : x s = (.ok value, t)) :
    (x >>= next) s = next value t := by
  simp only [Bind.bind, run]

/-- A program ends at a failure. -/
theorem bind_of_error {next : α → Fallible σ ε β} {e : ε} {t : σ} (run : x s = (.error e, t)) :
    (x >>= next) s = (.error e, t) := by
  simp only [Bind.bind, run]

theorem bind_assoc {next : α → Fallible σ ε β} {last : β → Fallible σ ε γ} :
    ((x >>= next) >>= last) = (x >>= fun value ↦ next value >>= last) := by
  funext s
  simp only [Bind.bind]
  rcases x s with ⟨value | value, t⟩
  · rfl
  · rfl

theorem fail_bind {e : ε} {next : α → Fallible σ ε β} :
    ((fail e : Fallible σ ε α) >>= next) = fail e :=
  rfl

theorem mapError_fail {e : ε} {f : ε → ε'} :
    (fail e : Fallible σ ε α).mapError f = fail (f e) :=
  rfl

theorem Holds.mono {P Q : Except ε α → σ → Prop} (holds : x.Holds s P)
    (weaker : ∀ value t, P value t → Q value t) : x.Holds s Q :=
  weaker _ _ holds

/-- The rule of sequences: what follows a success, and what is left of a failure. -/
theorem Holds.bind {next : α → Fallible σ ε β} {P : Except ε α → σ → Prop}
    {Q : Except ε β → σ → Prop} (first : x.Holds s P)
    (success : ∀ value t, P (.ok value) t → (next value).Holds t Q)
    (failure : ∀ e t, P (.error e) t → Q (.error e) t) : (x >>= next).Holds s Q := by
  unfold Holds at first ⊢
  simp only [Bind.bind]
  rcases result : x s with ⟨value | value, t⟩
  · rw [result] at first
    exact failure value t first
  · rw [result] at first
    exact success value t first

theorem Holds.mapError {f : ε → ε'} {P : Except ε α → σ → Prop} {Q : Except ε' α → σ → Prop}
    (holds : x.Holds s P) (success : ∀ value t, P (.ok value) t → Q (.ok value) t)
    (failure : ∀ e t, P (.error e) t → Q (.error (f e)) t) : (x.mapError f).Holds s Q := by
  unfold Holds at holds ⊢
  simp only [Fallible.mapError]
  rcases result : x s with ⟨value | value, t⟩
  · rw [result] at holds
    exact failure value t holds
  · rw [result] at holds
    exact success value t holds

end Fallible
