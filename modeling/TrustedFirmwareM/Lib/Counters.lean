import Mathlib.Logic.Function.Basic

/-!
# Durable counters

Counters that are read and raised.  A change may be interrupted: then the counter has its old or its
new value.  A log is explained by counters if each of its events can happen where it stands.
-/

namespace Counters

variable {ι V : Type*}

/-- What has come of a change. -/
inductive Outcome
  /-- The change has been made. -/
  | done
  /-- The change has been refused. -/
  | refused
  /-- The change has failed or has been interrupted. -/
  | unknown
  deriving DecidableEq

/-- What happens to counters. -/
inductive Event (ι V : Type*)
  /-- A counter is read. -/
  | read (i : ι) (value : V)
  /-- A counter is set to a value. -/
  | set (i : ι) (value : V) (outcome : Outcome)
  /-- A counter is incremented. -/
  | increment (i : ι) (outcome : Outcome)
  deriving DecidableEq

/-- The change of an event, if it is made: the counter and its new value. -/
def Event.change (next : V → V) (values : ι → V) : Event ι V → Option (ι × V × Outcome)
  | .set i value outcome => some (i, value, outcome)
  | .increment i outcome => some (i, next (values i), outcome)
  | .read _ _ => none

variable [DecidableEq ι] [LE V]

/-- The effect of an event on the counters. -/
inductive Step (next : V → V) (values : ι → V) : Event ι V → (ι → V) → Prop
  /-- A counter reads as its value. -/
  | read (i : ι) : Step next values (.read i (values i)) values
  /-- A change has not been made. -/
  | kept {event : Event ι V} {i : ι} {value : V} {outcome : Outcome}
      (change : event.change next values = some (i, value, outcome)) (not_done : outcome ≠ .done) :
      Step next values event values
  /-- A change has been made, which raises the counter. -/
  | made {event : Event ι V} {i : ι} {value : V} {outcome : Outcome}
      (change : event.change next values = some (i, value, outcome))
      (not_refused : outcome ≠ .refused) (raised : values i ≤ value) :
      Step next values event (Function.update values i value)

/-- The events of a log, latest first, happen one after the other and lead to the values. -/
inductive Explains (next : V → V) : List (Event ι V) → (ι → V) → Prop
  | nil (values : ι → V) : Explains next [] values
  | cons {log : List (Event ι V)} {values values' : ι → V} {event : Event ι V}
      (before : Explains next log values) (step : Step next values event values') :
      Explains next (event :: log) values'

variable {next : V → V} {log : List (Event ι V)} {values values' : ι → V}

variable [Std.IsPreorder V]

/-- No event lowers a counter. -/
theorem Step.le {event : Event ι V} (step : Step next values event values') (i : ι) :
    values i ≤ values' i := by
  cases step with
  | read | kept => exact Std.le_refl _
  | made change not_refused raised =>
      next j value outcome =>
        rcases eq_or_ne i j with rfl | ne
        · rwa [Function.update_self]
        · rw [Function.update_of_ne ne]
          exact Std.le_refl _

/-- The values before the last events of a log. -/
theorem Explains.split {later : List (Event ι V)}
    (explains : Explains next (later ++ log) values') :
    ∃ values, Explains next log values ∧ ∀ i, values i ≤ values' i := by
  induction later generalizing values' with
  | nil => exact ⟨values', explains, fun i ↦ Std.le_refl _⟩
  | cons event later ih =>
      cases explains with
      | cons before step =>
          obtain ⟨values, explained, le⟩ := ih before
          exact ⟨values, explained, fun i ↦ Std.le_trans (le i) (step.le i)⟩

/-- The values read from a counter never decrease. -/
theorem Explains.read_le {earlier between later : List (Event ι V)} {i : ι} {value value' : V}
    (explains : Explains next (later ++ .read i value' :: (between ++ .read i value :: earlier))
      values) : value ≤ value' := by
  obtain ⟨_, explained, -⟩ := explains.split
  cases explained with
  | cons before step =>
      cases step with
      | read =>
          obtain ⟨_, explained, le⟩ := before.split
          cases explained with
          | cons before step =>
              cases step with
              | read => exact le i
              | kept change | made change => cases change
      | kept change | made change => cases change

/-- A change that has been made survives: the counter never reads as less. -/
theorem Explains.set_le {earlier between later : List (Event ι V)} {i : ι} {value value' : V}
    (explains : Explains next
      (later ++ .read i value' :: (between ++ .set i value .done :: earlier))
      values) : value ≤ value' := by
  obtain ⟨_, explained, -⟩ := explains.split
  cases explained with
  | cons before step =>
      cases step with
      | kept change | made change => cases change
      | read =>
          obtain ⟨_, explained, le⟩ := before.split
          cases explained with
          | cons before step =>
              cases step with
              | kept change not_done =>
                  cases change
                  exact absurd rfl not_done
              | made change not_refused raised =>
                  cases change
                  have set := le i
                  rwa [Function.update_self] at set

end Counters
