import TrustedFirmwareM.Lib.Fallible
import Mathlib.Data.List.Basic

/-!
# Programs that are watched

Some programs only read a part of the state, and note each thing they look at.  Such a program is
described by the values that it returns when nothing fails and by a condition on what it reads that
tells whether all it looks at is allowed.  Both are put together as the program is.
-/

/-- How programs on states `σ` are watched, and what they may note. -/
structure Watch (σ φ ι ε : Type) where
  /-- The part of the state that programs only read. -/
  frame : σ → φ
  /-- What has been noted. -/
  trace : σ → List ι
  /-- Note an event. -/
  note : ι → σ → σ
  /-- Notes leave the frame as it is. -/
  frame_note : ∀ e s, frame (note e s) = frame s
  /-- Notes are added at the end. -/
  trace_note : ∀ e s, trace (note e s) = trace s ++ [e]
  /-- The events of the programs. -/
  Kind : ι → Prop
  /-- The events that are allowed. -/
  Inside : ι → Prop
  /-- The events that programs have to end at. -/
  Last : ι → Prop
  /-- How they end there. -/
  status : ε

namespace Watch

variable {σ φ ι ε α β : Type} (W : Watch σ φ ι ε)

/-- Events are allowed, and the program ends with the right error where it has to. -/
structure Good (events : List ι) (result : Except ε α) : Prop where
  /-- All are allowed. -/
  inside : ∀ e ∈ events, W.Inside e
  /-- A last event is the last one. -/
  last : ∀ before e after, events = before ++ e :: after → W.Last e →
    after = [] ∧ result = .error W.status

/-- An event is not allowed, or the program has gone on where it has to end. -/
def Tainted (events : List ι) : Prop :=
  (∃ e ∈ events, ¬W.Inside e) ∨
    ∃ before e after, events = before ++ e :: after ∧ W.Last e ∧ after ≠ []

/-- What a program may note and return, when it returns the values `returns` without a fault, and
looks at what is allowed under a condition. -/
structure Outcome (faultless : Prop) (returns : α → Prop) (clean : Prop) (events : List ι)
    (result : Except ε α) : Prop where
  /-- The events are those of the programs. -/
  kind : ∀ e ∈ events, W.Kind e
  /-- The condition is enough. -/
  good : clean → W.Good events result
  /-- A value is one of those returned. -/
  sound : ∀ value, result = .ok value → returns value
  /-- Without a fault the value is returned. -/
  complete : faultless → ∀ value, returns value → result = .ok value
  /-- Without a fault the condition is needed. -/
  tainted : faultless → ¬clean → W.Tainted events

/-- A program keeps the frame, and has an outcome. -/
def Follows (faultless : Prop) (frame : φ) (x : Fallible σ ε α) (returns : α → Prop)
    (clean : Prop) : Prop :=
  ∀ s, W.frame s = frame → W.frame (x s).2 = frame ∧
    ∃ events, W.trace (x s).2 = W.trace s ++ events ∧
      W.Outcome faultless returns clean events (x s).1

variable {W} {faultless : Prop} {frame : φ} {events later : List ι} {returns : α → Prop}
  {clean : Prop}

theorem good_nil {result : Except ε α} : W.Good [] result where
  inside := by simp
  last := by simp

theorem not_last_of_good {value : α} (good : W.Good events (.ok value : Except ε α)) :
    ∀ e ∈ events, ¬W.Last e := by
  intro e mem last
  obtain ⟨before, after, rfl⟩ := List.append_of_mem mem
  exact nomatch (good.last before e after rfl last).2

/-- Events up to a value are followed by others. -/
theorem Good.append {value : α} {result : Except ε β}
    (good : W.Good events (.ok value : Except ε α)) (good' : W.Good later result) :
    W.Good (events ++ later) result where
  inside := by
    intro e mem
    rcases List.mem_append.mp mem with mem | mem
    · exact good.inside e mem
    · exact good'.inside e mem
  last := by
    intro before e after eq last
    rcases List.append_eq_append_iff.mp eq with ⟨rest, rfl, later_eq⟩ | ⟨rest, events_eq, rest_eq⟩
    · exact good'.last rest e after later_eq last
    · cases rest with
      | nil => exact good'.last [] e after (by simpa using rest_eq.symm) last
      | cons first rest =>
          obtain ⟨rfl, -⟩ := List.cons.inj rest_eq
          exact absurd last (not_last_of_good good e (by simp [events_eq]))

theorem Good.error {e : ε} (good : W.Good events (.error e : Except ε α)) :
    W.Good events (.error e : Except ε β) where
  inside := good.inside
  last := by
    intro before event after eq last
    obtain ⟨after_eq, result_eq⟩ := good.last before event after eq last
    exact ⟨after_eq, congrArg Except.error (Except.error.inj result_eq)⟩

theorem Tainted.append (tainted : W.Tainted events) : W.Tainted (events ++ later) := by
  rcases tainted with ⟨e, mem, outside⟩ | ⟨before, e, after, rfl, last, ne⟩
  · exact .inl ⟨e, List.mem_append_left later mem, outside⟩
  · exact .inr ⟨before, e, after ++ later, by simp, last, by simp [ne]⟩

theorem Tainted.append_left (tainted : W.Tainted later) : W.Tainted (events ++ later) := by
  rcases tainted with ⟨e, mem, outside⟩ | ⟨before, e, after, rfl, last, ne⟩
  · exact .inl ⟨e, List.mem_append_right events mem, outside⟩
  · exact .inr ⟨events ++ before, e, after, by simp, last, ne⟩

/-- The same description in other words. -/
theorem Follows.congr {x : Fallible σ ε α} {returns' : α → Prop} {clean' : Prop}
    (follows : W.Follows faultless frame x returns clean)
    (returns_iff : ∀ value, returns value ↔ returns' value) (clean_iff : clean ↔ clean') :
    W.Follows faultless frame x returns' clean' := by
  have returns_eq : returns = returns' := funext fun value ↦ propext (returns_iff value)
  subst returns_eq
  rwa [← propext clean_iff]

theorem follows_pure {value : α} :
    W.Follows faultless frame (pure value) (fun value' ↦ value' = value) True := by
  intro s frame_eq
  refine ⟨frame_eq, [], (List.append_nil _).symm, by simp, fun _ ↦ good_nil, ?_, ?_, by simp⟩
  · intro value' eq
    exact (Except.ok.inj eq).symm
  · intro _ value' eq
    exact congrArg Except.ok eq.symm

theorem follows_fail {e : ε} :
    W.Follows faultless frame (Fallible.fail e : Fallible σ ε α) (fun _ ↦ False) True := by
  intro s frame_eq
  refine ⟨frame_eq, [], (List.append_nil _).symm, by simp, fun _ ↦ good_nil, ?_, ?_, by simp⟩
  · intro value eq
    exact nomatch eq
  · intro _ value none
    exact none.elim

/-- One event is noted, and the program may fail there when not everything is without a fault. -/
theorem follows_note {x : Fallible σ ε Unit} {e : ι} (kind : W.Kind e) (goes_on : ¬W.Last e)
    (run : ∀ s, (x s).2 = W.note e s ∧
      ((x s).1 = .ok () ∨ ¬faultless ∧ ∃ status, (x s).1 = .error status)) :
    W.Follows faultless frame x (fun _ ↦ True) (W.Inside e) := by
  intro s frame_eq
  obtain ⟨state_eq, result⟩ := run s
  refine ⟨by rw [state_eq, W.frame_note, frame_eq], [e], by rw [state_eq, W.trace_note], ?_,
    ?_, ?_, ?_, ?_⟩
  · simpa using kind
  · intro inside
    refine ⟨by simpa using inside, ?_⟩
    intro before event after eq last
    have mem : event ∈ [e] := by simp [eq]
    rw [List.mem_singleton.mp mem] at last
    exact absurd last goes_on
  · simp
  · intro no_fault value _
    rcases result with ok | ⟨fault, _⟩
    · exact ok
    · exact absurd no_fault fault
  · intro _ outside
    exact .inl ⟨e, by simp, outside⟩

/-- The rule of sequences. -/
theorem Follows.bind {x : Fallible σ ε α} {next : α → Fallible σ ε β} {returns' : α → β → Prop}
    {clean' : α → Prop} (first : W.Follows faultless frame x returns clean)
    (second : ∀ value, W.Follows faultless frame (next value) (returns' value) (clean' value)) :
    W.Follows faultless frame (x >>= next)
      (fun result ↦ ∃ value, returns value ∧ returns' value result)
      (clean ∧ ∀ value, returns value → clean' value) := by
  intro s frame_eq
  obtain ⟨frame_eq', events, trace_eq, outcome⟩ := first s frame_eq
  simp only [Bind.bind]
  rcases run : x s with ⟨value | value, t⟩
  · rw [run] at frame_eq' trace_eq outcome
    refine ⟨frame_eq', events, trace_eq, outcome.kind,
      fun clean ↦ (outcome.good clean.1).error, ?_, ?_, ?_⟩
    · intro result eq
      exact nomatch eq
    · rintro no_fault result ⟨value', returned, -⟩
      exact nomatch outcome.complete no_fault value' returned
    · intro no_fault unclean
      apply outcome.tainted no_fault
      intro is_clean
      refine unclean ⟨is_clean, fun value' returned ↦ ?_⟩
      exact nomatch outcome.complete no_fault value' returned
  · rw [run] at frame_eq' trace_eq outcome
    obtain ⟨frame_eq'', later, trace_eq', outcome'⟩ := second value t frame_eq'
    have returned := outcome.sound value rfl
    refine ⟨frame_eq'', events ++ later, ?_, ?_, ?_, ?_, ?_, ?_⟩
    · rw [trace_eq', trace_eq, List.append_assoc]
    · intro e mem
      rcases List.mem_append.mp mem with mem | mem
      · exact outcome.kind e mem
      · exact outcome'.kind e mem
    · intro is_clean
      exact (outcome.good is_clean.1).append (outcome'.good (is_clean.2 value returned))
    · intro result eq
      exact ⟨value, returned, outcome'.sound result eq⟩
    · rintro no_fault result ⟨value', returned', returned''⟩
      obtain rfl := Except.ok.inj (outcome.complete no_fault value' returned')
      exact outcome'.complete no_fault result returned''
    · intro no_fault unclean
      rcases Classical.em clean with is_clean | is_unclean
      · apply Tainted.append_left
        apply outcome'.tainted no_fault
        intro is_clean'
        refine unclean ⟨is_clean, fun value' returned' ↦ ?_⟩
        obtain rfl := Except.ok.inj (outcome.complete no_fault value' returned')
        exact is_clean'
      · exact (outcome.tainted no_fault is_unclean).append

/-- A program that has to end at its first event ends there. -/
theorem follows_last {x : Fallible σ ε Unit} {e : ι} {next : Unit → Fallible σ ε α}
    (kind : W.Kind e) (inside : W.Inside e) (run : ∀ s, x s = (.ok (), W.note e s))
    (ends : next () = Fallible.fail W.status) :
    W.Follows faultless frame (x >>= next) (fun _ ↦ False) True := by
  intro s frame_eq
  have run_eq : (x >>= next) s = (.error W.status, W.note e s) := by
    simp only [Bind.bind, run s, ends]
    rfl
  rw [run_eq]
  refine ⟨by rw [W.frame_note, frame_eq], [e], W.trace_note e s, by simpa using kind, ?_,
    ?_, ?_, by simp⟩
  · intro _
    refine ⟨by simpa using inside, ?_⟩
    intro before event after eq last
    have lengths := congrArg List.length eq
    simp only [List.length_nil, List.length_append, List.length_cons] at lengths
    exact ⟨List.eq_nil_of_length_eq_zero (by omega), rfl⟩
  · intro value eq
    exact nomatch eq
  · intro _ value none
    exact none.elim

/-- A program that has to end at its first event notes another one. -/
theorem follows_past_last {x y : Fallible σ ε Unit} {e e' : ι} {next : Unit → Fallible σ ε α}
    (kind : W.Kind e) (kind' : W.Kind e') (last : W.Last e)
    (run : ∀ s, x s = (.ok (), W.note e s)) (run' : ∀ s, y s = (.ok (), W.note e' s))
    (follows : W.Follows faultless frame (next ()) returns clean) :
    W.Follows faultless frame (x >>= fun _ ↦ y >>= next) returns False := by
  intro s frame_eq
  have run_eq : (x >>= fun _ ↦ y >>= next) s = next () (W.note e' (W.note e s)) := by
    simp only [Bind.bind, run, run']
  rw [run_eq]
  obtain ⟨frame_eq', events, trace_eq, outcome⟩ :=
    follows (W.note e' (W.note e s)) (by rw [W.frame_note, W.frame_note, frame_eq])
  refine ⟨frame_eq', e :: e' :: events, ?_, ?_, False.elim, outcome.sound, outcome.complete, ?_⟩
  · rw [trace_eq, W.trace_note, W.trace_note]
    simp
  · simpa [kind, kind'] using outcome.kind
  · intro _ _
    exact .inr ⟨[], e, e' :: events, rfl, last, by simp⟩

/-- The rule of branches. -/
theorem Follows.ite {c : Prop} [Decidable c] {x y : Fallible σ ε α} {returns' : α → Prop}
    {clean' : Prop} (first : c → W.Follows faultless frame x returns clean)
    (second : ¬c → W.Follows faultless frame y returns' clean') :
    W.Follows faultless frame (if c then x else y)
      (fun value ↦ c ∧ returns value ∨ ¬c ∧ returns' value)
      ((c → clean) ∧ (¬c → clean')) := by
  split
  · next holds => exact (first holds).congr (by simp [holds]) (by simp [holds])
  · next fails => exact (second fails).congr (by simp [fails]) (by simp [fails])

/-- All that a program notes has a property. -/
def Notes (W : Watch σ φ ι ε) (P : ι → Prop) (x : Fallible σ ε α) : Prop :=
  ∀ s, ∃ events, W.trace (x s).2 = W.trace s ++ events ∧ ∀ e ∈ events, P e

variable {P : ι → Prop}

theorem notes_silent {x : Fallible σ ε α} (silent : ∀ s, W.trace (x s).2 = W.trace s) :
    W.Notes P x := by
  intro s
  exact ⟨[], by rw [silent, List.append_nil], by simp⟩

theorem notes_note {x : Fallible σ ε α} {e : ι} (holds : P e)
    (run : ∀ s, W.trace (x s).2 = W.trace s ++ [e]) : W.Notes P x := by
  intro s
  exact ⟨[e], run s, by simpa using holds⟩

theorem Notes.bind {x : Fallible σ ε α} {next : α → Fallible σ ε β} (first : W.Notes P x)
    (second : ∀ value, W.Notes P (next value)) : W.Notes P (x >>= next) := by
  intro s
  obtain ⟨events, trace_eq, holds⟩ := first s
  simp only [Bind.bind]
  rcases run : x s with ⟨value | value, t⟩
  · rw [run] at trace_eq
    exact ⟨events, trace_eq, holds⟩
  · rw [run] at trace_eq
    obtain ⟨later, trace_eq', holds'⟩ := second value t
    refine ⟨events ++ later, by rw [trace_eq', trace_eq, List.append_assoc], ?_⟩
    intro e mem
    rcases List.mem_append.mp mem with mem | mem
    · exact holds e mem
    · exact holds' e mem

end Watch
