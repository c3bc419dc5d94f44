import Mathlib.Data.Nat.Notation

/-!
# Programs that power loss can interrupt

A program works on volatile memory and issues operations on a state that outlives it.  It can run to
its end, stop in the middle for good, or be cut off between two operations: then the volatile memory
is lost and the state stays as the operations so far have left it.  `Spec` says at once what holds
whenever a program is cut off and what holds when it returns.
-/

namespace Program

/-- A tree of operations, branching on their results. -/
inductive Prog (O : Type) (R : O → Type) (α : Type)
  /-- Return a value. -/
  | ret (value : α)
  /-- Stop for good. -/
  | halt
  /-- Issue an operation and go on with its result. -/
  | call (o : O) (next : R o → Prog O R α)

variable {O : Type} {R : O → Type} {V σ α β : Type}

/-- Go on with the value of a program. -/
def Prog.bind : Prog O R α → (α → Prog O R β) → Prog O R β
  | .ret value, next => next value
  | .halt, _ => .halt
  | .call o rest, next => .call o fun result ↦ (rest result).bind next

/-- A program with volatile memory. -/
def Proc (V O : Type) (R : O → Type) (α : Type) : Type := V → Prog O R (α × V)

instance : Monad (Proc V O R) where
  pure value := fun v ↦ .ret (value, v)
  bind p next := fun v ↦ (p v).bind fun x ↦ next x.1 x.2

/-- The volatile memory. -/
def Proc.get : Proc V O R V := fun v ↦ .ret (v, v)

/-- Change the volatile memory. -/
def Proc.modify (f : V → V) : Proc V O R Unit := fun v ↦ .ret ((), f v)

/-- Issue an operation. -/
def Proc.call (o : O) : Proc V O R (R o) := fun v ↦ .call o fun result ↦ .ret (result, v)

/-- Stop for good. -/
def Proc.halt : Proc V O R α := fun _ ↦ .halt

/-! ## Execution -/

section

variable (handle : (o : O) → σ → R o × σ)

/-- Execute a program; it has no value if it stops for good. -/
def Prog.run : Prog O R α → σ → Option α × σ
  | .ret value, s => (some value, s)
  | .halt, s => (none, s)
  | .call o next, s => (next (handle o s).1).run (handle o s).2

/-- The state after at most a number of operations of a program. -/
def Prog.cut : Prog O R α → ℕ → σ → σ
  | .call o next, n + 1, s => (next (handle o s).1).cut n (handle o s).2
  | _, _, s => s

/-- The state satisfies `C` between any two operations, and value and state satisfy `Q` at the
end. -/
def Prog.Spec (C : σ → Prop) : Prog O R α → (α → σ → Prop) → σ → Prop
  | .ret value, Q, s => C s ∧ Q value s
  | .halt, _, s => C s
  | .call o next, Q, s => C s ∧ (next (handle o s).1).Spec C Q (handle o s).2

variable {handle} {C : σ → Prop} {s : σ}

theorem Prog.run_bind {p : Prog O R α} {next : α → Prog O R β} {value : α} {s' : σ}
    (first : p.run handle s = (some value, s')) :
    (p.bind next).run handle s = (next value).run handle s' := by
  induction p generalizing s with
  | ret value =>
      cases first
      rfl
  | halt => cases first
  | call o rest ih => exact ih _ first

/-- A program that is cut off has been cut off in its first part, or behind it. -/
theorem Prog.cut_bind {p : Prog O R α} (next : α → Prog O R β) {value : α} {s' : σ}
    (first : p.run handle s = (some value, s')) (n : ℕ) :
    (∃ m, (p.bind next).cut handle n s = p.cut handle m s) ∨
      ∃ m, (p.bind next).cut handle n s = (next value).cut handle m s' := by
  induction p generalizing s n with
  | ret value =>
      cases first
      exact .inr ⟨n, rfl⟩
  | halt => cases first
  | call o rest ih =>
      cases n with
      | zero => exact .inl ⟨0, rfl⟩
      | succ n =>
          rcases ih _ first n with ⟨m, here⟩ | later
          · exact .inl ⟨m + 1, here⟩
          · exact .inr later

/-- The last state that a program can be cut off in is the one that it ends in. -/
theorem Prog.cut_run (p : Prog O R α) (handle : (o : O) → σ → R o × σ) (s : σ) :
    ∃ n, p.cut handle n s = (p.run handle s).2 := by
  induction p generalizing s with
  | ret value => exact ⟨0, rfl⟩
  | halt => exact ⟨0, rfl⟩
  | call o next ih =>
      obtain ⟨n, same⟩ := ih _ _
      exact ⟨n + 1, same⟩

theorem Prog.cut_zero (p : Prog O R α) : p.cut handle 0 s = s := by
  cases p <;> rfl

theorem Prog.Spec.here {p : Prog O R α} {Q : α → σ → Prop} (spec : p.Spec handle C Q s) : C s := by
  cases p with
  | ret value => exact spec.1
  | halt => exact spec
  | call o next => exact spec.1

theorem Prog.spec_bind {p : Prog O R α} {next : α → Prog O R β} {Q : β → σ → Prop} :
    (p.bind next).Spec handle C Q s ↔
      p.Spec handle C (fun value s ↦ (next value).Spec handle C Q s) s := by
  induction p generalizing s with
  | ret value => exact ⟨fun spec ↦ ⟨spec.here, spec⟩, fun spec ↦ spec.2⟩
  | halt => exact Iff.rfl
  | call o rest ih => exact and_congr_right fun _ ↦ ih _

theorem Prog.Spec.mono {p : Prog O R α} {C' : σ → Prop} {Q Q' : α → σ → Prop}
    (spec : p.Spec handle C Q s) (crash : ∀ s, C s → C' s)
    (post : ∀ value s, C s → Q value s → Q' value s) : p.Spec handle C' Q' s := by
  induction p generalizing s with
  | ret value => exact ⟨crash s spec.1, post value s spec.1 spec.2⟩
  | halt => exact crash s spec
  | call o next ih => exact ⟨crash s spec.1, ih _ spec.2⟩

theorem Prog.Spec.and {p : Prog O R α} {C' : σ → Prop} {Q Q' : α → σ → Prop}
    (spec : p.Spec handle C Q s) (spec' : p.Spec handle C' Q' s) :
    p.Spec handle (fun s ↦ C s ∧ C' s) (fun value s ↦ Q value s ∧ Q' value s) s := by
  induction p generalizing s with
  | ret value => exact ⟨⟨spec.1, spec'.1⟩, spec.2, spec'.2⟩
  | halt => exact ⟨spec, spec'⟩
  | call o next ih => exact ⟨⟨spec.1, spec'.1⟩, ih _ spec.2 spec'.2⟩

theorem Prog.spec_true (p : Prog O R α) (s : σ) :
    p.Spec handle (fun _ ↦ True) (fun _ _ ↦ True) s := by
  induction p generalizing s with
  | ret value => exact ⟨trivial, trivial⟩
  | halt => exact trivial
  | call o next ih => exact ⟨trivial, ih _ _⟩

theorem Prog.Spec.cut {p : Prog O R α} {Q : α → σ → Prop} (spec : p.Spec handle C Q s) (n : ℕ) :
    C (p.cut handle n s) := by
  induction p generalizing s n with
  | ret value =>
      rw [Prog.cut]
      · exact spec.1
      · rintro _ _ _ ⟨⟩
  | halt =>
      rw [Prog.cut]
      · exact spec
      · rintro _ _ _ ⟨⟩
  | call o next ih =>
      cases n with
      | zero => exact spec.1
      | succ n => exact ih _ spec.2 n

theorem Prog.Spec.run {p : Prog O R α} {Q : α → σ → Prop} (spec : p.Spec handle C Q s) :
    C (p.run handle s).2 ∧ ∀ value, (p.run handle s).1 = some value →
      Q value (p.run handle s).2 := by
  induction p generalizing s with
  | ret value =>
      refine ⟨spec.1, ?_⟩
      rintro _ ⟨⟩
      exact spec.2
  | halt =>
      refine ⟨spec, ?_⟩
      rintro _ ⟨⟩
  | call o next ih => exact ih _ spec.2

end

/-- A program that never stops for good. -/
def Prog.Total : Prog O R α → Prop
  | .ret _ => True
  | .halt => False
  | .call _ next => ∀ result, (next result).Total

theorem Prog.Total.bind {p : Prog O R α} {next : α → Prog O R β} (first : p.Total)
    (rest : ∀ value, (next value).Total) : (p.bind next).Total := by
  induction p with
  | ret value => exact rest value
  | halt => exact first
  | call o _ ih => exact fun result ↦ ih result (first result)

theorem Prog.Total.run {p : Prog O R α} (total : p.Total) (handle : (o : O) → σ → R o × σ) (s : σ) :
    (p.run handle s).1.isSome = true := by
  induction p generalizing s with
  | ret value => rfl
  | halt => exact total.elim
  | call o next ih => exact ih _ (total _) _

/-! ## Rules -/

/-- `Prog.Spec` of a program with volatile memory. -/
def Spec (handle : (o : O) → σ → R o × σ) (C : σ → Prop) (p : Proc V O R α)
    (Q : α → V → σ → Prop) (v : V) (s : σ) : Prop :=
  (p v).Spec handle C (fun x s ↦ Q x.1 x.2 s) s

variable {handle : (o : O) → σ → R o × σ} {C : σ → Prop} {v : V} {s : σ}

theorem spec_bind {p : Proc V O R α} {next : α → Proc V O R β} {Q : β → V → σ → Prop} :
    Spec handle C (p >>= next) Q v s ↔
      Spec handle C p (fun value v s ↦ Spec handle C (next value) Q v s) v s :=
  Prog.spec_bind

theorem spec_get {Q : V → V → σ → Prop} :
    Spec handle C Proc.get Q v s ↔ C s ∧ Q v v s := Iff.rfl

theorem spec_modify {f : V → V} {Q : Unit → V → σ → Prop} :
    Spec handle C (Proc.modify f) Q v s ↔ C s ∧ Q () (f v) s := Iff.rfl

theorem spec_call {o : O} {Q : R o → V → σ → Prop} :
    Spec handle C (Proc.call o) Q v s ↔
      C s ∧ C (handle o s).2 ∧ Q (handle o s).1 v (handle o s).2 := Iff.rfl

theorem Spec.mono {p : Proc V O R α} {Q Q' : α → V → σ → Prop} (spec : Spec handle C p Q v s)
    (post : ∀ value v s, C s → Q value v s → Q' value v s) : Spec handle C p Q' v s :=
  Prog.Spec.mono spec (fun _ ↦ id) fun value s ↦ post value.1 value.2 s

theorem Spec.and {p : Proc V O R α} {C' : σ → Prop} {Q Q' : α → V → σ → Prop}
    (spec : Spec handle C p Q v s) (spec' : Spec handle C' p Q' v s) :
    Spec handle (fun s ↦ C s ∧ C' s) p (fun value v s ↦ Q value v s ∧ Q' value v s) v s :=
  Prog.Spec.and spec spec'

theorem spec_true (p : Proc V O R α) (v : V) (s : σ) :
    Spec handle (fun _ ↦ True) p (fun _ _ _ ↦ True) v s :=
  Prog.spec_true (p v) s

/-- `Prog.Total` of a program with volatile memory. -/
def Total (p : Proc V O R α) : Prop := ∀ v, (p v).Total

theorem total_pure (value : α) : Total (pure value : Proc V O R α) := fun _ ↦ trivial

theorem total_bind {p : Proc V O R α} {next : α → Proc V O R β} (first : Total p)
    (rest : ∀ value, Total (next value)) : Total (p >>= next) :=
  fun v ↦ (first v).bind fun x ↦ rest x.1 x.2

theorem total_get : Total (Proc.get : Proc V O R V) := fun _ ↦ trivial

theorem total_modify (f : V → V) : Total (Proc.modify f : Proc V O R Unit) := fun _ ↦ trivial

theorem total_call (o : O) : Total (Proc.call o : Proc V O R (R o)) := fun _ _ ↦ trivial

theorem total_ite {condition : Prop} [Decidable condition] {p q : Proc V O R α} (left : Total p)
    (right : Total q) : Total (if condition then p else q) := by
  split
  · exact left
  · exact right

/-! ## Programs that return -/

/-- A program returns, with a value and a state that satisfy `Q`. -/
def Prog.Returns (handle : (o : O) → σ → R o × σ) : Prog O R α → (α → σ → Prop) → σ → Prop
  | .ret value, Q, s => Q value s
  | .halt, _, _ => False
  | .call o next, Q, s => (next (handle o s).1).Returns handle Q (handle o s).2

theorem Prog.returns_bind {p : Prog O R α} {next : α → Prog O R β} {Q : β → σ → Prop} :
    (p.bind next).Returns handle Q s ↔
      p.Returns handle (fun value s ↦ (next value).Returns handle Q s) s := by
  induction p generalizing s with
  | ret value => exact Iff.rfl
  | halt => exact Iff.rfl
  | call o rest ih => exact ih _

theorem Prog.Returns.mono {p : Prog O R α} {Q Q' : α → σ → Prop} (returns : p.Returns handle Q s)
    (post : ∀ value s, Q value s → Q' value s) : p.Returns handle Q' s := by
  induction p generalizing s with
  | ret value => exact post value s returns
  | halt => exact returns.elim
  | call o next ih => exact ih _ returns

theorem Prog.Returns.run {p : Prog O R α} {Q : α → σ → Prop} (returns : p.Returns handle Q s) :
    ∃ value s', p.run handle s = (some value, s') ∧ Q value s' := by
  induction p generalizing s with
  | ret value => exact ⟨value, s, rfl, returns⟩
  | halt => exact returns.elim
  | call o next ih => exact ih _ returns

/-- A program that returns, returns the value and the state of its execution. -/
theorem Prog.Returns.runs {p : Prog O R α} {Q : α → σ → Prop} (returns : p.Returns handle Q s) :
    p.Returns handle (fun value s' ↦ p.run handle s = (some value, s') ∧ Q value s') s := by
  induction p generalizing s with
  | ret value => exact ⟨rfl, returns⟩
  | halt => exact returns.elim
  | call o next ih => exact ih _ returns

/-- What every operation keeps, a program keeps. -/
theorem Prog.Returns.keep {p : Prog O R α} {Q : α → σ → Prop} {I : σ → Prop}
    (returns : p.Returns handle Q s) (keeps : ∀ o s, I s → I (handle o s).2) (inv : I s) :
    p.Returns handle (fun value s ↦ Q value s ∧ I s) s := by
  induction p generalizing s with
  | ret value => exact ⟨returns, inv⟩
  | halt => exact returns.elim
  | call o next ih => exact ih _ returns (keeps o s inv)

/-- A program that never stops for good returns what its specification says. -/
theorem Prog.Spec.returns {p : Prog O R α} {Q : α → σ → Prop} (spec : p.Spec handle C Q s)
    (total : p.Total) : p.Returns handle Q s := by
  induction p generalizing s with
  | ret value => exact spec.2
  | halt => exact total
  | call o next ih => exact ih _ spec.2 (total _)

/-- `Prog.Returns` of a program with volatile memory. -/
def Returns (handle : (o : O) → σ → R o × σ) (p : Proc V O R α) (Q : α → V → σ → Prop) (v : V)
    (s : σ) : Prop :=
  (p v).Returns handle (fun x s ↦ Q x.1 x.2 s) s

theorem returns_pure {value : α} {Q : α → V → σ → Prop} :
    Returns handle (pure value) Q v s ↔ Q value v s := Iff.rfl

theorem returns_bind {p : Proc V O R α} {next : α → Proc V O R β} {Q : β → V → σ → Prop} :
    Returns handle (p >>= next) Q v s ↔
      Returns handle p (fun value v s ↦ Returns handle (next value) Q v s) v s :=
  Prog.returns_bind

theorem returns_get {Q : V → V → σ → Prop} : Returns handle Proc.get Q v s ↔ Q v v s := Iff.rfl

theorem returns_modify {f : V → V} {Q : Unit → V → σ → Prop} :
    Returns handle (Proc.modify f) Q v s ↔ Q () (f v) s := Iff.rfl

theorem returns_call {o : O} {Q : R o → V → σ → Prop} :
    Returns handle (Proc.call o) Q v s ↔ Q (handle o s).1 v (handle o s).2 := Iff.rfl

theorem Returns.mono {p : Proc V O R α} {Q Q' : α → V → σ → Prop} (returns : Returns handle p Q v s)
    (post : ∀ value v s, Q value v s → Q' value v s) : Returns handle p Q' v s :=
  Prog.Returns.mono returns fun value ↦ post value.1 value.2

theorem Returns.runs {p : Proc V O R α} {Q : α → V → σ → Prop} (returns : Returns handle p Q v s) :
    Returns handle p
      (fun value v' s' ↦ (p v).run handle s = (some (value, v'), s') ∧ Q value v' s') v s :=
  Prog.Returns.runs returns

theorem Returns.keep {p : Proc V O R α} {Q : α → V → σ → Prop} {I : σ → Prop}
    (returns : Returns handle p Q v s) (keeps : ∀ o s, I s → I (handle o s).2) (inv : I s) :
    Returns handle p (fun value v s ↦ Q value v s ∧ I s) v s :=
  Prog.Returns.keep returns keeps inv

theorem Spec.returns {p : Proc V O R α} {Q : α → V → σ → Prop} (spec : Spec handle C p Q v s)
    (total : Total p) : Returns handle p Q v s :=
  Prog.Spec.returns spec (total v)

end Program
