import TrustedFirmwareM.Its.FlashFs

/-!
# Execution with a driver that works

`Runs` says what a function of the file system returns, and what it leaves in the context and in the
flash, when no call of the driver fails.  An update only fills bytes of the flash that nothing has
been programmed into since their block was erased; `Filled` keeps track of the bytes filled so far.
-/

namespace TrustedFirmwareM.Its

open Program

variable {cfg : Config} {W W' : ℕ → ℕ → Prop} {α β : Type} {ctx ctx' ctx'' : Ctx}
  {f f' f'' : Flash}

/-- A function returns a result and leaves a context and a flash.  Wherever it is cut off, it has
only changed bytes of `W`. -/
structure Runs (cfg : Config) (W : ℕ → ℕ → Prop) (p : FsM α) (ctx : Ctx) (f : Flash)
    (result : Except Status α) (ctx' : Ctx) (f' : Flash) : Prop where
  /-- The function returns. -/
  returns : (p.run ctx).run (FlashOp.work cfg) f = (some (result, ctx'), f')
  /-- It changes nothing else. -/
  within : ∀ n b o, ¬W b o → (p.run ctx).cut (FlashOp.work cfg) n f b o = f b o

theorem Runs.unique {p : FsM α} {result result' : Except Status α}
    (run : Runs cfg W p ctx f result ctx' f') (run' : Runs cfg W' p ctx f result' ctx'' f'') :
    result = result' ∧ ctx' = ctx'' ∧ f' = f'' := by
  have returns := run'.returns
  rw [run.returns, Prod.mk.injEq, Option.some_inj, Prod.mk.injEq] at returns
  exact ⟨returns.1.1, returns.1.2, returns.2⟩

/-- What is not in `W` is as it was in the end, too. -/
theorem Runs.frame {p : FsM α} {result : Except Status α} (run : Runs cfg W p ctx f result ctx' f')
    {b o : ℕ} (outside : ¬W b o) : f' b o = f b o := by
  obtain ⟨n, last⟩ := (p.run ctx).cut_run (FlashOp.work cfg) f
  have within := run.within n b o outside
  rw [last, run.returns] at within
  exact within

theorem runs_pure (value : α) : Runs cfg W (pure value) ctx f (.ok value) ctx f where
  returns := rfl
  within _ _ _ _ := rfl

theorem runs_throw (status : Status) :
    Runs cfg W (throw status : FsM α) ctx f (.error status) ctx f where
  returns := rfl
  within _ _ _ _ := rfl

/-- Two parts of a program that stay within `W`. -/
theorem within_bind {γ δ : Type} {p : Prog FlashOp FlashOp.Result γ}
    {next : γ → Prog FlashOp FlashOp.Result δ} {value : γ}
    (first : p.run (FlashOp.work cfg) f = (some value, f'))
    (within : ∀ n b o, ¬W b o → p.cut (FlashOp.work cfg) n f b o = f b o)
    (within' : ∀ n b o, ¬W b o → (next value).cut (FlashOp.work cfg) n f' b o = f' b o) :
    ∀ n b o, ¬W b o → (p.bind next).cut (FlashOp.work cfg) n f b o = f b o := by
  intro n b o outside
  rcases Prog.cut_bind next first n with ⟨m, here⟩ | ⟨m, later⟩
  · rw [here]
    exact within m b o outside
  · obtain ⟨last, last_eq⟩ := p.cut_run (FlashOp.work cfg) f
    have same := within last b o outside
    rw [last_eq, first] at same
    rw [later, within' m b o outside]
    exact same

theorem Runs.bind {p : FsM α} {next : α → FsM β} {value : α} {result : Except Status β}
    (first : Runs cfg W p ctx f (.ok value) ctx' f')
    (rest : Runs cfg W (next value) ctx' f' result ctx'' f'') :
    Runs cfg W (p >>= next) ctx f result ctx'' f'' where
  returns := (Prog.run_bind first.returns).trans rest.returns
  within := within_bind first.returns first.within rest.within

theorem Runs.bind_error {p : FsM α} {next : α → FsM β} {status : Status}
    (first : Runs cfg W p ctx f (.error status) ctx' f') :
    Runs cfg W (p >>= next) ctx f (.error status) ctx' f' where
  returns := Prog.run_bind first.returns
  within := within_bind first.returns first.within fun _ _ _ _ ↦ rfl

/-- A step that is only made under a condition. -/
theorem runs_if {condition : Prop} [Decidable condition] {p : FsM Unit} {next : Unit → FsM β}
    {result : Except Status β} (step : condition → Runs cfg W p ctx f (.ok ()) ctx' f')
    (skip : ¬condition → ctx' = ctx ∧ f' = f)
    (rest : Runs cfg W (next ()) ctx' f' result ctx'' f'') :
    Runs cfg W (if condition then p >>= next else next ()) ctx f result ctx'' f'' := by
  split
  · next holds => exact (step holds).bind rest
  · next fails =>
      obtain ⟨rfl, rfl⟩ := skip fails
      exact rest

theorem Runs.result {p : FsM α} {result : Except Status α}
    (run : Runs cfg W p ctx f result ctx' f') : Runs cfg W p.result ctx f (.ok result) ctx' f' where
  returns := Prog.run_bind run.returns
  within := within_bind run.returns run.within fun _ _ _ _ ↦ rfl

theorem Runs.orStatus {p : FsM α} {result : Except Status α} {status : Status}
    (run : Runs cfg W p ctx f result ctx' f') :
    Runs cfg W (p.orStatus status) ctx f (result.mapError fun _ ↦ status) ctx' f' where
  returns := Prog.run_bind run.returns
  within := within_bind run.returns run.within fun _ _ _ _ ↦ rfl

theorem runs_getCtx : Runs cfg W getCtx ctx f (.ok ctx) ctx f where
  returns := rfl
  within _ _ _ _ := rfl

theorem runs_modifyCtx (change : Ctx → Ctx) :
    Runs cfg W (modifyCtx change) ctx f (.ok ()) (change ctx) f where
  returns := rfl
  within _ _ _ _ := rfl

theorem runs_ensure {condition : Bool} {status : Status} (holds : condition = true) :
    Runs cfg W (ensure condition status) ctx f (.ok ()) ctx f := by
  rw [ensure, if_pos holds]
  exact runs_pure ()

theorem runs_ensure_error {condition : Bool} {status : Status} (fails : condition = false) :
    Runs cfg W (ensure condition status) ctx f (.error status) ctx f := by
  rw [ensure, if_neg (by rw [fails]; exact Bool.false_ne_true)]
  exact runs_throw status

theorem work_frame (op : FlashOp) {b o : ℕ} (outside : ¬op.Addresses cfg b o) :
    (op.work cfg f).2 b o = f b o := by
  cases op with
  | read block offset size => rfl
  | write block offset size data => exact update_patch_out outside
  | flush block => rfl
  | erase block =>
      apply update_patch_out
      rintro ⟨here, -, hi⟩
      exact outside ⟨here, by omega⟩

theorem runs_call (op : FlashOp) (inside : ∀ b o, op.Addresses cfg b o → W b o) :
    Runs cfg W op.call ctx f (op.work cfg f).1 ctx (op.work cfg f).2 where
  returns := rfl
  within n b o outside := by
    cases n with
    | zero => rfl
    | succ n => exact work_frame op fun address ↦ outside (inside b o address)

theorem runs_read (block offset size : ℕ) :
    Runs cfg W (FlashOp.read block offset size).call ctx f
      (.ok fun i ↦ f block (offset + i)) ctx f :=
  runs_call _ fun _ _ address ↦ address.elim

theorem runs_flush (block : ℕ) : Runs cfg W (FlashOp.flush block).call ctx f (.ok ()) ctx f :=
  runs_call _ fun _ _ address ↦ address.elim

/-! ## Power loss -/

/-- A function returns a result and leaves a context and a flash.  Wherever it is cut off, the flash
satisfies `C`. -/
structure Passes (cfg : Config) (C : Flash → Prop) (p : FsM α) (ctx : Ctx) (f : Flash)
    (result : Except Status α) (ctx' : Ctx) (f' : Flash) : Prop where
  /-- The function returns. -/
  returns : (p.run ctx).run (FlashOp.work cfg) f = (some (result, ctx'), f')
  /-- The flash satisfies `C` all the time. -/
  cuts : ∀ n, C ((p.run ctx).cut (FlashOp.work cfg) n f)

variable {C C' : Flash → Prop}

theorem Passes.mono {p : FsM α} {result : Except Status α}
    (pass : Passes cfg C p ctx f result ctx' f') (weaker : ∀ f, C f → C' f) :
    Passes cfg C' p ctx f result ctx' f' where
  returns := pass.returns
  cuts n := weaker _ (pass.cuts n)

/-- So does the flash in the end. -/
theorem Passes.behind {p : FsM α} {result : Except Status α}
    (pass : Passes cfg C p ctx f result ctx' f') : C f' := by
  obtain ⟨n, last⟩ := (p.run ctx).cut_run (FlashOp.work cfg) f
  have cut := pass.cuts n
  rw [last, pass.returns] at cut
  exact cut

theorem Runs.passes {p : FsM α} {result : Except Status α} (run : Runs cfg W p ctx f result ctx' f')
    (outside : ∀ g : Flash, (∀ b o, ¬W b o → g b o = f b o) → C g) :
    Passes cfg C p ctx f result ctx' f' where
  returns := run.returns
  cuts n := outside _ (run.within n)

/-- A function that changes nothing. -/
theorem Runs.passes_silent {p : FsM α} {result : Except Status α}
    (run : Runs cfg (fun _ _ ↦ False) p ctx f result ctx' f') (here : C f) :
    Passes cfg C p ctx f result ctx' f' := by
  apply run.passes
  intro g same
  have g_eq : g = f := funext₂ fun b o ↦ same b o id
  exact g_eq ▸ here

theorem passes_call {op : FlashOp} (before : C f) (behind : C (op.work cfg f).2) :
    Passes cfg C op.call ctx f (op.work cfg f).1 ctx (op.work cfg f).2 where
  returns := rfl
  cuts n := by
    cases n with
    | zero => exact before
    | succ n => exact behind

theorem cuts_bind {γ δ : Type} {p : Prog FlashOp FlashOp.Result γ}
    {next : γ → Prog FlashOp FlashOp.Result δ} {value : γ}
    (first : p.run (FlashOp.work cfg) f = (some value, f'))
    (cuts : ∀ n, C (p.cut (FlashOp.work cfg) n f))
    (cuts' : ∀ n, C ((next value).cut (FlashOp.work cfg) n f')) :
    ∀ n, C ((p.bind next).cut (FlashOp.work cfg) n f) := by
  intro n
  rcases Prog.cut_bind next first n with ⟨m, here⟩ | ⟨m, later⟩
  · exact here ▸ cuts m
  · exact later ▸ cuts' m

theorem Passes.bind {p : FsM α} {next : α → FsM β} {value : α} {result : Except Status β}
    (first : Passes cfg C p ctx f (.ok value) ctx' f')
    (rest : Passes cfg C (next value) ctx' f' result ctx'' f'') :
    Passes cfg C (p >>= next) ctx f result ctx'' f'' where
  returns := (Prog.run_bind first.returns).trans rest.returns
  cuts := cuts_bind first.returns first.cuts rest.cuts

theorem Passes.bind_error {p : FsM α} {next : α → FsM β} {status : Status}
    (first : Passes cfg C p ctx f (.error status) ctx' f') :
    Passes cfg C (p >>= next) ctx f (.error status) ctx' f' where
  returns := Prog.run_bind first.returns
  cuts := cuts_bind first.returns first.cuts fun _ ↦ first.behind

theorem Passes.result {p : FsM α} {result : Except Status α}
    (pass : Passes cfg C p ctx f result ctx' f') :
    Passes cfg C p.result ctx f (.ok result) ctx' f' where
  returns := Prog.run_bind pass.returns
  cuts := cuts_bind pass.returns pass.cuts fun _ ↦ pass.behind

theorem Passes.orStatus {p : FsM α} {result : Except Status α} {status : Status}
    (pass : Passes cfg C p ctx f result ctx' f') :
    Passes cfg C (p.orStatus status) ctx f (result.mapError fun _ ↦ status) ctx' f' where
  returns := Prog.run_bind pass.returns
  cuts := cuts_bind pass.returns pass.cuts fun _ ↦ pass.behind

/-! ## Filling erased bytes -/

/-- The bytes filled so far hold what they should, and the others what they held at the start. -/
def Filled (start target : Flash) (written : ℕ → ℕ → Prop) (f : Flash) : Prop :=
  ∀ b o, (written b o → f b o = target b o) ∧ (¬written b o → f b o = start b o)

/-- A range of bytes of a block. -/
def InRange (block lo hi : ℕ) : ℕ → ℕ → Prop := fun b o ↦ b = block ∧ lo ≤ o ∧ o < hi

variable {start target : Flash} {written written' : ℕ → ℕ → Prop}

theorem filled_start (start target : Flash) : Filled start target (fun _ _ ↦ False) start :=
  fun _ _ ↦ ⟨fun written ↦ written.elim, fun _ ↦ rfl⟩

theorem Filled.congr (filled : Filled start target written f)
    (same : ∀ b o, written b o ↔ written' b o) : Filled start target written' f := by
  intro b o
  rw [← same b o]
  exact filled b o

/-- A block that nothing has been written to is as it was. -/
theorem Filled.block_eq (filled : Filled start target written f) {b : ℕ}
    (untouched : ∀ o, ¬written b o) : f b = start b :=
  funext fun o ↦ (filled b o).2 (untouched o)

theorem Filled.write (filled : Filled start target written f) {block offset size : ℕ} {data : Bytes}
    (blank : ∀ o, offset ≤ o → o < offset + size → cfg.Blank (start block o))
    (unwritten : ∀ o, offset ≤ o → o < offset + size → ¬written block o)
    (agrees : ∀ j < size, data j = target block (offset + j)) :
    Filled start target
      (fun b o ↦ written b o ∨ InRange block offset (offset + size) b o)
      ((FlashOp.write block offset size data).work cfg f).2 := by
  intro b o
  simp only [FlashOp.work]
  by_cases inside : InRange block offset (offset + size) b o
  · obtain ⟨rfl, lo, hi⟩ := inside
    refine ⟨fun _ ↦ ?_, fun out ↦ (out (.inr ⟨rfl, lo, hi⟩)).elim⟩
    rw [Function.update_self, patch_in ⟨lo, hi⟩, Nat.add_sub_cancel' lo,
      (filled b o).2 (unwritten o lo hi), blank o lo hi, agrees (o - offset) (by omega),
      Nat.add_sub_cancel' lo]
  · rw [update_patch_out inside]
    exact ⟨fun wrote ↦ (filled b o).1 (wrote.resolve_right inside),
      fun out ↦ (filled b o).2 fun wrote ↦ out (.inl wrote)⟩

theorem runs_write (ctx : Ctx) (filled : Filled start target written f) (block offset size : ℕ)
    (data : Bytes) (inside : ∀ o, offset ≤ o → o < offset + size → W block o)
    (blank : ∀ o, offset ≤ o → o < offset + size → cfg.Blank (start block o))
    (unwritten : ∀ o, offset ≤ o → o < offset + size → ¬written block o)
    (agrees : ∀ j < size, data j = target block (offset + j)) :
    ∃ f', Runs cfg W (FlashOp.write block offset size data).call ctx f (.ok ()) ctx f' ∧
      Filled start target (fun b o ↦ written b o ∨
        InRange block offset (offset + size) b o) f' := by
  refine ⟨_, runs_call _ ?_, filled.write blank unwritten agrees⟩
  rintro b o ⟨rfl, lo, hi⟩
  exact inside o lo hi

/-- A move copies a range of another block. -/
theorem runs_blockToBlockMoveLoop (filled : Filled start target written f)
    {passes dstBlock srcBlock dstOffset srcOffset size : ℕ} (enough : size ≤ passes)
    (dstFits : dstOffset + size < 2 ^ 32) (srcFits : srcOffset + size < 2 ^ 32)
    (inside : ∀ o, dstOffset ≤ o → o < dstOffset + size → W dstBlock o)
    (blank : ∀ o, dstOffset ≤ o → o < dstOffset + size → cfg.Blank (start dstBlock o))
    (unwritten : ∀ o, dstOffset ≤ o → o < dstOffset + size → ¬written dstBlock o)
    (apart : srcBlock ≠ dstBlock)
    (agrees : ∀ j < size, f srcBlock (srcOffset + j) = target dstBlock (dstOffset + j)) :
    ∃ f', Runs cfg W (blockToBlockMoveLoop dstBlock srcBlock passes dstOffset srcOffset size) ctx f
        (.ok ()) ctx f' ∧
      Filled start target
        (fun b o ↦ written b o ∨ InRange dstBlock dstOffset (dstOffset + size) b o) f' := by
  induction passes generalizing f written dstOffset srcOffset size with
  | zero =>
      refine ⟨f, runs_pure (), filled.congr fun b o ↦ ?_⟩
      exact ⟨.inl, fun wrote ↦ wrote.elim id fun range ↦ by obtain ⟨_, lo, hi⟩ := range; omega⟩
  | succ passes ih =>
      rw [blockToBlockMoveLoop]
      by_cases empty : size = 0
      · rw [if_pos empty]
        refine ⟨f, runs_pure (), filled.congr fun b o ↦ ?_⟩
        exact ⟨.inl, fun wrote ↦ wrote.elim id fun range ↦ by obtain ⟨_, lo, hi⟩ := range; omega⟩
      · rw [if_neg empty]
        have count_le : min size itsMaxBlockDataCopy ≤ size := Nat.min_le_left _ _
        have count_pos : 0 < min size itsMaxBlockDataCopy :=
          Nat.lt_min.2 ⟨Nat.pos_of_ne_zero empty, by decide⟩
        dsimp only
        generalize min size itsMaxBlockDataCopy = count at count_le count_pos
        obtain ⟨f₁, run₁, filled₁⟩ := runs_write ctx filled dstBlock dstOffset count
          (fun i ↦ f srcBlock (srcOffset + i)) (fun o lo hi ↦ inside o lo (by omega))
          (fun o lo hi ↦ blank o lo (by omega)) (fun o lo hi ↦ unwritten o lo (by omega))
          fun j bound ↦ agrees j (by omega)
        have source : f₁ srcBlock = f srcBlock := by
          cases run₁.returns
          exact Function.update_of_ne apart _ _
        obtain ⟨f₂, run₂, filled₂⟩ := ih filled₁ (show size - count ≤ passes by omega)
          (show dstOffset + count + (size - count) < 2 ^ 32 by omega)
          (show srcOffset + count + (size - count) < 2 ^ 32 by omega)
          (fun o lo hi ↦ inside o (by omega) (by omega))
          (fun o lo hi ↦ blank o (by omega) (by omega))
          (fun o lo hi wrote ↦ wrote.elim (unwritten o (by omega) (by omega)) fun range ↦ by
            obtain ⟨_, _, hi'⟩ := range
            omega)
          (fun j bound ↦ by
            rw [source, Nat.add_assoc, Nat.add_assoc]
            exact agrees (count + j) (by omega))
        refine ⟨f₂, ?_, filled₂.congr fun b o ↦ ?_⟩
        · rw [add32_eq (by omega), add32_eq (by omega)]
          exact (runs_read _ _ _).bind (run₁.bind run₂)
        · simp only [InRange, or_assoc]
          refine or_congr_right ⟨fun range ↦ ?_, fun range ↦ ?_⟩
          · omega
          · omega

theorem runs_blockToBlockMove (ctx : Ctx) (filled : Filled start target written f)
    {dstBlock srcBlock dstOffset srcOffset size : ℕ}
    (dstFits : dstOffset + size < 2 ^ 32) (srcFits : srcOffset + size < 2 ^ 32)
    (inside : ∀ o, dstOffset ≤ o → o < dstOffset + size → W dstBlock o)
    (blank : ∀ o, dstOffset ≤ o → o < dstOffset + size → cfg.Blank (start dstBlock o))
    (unwritten : ∀ o, dstOffset ≤ o → o < dstOffset + size → ¬written dstBlock o)
    (apart : srcBlock ≠ dstBlock)
    (agrees : ∀ j < size, f srcBlock (srcOffset + j) = target dstBlock (dstOffset + j)) :
    ∃ f', Runs cfg W (itsFlashFsBlockToBlockMove dstBlock dstOffset srcBlock srcOffset size) ctx f
        (.ok ()) ctx f' ∧
      Filled start target
        (fun b o ↦ written b o ∨ InRange dstBlock dstOffset (dstOffset + size) b o) f' :=
  runs_blockToBlockMoveLoop filled le_rfl dstFits srcFits inside blank unwritten apart agrees

end TrustedFirmwareM.Its
