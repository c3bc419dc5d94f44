import TrustedFirmwareM.NvCounters.Rram

/-!
# Counters in RRAM survive power loss

At every point a counter has one value: the one of its record, or the one of its backup if that has
been written and the record has not.  A boot recovers it, and every request changes it in one step.
-/

namespace TrustedFirmwareM.NvCounters.Rram

open Program

variable {n : ℕ} {cfg : Config}

/-- The record of a cell has a valid checksum. -/
def World.Valid (cfg : Config) (w : World n) (cell : Cell n) : Prop :=
  ifxRramCounterIsChecksumValid cfg cell (w.area cell) = true

/-- The counter holds a value and its backup holds no later one. -/
structure World.Main (cfg : Config) (w : World n) (i : Fin n) (value : Word) : Prop where
  /-- The counter is valid. -/
  valid : w.Valid cfg (.counter i)
  /-- The counter has the value. -/
  value_eq : (w.area (.counter i)).value = value
  /-- The backup is not later. -/
  backup : w.Valid cfg (.backup i) → (w.area (.backup i)).value ≤ value

/-- The backup holds a value that the counter does not hold yet. -/
structure World.Pending (cfg : Config) (w : World n) (i : Fin n) (value : Word) : Prop where
  /-- The backup is valid. -/
  valid : w.Valid cfg (.backup i)
  /-- The backup has the value. -/
  value_eq : (w.area (.backup i)).value = value
  /-- The counter is earlier. -/
  counter : w.Valid cfg (.counter i) → (w.area (.counter i)).value < value

/-- The counters have been initialised. -/
def World.Initialised (w : World n) : Prop := (w.area .flag).value = ifxNvmInitDoneFlag

/-- The area holds values. -/
structure World.Good (cfg : Config) (w : World n) (values : Fin n → Word) : Prop where
  /-- The counters have been initialised. -/
  initialised : w.Initialised
  /-- Each counter or its backup holds the value. -/
  holds : ∀ i, w.Main cfg i (values i) ∨ w.Pending cfg i (values i)

/-- The counters hold values. -/
structure World.Ready (cfg : Config) (w : World n) (values : Fin n → Word) : Prop where
  /-- The counters have been initialised. -/
  initialised : w.Initialised
  /-- Each counter holds the value. -/
  main : ∀ i, w.Main cfg i (values i)

theorem World.Ready.good {w : World n} {values : Fin n → Word} (ready : w.Ready cfg values) :
    w.Good cfg values := ⟨ready.initialised, fun i ↦ .inl (ready.main i)⟩

/-- Write a record. -/
def World.put (w : World n) (cell : Cell n) (record : Record) : World n :=
  { w with area := Function.update w.area cell record }

/-- The record of a value. -/
def sealed (cfg : Config) (cell : Cell n) (value : Word) : Record :=
  ⟨value, cfg.crc value (cell.address cfg)⟩

section

variable {w : World n} {cell other : Cell n} {record : Record} {value : Word} {i j : Fin n}

@[simp] theorem World.area_put_self : (w.put cell record).area cell = record :=
  Function.update_self ..

theorem World.area_put_of_ne (ne : other ≠ cell) : (w.put cell record).area other = w.area other :=
  Function.update_of_ne ne ..

theorem World.valid_put_self :
    (w.put cell record).Valid cfg cell ↔ ifxRramCounterIsChecksumValid cfg cell record = true := by
  rw [World.Valid, World.area_put_self]

theorem World.valid_put_of_ne (ne : other ≠ cell) :
    (w.put cell record).Valid cfg other ↔ w.Valid cfg other := by
  rw [World.Valid, World.area_put_of_ne ne, World.Valid]

theorem valid_sealed : ifxRramCounterIsChecksumValid cfg cell (sealed cfg cell value) = true :=
  beq_self_eq_true _

theorem World.put_put (record' : Record) : (w.put cell record).put cell record' =
    w.put cell record' := by
  rw [World.put, World.put, World.put, Function.update_idem]

theorem cellOf_ne (ne : j ≠ i) (isBackup isBackup' : Bool) :
    cellOf j isBackup ≠ cellOf i isBackup' := by
  cases isBackup <;> cases isBackup' <;> simp [cellOf, ne]

theorem flag_ne_cellOf (isBackup : Bool) : Cell.flag ≠ cellOf i isBackup := by
  cases isBackup <;> rintro ⟨⟩

/-- Writing a record of one counter leaves the others. -/
theorem World.main_put_of_ne (ne : j ≠ i) (isBackup : Bool) (main : w.Main cfg j value) :
    (w.put (cellOf i isBackup) record).Main cfg j value := by
  have counter : (w.put (cellOf i isBackup) record).area (.counter j) = w.area (.counter j) :=
    World.area_put_of_ne (cellOf_ne ne false isBackup)
  have backup : (w.put (cellOf i isBackup) record).area (.backup j) = w.area (.backup j) :=
    World.area_put_of_ne (cellOf_ne ne true isBackup)
  refine ⟨?_, ?_, ?_⟩
  · exact (World.valid_put_of_ne (cellOf_ne ne false isBackup)).2 main.valid
  · exact (congrArg Record.value counter).trans main.value_eq
  · intro valid
    have le := main.backup ((World.valid_put_of_ne (cellOf_ne ne true isBackup)).1 valid)
    rwa [← show _ = (w.area (.backup j)).value from congrArg Record.value backup] at le

theorem World.pending_put_of_ne (ne : j ≠ i) (isBackup : Bool) (pending : w.Pending cfg j value) :
    (w.put (cellOf i isBackup) record).Pending cfg j value := by
  have counter : (w.put (cellOf i isBackup) record).area (.counter j) = w.area (.counter j) :=
    World.area_put_of_ne (cellOf_ne ne false isBackup)
  have backup : (w.put (cellOf i isBackup) record).area (.backup j) = w.area (.backup j) :=
    World.area_put_of_ne (cellOf_ne ne true isBackup)
  refine ⟨?_, ?_, ?_⟩
  · exact (World.valid_put_of_ne (cellOf_ne ne true isBackup)).2 pending.valid
  · exact (congrArg Record.value backup).trans pending.value_eq
  · intro valid
    have lt := pending.counter ((World.valid_put_of_ne (cellOf_ne ne false isBackup)).1 valid)
    rwa [← show _ = (w.area (.counter j)).value from congrArg Record.value counter] at lt

theorem World.initialised_put (isBackup : Bool) :
    (w.put (cellOf i isBackup) record).Initialised ↔ w.Initialised := by
  rw [World.Initialised, World.area_put_of_ne (flag_ne_cellOf isBackup), World.Initialised]

/-- Writing a record of a counter changes at most the value of that counter. -/
theorem World.Good.put {values : Fin n → Word} (good : w.Good cfg values) {isBackup : Bool}
    (holds : (w.put (cellOf i isBackup) record).Main cfg i value ∨
      (w.put (cellOf i isBackup) record).Pending cfg i value) :
    (w.put (cellOf i isBackup) record).Good cfg (Function.update values i value) := by
  refine ⟨(World.initialised_put isBackup).2 good.initialised, fun j ↦ ?_⟩
  rcases eq_or_ne j i with rfl | ne
  · rwa [Function.update_self]
  · rw [Function.update_of_ne ne]
    exact (good.holds j).imp (World.main_put_of_ne ne isBackup)
      (World.pending_put_of_ne ne isBackup)

/-- The backup is torn. -/
theorem World.Main.tear_backup (main : w.Main cfg i value)
    (torn : ifxRramCounterIsChecksumValid cfg (.backup i) record ≠ true) :
    (w.put (.backup i) record).Main cfg i value := by
  have ne : Cell.counter i ≠ Cell.backup i := by rintro ⟨⟩
  refine ⟨(World.valid_put_of_ne ne).2 main.valid, ?_, fun valid ↦ ?_⟩
  · rw [World.area_put_of_ne ne, main.value_eq]
  · exact absurd (World.valid_put_self.1 valid) torn

/-- The backup has a later value. -/
theorem World.Main.set_backup {old : Word} (main : w.Main cfg i old) (later : old < value) :
    (w.put (.backup i) (sealed cfg (.backup i) value)).Pending cfg i value := by
  have ne : Cell.counter i ≠ Cell.backup i := by rintro ⟨⟩
  refine ⟨World.valid_put_self.2 valid_sealed, ?_, fun _ ↦ ?_⟩
  · rw [World.area_put_self]
    rfl
  · rw [World.area_put_of_ne ne, main.value_eq]
    exact later

/-- The counter is torn. -/
theorem World.Pending.tear_counter (pending : w.Pending cfg i value)
    (torn : ifxRramCounterIsChecksumValid cfg (.counter i) record ≠ true) :
    (w.put (.counter i) record).Pending cfg i value := by
  have ne : Cell.backup i ≠ Cell.counter i := by rintro ⟨⟩
  refine ⟨(World.valid_put_of_ne ne).2 pending.valid, ?_, fun valid ↦ ?_⟩
  · rw [World.area_put_of_ne ne, pending.value_eq]
  · exact absurd (World.valid_put_self.1 valid) torn

/-- The counter has the value of the backup. -/
theorem World.Pending.set_counter (pending : w.Pending cfg i value) :
    (w.put (.counter i) (sealed cfg (.counter i) value)).Main cfg i value := by
  have ne : Cell.backup i ≠ Cell.counter i := by rintro ⟨⟩
  refine ⟨World.valid_put_self.2 valid_sealed, ?_, fun _ ↦ ?_⟩
  · rw [World.area_put_self]
    rfl
  · rw [World.area_put_of_ne ne, pending.value_eq]
    exact BitVec.le_refl _

end

/-! ## Specifications -/

section

variable {C : World n → Prop} {w : World n} {v : Unit}

theorem spec_read {Q : PlatErr × Word → Unit → World n → Prop} {i : Fin n} {isBackup : Bool}
    (here : C w) (valid : w.Valid cfg (cellOf i isBackup) →
      Q (.success, (w.area (cellOf i isBackup)).value) v w)
    (invalid : ¬w.Valid cfg (cellOf i isBackup) → Q (.maxValue, 0) v w) :
    Spec Op.handle C (ifxRramReadNvCounterOrBackup cfg i isBackup) Q v w := by
  rw [ifxRramReadNvCounterOrBackup, dif_pos i.isLt, spec_bind]
  refine ⟨here, here, ?_⟩
  dsimp only [Op.handle]
  split
  · next is_valid => exact ⟨here, valid is_valid⟩
  · next is_invalid => exact ⟨here, invalid is_invalid⟩

/-- A record is torn, and then it holds the value. -/
theorem spec_program {Q : PlatErr → Unit → World n → Prop} {i : Fin n} {value : Word}
    {isBackup : Bool} (here : C w)
    (torn : C (w.put (cellOf i isBackup) (w.torn (cellOf i isBackup))))
    (there : C (w.put (cellOf i isBackup) (sealed cfg (cellOf i isBackup) value)))
    (after : Q .success v (w.put (cellOf i isBackup) (sealed cfg (cellOf i isBackup) value))) :
    Spec Op.handle C (ifxRramProgramNvCounterOrBackup cfg i value isBackup) Q v w := by
  rw [ifxRramProgramNvCounterOrBackup, spec_bind, programData, spec_bind]
  refine ⟨here, torn, ?_⟩
  have put : World.put (w.put (cellOf i isBackup) (w.torn (cellOf i isBackup))) (cellOf i isBackup)
      (sealed cfg (cellOf i isBackup) value) =
      w.put (cellOf i isBackup) (sealed cfg (cellOf i isBackup) value) := World.put_put _
  refine ⟨torn, (congrArg C put).mpr there, ?_⟩
  change Spec Op.handle C (ifxRramReadNvCounterOrBackup cfg i isBackup >>= _) Q v
    (World.put (w.put (cellOf i isBackup) _) (cellOf i isBackup)
      (sealed cfg (cellOf i isBackup) value))
  rw [put, spec_bind]
  refine spec_read there (fun _ ↦ ?_) fun invalid ↦ ?_
  · dsimp only
    rw [World.area_put_self, if_neg (not_not.2 rfl), sealed, if_neg (not_not.2 rfl)]
    exact ⟨there, after⟩
  · exact absurd (World.valid_put_self.2 valid_sealed) invalid

/-- What a record holds while it is programmed has no valid checksum.  The flag has no checksum. -/
def Detected (cfg : Config) (torn : Cell n → Record) : Prop :=
  ∀ i isBackup, ifxRramCounterIsChecksumValid cfg (cellOf i isBackup)
    (torn (cellOf i isBackup)) ≠ true

/-- A counter is restored from its backup. -/
theorem spec_restore {Q : PlatErr → Unit → World n → Prop} {i : Fin n} {value : Word}
    (torn : Detected cfg w.torn) (pending : w.Pending cfg i value) (here : C w)
    (crash : ∀ record, (w.put (.counter i) record).Main cfg i value ∨
      (w.put (.counter i) record).Pending cfg i value → C (w.put (.counter i) record))
    (after : ∀ record, (w.put (.counter i) record).Main cfg i value →
      Q .success v (w.put (.counter i) record)) :
    Spec Op.handle C (ifxRramRestoreCounterFromBackup cfg i) Q v w := by
  rw [ifxRramRestoreCounterFromBackup, spec_bind]
  refine spec_read here (fun _ ↦ ?_) fun invalid ↦ absurd pending.valid invalid
  dsimp only
  rw [if_neg (not_not.2 rfl), show (w.area (cellOf i true)).value = value from pending.value_eq]
  exact spec_program here (crash _ (.inr (pending.tear_counter (torn i false))))
    (crash _ (.inl pending.set_counter)) (after _ pending.set_counter)

/-- A counter is recovered. -/
theorem spec_recoverCounter {Q : PlatErr → Unit → World n → Prop} {i : Fin n} {value : Word}
    (torn : Detected cfg w.torn) (holds : w.Main cfg i value ∨ w.Pending cfg i value) (here : C w)
    (crash : ∀ record, (w.put (.counter i) record).Main cfg i value ∨
      (w.put (.counter i) record).Pending cfg i value → C (w.put (.counter i) record))
    (kept : w.Main cfg i value → Q .success v w)
    (restored : ∀ record, (w.put (.counter i) record).Main cfg i value →
      Q .success v (w.put (.counter i) record)) :
    Spec Op.handle C (recoverCounter cfg i) Q v w := by
  rw [recoverCounter, spec_bind]
  rcases holds with main | pending
  · refine spec_read here (fun valid ↦ ?_) fun _ ↦ ?_
    · dsimp only
      rw [if_neg (by decide), spec_bind]
      refine spec_read here (fun _ ↦ ?_) fun invalid ↦ absurd main.valid invalid
      dsimp only
      have earlier : ¬(w.area (cellOf i false)).value < (w.area (cellOf i true)).value := by
        rw [BitVec.not_lt, show (w.area (cellOf i false)).value = value from main.value_eq]
        exact main.backup valid
      rw [if_neg (by decide), if_neg (by decide), if_neg (by decide), if_neg (by decide),
        if_neg earlier]
      exact ⟨here, kept main⟩
    · dsimp only
      rw [if_neg (by decide), spec_bind]
      refine spec_read here (fun _ ↦ ?_) fun invalid ↦ absurd main.valid invalid
      dsimp only
      rw [if_neg (by decide), if_neg (by decide), if_pos (by decide)]
      exact ⟨here, kept main⟩
  · refine spec_read here (fun _ ↦ ?_) fun invalid ↦ absurd pending.valid invalid
    dsimp only
    rw [if_neg (by decide), spec_bind]
    refine spec_read here (fun valid ↦ ?_) fun _ ↦ ?_
    · dsimp only
      have later : (w.area (cellOf i false)).value < (w.area (cellOf i true)).value := by
        rw [show (w.area (cellOf i true)).value = value from pending.value_eq]
        exact pending.counter valid
      rw [if_neg (by decide), if_neg (by decide), if_neg (by decide), if_neg (by decide),
        if_pos later]
      exact spec_restore torn pending here crash restored
    · dsimp only
      rw [if_neg (by decide), if_neg (by decide), if_neg (by decide), if_pos (by decide)]
      exact spec_restore torn pending here crash restored

/-- A loop over counters keeps what its rounds keep. -/
theorem spec_forCounters {body : Fin n → NvM n PlatErr} {I : List (Fin n) → World n → Prop}
    (round : ∀ i rest w, I (i :: rest) w →
      Spec Op.handle C (body i) (fun status _ w' ↦ status = .success ∧ I rest w') v w)
    (done : ∀ w, I [] w → C w) (l : List (Fin n)) {w : World n} (start : I l w) :
    Spec Op.handle C (forCounters body l) (fun status _ w' ↦ status = .success ∧ I [] w') v w := by
  induction l generalizing w with
  | nil => exact ⟨done w start, rfl, start⟩
  | cons i rest ih =>
      rw [forCounters, spec_bind]
      refine (round i rest w start).mono fun status v' w' _ next ↦ ?_
      obtain ⟨rfl, kept⟩ := next
      cases v
      cases v'
      rw [if_neg (not_not.2 rfl)]
      exact ih kept

/-- The counters that are not in a list hold their values. -/
structure World.Recovered (cfg : Config) (values : Fin n → Word) (torn : Cell n → Record)
    (rest : List (Fin n)) (w : World n) : Prop where
  /-- The area holds the values. -/
  good : w.Good cfg values
  /-- The other counters have been recovered. -/
  main : ∀ i, i ∉ rest → w.Main cfg i (values i)
  /-- Nothing has changed about torn records. -/
  torn_eq : w.torn = torn

/-- All counters are recovered. -/
theorem spec_recover {values : Fin n → Word} (torn : Detected cfg w.torn)
    (good : w.Good cfg values) :
    Spec Op.handle (fun w ↦ w.Good cfg values) (ifxRramRecoverRramNvCounters cfg)
      (fun status _ w' ↦ status = .success ∧ w'.Ready cfg values) v w := by
  have loop : Spec Op.handle (fun w ↦ w.Good cfg values) (ifxRramRecoverRramNvCounters cfg)
      (fun status _ w' ↦ status = .success ∧ World.Recovered cfg values w.torn [] w') v w := by
    refine spec_forCounters (I := World.Recovered cfg values w.torn) (fun i rest w' recovered ↦ ?_)
      (fun _ recovered ↦ recovered.good) _ ⟨good, fun i out ↦ absurd (List.mem_finRange i) out, rfl⟩
    have torn' : Detected cfg w'.torn := recovered.torn_eq ▸ torn
    have put_good (record : Record)
        (holds : (w'.put (cellOf i false) record).Main cfg i (values i) ∨
        (w'.put (cellOf i false) record).Pending cfg i (values i)) :
        (w'.put (cellOf i false) record).Good cfg values := by
      have put := recovered.good.put holds
      rwa [Function.update_eq_self] at put
    refine spec_recoverCounter torn' (recovered.good.holds i) recovered.good put_good
      (fun main ↦ ?_)
      fun record main ↦ ?_
    · refine ⟨rfl, recovered.good, fun j out ↦ ?_, recovered.torn_eq⟩
      rcases eq_or_ne j i with rfl | ne
      · exact main
      · exact recovered.main j (List.not_mem_cons_of_ne_of_not_mem ne out)
    · refine ⟨rfl, put_good record (.inl main), fun j out ↦ ?_, recovered.torn_eq⟩
      rcases eq_or_ne j i with rfl | ne
      · exact main
      · exact World.main_put_of_ne ne false
          (recovered.main j (List.not_mem_cons_of_ne_of_not_mem ne out))
  exact loop.mono fun status _ w' _ post ↦
    ⟨post.1, post.2.good.initialised, fun i ↦ post.2.main i List.not_mem_nil⟩

/-- The area holds values, or the counters have not been initialised. -/
def World.GoodOrNew (cfg : Config) (w : World n) (values : Fin n → Word) : Prop :=
  w.Good cfg values ∨ ¬w.Initialised

/-- The counters that are not in a list have been cleared. -/
structure World.Cleared (cfg : Config) (torn : Cell n → Record) (rest : List (Fin n))
    (w : World n) :
    Prop where
  /-- The counters have not been initialised. -/
  unused : ¬w.Initialised
  /-- The other counters are 0. -/
  main : ∀ i, i ∉ rest → w.Main cfg i 0
  /-- Nothing has changed about torn records. -/
  torn_eq : w.torn = torn

/-- A counter is cleared. -/
theorem spec_clearCounter {i : Fin n} {rest : List (Fin n)} {torn : Cell n → Record}
    (cleared : World.Cleared cfg torn (i :: rest) w) :
    Spec Op.handle (fun w ↦ w.GoodOrNew cfg fun _ ↦ 0) (clearCounter cfg i)
      (fun status _ w' ↦ status = .success ∧ World.Cleared cfg torn rest w') v w := by
  have ne : Cell.backup i ≠ Cell.counter i := by rintro ⟨⟩
  have unused (record : Record) : ¬(w.put (cellOf i true) record).Initialised := by
    rw [World.initialised_put]
    exact cleared.unused
  have unused' (record record' : Record) :
      ¬((w.put (cellOf i true) record).put (cellOf i false) record').Initialised := by
    rw [World.initialised_put]
    exact unused record
  rw [clearCounter, spec_bind]
  refine spec_program (.inr cleared.unused) (.inr (unused _)) (.inr (unused _)) ?_
  rw [if_neg (not_not.2 rfl)]
  refine spec_program (.inr (unused _)) (.inr (unused' _ _)) (.inr (unused' _ _))
    ⟨rfl, unused' _ _, ?_,
    cleared.torn_eq⟩
  intro j out
  rcases eq_or_ne j i with rfl | other
  · refine ⟨World.valid_put_self.2 valid_sealed, ?_, fun _ ↦ ?_⟩
    · exact congrArg Record.value World.area_put_self
    · have backup : ((w.put (cellOf j true) (sealed cfg (cellOf j true) 0)).put (cellOf j false)
          (sealed cfg (cellOf j false) 0)).area (.backup j) = sealed cfg (cellOf j true) 0 :=
        (World.area_put_of_ne ne).trans World.area_put_self
      rw [backup]
      exact BitVec.le_refl _
  · exact World.main_put_of_ne other false (World.main_put_of_ne other true
      (cleared.main j (List.not_mem_cons_of_ne_of_not_mem other out)))

theorem World.main_put_flag {w : World n} {i : Fin n} {value : Word} (record : Record)
    (main : w.Main cfg i value) : (w.put .flag record).Main cfg i value := by
  have counter : Cell.counter i ≠ .flag := by rintro ⟨⟩
  have backup : Cell.backup i ≠ .flag := by rintro ⟨⟩
  refine ⟨(World.valid_put_of_ne counter).2 main.valid, ?_, fun valid ↦ ?_⟩
  · rw [World.area_put_of_ne counter, main.value_eq]
  · rw [World.area_put_of_ne backup]
    exact main.backup ((World.valid_put_of_ne backup).1 valid)

/-- `tfm_plat_init_nv_counter` recovers the counters. -/
theorem spec_init {values : Fin n → Word} (fits : expectedAreaSize cfg n ≤ cfg.areaSize)
    (torn : Detected cfg w.torn) (good : w.Good cfg values) :
    Spec Op.handle (fun w ↦ w.Good cfg values) (tfmPlatInitNvCounter cfg)
      (fun status _ w' ↦ status = .success ∧ w'.Ready cfg values) v w := by
  rw [tfmPlatInitNvCounter, if_neg (Nat.not_lt.2 fits), spec_bind]
  refine ⟨good, good, ?_⟩
  change Spec Op.handle _ (readData .flag >>= _) _ _ _
  rw [spec_bind]
  refine ⟨good, good, ?_⟩
  change Spec Op.handle _ (if (w.area .flag).value ≠ _ then _ else _) _ _ _
  have set : (w.area .flag).value = ifxNvmInitDoneFlag := good.initialised
  rw [if_neg (not_not.2 set)]
  exact spec_recover torn good

/-- `tfm_plat_init_nv_counter` initialises the counters. -/
theorem spec_init_new (fits : expectedAreaSize cfg n ≤ cfg.areaSize) (torn : Detected cfg w.torn)
    (unused : ¬w.Initialised) :
    Spec Op.handle (fun w ↦ w.GoodOrNew cfg fun _ ↦ 0) (tfmPlatInitNvCounter cfg)
      (fun status _ w' ↦ status = .success ∧ w'.Ready cfg fun _ ↦ 0) v w := by
  have new : w.GoodOrNew cfg fun _ ↦ 0 := .inr unused
  rw [tfmPlatInitNvCounter, if_neg (Nat.not_lt.2 fits), spec_bind]
  refine ⟨new, new, ?_⟩
  change Spec Op.handle _ (readData .flag >>= _) _ _ _
  rw [spec_bind]
  refine ⟨new, new, ?_⟩
  change Spec Op.handle _ (if (w.area .flag).value ≠ _ then _ else _) _ _ _
  have not_set : (w.area .flag).value ≠ ifxNvmInitDoneFlag := unused
  rw [if_pos not_set, spec_bind]
  have clears := spec_forCounters (v := v) (C := fun w ↦ w.GoodOrNew cfg fun _ ↦ 0)
    (I := World.Cleared cfg w.torn) (fun i rest w' cleared ↦ spec_clearCounter cleared)
    (fun _ cleared ↦ .inr cleared.unused) (List.finRange n)
    ⟨unused, fun i out ↦ absurd (List.mem_finRange i) out, rfl⟩
  refine Spec.mono clears fun status v' w' _ post ↦ ?_
  obtain ⟨rfl, cleared⟩ := post
  have main (i : Fin n) : w'.Main cfg i 0 := cleared.main i List.not_mem_nil
  -- a torn flag counts as set or not, and the counters are 0 in either case
  have put_good (record : Record) : (w'.put .flag record).GoodOrNew cfg fun _ ↦ 0 := by
    by_cases initialised : (w'.put .flag record).Initialised
    · exact .inl ⟨initialised, fun i ↦ .inl (World.main_put_flag record (main i))⟩
    · exact .inr initialised
  rw [if_neg (not_not.2 rfl), spec_bind, programData, spec_bind]
  refine ⟨.inr cleared.unused, put_good _, ?_⟩
  have put : World.put (w'.put .flag (w'.torn .flag)) .flag
      ⟨ifxNvmInitDoneFlag, (w.area .flag).checksum⟩ =
      w'.put .flag ⟨ifxNvmInitDoneFlag, (w.area .flag).checksum⟩ := World.put_put _
  have done : (w'.put .flag ⟨ifxNvmInitDoneFlag, (w.area .flag).checksum⟩).Good cfg fun _ ↦ 0 :=
    ⟨congrArg Record.value World.area_put_self, fun i ↦ .inl (World.main_put_flag _ (main i))⟩
  refine ⟨put_good _, (congrArg (fun w : World n ↦ w.GoodOrNew cfg fun _ ↦ 0) put).mpr
    (.inl done), ?_⟩
  change Spec Op.handle _ (ifxRramRecoverRramNvCounters cfg) _ _
    (World.put (w'.put .flag _) .flag ⟨ifxNvmInitDoneFlag, (w.area .flag).checksum⟩)
  rw [put]
  have torn' : Detected cfg w'.torn := cleared.torn_eq ▸ torn
  exact Prog.Spec.mono (spec_recover torn' done) (fun _ ↦ .inl) fun _ _ _ post ↦ post

/-- A counter is set. -/
theorem spec_set {values : Fin n → Word} (torn : Detected cfg w.torn)
    (ready : w.Ready cfg values) (i : Fin n)
    (value : Word) :
    Spec Op.handle (fun w ↦ w.Good cfg values ∨
        values i ≤ value ∧ w.Good cfg (Function.update values i value))
      (tfmPlatSetNvCounter cfg i value)
      (fun status _ w' ↦ status = .invalidInput ∧ value < values i ∧ w'.Ready cfg values ∨
        status = .success ∧ values i ≤ value ∧
          w'.Ready cfg (Function.update values i value)) v w := by
  have main := ready.main i
  rw [tfmPlatSetNvCounter, spec_bind]
  refine spec_read (.inl ready.good) (fun _ ↦ ?_) fun invalid ↦ absurd main.valid invalid
  dsimp only
  rw [if_neg (not_not.2 rfl), show (w.area (cellOf i false)).value = values i from main.value_eq]
  by_cases lower : value < values i
  · rw [if_pos lower]
    exact ⟨.inl ready.good, .inl ⟨rfl, lower, ready⟩⟩
  rw [if_neg lower]
  have le : values i ≤ value := BitVec.not_lt.1 lower
  by_cases same : value = values i
  · rw [if_pos same]
    refine ⟨.inl ready.good, .inr ⟨rfl, le, ?_⟩⟩
    rwa [same, Function.update_eq_self]
  rw [if_neg same]
  have later : values i < value := by
    have ne : values i ≠ value := fun eq ↦ same eq.symm
    bv_omega
  have room : values i ≠ BitVec.allOnes 32 := by
    intro last
    have max : BitVec.allOnes 32 = 4294967295 := rfl
    rw [last, max] at later
    bv_omega
  rw [if_neg room, dif_pos i.isLt, spec_bind]
  have torn_good : (w.put (cellOf i true) (w.torn (cellOf i true))).Good cfg values := by
    have put : (w.put (cellOf i true) (w.torn (cellOf i true))).Good cfg _ :=
      ready.good.put (.inl (main.tear_backup (torn i true)))
    rwa [Function.update_eq_self] at put
  have pending := main.set_backup later
  have set_good : (w.put (cellOf i true) (sealed cfg (cellOf i true) value)).Good cfg _ :=
    ready.good.put (.inr pending)
  refine spec_program (.inl ready.good) (.inl torn_good) (.inr ⟨le, set_good⟩) ?_
  rw [if_neg (not_not.2 rfl)]
  have put_good {record : Record}
      (holds : ((w.put (cellOf i true) (sealed cfg (cellOf i true) value)).put (cellOf i false)
          record).Main cfg i value ∨
        ((w.put (cellOf i true) (sealed cfg (cellOf i true) value)).put (cellOf i false)
          record).Pending cfg i value) :
      ((w.put (cellOf i true) (sealed cfg (cellOf i true) value)).put
        (cellOf i false) record).Good cfg
        (Function.update values i value) := by
    have put := set_good.put holds
    rwa [Function.update_idem] at put
  have main' := pending.set_counter
  refine spec_program (.inr ⟨le, set_good⟩)
    (.inr ⟨le, put_good (.inr (pending.tear_counter (torn i false)))⟩)
      (.inr ⟨le, put_good (.inl main')⟩)
    (.inr ⟨rfl, le, (put_good (.inl main')).initialised, fun j ↦ ?_⟩)
  rcases eq_or_ne j i with rfl | ne
  · rw [Function.update_self]
    exact main'
  · rw [Function.update_of_ne ne]
    exact World.main_put_of_ne ne false (World.main_put_of_ne ne true (ready.main j))

/-- A counter is incremented. -/
theorem spec_increment {values : Fin n → Word} (torn : Detected cfg w.torn)
    (ready : w.Ready cfg values)
    (i : Fin n) :
    Spec Op.handle (fun w ↦ w.Good cfg values ∨
        values i ≤ values i + 1 ∧ w.Good cfg (Function.update values i (values i + 1)))
      (tfmPlatIncrementNvCounter cfg i)
      (fun status _ w' ↦ status = .maxValue ∧ values i = BitVec.allOnes 32 ∧ w'.Ready cfg values ∨
        status = .success ∧ values i ≤ values i + 1 ∧
          w'.Ready cfg (Function.update values i (values i + 1))) v w := by
  have main := ready.main i
  rw [tfmPlatIncrementNvCounter, tfmPlatReadNvCounter, if_neg (by decide), spec_bind]
  refine spec_read (.inl ready.good) (fun _ ↦ ?_) fun invalid ↦ absurd main.valid invalid
  dsimp only
  rw [if_neg (not_not.2 rfl), show (w.area (cellOf i false)).value = values i from main.value_eq]
  by_cases last : values i = BitVec.allOnes 32
  · rw [if_pos last]
    exact ⟨.inl ready.good, .inl ⟨rfl, last, ready⟩⟩
  · rw [if_neg last]
    refine (spec_set torn ready i (values i + 1)).mono fun status _ w' _ post ↦ ?_
    rcases post with ⟨-, lower, -⟩ | done
    · have max : BitVec.allOnes 32 = 4294967295 := rfl
      rw [max] at last
      bv_omega
    · exact .inr done

end

/-! ## Runs -/

open Counters

/-- The function behind a request. -/
def serve (cfg : Config) : Request → NvM n (PlatErr × Word)
  | .read counterId size => tfmPlatReadNvCounter cfg counterId size
  | .set counterId value => do
      let status ← tfmPlatSetNvCounter cfg counterId value
      pure (status, 0)
  | .increment counterId => do
      let status ← tfmPlatIncrementNvCounter cfg counterId
      pure (status, 0)

/-- The system. -/
structure Machine (n : ℕ) where
  /-- The records of the area. -/
  area : Cell n → Record
  /-- `tfm_plat_init_nv_counter` has succeeded since the last reset. -/
  running : Bool
  /-- What has happened to the counters, latest first. -/
  log : List (Event (Fin n) Word)

/-- What happens to the system.  A record that is being programmed holds what is given when power is
lost, after the given number of operations. -/
inductive Action (n : ℕ)
  /-- The system is reset and boots. -/
  | boot (torn : Cell n → Record) (cut : Option ℕ)
  /-- A request is served. -/
  | request (r : Request) (torn : Cell n → Record) (cut : Option ℕ)
  /-- Power is lost between requests. -/
  | powerOff

/-- What a record holds while it is programmed. -/
def Action.torn : Action n → Option (Cell n → Record)
  | .boot torn _ | .request _ torn _ => some torn
  | .powerOff => none

/-- A torn record has no valid checksum. -/
def Action.Detected (cfg : Config) (a : Action n) : Prop :=
  ∀ torn, a.torn = some torn → Rram.Detected cfg torn

/-- Execute a function, or part of it. -/
def execute {α : Type} (p : NvM n α) (w : World n) : Option ℕ → Option α × World n
  | none =>
      let (result, w) := (p ()).run Op.handle w
      (result.map Prod.fst, w)
  | some k => (none, (p ()).cut Op.handle k w)

/-- One step of the system. -/
def step (cfg : Config) (x : Machine n) : Action n → Option (Machine n)
  | .boot torn cut =>
      let (status, w) := execute (tfmPlatInitNvCounter cfg) ⟨x.area, torn⟩ cut
      some ⟨w.area, status == some .success, x.log⟩
  | .request r torn cut =>
      if x.running then
        let (result, w) := execute (serve cfg r) ⟨x.area, torn⟩ cut
        some ⟨w.area, result.isSome, (r.event result).toList ++ x.log⟩
      else none
  | .powerOff => some { x with running := false }

/-! ## Functions return -/

theorem total_call (o : Op n) : Total (call o) := Program.total_call o

theorem total_read (counterIdx : ℕ) (isBackup : Bool) :
    Total (ifxRramReadNvCounterOrBackup (n := n) cfg counterIdx isBackup) := by
  rw [ifxRramReadNvCounterOrBackup]
  split
  · refine total_bind (total_call _) fun record ↦ ?_
    split
    · exact total_pure _
    · exact total_ite (total_pure _) (total_pure _)
  · exact total_pure _

theorem total_program (i : Fin n) (value : Word) (isBackup : Bool) :
    Total (ifxRramProgramNvCounterOrBackup cfg i value isBackup) := by
  refine total_bind (total_bind (total_call _) fun _ ↦ total_call _) fun _ ↦ ?_
  refine total_ite (total_pure _) (total_bind (total_read _ _) fun _ ↦ ?_)
  exact total_ite (total_pure _) (total_ite (total_pure _) (total_pure _))

theorem total_restore (i : Fin n) : Total (ifxRramRestoreCounterFromBackup cfg i) :=
  total_bind (total_read _ _) fun _ ↦ total_ite (total_pure _) (total_program _ _ _)

theorem total_recoverCounter (i : Fin n) : Total (recoverCounter cfg i) := by
  refine total_bind (total_read _ _) fun _ ↦ total_ite (total_pure _) ?_
  refine total_bind (total_read _ _) fun _ ↦ total_ite (total_pure _) (total_ite (total_pure _) ?_)
  exact total_ite (total_pure _) (total_ite (total_restore i)
    (total_ite (total_restore i) (total_pure _)))

theorem total_forCounters {body : Fin n → NvM n PlatErr} (total : ∀ i, Total (body i))
    (l : List (Fin n)) : Total (forCounters body l) := by
  induction l with
  | nil => exact total_pure _
  | cons i rest ih => exact total_bind (total i) fun _ ↦ total_ite (total_pure _) ih

theorem total_clearCounter (i : Fin n) : Total (clearCounter cfg i) :=
  total_bind (total_program _ _ _) fun _ ↦ total_ite (total_pure _) (total_program _ _ _)

theorem total_init : Total (tfmPlatInitNvCounter cfg : NvM n PlatErr) := by
  have recovers : Total (ifxRramRecoverRramNvCounters cfg : NvM n PlatErr) :=
    total_forCounters total_recoverCounter _
  refine total_ite (total_pure _) (total_bind (total_call _) fun _ ↦ total_ite (total_pure _) ?_)
  refine total_bind (total_call _) fun record ↦ ?_
  split
  · exact total_pure _
  · refine total_ite (total_bind (total_forCounters total_clearCounter _) fun _ ↦ ?_) recovers
    refine total_ite (total_pure _) (total_bind ?_ fun _ ↦ total_ite (total_pure _) recovers)
    exact total_bind (total_call _) fun _ ↦ total_call _

theorem total_set (counterId : ℕ) (value : Word) :
    Total (tfmPlatSetNvCounter (n := n) cfg counterId value) := by
  refine total_bind (total_read _ _) fun _ ↦ total_ite (total_pure _) (total_ite (total_pure _) ?_)
  refine total_ite (total_pure _) (total_ite (total_pure _) ?_)
  split
  · exact total_bind (total_program _ _ _) fun _ ↦ total_ite (total_pure _) (total_program _ _ _)
  · exact total_pure _

theorem total_increment (counterId : ℕ) :
    Total (tfmPlatIncrementNvCounter (n := n) cfg counterId) := by
  refine total_bind (total_ite (total_pure _) (total_read _ _)) fun _ ↦ ?_
  exact total_ite (total_pure _) (total_ite (total_pure _) (total_set _ _))

theorem total_request (r : Request) : Total (serve cfg r : NvM n (PlatErr × Word)) := by
  cases r with
  | read counterId size => exact total_ite (total_pure _) (total_read _ _)
  | set counterId value => exact total_bind (total_set _ _) fun _ ↦ total_pure _
  | increment counterId => exact total_bind (total_increment _) fun _ ↦ total_pure _

/-- What a specification says of an execution. -/
theorem execute_spec {α : Type} {p : NvM n α} {w : World n} {C : World n → Prop}
    {Q : α → Unit → World n → Prop} (spec : Spec Op.handle C p Q () w) (total : Total p)
    (cut : Option ℕ) :
    C (execute p w cut).2 ∧
      ((execute p w cut).1 = none ∧ cut ≠ none ∨
        ∃ value, (execute p w cut).1 = some value ∧ cut = none ∧
          Q value () (execute p w cut).2) := by
  cases cut with
  | some k => exact ⟨spec.cut k, .inl ⟨rfl, by rintro ⟨⟩⟩⟩
  | none =>
      obtain ⟨⟨value, ⟨⟩⟩, run⟩ := Option.isSome_iff_exists.1 ((total ()).run Op.handle w)
      obtain ⟨crash, post⟩ := spec.run
      refine ⟨crash, .inr ⟨value, ?_, rfl, post _ run⟩⟩
      simp only [execute, run, Option.map_some]

/-- A counter that does not exist cannot be read. -/
theorem spec_read_outside {C : World n → Prop} {Q : PlatErr × Word → Unit → World n → Prop}
    {w : World n} {counterIdx : ℕ} (outside : ¬counterIdx < n) (isBackup : Bool) (here : C w)
    (after : Q (.invalidInput, 0) () w) :
    Spec Op.handle C (ifxRramReadNvCounterOrBackup cfg counterIdx isBackup) Q () w := by
  rw [ifxRramReadNvCounterOrBackup, dif_neg outside]
  exact ⟨here, after⟩

/-- A change of a counter that is done or refused. -/
theorem spec_change {p : NvM n PlatErr} {w : World n} {values : Fin n → Word}
    {event : Outcome → Event (Fin n) Word} {i : Fin n} {value : Word} {refusal : PlatErr}
    (change : ∀ outcome, (event outcome).change (· + 1) values = some (i, value, outcome))
    (refused : outcomeOf (some refusal) = .refused)
    (spec : Spec Op.handle
      (fun w ↦ w.Good cfg values ∨ values i ≤ value ∧ w.Good cfg (Function.update values i value)) p
      (fun status _ w' ↦ status = refusal ∧ w'.Ready cfg values ∨
        status = .success ∧ values i ≤ value ∧
          w'.Ready cfg (Function.update values i value)) () w) :
    Spec Op.handle (fun w' ↦ ∃ values', After values (some (event .unknown)) values' ∧
        w'.Good cfg values')
      (p >>= fun status ↦ pure (status, (0 : Word)))
      (fun result _ w' ↦ ∃ values',
        After values (some (event (outcomeOf (some result.1)))) values' ∧
        w'.Ready cfg values') () w := by
  have crash (w' : World n) (good : w'.Good cfg values ∨ values i ≤ value ∧
      w'.Good cfg (Function.update values i value)) :
      ∃ values', After values (some (event .unknown)) values' ∧ w'.Good cfg values' := by
    rcases good with good | ⟨le, good⟩
    · exact ⟨values, .kept (change _) (by decide), good⟩
    · exact ⟨_, .made (change _) (by decide) le, good⟩
  rw [spec_bind]
  refine Prog.Spec.mono spec crash fun result w' good post ↦ ⟨crash w' good, ?_⟩
  rcases post with ⟨status, ready⟩ | ⟨status, le, ready⟩
  · refine ⟨values, .kept (change _) ?_, ready⟩
    rw [status, refused]
    decide
  · refine ⟨_, .made (change _) ?_ le, ready⟩
    rw [status]
    decide

/-- A request changes the values as its event says. -/
theorem spec_request {w : World n} {values : Fin n → Word} (torn : Detected cfg w.torn)
    (ready : w.Ready cfg values) (r : Request) :
    Spec Op.handle (fun w' ↦ ∃ values', After values (r.event none) values' ∧ w'.Good cfg values')
      (serve cfg r)
      (fun result _ w' ↦ ∃ values', After values (r.event (some result)) values' ∧
        w'.Ready cfg values') () w := by
  cases r with
  | read counterId size =>
      have here : ∃ values', After values ((Request.read counterId size).event none) values' ∧
          w.Good cfg values' := ⟨values, rfl, ready.good⟩
      have kept (err : PlatErr) (failure : err ≠ .success) :
          ∃ values', After values ((Request.read counterId size).event (some (err, 0))) values' ∧
            w.Ready cfg values' := by
        refine ⟨values, ?_, ready⟩
        cases err with
        | success => exact absurd rfl failure
        | _ => rfl
      rw [serve, tfmPlatReadNvCounter]
      split
      · exact ⟨here, kept .invalidInput (by decide)⟩
      by_cases inside : counterId < n
      · have main := ready.main ⟨counterId, inside⟩
        refine spec_read (i := ⟨counterId, inside⟩) here (fun _ ↦ ⟨values, ?_, ready⟩)
          fun invalid ↦ absurd main.valid invalid
        rw [Request.event, dif_pos inside,
          show (w.area (cellOf ⟨counterId, inside⟩ false)).value = values ⟨counterId, inside⟩ from
            main.value_eq]
        exact .read _
      · exact spec_read_outside inside false here (kept .invalidInput (by decide))
  | set counterId value =>
      by_cases inside : counterId < n
      · simp only [Request.event, dif_pos inside]
        exact spec_change (fun _ ↦ rfl) rfl ((spec_set torn ready ⟨counterId, inside⟩ value).mono
          fun _ _ _ _ ↦ Or.imp_left fun post ↦ ⟨post.1, post.2.2⟩)
      · have here : ∃ values', After values none values' ∧ w.Good cfg values' :=
          ⟨values, rfl, ready.good⟩
        simp only [Request.event, dif_neg inside]
        rw [serve, spec_bind, tfmPlatSetNvCounter, spec_bind]
        exact spec_read_outside inside false here ⟨here, here, values, rfl, ready⟩
  | increment counterId =>
      by_cases inside : counterId < n
      · simp only [Request.event, dif_pos inside]
        exact spec_change (fun _ ↦ rfl) rfl ((spec_increment torn ready ⟨counterId, inside⟩).mono
          fun _ _ _ _ ↦ Or.imp_left fun post ↦ ⟨post.1, post.2.2⟩)
      · have here : ∃ values', After values none values' ∧ w.Good cfg values' :=
          ⟨values, rfl, ready.good⟩
        simp only [Request.event, dif_neg inside]
        rw [serve, spec_bind, tfmPlatIncrementNvCounter, spec_bind, tfmPlatReadNvCounter,
          if_neg (by decide)]
        exact spec_read_outside inside false here ⟨here, here, values, rfl, ready⟩

/-- The counters of the system have values that explain what has happened. -/
structure Machine.Inv (cfg : Config) (x : Machine n) (values : Fin n → Word) : Prop where
  /-- What has happened. -/
  explained : Explains (· + 1) x.log values
  /-- The counters hold the values while the system runs. -/
  ready : x.running = true → ∀ torn, World.Ready cfg ⟨x.area, torn⟩ values
  /-- The area holds the values, or nothing has happened. -/
  good : (∀ torn, World.Good cfg ⟨x.area, torn⟩ values) ∨
    (∀ torn, ¬World.Initialised ⟨x.area, torn⟩) ∧ x.log = []

theorem World.Ready.rearm {w : World n} {values : Fin n → Word} (ready : w.Ready cfg values)
    (torn : Cell n → Record) : World.Ready cfg ⟨w.area, torn⟩ values :=
  ⟨ready.initialised,
    fun i ↦ ⟨(ready.main i).valid, (ready.main i).value_eq, (ready.main i).backup⟩⟩

theorem World.Good.rearm {w : World n} {values : Fin n → Word} (good : w.Good cfg values)
    (torn : Cell n → Record) : World.Good cfg ⟨w.area, torn⟩ values :=
  ⟨good.initialised, fun i ↦ (good.holds i).imp
    (fun main ↦ ⟨main.valid, main.value_eq, main.backup⟩)
    fun pending ↦ ⟨pending.valid, pending.value_eq, pending.counter⟩⟩

/-- A boot keeps the values. -/
theorem Machine.Inv.boot {x y : Machine n} {values : Fin n → Word} (inv : x.Inv cfg values)
    (fits : expectedAreaSize cfg n ≤ cfg.areaSize) {torn : Cell n → Record} {cut : Option ℕ}
    (detected : (Action.boot torn cut).Detected cfg)
    (step_eq : step cfg x (.boot torn cut) = some y) :
    (∃ values', y.Inv cfg values') ∧ (cut = none → y.running = true) := by
  have torn' := detected torn rfl
  cases step_eq
  have runs {status : Option PlatErr} (run : (status == some .success) = true) :
      status = some .success := eq_of_beq run
  rcases inv.good with good | ⟨unused, empty⟩
  · obtain ⟨crash, post⟩ := execute_spec (spec_init (v := ()) fits torn' (good torn)) total_init cut
    refine ⟨⟨values, inv.explained, fun run torn ↦ ?_, .inl fun torn ↦ crash.rearm torn⟩, ?_⟩
    · rcases post with ⟨failed, -⟩ | ⟨status, -, -, -, ready⟩
      · exact absurd (failed.symm.trans (runs run)) (by rintro ⟨⟩)
      · exact ready.rearm torn
    · intro whole
      rcases post with ⟨-, interrupted⟩ | ⟨status, returned, -, rfl, -⟩
      · exact absurd whole interrupted
      · exact beq_iff_eq.2 returned
  · obtain ⟨crash, post⟩ :=
      execute_spec (spec_init_new (v := ()) fits torn' (unused torn)) total_init cut
    refine ⟨⟨fun _ ↦ 0, ?_, fun run torn ↦ ?_, ?_⟩, ?_⟩
    · change Explains _ x.log _
      rw [empty]
      exact .nil _
    · rcases post with ⟨failed, -⟩ | ⟨status, -, -, -, ready⟩
      · exact absurd (failed.symm.trans (runs run)) (by rintro ⟨⟩)
      · exact ready.rearm torn
    · exact crash.imp (fun good torn ↦ good.rearm torn) fun unused ↦ ⟨fun _ ↦ unused, empty⟩
    · intro whole
      rcases post with ⟨-, interrupted⟩ | ⟨status, returned, -, rfl, -⟩
      · exact absurd whole interrupted
      · exact beq_iff_eq.2 returned

/-- A step that serves a request. -/
theorem step_request {x : Machine n} (run : x.running = true) (r : Request) (torn : Cell n → Record)
    (cut : Option ℕ) :
    step cfg x (.request r torn cut) =
      some ⟨(execute (serve cfg r) ⟨x.area, torn⟩ cut).2.area,
        (execute (serve cfg r) ⟨x.area, torn⟩ cut).1.isSome,
        (r.event (execute (serve cfg r) ⟨x.area, torn⟩ cut).1).toList ++ x.log⟩ := if_pos run

/-- A request changes the values as its event says. -/
theorem Machine.Inv.request {x y : Machine n} {values : Fin n → Word} (inv : x.Inv cfg values)
    {r : Request} {torn : Cell n → Record} {cut : Option ℕ}
    (detected : (Action.request r torn cut).Detected cfg)
    (step_eq : step cfg x (.request r torn cut) = some y) : ∃ values', y.Inv cfg values' := by
  have run : x.running = true := by
    rw [Rram.step] at step_eq
    split at step_eq
    · next run => exact run
    · cases step_eq
  rw [step_request run] at step_eq
  obtain rfl := Option.some.inj step_eq
  have explains {event : Option (Event (Fin n) Word)} {values' : Fin n → Word}
      (after : After values event values') : Explains (· + 1) (event.toList ++ x.log) values' := by
    cases event with
    | none =>
        cases after
        exact inv.explained
    | some event => exact .cons inv.explained after
  obtain ⟨⟨values₁, after₁, good⟩, post⟩ :=
    execute_spec (spec_request (w := ⟨x.area, torn⟩) (detected torn rfl) (inv.ready run torn) r)
      (total_request r) cut
  rcases post with ⟨interrupted, -⟩ | ⟨result, returned, -, values', after, ready⟩
  · refine ⟨values₁, ?_, fun running ↦ ?_, .inl fun torn ↦ good.rearm torn⟩
    · dsimp only
      rw [interrupted]
      exact explains after₁
    · dsimp only at running
      rw [interrupted] at running
      cases running
  · refine ⟨values', ?_, fun _ torn ↦ ready.rearm torn, .inl fun torn ↦ ready.good.rearm torn⟩
    dsimp only
    rw [returned]
    exact explains after

/-- A step keeps the values, or changes them as its event says. -/
theorem Machine.Inv.step {x y : Machine n} {values : Fin n → Word} (inv : x.Inv cfg values)
    (fits : expectedAreaSize cfg n ≤ cfg.areaSize) {a : Action n} (detected : a.Detected cfg)
    (step_eq : step cfg x a = some y) : ∃ values', y.Inv cfg values' := by
  cases a with
  | boot torn cut => exact (inv.boot fits detected step_eq).1
  | request r torn cut => exact inv.request detected step_eq
  | powerOff =>
      cases step_eq
      exact ⟨values, inv.explained, by rintro ⟨⟩, inv.good⟩

/-- The counters survive power loss. -/
structure Machine.Durable (cfg : Config) (x : Machine n) : Prop where
  /-- The values that are read from a counter never decrease. -/
  reads : ∀ later between earlier i value value',
    x.log = later ++ .read i value' :: (between ++ .read i value :: earlier) → value ≤ value'
  /-- A counter never reads as less than it has been set to. -/
  sets : ∀ later between earlier i value value',
    x.log = later ++ .read i value' :: (between ++ .set i value .done :: earlier) → value ≤ value'
  /-- Counters explain what has happened: a change is made, or it is interrupted and made or not
  made, and it changes no other counter.  A running system reads their values and raises them. -/
  explained : ∃ values, Explains (· + 1) x.log values ∧
    (x.running = true → ∀ (i : Fin n) torn, Detected cfg torn →
      (∃ y, Rram.step cfg x (.request (.read i 4) torn none) = some y ∧
        y.log = .read i (values i) :: x.log) ∧
      ∀ value, values i ≤ value →
        ∃ y, Rram.step cfg x (.request (.set i value) torn none) = some y ∧
          y.log = .set i value .done :: x.log)
  /-- Every boot that is not interrupted succeeds. -/
  boots : ∀ torn, Detected cfg torn →
    ∃ y, Rram.step cfg x (.boot torn none) = some y ∧ y.running = true

/-- A running system reads the value of a counter. -/
theorem Machine.Inv.reads {x : Machine n} {values : Fin n → Word} (inv : x.Inv cfg values)
    (run : x.running = true) (i : Fin n) (torn : Cell n → Record) :
    ∃ y, Rram.step cfg x (.request (.read i 4) torn none) = some y ∧
      y.log = .read i (values i) :: x.log := by
  have main := (inv.ready run torn).main i
  have spec : Spec Op.handle (fun _ ↦ True) (serve cfg (.read i 4))
      (fun result _ _ ↦ result = (.success, values i)) () ⟨x.area, torn⟩ := by
    rw [serve, tfmPlatReadNvCounter, if_neg (by decide)]
    refine spec_read trivial (fun _ ↦ ?_) fun invalid ↦ absurd main.valid invalid
    exact congrArg (PlatErr.success, ·) main.value_eq
  refine ⟨_, step_request run _ _ _, ?_⟩
  rcases (execute_spec spec (total_request _) none).2 with
    ⟨-, interrupted⟩ | ⟨result, returned, -, eq⟩
  · exact absurd rfl interrupted
  · dsimp only
    rw [returned, eq, Request.event, dif_pos i.isLt]
    rfl

/-- A running system sets a counter to a value that is not lower. -/
theorem Machine.Inv.sets {x : Machine n} {values : Fin n → Word} (inv : x.Inv cfg values)
    (run : x.running = true) (i : Fin n) {torn : Cell n → Record} (detected : Detected cfg torn)
    {value : Word} (raised : values i ≤ value) :
    ∃ y, Rram.step cfg x (.request (.set i value) torn none) = some y ∧
      y.log = .set i value .done :: x.log := by
  have spec : Spec Op.handle (fun _ ↦ True) (serve cfg (.set i value))
      (fun result _ _ ↦ result = (.success, 0)) () ⟨x.area, torn⟩ := by
    rw [serve, spec_bind]
    refine Prog.Spec.mono (spec_set (w := ⟨x.area, torn⟩) detected (inv.ready run torn) i value)
      (fun _ _ ↦ trivial) fun result _ _ post ↦ ⟨trivial, ?_⟩
    rcases post with ⟨-, lower, -⟩ | ⟨status, -⟩
    · exact absurd raised (BitVec.not_le.2 lower)
    · exact congrArg (·, (0 : Word)) status
  refine ⟨_, step_request run _ _ _, ?_⟩
  rcases (execute_spec spec (total_request _) none).2 with
    ⟨-, interrupted⟩ | ⟨result, returned, -, eq⟩
  · exact absurd rfl interrupted
  · dsimp only
    rw [returned, eq, Request.event, dif_pos i.isLt]
    rfl

/-- In every run from an area whose flag is not set, with power losses anywhere. -/
theorem durable (cfg : Config) (area : Cell n → Record)
    (fits : expectedAreaSize cfg n ≤ cfg.areaSize)
    (new : (area .flag).value ≠ ifxNvmInitDoneFlag) (x : Machine n)
    (reaches : Run.Reaches (step cfg) (fun _ a ↦ a.Detected cfg) ⟨area, false, []⟩ x) :
    x.Durable cfg := by
  obtain ⟨values, inv⟩ : ∃ values, x.Inv cfg values := by
    refine reaches.invariant (I := fun x ↦ ∃ values, x.Inv cfg values)
      ⟨fun _ ↦ 0, .nil _, by rintro ⟨⟩, .inr ⟨fun _ ↦ new, rfl⟩⟩ ?_
    rintro before a after ⟨values, inv⟩ detected step_eq
    exact inv.step fits detected step_eq
  constructor
  case reads =>
    intro later between earlier i value value' log
    exact (log ▸ inv.explained).read_le
  case sets =>
    intro later between earlier i value value' log
    exact (log ▸ inv.explained).set_le
  case explained =>
    exact ⟨values, inv.explained, fun run i torn detected ↦
      ⟨inv.reads run i torn, fun value raised ↦ inv.sets run i detected raised⟩⟩
  case boots =>
    intro torn detected
    have torn_detected : (Action.boot torn none).Detected cfg := by
      rintro _ ⟨⟩
      exact detected
    exact ⟨_, rfl, (inv.boot fits torn_detected rfl).2 rfl⟩

/-- A platform with one counter. -/
def sampleConfig : Config := ⟨16, 32, fun value address ↦ value + address + 1⟩

/-- A torn record. -/
def sampleTorn : Cell 1 → Record := fun _ ↦ ⟨0, 0⟩

/-- The first boot is interrupted, and then so is a request. -/
def sampleRun : List (Action 1) :=
  [.boot sampleTorn (some 3), .boot sampleTorn none, .request (.set 0 5) sampleTorn none,
    .request (.increment 0) sampleTorn (some 4), .boot sampleTorn none,
    .request (.read 0 4) sampleTorn none]

theorem detected_sampleTorn : Detected sampleConfig sampleTorn := by
  rw [Detected]
  decide

/-- The interrupted increment has been made. -/
theorem durable_sampleRun :
    ∃ x, Run.exec (step sampleConfig) ⟨sampleTorn, false, []⟩ sampleRun = some x ∧
      x.log.head? = some (.read 0 6) ∧ x.Durable sampleConfig := by
  have runs : (Run.exec (step sampleConfig) ⟨sampleTorn, false, []⟩ sampleRun).any
      (fun x ↦ x.log.head? = some (.read 0 6)) = true := by
    decide +kernel
  obtain ⟨x, run, read⟩ := (Option.any_eq_true ..).1 runs
  refine ⟨x, run, of_decide_eq_true read, durable sampleConfig sampleTorn (by decide) (by decide) x
    (Run.exec_reaches run ?_)⟩
  have detected (a : Action 1) (torn : ∀ t, a.torn = some t → t = sampleTorn) :
      a.Detected sampleConfig := fun t eq ↦ torn t eq ▸ detected_sampleTorn
  refine ⟨detected _ ?_,
    fun _ _ ↦ ⟨detected _ ?_, fun _ _ ↦ ⟨detected _ ?_, fun _ _ ↦ ⟨detected _ ?_,
    fun _ _ ↦ ⟨detected _ ?_, fun _ _ ↦ ⟨detected _ ?_, fun _ _ ↦ trivial⟩⟩⟩⟩⟩⟩
  all_goals
    rintro _ ⟨⟩
    rfl

end TrustedFirmwareM.NvCounters.Rram
