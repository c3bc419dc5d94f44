import TrustedFirmwareM.NvCounters.Flash

/-!
# Counters in flash, power loss and driver errors

The counters hold the values of the main record, or of the backup while the main record is not
valid.  A boot recovers them, and so does every request that finds the main record valid.
-/

namespace TrustedFirmwareM.NvCounters.Flash

open Program Counters

variable {n : ℕ} {cfg : Config n}

/-- The record of a sector is valid. -/
def Area.Valid (cfg : Config n) (area : Area n) (sector : Sector) : Prop :=
  ifxFlashCountersValid cfg (area sector) = true

/-- The main record holds values. -/
structure Area.Main (cfg : Config n) (area : Area n) (values : Fin n → Word) : Prop where
  /-- The main record is valid. -/
  valid : area.Valid cfg .main
  /-- The main record has the values. -/
  counters : (area .main).counters = values

/-- The backup holds values, and the main record is not valid. -/
structure Area.Pending (cfg : Config n) (area : Area n) (values : Fin n → Word) : Prop where
  /-- The main record is not valid. -/
  main : ¬area.Valid cfg .main
  /-- The backup is valid. -/
  valid : area.Valid cfg .backup
  /-- The backup has the values. -/
  counters : (area .backup).counters = values

/-- The area holds values. -/
def Area.Holds (cfg : Config n) (area : Area n) (values : Fin n → Word) : Prop :=
  area.Main cfg values ∨ area.Pending cfg values

/-- Neither record is valid. -/
structure Area.Blank (cfg : Config n) (area : Area n) : Prop where
  /-- The main record is not valid. -/
  main : ¬area.Valid cfg .main
  /-- The backup is not valid. -/
  backup : ¬area.Valid cfg .backup

theorem Area.Holds.main_of_valid {area : Area n} {values : Fin n → Word}
    (holds : area.Holds cfg values) (valid : area.Valid cfg .main) : area.Main cfg values := by
  rcases holds with main | pending
  · exact main
  · exact absurd valid pending.main

/-- The records that torn and erased sectors hold have no valid checksum. -/
structure Detected (cfg : Config n) (torn : Area n) : Prop where
  /-- A torn sector is detected. -/
  torn : ∀ sector, ifxFlashCountersValid cfg (torn sector) ≠ true
  /-- An erased sector is detected. -/
  erased : ifxFlashCountersValid cfg cfg.erased ≠ true

/-- A call has changed a sector, as far as it has come. -/
structure World.Changed (w : World n) (sector : Sector) (record : Record n)
    (w' : World n) : Prop where
  /-- The other sector is as before. -/
  others : ∀ other, other ≠ sector → w'.area other = w.area other
  /-- The sector is as before, torn or changed. -/
  here : w'.area sector = w.area sector ∨ w'.area sector = w.torn sector ∨ w'.area sector = record
  /-- Nothing has changed about torn sectors. -/
  torn : w'.torn = w.torn
  /-- Nothing has changed about errors. -/
  fault : w'.fault = w.fault

section

variable {w w' : World n} {sector other : Sector} {record : Record n}

theorem World.area_put_self : (w.put sector record).area sector = record := Function.update_self ..

theorem World.area_put_of_ne (ne : other ≠ sector) :
    (w.put sector record).area other = w.area other := Function.update_of_ne ne ..

/-- A call that changes a sector has begun. -/
theorem World.changed_tear : w.Changed sector record (w.tear sector) := by
  rw [World.tear]
  split
  · exact ⟨fun _ _ ↦ rfl, .inl rfl, rfl, rfl⟩
  · exact ⟨fun _ ne ↦ World.area_put_of_ne ne, .inr (.inl World.area_put_self), rfl, rfl⟩

/-- A call can fail. -/
theorem World.fault_ne_none {fault : Fault} (fails : w.next = some fault) : w.fault ≠ none := by
  intro none
  rw [World.next, none] at fails
  cases fails

/-- A call that changes a sector has ended. -/
theorem World.Changed.finish (begun : w.Changed sector record w') :
    w.Changed sector record (w'.finish sector record).2 ∧
      ((w'.finish sector record).1 = true → (w'.finish sector record).2.area sector = record) ∧
      ((w'.finish sector record).1 = false → w.fault ≠ none) := by
  have put : w.Changed sector record (w'.put sector record).tick :=
    ⟨fun other ne ↦ (World.area_put_of_ne ne).trans (begun.others other ne),
      .inr (.inr World.area_put_self), begun.torn, begun.fault⟩
  rw [World.finish, ← begun.fault]
  split
  · exact ⟨put, fun _ ↦ World.area_put_self, by rintro ⟨⟩⟩
  · next fails => exact ⟨put, by rintro ⟨⟩, fun _ ↦ World.fault_ne_none fails⟩
  · next fails =>
      exact ⟨⟨begun.others, begun.here, begun.torn, begun.fault⟩, by rintro ⟨⟩,
        fun _ ↦ World.fault_ne_none fails⟩

end

/-- A sector is as before, or not valid, or it holds the record. -/
theorem World.Changed.valid {w w' : World n} {sector : Sector} {record : Record n}
    (changed : w.Changed sector record w') (detected : Detected cfg w.torn) :
    w'.area sector = w.area sector ∨ ¬w'.area.Valid cfg sector ∨ w'.area sector = record := by
  rcases changed.here with same | torn | done
  · exact .inl same
  · refine .inr (.inl ?_)
    rw [Area.Valid, torn]
    exact detected.torn sector
  · exact .inr (.inr done)

/-- A sector that is not valid is not valid before the record is there. -/
theorem World.Changed.invalid {w w' : World n} {sector : Sector} {record : Record n}
    (changed : w.Changed sector record w') (detected : Detected cfg w.torn)
    (invalid : ¬w.area.Valid cfg sector) :
    ¬w'.area.Valid cfg sector ∨ w'.area sector = record := by
  rcases changed.valid detected with same | still | done
  · refine .inl ?_
    rwa [Area.Valid, same]
  · exact .inl still
  · exact .inr done

/-- Erasing a sector makes no sector valid. -/
theorem World.Changed.erased {w w' : World n} {sector : Sector}
    (changed : w.Changed sector cfg.erased w') (detected : Detected cfg w.torn)
    (invalid : ¬w.area.Valid cfg sector) : ¬w'.area.Valid cfg sector := by
  rcases changed.invalid detected invalid with still | done
  · exact still
  · rw [Area.Valid, done]
    exact detected.erased

theorem World.Changed.detected {w w' : World n} {sector : Sector} {record : Record n}
    (changed : w.Changed sector record w') (detected : Detected cfg w.torn) :
    Detected cfg w'.torn := changed.torn ▸ detected

theorem World.Changed.backup_eq {w w' : World n} {record : Record n}
    (changed : w.Changed .main record w') : w'.area .backup = w.area .backup :=
  changed.others _ (by rintro ⟨⟩)

theorem World.Changed.main_eq {w w' : World n} {record : Record n}
    (changed : w.Changed .backup record w') : w'.area .main = w.area .main :=
  changed.others _ (by rintro ⟨⟩)

/-- The main record outlives a change of the backup. -/
theorem World.Changed.main {w w' : World n} {record : Record n} {values : Fin n → Word}
    (changed : w.Changed .backup record w') (main : w.area.Main cfg values) :
    w'.area.Main cfg values := by
  refine ⟨?_, ?_⟩
  · rw [Area.Valid, changed.main_eq]
    exact main.valid
  · rw [changed.main_eq, main.counters]

/-- The backup outlives a change of the main record. -/
theorem World.Changed.pending {w w' : World n} {record : Record n} {values : Fin n → Word}
    (changed : w.Changed .main record w') (invalid : ¬w'.area.Valid cfg .main)
    (valid : w.area.Valid cfg .backup) (counters : (w.area .backup).counters = values) :
    w'.area.Pending cfg values := by
  refine ⟨invalid, ?_, ?_⟩
  · rw [Area.Valid, changed.backup_eq]
    exact valid
  · rw [changed.backup_eq, counters]

/-- A record with a checksum that has just been set. -/
theorem valid_setChecksum {record : Record n}
    (watermark : record.initValue = ifxNvCountersInitialized) :
    ifxFlashCountersValid cfg (ifxFlashCounterSetChecksum cfg record) = true := by
  rw [ifxFlashCountersValid, Bool.and_eq_true]
  exact ⟨beq_iff_eq.2 watermark, beq_self_eq_true _⟩

theorem initValue_of_valid {record : Record n} (valid : ifxFlashCountersValid cfg record = true) :
    record.initValue = ifxNvCountersInitialized :=
  eq_of_beq (Bool.and_eq_true_iff.1 valid).1

/-! ## Specifications -/

section

variable {I : Area n → Prop} {w : World n} {v : Unit}

/-- The result of a call that changes a sector. -/
theorem World.finish_post {Q : Bool → Unit → World n → Prop} {sector : Sector} {record : Record n}
    (failed : ∀ w', w.Changed sector record w' → w.fault ≠ none → Q false v w')
    (done : ∀ w', w.Changed sector record w' → w'.area sector = record → Q true v w') :
    Q ((w.tear sector).finish sector record).1 v ((w.tear sector).finish sector record).2 := by
  have begun : w.Changed sector record (w.tear sector) := World.changed_tear
  obtain ⟨changed, reached, faulty⟩ := begun.finish
  cases result : ((w.tear sector).finish sector record).1 with
  | false => exact failed _ changed (faulty result)
  | true => exact done _ changed (reached result)

/-- A sector is erased, or the call fails. -/
theorem spec_eraseSector {Q : Bool → Unit → World n → Prop} {sector : Sector} (here : I w.area)
    (crash : ∀ w', w.Changed sector cfg.erased w' → I w'.area)
    (failed : ∀ w', w.Changed sector cfg.erased w' → w.fault ≠ none → Q false v w')
    (done : ∀ w', w.Changed sector cfg.erased w' → w'.area sector = cfg.erased → Q true v w') :
    Spec (Op.handle cfg) (fun w ↦ I w.area) (eraseSector sector) Q v w := by
  have begun : w.Changed sector cfg.erased (w.tear sector) := World.changed_tear
  rw [eraseSector, spec_bind]
  exact ⟨here, crash _ begun, crash _ begun, crash _ begun.finish.1, World.finish_post failed done⟩

/-- A sector is programmed, or the call fails. -/
theorem spec_programData {Q : Bool → Unit → World n → Prop} {sector : Sector} {record : Record n}
    (here : I w.area) (crash : ∀ w', w.Changed sector record w' → I w'.area)
    (failed : ∀ w', w.Changed sector record w' → w.fault ≠ none → Q false v w')
    (done : ∀ w', w.Changed sector record w' → w'.area sector = record → Q true v w') :
    Spec (Op.handle cfg) (fun w ↦ I w.area) (programData sector record) Q v w := by
  have begun : w.Changed sector record (w.tear sector) := World.changed_tear
  rw [programData, spec_bind]
  exact ⟨here, crash _ begun, crash _ begun, crash _ begun.finish.1, World.finish_post failed done⟩

/-- A call that changes nothing. -/
theorem World.next_cases {Q : Bool → Prop} (failed : w.fault ≠ none → Q false) (done : Q true) :
    Q w.next.isNone := by
  cases next : w.next with
  | none => exact done
  | some fault => exact failed (World.fault_ne_none next)

/-- A record is read, or the call fails. -/
theorem spec_readData {Q : Option (Record n) → Unit → World n → Prop} {sector : Sector}
    (here : I w.area) (failed : w.fault ≠ none → Q none v w.tick)
    (done : Q (some (w.area sector)) v w.tick) :
    Spec (Op.handle cfg) (fun w ↦ I w.area) (readData sector) Q v w :=
  ⟨here, here, World.next_cases (Q := fun ready ↦
    Q (if ready then some (w.area sector) else none) v w.tick) failed done⟩

/-- A counter is read, or the call fails. -/
theorem spec_readCounter {Q : Option Word → Unit → World n → Prop} {i : Fin n} (here : I w.area)
    (failed : w.fault ≠ none → Q none v w.tick)
    (done : Q (some ((w.area .main).counters i)) v w.tick) :
    Spec (Op.handle cfg) (fun w ↦ I w.area) (call (.readCounter i)) Q v w :=
  ⟨here, here, World.next_cases (Q := fun ready ↦
    Q (if ready then some ((w.area .main).counters i) else none) v w.tick) failed done⟩

/-- The driver is started, or the call fails. -/
theorem spec_start {Q : Bool → Unit → World n → Prop} (here : I w.area)
    (failed : w.fault ≠ none → Q false v w.tick) (done : Q true v w.tick) :
    Spec (Op.handle cfg) (fun w ↦ I w.area) (call .init) Q v w :=
  ⟨here, here, World.next_cases (Q := fun ready ↦ Q ready v w.tick) failed done⟩

/-- The main record is written.  It is not valid before. -/
theorem spec_programMain {record : Record n} {values : Fin n → Word}
    (detected : Detected cfg w.torn)
    (blank : ¬w.area.Valid cfg .main) (valid : ifxFlashCountersValid cfg record = true)
    (counters : record.counters = values) (main : ∀ area : Area n, area.Main cfg values → I area)
    (before : ∀ area : Area n, ¬area.Valid cfg .main → area .backup = w.area .backup → I area) :
    Spec (Op.handle cfg) (fun w ↦ I w.area) (programMain record)
      (fun status _ w' ↦ status = .success ∧ w'.area.Main cfg values ∨
        status = .systemErr ∧ w.fault ≠ none ∧ I w'.area) v w := by
  have reached (area : Area n) (eq : area .main = record) : area.Main cfg values := by
    refine ⟨?_, ?_⟩
    · rwa [Area.Valid, eq]
    · rw [eq, counters]
  have crash (w' : World n) (changed : w.Changed .main record w') : I w'.area := by
    rcases changed.invalid detected blank with invalid | done
    · exact before _ invalid changed.backup_eq
    · exact main _ (reached _ done)
  rw [programMain, spec_bind]
  refine spec_programData (before _ blank rfl) crash
    (fun w' changed faulty ↦ ?_) fun w' changed done ↦ ?_
  · exact ⟨crash w' changed, .inr ⟨rfl, faulty, crash w' changed⟩⟩
  · exact ⟨crash w' changed, .inl ⟨rfl, reached _ done⟩⟩

/-- `tfm_plat_init_nv_counter` recovers the counters. -/
theorem spec_init {values : Fin n → Word} (detected : Detected cfg w.torn)
    (holds : w.area.Holds cfg values) :
    Spec (Op.handle cfg) (fun w ↦ w.area.Holds cfg values) (tfmPlatInitNvCounter cfg)
      (fun status _ w' ↦ status = .success ∧ w'.area.Main cfg values ∨
        status = .systemErr ∧ w.fault ≠ none ∧ w'.area.Holds cfg values) v w := by
  rw [tfmPlatInitNvCounter, spec_bind]
  refine spec_start (I := fun area ↦ area.Holds cfg values) holds
    (fun faulty ↦ ⟨holds, .inr ⟨rfl, faulty, holds⟩⟩) ?_
  rw [if_neg (by decide), spec_bind]
  refine spec_readData (I := fun area ↦ area.Holds cfg values) holds
    (fun faulty ↦ ⟨holds, .inr ⟨rfl, faulty, holds⟩⟩) ?_
  dsimp only [World.tick]
  split
  · next valid => exact ⟨holds, .inl ⟨rfl, holds.main_of_valid valid⟩⟩
  next invalid =>
  have pending : w.area.Pending cfg values := holds.resolve_left fun main ↦ invalid main.valid
  rw [spec_bind]
  refine spec_readData (I := fun area ↦ area.Holds cfg values) holds
    (fun faulty ↦ ⟨holds, .inr ⟨rfl, faulty, holds⟩⟩) ?_
  have crash (w' : World n) (changed : World.Changed ⟨w.area, w.torn, w.calls + 1 + 1 + 1, w.fault⟩
      .main cfg.erased w') : w'.area.Pending cfg values :=
    changed.pending (changed.erased detected invalid) pending.valid pending.counters
  dsimp only [World.tick]
  rw [spec_bind]
  refine spec_eraseSector (I := fun area ↦ area.Holds cfg values) holds
    (fun w' changed ↦ .inr (crash w' changed))
    (fun w' changed faulty ↦ ⟨.inr (crash w' changed), .inr ⟨rfl, faulty, .inr (crash w' changed)⟩⟩)
    fun w' changed _ ↦ ?_
  have valid : ifxFlashCountersValid cfg (w.area .backup) = true := pending.valid
  rw [if_neg (by decide), if_neg (not_not.2 (initValue_of_valid valid)), valid, if_neg (by decide)]
  refine (spec_programMain (I := fun area ↦ area.Holds cfg values) (changed.detected detected)
    (crash w' changed).main valid pending.counters
      (fun _ ↦ .inl) fun area blank same ↦ .inr ?_).mono
    fun status _ w'' _ post ↦ ?_
  · rw [changed.backup_eq] at same
    refine ⟨blank, ?_, ?_⟩
    · rwa [Area.Valid, same]
    · rw [same]
      exact pending.counters
  · rwa [changed.fault] at post

/-- `tfm_plat_init_nv_counter` initialises the counters. -/
theorem spec_init_new (detected : Detected cfg w.torn) (blank : w.area.Blank cfg) :
    Spec (Op.handle cfg) (fun w ↦ w.area.Holds cfg (fun _ ↦ 0) ∨ w.area.Blank cfg)
      (tfmPlatInitNvCounter cfg)
      (fun status _ w' ↦ status = .success ∧ w'.area.Main cfg (fun _ ↦ 0) ∨
        status = .systemErr ∧ (w'.area.Holds cfg (fun _ ↦ 0) ∨ w'.area.Blank cfg)) v w := by
  rw [tfmPlatInitNvCounter, spec_bind]
  refine spec_start (I := fun area ↦ area.Holds cfg (fun _ ↦ 0) ∨ area.Blank cfg) (.inr blank)
    (fun _ ↦ ⟨.inr blank, .inr ⟨rfl, .inr blank⟩⟩) ?_
  rw [if_neg (by decide), spec_bind]
  refine spec_readData (I := fun area ↦ area.Holds cfg (fun _ ↦ 0) ∨ area.Blank cfg) (.inr blank)
    (fun _ ↦ ⟨.inr blank, .inr ⟨rfl, .inr blank⟩⟩) ?_
  dsimp only [World.tick]
  rw [show ifxFlashCountersValid cfg (w.area .main) = false from Bool.eq_false_iff.2 blank.main,
    if_neg (by decide), spec_bind]
  refine spec_readData (I := fun area ↦ area.Holds cfg (fun _ ↦ 0) ∨ area.Blank cfg) (.inr blank)
    (fun _ ↦ ⟨.inr blank, .inr ⟨rfl, .inr blank⟩⟩) ?_
  have crash (w' : World n) (changed : World.Changed ⟨w.area, w.torn, w.calls + 1 + 1 + 1, w.fault⟩
      .main cfg.erased w') : w'.area.Blank cfg := by
    refine ⟨changed.erased detected blank.main, ?_⟩
    rw [Area.Valid, changed.backup_eq]
    exact blank.backup
  dsimp only [World.tick]
  rw [spec_bind]
  refine spec_eraseSector (I := fun area ↦ area.Holds cfg (fun _ ↦ 0) ∨ area.Blank cfg) (.inr blank)
    (fun w' changed ↦ .inr (crash w' changed))
    (fun w' changed _ ↦ ⟨.inr (crash w' changed), .inr ⟨rfl, .inr (crash w' changed)⟩⟩)
    fun w' changed _ ↦ ?_
  rw [if_neg (by decide)]
  split
  · refine (spec_programMain (I := fun area ↦ area.Holds cfg (fun _ ↦ 0) ∨ area.Blank cfg)
      (changed.detected detected) (crash w' changed).main (valid_setChecksum (by rfl)) (by rfl)
      (fun area (main : area.Main cfg fun _ ↦ 0) ↦ .inl (.inl main)) fun area invalid same ↦
        .inr ⟨invalid, ?_⟩).mono
      fun _ _ _ _ post ↦ post.imp_right fun failed ↦ ⟨failed.1, failed.2.2⟩
    rw [Area.Valid, same]
    exact (crash w' changed).backup
  · rw [show ifxFlashCountersValid cfg (w.area .backup) =
      false from Bool.eq_false_iff.2 blank.backup,
      if_pos (by decide)]
    exact ⟨.inr (crash w' changed), .inr ⟨rfl, .inr (crash w' changed)⟩⟩

/-- What a counter may hold after a change that has failed. -/
def Area.Either (cfg : Config n) (area : Area n) (values : Fin n → Word) (i : Fin n)
    (value : Word) :
    Prop :=
  area.Holds cfg values ∨ values i ≤ value ∧ area.Holds cfg (Function.update values i value)

/-- `tfm_plat_set_nv_counter` of a valid record. -/
theorem spec_set {values : Fin n → Word} (detected : Detected cfg w.torn)
    (main : w.area.Main cfg values) (i : Fin n) (value : Word) :
    Spec (Op.handle cfg) (fun w ↦ w.area.Either cfg values i value)
      (tfmPlatSetNvCounter cfg i value)
      (fun status _ w' ↦
        status = .success ∧ values i ≤ value ∧ w'.area.Main cfg (Function.update values i value) ∨
        status = .invalidInput ∧ w'.area.Main cfg values ∨
        status = .systemErr ∧ w'.area.Either cfg values i value) v w := by
  have old {w' : World n} (main : w'.area.Main cfg values) : w'.area.Either cfg values i value :=
    .inl (.inl main)
  rw [tfmPlatSetNvCounter, dif_pos i.isLt, spec_bind]
  refine spec_readData (I := fun area ↦ area.Either cfg values i value) (old main)
    (fun _ ↦ ⟨old main, .inr (.inr ⟨rfl, old main⟩)⟩) ?_
  dsimp only [World.tick]
  rw [main.counters]
  split
  · next same =>
      refine ⟨old main, .inl ⟨rfl, ?_, ?_⟩⟩
      · rw [same]
        exact BitVec.le_refl _
      · rwa [same, Function.update_eq_self]
  split
  · exact ⟨old main, .inr (.inl ⟨rfl, main⟩)⟩
  next not_lower =>
  have raised : values i ≤ value := BitVec.not_lt.1 not_lower
  have new {area : Area n} (pending : area.Pending cfg (Function.update values i value)) :
      area.Either cfg values i value := .inr ⟨raised, .inr pending⟩
  rw [spec_bind]
  refine spec_eraseSector (I := fun area ↦ area.Either cfg values i value) (old main)
    (fun w' changed ↦ old (changed.main main))
    (fun w' changed _ ↦ ⟨old (changed.main main), .inr (.inr ⟨rfl, old (changed.main main)⟩)⟩)
    fun w₁ changed₁ _ ↦ ?_
  have main₁ := changed₁.main main
  rw [if_neg (by decide), spec_bind]
  refine spec_programData (I := fun area ↦ area.Either cfg values i value) (old main₁)
    (fun w' changed ↦ old (changed.main main₁))
    (fun w' changed _ ↦ ⟨old (changed.main main₁), .inr (.inr ⟨rfl, old (changed.main main₁)⟩)⟩)
    fun w₂ changed₂ programmed ↦ ?_
  have main₂ := changed₂.main main₁
  have valid : ifxFlashCountersValid cfg (w₂.area .backup) = true := by
    have watermark : (w.area .main).initValue = ifxNvCountersInitialized :=
      initValue_of_valid main.valid
    rw [programmed]
    exact valid_setChecksum watermark
  have counters : (w₂.area .backup).counters = Function.update values i value :=
    congrArg Record.counters programmed
  have crash (w' : World n) (changed : w₂.Changed .main cfg.erased w') :
      w'.area.Either cfg values i value := by
    rcases changed.valid
      (changed₂.detected (changed₁.detected detected)) with same | invalid | erased
    · refine old ⟨?_, ?_⟩
      · rw [Area.Valid, same]
        exact main₂.valid
      · rw [same, main₂.counters]
    · exact new (changed.pending invalid valid counters)
    · refine new (changed.pending ?_ valid counters)
      rw [Area.Valid, erased]
      exact detected.erased
  rw [if_neg (by decide), spec_bind]
  refine spec_eraseSector (I := fun area ↦ area.Either cfg values i value) (old main₂) crash
    (fun w' changed _ ↦ ⟨crash w' changed, .inr (.inr ⟨rfl, crash w' changed⟩)⟩)
    fun w₃ changed₃ erased ↦ ?_
  have invalid : ¬w₃.area.Valid cfg .main := by
    rw [Area.Valid, erased]
    exact detected.erased
  rw [if_neg (by decide)]
  have detected₃ := changed₃.detected (changed₂.detected (changed₁.detected detected))
  refine (spec_programMain (I := fun area ↦ area.Either cfg values i value) detected₃ invalid
    (programmed ▸ valid) (programmed ▸ counters) (fun _ main ↦ .inr ⟨raised, .inl main⟩)
    fun area blank same ↦ new ⟨blank, ?_, ?_⟩).mono fun status _ w' _ post ↦ ?_
  · rw [Area.Valid, same, changed₃.backup_eq]
    exact valid
  · rw [same, changed₃.backup_eq, counters]
  · exact post.imp (fun done ↦ ⟨done.1, raised, done.2⟩) fun failed ↦ .inr ⟨failed.1, failed.2.2⟩

/-- `tfm_plat_increment_nv_counter` of a valid record. -/
theorem spec_increment {values : Fin n → Word} (detected : Detected cfg w.torn)
    (main : w.area.Main cfg values) (i : Fin n) :
    Spec (Op.handle cfg) (fun w ↦ w.area.Either cfg values i (values i + 1))
      (tfmPlatIncrementNvCounter cfg i)
      (fun status _ w' ↦
        status = .success ∧ values i ≤ values i + 1 ∧
          w'.area.Main cfg (Function.update values i (values i + 1)) ∨
        (status = .invalidInput ∨ status = .maxValue) ∧ w'.area.Main cfg values ∨
        status = .systemErr ∧ w'.area.Either cfg values i (values i + 1)) v w := by
  have here : w.area.Either cfg values i (values i + 1) := .inl (.inl main)
  rw [tfmPlatIncrementNvCounter, tfmPlatReadNvCounter, dif_pos i.isLt,
    if_neg (by decide), spec_bind,
    spec_bind]
  refine spec_readCounter (I := fun area ↦ area.Either cfg values i (values i + 1)) here
    (fun _ ↦ ⟨here, here, .inr (.inr ⟨rfl, here⟩)⟩) ⟨here, ?_⟩
  dsimp only
  rw [if_neg (not_not.2 rfl), main.counters]
  split
  · exact ⟨here, .inr (.inl ⟨.inr rfl, main⟩)⟩
  · exact (spec_set (w := w.tick) detected main i (values i + 1)).mono fun _ _ _ _ post ↦
      post.imp_right (Or.imp_left fun refused ↦ ⟨.inl refused.1, refused.2⟩)

end

/-! ## Runs -/

/-- The function behind a request. -/
def serve (cfg : Config n) : Request → NvM n (PlatErr × Word)
  | .read counterId size => tfmPlatReadNvCounter counterId size
  | .set counterId value => do
      let status ← tfmPlatSetNvCounter cfg counterId value
      pure (status, 0)
  | .increment counterId => do
      let status ← tfmPlatIncrementNvCounter cfg counterId
      pure (status, 0)

/-- The system. -/
structure Machine (n : ℕ) where
  /-- The records of the area. -/
  area : Area n
  /-- `tfm_plat_init_nv_counter` has succeeded since the last reset. -/
  running : Bool
  /-- The driver has reported an error, or may have. -/
  failed : Bool
  /-- What has happened to the counters, latest first. -/
  log : List (Event (Fin n) Word)

/-- What happens to a function while it runs. -/
structure Chance (n : ℕ) where
  /-- What a sector holds while it is erased or programmed. -/
  torn : Area n
  /-- The number of operations after which power is lost. -/
  cut : Option ℕ
  /-- The call of the driver that fails. -/
  fault : Option (ℕ × Fault)

/-- What happens to the system. -/
inductive Action (n : ℕ)
  /-- The system is reset and boots. -/
  | boot (chance : Chance n)
  /-- A request is served. -/
  | request (r : Request) (chance : Chance n)
  /-- Power is lost between requests. -/
  | powerOff

/-- What happens to the function that an action runs. -/
def Action.chance : Action n → Option (Chance n)
  | .boot chance | .request _ chance => some chance
  | .powerOff => none

/-- Execute a function, or part of it. -/
def execute {α : Type} (cfg : Config n) (p : NvM n α) (area : Area n) (chance : Chance n) :
    Option α × World n :=
  match chance.cut with
  | none =>
      let (result, w) := (p ()).run (Op.handle cfg) ⟨area, chance.torn, 0, chance.fault⟩
      (result.map Prod.fst, w)
  | some k => (none, (p ()).cut (Op.handle cfg) k ⟨area, chance.torn, 0, chance.fault⟩)

/-- One step of the system. -/
def step (cfg : Config n) (x : Machine n) : Action n → Option (Machine n)
  | .boot chance =>
      let (status, w) := execute cfg (tfmPlatInitNvCounter cfg) x.area chance
      some ⟨w.area, status == some .success, x.failed || chance.fault.isSome, x.log⟩
  | .request r chance =>
      if x.running then
        let (result, w) := execute cfg (serve cfg r) x.area chance
        some ⟨w.area, result.isSome, x.failed || chance.fault.isSome,
          (r.event result).toList ++ x.log⟩
      else none
  | .powerOff => some { x with running := false }

/-- Torn and erased records are detected, and at most one call of the driver fails. -/
structure OneFailure (cfg : Config n) (x : Machine n) (a : Action n) : Prop where
  /-- Torn and erased records are detected. -/
  detected : ∀ chance, a.chance = some chance → Detected cfg chance.torn
  /-- No second call fails. -/
  fault : ∀ chance, a.chance = some chance → chance.fault.isSome = true → x.failed = false

/-- Torn and erased records are detected, and a request finds the main record valid. -/
structure MainValid (cfg : Config n) (x : Machine n) (a : Action n) : Prop where
  /-- Torn and erased records are detected. -/
  detected : ∀ chance, a.chance = some chance → Detected cfg chance.torn
  /-- The main record is valid. -/
  valid : ∀ r chance, a = .request r chance → x.area.Valid cfg .main

/-- The next read of a counter, without errors and power loss, gives a value. -/
def Machine.Reads (cfg : Config n) (x : Machine n) (i : Fin n) (value : Word) : Prop :=
  ∀ torn, ∃ y, step cfg x (.request (.read i 4) ⟨torn, none, none⟩) = some y ∧
    y.log = .read i value :: x.log

/-- The counters are monotone and durable. -/
structure Machine.Durable (cfg : Config n) (x : Machine n) : Prop where
  /-- The values that are read from a counter never decrease. -/
  reads : ∀ later between earlier i value value',
    x.log = later ++ .read i value' :: (between ++ .read i value :: earlier) → value ≤ value'
  /-- A counter never reads as less than it has been set to. -/
  sets : ∀ later between earlier i value value',
    x.log = later ++ .read i value' :: (between ++ .set i value .done :: earlier) → value ≤ value'
  /-- Counters explain what has happened: a change is made, or it fails or is interrupted and is
  made or not made, and it changes no other counter.  After a boot without errors and power loss
  their values are read. -/
  explained : ∃ values, Explains (· + 1) x.log values ∧
    (x.running = true → x.area.Valid cfg .main → ∀ i, x.Reads cfg i (values i)) ∧
    (x.log ≠ [] → ∀ torn, Detected cfg torn → ∃ y, step cfg x (.boot ⟨torn, none, none⟩) = some y ∧
      y.running = true ∧ y.area.Valid cfg .main ∧ ∀ i, y.Reads cfg i (values i))

/-! ## Functions return -/

theorem total_erase (sector : Sector) : Total (eraseSector sector : NvM n Bool) :=
  total_bind (Program.total_call _) fun _ ↦ Program.total_call _

theorem total_programMain (record : Record n) : Total (programMain record) :=
  total_bind (total_bind (Program.total_call _) fun _ ↦ Program.total_call _) fun _ ↦
    total_ite (total_pure _) (total_pure _)

theorem total_init : Total (tfmPlatInitNvCounter cfg) := by
  refine total_bind (Program.total_call _) fun _ ↦ total_ite (total_pure _) ?_
  refine total_bind (Program.total_call _) fun nvCounters ↦ ?_
  split
  · exact total_pure _
  refine total_ite (total_pure _) (total_bind (Program.total_call _) fun nvCounters ↦ ?_)
  split
  · exact total_pure _
  refine total_bind (total_erase _) fun _ ↦ total_ite (total_pure _) ?_
  exact total_ite (total_programMain _) (total_ite (total_pure _) (total_programMain _))

theorem total_read (counterId size : ℕ) :
    Total (tfmPlatReadNvCounter counterId size : NvM n (PlatErr × Word)) := by
  rw [tfmPlatReadNvCounter]
  split
  · refine total_ite (total_pure _) (total_bind (Program.total_call _) fun value ↦ ?_)
    split
    · exact total_pure _
    · exact total_pure _
  · exact total_pure _

theorem total_set (counterId : ℕ)
    (value : Word) : Total (tfmPlatSetNvCounter cfg counterId value) := by
  rw [tfmPlatSetNvCounter]
  split
  · refine total_bind (Program.total_call _) fun nvCounters ↦ ?_
    split
    · exact total_pure _
    refine total_ite (total_pure _) (total_ite (total_pure _) ?_)
    refine total_bind (total_erase _) fun _ ↦ total_ite (total_pure _) ?_
    refine total_bind (total_bind (Program.total_call _) fun _ ↦ Program.total_call _) fun _ ↦ ?_
    refine total_ite (total_pure _) (total_bind (total_erase _) fun _ ↦ ?_)
    exact total_ite (total_pure _) (total_programMain _)
  · exact total_pure _

theorem total_serve (r : Request) : Total (serve cfg r) := by
  cases r with
  | read counterId size => exact total_read _ _
  | set counterId value => exact total_bind (total_set _ _) fun _ ↦ total_pure _
  | increment counterId =>
      refine total_bind (total_bind (total_read _ _) fun _ ↦ ?_) fun _ ↦ total_pure _
      exact total_ite (total_pure _) (total_ite (total_pure _) (total_set _ _))

/-- What a specification says of an execution. -/
theorem execute_spec {α : Type} {p : NvM n α} {area : Area n} (chance : Chance n)
    {C : World n → Prop} {Q : α → Unit → World n → Prop}
    (spec : Spec (Op.handle cfg) C p Q () ⟨area, chance.torn, 0, chance.fault⟩) (total : Total p) :
    C (execute cfg p area chance).2 ∧
      ((execute cfg p area chance).1 = none ∧ chance.cut ≠ none ∨
        ∃ value, (execute cfg p area chance).1 = some value ∧ chance.cut = none ∧
          Q value () (execute cfg p area chance).2) := by
  rw [execute]
  split
  · next whole =>
      obtain ⟨⟨value, ⟨⟩⟩, run⟩ := Option.isSome_iff_exists.1 ((total ()).run (Op.handle cfg) _)
      obtain ⟨crash, post⟩ := spec.run
      refine ⟨crash, .inr ⟨value, ?_, whole, post _ run⟩⟩
      dsimp only
      rw [run, Option.map_some]
  · next k cut =>
      refine ⟨spec.cut k, .inl ⟨rfl, ?_⟩⟩
      rw [cut]
      rintro ⟨⟩

/-! ## Steps -/

/-- What the area holds, as an event says. -/
def Area.Told (cfg : Config n) (area : Area n) (values : Fin n → Word)
    (event : Option (Event (Fin n) Word)) : Prop :=
  ∃ values', After values event values' ∧ area.Holds cfg values'

/-- A change of a counter. -/
theorem spec_change {p : NvM n PlatErr} {w : World n} {values : Fin n → Word}
    {event : Outcome → Event (Fin n) Word} {i : Fin n} {value : Word}
    (change : ∀ outcome, (event outcome).change (· + 1) values = some (i, value, outcome))
    (spec : Spec (Op.handle cfg) (fun w ↦ w.area.Either cfg values i value) p
      (fun status _ w' ↦
        status = .success ∧ values i ≤ value ∧ w'.area.Main cfg (Function.update values i value) ∨
        (status = .invalidInput ∨ status = .maxValue) ∧ w'.area.Main cfg values ∨
        status = .systemErr ∧ w'.area.Either cfg values i value) () w) :
    Spec (Op.handle cfg) (fun w' ↦ w'.area.Told cfg values (some (event .unknown)))
      (p >>= fun status ↦ pure (status, (0 : Word)))
      (fun result _ w' ↦
        w'.area.Told cfg values (some (event (outcomeOf (some result.1))))) () w := by
  have unknown (w' : World n) (either : w'.area.Either cfg values i value) :
      w'.area.Told cfg values (some (event .unknown)) := by
    rcases either with holds | ⟨le, holds⟩
    · exact ⟨values, .kept (change _) (by decide), holds⟩
    · exact ⟨_, .made (change _) (by decide) le, holds⟩
  rw [spec_bind]
  refine Prog.Spec.mono spec unknown fun result w' either post ↦ ⟨unknown w' either, ?_⟩
  rcases post with ⟨status, le, main⟩ | ⟨status | status, main⟩ | ⟨status, -⟩
  · rw [status]
    exact ⟨_, .made (change _) (by decide) le, .inl main⟩
  · rw [status]
    exact ⟨values, .kept (change _) (by decide), .inl main⟩
  · rw [status]
    exact ⟨values, .kept (change _) (by decide), .inl main⟩
  · rw [status]
    exact unknown w' either

/-- A request that finds the main record valid changes the values as its event says. -/
theorem spec_serve {w : World n} {values : Fin n → Word} (detected : Detected cfg w.torn)
    (main : w.area.Main cfg values) (r : Request) :
    Spec (Op.handle cfg) (fun w' ↦ w'.area.Told cfg values (r.event none)) (serve cfg r)
      (fun result _ w' ↦ w'.area.Told cfg values (r.event (some result))) () w := by
  have same : w.area.Told cfg values none := ⟨values, rfl, .inl main⟩
  cases r with
  | read counterId size =>
      have here : w.area.Told cfg values ((Request.read counterId size).event none) := same
      rw [serve, tfmPlatReadNvCounter]
      split
      next inside =>
        split
        · exact ⟨here, same⟩
        · rw [spec_bind]
          refine spec_readCounter (I := fun area ↦ area.Told cfg values _) here
            (fun _ ↦ ⟨here, same⟩) ⟨here, values, ?_, .inl main⟩
          rw [Request.event, dif_pos inside, main.counters]
          exact .read _
      · exact ⟨here, same⟩
  | set counterId value =>
      by_cases inside : counterId < n
      · simp only [Request.event, dif_pos inside]
        exact spec_change (fun _ ↦ rfl) ((spec_set detected main ⟨counterId, inside⟩ value).mono
          fun _ _ _ _ post ↦ post.imp_right (Or.imp_left fun refused ↦ ⟨.inl refused.1, refused.2⟩))
      · simp only [Request.event, dif_neg inside]
        rw [serve, spec_bind, tfmPlatSetNvCounter, dif_neg inside]
        exact ⟨same, same, same⟩
  | increment counterId =>
      by_cases inside : counterId < n
      · simp only [Request.event, dif_pos inside]
        exact spec_change (fun _ ↦ rfl) (spec_increment detected main ⟨counterId, inside⟩)
      · simp only [Request.event, dif_neg inside]
        rw [serve, spec_bind, tfmPlatIncrementNvCounter, spec_bind, tfmPlatReadNvCounter,
          dif_neg inside]
        exact ⟨same, same, same, same⟩

/-- The area holds values that explain what has happened. -/
structure Machine.Inv (cfg : Config n) (x : Machine n) (values : Fin n → Word) : Prop where
  /-- What has happened. -/
  explained : Explains (· + 1) x.log values
  /-- The area holds the values, or nothing has happened. -/
  holds : x.area.Holds cfg values ∨ x.area.Blank cfg ∧ x.log = [] ∧ x.running = false

/-- A boot keeps the values. -/
theorem Machine.Inv.boot {x y : Machine n} {values : Fin n → Word} (inv : x.Inv cfg values)
    {chance : Chance n} (detected : Detected cfg chance.torn)
    (step_eq : step cfg x (.boot chance) = some y) : ∃ values', y.Inv cfg values' := by
  cases step_eq
  rcases inv.holds with holds | ⟨blank, empty, -⟩
  · obtain ⟨crash, -⟩ := execute_spec chance (spec_init detected holds) total_init
    exact ⟨values, inv.explained, .inl crash⟩
  · obtain ⟨crash, post⟩ := execute_spec chance (spec_init_new detected blank) total_init
    refine ⟨fun _ ↦ 0, ?_, ?_⟩
    · change Explains _ x.log _
      rw [empty]
      exact .nil _
    rcases crash with holds | blank
    · exact .inl holds
    refine .inr ⟨blank, empty, beq_eq_false_iff_ne.2 fun run ↦ ?_⟩
    rcases post with ⟨cut, -⟩ | ⟨status, returned, -, ⟨-, main⟩ | ⟨failed, -⟩⟩
    · cases cut.symm.trans run
    · exact blank.main main.valid
    · rw [failed] at returned
      cases returned.symm.trans run

/-- A step that serves a request. -/
theorem step_request {x : Machine n} (run : x.running = true) (r : Request) (chance : Chance n) :
    step cfg x (.request r chance) =
      some ⟨(execute cfg (serve cfg r) x.area chance).2.area,
        (execute cfg (serve cfg r) x.area chance).1.isSome, x.failed || chance.fault.isSome,
        (r.event (execute cfg (serve cfg r) x.area chance).1).toList ++ x.log⟩ := if_pos run

/-- A request that finds the main record valid changes the values as its event says. -/
theorem Machine.Inv.request {x y : Machine n} {values : Fin n → Word} (inv : x.Inv cfg values)
    {r : Request} {chance : Chance n} (detected : Detected cfg chance.torn)
    (valid : x.area.Valid cfg .main) (step_eq : step cfg x (.request r chance) = some y) :
    ∃ values', y.Inv cfg values' := by
  have explains {event : Option (Event (Fin n) Word)} {values' : Fin n → Word}
      (after : After values event values') : Explains (· + 1) (event.toList ++ x.log) values' := by
    cases event with
    | none =>
        cases after
        exact inv.explained
    | some event => exact .cons inv.explained after
  have main : x.area.Main cfg values := by
    rcases inv.holds with holds | ⟨blank, -⟩
    · exact holds.main_of_valid valid
    · exact absurd valid blank.main
  have run : x.running = true := by
    rw [Flash.step] at step_eq
    split at step_eq
    · next run => exact run
    · cases step_eq
  rw [step_request run] at step_eq
  obtain rfl := Option.some.inj step_eq
  obtain ⟨⟨values₁, after₁, holds₁⟩, post⟩ :=
    execute_spec chance (spec_serve detected main r) (total_serve r)
  rcases post with ⟨interrupted, -⟩ | ⟨result, returned, -, values', after, holds⟩
  · refine ⟨values₁, ?_, .inl holds₁⟩
    dsimp only
    rw [interrupted]
    exact explains after₁
  · refine ⟨values', ?_, .inl holds⟩
    dsimp only
    rw [returned]
    exact explains after

/-- A step keeps the values, or changes them as its event says. -/
theorem Machine.Inv.step {x y : Machine n} {values : Fin n → Word} (inv : x.Inv cfg values)
    {a : Action n} (allowed : MainValid cfg x a) (step_eq : step cfg x a = some y) :
    ∃ values', y.Inv cfg values' := by
  cases a with
  | boot chance => exact inv.boot (allowed.detected chance rfl) step_eq
  | request r chance =>
      exact inv.request (allowed.detected chance rfl) (allowed.valid r chance rfl) step_eq
  | powerOff =>
      cases step_eq
      exact ⟨values, inv.explained, inv.holds.imp_right fun new ↦ ⟨new.1, new.2.1, rfl⟩⟩

/-- A running system with a valid main record reads its values. -/
theorem Machine.reads_of_main {x : Machine n} {values : Fin n → Word} (run : x.running = true)
    (main : x.area.Main cfg values) (i : Fin n) : x.Reads cfg i (values i) := by
  intro torn
  have spec : Spec (Op.handle cfg) (fun _ ↦ True) (serve cfg (.read i 4))
      (fun result _ _ ↦ result = (.success, values i)) () ⟨x.area, torn, 0, none⟩ := by
    rw [serve, tfmPlatReadNvCounter, dif_pos i.isLt, if_neg (by decide), spec_bind]
    refine ⟨trivial, trivial, trivial, ?_⟩
    exact congrArg (fun counters : Fin n → Word ↦ (PlatErr.success, counters i)) main.counters
  refine ⟨_, step_request run _ _, ?_⟩
  rcases (execute_spec ⟨torn, none, none⟩ spec (total_serve _)).2 with
    ⟨-, interrupted⟩ | ⟨result, returned, -, eq⟩
  · exact absurd rfl interrupted
  · dsimp only
    rw [returned, eq, Request.event, dif_pos i.isLt]
    rfl

/-- A boot without errors and power loss recovers the counters. -/
theorem Machine.Inv.recovers {x : Machine n} {values : Fin n → Word} (inv : x.Inv cfg values)
    (used : x.log ≠ []) {torn : Area n} (detected : Detected cfg torn) :
    ∃ y, Flash.step cfg x (.boot ⟨torn, none, none⟩) = some y ∧ y.running = true ∧
      y.area.Valid cfg .main ∧ ∀ i, y.Reads cfg i (values i) := by
  have holds : x.area.Holds cfg values := inv.holds.resolve_right fun new ↦ used new.2.1
  refine ⟨_, rfl, ?_⟩
  rcases (execute_spec ⟨torn, none, none⟩ (spec_init detected holds) total_init).2 with
    ⟨-, interrupted⟩ | ⟨status, returned, -, ⟨rfl, main⟩ | ⟨-, faulty, -⟩⟩
  · exact absurd rfl interrupted
  · have run : ((execute cfg (tfmPlatInitNvCounter cfg) x.area ⟨torn, none, none⟩).1 ==
        some .success) = true := beq_iff_eq.2 returned
    exact ⟨run, main.valid, fun i ↦ Machine.reads_of_main run main i⟩
  · exact absurd rfl faulty

/-- The counters are durable in every run whose requests find the main record valid, with power
losses and errors of the driver anywhere. -/
theorem durable_of_mainValid (cfg : Config n) (area : Area n) (x : Machine n)
    (reaches : Run.Reaches (step cfg) (MainValid cfg) ⟨area, false, false, []⟩ x) :
    x.Durable cfg := by
  obtain ⟨values, inv⟩ : ∃ values, x.Inv cfg values := by
    refine reaches.invariant (I := fun x ↦ ∃ values, x.Inv cfg values) ?_ ?_
    · by_cases main : area.Valid cfg .main
      · exact ⟨(area .main).counters, .nil _, .inl (.inl ⟨main, rfl⟩)⟩
      by_cases backup : area.Valid cfg .backup
      · exact ⟨(area .backup).counters, .nil _, .inl (.inr ⟨main, backup, rfl⟩)⟩
      · exact ⟨fun _ ↦ 0, .nil _, .inr ⟨⟨main, backup⟩, rfl, rfl⟩⟩
    · rintro before a after ⟨values, inv⟩ allowed step_eq
      exact inv.step allowed step_eq
  constructor
  case reads =>
    intro later between earlier i value value' log
    exact (log ▸ inv.explained).read_le
  case sets =>
    intro later between earlier i value value' log
    exact (log ▸ inv.explained).set_le
  case explained =>
    refine ⟨values, inv.explained, fun run valid i ↦ ?_, fun used torn detected ↦
      inv.recovers used detected⟩
    rcases inv.holds with holds | ⟨blank, -⟩
    · exact Machine.reads_of_main run (holds.main_of_valid valid) i
    · exact absurd valid blank.main

/-- A platform with one counter. -/
def sampleConfig : Config 1 := ⟨fun counters ↦ counters 0 + 1, ⟨-1, -1, fun _ ↦ -1⟩⟩

/-- An erased area. -/
def sampleArea : Area 1 := fun _ ↦ sampleConfig.erased

/-- No errors and no power loss. -/
def sampleChance : Chance 1 := ⟨sampleArea, none, none⟩

/-- Test whether torn records are detected. -/
def sampleDetected (a : Action 1) : Bool :=
  a.chance.all fun chance ↦ !ifxFlashCountersValid sampleConfig (chance.torn .main) &&
    !ifxFlashCountersValid sampleConfig (chance.torn .backup)

theorem detected_of_sampleDetected {a : Action 1} (test : sampleDetected a = true)
    (chance : Chance 1) (eq : a.chance = some chance) : Detected sampleConfig chance.torn := by
  have both := (Option.all_eq_true ..).1 test chance eq
  rw [Bool.and_eq_true, Bool.not_eq_true', Bool.not_eq_true'] at both
  refine ⟨fun sector ↦ ?_, by decide⟩
  cases sector with
  | main => exact Bool.eq_false_iff.1 both.1
  | backup => exact Bool.eq_false_iff.1 both.2

/-- Power is lost while a request writes the main record. -/
def sampleRun : List (Action 1) :=
  [.boot sampleChance, .request (.set 0 5) sampleChance,
    .request (.increment 0) ⟨sampleArea, some 8, none⟩, .boot sampleChance,
    .request (.read 0 4) sampleChance]

/-- The interrupted increment has been made. -/
theorem durable_interruptedRun :
    ∃ x, Run.exec (step sampleConfig) ⟨sampleArea, false, false, []⟩ sampleRun = some x ∧
      x.log.head? = some (.read 0 6) ∧ x.Durable sampleConfig := by
  have runs : (Run.exec (step sampleConfig) ⟨sampleArea, false, false, []⟩ sampleRun).any
      (fun x ↦ x.log.head? = some (.read 0 6)) = true := by
    decide +kernel
  have tested : Run.allowedBy (step sampleConfig)
      (fun x a ↦ sampleDetected a && ifxFlashCountersValid sampleConfig (x.area .main) ||
        sampleDetected a && a matches .boot _) ⟨sampleArea, false, false, []⟩ sampleRun = true := by
    decide +kernel
  obtain ⟨x, run, read⟩ := (Option.any_eq_true ..).1 runs
  refine ⟨x, run, of_decide_eq_true read, durable_of_mainValid sampleConfig sampleArea x
    (Run.exec_reaches run (Run.allowed_of_allowedBy (fun y a test ↦ ?_) tested))⟩
  rw [Bool.or_eq_true, Bool.and_eq_true, Bool.and_eq_true] at test
  rcases test with ⟨detected, valid⟩ | ⟨detected, boot⟩
  · exact ⟨detected_of_sampleDetected detected, fun _ _ _ ↦ valid⟩
  · refine ⟨detected_of_sampleDetected detected, ?_⟩
    rintro r chance rfl
    cases boot

/-- The main record cannot be programmed, and the counter is read then and after a boot. -/
def failingRun : List (Action 1) :=
  [.boot sampleChance, .request (.set 0 5) ⟨sampleArea, none, some (4, .refused)⟩,
    .request (.read 0 4) sampleChance, .boot sampleChance, .request (.read 0 4) sampleChance]

/-- A counter is read while the main record is erased, and it is lower after the next boot. -/
theorem not_durable : ¬∀ (n : ℕ) (cfg : Config n) (area : Area n) (x : Machine n),
    Run.Reaches (step cfg) (OneFailure cfg) ⟨area, false, false, []⟩ x → x.Durable cfg := by
  have runs : (Run.exec (step sampleConfig) ⟨sampleArea, false, false, []⟩ failingRun).any
      (fun x ↦ x.log = [.read 0 5, .read 0 0xFFFFFFFF, .set 0 5 .unknown]) = true := by
    decide +kernel
  have tested : Run.allowedBy (step sampleConfig)
      (fun x a ↦ sampleDetected a && a.chance.all fun chance ↦ chance.fault.isNone || !x.failed)
      ⟨sampleArea, false, false, []⟩ failingRun = true := by
    decide +kernel
  obtain ⟨x, run, log⟩ := (Option.any_eq_true ..).1 runs
  intro durable
  have reads := (durable 1 sampleConfig sampleArea x (Run.exec_reaches run
    (Run.allowed_of_allowedBy (fun y a test ↦ ?_) tested))).reads [] [] [.set 0 5 .unknown] 0
    0xFFFFFFFF 5 (of_decide_eq_true log)
  · revert reads
    decide
  · rw [Bool.and_eq_true] at test
    refine ⟨detected_of_sampleDetected test.1, fun chance eq faulty ↦ ?_⟩
    have fine := (Option.all_eq_true ..).1 test.2 chance eq
    cases fault : chance.fault with
    | none =>
        rw [fault] at faulty
        cases faulty
    | some fault' =>
        rw [fault, Option.isNone_some, Bool.false_or, Bool.not_eq_true'] at fine
        exact fine

end TrustedFirmwareM.NvCounters.Flash
