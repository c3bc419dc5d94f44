import TrustedFirmwareM.Ps.Saves

/-!
# Durability of the object table

The table of the last save is found again at every boot, unless power has been lost after the first
counter was incremented and before the table was written.  Then the table that is stored carries the
tag of the third counter; a boot accepts it, aligns the counters and does not save it again, and no
later boot accepts it.
-/

namespace TrustedFirmwareM.Ps

open Program

variable {Tag : Type} {m : ℕ}

/-- Data of a save. -/
def Save.data : Save Tag m → TableData Tag m
  | .saving _ data | .saved _ data => data

/-- Data of the last completed save. -/
def lastSaved : List (Save Tag m) → Option (TableData Tag m)
  | [] => none
  | .saved _ data :: _ => some data
  | .saving _ _ :: rest => lastSaved rest

/-- The tables that a boot may take: the one of the last completed save and the one of a save in
progress. -/
def durable : List (Save Tag m) → List (TableData Tag m)
  | [] => []
  | .saved _ data :: _ => [data]
  | .saving _ data :: rest => data :: (lastSaved rest).toList

theorem data_mem_durable {s : Save Tag m} {rest : List (Save Tag m)} :
    s.data ∈ durable (s :: rest) := by
  cases s with
  | saving nvc data => exact List.mem_cons_self
  | saved nvc data => exact List.mem_cons_self

/-- No operation fails. -/
def noFails : Op Tag m → ℕ → Bool := fun _ _ ↦ false

section

variable [Inhabited Tag] (cfg : Config) (crypto : Crypto Tag m)

/-- Execute `ps_object_table_init` after a reset. -/
def initTable (fails : Op Tag m → ℕ → Bool) (w : World Tag m) (cut : Option ℕ) :
    Option (Status × Ram Tag m) × World Tag m :=
  execute cfg (psObjectTableInit cfg crypto) .reset (w.arm fails) cut

/-- The table that `ps_object_table_init` accepts. -/
def accepted (fails : Op Tag m → ℕ → Bool) (w : World Tag m) : Option (TableData Tag m) :=
  (running (initTable cfg crypto fails w none).1).map fun ram ↦ ram.objTable.data

/-- A boot accepts a table that has been saved, and the next boot accepts it again, also when the
first one is interrupted. -/
def BootsDurably (w : World Tag m) : Prop :=
  ∃ data ∈ durable w.saves, accepted cfg crypto noFails w = some data ∧
    ∀ cut, accepted cfg crypto noFails (initTable cfg crypto noFails w cut).2 = some data

/-- Boots, requests and power losses with a storage that works. -/
def Action.Honest : Action Tag m → Prop
  | .boot fails _ | .request _ fails _ => fails = noFails
  | .powerOff => True
  | .wipe _ _ | .replace _ => False

/-- Power is not lost, and no request ends, between an increment of the first counter and the write
of the table. -/
def OutsideWindow (x : Machine Tag m) (a : Action Tag m) : Prop :=
  a.Honest ∧ ∀ y, step cfg crypto x a = some y → y.world.window = false

end

/-! ## Invariants -/

section

variable (cfg : Config) (crypto : Crypto Tag m)

/-- A file holds the table of the latest save under the first counter, and the other file does not
hold such a table. -/
def Current (w : World Tag m) (i : Fin 2) : Prop :=
  ∃ table s rest, w.tables i = some table ∧ table.Tagged cfg crypto (w.nvc 0) ∧
    table.data.version = psObjectSystemVersion ∧ w.saves = s :: rest ∧ s.data = table.data ∧
    ∀ other, w.tables (otherTable i) = some other → ¬other.Tagged cfg crypto (w.nvc 0)

/-- What holds of the storage whenever power is lost. -/
structure StoreInv (w : World Tag m) : Prop where
  /-- The first counter is in range. -/
  bounded : w.nvc 0 ≤ cfg.nvMax
  /-- Tables carry tags of values that the first counter has had. -/
  tagged : ∀ i table, w.tables i = some table → ∃ v, table.Tagged cfg crypto v ∧ v ≤ w.nvc 0 ∧
    (w.window = true → v < w.nvc 0)
  /-- Without a save there are no tables. -/
  empty : w.saves = [] → ∀ i, w.tables i = none
  /-- The table of the latest save is stored. -/
  current : w.window = false → w.saves ≠ [] → ∃ i, Current cfg crypto w i

/-- What holds before a save. -/
structure SaveReady (ram : Ram Tag m) (w : World Tag m) : Prop where
  /-- The storage is as it should be. -/
  store : StoreInv cfg crypto w
  /-- The two files are different. -/
  scratch : ram.scratchTable = otherTable ram.activeTable
  /-- The table has the right version. -/
  version : ram.objTable.data.version = psObjectSystemVersion

/-- What holds while the system runs. -/
structure RunInv (ram : Ram Tag m) (w : World Tag m) : Prop extends SaveReady cfg crypto ram w where
  /-- The active file holds the table of the latest save. -/
  active : w.window = false → Current cfg crypto w ram.activeTable

end

variable {cfg : Config} {crypto : Crypto Tag m}

theorem Current.congr {w w' : World Tag m} {i : Fin 2} (current : Current cfg crypto w i)
    (tables : w'.tables = w.tables) (nvc : w'.nvc 0 = w.nvc 0) (saves : w'.saves = w.saves) :
    Current cfg crypto w' i := by
  rw [Current, tables, nvc, saves]
  exact current

theorem StoreInv.congr {w w' : World Tag m} (store : StoreInv cfg crypto w)
    (tables : w'.tables = w.tables) (nvc : w'.nvc 0 = w.nvc 0) (saves : w'.saves = w.saves)
    (window : w'.window = w.window) : StoreInv cfg crypto w' where
  bounded := nvc ▸ store.bounded
  tagged := by
    rw [tables, nvc, window]
    exact store.tagged
  empty := by
    rw [tables, saves]
    exact store.empty
  current := by
    rw [window, saves]
    intro closed some_save
    obtain ⟨i, current⟩ := store.current closed some_save
    exact ⟨i, current.congr tables nvc saves⟩

/-! ## Saves -/

theorem StoreInv.counted {w : World Tag m} (store : StoreInv cfg crypto w)
    (room : w.nvc 0 < cfg.nvMax) (data : TableData Tag m) :
    StoreInv cfg crypto w.counted ∧ StoreInv cfg crypto (w.begun data) := by
  have tagged : ∀ i table, w.tables i = some table → ∃ v, table.Tagged cfg crypto v ∧
      v ≤ w.nvc 0 + 1 ∧ (true = true → v < w.nvc 0 + 1) := by
    intro i table here
    obtain ⟨v, tagged, le, -⟩ := store.tagged i table here
    exact ⟨v, tagged, by omega, fun _ ↦ by omega⟩
  exact ⟨⟨room, tagged, store.empty, by rintro ⟨⟩⟩, ⟨room, tagged, by rintro ⟨⟩, by rintro ⟨⟩⟩⟩

theorem otherTable_ne (i : Fin 2) : otherTable i ≠ i := by
  revert i
  decide

theorem otherTable_otherTable (i : Fin 2) : otherTable (otherTable i) = i := by
  revert i
  decide

/-- A table that has been written is current. -/
theorem StoreInv.stored {w : World Tag m} (store : StoreInv cfg crypto w)
    (room : w.nvc 0 < cfg.nvMax) (i : Fin 2) (table : Table Tag m) (iv : Iv)
    (version : table.data.version = psObjectSystemVersion) :
    StoreInv cfg crypto (w.stored cfg crypto i table iv) ∧
      Current cfg crypto (w.stored cfg crypto i table iv) i := by
  have current : Current cfg crypto (w.stored cfg crypto i table iv) i := by
    refine ⟨w.savedTable cfg crypto table iv, .saving (w.nvc 0 + 1) table.data, w.saves,
      Function.update_self .., rfl, version, rfl, rfl, fun other here tagged ↦ ?_⟩
    have here : w.tables (otherTable i) = some other := by
      rw [← here]
      exact (Function.update_of_ne (otherTable_ne i) ..).symm
    obtain ⟨v, tagged', le, -⟩ := store.tagged _ other here
    have eq : v = w.nvc 0 + 1 := tagged'.unique tagged
    omega
  refine ⟨⟨room, fun j other here ↦ ?_, by rintro ⟨⟩, fun _ _ ↦ ⟨i, current⟩⟩, current⟩
  change ∃ v, _ ∧ v ≤ w.nvc 0 + 1 ∧ (false = true → _)
  rcases eq_or_ne j i with rfl | ne
  · have eq : other = w.savedTable cfg crypto table iv := by
      simpa [World.stored] using here.symm
    exact ⟨w.nvc 0 + 1, by rw [eq]; rfl, le_rfl, by rintro ⟨⟩⟩
  · have here : w.tables j = some other := by
      rw [← here]
      exact (Function.update_of_ne ne ..).symm
    obtain ⟨v, tagged, le, -⟩ := store.tagged j other here
    exact ⟨v, tagged, by omega, by rintro ⟨⟩⟩

/-- A save keeps the storage as it should be.  The active file is current after a success, and after
a failure if it was current before. -/
theorem SaveReady.save {ram : Ram Tag m} {w : World Tag m} (ready : SaveReady cfg crypto ram w) :
    Spec (Op.handle cfg) (StoreInv cfg crypto) (psObjectTableSaveTable cfg crypto)
      (fun err ram' w' ↦ SaveReady cfg crypto ram' w' ∧
        (err = .success ∨ RunInv cfg crypto ram w →
          w'.window = false → Current cfg crypto w' ram'.activeTable) ∧
            w'.fails = w.fails) ram w := by
  obtain ⟨store, scratch, version⟩ := ready
  have switched : ram.activeTable = otherTable ram.scratchTable := by
    rw [scratch, otherTable_otherTable]
  refine spec_saveTable (fun k ↦ ?_) (fun room k ↦ ?_) (fun room k ↦ ?_) (fun room iv _ k ↦ ?_)
    (fun room iv _ i j k _ _ ↦ ?_) (fun room iv _ k ↦ ?_)
  · have store : StoreInv cfg crypto (w.tick k) := store.congr rfl rfl rfl rfl
    refine ⟨store, fun err ne _ ↦ ⟨⟨store, scratch, version⟩, ?_, rfl⟩⟩
    rintro (eq | run) closed
    · exact absurd eq ne
    · exact (run.active closed).congr rfl rfl rfl
  · have store : StoreInv cfg crypto (w.counted.tick k) :=
      (store.counted room ram.objTable.data).1.congr rfl rfl rfl rfl
    exact ⟨store, fun err _ _ ↦
      ⟨⟨store, scratch, version⟩, by rintro _ ⟨⟩, rfl⟩⟩
  · have store : StoreInv cfg crypto ((w.begun ram.objTable.data).tick k) :=
      (store.counted room ram.objTable.data).2.congr rfl rfl rfl rfl
    refine ⟨store, ?_⟩
    rintro err _ - (⟨-, rfl⟩ | ⟨iv, -, rfl, -⟩)
    · exact ⟨⟨store, scratch, version⟩, by rintro _ ⟨⟩, rfl⟩
    · exact ⟨⟨store, scratch, version⟩, by rintro _ ⟨⟩, rfl⟩
  · have store : StoreInv cfg crypto ((w.authenticated cfg ram.objTable iv).tick k) :=
      (store.counted room ram.objTable.data).2.congr rfl rfl rfl rfl
    refine ⟨store, ?_⟩
    rintro err _ - (rfl | rfl) -
    · exact ⟨⟨store, scratch, version⟩, by rintro _ ⟨⟩, rfl⟩
    · exact ⟨⟨store, scratch, version⟩, by rintro _ ⟨⟩, rfl⟩
  · obtain ⟨store, current⟩ := store.stored room ram.scratchTable ram.objTable iv version
    have store : StoreInv cfg crypto
        ((((w.stored cfg crypto ram.scratchTable ram.objTable iv).raise 1 i).raise 2 j).tick k) :=
      store.congr rfl rfl rfl rfl
    exact ⟨store, fun err _ _ ↦
      ⟨⟨store, switched, version⟩, fun _ _ ↦ current.congr rfl rfl rfl, rfl⟩⟩
  · obtain ⟨store, current⟩ := store.stored room ram.scratchTable ram.objTable iv version
    obtain ⟨table, s, rest, here, tagged, version', saves, data, other⟩ := current
    have current : Current cfg crypto
        ((w.completed cfg crypto ram.scratchTable ram.objTable iv).tick k) ram.scratchTable := by
      refine ⟨table, _, _, here, tagged, version', rfl, ?_, other⟩
      cases saves
      exact data
    have store : StoreInv cfg crypto
        ((w.completed cfg crypto ram.scratchTable ram.objTable iv).tick k) :=
      ⟨store.bounded, store.tagged, by rintro ⟨⟩, fun _ _ ↦ ⟨_, current⟩⟩
    exact ⟨store, fun _ ↦ ⟨⟨store, switched, version⟩, fun _ _ ↦ current, rfl⟩⟩

/-- Removing the file that is not current keeps the other one. -/
theorem Current.removed {w : World Tag m} {i : Fin 2} (current : Current cfg crypto w i) :
    Current cfg crypto (w.removed (otherTable i)) i := by
  obtain ⟨table, s, rest, here, tagged, version, saves, data, -⟩ := current
  refine ⟨table, s, rest, ?_, tagged, version, saves, data, fun other gone ↦ ?_⟩
  · rw [← here]
    exact Function.update_of_ne (otherTable_ne i).symm ..
  · simp [World.removed] at gone

theorem StoreInv.removed {w : World Tag m} {i : Fin 2} (store : StoreInv cfg crypto w)
    (current : w.window = false → Current cfg crypto w i) :
    StoreInv cfg crypto (w.removed (otherTable i)) := by
  have kept : ∀ j table, (w.removed (otherTable i)).tables j = some table →
      w.tables j = some table := by
    intro j table here
    rcases eq_or_ne j (otherTable i) with rfl | ne
    · simp [World.removed] at here
    · rw [← here]
      exact (Function.update_of_ne ne ..).symm
  refine ⟨store.bounded, fun j table here ↦ store.tagged j table (kept j table here), ?_,
    fun closed _ ↦ ⟨i, (current closed).removed⟩⟩
  intro none j
  rw [Option.eq_none_iff_forall_ne_some]
  intro table here
  exact absurd ((kept j table here).symm.trans (store.empty none j)) (by rintro ⟨⟩)

/-- The table of the latest save survives every request. -/
theorem closed_runInv : Closed cfg crypto (StoreInv cfg crypto) (RunInv cfg crypto) where
  crash inv := inv.store
  frame inv active scratch ivBuf version :=
    ⟨⟨inv.store, by rw [scratch, active, inv.scratch], version.trans inv.version⟩,
      active ▸ inv.active⟩
  object {_ w} o object inv := by
    obtain ⟨objects, decryptions, k, after⟩ := handle_object cfg object w
    rw [after]
    exact ⟨⟨inv.store.congr rfl rfl rfl rfl, inv.scratch, inv.version⟩,
      fun closed ↦ (inv.active closed).congr rfl rfl rfl⟩
  skip _ inv := ⟨⟨inv.store, inv.scratch, inv.version⟩, inv.active⟩
  encrypt label ad plain get inv := by
    rw [handle_encrypted]
    exact ⟨⟨inv.store.congr rfl rfl rfl rfl, inv.scratch, inv.version⟩,
      fun closed ↦ (inv.active closed).congr rfl rfl rfl⟩
  save inv := inv.toSaveReady.save.mono fun err ram w _ post ↦ ⟨post.1, post.2.1 (.inr inv)⟩
  remove {ram w} inv := by
    rcases handle_removeTable cfg w ram.scratchTable with after | after
    · rw [after]
      exact ⟨⟨inv.store.congr rfl rfl rfl rfl, inv.scratch, inv.version⟩,
        fun closed ↦ (inv.active closed).congr rfl rfl rfl⟩
    · rw [after, inv.scratch]
      exact ⟨⟨(inv.store.removed inv.active).congr rfl rfl rfl rfl, inv.scratch, inv.version⟩,
        fun closed ↦ (inv.active closed).removed.congr rfl rfl rfl⟩

/-! ## Boots -/

/-- The current table is chosen. -/
theorem chosen_of_current {w : World Tag m} {i : Fin 2} {table : Table Tag m}
    (store : StoreInv cfg crypto w) (here : w.tables i = some table)
    (tagged : table.Tagged cfg crypto (w.nvc 0))
    (version : table.data.version = psObjectSystemVersion)
    (only : ∀ other, w.tables (otherTable i) = some other → ¬other.Tagged cfg crypto (w.nvc 0)) :
    w.chosen cfg crypto = some (i, table) := by
  refine chooseTable_of_current tagged version ?_ fun nvc3 ↦ ?_
  · rw [w.readTable_ite, World.readTable_of_some here]
  · rw [w.readTable_ite_other]
    cases held : w.tables (otherTable i) with
    | none =>
        rw [World.readTable, held]
        rintro ⟨⟩
    | some other =>
        rw [World.readTable_of_some held]
        obtain ⟨v, other_tagged, -⟩ := store.tagged _ other held
        rw [Ne, tableState_eq_nvc1Valid _ other_tagged]
        rintro ⟨-, eq⟩
        exact only other held (eq ▸ other_tagged)

theorem reads_eq {w : World Tag m} (reliable : ¬w.Faulty) {i : Fin 2}
    {result : Except Status (Table Tag m)} (read : w.Reads i result) : result = w.readTable i := by
  rcases read with eq | ⟨fault, -⟩
  · exact eq
  · exact absurd fault reliable

/-- A chosen table has the right version, and it is the current one unless a write is missing. -/
theorem StoreInv.of_chosen {w : World Tag m} {active : Fin 2} {table : Table Tag m}
    (store : StoreInv cfg crypto w) (chosen : w.chosen cfg crypto = some (active, table)) :
    table.data.version = psObjectSystemVersion ∧
      (w.window = false → Current cfg crypto w active) := by
  obtain ⟨read, version, -⟩ := chooseTable_eq_some chosen
  refine ⟨version, fun closed ↦ ?_⟩
  have some_save : w.saves ≠ [] := by
    intro none
    have empty := store.empty none
    split at read
    · rw [World.readTable, empty] at read
      cases read
    · rw [World.readTable, empty] at read
      cases read
  obtain ⟨i, current⟩ := store.current closed some_save
  obtain ⟨table', s, rest, here, tagged, version', saves, data, only⟩ := id current
  cases (chosen_of_current store here tagged version' only).symm.trans chosen
  exact current

/-- A boot without faults takes the table that is chosen, if there is one, and keeps it. -/
theorem StoreInv.init {w : World Tag m} (ram : Ram Tag m) (store : StoreInv cfg crypto w)
    (reliable : ¬w.Faulty) :
    Spec (Op.handle cfg)
      (fun w' ↦ StoreInv cfg crypto w' ∧ w'.window = w.window ∧ w'.saves = w.saves ∧
        w'.encryptions = w.encryptions)
      (psObjectTableInit cfg crypto)
      (fun err ram' w' ↦ w'.fails = w.fails ∧
        ((err ≠ .success ∧ w.chosen cfg crypto = none ∧ ram' = ram) ∨
          err = .success ∧ RunInv cfg crypto ram' w' ∧ ram'.ivBuf = ram'.objTable.iv ∧
            ∃ active, w.chosen cfg crypto = some (active, ram'.objTable))) ram w := by
  refine spec_init (fun k ↦ ⟨store.congr rfl rfl rfl rfl, rfl, rfl, rfl⟩) ?_ ?_
  · rintro err k ne (fault | none)
    · exact absurd fault reliable
    · exact ⟨rfl, .inl ⟨ne, none, rfl⟩⟩
  · intro result0 result1 active table read0 read1 choose
    rw [reads_eq reliable read0, reads_eq reliable read1] at choose
    obtain ⟨version, current⟩ := store.of_chosen choose
    have raised : ∀ i j k, StoreInv cfg crypto
        ((((w.removed (otherTable active)).raise 1 i).raise 2 j).tick k) := fun i j k ↦
      (store.removed current).congr rfl rfl rfl rfl
    refine ⟨fun k fault ↦ absurd fault reliable, fun i j k _ _ ↦ ⟨raised i j k, rfl, rfl, rfl⟩,
      fun i j k fault ↦ ?_, fun k ↦ ⟨rfl, .inr ⟨rfl, ?_, rfl, active, choose⟩⟩⟩
    · rcases fault with fault | full
      · exact absurd fault reliable
      · exact absurd store.bounded (Nat.not_le.2 full)
    · exact ⟨⟨raised _ _ k, rfl, version⟩,
        fun closed ↦ (current closed).removed.congr rfl rfl rfl⟩

theorem StoreInv.arm {w : World Tag m} (store : StoreInv cfg crypto w)
    (fails : Op Tag m → ℕ → Bool) : StoreInv cfg crypto (w.arm fails) :=
  store.congr rfl rfl rfl rfl

theorem not_faulty_arm (w : World Tag m) : ¬(w.arm noFails).Faulty := by
  rintro ⟨o, k, -, -, ⟨⟩⟩

section

variable [Inhabited Tag]

/-- The table of the latest save is accepted. -/
theorem StoreInv.accepted {w : World Tag m} (store : StoreInv cfg crypto w)
    (closed : w.window = false) {s : Save Tag m} {rest : List (Save Tag m)}
    (saves : w.saves = s :: rest) : accepted cfg crypto noFails w = some s.data := by
  obtain ⟨i, table, s', rest', here, tagged, version, saves', data, only⟩ :=
    store.current closed (by rw [saves]; rintro ⟨⟩)
  have chosen : (w.arm noFails).chosen cfg crypto = some (i, table) :=
    chosen_of_current (store.arm noFails) here tagged version only
  have total := (total_psObjectTableInit cfg crypto .reset).run (Op.handle cfg) (w.arm noFails)
  obtain ⟨⟨err, ram⟩, run⟩ := Option.isSome_iff_exists.1 total
  obtain ⟨-, refused | ⟨success, -, -, active, chosen'⟩⟩ := (execute_spec
    ((store.arm noFails).init .reset (not_faulty_arm w)) none).2 err ram run
  · exact absurd (chosen.symm.trans refused.2.1) (by rintro ⟨⟩)
  · rw [Ps.accepted, initTable, execute, run, success]
    cases saves.symm.trans saves'
    cases chosen.symm.trans chosen'
    exact congrArg some data.symm

/-- Every boot finds the table of the latest save, and interrupted boots keep it. -/
theorem StoreInv.bootsDurably {w : World Tag m} (store : StoreInv cfg crypto w)
    (closed : w.window = false) (some_save : w.saves ≠ []) : BootsDurably cfg crypto w := by
  obtain ⟨s, rest, saves⟩ := List.exists_cons_of_ne_nil some_save
  refine ⟨s.data, saves ▸ data_mem_durable, store.accepted closed saves, fun cut ↦ ?_⟩
  obtain ⟨store', closed', saves', -⟩ := (execute_spec ((store.arm noFails).init .reset
    (not_faulty_arm w)) cut).1
  exact store'.accepted (closed'.trans closed) (saves'.trans saves)

omit [Inhabited Tag] in
/-- Preparing the system without faults. -/
theorem StoreInv.prepare {w : World Tag m} (ram : Ram Tag m) (store : StoreInv cfg crypto w)
    (reliable : ¬w.Faulty) :
    Spec (Op.handle cfg) (StoreInv cfg crypto) (psSystemPrepare cfg crypto)
      (fun err ram' w' ↦ w'.fails = w.fails ∧ (err = .success → RunInv cfg crypto ram' w'))
      ram w := by
  rw [psSystemPrepare, spec_bind]
  refine Prog.Spec.mono (store.init ram reliable) (fun _ inv ↦ inv.1) ?_
  rintro ⟨err, ram'⟩ w' ⟨store', -⟩ ⟨fails, outcome⟩
  dsimp only
  split
  · exact ⟨store', fails, by rintro ⟨⟩⟩
  · refine ⟨store', fails, fun eq ↦ ?_⟩
    rcases outcome with ⟨ne, -⟩ | ⟨-, run, -⟩
    · exact absurd eq ne
    · exact run

/-- Wiping the storage area starts it anew. -/
theorem StoreInv.wipeAll {w : World Tag m} (ram : Ram Tag m) (store : StoreInv cfg crypto w) :
    Spec (Op.handle cfg) (StoreInv cfg crypto) (psSystemWipeAll cfg crypto)
      (fun err ram' w' ↦ w'.fails = w.fails ∧
        (err = .success → RunInv cfg crypto ram' w')) ram w := by
  rw [psSystemWipeAll, psObjectTableCreate, spec_bind]
  refine ⟨store, ?_⟩
  have ready : SaveReady cfg crypto { ram with
      objTable := { (Table.empty : Table Tag m) with
        data := ⟨psObjectSystemVersion, fun _ ↦ .empty⟩ }
      activeTable := 1
      scratchTable := 0 } w := ⟨store, rfl, rfl⟩
  exact ready.save.mono fun err ram' w' _ post ↦
    ⟨post.2.2, fun eq ↦ ⟨post.1, post.2.1 (.inl eq)⟩⟩

/-- A boot without faults. -/
theorem StoreInv.boot {w : World Tag m} (ram : Ram Tag m) (store : StoreInv cfg crypto w)
    (reliable : ¬w.Faulty) :
    Spec (Op.handle cfg) (StoreInv cfg crypto) (tfmPsInit cfg crypto)
      (fun err ram' w' ↦ err = .success → RunInv cfg crypto ram' w') ram w := by
  rw [tfmPsInit, spec_bind]
  refine (store.prepare ram reliable).mono fun err ram' w' store' post ↦ ?_
  split
  · rw [spec_bind]
    refine (store'.wipeAll ram').mono fun err ram'' w'' store'' wiped ↦ ?_
    refine spec_onSuccess (fun _ ↦ ?_) fun ne ↦ ⟨store'', fun eq ↦ absurd eq ne⟩
    have reliable' : ¬w''.Faulty := by
      rw [World.Faulty, wiped.1, post.1]
      exact reliable
    exact (store''.prepare ram'' reliable').mono fun _ _ _ _ post ↦ post.2
  · exact ⟨store', post.2⟩

/-! ## Runs -/

/-- The invariant of the system. -/
def MachineInv (cfg : Config) (crypto : Crypto Tag m) (x : Machine Tag m) : Prop :=
  StoreInv cfg crypto x.world ∧ x.world.window = false ∧
    ∀ ram, x.ram = some ram → RunInv cfg crypto ram x.world

theorem machineInv_step {x y : Machine Tag m} {a : Action Tag m} (inv : MachineInv cfg crypto x)
    (outside : OutsideWindow cfg crypto x a) (step_eq : step cfg crypto x a = some y) :
    MachineInv cfg crypto y := by
  obtain ⟨store, closed, running⟩ := inv
  have closed' := outside.2 y step_eq
  cases a with
  | boot fails cut =>
      cases outside.1
      cases step_eq
      obtain ⟨store', post⟩ := execute_spec ((store.arm noFails).boot .reset
        (not_faulty_arm x.world)) cut
      exact ⟨store', closed', fun ram run ↦ post _ _ (running_eq_some.1 run) rfl⟩
  | request r fails cut =>
      rw [step] at step_eq
      split at step_eq
      · cases step_eq
      · next ram held =>
          cases step_eq
          have inv := running ram held
          have armed : RunInv cfg crypto ram (x.world.arm fails) :=
            ⟨⟨inv.store.arm fails, inv.scratch, inv.version⟩,
              fun closed ↦ (inv.active closed).congr rfl rfl rfl⟩
          obtain ⟨store', post⟩ := execute_spec (closed_runInv.request r ram _ armed) cut
          refine ⟨store', closed', fun ram' run ↦ ?_⟩
          obtain ⟨⟨err, _⟩, result, rfl⟩ := Option.map_eq_some_iff.1 run
          exact post err _ result
  | wipe fails cut => exact outside.1.elim
  | powerOff =>
      cases step_eq
      exact ⟨store, closed, by rintro _ ⟨⟩⟩
  | replace tables => exact outside.1.elim

omit [Inhabited Tag] in
theorem storeInv_blank : StoreInv cfg crypto (.blank : World Tag m) where
  bounded := Nat.zero_le _
  tagged := by rintro _ _ ⟨⟩
  empty := fun _ _ ↦ rfl
  current := fun _ some_save ↦ absurd rfl some_save

/-- The table of the latest save is found at every boot of a run in which no power loss falls
between an increment of the first counter and the write of the table. -/
theorem bootsDurably_of_outsideWindow (cfg : Config) (crypto : Crypto Tag m) (x : Machine Tag m)
    (reaches : Run.Reaches (step cfg crypto) (OutsideWindow cfg crypto) ⟨.blank, none⟩ x)
    (some_save : x.world.saves ≠ []) : BootsDurably cfg crypto x.world := by
  have inv : MachineInv cfg crypto x :=
    reaches.invariant ⟨storeInv_blank, rfl, by rintro _ ⟨⟩⟩ fun _ _ _ ↦ machineInv_step
  exact inv.1.bootsDurably inv.2.1 some_save

end

/-- Power is lost after the first counter has been incremented for a save.  The next boot accepts
the old table, aligns the counters and makes the table useless. -/
theorem not_bootsDurably :
    ¬∀ x, Run.Reaches (step sampleConfig sampleCrypto) (fun _ a ↦ a.Honest) ⟨.blank, none⟩ x →
      x.world.saves ≠ [] → BootsDurably sampleConfig sampleCrypto (x.world : World Code 1) := by
  intro durable
  have lost : (sampleRun [.boot noFails none, .request (.set 5 7 1 0 [1]) noFails (some 6),
      .boot noFails none]).any (fun x ↦ x.world.saves.length = 2 ∧
        (accepted sampleConfig sampleCrypto noFails x.world).isNone) = true := by
    decide +kernel
  obtain ⟨x, run, lost⟩ := (Option.any_eq_true ..).1 lost
  obtain ⟨length, none⟩ := of_decide_eq_true lost
  have some_save : x.world.saves ≠ [] := by
    intro eq
    rw [eq] at length
    cases length
  obtain ⟨data, -, accept, -⟩ := durable x
    (Run.exec_reaches run ⟨rfl, fun _ _ ↦ ⟨rfl, fun _ _ ↦ ⟨rfl, fun _ _ ↦ trivial⟩⟩⟩) some_save
  rw [accept] at none
  cases none

/-- A boot that creates the storage area and a request that power is lost after. -/
theorem bootsDurably_first_set :
    ∃ x, sampleRun [.boot noFails none, .request (.set 5 7 1 0 [1]) noFails (some 13)] = some x ∧
      BootsDurably sampleConfig sampleCrypto x.world := by
  have first : (step sampleConfig sampleCrypto (⟨.blank, none⟩ : Machine Code 1)
      (.boot noFails none)).all (fun x ↦ !x.world.window) = true := by
    decide +kernel
  have second : (step sampleConfig sampleCrypto (⟨.blank, none⟩ : Machine Code 1)
      (.boot noFails none)).all (fun x ↦ (step sampleConfig sampleCrypto x
        (.request (.set 5 7 1 0 [1]) noFails (some 13))).all fun y ↦ !y.world.window) = true := by
    decide +kernel
  have saved : (sampleRun [.boot noFails none,
      .request (.set 5 7 1 0 [1]) noFails (some 13)]).any (fun x ↦ x.world.saves.length = 3) =
        true := by
    decide +kernel
  obtain ⟨x, run, length⟩ := (Option.any_eq_true ..).1 saved
  have some_save : x.world.saves ≠ [] := by
    intro eq
    rw [eq] at length
    cases length
  refine ⟨x, run, bootsDurably_of_outsideWindow sampleConfig sampleCrypto x
    (Run.exec_reaches run
      ⟨⟨rfl, fun y eq ↦ ?_⟩, fun y eq ↦ ⟨⟨rfl, fun z eq' ↦ ?_⟩, fun _ _ ↦ trivial⟩⟩)
    some_save⟩
  · simpa using (Option.all_eq_true ..).1 first y eq
  · simpa using (Option.all_eq_true ..).1 ((Option.all_eq_true ..).1 second y eq) z eq'

end TrustedFirmwareM.Ps
