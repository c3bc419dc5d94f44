import TrustedFirmwareM.Ps.System

/-!
# The object table without rollback protection

Without rollback protection a swap count of one byte tells the two stored tables apart.  A save
advances the count in memory whether or not the table reaches its file, and the count skips the
value of erased flash.  A boot takes the table of the latest save as long as each count that is
written is newer than the one beside it.
-/

namespace TrustedFirmwareM.Ps.Swap

open Program

variable (Tag : Type) (m : ℕ)

/-! ## Data -/

/-- The authenticated part of `ps_obj_table_t`. -/
structure TableData where
  /-- Object system version. -/
  version : BitVec 8
  /-- Swap count. -/
  swapCount : BitVec 8
  /-- Entries. -/
  objDb : Fin (m + 1) → Entry Tag
  deriving DecidableEq

/-- `ps_obj_table_t`. -/
structure Table where
  /-- Tag of the table. -/
  tag : Tag
  /-- Initialisation vector. -/
  iv : Iv
  /-- Key generation. -/
  gen : Word
  /-- Authenticated part. -/
  data : TableData Tag m
  deriving DecidableEq

/-- Tags for tables, as the crypto service makes and checks them. -/
structure Crypto where
  /-- `ps_crypto_generate_auth_tag`. -/
  authTag : Label → Iv → TableData Tag m → Tag
  /-- `ps_crypto_authenticate`. -/
  authentic : Label → Iv → TableData Tag m → Tag → Bool

/-- Operations on the table files. -/
inductive Op
  /-- `psa_its_get` of a table file. -/
  | getTable (i : Fin 2)
  /-- `psa_its_set` of a table file. -/
  | setTable (i : Fin 2) (table : Table Tag m)
  /-- `psa_its_remove` of a table file. -/
  | removeTable (i : Fin 2)

variable {Tag m}

/-- Result of an operation. -/
def Op.Result : Op Tag m → Type
  | .getTable _ => Except Status (Table Tag m)
  | .setTable _ _ | .removeTable _ => Status

/-- What is kept over a power loss. -/
structure World (Tag : Type) (m : ℕ) where
  /-- Table files. -/
  tables : Fin 2 → Option (Table Tag m)
  /-- The file that a save has written last. -/
  last : Option (Fin 2)
  /-- Operations issued so far. -/
  ops : ℕ
  /-- Which operation fails, by its number. -/
  fails : ℕ → Bool

/-- Result of an operation that fails. -/
def Op.failure : (o : Op Tag m) → o.Result
  | .getTable _ => .error .storageFailure
  | .setTable _ _ | .removeTable _ => Status.storageFailure

/-- An operation that does not fail. -/
def Op.perform : (o : Op Tag m) → World Tag m → o.Result × World Tag m
  | .getTable i, w => (match w.tables i with
      | none => .error .doesNotExist
      | some table => .ok table, w)
  | .setTable i table, w => (Status.success, { w with
      tables := Function.update w.tables i (some table)
      last := some i })
  | .removeTable i, w =>
      match w.tables i with
      | none => (Status.doesNotExist, w)
      | some _ => (Status.success, { w with tables := Function.update w.tables i none })

/-- Perform an operation, or let it fail without effect. -/
def Op.handle (o : Op Tag m) (w : World Tag m) : o.Result × World Tag m :=
  if w.fails w.ops then (o.failure, { w with ops := w.ops + 1 })
  else o.perform { w with ops := w.ops + 1 }

/-- Static variables of the partition. -/
structure Ram (Tag : Type) (m : ℕ) where
  /-- Object table in use. -/
  objTable : Table Tag m
  /-- Active table file. -/
  activeTable : Fin 2
  /-- Scratch table file. -/
  scratchTable : Fin 2
  /-- `ps_crypto_iv_buf`. -/
  ivBuf : Iv

/-- A function on the object table. -/
abbrev TableM (Tag : Type) (m : ℕ) (α : Type) : Type := Proc (Ram Tag m) (Op Tag m) Op.Result α

/-- `psa_its_get` of a table file. -/
def psaItsGetTable (i : Fin 2) : TableM Tag m (Except Status (Table Tag m)) :=
  Proc.call (Op.getTable i)

/-- `psa_its_set` of a table file. -/
def psaItsSetTable (i : Fin 2) (table : Table Tag m) : TableM Tag m Status :=
  Proc.call (Op.setTable i table)

/-- `psa_its_remove` of a table file. -/
def psaItsRemoveTable (i : Fin 2) : TableM Tag m Status := Proc.call (Op.removeTable i)

/-- Go on after a success, and return any other status. -/
def onSuccess (err : Status) (next : TableM Tag m Status) : TableM Tag m Status :=
  if err = .success then next else pure err

/-! ## Saving -/

/-- `PS_FLASH_DEFAULT_VAL`. -/
def psFlashDefaultVal : BitVec 8 := 0xFF

/-- The swap count of the next save. -/
def nextSwapCount (swapCount : BitVec 8) : BitVec 8 :=
  if swapCount + 1 = psFlashDefaultVal then 0 else swapCount + 1

/-- `ps_object_table_generate_auth_tag`.  That the crypto service fails is left to the write behind
it: neither lets the table reach its file, and the next save makes another tag. -/
def psObjectTableGenerateAuthTag (cfg : Config) (crypto : Crypto Tag m) : TableM Tag m Status := do
  let ram ← Proc.get
  match psCryptoGetIv ram.ivBuf with
  | none => pure .genericError
  | some iv => do
      let label := tableLabel cfg ram.objTable.gen
      Proc.modify fun ram ↦ { ram with
        ivBuf := iv
        objTable := { ram.objTable with
          iv := iv
          tag := crypto.authTag label iv ram.objTable.data } }
      pure .success

/-- `ps_object_table_fs_write_table`. -/
def psObjectTableFsWriteTable : TableM Tag m Status := do
  let ram ← Proc.get
  let err ← psaItsSetTable ram.scratchTable ram.objTable
  onSuccess err do
    Proc.modify fun ram ↦ { ram with
      scratchTable := ram.activeTable
      activeTable := ram.scratchTable }
    pure .success

/-- The memory after the swap count has been advanced. -/
def Ram.advance (ram : Ram Tag m) : Ram Tag m :=
  { ram with objTable := { ram.objTable with data := { ram.objTable.data with
    swapCount := nextSwapCount ram.objTable.data.swapCount } } }

/-- `ps_object_table_save_table`. -/
def psObjectTableSaveTable (cfg : Config) (crypto : Crypto Tag m) : TableM Tag m Status := do
  Proc.modify Ram.advance
  let err ← psObjectTableGenerateAuthTag cfg crypto
  onSuccess err psObjectTableFsWriteTable

/-! ## Choosing a table -/

/-- State of a table file after `ps_object_table_fs_read_table`,
`ps_object_table_authenticate_ctx_tables` and `ps_object_table_validate_version`: the table is
valid. -/
def tableValid (cfg : Config) (crypto : Crypto Tag m) : Except Status (Table Tag m) → Bool
  | .error _ => false
  | .ok table =>
      crypto.authentic (tableLabel cfg table.gen) table.iv table.data table.tag &&
        table.data.version = psObjectSystemVersion

/-- `ps_set_active_object_table`, for two valid tables with the given swap counts. -/
def chooseBySwapCount (swapCount0 swapCount1 : BitVec 8) : Fin 2 :=
  if swapCount1 = 0 ∧ swapCount0 ≠ 1 then 1
  else if swapCount0 = 0 ∧ swapCount1 ≠ 1 then 0
  else if swapCount0 < swapCount1 then 1
  else 0

/-- `ps_set_active_object_table`: the file of the active table, and its contents. -/
def psSetActiveObjectTable (cfg : Config) (crypto : Crypto Tag m)
    (table0 table1 : Except Status (Table Tag m)) : Option (Fin 2 × Table Tag m) :=
  match table0, table1 with
  | .ok table0, .ok table1 =>
      if tableValid cfg crypto (.ok table0) then
        if tableValid cfg crypto (.ok table1) then
          let active := chooseBySwapCount table0.data.swapCount table1.data.swapCount
          some (active, if active = 0 then table0 else table1)
        else some (0, table0)
      else if tableValid cfg crypto (.ok table1) then some (1, table1)
      else none
  | .ok table0, .error _ => if tableValid cfg crypto (.ok table0) then some (0, table0) else none
  | .error _, .ok table1 => if tableValid cfg crypto (.ok table1) then some (1, table1) else none
  | .error _, .error _ => none

/-- `ps_object_table_init`. -/
def psObjectTableInit (cfg : Config) (crypto : Crypto Tag m) : TableM Tag m Status := do
  let table0 ← psaItsGetTable 0
  let table1 ← psaItsGetTable 1
  match psSetActiveObjectTable cfg crypto table0 table1 with
  | none => pure .genericError
  | some (active, table) => do
      Proc.modify fun ram ↦ { ram with
        objTable := table
        activeTable := active
        scratchTable := otherTable active }
      let err ← psaItsRemoveTable (otherTable active)
      if err ≠ .success ∧ err ≠ .doesNotExist then pure err
      else do
        Proc.modify fun ram ↦ { ram with ivBuf := ram.objTable.iv }
        pure .success

/-! ## The system -/

/-- What requests do with the memory between two saves. -/
structure Edit (Tag : Type) (m : ℕ) where
  /-- Key generation. -/
  gen : Word
  /-- Initialisation vector, after objects have been encrypted. -/
  ivBuf : Iv
  /-- Entries. -/
  objDb : Fin (m + 1) → Entry Tag

/-- Change the memory between two saves. -/
def Ram.edit (ram : Ram Tag m) (edit : Edit Tag m) : Ram Tag m :=
  { ram with
    ivBuf := edit.ivBuf
    objTable := { ram.objTable with
      gen := edit.gen
      data := { ram.objTable.data with objDb := edit.objDb } } }

/-- Save the table with new entries, as `ps_update_table` and `ps_object_delete` do: a success
deletes the old table, a failure rolls the entries back. -/
def updateTable (cfg : Config) (crypto : Crypto Tag m) (edit undo : Edit Tag m) :
    TableM Tag m Status := do
  Proc.modify fun ram ↦ ram.edit edit
  let err ← psObjectTableSaveTable cfg crypto
  if err = .success then do
    let ram ← Proc.get
    psaItsRemoveTable ram.scratchTable
  else do
    Proc.modify fun ram ↦ ram.edit undo
    pure err

/-- What the partition is doing. -/
inductive Stage (Tag : Type) (m : ℕ)
  /-- Power is off. -/
  | off
  /-- The table is not in use: it could not be taken, or has just been created. -/
  | idle (ram : Ram Tag m)
  /-- The table is in use. -/
  | running (ram : Ram Tag m)

/-- The system. -/
structure Machine (Tag : Type) (m : ℕ) where
  /-- Stored tables. -/
  world : World Tag m
  /-- Stage, with the volatile memory. -/
  stage : Stage Tag m

/-- What happens to the system.  Operations fail as given, and power is lost after the given number
of operations. -/
inductive Action (Tag : Type) (m : ℕ)
  /-- The system is reset and takes a stored table. -/
  | boot (fails : ℕ → Bool) (cut : Option ℕ)
  /-- `ps_object_table_create`. -/
  | create (fails : ℕ → Bool) (cut : Option ℕ)
  /-- A stored table is taken after one has been created. -/
  | prepare (fails : ℕ → Bool) (cut : Option ℕ)
  /-- The table is saved with new entries. -/
  | update (edit undo : Edit Tag m) (fails : ℕ → Bool) (cut : Option ℕ)
  /-- Power is lost. -/
  | powerOff

/-- The world with the operations of an action still to come. -/
def World.arm (w : World Tag m) (fails : ℕ → Bool) : World Tag m :=
  { w with ops := 0, fails := fails }

/-- Execute a function, or part of it; power is off after a part. -/
def execute (p : TableM Tag m Status) (next : Status → Ram Tag m → Stage Tag m) (ram : Ram Tag m)
    (w : World Tag m) : Option ℕ → Machine Tag m
  | none =>
      let (result, w) := (p ram).run Op.handle w
      ⟨w, result.elim .off fun result ↦ next result.1 result.2⟩
  | some n => ⟨(p ram).cut Op.handle n w, .off⟩

variable [Inhabited Tag]

/-- A table without objects. -/
def Table.empty : Table Tag m := ⟨default, .zero, 0, ⟨psObjectSystemVersion, 0, fun _ ↦ .empty⟩⟩

/-- Static variables after a reset. -/
def Ram.reset : Ram Tag m := ⟨Table.empty, 0, 0, .zero⟩

/-- The memory in which `ps_object_table_create` saves an empty table. -/
def Ram.created (ram : Ram Tag m) : Ram Tag m :=
  { ram with objTable := Table.empty, activeTable := 1, scratchTable := 0 }

/-- `ps_object_table_create`. -/
def psObjectTableCreate (cfg : Config) (crypto : Crypto Tag m) : TableM Tag m Status := do
  Proc.modify Ram.created
  psObjectTableSaveTable cfg crypto

/-- The stage after `ps_object_table_init`. -/
def Stage.afterInit (err : Status) (ram : Ram Tag m) : Stage Tag m :=
  if err = .success then .running ram else .idle ram

/-- One step of the system. -/
def step (cfg : Config) (crypto : Crypto Tag m) (x : Machine Tag m) :
    Action Tag m → Option (Machine Tag m)
  | .boot fails cut =>
      some (execute (psObjectTableInit cfg crypto) .afterInit .reset (x.world.arm fails) cut)
  | .create fails cut =>
      match x.stage with
      | .off => none
      | .idle ram | .running ram =>
          some (execute (psObjectTableCreate cfg crypto) (fun _ ram ↦ .idle ram) ram
            (x.world.arm fails) cut)
  | .prepare fails cut =>
      match x.stage with
      | .idle ram =>
          some (execute (psObjectTableInit cfg crypto) .afterInit ram (x.world.arm fails) cut)
      | _ => none
  | .update edit undo fails cut =>
      match x.stage with
      | .running ram =>
          some (execute (updateTable cfg crypto edit undo) (fun _ ram ↦ .running ram) ram
            (x.world.arm fails) cut)
      | _ => none
  | .powerOff => some ⟨x.world, .off⟩

/-- A system that has never been used. -/
def Machine.blank : Machine Tag m := ⟨⟨fun _ ↦ none, none, 0, fun _ ↦ false⟩, .off⟩

/-! ## The table of the latest save -/

/-- When both stored tables are valid, a boot takes the one that a save has written last. -/
def TakesLatest (cfg : Config) (crypto : Crypto Tag m) (w : World Tag m) : Prop :=
  ∀ table0 table1, w.tables 0 = some table0 → w.tables 1 = some table1 →
    tableValid cfg crypto (.ok table0) = true → tableValid cfg crypto (.ok table1) = true →
      (psSetActiveObjectTable cfg crypto (.ok table0) (.ok table1)).map Prod.fst = w.last

/-- A swap count that is written to a file tells that it is newer than that of the other file. -/
def Newer (file : Fin 2) (new old : BitVec 8) : Prop :=
  if new = 0 then old ≠ 1 ∧ (old = 0 → file = 1)
  else if old = 0 then new = 1
  else old < new ∨ old = new ∧ file = 0

instance (file : Fin 2) (new old : BitVec 8) : Decidable (Newer file new old) :=
  inferInstanceAs (Decidable (if new = 0 then old ≠ 1 ∧ (old = 0 → file = 1)
    else if old = 0 then new = 1 else old < new ∨ old = new ∧ file = 0))

/-- A save with the given initialisation vector reaches its file. -/
def Lands (ivBuf : Iv) (fails : ℕ → Bool) (cut : Option ℕ) : Prop :=
  psCryptoGetIv ivBuf ≠ none ∧ fails 0 = false ∧ cut ≠ some 0

/-- A save that reaches its file writes a count that is newer than the one in the other file. -/
def Distinguishable (x : Machine Tag m) : Action Tag m → Prop
  | .create fails cut =>
      ∀ ram, x.stage = .idle ram ∨ x.stage = .running ram → Lands ram.ivBuf fails cut →
        ∀ old, x.world.tables 1 = some old → Newer 0 1 old.data.swapCount
  | .update edit _ fails cut =>
      ∀ ram, x.stage = .running ram → Lands edit.ivBuf fails cut →
        ∀ old, x.world.tables ram.activeTable = some old →
          Newer ram.scratchTable (nextSwapCount ram.objTable.data.swapCount) old.data.swapCount
  | _ => True

theorem count_eq_zero {count : BitVec 8} : count = 0 ↔ count.toNat = 0 := by
  bv_omega

theorem count_eq_one {count : BitVec 8} : count = 1 ↔ count.toNat = 1 := by
  bv_omega

/-- The choice between two valid tables falls on the one with the newer count. -/
theorem chooseBySwapCount_zero (swapCount0 swapCount1 : BitVec 8) :
    chooseBySwapCount swapCount0 swapCount1 = 0 ↔ Newer 0 swapCount0 swapCount1 := by
  simp only [chooseBySwapCount, Newer, Ne, count_eq_zero, count_eq_one]
  simp only [BitVec.lt_def, ← BitVec.toNat_inj]
  split_ifs <;> simp <;> omega

theorem chooseBySwapCount_one (swapCount0 swapCount1 : BitVec 8) :
    chooseBySwapCount swapCount0 swapCount1 = 1 ↔ Newer 1 swapCount1 swapCount0 := by
  simp only [chooseBySwapCount, Newer, Ne, count_eq_zero, count_eq_one]
  simp only [BitVec.lt_def, ← BitVec.toNat_inj]
  split_ifs <;> simp <;> omega

theorem otherTable_otherTable (i : Fin 2) : otherTable (otherTable i) = i := by
  revert i
  decide

theorem otherTable_ne (i : Fin 2) : otherTable i ≠ i := by
  revert i
  decide

/-! ## Saves and boots -/

section

variable {cfg : Config} {crypto : Crypto Tag m}

omit [Inhabited Tag] in
theorem takesLatest_of_none {w : World Tag m} {i : Fin 2} (none : w.tables i = none) :
    TakesLatest cfg crypto w := by
  intro table0 table1 here0 here1
  revert i
  rw [Fin.forall_fin_two]
  refine ⟨fun none ↦ ?_, fun none ↦ ?_⟩
  · exact absurd (here0.symm.trans none) (by rintro ⟨⟩)
  · exact absurd (here1.symm.trans none) (by rintro ⟨⟩)

omit [Inhabited Tag] in
/-- A table that is written with a newer count is taken at the next boot. -/
theorem takesLatest_of_newer {w : World Tag m} {file : Fin 2} {new : Table Tag m}
    (written : w.tables file = some new) (last : w.last = some file)
    (newer : ∀ old, w.tables (otherTable file) = some old →
      Newer file new.data.swapCount old.data.swapCount) : TakesLatest cfg crypto w := by
  intro table0 table1 here0 here1 valid0 valid1
  simp only [psSetActiveObjectTable, valid0, valid1, if_true, Option.map_some]
  rw [last]
  revert file
  rw [Fin.forall_fin_two]
  refine ⟨fun written _ newer ↦ ?_, fun written _ newer ↦ ?_⟩
  · cases here0.symm.trans written
    exact congrArg some ((chooseBySwapCount_zero ..).2 (newer _ here1))
  · cases here1.symm.trans written
    exact congrArg some ((chooseBySwapCount_one ..).2 (newer _ here0))

omit [Inhabited Tag] in
theorem TakesLatest.congr {w w' : World Tag m} (latest : TakesLatest cfg crypto w)
    (tables : w'.tables = w.tables) (last : w'.last = w.last) : TakesLatest cfg crypto w' := by
  rw [TakesLatest, tables, last]
  exact latest

omit [Inhabited Tag] in
/-- Removing a table leaves at most one. -/
theorem TakesLatest.removeTable {w : World Tag m} (latest : TakesLatest cfg crypto w) (i : Fin 2) :
    TakesLatest cfg crypto ((Op.removeTable i).handle w).2 := by
  simp only [Op.handle]
  split
  · exact latest.congr rfl rfl
  · simp only [Op.perform]
    split
    · exact latest.congr rfl rfl
    · exact takesLatest_of_none (i := i) (Function.update_self ..)

omit [Inhabited Tag] in
theorem TakesLatest.getTable {w : World Tag m} (latest : TakesLatest cfg crypto w) (i : Fin 2) :
    TakesLatest cfg crypto ((Op.getTable i).handle w).2 := by
  simp only [Op.handle]
  split
  · exact latest.congr rfl rfl
  · exact latest.congr rfl rfl

omit [Inhabited Tag] in
/-- Writing the table keeps the latest table if its count is newer. -/
theorem TakesLatest.writeTable {ram : Ram Tag m} {w : World Tag m}
    (latest : TakesLatest cfg crypto w)
    (scratch : ram.scratchTable = otherTable ram.activeTable)
    (newer : w.fails w.ops = false → ∀ old, w.tables ram.activeTable = some old →
      Newer ram.scratchTable ram.objTable.data.swapCount old.data.swapCount) :
    Spec Op.handle (TakesLatest cfg crypto) psObjectTableFsWriteTable
      (fun _ ram' _ ↦ ram'.scratchTable = otherTable ram'.activeTable) ram w := by
  rw [psObjectTableFsWriteTable, spec_bind, spec_get]
  refine ⟨latest, ?_⟩
  rw [spec_bind]
  refine ⟨latest, ?_⟩
  cases fails : w.fails w.ops with
  | true =>
      rw [Op.handle, if_pos fails]
      exact ⟨latest.congr rfl rfl, latest.congr rfl rfl, scratch⟩
  | false =>
      rw [Op.handle, if_neg (by rw [fails]; exact Bool.false_ne_true)]
      dsimp only [Op.perform]
      have written : TakesLatest cfg crypto { w with
          tables := Function.update w.tables ram.scratchTable (some ram.objTable)
          last := some ram.scratchTable
          ops := w.ops + 1 } := by
        refine takesLatest_of_newer (Function.update_self ..) rfl fun old held ↦ ?_
        dsimp only at held
        rw [Function.update_of_ne (otherTable_ne _), scratch, otherTable_otherTable] at held
        exact newer fails old held
      refine ⟨written, ?_⟩
      dsimp only [onSuccess]
      rw [if_pos rfl, spec_bind, spec_modify]
      refine ⟨written, written, ?_⟩
      dsimp only
      rw [scratch, otherTable_otherTable]

omit [Inhabited Tag] in
/-- A save keeps the latest table if it writes a newer count. -/
theorem TakesLatest.saveTable {w : World Tag m} (latest : TakesLatest cfg crypto w)
    (ram : Ram Tag m)
    (scratch : ram.scratchTable = otherTable ram.activeTable)
    (newer : psCryptoGetIv ram.ivBuf ≠ none → w.fails w.ops = false →
      ∀ old, w.tables ram.activeTable = some old →
        Newer ram.scratchTable (nextSwapCount ram.objTable.data.swapCount) old.data.swapCount) :
    Spec Op.handle (TakesLatest cfg crypto) (psObjectTableSaveTable cfg crypto)
      (fun _ ram' _ ↦ ram'.scratchTable = otherTable ram'.activeTable) ram w := by
  rw [psObjectTableSaveTable, spec_bind, spec_modify]
  refine ⟨latest, ?_⟩
  rw [spec_bind, psObjectTableGenerateAuthTag, spec_bind, spec_get]
  refine ⟨latest, ?_⟩
  dsimp only [Ram.advance]
  cases get : psCryptoGetIv ram.ivBuf with
  | none => exact ⟨latest, latest, scratch⟩
  | some iv =>
      have some_iv : psCryptoGetIv ram.ivBuf ≠ none := by
        rw [get]
        rintro ⟨⟩
      dsimp only
      rw [spec_bind, spec_modify]
      refine ⟨latest, latest, ?_⟩
      dsimp only [onSuccess]
      rw [if_pos rfl]
      exact latest.writeTable scratch (newer some_iv)

omit [Inhabited Tag] in
/-- A boot leaves the choice as it is, and prepares the next save. -/
theorem TakesLatest.init {w : World Tag m} (latest : TakesLatest cfg crypto w) (ram : Ram Tag m) :
    Spec Op.handle (TakesLatest cfg crypto) (psObjectTableInit cfg crypto)
      (fun err ram' _ ↦ err = .success →
        ram'.scratchTable = otherTable ram'.activeTable) ram w := by
  rw [psObjectTableInit, spec_bind]
  refine ⟨latest, latest.getTable 0, ?_⟩
  have latest := latest.getTable 0
  dsimp only
  rw [spec_bind]
  refine ⟨latest, latest.getTable 1, ?_⟩
  have latest := latest.getTable 1
  dsimp only
  split
  · exact ⟨latest, by rintro ⟨⟩⟩
  · next active table chosen =>
      rw [spec_bind, spec_modify]
      refine ⟨latest, ?_⟩
      rw [spec_bind]
      refine ⟨latest, latest.removeTable _, ?_⟩
      have latest := latest.removeTable (otherTable active)
      dsimp only
      split
      · exact ⟨latest, fun _ ↦ rfl⟩
      · rw [spec_bind, spec_modify]
        exact ⟨latest, latest, fun _ ↦ rfl⟩

omit [Inhabited Tag] in
/-- An update keeps the latest table if its save writes a newer count. -/
theorem TakesLatest.update {ram : Ram Tag m} {w : World Tag m} (latest : TakesLatest cfg crypto w)
    (scratch : ram.scratchTable = otherTable ram.activeTable) (edit undo : Edit Tag m)
    (newer : psCryptoGetIv edit.ivBuf ≠ none → w.fails w.ops = false →
      ∀ old, w.tables ram.activeTable = some old →
        Newer ram.scratchTable (nextSwapCount ram.objTable.data.swapCount) old.data.swapCount) :
    Spec Op.handle (TakesLatest cfg crypto) (updateTable cfg crypto edit undo)
      (fun _ ram' _ ↦ ram'.scratchTable = otherTable ram'.activeTable) ram w := by
  rw [updateTable, spec_bind, spec_modify]
  refine ⟨latest, ?_⟩
  rw [spec_bind]
  refine (latest.saveTable (ram.edit edit) scratch newer).mono fun err ram' w' latest' kept ↦ ?_
  split
  · rw [spec_bind, spec_get]
    refine ⟨latest', ?_⟩
    exact ⟨latest', latest'.removeTable _, kept⟩
  · rw [spec_bind, spec_modify]
    exact ⟨latest', latest', kept⟩

/-- Creating the table keeps the latest table if a count of one is newer than the other count. -/
theorem TakesLatest.create {w : World Tag m} (latest : TakesLatest cfg crypto w) (ram : Ram Tag m)
    (newer : psCryptoGetIv ram.ivBuf ≠ none → w.fails w.ops = false →
      ∀ old, w.tables 1 = some old → Newer 0 1 old.data.swapCount) :
    Spec Op.handle (TakesLatest cfg crypto) (psObjectTableCreate cfg crypto)
      (fun _ _ _ ↦ True) ram w := by
  rw [psObjectTableCreate, spec_bind, spec_modify]
  exact ⟨latest, (latest.saveTable ram.created rfl newer).mono fun _ _ _ _ _ ↦ trivial⟩

/-! ## Runs -/

omit [Inhabited Tag] in
/-- An execution satisfies what its specification says of the end or of an interruption. -/
theorem execute_spec {p : TableM Tag m Status} (next : Status → Ram Tag m → Stage Tag m)
    {ram : Ram Tag m} {w : World Tag m} {C : World Tag m → Prop}
    {Q : Status → Ram Tag m → World Tag m → Prop} (spec : Spec Op.handle C p Q ram w)
    (cut : Option ℕ) : C (execute p next ram w cut).world ∧
      ∀ ram', (execute p next ram w cut).stage = .running ram' →
        ∃ err ram'', Q err ram'' (execute p next ram w cut).world ∧
          next err ram'' = .running ram' := by
  cases cut with
  | none =>
      obtain ⟨crash, post⟩ := Prog.Spec.run spec
      refine ⟨crash, fun ram' running ↦ ?_⟩
      dsimp only [execute] at running
      cases result : ((p ram).run Op.handle w).1 with
      | none =>
          rw [result] at running
          cases running
      | some value =>
          rw [result] at running
          exact ⟨value.1, value.2, post value result, running⟩
  | some n =>
      refine ⟨Prog.Spec.cut spec n, ?_⟩
      rintro _ ⟨⟩

/-- The invariant of the system. -/
structure MachineInv (cfg : Config) (crypto : Crypto Tag m) (x : Machine Tag m) : Prop where
  /-- The next boot takes the table of the latest save. -/
  latest : TakesLatest cfg crypto x.world
  /-- The next save writes the other file. -/
  scratch : ∀ ram, x.stage = .running ram → ram.scratchTable = otherTable ram.activeTable

omit [Inhabited Tag] in
theorem MachineInv.init {ram : Ram Tag m} {w : World Tag m} (latest : TakesLatest cfg crypto w)
    (fails : ℕ → Bool) (cut : Option ℕ) : MachineInv cfg crypto
      (execute (psObjectTableInit cfg crypto) .afterInit ram (w.arm fails) cut) := by
  have armed : TakesLatest cfg crypto (w.arm fails) := latest.congr rfl rfl
  obtain ⟨latest', post⟩ := execute_spec .afterInit (armed.init ram) cut
  refine ⟨latest', fun ram' running ↦ ?_⟩
  obtain ⟨err, ram'', kept, after⟩ := post ram' running
  rw [Stage.afterInit] at after
  split at after
  · next success =>
      cases after
      exact kept success
  · cases after

theorem machineInv_step {x y : Machine Tag m} {a : Action Tag m} (inv : MachineInv cfg crypto x)
    (newer : Distinguishable x a) (step_eq : step cfg crypto x a = some y) :
    MachineInv cfg crypto y := by
  obtain ⟨latest, scratch⟩ := inv
  cases a with
  | boot fails cut =>
      cases step_eq
      exact .init latest fails cut
  | create fails cut =>
      have created : ∀ ram, x.stage = .idle ram ∨ x.stage = .running ram → MachineInv cfg crypto
          (execute (psObjectTableCreate cfg crypto) (fun _ ram ↦ .idle ram) ram
            (x.world.arm fails) cut) := by
        intro ram stage
        by_cases now : cut = some 0
        · subst now
          refine ⟨?_, by rintro _ ⟨⟩⟩
          rw [execute, Prog.cut_zero]
          exact latest.congr rfl rfl
        · obtain ⟨latest', post⟩ := execute_spec (fun _ ram ↦ .idle ram)
            ((latest.congr rfl rfl : TakesLatest cfg crypto (x.world.arm fails)).create
              ram fun get works ↦ newer ram stage ⟨get, works, now⟩) cut
          refine ⟨latest', fun ram' running ↦ ?_⟩
          obtain ⟨_, _, -, after⟩ := post ram' running
          cases after
      rw [step] at step_eq
      split at step_eq
      · cases step_eq
      · next ram stage =>
          cases step_eq
          exact created ram (.inl stage)
      · next ram stage =>
          cases step_eq
          exact created ram (.inr stage)
  | prepare fails cut =>
      rw [step] at step_eq
      split at step_eq
      · cases step_eq
        exact .init latest fails cut
      · cases step_eq
  | update edit undo fails cut =>
      rw [step] at step_eq
      split at step_eq
      · next ram stage =>
          cases step_eq
          by_cases now : cut = some 0
          · subst now
            refine ⟨?_, by rintro _ ⟨⟩⟩
            rw [execute, Prog.cut_zero]
            exact latest.congr rfl rfl
          · obtain ⟨latest', post⟩ := execute_spec (fun _ ram ↦ .running ram)
              ((latest.congr rfl rfl : TakesLatest cfg crypto (x.world.arm fails)).update
                (scratch ram stage) edit undo fun get works ↦
                  newer ram stage ⟨get, works, now⟩) cut
            refine ⟨latest', fun ram' running ↦ ?_⟩
            obtain ⟨_, _, kept, after⟩ := post ram' running
            cases after
            exact kept
      · cases step_eq
  | powerOff =>
      cases step_eq
      exact ⟨latest, by rintro _ ⟨⟩⟩

/-- A boot takes the table of the latest save, in every run in which each save that reaches its file
writes a count that is newer than the one in the other file. -/
theorem takesLatest_of_distinguishable (cfg : Config) (crypto : Crypto Tag m) (x : Machine Tag m)
    (reaches : Run.Reaches (step cfg crypto) Distinguishable .blank x) :
    TakesLatest cfg crypto x.world := by
  have inv : MachineInv cfg crypto x :=
    reaches.invariant ⟨takesLatest_of_none (i := 0) rfl, by rintro _ ⟨⟩⟩
      fun _ _ _ ↦ machineInv_step
  exact inv.latest

end

/-! ## Runs without failed saves -/

/-- No save fails while the system goes on, and the storage is created when the second file is
missing. -/
def SavesWork (x : Machine Tag m) : Action Tag m → Prop
  | .create _ _ => x.world.tables 1 = none
  | .update edit _ fails cut => cut = none → psCryptoGetIv edit.ivBuf ≠ none ∧ fails 0 = false
  | _ => True

/-- The next count is newer than the one before it, also where it wraps. -/
theorem newer_nextSwapCount (file : Fin 2) (count : BitVec 8) :
    Newer file (nextSwapCount count) count := by
  by_cases wraps : count + 1 = psFlashDefaultVal
  · have last : count = 254 := by
      rw [psFlashDefaultVal] at wraps
      bv_omega
    subst last
    revert file
    decide
  · rw [nextSwapCount, if_neg wraps, Newer]
    split
    · next zero =>
        have erased : count = 255 := by bv_omega
        subst erased
        exact ⟨by decide, by rintro ⟨⟩⟩
    · split
      · next first =>
          subst first
          rfl
      · next positive =>
          left
          bv_omega

/-- The count in memory is the one in the active file. -/
def Agrees (ram : Ram Tag m) (w : World Tag m) : Prop :=
  ∀ table, w.tables ram.activeTable = some table →
    table.data.swapCount = ram.objTable.data.swapCount

section

variable {cfg : Config} {crypto : Crypto Tag m} {ram : Ram Tag m} {w : World Tag m}

omit [Inhabited Tag] in
theorem Agrees.removeTable (agrees : Agrees ram w) (i : Fin 2) :
    Agrees ram ((Op.removeTable i).handle w).2 := by
  simp only [Op.handle]
  split
  · exact agrees
  · simp only [Op.perform]
    split
    · exact agrees
    · intro table held
      dsimp only at held
      by_cases same : ram.activeTable = i
      · rw [same, Function.update_self] at held
        cases held
      · rw [Function.update_of_ne same] at held
        exact agrees table held

omit [Inhabited Tag] in
theorem getTable_eq_ok {i : Fin 2} {table : Table Tag m}
    (read : ((Op.getTable i).handle w).1 = .ok table) : w.tables i = some table := by
  simp only [Op.handle] at read
  split at read
  · cases read
  · simp only [Op.perform] at read
    split at read
    · cases read
    · next held =>
        cases read
        exact held

omit [Inhabited Tag] in
theorem handle_getTable (i : Fin 2) (w : World Tag m) :
    ((Op.getTable i).handle w).2.tables = w.tables := by
  simp only [Op.handle]
  split <;> rfl

omit [Inhabited Tag] in
theorem psSetActiveObjectTable_read {result0 result1 : Except Status (Table Tag m)} {active : Fin 2}
    {table : Table Tag m}
    (set : psSetActiveObjectTable cfg crypto result0 result1 = some (active, table)) :
    (active = 0 → result0 = .ok table) ∧ (active ≠ 0 → result1 = .ok table) := by
  rw [psSetActiveObjectTable.eq_def] at set
  split at set
  · split at set
    · split at set
      · cases set
        exact ⟨fun first ↦ by rw [if_pos first], fun second ↦ by rw [if_neg second]⟩
      · cases set
        exact ⟨fun _ ↦ rfl, fun second ↦ absurd rfl second⟩
    · split at set <;> cases set
      exact ⟨by rintro ⟨⟩, fun _ ↦ rfl⟩
  · split at set <;> cases set
    exact ⟨fun _ ↦ rfl, fun second ↦ absurd rfl second⟩
  · split at set <;> cases set
    exact ⟨by rintro ⟨⟩, fun _ ↦ rfl⟩
  · cases set

omit [Inhabited Tag] in
/-- A boot takes the count of the file that it takes. -/
theorem agrees_init (ram : Ram Tag m) (w : World Tag m) :
    Spec Op.handle (fun _ ↦ True) (psObjectTableInit cfg crypto)
      (fun err ram' w' ↦ err = .success → Agrees ram' w') ram w := by
  rw [psObjectTableInit, spec_bind]
  refine ⟨trivial, trivial, ?_⟩
  dsimp only
  rw [spec_bind]
  refine ⟨trivial, trivial, ?_⟩
  dsimp only
  split
  · exact ⟨trivial, by rintro ⟨⟩⟩
  · next active table chosen =>
      rw [spec_bind, spec_modify]
      refine ⟨trivial, ?_⟩
      have held : w.tables active = some table := by
        obtain ⟨read0, read1⟩ := psSetActiveObjectTable_read chosen
        by_cases first : active = 0
        · rw [first]
          exact getTable_eq_ok (read0 first)
        · rw [Fin.eq_one_of_ne_zero active first, ← handle_getTable 0 w]
          exact getTable_eq_ok (read1 first)
      rw [← handle_getTable 0 w, ← handle_getTable 1] at held
      rw [spec_bind]
      refine ⟨trivial, trivial, ?_⟩
      have agrees : Agrees { ram with
          objTable := table, activeTable := active, scratchTable := otherTable active } _ :=
        fun table' held' ↦ by cases held.symm.trans held'; rfl
      have agrees := agrees.removeTable (otherTable active)
      dsimp only
      split
      · exact ⟨trivial, fun _ ↦ agrees⟩
      · rw [spec_bind, spec_modify]
        exact ⟨trivial, trivial, fun _ ↦ agrees⟩

omit [Inhabited Tag] in
/-- An update whose save works leaves its count in memory and in the active file. -/
theorem agrees_update (edit undo : Edit Tag m) (get : psCryptoGetIv edit.ivBuf ≠ none)
    (works : w.fails w.ops = false) :
    Spec Op.handle (fun _ ↦ True) (updateTable cfg crypto edit undo) (fun _ ↦ Agrees) ram w := by
  obtain ⟨iv, get⟩ := Option.ne_none_iff_exists'.1 get
  rw [updateTable, spec_bind, spec_modify]
  refine ⟨trivial, ?_⟩
  rw [spec_bind, psObjectTableSaveTable, spec_bind, spec_modify]
  refine ⟨trivial, ?_⟩
  rw [spec_bind, psObjectTableGenerateAuthTag, spec_bind, spec_get]
  refine ⟨trivial, ?_⟩
  dsimp only [Ram.advance, Ram.edit]
  rw [get]
  dsimp only
  rw [spec_bind, spec_modify]
  refine ⟨trivial, trivial, ?_⟩
  dsimp only [onSuccess]
  rw [if_pos rfl, psObjectTableFsWriteTable, spec_bind, spec_get]
  refine ⟨trivial, ?_⟩
  rw [spec_bind]
  refine ⟨trivial, trivial, ?_⟩
  rw [Op.handle, if_neg (by rw [works]; exact Bool.false_ne_true)]
  dsimp only [Op.perform, onSuccess]
  rw [if_pos rfl, spec_bind, spec_modify]
  refine ⟨trivial, trivial, ?_⟩
  dsimp only
  rw [if_pos rfl, spec_bind, spec_get]
  refine ⟨trivial, trivial, trivial, Agrees.removeTable (fun table held ↦ ?_) _⟩
  dsimp only at held
  rw [Function.update_self] at held
  cases held
  rfl

end

/-- The invariant of runs without failed saves: the count in memory is the stored one. -/
def CountsAgree (x : Machine Tag m) : Prop := ∀ ram, x.stage = .running ram → Agrees ram x.world

omit [Inhabited Tag] in
theorem CountsAgree.distinguishable {x : Machine Tag m} {a : Action Tag m} (agree : CountsAgree x)
    (works : SavesWork x a) : Distinguishable x a := by
  cases a with
  | create fails cut =>
      intro ram _ _ old held
      cases held.symm.trans works
  | update edit undo fails cut =>
      intro ram stage _ old held
      rw [agree ram stage old held]
      exact newer_nextSwapCount ..
  | boot | prepare | powerOff => trivial

omit [Inhabited Tag] in
theorem countsAgree_init {cfg : Config} {crypto : Crypto Tag m} (ram : Ram Tag m) (w : World Tag m)
    (cut : Option ℕ) :
      CountsAgree (execute (psObjectTableInit cfg crypto) .afterInit ram w cut) := by
  intro ram' running
  obtain ⟨err, ram'', kept, after⟩ :=
    (execute_spec .afterInit (agrees_init ram w) cut).2 ram' running
  rw [Stage.afterInit] at after
  split at after <;> cases after
  next success => exact kept success

theorem CountsAgree.step {cfg : Config} {crypto : Crypto Tag m} {x y : Machine Tag m}
    {a : Action Tag m} (works : SavesWork x a) (step_eq : step cfg crypto x a = some y) :
    CountsAgree y := by
  cases a with
  | boot fails cut =>
      cases step_eq
      exact countsAgree_init .reset (x.world.arm fails) cut
  | create fails cut =>
      have idle (ram : Ram Tag m) : CountsAgree (execute (psObjectTableCreate cfg crypto)
          (fun _ ram ↦ .idle ram) ram (x.world.arm fails) cut) := by
        intro ram' running
        obtain ⟨_, _, -, after⟩ := (execute_spec _ (spec_true ..) cut).2 ram' running
        cases after
      rw [Swap.step] at step_eq
      split at step_eq <;> cases step_eq
      · exact idle _
      · exact idle _
  | prepare fails cut =>
      rw [Swap.step] at step_eq
      split at step_eq <;> cases step_eq
      exact countsAgree_init _ (x.world.arm fails) cut
  | update edit undo fails cut =>
      rw [Swap.step] at step_eq
      split at step_eq <;> cases step_eq
      intro ram' running
      cases cut with
      | some n => cases running
      | none =>
          obtain ⟨get, works⟩ := works rfl
          obtain ⟨_, _, kept, after⟩ := (execute_spec (fun _ ram ↦ .running ram)
            (agrees_update edit undo get works) none).2 ram' running
          cases after
          exact kept
  | powerOff =>
      cases step_eq
      rintro _ ⟨⟩

/-- In a run without failed saves every count that is written is newer than the one beside it. -/
theorem reaches_distinguishable {cfg : Config} {crypto : Crypto Tag m} {x : Machine Tag m}
    (reaches : Run.Reaches (step cfg crypto) SavesWork .blank x) :
    Run.Reaches (step cfg crypto) Distinguishable .blank x ∧ CountsAgree x := by
  induction reaches with
  | refl => exact ⟨.refl, by rintro _ ⟨⟩⟩
  | tail _ works step_eq ih =>
      exact ⟨ih.1.tail (ih.2.distinguishable works) step_eq, .step works step_eq⟩

/-! ## A small system -/

/-- Tags that name everything they authenticate. -/
def sampleTags : Crypto Code 1 where
  authTag label iv data := .pair (.ofLabel label) (.pair (.ofIv iv) (.pair (.nat data.version.toNat)
    (.pair (.nat data.swapCount.toNat)
      (.pair (.ofEntry (data.objDb 0)) (.ofEntry (data.objDb 1))))))
  authentic label iv data tag := decide (tag = .pair (.ofLabel label) (.pair (.ofIv iv)
    (.pair (.nat data.version.toNat) (.pair (.nat data.swapCount.toNat)
      (.pair (.ofEntry (data.objDb 0)) (.ofEntry (data.objDb 1)))))))

/-- The entries after an object has been set a number of times. -/
def sampleEdit (k : ℕ) : Edit Code 1 :=
  ⟨0, ⟨BitVec.ofNat 64 (2 * k), 0⟩, fun i ↦ if i = k % 2 then ⟨.nat k, 0, 7, 5⟩ else .empty⟩

/-- An object is set for the given time. -/
def sampleUpdate (fails : ℕ → Bool) (cut : Option ℕ) (k : ℕ) : Action Code 1 :=
  .update (sampleEdit k) (sampleEdit (k - 1)) fails cut

/-- The storage is created. -/
def sampleStart : List (Action Code 1) :=
  [.boot (fun _ ↦ false) none, .create (fun _ ↦ false) none, .prepare (fun _ ↦ false) none]

/-- The swap count is about to wrap when a save fails.  The next save writes a count of 1 beside one
of 254, and power is lost before the old table is removed. -/
theorem not_takesLatest :
    ¬∀ x, Run.Reaches (step sampleConfig sampleTags) (fun _ _ ↦ True) .blank x →
      TakesLatest sampleConfig sampleTags x.world := by
  intro latest
  have lost : (Run.exec (step sampleConfig sampleTags) .blank (sampleStart ++
      (List.range 253).map (sampleUpdate (fun _ ↦ false) none) ++
      [sampleUpdate (fun k ↦ k == 0) none 253, sampleUpdate (fun _ ↦ false) (some 1) 254])).any
      (fun x ↦ (x.world.tables 0).any (fun table0 ↦ (x.world.tables 1).any fun table1 ↦
        tableValid sampleConfig sampleTags (.ok table0) &&
        tableValid sampleConfig sampleTags (.ok table1) &&
        (psSetActiveObjectTable sampleConfig sampleTags (.ok table0) (.ok table1)).map Prod.fst ≠
          x.world.last)) = true := by
    decide +kernel
  obtain ⟨x, run, lost⟩ := (Option.any_eq_true ..).1 lost
  obtain ⟨table0, here0, lost⟩ := (Option.any_eq_true ..).1 lost
  obtain ⟨table1, here1, lost⟩ := (Option.any_eq_true ..).1 lost
  obtain ⟨valid, other⟩ := Bool.and_eq_true_iff.1 lost
  obtain ⟨valid0, valid1⟩ := Bool.and_eq_true_iff.1 valid
  exact of_decide_eq_true other (latest x (Run.exec_reaches run (Run.allowed_true ..)) table0 table1
    here0 here1 valid0 valid1)

/-- Every count that an action may write is newer than the one in the other file. -/
def writesNewer (x : Machine Code 1) : Action Code 1 → Bool
  | .create _ _ => (x.world.tables 1).all fun old ↦ Newer 0 1 old.data.swapCount
  | .update _ _ _ _ =>
      match x.stage with
      | .running ram => (x.world.tables ram.activeTable).all fun old ↦
          Newer ram.scratchTable (nextSwapCount ram.objTable.data.swapCount) old.data.swapCount
      | _ => true
  | _ => true

theorem distinguishable_of_writesNewer (x : Machine Code 1) (a : Action Code 1)
    (newer : writesNewer x a = true) : Distinguishable x a := by
  cases a with
  | create fails cut =>
      intro ram stage lands old held
      exact of_decide_eq_true ((Option.all_eq_true ..).1 newer old held)
  | update edit undo fails cut =>
      intro ram stage lands old held
      rw [writesNewer, stage] at newer
      exact of_decide_eq_true ((Option.all_eq_true ..).1 newer old held)
  | boot fails cut => trivial
  | prepare fails cut => trivial
  | powerOff => trivial

/-- Power is lost before the first update removes the table of the creation. -/
theorem takesLatest_sampleUpdate :
    ∃ x, Run.exec (step sampleConfig sampleTags) .blank
        (sampleStart ++ [sampleUpdate (fun _ ↦ false) (some 1) 0]) = some x ∧
      TakesLatest sampleConfig sampleTags x.world := by
  have runs : (Run.exec (step sampleConfig sampleTags) .blank
      (sampleStart ++ [sampleUpdate (fun _ ↦ false) (some 1) 0])).isSome = true := by
    decide +kernel
  have newer : Run.allowedBy (step sampleConfig sampleTags) writesNewer .blank
      (sampleStart ++ [sampleUpdate (fun _ ↦ false) (some 1) 0]) = true := by
    decide +kernel
  obtain ⟨x, run⟩ := Option.isSome_iff_exists.1 runs
  exact ⟨x, run, takesLatest_of_distinguishable sampleConfig sampleTags x
    (Run.exec_reaches run (Run.allowed_of_allowedBy distinguishable_of_writesNewer newer))⟩

end TrustedFirmwareM.Ps.Swap
