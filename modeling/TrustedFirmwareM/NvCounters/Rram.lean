import TrustedFirmwareM.NvCounters.Service
import TrustedFirmwareM.Lib.Program
import TrustedFirmwareM.Lib.Run

/-!
# Non-volatile counters in RRAM

Each counter and its backup are records with a checksum, and a flag tells that they have been
initialised.  A record is torn while it is programmed: if power is lost then, the record holds
anything.
-/

namespace TrustedFirmwareM.NvCounters.Rram

open Program

/-- `ifx_rram_counter_t`. -/
structure Record where
  /-- The value. -/
  value : Word
  /-- The checksum. -/
  checksum : Word
  deriving DecidableEq

/-- The records of the area. -/
inductive Cell (n : ℕ)
  /-- `rram_nv_counters`. -/
  | counter (i : Fin n)
  /-- `rram_nv_counters_backup`. -/
  | backup (i : Fin n)
  /-- `rram_nv_counters_init_done_flag`. -/
  | flag
  deriving DecidableEq

/-- The platform, with `PLAT_NV_COUNTER_MAX = n` counters. -/
structure Config where
  /-- `IFX_RRAM_NV_COUNTERS_SECTOR_SIZE`. -/
  sectorSize : ℕ
  /-- `IFX_RRAM_NV_COUNTERS_AREA_SIZE`. -/
  areaSize : ℕ
  /-- `ifx_se_crc32d6a` of a value, with the address as its initial value. -/
  crc : Word → Word → Word

variable {n : ℕ}

/-- `IFX_ALIGN_UP_TO`. -/
def alignUpTo (size alignment : ℕ) : ℕ := (size + alignment - 1) / alignment * alignment

/-- The address of a record.  A record takes 8 bytes, and the flag has a sector of its own. -/
def Cell.address (cfg : Config) : Cell n → Word
  | .counter i => BitVec.ofNat 32 (8 * i)
  | .backup i => BitVec.ofNat 32 (8 * n + 8 * i)
  | .flag => BitVec.ofNat 32 (alignUpTo (16 * n) cfg.sectorSize)

/-- `IFX_RRAM_NV_COUNTERS_EXPECTED_AREA_SIZE`. -/
def expectedAreaSize (cfg : Config) (n : ℕ) : ℕ :=
  alignUpTo (16 * n) cfg.sectorSize + cfg.sectorSize

/-- `IFX_NVM_INIT_DONE_FLAG`. -/
def ifxNvmInitDoneFlag : Word := 0xAA5533CC

/-- `ifx_rram_counter_is_checksum_valid`, for the record of a cell. -/
def ifxRramCounterIsChecksumValid (cfg : Config) (cell : Cell n) (record : Record) : Bool :=
  cfg.crc record.value (cell.address cfg) == record.checksum

/-- The counter or its backup. -/
def cellOf (i : Fin n) (isBackup : Bool) : Cell n := if isBackup then .backup i else .counter i

/-- Operations of the driver. -/
inductive Op (n : ℕ)
  /-- `Initialize`. -/
  | init
  /-- `ReadData` of a record. -/
  | readData (cell : Cell n)
  /-- `ProgramData` of a record begins. -/
  | beginProgram (cell : Cell n)
  /-- `ProgramData` of a record ends. -/
  | endProgram (cell : Cell n) (record : Record)

/-- What the operations of the driver return.  There is no value if they fail. -/
abbrev Op.Result : Op n → Type
  | .readData _ => Option Record
  | .beginProgram _ => Unit
  | .init | .endProgram .. => Bool

/-- The area. -/
structure World (n : ℕ) where
  /-- The records. -/
  area : Cell n → Record
  /-- What a record holds while it is programmed. -/
  torn : Cell n → Record

/-- The operations of the driver, which do not fail. -/
def Op.handle : (o : Op n) → World n → Op.Result o × World n
  | .init, w => (true, w)
  | .readData cell, w => (some (w.area cell), w)
  | .beginProgram cell, w => ((), { w with area := Function.update w.area cell (w.torn cell) })
  | .endProgram cell record, w => (true, { w with area := Function.update w.area cell record })

/-- A function of the counters.  It has no memory that outlives it. -/
abbrev NvM (n : ℕ) := Proc Unit (Op n) Op.Result

/-- Issue an operation of the driver. -/
def call (o : Op n) : NvM n o.Result := Proc.call o

/-- `ReadData`. -/
def readData (cell : Cell n) : NvM n (Option Record) := call (.readData cell)

/-- `ProgramData`. -/
def programData (cell : Cell n) (record : Record) : NvM n Bool := do
  let _ ← call (.beginProgram cell)
  call (.endProgram cell record)

/-- `ifx_rram_read_nv_counter_or_backup`. -/
def ifxRramReadNvCounterOrBackup (cfg : Config) (counterIdx : ℕ) (isBackup : Bool) :
    NvM n (PlatErr × Word) :=
  if h : counterIdx < n then do
    let cell := cellOf ⟨counterIdx, h⟩ isBackup
    match (← readData cell) with
    | none => pure (.systemErr, 0)
    | some record =>
        if ifxRramCounterIsChecksumValid cfg cell record then pure (.success, record.value)
        else pure (.maxValue, 0)
  else pure (.invalidInput, 0)

/-- `ifx_rram_program_nv_counter_or_backup`. -/
def ifxRramProgramNvCounterOrBackup (cfg : Config) (counterIdx : Fin n) (value : Word)
    (isBackup : Bool) : NvM n PlatErr := do
  let cell := cellOf counterIdx isBackup
  let programmed ← programData cell ⟨value, cfg.crc value (cell.address cfg)⟩
  if !programmed then pure .systemErr
  else
    let (status, newValue) ← ifxRramReadNvCounterOrBackup cfg counterIdx isBackup
    if status ≠ .success then pure status
    else if newValue ≠ value then pure .systemErr
    else pure .success

/-- `ifx_rram_restore_counter_from_backup`. -/
def ifxRramRestoreCounterFromBackup (cfg : Config) (counterIdx : Fin n) : NvM n PlatErr := do
  let (status, backupVal) ← ifxRramReadNvCounterOrBackup cfg counterIdx true
  if status ≠ .success then pure status
  else ifxRramProgramNvCounterOrBackup cfg counterIdx backupVal false

/-- One round of `ifx_rram_recover_rram_nv_counters`. -/
def recoverCounter (cfg : Config) (counterIdx : Fin n) : NvM n PlatErr := do
  let (statusBackup, backupVal) ← ifxRramReadNvCounterOrBackup cfg counterIdx true
  if statusBackup ≠ .success ∧ statusBackup ≠ .maxValue then pure statusBackup
  else
    let (statusCounter, counterVal) ← ifxRramReadNvCounterOrBackup cfg counterIdx false
    if statusCounter ≠ .success ∧ statusCounter ≠ .maxValue then pure statusCounter
    else if statusBackup ≠ .success ∧ statusCounter ≠ .success then pure .systemErr
    -- the backup was being written, and it is written again with the next value
    else if statusBackup ≠ .success ∧ statusCounter = .success then pure .success
    -- the counter was being written
    else if statusBackup = .success ∧ statusCounter ≠ .success then
      ifxRramRestoreCounterFromBackup cfg counterIdx
    -- the backup had been written, and the counter had not
    else if counterVal < backupVal then ifxRramRestoreCounterFromBackup cfg counterIdx
    else pure .success

/-- A loop over counters that stops at the first failure. -/
def forCounters (body : Fin n → NvM n PlatErr) : List (Fin n) → NvM n PlatErr
  | [] => pure .success
  | i :: rest => do
      let status ← body i
      if status ≠ .success then pure status else forCounters body rest

/-- `ifx_rram_recover_rram_nv_counters`. -/
def ifxRramRecoverRramNvCounters (cfg : Config) : NvM n PlatErr :=
  forCounters (recoverCounter cfg) (List.finRange n)

/-- One round of `ifx_rram_clear_counters_and_backups`. -/
def clearCounter (cfg : Config) (counterIdx : Fin n) : NvM n PlatErr := do
  let status ← ifxRramProgramNvCounterOrBackup cfg counterIdx 0 true
  if status ≠ .success then pure status
  else ifxRramProgramNvCounterOrBackup cfg counterIdx 0 false

/-- `ifx_rram_clear_counters_and_backups`. -/
def ifxRramClearCountersAndBackups (cfg : Config) : NvM n PlatErr :=
  forCounters (clearCounter cfg) (List.finRange n)

/-- `tfm_plat_init_nv_counter`. -/
def tfmPlatInitNvCounter (cfg : Config) : NvM n PlatErr := do
  if cfg.areaSize < expectedAreaSize cfg n then pure .systemErr
  else
    let initialized ← call .init
    if !initialized then pure .systemErr
    else
      match (← readData .flag) with
      | none => pure .systemErr
      | some counter =>
          if counter.value ≠ ifxNvmInitDoneFlag then
            let status ← ifxRramClearCountersAndBackups cfg
            if status ≠ .success then pure status
            else
              let programmed ← programData .flag { counter with value := ifxNvmInitDoneFlag }
              if !programmed then pure .systemErr else ifxRramRecoverRramNvCounters cfg
          else ifxRramRecoverRramNvCounters cfg

/-- `tfm_plat_read_nv_counter`. -/
def tfmPlatReadNvCounter (cfg : Config) (counterId size : ℕ) : NvM n (PlatErr × Word) :=
  if size ≠ 4 then pure (.invalidInput, 0) else ifxRramReadNvCounterOrBackup cfg counterId false

/-- `tfm_plat_set_nv_counter`. -/
def tfmPlatSetNvCounter (cfg : Config) (counterId : ℕ) (value : Word) : NvM n PlatErr := do
  let (status, oldValue) ← ifxRramReadNvCounterOrBackup cfg counterId false
  if status ≠ .success then pure status
  else if value < oldValue then pure .invalidInput
  else if value = oldValue then pure .success
  else if oldValue = BitVec.allOnes 32 then pure .maxValue
  else if h : counterId < n then
    let status ← ifxRramProgramNvCounterOrBackup cfg ⟨counterId, h⟩ value true
    if status ≠ .success then pure status
    else ifxRramProgramNvCounterOrBackup cfg ⟨counterId, h⟩ value false
  else pure .invalidInput

/-- `tfm_plat_increment_nv_counter`. -/
def tfmPlatIncrementNvCounter (cfg : Config) (counterId : ℕ) : NvM n PlatErr := do
  let (status, securityCnt) ← tfmPlatReadNvCounter cfg counterId 4
  if status ≠ .success then pure status
  else if securityCnt = BitVec.allOnes 32 then pure .maxValue
  else tfmPlatSetNvCounter cfg counterId (securityCnt + 1)

end TrustedFirmwareM.NvCounters.Rram
