import TrustedFirmwareM.NvCounters.Service
import TrustedFirmwareM.Lib.Program
import TrustedFirmwareM.Lib.Run

/-!
# Non-volatile counters in flash

All counters are in one record with a checksum, and a second sector holds a backup of it.  A sector
holds anything while it is erased or programmed, and the driver may report an error.
-/

namespace TrustedFirmwareM.NvCounters.Flash

open Program

/-- `ifx_nv_counters_t`, with `IFX_NUM_NV_COUNTERS = n`. -/
structure Record (n : ℕ) where
  /-- The checksum. -/
  checksum : Word
  /-- Watermark to indicate if the counters have been initialised. -/
  initValue : Word
  /-- The counters. -/
  counters : Fin n → Word

/-- The sectors of the area. -/
inductive Sector
  /-- `IFX_FLASH_NV_COUNTERS_AREA_OFFSET`. -/
  | main
  /-- `IFX_FLASH_NV_COUNTERS_BACKUP_OFFSET`. -/
  | backup
  deriving DecidableEq

/-- The platform. -/
structure Config (n : ℕ) where
  /-- `ifx_se_crc32d6a` of the counters. -/
  crc : (Fin n → Word) → Word
  /-- What an erased sector reads as. -/
  erased : Record n

/-- `IFX_NV_COUNTERS_INITIALIZED`. -/
def ifxNvCountersInitialized : Word := 0xC0DE0042

variable {n : ℕ}

/-- `ifx_flash_counters_valid`. -/
def ifxFlashCountersValid (cfg : Config n) (nvCounters : Record n) : Bool :=
  nvCounters.initValue == ifxNvCountersInitialized &&
    cfg.crc nvCounters.counters == nvCounters.checksum

/-- `ifx_flash_counter_set_checksum`. -/
def ifxFlashCounterSetChecksum (cfg : Config n) (nvCounters : Record n) : Record n :=
  { nvCounters with checksum := cfg.crc nvCounters.counters }

/-- How a call of the driver fails. -/
inductive Fault
  /-- Nothing is done. -/
  | refused
  /-- The sector is left as it is in the middle of the call. -/
  | broken
  /-- The call has done its work all the same. -/
  | late
  deriving DecidableEq

/-- Operations of the driver. -/
inductive Op (n : ℕ)
  /-- `Initialize`. -/
  | init
  /-- `ReadData` of a whole record. -/
  | readData (sector : Sector)
  /-- `ReadData` of a counter. -/
  | readCounter (i : Fin n)
  /-- `EraseSector` begins. -/
  | beginErase (sector : Sector)
  /-- `EraseSector` ends. -/
  | endErase (sector : Sector)
  /-- `ProgramData` begins. -/
  | beginProgram (sector : Sector)
  /-- `ProgramData` ends. -/
  | endProgram (sector : Sector) (record : Record n)

/-- What the operations of the driver return.  There is no value if they fail. -/
abbrev Op.Result : Op n → Type
  | .readData _ => Option (Record n)
  | .readCounter _ => Option Word
  | .beginErase _ | .beginProgram _ => Unit
  | .init | .endErase _ | .endProgram .. => Bool

/-- The records of the area. -/
abbrev Area (n : ℕ) := Sector → Record n

/-- The driver and the area. -/
structure World (n : ℕ) where
  /-- The records. -/
  area : Area n
  /-- What a sector holds while it is erased or programmed. -/
  torn : Area n
  /-- The number of calls so far. -/
  calls : ℕ
  /-- The call that fails, if any. -/
  fault : Option (ℕ × Fault)

/-- The way in which the next call fails, if it does. -/
def World.next (w : World n) : Option Fault :=
  w.fault.bind fun (call, fault) ↦ if call = w.calls then some fault else none

/-- Write a sector. -/
def World.put (w : World n) (sector : Sector) (record : Record n) : World n :=
  { w with area := Function.update w.area sector record }

/-- A call is over. -/
def World.tick (w : World n) : World n := { w with calls := w.calls + 1 }

/-- A call that changes a sector begins. -/
def World.tear (w : World n) (sector : Sector) : World n :=
  if w.next = some .refused then w else w.put sector (w.torn sector)

/-- A call that changes a sector ends. -/
def World.finish (w : World n) (sector : Sector) (record : Record n) : Bool × World n :=
  match w.next with
  | none => (true, (w.put sector record).tick)
  | some .late => (false, (w.put sector record).tick)
  | some _ => (false, w.tick)

/-- The operations of the driver. -/
def Op.handle (cfg : Config n) : (o : Op n) → World n → Op.Result o × World n
  | .init, w => (w.next.isNone, w.tick)
  | .readData sector, w => (if w.next.isNone then some (w.area sector) else none, w.tick)
  | .readCounter i, w => (if w.next.isNone then some ((w.area .main).counters i) else none, w.tick)
  | .beginErase sector, w | .beginProgram sector, w => ((), w.tear sector)
  | .endErase sector, w => w.finish sector cfg.erased
  | .endProgram sector record, w => w.finish sector record

/-- A function of the counters.  It has no memory that outlives it. -/
abbrev NvM (n : ℕ) := Proc Unit (Op n) Op.Result

/-- Issue an operation of the driver. -/
def call (o : Op n) : NvM n o.Result := Proc.call o

/-- `ReadData`. -/
def readData (sector : Sector) : NvM n (Option (Record n)) := call (.readData sector)

/-- `EraseSector`. -/
def eraseSector (sector : Sector) : NvM n Bool := do
  let _ ← call (.beginErase sector)
  call (.endErase sector)

/-- `ProgramData`. -/
def programData (sector : Sector) (record : Record n) : NvM n Bool := do
  let _ ← call (.beginProgram sector)
  call (.endProgram sector record)

/-- The end of `tfm_plat_init_nv_counter` and `tfm_plat_set_nv_counter`: write the main sector. -/
def programMain (nvCounters : Record n) : NvM n PlatErr := do
  let programmed ← programData .main nvCounters
  if !programmed then pure .systemErr else pure .success

/-- `tfm_plat_init_nv_counter`. -/
def tfmPlatInitNvCounter (cfg : Config n) : NvM n PlatErr := do
  let initialized ← call .init
  if !initialized then pure .systemErr
  else
    match (← readData .main) with
    | none => pure .systemErr
    | some nvCounters =>
        if ifxFlashCountersValid cfg nvCounters then pure .success
        else
          match (← readData .backup) with
          | none => pure .systemErr
          | some nvCounters =>
              let erased ← eraseSector .main
              if !erased then pure .systemErr
              else if nvCounters.initValue ≠ ifxNvCountersInitialized then
                -- main and backup are invalid
                programMain (ifxFlashCounterSetChecksum cfg
                  { nvCounters with initValue := ifxNvCountersInitialized, counters := fun _ ↦ 0 })
              else if !ifxFlashCountersValid cfg nvCounters then pure .systemErr
              else programMain nvCounters

/-- `tfm_plat_read_nv_counter`. -/
def tfmPlatReadNvCounter (counterId size : ℕ) : NvM n (PlatErr × Word) :=
  if h : counterId < n then
    if size ≠ 4 then pure (.systemErr, 0)
    else do
      match (← (call (.readCounter ⟨counterId, h⟩) : NvM n (Option Word))) with
      | none => pure (.systemErr, 0)
      | some value => pure (.success, value)
  else pure (.invalidInput, 0)

/-- `tfm_plat_set_nv_counter`. -/
def tfmPlatSetNvCounter (cfg : Config n) (counterId : ℕ) (value : Word) : NvM n PlatErr :=
  if h : counterId < n then do
    match (← readData .main) with
    | none => pure .systemErr
    | some nvCounters =>
        if value = nvCounters.counters ⟨counterId, h⟩ then pure .success
        else if value < nvCounters.counters ⟨counterId, h⟩ then pure .invalidInput
        else
          let erased ← eraseSector .backup
          if !erased then pure .systemErr
          else
            let nvCounters := ifxFlashCounterSetChecksum cfg
              { nvCounters with
                counters := Function.update nvCounters.counters ⟨counterId, h⟩ value }
            let programmed ← programData .backup nvCounters
            if !programmed then pure .systemErr
            else
              let erased ← eraseSector .main
              if !erased then pure .systemErr else programMain nvCounters
  else pure .invalidInput

/-- `tfm_plat_increment_nv_counter`. -/
def tfmPlatIncrementNvCounter (cfg : Config n) (counterId : ℕ) : NvM n PlatErr := do
  let (err, securityCnt) ← tfmPlatReadNvCounter counterId 4
  if err ≠ .success then pure err
  else if securityCnt = BitVec.allOnes 32 then pure .maxValue
  else tfmPlatSetNvCounter cfg counterId (securityCnt + 1)

end TrustedFirmwareM.NvCounters.Flash
