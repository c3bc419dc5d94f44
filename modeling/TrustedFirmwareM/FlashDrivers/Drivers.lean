import TrustedFirmwareM.Lib.ByteMemory
import Mathlib.Tactic.SplitIfs

/-!
# Flash and RRAM drivers

An instance of a driver handles a region of a device.  Callers see sectors and program units; flash
is programmed in rows, and RRAM is erased in blocks.
-/

namespace TrustedFirmwareM.FlashDrivers

/-- `uint32_t`. -/
abbrev Word := BitVec 32

/-- `ARM_DRIVER_OK`. -/
def armDriverOk : ℤ := 0

/-- `ARM_DRIVER_ERROR`. -/
def armDriverError : ℤ := -1

/-- `ARM_DRIVER_ERROR_BUSY`. -/
def armDriverErrorBusy : ℤ := -2

/-- `ARM_DRIVER_ERROR_TIMEOUT`. -/
def armDriverErrorTimeout : ℤ := -3

/-- `ARM_DRIVER_ERROR_UNSUPPORTED`. -/
def armDriverErrorUnsupported : ℤ := -4

/-- `ARM_DRIVER_ERROR_PARAMETER`. -/
def armDriverErrorParameter : ℤ := -5

/-- `ARM_DRIVER_ERROR_SPECIFIC`. -/
def armDriverErrorSpecific : ℤ := -6

/-- `ARM_FLASH_INFO`. -/
structure FlashInfo where
  /-- `sector_info` is `NULL`. -/
  uniform : Bool
  /-- `sector_count`. -/
  sectorCount : Word
  /-- `sector_size`. -/
  sectorSize : Word
  /-- `page_size`. -/
  pageSize : Word
  /-- `program_unit`. -/
  programUnit : Word
  /-- `erased_value`. -/
  erasedValue : BitVec 8

/-- `ifx_driver_flash_obj_t` and `ifx_driver_rram_obj_t`. -/
structure Obj where
  /-- `start_address`. -/
  startAddress : Word
  /-- `flash_info`. -/
  flashInfo : FlashInfo

/-! ## Both drivers -/

/-- `ifx_flash_driver_validate_region`. -/
def ifxFlashDriverValidateRegion (flashInfo : FlashInfo) (address size : Word) : ℤ :=
  let regionSize := flashInfo.sectorSize * flashInfo.sectorCount
  if regionSize < size ∨ size = 0 then armDriverErrorParameter
  else if regionSize ≤ address then armDriverErrorParameter
  else if regionSize - size < address then armDriverErrorParameter
  else armDriverOk

/-- `ifx_flash_driver_initialize`. -/
def ifxFlashDriverInitialize (flashInfo : FlashInfo) (startAddress memBlockSize : Word) : ℤ :=
  if startAddress % memBlockSize ≠ 0 then armDriverErrorParameter
  else if !flashInfo.uniform then armDriverErrorParameter
  else if flashInfo.sectorCount = 0 then armDriverErrorParameter
  else if flashInfo.sectorSize = 0 ∨ flashInfo.sectorSize % memBlockSize ≠ 0 then
    armDriverErrorParameter
  else if flashInfo.pageSize = 0 ∨ flashInfo.pageSize % memBlockSize ≠ 0 then
    armDriverErrorParameter
  else if flashInfo.programUnit = 0 then armDriverErrorParameter
  else armDriverOk

/-- The libraries of the devices, and how the drivers are built. -/
structure Pdl where
  /-- `CY_FLASH_SIZEOF_ROW`. -/
  rowSize : ℕ
  /-- Rows divide the address space. -/
  row_dvd : rowSize ∣ 2 ^ 32
  /-- A row is not all of it. -/
  row_lt : rowSize < 2 ^ 32
  /-- `CY_RRAM_BLOCK_SIZE_BYTES`. -/
  blockSize : ℕ
  /-- There are bytes in a block. -/
  block_pos : 0 < blockSize
  /-- It is a number of 32 bits. -/
  block_lt : blockSize < 2 ^ 32
  /-- `IFX_DRIVER_RRAM_PC_LOCK_RETRIES`. -/
  retries : ℕ
  /-- `TFM_FIH_PROFILE_ON`. -/
  fih : Bool

/-- A call that fails, and what it leaves where it should have written. -/
structure Fault (φ : Type) where
  /-- The status. -/
  status : φ
  /-- The bytes. -/
  left : ℕ → BitVec 8

/-- The device. -/
structure Machine (φ : Type) where
  /-- Its contents, as they are read. -/
  memory : ByteMemory
  /-- The ranges that have been read or written, from an address on. -/
  accesses : List (Word × ℕ)
  /-- The number of calls of its library. -/
  calls : ℕ
  /-- The calls that fail, by their number. -/
  fault : ℕ → Option (Fault φ)

namespace Machine

variable {φ : Type}

/-- `memcpy` from the device. -/
def read (s : Machine φ) (base : Word) (len : ℕ) : List (BitVec 8) × Machine φ :=
  (s.memory.read base len, { s with accesses := s.accesses ++ [(base, len)] })

/-- A call of the library that writes bytes.  There is a status if it fails. -/
def call (s : Machine φ) (base : Word) (bytes : List (BitVec 8)) : Option φ × Machine φ :=
  let s' := { s with accesses := s.accesses ++ [(base, bytes.length)], calls := s.calls + 1 }
  match s.fault s.calls with
  | some f =>
      (some f.status,
        { s' with memory := s.memory.write base ((List.range bytes.length).map f.left) })
  | none => (none, { s' with memory := s.memory.write base bytes })

end Machine

variable (P : Pdl)

/-! ## Flash -/

/-- `cy_en_flashdrv_status_t`, without success. -/
inductive FlashStatus
  /-- `CY_FLASH_DRV_IPC_BUSY`. -/
  | ipcBusy
  /-- `CY_FLASH_DRV_INVALID_INPUT_PARAMETERS`. -/
  | invalidInputParameters
  /-- `CY_FLASH_DRV_ERR_UNC`. -/
  | errUnc
  /-- Others. -/
  | other

/-- `IFX_DRIVER_FLASH_ERASE_VALUE`. -/
def ifxDriverFlashEraseValue : BitVec 8 := 0xFF

/-- `IFX_DRIVER_FLASH_PROGRAM_UNIT`. -/
def ifxDriverFlashProgramUnit : ℕ := 1

/-- `ifx_flashdrv_to_regular_status`. -/
def ifxFlashdrvToRegularStatus : Option FlashStatus → ℤ
  | none => armDriverOk
  | some .ipcBusy => armDriverErrorBusy
  | some .invalidInputParameters => armDriverErrorParameter
  | some _ => armDriverError

/-- `Cy_Flash_EraseRow`. -/
def cyFlashEraseRow (s : Machine FlashStatus) (rowAddr : Word) :
    Option FlashStatus × Machine FlashStatus :=
  s.call rowAddr (List.replicate P.rowSize ifxDriverFlashEraseValue)

/-- `Cy_Flash_ProgramRow`. -/
def cyFlashProgramRow (s : Machine FlashStatus) (rowAddr : Word) (data : List (BitVec 8)) :
    Option FlashStatus × Machine FlashStatus :=
  s.call rowAddr data

/-- `ifx_driver_flash_initialize`. -/
def ifxDriverFlashInitialize (obj : Obj) (cbEvent : Bool) : ℤ :=
  if cbEvent then armDriverErrorUnsupported
  else ifxFlashDriverInitialize obj.flashInfo obj.startAddress (BitVec.ofNat 32 P.rowSize)

/-- `ifx_driver_flash_read_data`, into a buffer that is `NULL` or not. -/
def ifxDriverFlashReadData (obj : Obj) (addr cnt : Word) (null : Bool) (s : Machine FlashStatus) :
    ℤ × Machine FlashStatus :=
  let size := cnt * BitVec.ofNat 32 ifxDriverFlashProgramUnit
  let result := ifxFlashDriverValidateRegion obj.flashInfo addr size
  if result ≠ armDriverOk then (result, s)
  else if null then (armDriverErrorParameter, s)
  else (cnt.toInt, (s.read (obj.startAddress + addr) size.toNat).2)

/-- `chunk_size`. -/
def chunkSize (offset size : ℕ) : ℕ :=
  if P.rowSize < (offset + size) % 2 ^ 32 then P.rowSize - offset else size

variable {P} in
theorem chunkSize_bounds {offset size : ℕ} (offset_lt : offset < P.rowSize) (pos : 0 < size)
    (size_lt : size < 2 ^ 32) : 0 < chunkSize P offset size ∧ chunkSize P offset size ≤ size := by
  have row_lt := P.row_lt
  rw [chunkSize]
  split_ifs <;> omega

theorem Pdl.row_pos : 0 < P.rowSize := Nat.pos_of_dvd_of_pos P.row_dvd (Nat.two_pow_pos 32)

/-- A turn of the loop of `ifx_driver_flash_program_data`: a row is read, changed and programmed. -/
def programChunk (data : ℕ → BitVec 8) (address : Word) (dataPtr chunk : ℕ)
    (s : Machine FlashStatus) : Option FlashStatus × Machine FlashStatus :=
  let offset := address.toNat % P.rowSize
  let rowAddress := BitVec.ofNat 32 (address.toNat / P.rowSize * P.rowSize)
  let (progBuf, s) := s.read rowAddress P.rowSize
  let progBuf := progBuf.take offset ++ (List.range chunk).map (fun i ↦ data (dataPtr + i)) ++
    progBuf.drop (offset + chunk)
  cyFlashProgramRow s rowAddress progBuf

/-- The loop of `ifx_driver_flash_program_data`. -/
def programLoop (data : ℕ → BitVec 8) (status : Option FlashStatus) (address : Word) (dataPtr : ℕ)
    (size : Word) (s : Machine FlashStatus) : Option FlashStatus × Machine FlashStatus :=
  if size = 0 then (status, s)
  else
    let chunk := chunkSize P (address.toNat % P.rowSize) size.toNat
    match programChunk P data address dataPtr chunk s with
    | (some e, s) => (some e, s)
    | (none, s) =>
        programLoop data none (address + BitVec.ofNat 32 chunk) (dataPtr + chunk)
          (size - BitVec.ofNat 32 chunk) s
termination_by size.toNat
decreasing_by
  have pos : 0 < size.toNat := by
    bv_omega
  have bounds := chunkSize_bounds (Nat.mod_lt address.toNat P.row_pos) pos size.isLt
  bv_omega

/-- `ifx_driver_flash_program_data`. -/
def ifxDriverFlashProgramData (obj : Obj) (addr : Word) (data : ℕ → BitVec 8) (cnt : Word)
    (s : Machine FlashStatus) : ℤ × Machine FlashStatus :=
  let size := cnt * BitVec.ofNat 32 ifxDriverFlashProgramUnit
  let result := ifxFlashDriverValidateRegion obj.flashInfo addr size
  if result ≠ armDriverOk then (result, s)
  else if size % obj.flashInfo.programUnit ≠ 0 then (armDriverErrorParameter, s)
  else
    match programLoop P data (some .errUnc) (obj.startAddress + addr) 0 size s with
    | (none, s) => (cnt.toInt, s)
    | (some e, s) => (ifxFlashdrvToRegularStatus (some e), s)

/-- `ifx_driver_flash_erase_sector`. -/
def ifxDriverFlashEraseSector (obj : Obj) (addr : Word) (s : Machine FlashStatus) :
    ℤ × Machine FlashStatus :=
  let result := ifxFlashDriverValidateRegion obj.flashInfo addr obj.flashInfo.sectorSize
  if result ≠ armDriverOk then (result, s)
  else if addr % obj.flashInfo.sectorSize ≠ 0 then (armDriverErrorParameter, s)
  else
    match cyFlashEraseRow P s (obj.startAddress + addr) with
    | (status, s) => (ifxFlashdrvToRegularStatus status, s)

/-- The loop of `ifx_driver_flash_erase_chip`, with the number of sectors that are left. -/
def eraseRows (obj : Obj) : ℕ → Option FlashStatus → Word → Machine FlashStatus →
    Option FlashStatus × Machine FlashStatus
  | 0, status, _, s => (status, s)
  | n + 1, _, address, s =>
      match cyFlashEraseRow P s address with
      | (some e, s) => (some e, s)
      | (none, s) => eraseRows obj n none (address + obj.flashInfo.sectorSize) s

/-- `ifx_driver_flash_erase_chip`. -/
def ifxDriverFlashEraseChip (obj : Obj) (s : Machine FlashStatus) : ℤ × Machine FlashStatus :=
  match eraseRows P obj obj.flashInfo.sectorCount.toNat (some .errUnc) obj.startAddress s with
  | (status, s) => (ifxFlashdrvToRegularStatus status, s)

/-! ## RRAM -/

/-- `cy_en_rram_status_t`, without success. -/
inductive RramStatus
  /-- `CY_RRAM_ACQUIRE_PC_LOCK_FAIL`. -/
  | acquirePcLockFail
  /-- `CY_RRAM_OPERATION_TIME_OUT_ERROR`. -/
  | operationTimeOutError
  /-- `CY_RRAM_BAD_PARAM`. -/
  | badParam
  /-- Others. -/
  | other

/-- `IFX_DRIVER_RRAM_PROGRAM_UNIT`. -/
def ifxDriverRramProgramUnit : ℕ := 4

/-- `ifx_rramdrv_to_regular_status`. -/
def ifxRramdrvToRegularStatus : Option RramStatus → ℤ
  | none => armDriverOk
  | some .acquirePcLockFail => armDriverErrorBusy
  | some .operationTimeOutError => armDriverErrorTimeout
  | some .badParam => armDriverErrorParameter
  | some .other => armDriverError

/-- `Cy_RRAM_NvmWriteByteArray`. -/
def cyRramNvmWriteByteArray (s : Machine RramStatus) (address : Word) (data : List (BitVec 8)) :
    Option RramStatus × Machine RramStatus :=
  s.call address data

/-- `Cy_RRAM_NvmReadByteArray`. -/
def cyRramNvmReadByteArray (s : Machine RramStatus) (address : Word) (size : ℕ) :
    Except RramStatus (List (BitVec 8)) × Machine RramStatus :=
  let (data, s') := s.read address size
  match s.fault s.calls with
  | some f => (.error f.status, { s' with calls := s.calls + 1 })
  | none => (.ok data, { s' with calls := s.calls + 1 })

/-- `ifx_driver_rram_initialize`. -/
def ifxDriverRramInitialize (obj : Obj) (cbEvent : Bool) : ℤ :=
  if cbEvent then armDriverErrorUnsupported
  else ifxFlashDriverInitialize obj.flashInfo obj.startAddress (BitVec.ofNat 32 P.blockSize)

/-- The comparison with what is in the device that the fault injection hardening adds. -/
def readBack (address : Word) (data : List (BitVec 8)) (result : ℤ) (s : Machine RramStatus) :
    ℤ × Machine RramStatus :=
  if P.fih then
    let (back, s) := s.read address data.length
    if back ≠ data then (armDriverErrorSpecific, s) else (result, s)
  else (result, s)

/-- `ifx_driver_rram_read_data`. -/
def ifxDriverRramReadData (obj : Obj) (addr cnt : Word) (s : Machine RramStatus) :
    ℤ × Machine RramStatus :=
  let size := cnt * BitVec.ofNat 32 ifxDriverRramProgramUnit
  let result := ifxFlashDriverValidateRegion obj.flashInfo addr size
  if result ≠ armDriverOk then (result, s)
  else
    match cyRramNvmReadByteArray s (obj.startAddress + addr) size.toNat with
    | (.error e, s) => (ifxRramdrvToRegularStatus (some e), s)
    | (.ok data, s) => readBack P (obj.startAddress + addr) data cnt.toInt s

/-- The loop of `ifx_driver_rram_write`, with the number of retries that are left. -/
def writeTries (address : Word) (data : List (BitVec 8)) :
    ℕ → Machine RramStatus → Option RramStatus × Machine RramStatus
  | 0, s => cyRramNvmWriteByteArray s address data
  | n + 1, s =>
      match cyRramNvmWriteByteArray s address data with
      | (some .acquirePcLockFail, s) => writeTries address data n s
      | (status, s) => (status, s)

/-- `ifx_driver_rram_write`. -/
def ifxDriverRramWrite (address : Word) (data : List (BitVec 8)) (s : Machine RramStatus) :
    ℤ × Machine RramStatus :=
  match writeTries address data (P.retries - 1) s with
  | (some e, s) => (ifxRramdrvToRegularStatus (some e), s)
  | (none, s) => readBack P address data armDriverOk s

/-- `ifx_driver_rram_program_data`. -/
def ifxDriverRramProgramData (obj : Obj) (addr : Word) (data : ℕ → BitVec 8) (cnt : Word)
    (s : Machine RramStatus) : ℤ × Machine RramStatus :=
  let size := cnt * BitVec.ofNat 32 ifxDriverRramProgramUnit
  let result := ifxFlashDriverValidateRegion obj.flashInfo addr size
  if result ≠ armDriverOk then (result, s)
  else
    match ifxDriverRramWrite P (obj.startAddress + addr) ((List.range size.toNat).map data) s with
    | (result, s) => (if result = armDriverOk then cnt.toInt else result, s)

/-- The loop of `ifx_driver_rram_erase_sector`. -/
def eraseBlocks (obj : Obj) (addr : Word) (offset : ℕ) (result : ℤ) (s : Machine RramStatus) :
    ℤ × Machine RramStatus :=
  if offset < obj.flashInfo.sectorSize.toNat then
    match ifxDriverRramWrite P (obj.startAddress + addr + BitVec.ofNat 32 offset)
      (List.replicate P.blockSize obj.flashInfo.erasedValue) s with
    | (result, s) =>
        if result ≠ armDriverOk then (result, s)
        else eraseBlocks obj addr (offset + P.blockSize) result s
  else (result, s)
termination_by obj.flashInfo.sectorSize.toNat - offset
decreasing_by
  have pos := P.block_pos
  omega

/-- `ifx_driver_rram_erase_sector`. -/
def ifxDriverRramEraseSector (obj : Obj) (addr : Word) (s : Machine RramStatus) :
    ℤ × Machine RramStatus :=
  let result := ifxFlashDriverValidateRegion obj.flashInfo addr obj.flashInfo.sectorSize
  if result ≠ armDriverOk then (result, s)
  else if obj.flashInfo.sectorSize = 0 ∨ addr % obj.flashInfo.sectorSize ≠ 0 then
    (armDriverErrorParameter, s)
  else eraseBlocks P obj addr 0 result s

/-- The loop of `ifx_driver_rram_erase_chip`, with the number of sectors that are left. -/
def eraseSectors (obj : Obj) : ℕ → Word → Machine RramStatus → ℤ × Machine RramStatus
  | 0, _, s => (armDriverOk, s)
  | n + 1, address, s =>
      match ifxDriverRramEraseSector P obj address s with
      | (result, s) =>
          if result ≠ armDriverOk then (result, s)
          else eraseSectors obj n (address + obj.flashInfo.sectorSize) s

/-- `ifx_driver_rram_erase_chip`. -/
def ifxDriverRramEraseChip (obj : Obj) (s : Machine RramStatus) : ℤ × Machine RramStatus :=
  eraseSectors P obj obj.flashInfo.sectorCount.toNat 0 s

end TrustedFirmwareM.FlashDrivers
