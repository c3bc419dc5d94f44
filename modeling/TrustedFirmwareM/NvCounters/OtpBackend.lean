import TrustedFirmwareM.Lib.Cells
import TrustedFirmwareM.Lib.Fallible
import TrustedFirmwareM.Lib.Numerals
import Mathlib.Data.Nat.Basic
import Mathlib.Tactic.SplitIfs

/-!
# The area of one-time programmable elements

The elements and the counters of the template platform are in one area.  In flash a second area
holds a backup of it: a write erases sectors, restores them from the backup with the new data in
place, and makes the backup again.
-/

namespace TrustedFirmwareM.NvCounters.Template

/-- `uint32_t`. -/
abbrev Word := BitVec 32

/-- Contents of the device of the area. -/
abbrev Contents := Cells (BitVec 8)

/-- `enum tfm_plat_err_t`, as far as it is returned here. -/
inductive PlatErr
  /-- `TFM_PLAT_ERR_SUCCESS`. -/
  | success
  /-- `TFM_PLAT_ERR_SYSTEM_ERR`. -/
  | systemErr
  /-- `TFM_PLAT_ERR_MAX_VALUE`. -/
  | maxValue
  /-- `TFM_PLAT_ERR_INVALID_INPUT`. -/
  | invalidInput
  /-- `TFM_PLAT_ERR_UNSUPPORTED`. -/
  | unsupported
  deriving DecidableEq

/-- The area in a build, and its device.  The driver of the device does its work. -/
structure Area where
  /-- `OTP_NV_COUNTERS_RAM_EMULATION`. -/
  ramEmulation : Bool
  /-- `TFM_OTP_NV_COUNTERS_AREA_ADDR`, or the address of `otp_nv_ram_buf`. -/
  areaAddr : ℕ
  /-- `TFM_OTP_NV_COUNTERS_BACKUP_AREA_ADDR`. -/
  backupAddr : ℕ
  /-- `TFM_OTP_NV_COUNTERS_AREA_SIZE`. -/
  areaSize : ℕ
  /-- `TFM_OTP_NV_COUNTERS_SECTOR_SIZE`. -/
  sectorSize : ℕ
  /-- `OTP_NV_COUNTERS_WRITE_BLOCK_SIZE`. -/
  blockSize : ℕ
  /-- `TFM_HAL_ITS_PROGRAM_UNIT`. -/
  programUnit : ℕ
  /-- The size of the data items of the driver. -/
  dataWidth : ℕ
  /-- What erased bytes read as. -/
  erased : BitVec 8
  /-- The offset of `swap_count`, the last member of `flash_otp_nv_counters_region_t`. -/
  swapCountOffset : ℕ
  /-- There are sectors. -/
  sectorSize_pos : 0 < sectorSize
  /-- `OTP_NV_COUNTERS_WRITE_BLOCK_SIZE` is checked when the code is compiled. -/
  block_dvd : blockSize ∣ sectorSize
  /-- So is this. -/
  unit_dvd : programUnit ∣ blockSize
  /-- Program units are made of data items. -/
  width_dvd : dataWidth ∣ programUnit
  /-- Words are made of data items. -/
  width_dvd_word : dataWidth ∣ 4
  /-- The area is made of sectors. -/
  area_dvd : sectorSize ∣ areaAddr
  /-- So is the backup. -/
  backup_dvd : sectorSize ∣ backupAddr
  /-- So is their size. -/
  size_dvd : sectorSize ∣ areaSize
  /-- The areas do not overlap. -/
  apart : areaAddr + areaSize ≤ backupAddr ∨ backupAddr + areaSize ≤ areaAddr
  /-- The members fit. -/
  swapCount_le : swapCountOffset + 4 ≤ areaSize

/-- Programs that work on the device. -/
abbrev BackendM (α : Type) : Type := Fallible Contents PlatErr α

/-- Change the contents of the device. -/
def update (f : Contents → Contents) : BackendM Unit := fun flash ↦ (.ok (), f flash)

variable (A : Area)

/-- `ReadData` of the driver: a number of items. -/
def readData (flash : Contents) (addr cnt : ℕ) : List (BitVec 8) :=
  flash.read addr (cnt * A.dataWidth)

/-- `ProgramData` of the driver: a number of items. -/
def programData (flash : Contents) (addr : ℕ) (data : List (BitVec 8)) (cnt : ℕ) : Contents :=
  flash.write addr (data.take (cnt * A.dataWidth))

/-- `EraseSector` of the driver. -/
def eraseSector (flash : Contents) (addr : ℕ) : Contents :=
  flash.write addr (List.replicate A.sectorSize A.erased)

/-- `read_otp_nv_counters_flash`. -/
def readOtpNvCountersFlash (flash : Contents) (offset cnt : ℕ) : Except PlatErr (List (BitVec 8)) :=
  if A.ramEmulation then .ok (flash.read (A.areaAddr + offset) cnt)
  else if offset % A.dataWidth ≠ 0 then .error .invalidInput
  else
    let data := readData A flash (A.areaAddr + offset) (cnt / A.dataWidth)
    let readCnt := cnt / A.dataWidth * A.dataWidth
    let remainingCnt := cnt - readCnt
    if remainingCnt ≠ 0 then
      .ok (data ++ (readData A flash (A.areaAddr + offset + readCnt) 1).take remainingCnt)
    else .ok data

/-- `round_down`. -/
def roundDown (num boundary : ℕ) : ℕ := num - num % boundary

/-- `round_up`. -/
def roundUp (num boundary : ℕ) : ℕ := num + boundary - 1 - (num + boundary - 1) % boundary

/-- The loop of `erase_flash_region`. -/
def eraseLoop (stop idx : ℕ) (flash : Contents) : Contents :=
  if idx < stop then eraseLoop stop (idx + A.sectorSize) (eraseSector A flash idx) else flash
termination_by stop - idx
decreasing_by
  have pos := A.sectorSize_pos
  omega

/-- `erase_flash_region`. -/
def eraseFlashRegion (start size : ℕ) : BackendM Unit :=
  if start % A.sectorSize ≠ 0 then Fallible.fail .invalidInput
  else update (eraseLoop A (start + size) (roundDown start A.sectorSize))

theorem Area.blockSize_pos : 0 < A.blockSize := Nat.pos_of_dvd_of_pos A.block_dvd A.sectorSize_pos

/-- `copy_size`: a block, or what is left. -/
def copySize (stop idx : ℕ) : ℕ := if idx + A.blockSize ≤ stop then A.blockSize else stop - idx

theorem copySize_pos {stop idx : ℕ} (idx_lt : idx < stop) : 0 < copySize A stop idx := by
  have pos := A.blockSize_pos
  rw [copySize]
  split_ifs <;> omega

theorem copySize_le {stop idx : ℕ} (idx_lt : idx < stop) : idx + copySize A stop idx ≤ stop := by
  rw [copySize]
  split_ifs <;> omega

/-- The loops over blocks: what `block` prepares for an index is programmed. -/
def programBlocks (block : Contents → ℕ → ℕ → List (BitVec 8)) (base stop idx : ℕ)
    (flash : Contents) : Contents :=
  if idx < stop then
    programBlocks block base stop (idx + copySize A stop idx)
      (programData A flash (base + idx) (block flash idx (copySize A stop idx))
        (copySize A stop idx / A.dataWidth))
  else flash
termination_by stop - idx
decreasing_by
  rename_i idx_lt
  have pos := copySize_pos A idx_lt
  omega

/-- `copy_flash_region`. -/
def copyFlashRegion (source target size : ℕ) : BackendM Unit :=
  update (programBlocks A
    (fun flash idx copySize ↦ readData A flash (source + idx) (copySize / A.dataWidth))
    target size 0)

/-- `make_backup`. -/
def makeBackup : BackendM Unit := do
  eraseFlashRegion A A.backupAddr A.areaSize
  copyFlashRegion A A.areaAddr A.backupAddr A.areaSize

/-- `memcpy` into a buffer. -/
def overwrite (buffer : List (BitVec 8)) (start : ℕ) (bytes : List (BitVec 8)) : List (BitVec 8) :=
  buffer.take start ++ bytes ++ buffer.drop (start + bytes.length)

/-- `copy_data_into_block`. -/
def copyDataIntoBlock (dataOffset : ℕ) (data : List (BitVec 8)) (blockOffset blockSize : ℕ)
    (block : List (BitVec 8)) : List (BitVec 8) :=
  -- check if any of our data needs to be copied into this buffer
  if blockOffset < dataOffset + data.length ∧ dataOffset < blockOffset + blockSize then
    let copyStartOffset := if blockOffset < dataOffset then dataOffset else blockOffset
    let copyEndOffset :=
      if blockOffset + blockSize < dataOffset + data.length then blockOffset + blockSize
      else dataOffset + data.length
    overwrite block (copyStartOffset - blockOffset)
      ((data.drop (copyStartOffset - dataOffset)).take (copyEndOffset - copyStartOffset))
  else block

/-- A word from its bytes. -/
def wordOf (bytes : List (BitVec 8)) : Word :=
  bytes.getD 3 0 ++ bytes.getD 2 0 ++ bytes.getD 1 0 ++ bytes.getD 0 0

/-- The bytes of a word. -/
def bytesOf (word : Word) : List (BitVec 8) :=
  [word.setWidth 8, (word >>> 8).setWidth 8, (word >>> 16).setWidth 8, (word >>> 24).setWidth 8]

/-- The next value of `swap_count`. -/
def nextSwapCount (swapCount : Word) : Word :=
  if swapCount + 1 = BitVec.allOnes 32 then 1 else swapCount + 1

/-- `swap_count` in the backup. -/
def readSwapCount : BackendM Word := fun flash ↦
  (.ok (wordOf (readData A flash (A.backupAddr + A.swapCountOffset) (4 / A.dataWidth))), flash)

/-- `swap_count_erase_start_offset`. -/
def Area.swapCountEraseStart : ℕ := roundDown A.swapCountOffset A.sectorSize

/-- `swap_count_program_block_start_offset`. -/
def Area.swapCountBlockStart : ℕ := roundDown A.swapCountOffset A.programUnit

/-- `write_otp_nv_counters_flash`: the sector with the swap count is erased, if it is not one of
those being erased. -/
def eraseSwapCount (eraseEndOffset : ℕ) : BackendM Unit :=
  if eraseEndOffset ≤ A.swapCountEraseStart then
    eraseFlashRegion A (A.areaAddr + A.swapCountEraseStart) A.sectorSize
  else pure ()

/-- `write_otp_nv_counters_flash`: erased sectors are restored with the data in place. -/
def restoreErased (offset : ℕ) (data : List (BitVec 8)) (eraseStartOffset eraseEndOffset : ℕ) :
    BackendM Unit :=
  update (programBlocks A
    (fun flash idx copySize ↦ copyDataIntoBlock offset data idx copySize
      (readData A flash (A.backupAddr + idx) (copySize / A.dataWidth)))
    A.areaAddr eraseEndOffset eraseStartOffset)

/-- `write_otp_nv_counters_flash`: most of the last sector is restored, if it has not been yet. -/
def restoreLastSector (eraseEndOffset : ℕ) : BackendM Unit :=
  if eraseEndOffset < A.swapCountBlockStart then
    copyFlashRegion A (A.backupAddr + A.swapCountEraseStart)
      (A.areaAddr + A.swapCountEraseStart)
      (A.swapCountBlockStart - A.swapCountEraseStart)
  else pure ()

/-- `write_otp_nv_counters_flash`: the last program unit, with `swap_count`. -/
def programLastUnit (offset : ℕ) (data : List (BitVec 8)) (swapCount : Word) (flash : Contents) :
    Contents :=
  let start := A.swapCountBlockStart
  let swapCountBufSize := if 4 < A.programUnit then A.programUnit else 4
  let block := readData A flash (A.backupAddr + start) (swapCountBufSize / A.dataWidth)
  let block := copyDataIntoBlock offset data start swapCountBufSize block
  let block := copyDataIntoBlock A.swapCountOffset (bytesOf swapCount) start swapCountBufSize block
  programData A flash (A.areaAddr + start) block (swapCountBufSize / A.dataWidth)

/-- `write_otp_nv_counters_flash`. -/
def writeOtpNvCountersFlash (offset : ℕ) (data : List (BitVec 8)) : BackendM Unit :=
  if A.ramEmulation then update fun flash ↦ flash.write (A.areaAddr + offset) data
  else
    let eraseStartOffset := roundDown offset A.sectorSize
    let eraseEndOffset := roundUp (offset + data.length) A.sectorSize
    if A.areaSize < eraseEndOffset then Fallible.fail .systemErr
    else do
      let swapCount ← readSwapCount A
      eraseSwapCount A eraseEndOffset
      eraseFlashRegion A (A.areaAddr + eraseStartOffset) (eraseEndOffset - eraseStartOffset)
      -- do not write the swap count, as this is done at the end
      let eraseEndOffset :=
        if A.swapCountBlockStart < eraseEndOffset then
          A.swapCountBlockStart
        else eraseEndOffset
      restoreErased A offset data eraseStartOffset eraseEndOffset
      restoreLastSector A eraseEndOffset
      update (programLastUnit A offset data (nextSwapCount swapCount))
      makeBackup A

/-! ## Rounding -/

section Rounding

variable {n b : ℕ}

theorem roundDown_eq (n b : ℕ) : roundDown n b = n / b * b := by
  have parts := Nat.div_add_mod' n b
  rw [roundDown]
  omega

theorem roundUp_eq (n b : ℕ) : roundUp n b = (n + b - 1) / b * b := by
  have parts := Nat.div_add_mod' (n + b - 1) b
  rw [roundUp]
  omega

theorem dvd_roundDown (n b : ℕ) : b ∣ roundDown n b := by
  rw [roundDown_eq]
  exact Nat.dvd_mul_left b _

theorem dvd_roundUp (n b : ℕ) : b ∣ roundUp n b := by
  rw [roundUp_eq]
  exact Nat.dvd_mul_left b _

theorem roundDown_le (n b : ℕ) : roundDown n b ≤ n := Nat.sub_le n _

theorem roundDown_of_dvd (dvd : b ∣ n) : roundDown n b = n := by
  rw [roundDown, Nat.mod_eq_zero_of_dvd dvd, Nat.sub_zero]

theorem lt_roundDown_add (pos : 0 < b) : n < roundDown n b + b := by
  have rest := Nat.mod_lt n pos
  rw [roundDown]
  omega

theorem le_roundUp (pos : 0 < b) : n ≤ roundUp n b := by
  have rest := Nat.mod_lt (n + b - 1) pos
  rw [roundUp]
  omega

theorem le_roundDown {m : ℕ} (pos : 0 < b) (dvd : b ∣ m) (le : m ≤ n) : m ≤ roundDown n b :=
  Nat.le_of_lt_add_of_dvd (Nat.lt_of_le_of_lt le (lt_roundDown_add pos)) dvd (dvd_roundDown n b)

theorem roundUp_le {m : ℕ} (pos : 0 < b) (dvd : b ∣ m) (le : n ≤ m) : roundUp n b ≤ m := by
  have bound : roundUp n b ≤ n + b - 1 := Nat.sub_le _ _
  exact Nat.le_of_lt_add_of_dvd (by omega) (dvd_roundUp n b) dvd

end Rounding

/-! ## Reads -/

variable {A} {flash : Contents}

/-- The area, by offsets. -/
def view (A : Area) (flash : Contents) : Contents := fun i ↦ flash (A.areaAddr + i)

theorem Area.dataWidth_pos (A : Area) : 0 < A.dataWidth :=
  Nat.pos_of_dvd_of_pos A.width_dvd_word (by simp)

theorem read_view (offset cnt : ℕ) :
    flash.read (A.areaAddr + offset) cnt = (view A flash).read offset cnt := by
  simp only [Cells.read, view, Nat.add_assoc]

/-- Whole items and the rest of the last one. -/
theorem readOtpNvCountersFlash_eq (A : Area) (flash : Contents) (offset cnt : ℕ) :
    readOtpNvCountersFlash A flash offset cnt =
      if A.ramEmulation = false ∧ offset % A.dataWidth ≠ 0 then .error .invalidInput
      else .ok ((view A flash).read offset cnt) := by
  have parts := Nat.div_add_mod' cnt A.dataWidth
  have rest_lt := Nat.mod_lt cnt A.dataWidth_pos
  have whole : flash.read (A.areaAddr + offset) (cnt / A.dataWidth * A.dataWidth) ++
      (flash.read (A.areaAddr + offset + cnt / A.dataWidth * A.dataWidth) (1 * A.dataWidth)).take
        (cnt - cnt / A.dataWidth * A.dataWidth) = (view A flash).read offset cnt := by
    have left : 1 * A.dataWidth =
        cnt - cnt / A.dataWidth * A.dataWidth + (A.dataWidth - cnt % A.dataWidth) := by
      omega
    have total :
        cnt / A.dataWidth * A.dataWidth + (cnt - cnt / A.dataWidth * A.dataWidth) = cnt := by
      omega
    rw [left, Cells.take_read, ← Cells.read_add, total, read_view]
  simp only [readOtpNvCountersFlash, readData]
  cases A.ramEmulation with
  | true => simp [read_view]
  | false =>
      simp only [Bool.false_eq_true, ↓reduceIte, true_and]
      split_ifs with misaligned remaining
      · rfl
      · rw [whole]
      · rw [← whole, not_not.1 remaining, List.take_zero, List.append_nil]

/-! ## Erasing -/

/-- Sectors are erased, and nothing else. -/
theorem eraseLoop_outside (k : ℕ) {idx stop a : ℕ} (stop_eq : stop = idx + k * A.sectorSize)
    (outside : a < idx ∨ stop ≤ a) : eraseLoop A stop idx flash a = flash a := by
  induction k generalizing idx flash with
  | zero =>
      rw [eraseLoop, if_neg (by omega)]
  | succ k ih =>
      have pos := A.sectorSize_pos
      rw [Nat.succ_mul] at stop_eq
      have step : eraseSector A flash idx a = flash a := by
        apply Cells.write_outside
        rw [List.length_replicate]
        omega
      rw [eraseLoop, if_pos (by omega), ih (by omega) (by omega), step]

/-- `erase_flash_region` of whole sectors. -/
theorem eraseFlashRegion_run (flash : Contents) {start size : ℕ} (start_dvd : A.sectorSize ∣ start)
    (size_dvd : A.sectorSize ∣ size) :
    ∃ flash', eraseFlashRegion A start size flash = (.ok (), flash') ∧
      ∀ a, a < start ∨ start + size ≤ a → flash' a = flash a := by
  obtain ⟨k, rfl⟩ := size_dvd
  use eraseLoop A (start + A.sectorSize * k) start flash
  constructor
  · rw [eraseFlashRegion, if_neg (not_not.2 (Nat.mod_eq_zero_of_dvd start_dvd)),
      roundDown_of_dvd start_dvd]
    rfl
  · intro a outside
    exact eraseLoop_outside k (by rw [Nat.mul_comm]) outside

/-! ## Programming in blocks -/

/-- Blocks whose bytes do not depend on what is programmed are programmed one after the other. -/
theorem programBlocks_apply (flash : Contents) (base : ℕ)
    {block : Contents → ℕ → ℕ → List (BitVec 8)} {value : Contents} {stop idx : ℕ}
    (width : A.dataWidth ∣ stop - idx)
    (fetched : ∀ flash' i n, idx ≤ i → i + n ≤ stop → A.dataWidth ∣ n →
      (∀ a, a < base + idx ∨ base + stop ≤ a → flash' a = flash a) →
        block flash' i n = value.read i n) (a : ℕ) :
    programBlocks A block base stop idx flash a =
      if base + idx ≤ a ∧ a < base + stop then value (a - base) else flash a := by
  induction remaining : stop - idx using Nat.strong_induction_on generalizing idx flash with
  | _ remaining ih =>
      subst remaining
      rw [programBlocks]
      by_cases idx_lt : idx < stop
      · have size_pos := copySize_pos A idx_lt
        have size_le := copySize_le A idx_lt
        have size_dvd : A.dataWidth ∣ copySize A stop idx := by
          rw [copySize]
          split_ifs
          · exact Nat.dvd_trans A.width_dvd A.unit_dvd
          · exact width
        have rest_dvd : A.dataWidth ∣ stop - (idx + copySize A stop idx) := by
          rw [← Nat.sub_sub]
          exact Nat.dvd_sub width size_dvd
        generalize copySize A stop idx = size at size_pos size_le size_dvd rest_dvd ⊢
        have first : block flash idx size = value.read idx size :=
          fetched flash idx size (Nat.le_refl idx) size_le size_dvd fun _ _ ↦ rfl
        have programmed (a : ℕ) :
            programData A flash (base + idx) (block flash idx size) (size / A.dataWidth) a =
              if base + idx ≤ a ∧ a < base + idx + size then value (a - base) else flash a := by
          rw [programData, Nat.div_mul_cancel size_dvd, first, List.take_of_length_le (by simp)]
          split_ifs with inside
          · obtain ⟨i, rfl⟩ := Nat.exists_eq_add_of_le inside.1
            rw [Cells.write_read_add (by omega)]
            congr 1
            omega
          · apply Cells.write_outside
            rw [Cells.length_read]
            omega
        rw [if_pos idx_lt, ih _ (by omega) _ rest_dvd _ rfl, programmed]
        · split_ifs <;> first | rfl | omega
        · intro flash' i n le le' dvd same
          apply fetched flash' i n (by omega) le' dvd
          intro a outside
          rw [same a (by omega), programmed, if_neg (by omega)]
      · rw [if_neg idx_lt, if_neg (by omega)]

/-- `copy_flash_region` between ranges that do not overlap. -/
theorem copyFlashRegion_run (flash : Contents) (source target : ℕ) {size : ℕ}
    (width : A.dataWidth ∣ size) (apart : source + size ≤ target ∨ target + size ≤ source) :
    ∃ flash', copyFlashRegion A source target size flash = (.ok (), flash') ∧
      (∀ i < size, flash' (target + i) = flash (source + i)) ∧
        ∀ a, a < target ∨ target + size ≤ a → flash' a = flash a := by
  have fetched : ∀ flash' i n, 0 ≤ i → i + n ≤ size → A.dataWidth ∣ n →
      (∀ a, a < target + 0 ∨ target + size ≤ a → flash' a = flash a) →
        readData A flash' (source + i) (n / A.dataWidth) =
          Cells.read (fun i ↦ flash (source + i)) i n := by
    intro flash' i n _ i_le n_dvd same
    rw [readData, Nat.div_mul_cancel n_dvd]
    apply List.map_congr_left
    intro j j_mem
    have j_lt := List.mem_range.1 j_mem
    rw [same _ (by omega), Nat.add_assoc]
  have copied (a : ℕ) := programBlocks_apply flash target width fetched a
  refine ⟨_, rfl, ?_, ?_⟩
  · intro i i_lt
    rw [copied, if_pos (by omega), Nat.add_sub_cancel_left]
  · intro a outside
    rw [copied, if_neg (by omega)]

/-! ## Writes -/

theorem overwrite_getElem? {buffer bytes : List (BitVec 8)} {start : ℕ}
    (fits : start + bytes.length ≤ buffer.length) (i : ℕ) :
    (overwrite buffer start bytes)[i]? =
      if start ≤ i ∧ i < start + bytes.length then bytes[i - start]? else buffer[i]? := by
  have front_length : (buffer.take start).length = start := by
    rw [List.length_take]
    omega
  rw [overwrite, List.append_assoc]
  rcases Nat.lt_or_ge i start with before | behind
  · rw [List.getElem?_append_left (by omega), List.getElem?_take_of_lt before, if_neg (by omega)]
  · rw [List.getElem?_append_right (by omega), front_length]
    rcases Nat.lt_or_ge (i - start) bytes.length with inside | outside
    · rw [List.getElem?_append_left inside, if_pos (by omega)]
    · rw [List.getElem?_append_right outside, List.getElem?_drop, if_neg (by omega)]
      congr 1
      omega

/-- Part of the data is put in place in a block that is read at an offset. -/
theorem overwrite_read {offset : ℕ} {data : List (BitVec 8)} {value : Contents} {i n start stop : ℕ}
    (start_le : start ≤ stop) (le_start : i ≤ start) (stop_le : stop ≤ i + n)
    (offset_le : offset ≤ start) (stop_le' : stop ≤ offset + data.length)
    (front : i < start → start = offset) (back : stop < i + n → stop = offset + data.length) :
    overwrite (value.read i n) (start - i) ((data.drop (start - offset)).take (stop - start)) =
      (value.write offset data).read i n := by
  have length : ((data.drop (start - offset)).take (stop - start)).length = stop - start := by
    rw [List.length_take, List.length_drop]
    omega
  apply List.ext_getElem?
  intro k
  rw [overwrite_getElem? (by rw [length, Cells.length_read]; omega), length]
  rcases Nat.lt_or_ge k n with k_lt | k_ge
  · rw [Cells.getElem?_read k_lt, Cells.getElem?_read k_lt]
    split_ifs with inside
    · have index : start - offset + (k - (start - i)) = i + k - offset := by
        omega
      rw [List.getElem?_take_of_lt (by omega), List.getElem?_drop, index, Cells.write,
        if_pos (by omega), List.getElem?_eq_getElem (by omega), Option.getD_some]
    · rw [Cells.write_outside (by omega)]
  · rw [if_neg (by omega), List.getElem?_eq_none (by simpa using k_ge),
      List.getElem?_eq_none (by simpa using k_ge)]

/-- Data are put in place in a block that is read at an offset. -/
theorem copyDataIntoBlock_read (offset : ℕ) (data : List (BitVec 8)) (value : Contents) (i n : ℕ) :
    copyDataIntoBlock offset data i n (value.read i n) = (value.write offset data).read i n := by
  rw [copyDataIntoBlock]
  by_cases overlaps : i < offset + data.length ∧ offset < i + n
  · rw [if_pos overlaps]
    apply overwrite_read <;> split_ifs <;> omega
  · rw [if_neg overlaps]
    apply Cells.read_congr
    intro k k_lt
    exact (Cells.write_outside (by omega)).symm

/-- What the area holds below the swap count is in its backup, too. -/
def Mirrors (A : Area) (flash : Contents) : Prop :=
  A.ramEmulation = false → ∀ i < A.swapCountOffset, flash (A.backupAddr + i) = view A flash i

theorem Area.unit_dvd_sector (A : Area) : A.programUnit ∣ A.sectorSize :=
  Nat.dvd_trans A.unit_dvd A.block_dvd

theorem Area.programUnit_pos (A : Area) : 0 < A.programUnit :=
  Nat.pos_of_dvd_of_pos A.unit_dvd_sector A.sectorSize_pos

theorem Area.width_dvd_sector (A : Area) : A.dataWidth ∣ A.sectorSize :=
  Nat.dvd_trans A.width_dvd A.unit_dvd_sector

theorem Area.eraseStart_dvd (A : Area) : A.sectorSize ∣ A.swapCountEraseStart := dvd_roundDown _ _

theorem Area.blockStart_le (A : Area) : A.swapCountBlockStart ≤ A.swapCountOffset :=
  roundDown_le _ _

theorem Area.eraseStart_le (A : Area) : A.swapCountEraseStart ≤ A.swapCountBlockStart :=
  le_roundDown A.programUnit_pos (Nat.dvd_trans A.unit_dvd_sector A.eraseStart_dvd)
    (roundDown_le _ _)

theorem Area.swapCount_lt (A : Area) : A.swapCountOffset < A.swapCountEraseStart + A.sectorSize :=
  lt_roundDown_add A.sectorSize_pos

theorem Area.width_dvd_blockStart (A : Area) : A.dataWidth ∣ A.swapCountBlockStart :=
  Nat.dvd_trans A.width_dvd (dvd_roundDown _ _)

theorem Area.eraseStart_add_le (A : Area) : A.swapCountEraseStart + A.sectorSize ≤ A.areaSize := by
  have le := A.swapCount_le
  have le' := A.eraseStart_le
  have le'' := A.blockStart_le
  exact Nat.le_of_lt_add_of_dvd (by omega) (Nat.dvd_add A.eraseStart_dvd (Nat.dvd_refl _))
    A.size_dvd

/-- The sectors that a write is about. -/
structure Sectors (A : Area) (start stop : ℕ) : Prop where
  /-- They begin with a sector. -/
  start_dvd : A.sectorSize ∣ start
  /-- They end with a sector. -/
  stop_dvd : A.sectorSize ∣ stop
  /-- They are in order. -/
  le : start ≤ stop
  /-- They are in the area. -/
  stop_le : stop ≤ A.areaSize
  /-- They do not begin behind the sector of the swap count. -/
  start_le : start ≤ A.swapCountEraseStart

theorem sectors_of_within {offset len : ℕ} (within : offset + len ≤ A.swapCountOffset) :
    Sectors A (roundDown offset A.sectorSize) (roundUp (offset + len) A.sectorSize) where
  start_dvd := dvd_roundDown _ _
  stop_dvd := dvd_roundUp _ _
  le := by
    have le := roundDown_le offset A.sectorSize
    have le' : offset + len ≤ roundUp (offset + len) A.sectorSize := le_roundUp A.sectorSize_pos
    omega
  stop_le := by
    have le := A.swapCount_le
    exact roundUp_le A.sectorSize_pos A.size_dvd (by omega)
  start_le := by
    have le := roundDown_le offset A.sectorSize
    exact le_roundDown A.sectorSize_pos (dvd_roundDown _ _) (by omega)

variable {start stop : ℕ}

/-- Sectors that end in front of the unit with the swap count end in front of its sector. -/
theorem Sectors.stop_le_eraseStart (sectors : Sectors A start stop)
    (lt : stop < A.swapCountBlockStart) : stop ≤ A.swapCountEraseStart := by
  have le := A.blockStart_le
  have lt' := A.swapCount_lt
  exact Nat.le_of_lt_add_of_dvd (by omega) sectors.stop_dvd A.eraseStart_dvd

/-- Nothing outside of the area changes. -/
def Outside (A : Area) (flash flash' : Contents) : Prop :=
  ∀ a, a < A.areaAddr ∨ A.areaAddr + A.areaSize ≤ a → flash' a = flash a

theorem Outside.backup {flash' : Contents} (outside : Outside A flash flash') {i : ℕ}
    (i_lt : i < A.areaSize) : flash' (A.backupAddr + i) = flash (A.backupAddr + i) := by
  have apart := A.apart
  exact outside _ (by omega)

/-- What is erased for a write. -/
theorem erase_run (flash : Contents) (sectors : Sectors A start stop) :
    ∃ middle flash', eraseSwapCount A stop flash = (.ok (), middle) ∧
      eraseFlashRegion A (A.areaAddr + start) (stop - start) middle = (.ok (), flash') ∧
      Outside A flash flash' ∧
        ∀ i < A.swapCountOffset, i < start ∨ stop ≤ i →
          i < A.swapCountEraseStart ∨ A.swapCountEraseStart < stop →
            view A flash' i = view A flash i := by
  have within := A.eraseStart_add_le
  have stop_le := sectors.stop_le
  have le := sectors.le
  have swap_lt := A.swapCount_lt
  obtain ⟨middle, swap_run, swap_kept⟩ : ∃ flash', eraseSwapCount A stop flash = (.ok (), flash') ∧
      ∀ a, a < A.areaAddr + A.swapCountEraseStart ∨
        A.areaAddr + A.swapCountEraseStart + A.sectorSize ≤ a ∨ A.swapCountEraseStart < stop →
          flash' a = flash a := by
    rw [eraseSwapCount]
    split_ifs with before
    · obtain ⟨flash', run, kept⟩ := eraseFlashRegion_run flash
        (Nat.dvd_add A.area_dvd A.eraseStart_dvd) (Nat.dvd_refl A.sectorSize)
      use flash', run
      intro a outside
      exact kept a (by omega)
    · exact ⟨flash, rfl, fun _ _ ↦ rfl⟩
  obtain ⟨flash', run, kept⟩ := eraseFlashRegion_run middle
    (Nat.dvd_add A.area_dvd sectors.start_dvd) (Nat.dvd_sub sectors.stop_dvd sectors.start_dvd)
  refine ⟨middle, flash', swap_run, run, ?_, ?_⟩
  · intro a outside
    rw [kept a (by omega), swap_kept a (by omega)]
  · intro i i_lt outside front
    rw [view, kept _ (by omega), swap_kept _ (by omega), view]

/-- What is restored for a write, from a backup that holds `value`. -/
theorem restore_run (flash value : Contents) (offset : ℕ) (data : List (BitVec 8))
    (sectors : Sectors A start stop)
    (backup : ∀ i < A.swapCountOffset, flash (A.backupAddr + i) = value i) :
    ∃ middle flash', restoreErased A offset data start
        (if A.swapCountBlockStart < stop then A.swapCountBlockStart else stop) flash =
          (.ok (), middle) ∧
      restoreLastSector A (if A.swapCountBlockStart < stop then A.swapCountBlockStart else stop)
        middle = (.ok (), flash') ∧
      Outside A flash flash' ∧ ∀ i < A.swapCountBlockStart, view A flash' i =
        if start ≤ i ∧ i < stop then value.write offset data i
        else if stop ≤ A.swapCountEraseStart ∧ A.swapCountEraseStart ≤ i then value i
        else view A flash i := by
  have stop_le := sectors.stop_le
  have size_le := A.swapCount_le
  have block_le := A.blockStart_le
  have apart := A.apart
  generalize last_eq : (if A.swapCountBlockStart < stop then A.swapCountBlockStart else stop) = last
  have last_le : last ≤ A.swapCountBlockStart ∧ last ≤ stop ∧
      (last < A.swapCountBlockStart → last = stop) := by
    subst last_eq
    split_ifs <;> omega
  have width : A.dataWidth ∣ last - start := by
    apply Nat.dvd_sub
    · subst last_eq
      split_ifs
      · exact A.width_dvd_blockStart
      · exact Nat.dvd_trans A.width_dvd_sector sectors.stop_dvd
    · exact Nat.dvd_trans A.width_dvd_sector sectors.start_dvd
  have fetched : ∀ flash' i n, start ≤ i → i + n ≤ last → A.dataWidth ∣ n →
      (∀ a, a < A.areaAddr + start ∨ A.areaAddr + last ≤ a → flash' a = flash a) →
        copyDataIntoBlock offset data i n (readData A flash' (A.backupAddr + i) (n / A.dataWidth)) =
          (value.write offset data).read i n := by
    intro flash' i n _ i_le n_dvd same
    rw [readData, Nat.div_mul_cancel n_dvd, ← copyDataIntoBlock_read]
    congr 1
    apply List.map_congr_left
    intro j j_mem
    have j_lt := List.mem_range.1 j_mem
    rw [same _ (by omega), Nat.add_assoc, backup _ (by omega)]
  have restored (a : ℕ) := programBlocks_apply flash A.areaAddr width fetched a
  have run : restoreErased A offset data start last flash = (.ok (), _) := rfl
  generalize programBlocks A _ A.areaAddr last start flash = middle at restored run
  obtain ⟨flash', last_run, copied, kept⟩ : ∃ flash', restoreLastSector A last middle =
      (.ok (), flash') ∧ (∀ i, stop ≤ A.swapCountEraseStart → A.swapCountEraseStart ≤ i →
        i < A.swapCountBlockStart → flash' (A.areaAddr + i) = middle (A.backupAddr + i)) ∧
      ∀ a, a < A.areaAddr + A.swapCountEraseStart ∨ A.areaAddr + A.swapCountBlockStart ≤ a ∨
        A.swapCountEraseStart < stop → flash' a = middle a := by
    have le := A.eraseStart_le
    rw [restoreLastSector]
    split_ifs with before
    · have front := sectors.stop_le_eraseStart (by omega)
      obtain ⟨flash', run, copied, kept⟩ := copyFlashRegion_run middle
        (A.backupAddr + A.swapCountEraseStart) (A.areaAddr + A.swapCountEraseStart)
        (Nat.dvd_sub A.width_dvd_blockStart (Nat.dvd_trans A.width_dvd_sector A.eraseStart_dvd))
        (by omega)
      refine ⟨flash', run, ?_, ?_⟩
      · intro i _ i_ge i_lt
        obtain ⟨j, rfl⟩ := Nat.exists_eq_add_of_le i_ge
        rw [← Nat.add_assoc, copied j (by omega), Nat.add_assoc]
      · intro a outside
        exact kept a (by omega)
    · exact ⟨middle, rfl, fun i _ _ _ ↦ by omega, fun _ _ ↦ rfl⟩
  have le := A.eraseStart_le
  refine ⟨middle, flash', run, last_run, ?_, ?_⟩
  · intro a outside
    rw [kept a (by omega), restored, if_neg (by omega)]
  · intro i i_lt
    split_ifs with erased front
    · rw [view, kept _ (by omega), restored, if_pos (by omega), Nat.add_sub_cancel_left]
    · rw [view, copied i front.1 front.2 i_lt, restored, if_neg (by omega), backup i (by omega)]
    · rw [view, kept _ (by omega), restored, if_neg (by omega), view]

/-- The last program unit is programmed with the data in place, and the swap count behind them. -/
theorem programLastUnit_apply (flash value : Contents) (offset : ℕ) (data : List (BitVec 8))
    (word : Word) (backup : ∀ i < A.areaSize, flash (A.backupAddr + i) = value i) :
    Outside A flash (programLastUnit A offset data word flash) ∧
      ∀ i < A.swapCountOffset, view A (programLastUnit A offset data word flash) i =
        if A.swapCountBlockStart ≤ i then value.write offset data i else view A flash i := by
  generalize size_eq : (if 4 < A.programUnit then A.programUnit else 4) = size
  have size_dvd : A.dataWidth ∣ size := by
    subst size_eq
    split_ifs
    · exact A.width_dvd
    · exact A.width_dvd_word
  have size_ge : A.programUnit ≤ size := by
    subst size_eq
    split_ifs <;> omega
  have le := A.swapCount_le
  have block_le := A.blockStart_le
  have lt : A.swapCountOffset < A.swapCountBlockStart + A.programUnit :=
    lt_roundDown_add A.programUnit_pos
  have size_le : A.swapCountBlockStart + size ≤ A.areaSize := by
    have unit_le : A.swapCountBlockStart + A.programUnit ≤ A.areaSize :=
      Nat.le_of_lt_add_of_dvd (by omega) (Nat.dvd_add (dvd_roundDown _ _) (Nat.dvd_refl _))
        (Nat.dvd_trans A.unit_dvd_sector A.size_dvd)
    subst size_eq
    split_ifs <;> omega
  have fetched : flash.read (A.backupAddr + A.swapCountBlockStart) size =
      value.read A.swapCountBlockStart size := by
    apply List.map_congr_left
    intro j j_mem
    have j_lt := List.mem_range.1 j_mem
    rw [Nat.add_assoc, backup _ (by omega)]
  have programmed : programLastUnit A offset data word flash =
      flash.write (A.areaAddr + A.swapCountBlockStart)
        (((value.write offset data).write A.swapCountOffset (bytesOf word)).read
          A.swapCountBlockStart size) := by
    rw [programLastUnit, size_eq]
    simp only [programData, readData, Nat.div_mul_cancel size_dvd, fetched, copyDataIntoBlock_read]
    rw [List.take_of_length_le (by simp)]
  rw [programmed]
  constructor
  · intro a outside
    apply Cells.write_outside
    rw [Cells.length_read]
    omega
  · intro i i_lt
    split_ifs with inside
    · obtain ⟨j, rfl⟩ := Nat.exists_eq_add_of_le inside
      rw [view, ← Nat.add_assoc, Cells.write_read_add (by omega), Cells.write_below i_lt]
    · rw [view, Cells.write_below (by omega), view]

/-- The backup becomes a copy of the area. -/
theorem makeBackup_run (A : Area) (flash : Contents) :
    ∃ flash', makeBackup A flash = (.ok (), flash') ∧ ∀ i < A.areaSize,
      flash' (A.backupAddr + i) = view A flash i ∧ view A flash' i = view A flash i := by
  have apart := A.apart
  obtain ⟨middle, erase_run, erase_kept⟩ :=
    eraseFlashRegion_run flash A.backup_dvd A.size_dvd
  obtain ⟨flash', copy_run, copied, copy_kept⟩ := copyFlashRegion_run middle A.areaAddr A.backupAddr
    (Nat.dvd_trans A.width_dvd_sector A.size_dvd) apart
  use flash'
  constructor
  · rw [makeBackup, Fallible.bind_of_ok erase_run, copy_run]
  · intro i i_lt
    have kept : middle (A.areaAddr + i) = flash (A.areaAddr + i) := erase_kept _ (by omega)
    constructor
    · rw [copied i i_lt, kept, view]
    · rw [view, copy_kept _ (by omega), kept, view]

/-- A write below the swap count succeeds, changes what it covers and nothing else, and leaves the
backup in step. -/
theorem writeOtpNvCountersFlash_run (mirrors : Mirrors A flash) (offset : ℕ)
    (data : List (BitVec 8)) (within : offset + data.length ≤ A.swapCountOffset) :
    ∃ flash', writeOtpNvCountersFlash A offset data flash = (.ok (), flash') ∧ Mirrors A flash' ∧
      ∀ i < A.swapCountOffset, view A flash' i = (view A flash).write offset data i := by
  cases emulation : A.ramEmulation with
  | true =>
      use flash.write (A.areaAddr + offset) data
      constructor
      · rw [writeOtpNvCountersFlash, if_pos emulation]
        rfl
      · constructor
        · intro flashed
          rw [emulation] at flashed
          contradiction
        · intro i _
          have inside : A.areaAddr + offset ≤ A.areaAddr + i ↔ offset ≤ i := by
            omega
          simp only [view, Cells.write, inside, Nat.add_sub_add_left]
  | false =>
      have sectors := sectors_of_within within
      have offset_ge := roundDown_le offset A.sectorSize
      have stop_ge : offset + data.length ≤ roundUp (offset + data.length) A.sectorSize :=
        le_roundUp A.sectorSize_pos
      generalize start_eq : roundDown offset A.sectorSize = start at sectors offset_ge
      generalize stop_eq : roundUp (offset + data.length) A.sectorSize = stop at sectors stop_ge
      have size_le := A.swapCount_le
      have block_le := A.blockStart_le
      have value_eq : ∀ i < A.swapCountOffset, flash (A.backupAddr + i) = view A flash i :=
        mirrors emulation
      let value : Contents := fun i ↦ flash (A.backupAddr + i)
      obtain ⟨swapErased, erased, swap_run, erase_run, erase_outside, erase_kept⟩ :=
        erase_run flash sectors
      obtain ⟨filled, restored, fill_run, last_run, restore_outside, restore_eq⟩ :=
        restore_run erased value offset data sectors fun i i_lt ↦ erase_outside.backup (by omega)
      obtain ⟨swapCount, read_run⟩ : ∃ swapCount, readSwapCount A flash = (.ok swapCount, flash) :=
        ⟨_, rfl⟩
      have last_unit_run :
          update (programLastUnit A offset data (nextSwapCount swapCount)) restored =
            (.ok (), programLastUnit A offset data (nextSwapCount swapCount) restored) := rfl
      obtain ⟨_, unit_eq⟩ := programLastUnit_apply restored value offset data
        (nextSwapCount swapCount) fun i i_lt ↦
          (restore_outside.backup i_lt).trans (erase_outside.backup i_lt)
      obtain ⟨flash', backup_run, backup_eq⟩ :=
        makeBackup_run A (programLastUnit A offset data (nextSwapCount swapCount) restored)
      refine ⟨flash', ?_, ?_, ?_⟩
      · rw [writeOtpNvCountersFlash, if_neg (by simp [emulation])]
        simp only [start_eq, stop_eq]
        rw [if_neg (Nat.not_lt.2 sectors.stop_le), Fallible.bind_of_ok read_run,
          Fallible.bind_of_ok swap_run, Fallible.bind_of_ok erase_run, Fallible.bind_of_ok fill_run,
          Fallible.bind_of_ok last_run, Fallible.bind_of_ok last_unit_run]
        exact backup_run
      · intro _ i i_lt
        rw [(backup_eq i (by omega)).1, (backup_eq i (by omega)).2]
      · intro i i_lt
        have same : value.write offset data i = (view A flash).write offset data i :=
          Cells.write_congr offset data (value_eq i i_lt)
        rw [(backup_eq i (by omega)).2, unit_eq i i_lt, ← same]
        by_cases last : A.swapCountBlockStart ≤ i
        · rw [if_pos last]
        · rw [if_neg last, restore_eq i (by omega)]
          split_ifs with inside front
          · rfl
          · exact (Cells.write_above (by omega)).symm
          · rw [Cells.write_outside (by omega), erase_kept i i_lt (by omega) (by omega)]
            exact (value_eq i i_lt).symm

end TrustedFirmwareM.NvCounters.Template
