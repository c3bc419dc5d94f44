import TrustedFirmwareM.Lib.ByteMemory
import TrustedFirmwareM.Lib.Fallible

/-!
# Reads that are not aligned

The flash driver reads data items at addresses that are multiples of its data width.  What is in
front of the first whole item and behind the last one is read by way of a buffer for one item.
-/

namespace TrustedFirmwareM.Its.UnalignedReads

/-- `uint32_t`, `size_t`. -/
abbrev Word := BitVec 32

/-- `PSA_ERROR_PROGRAMMER_ERROR`. -/
def psaErrorProgrammerError : ℤ := -129

/-- `PSA_ERROR_STORAGE_FAILURE`. -/
def psaErrorStorageFailure : ℤ := -146

/-- `ITS_BLOCK_INVALID_ID`. -/
def itsBlockInvalidId : Word := 0xFFFFFFFF

/-- `data_width` in `ARM_FLASH_CAPABILITIES`. -/
inductive DataWidth
  /-- 8 bits. -/
  | byte
  /-- 16 bits. -/
  | halfword
  /-- 32 bits. -/
  | word
  deriving DecidableEq

/-- `data_width_byte`. -/
def dataWidthByte : DataWidth → Word
  | .byte => 1
  | .halfword => 2
  | .word => 4

/-- A flash device with its driver. -/
structure Device where
  /-- The contents. -/
  content : ByteMemory
  /-- The size. -/
  size : Word
  /-- The data width. -/
  dataWidth : DataWidth
  /-- The device has whole items. -/
  size_dvd : (dataWidthByte dataWidth).toNat ∣ size.toNat
  /-- `ReadData` returns an error for this address and number of items. -/
  fails : Word → Word → Bool

/-- The data width in bytes. -/
def Device.width (F : Device) : Word := dataWidthByte F.dataWidth

/-- A call of `ReadData`. -/
structure Call where
  /-- `addr`. -/
  addr : Word
  /-- `cnt`. -/
  cnt : Word
  deriving DecidableEq

/-- Memory, and the calls of `ReadData` so far. -/
structure Machine where
  /-- Memory. -/
  memory : ByteMemory
  /-- The calls. -/
  calls : List Call

/-- `ReadData`. -/
def readData (F : Device) (addr cnt : Word) : Fallible Machine ℤ (List (BitVec 8)) := fun s ↦
  let s := { s with calls := s.calls ++ [⟨addr, cnt⟩] }
  if F.fails addr cnt then (.error psaErrorStorageFailure, s)
  else (.ok (F.content.read addr (cnt * F.width).toNat), s)

/-- Bytes are put in memory. -/
def put (a : Word) (bytes : List (BitVec 8)) : Fallible Machine ℤ Unit := fun s ↦
  (.ok (), { s with memory := s.memory.write a bytes })

/-- `aligned_addr`. -/
def alignedAddr (F : Device) (addr : Word) : Word := addr / F.width * F.width

/-- The first item is read if the address is not aligned.  The result is `read_length`. -/
def readFirst (F : Device) (addr buff size : Word) : Fallible Machine ℤ Word := do
  if alignedAddr F addr ≠ addr then
    let tempBuffer ← readData F (alignedAddr F addr) 1
    let readLength :=
      if F.width ≤ addr - alignedAddr F addr + size then F.width - (addr - alignedAddr F addr)
      else size
    put buff ((tempBuffer.drop (addr - alignedAddr F addr).toNat).take readLength.toNat)
    pure readLength
  else pure 0

/-- Whole items are read into the buffer.  The result is the new `read_length`. -/
def readItems (F : Device) (addr buff size readLength : Word) : Fallible Machine ℤ Word := do
  let itemNumber := (size - readLength) / F.width
  if itemNumber ≠ 0 then
    let bytes ← readData F (addr + readLength) itemNumber
    put (buff + readLength) bytes
    pure (readLength + itemNumber * F.width)
  else pure readLength

/-- The last item is read if there is data left. -/
def readLast (F : Device) (addr buff size readLength : Word) : Fallible Machine ℤ Unit := do
  let remainingLen := size - readLength
  if remainingLen ≠ 0 then
    let tempBuffer ← readData F (addr + readLength) 1
    put (buff + readLength) (tempBuffer.take remainingLen.toNat)
  else pure ()

/-- `flash_read_unaligned`.  `its_flash_nand_read` has a copy of it. -/
def flashReadUnaligned (F : Device) (addr buff size : Word) : Fallible Machine ℤ Unit := do
  let readLength ← readFirst F addr buff size
  let readLength ← readItems F addr buff size readLength
  readLast F addr buff size readLength

/-- `its_flash_config_t`, as far as reads need it. -/
structure FlashConfig where
  /-- `flash_area_addr`. -/
  flashAreaAddr : Word
  /-- `block_size`. -/
  blockSize : Word

/-- `get_phys_address`. -/
def getPhysAddress (cfg : FlashConfig) (blockId offset : Word) : Word :=
  cfg.flashAreaAddr + blockId * cfg.blockSize + offset

/-- `its_flash_nor_read`. -/
def itsFlashNorRead (F : Device) (cfg : FlashConfig) (blockId buff offset size : Word) :
    Fallible Machine ℤ Unit :=
  if size = 0 then pure ()
  else flashReadUnaligned F (getPhysAddress cfg blockId offset) buff size

/-- `its_flash_nand_dev_t`, as far as reads need it. -/
structure NandDev where
  /-- `buf_block_id_0`. -/
  bufBlockId0 : Word
  /-- `buf_block_id_1`. -/
  bufBlockId1 : Word
  /-- `write_buf_0`. -/
  writeBuf0 : Word
  /-- `write_buf_1`. -/
  writeBuf1 : Word

/-- `memcpy`. -/
def memcpy (dest src size : Word) : Fallible Machine ℤ Unit := fun s ↦
  (.ok (), { s with memory := s.memory.write dest (s.memory.read src size.toNat) })

/-- `its_flash_nand_read`. -/
def itsFlashNandRead (F : Device) (cfg : FlashConfig) (dev : NandDev)
    (blockId buff offset size : Word) : Fallible Machine ℤ Unit :=
  if blockId = itsBlockInvalidId then Fallible.fail psaErrorProgrammerError
  else if blockId = dev.bufBlockId0 then memcpy buff (dev.writeBuf0 + offset) size
  else if blockId = dev.bufBlockId1 then memcpy buff (dev.writeBuf1 + offset) size
  else flashReadUnaligned F (getPhysAddress cfg blockId offset) buff size

/-- A call of `ReadData` has an aligned address, and at least one item, and the items are in the
device. -/
structure Call.Proper (F : Device) (c : Call) : Prop where
  /-- The address is a multiple of the width. -/
  aligned : F.width.toNat ∣ c.addr.toNat
  /-- There are items to read. -/
  cnt_pos : 0 < c.cnt.toNat
  /-- They are in the device. -/
  inside : c.addr.toNat + c.cnt.toNat * F.width.toNat ≤ F.size.toNat

/-- What a read of some bytes leaves behind. -/
structure Reads (F : Device) (m : ByteMemory) (buff : Word) (bytes : List (BitVec 8))
    (result : Except ℤ Unit) (s : Machine) : Prop where
  /-- Calls of the driver are proper. -/
  calls : ∀ c ∈ s.calls, c.Proper F
  /-- Success leaves the bytes in the buffer, and nothing else is changed. -/
  success : result = .ok () → s.memory = m.write buff bytes
  /-- An error comes from the driver. -/
  failure : ∀ e, result = .error e → e = psaErrorStorageFailure ∧
    ∃ c ∈ s.calls, F.fails c.addr c.cnt

/-- A range is within a device. -/
def Device.Within (F : Device) (addr size : Word) : Prop := addr.toNat + size.toNat ≤ F.size.toNat

/-- The bytes of a block that a NAND read is about: what has been buffered, or is in the flash. -/
def NandDev.view (dev : NandDev) (F : Device) (cfg : FlashConfig) (m : ByteMemory)
    (blockId offset size : Word) : List (BitVec 8) :=
  if blockId = dev.bufBlockId0 then m.read (dev.writeBuf0 + offset) size.toNat
  else if blockId = dev.bufBlockId1 then m.read (dev.writeBuf1 + offset) size.toNat
  else F.content.read (getPhysAddress cfg blockId offset) size.toNat

/-- What is asked of the reads. -/
structure ReadsExactly (F : Device) (cfg : FlashConfig) (dev : NandDev) : Prop where
  /-- The read of NOR flash. -/
  nor : ∀ m blockId buff offset size, F.Within (getPhysAddress cfg blockId offset) size →
    (itsFlashNorRead F cfg blockId buff offset size).Holds ⟨m, []⟩
      (Reads F m buff (F.content.read (getPhysAddress cfg blockId offset) size.toNat))
  /-- The read of NAND flash, with its buffers. -/
  nand : ∀ m blockId buff offset size, blockId ≠ itsBlockInvalidId →
    (blockId ≠ dev.bufBlockId0 → blockId ≠ dev.bufBlockId1 →
      F.Within (getPhysAddress cfg blockId offset) size) →
      (itsFlashNandRead F cfg dev blockId buff offset size).Holds ⟨m, []⟩
        (Reads F m buff (dev.view F cfg m blockId offset size))

variable {F : Device} {addr buff size cnt : Word} {m : ByteMemory} {s : Machine} {n : ℕ} {α : Type}

/-! ### Addresses -/

theorem width_eq (F : Device) :
    F.width.toNat = 1 ∨ F.width.toNat = 2 ∨ F.width.toNat = 4 := by
  rw [Device.width]
  cases F.dataWidth with
  | byte => exact .inl rfl
  | halfword => exact .inr (.inl rfl)
  | word => exact .inr (.inr rfl)

theorem width_pos (F : Device) : 0 < F.width.toNat := by
  have widths := width_eq F
  omega

theorem alignedAddr_toNat (F : Device) (addr : Word) :
    (alignedAddr F addr).toNat = addr.toNat / F.width.toNat * F.width.toNat := by
  have le := Nat.div_mul_le_self addr.toNat F.width.toNat
  have addr_lt := addr.isLt
  rw [alignedAddr, BitVec.toNat_mul, BitVec.toNat_udiv, Nat.mod_eq_of_lt (by omega)]

theorem alignedAddr_add_mod (F : Device) (addr : Word) :
    (alignedAddr F addr).toNat + addr.toNat % F.width.toNat = addr.toNat := by
  rw [alignedAddr_toNat, Nat.div_add_mod']

/-- The distance from the aligned address. -/
theorem sub_alignedAddr_toNat (F : Device) (addr : Word) :
    (addr - alignedAddr F addr).toNat = addr.toNat % F.width.toNat := by
  have eq := alignedAddr_add_mod F addr
  bv_omega

theorem dvd_alignedAddr (F : Device)
    (addr : Word) : F.width.toNat ∣ (alignedAddr F addr).toNat := by
  rw [alignedAddr_toNat]
  exact Nat.dvd_mul_left _ _

/-- An address is aligned if the remainder is 0. -/
theorem alignedAddr_eq_iff : alignedAddr F addr = addr ↔ F.width.toNat ∣ addr.toNat := by
  have eq := alignedAddr_add_mod F addr
  rw [Nat.dvd_iff_mod_eq_zero]
  constructor
  · intro same
    rw [same] at eq
    omega
  · intro zero
    apply BitVec.eq_of_toNat_eq
    omega

/-- The end of the item of an address is in the device, if the address is. -/
theorem item_le (within : addr.toNat < F.size.toNat) (aligned : F.width.toNat ∣ addr.toNat) :
    addr.toNat + F.width.toNat ≤ F.size.toNat := by
  obtain ⟨i, i_eq⟩ := aligned
  obtain ⟨j, j_eq⟩ : F.width.toNat ∣ F.size.toNat := F.size_dvd
  rw [i_eq, j_eq] at within ⊢
  have less : i < j := lt_of_mul_lt_mul_left within (Nat.zero_le _)
  calc F.width.toNat * i + F.width.toNat = F.width.toNat * (i + 1) := (Nat.mul_succ _ _).symm
    _ ≤ F.width.toNat * j := Nat.mul_le_mul_left _ less

/-- The bytes of an item from some distance on. -/
theorem take_drop_read (memory : ByteMemory) (base : Word) {len d k : ℕ} (le : d + k ≤ len) :
    ((memory.read base len).drop d).take k = memory.read (base + BitVec.ofNat 32 d) k := by
  obtain ⟨rest, rfl⟩ := Nat.exists_eq_add_of_le le
  rw [Nat.add_assoc, ByteMemory.drop_read, ByteMemory.take_read]

/-! ### Steps -/

/-- The first bytes of a range have been read. -/
structure Upto (F : Device) (addr buff : Word) (m : ByteMemory) (n : ℕ) (s : Machine) : Prop where
  /-- They are in the buffer. -/
  memory : s.memory = m.write buff (F.content.read addr n)
  /-- Calls of the driver are proper. -/
  calls : ∀ c ∈ s.calls, c.Proper F

/-- The driver has returned an error. -/
structure Failed (F : Device) (e : ℤ) (s : Machine) : Prop where
  /-- The error of the reads. -/
  error : e = psaErrorStorageFailure
  /-- Calls of the driver are proper. -/
  calls : ∀ c ∈ s.calls, c.Proper F
  /-- One of them has failed. -/
  fails : ∃ c ∈ s.calls, F.fails c.addr c.cnt

/-- A step ends with a property, unless the driver returns an error. -/
def Ends (F : Device) (Q : α → Machine → Prop) : Except ℤ α → Machine → Prop
  | .ok value, s => Q value s
  | .error e, s => Failed F e s

theorem Upto.readData (upto : Upto F addr buff m n s) {itemAddr : Word}
    (proper : Call.Proper F ⟨itemAddr, cnt⟩) :
    (readData F itemAddr cnt).Holds s (Ends F fun bytes t ↦
      bytes = F.content.read itemAddr (cnt * F.width).toNat ∧ Upto F addr buff m n t) := by
  have calls : ∀ c ∈ s.calls ++ [⟨itemAddr, cnt⟩], c.Proper F := by
    intro c mem
    rcases List.mem_append.mp mem with mem | last
    · exact upto.calls c mem
    · exact List.mem_singleton.mp last ▸ proper
  unfold Fallible.Holds UnalignedReads.readData
  cases fails : F.fails itemAddr cnt with
  | true => exact ⟨rfl, calls, ⟨itemAddr, cnt⟩, by simp, fails⟩
  | false => exact ⟨rfl, upto.memory, calls⟩

/-- More bytes are put behind the ones that have been read. -/
theorem Upto.put (upto : Upto F addr buff m n s) {k : ℕ} (small : n + k ≤ 2 ^ 32) :
    (put (buff + BitVec.ofNat 32 n) (F.content.read (addr + BitVec.ofNat 32 n) k)).Holds s
      (Ends F fun _ t ↦ Upto F addr buff m (n + k) t) := by
  constructor
  · have lengths : (F.content.read addr n).length +
        (F.content.read (addr + BitVec.ofNat 32 n) k).length ≤ 2 ^ 32 := by simpa using small
    rw [ByteMemory.read_add, ← ByteMemory.write_append lengths, ByteMemory.length_read,
      ← upto.memory]
    rfl
  · exact upto.calls

/-- The bytes that have been read end where an item starts, unless they are all. -/
structure UptoItem (F : Device) (addr buff size : Word) (m : ByteMemory) (n : Word) (s : Machine) :
    Prop where
  /-- The bytes have been read. -/
  upto : Upto F addr buff m n.toNat s
  /-- There are not more of them than asked for. -/
  le : n.toNat ≤ size.toNat
  /-- The next item starts behind them. -/
  aligned : n = size ∨ F.width.toNat ∣ addr.toNat + n.toNat

/-- `read_length` after the first item. -/
theorem readLength_toNat (within : F.Within addr size) :
    (if F.width ≤ addr - alignedAddr F addr + size then F.width - (addr - alignedAddr F addr)
      else size).toNat =
        if F.width.toNat ≤ addr.toNat % F.width.toNat + size.toNat then
          F.width.toNat - addr.toNat % F.width.toNat
        else size.toNat := by
  have distance := sub_alignedAddr_toNat F addr
  have rest := Nat.mod_lt addr.toNat (width_pos F)
  have below := Nat.mod_le addr.toNat F.width.toNat
  have size_lt := F.size.isLt
  rw [Device.Within] at within
  have sum : (addr - alignedAddr F addr + size).toNat =
      addr.toNat % F.width.toNat + size.toNat := by
    rw [BitVec.toNat_add, distance, Nat.mod_eq_of_lt (by omega)]
  simp only [BitVec.le_def, sum]
  split
  · rw [BitVec.toNat_sub_of_le, distance]
    rw [BitVec.le_def, distance]
    exact rest.le
  · rfl

/-- The bytes of the first item are as many as asked for, or they end with the item. -/
theorem readLength_le {readLength : Word} (length : readLength.toNat =
    if F.width.toNat ≤ addr.toNat % F.width.toNat + size.toNat then
      F.width.toNat - addr.toNat % F.width.toNat
    else size.toNat) :
    addr.toNat % F.width.toNat + readLength.toNat ≤ F.width.toNat ∧
      readLength.toNat ≤ size.toNat ∧
        (readLength = size ∨ F.width.toNat ∣ addr.toNat + readLength.toNat) := by
  have rest := Nat.mod_lt addr.toNat (width_pos F)
  rw [length]
  split
  · next whole =>
      refine ⟨by omega, by omega, .inr ?_⟩
      have eq := Nat.div_add_mod addr.toNat F.width.toNat
      use addr.toNat / F.width.toNat + 1
      rw [Nat.mul_add]
      omega
  · next part =>
      rw [if_neg part] at length
      exact ⟨by omega, Nat.le_refl _, .inl (BitVec.eq_of_toNat_eq length)⟩

/-- The bytes of the first item that are asked for. -/
theorem take_item (le : addr.toNat % F.width.toNat + n ≤ F.width.toNat) :
    ((F.content.read (alignedAddr F addr) (1 * F.width).toNat).drop
        (addr - alignedAddr F addr).toNat).take n =
      F.content.read (addr + BitVec.ofNat 32 0) n := by
  have width : (1 * F.width).toNat = F.width.toNat := by simp
  rw [width, sub_alignedAddr_toNat, take_drop_read _ _ le]
  have eq := alignedAddr_add_mod F addr
  congr 1
  bv_omega

theorem readFirst_holds (within : F.Within addr size) (upto : Upto F addr buff m 0 s) :
    (readFirst F addr buff size).Holds s (Ends F (UptoItem F addr buff size m)) := by
  rw [readFirst]
  split
  · next not_aligned =>
      have eq := alignedAddr_add_mod F addr
      have inside : addr.toNat < F.size.toNat := by
        have ne : addr.toNat ≠ F.size.toNat := by
          intro same
          exact not_aligned (alignedAddr_eq_iff.mpr (same ▸ F.size_dvd))
        rw [Device.Within] at within
        omega
      have proper : Call.Proper F ⟨alignedAddr F addr, 1⟩ := by
        have le : (alignedAddr F addr).toNat + F.width.toNat ≤ F.size.toNat :=
          item_le (by omega) (dvd_alignedAddr F addr)
        exact ⟨dvd_alignedAddr F addr, Nat.one_pos, by simpa using le⟩
      apply (upto.readData proper).bind
      · rintro bytes t ⟨rfl, upto⟩
        have length := readLength_toNat within
        dsimp only
        generalize (if F.width ≤ addr - alignedAddr F addr + size then
          F.width - (addr - alignedAddr F addr) else size) = readLength at length ⊢
        have fits := readLength_le length
        rw [take_item fits.1]
        have start : buff + BitVec.ofNat 32 0 = buff := by simp
        nth_rewrite 1 [← start]
        apply (upto.put (by omega)).bind
        · rintro _ t upto
          rw [Nat.zero_add] at upto
          exact ⟨upto, fits.2.1, fits.2.2⟩
        · intro e t failed
          exact failed
      · intro e t failed
        exact failed
  · next aligned =>
      rw [ne_eq, not_not, alignedAddr_eq_iff] at aligned
      exact ⟨upto, Nat.zero_le _, .inr (by simpa using aligned)⟩

theorem ofNat_toNat (a : Word) : BitVec.ofNat 32 a.toNat = a := by simp

/-- The items that are wholly in the rest of the range. -/
theorem whole_items {readLength : Word} (le : readLength.toNat ≤ size.toNat) :
    ((size - readLength) / F.width * F.width).toNat =
        ((size - readLength) / F.width).toNat * F.width.toNat ∧
      readLength.toNat + ((size - readLength) / F.width).toNat * F.width.toNat ≤ size.toNat ∧
        size.toNat < readLength.toNat + ((size - readLength) / F.width).toNat * F.width.toNat +
          F.width.toNat := by
  have rest : (size - readLength).toNat = size.toNat - readLength.toNat :=
    BitVec.toNat_sub_of_le le
  have items_le := Nat.div_mul_le_self (size.toNat - readLength.toNat) F.width.toNat
  have below := Nat.lt_div_mul_add (a := size.toNat - readLength.toNat) (width_pos F)
  have size_lt := size.isLt
  rw [BitVec.toNat_mul, BitVec.toNat_udiv, rest]
  refine ⟨Nat.mod_eq_of_lt (by omega), by omega, by omega⟩

theorem readItems_holds {readLength : Word} (within : F.Within addr size)
    (upto : UptoItem F addr buff size m readLength s) :
    (readItems F addr buff size readLength).Holds s (Ends F fun n t ↦
      UptoItem F addr buff size m n t ∧ size.toNat < n.toNat + F.width.toNat) := by
  obtain ⟨product, le, below⟩ := whole_items (F := F) upto.le
  have size_lt := F.size.isLt
  rw [Device.Within] at within
  rw [readItems]
  generalize (size - readLength) / F.width = itemNumber at product le below
  split
  · next some_items =>
      have cnt_pos : 0 < itemNumber.toNat :=
        Nat.pos_of_ne_zero fun zero ↦ some_items (BitVec.eq_of_toNat_eq zero)
      have bytes_pos := Nat.mul_pos cnt_pos (width_pos F)
      have address : (addr + readLength).toNat = addr.toNat + readLength.toNat := by
        rw [BitVec.toNat_add, Nat.mod_eq_of_lt (by omega)]
      have aligned : F.width.toNat ∣ addr.toNat + readLength.toNat := by
        rcases upto.aligned with rfl | aligned
        · omega
        · exact aligned
      have proper : Call.Proper F ⟨addr + readLength, itemNumber⟩ := by
        refine ⟨address ▸ aligned, cnt_pos, ?_⟩
        dsimp only
        omega
      apply (upto.upto.readData proper).bind
      · rintro bytes t ⟨rfl, read⟩
        rw [product]
        have put := read.put (k := itemNumber.toNat * F.width.toNat) (by omega)
        rw [ofNat_toNat] at put
        apply put.bind
        · rintro _ t read
          have total : (readLength + itemNumber * F.width).toNat =
              readLength.toNat + itemNumber.toNat * F.width.toNat := by
            rw [BitVec.toNat_add, product, Nat.mod_eq_of_lt (by omega)]
          rw [← total] at read le below
          refine ⟨⟨read, le, .inr ?_⟩, below⟩
          rw [total, ← Nat.add_assoc]
          exact Nat.dvd_add aligned (Nat.dvd_mul_left _ _)
        · intro e t failed
          exact failed
      · intro e t failed
        exact failed
  · next no_items =>
      rw [ne_eq, not_not] at no_items
      rw [no_items] at below
      exact ⟨upto, by simpa using below⟩

theorem readLast_holds {readLength : Word} (within : F.Within addr size)
    (upto : UptoItem F addr buff size m readLength s)
    (below : size.toNat < readLength.toNat + F.width.toNat) :
    (readLast F addr buff size readLength).Holds s (Ends F fun _ t ↦
      Upto F addr buff m size.toNat t) := by
  have le := upto.le
  have rest : (size - readLength).toNat = size.toNat - readLength.toNat :=
    BitVec.toNat_sub_of_le upto.le
  have size_lt := F.size.isLt
  rw [Device.Within] at within
  rw [readLast]
  split
  · next some_left =>
      have left_pos : 0 < (size - readLength).toNat :=
        Nat.pos_of_ne_zero fun zero ↦ some_left (BitVec.eq_of_toNat_eq zero)
      have address : (addr + readLength).toNat = addr.toNat + readLength.toNat := by
        rw [BitVec.toNat_add, Nat.mod_eq_of_lt (by omega)]
      have aligned : F.width.toNat ∣ (addr + readLength).toNat := by
        rw [address]
        rcases upto.aligned with rfl | aligned
        · omega
        · exact aligned
      have item : (addr + readLength).toNat + F.width.toNat ≤ F.size.toNat :=
        item_le (by omega) aligned
      have proper : Call.Proper F ⟨addr + readLength, 1⟩ :=
        ⟨aligned, Nat.one_pos, by simpa using item⟩
      apply (upto.upto.readData proper).bind
      · rintro bytes t ⟨rfl, read⟩
        have width : (1 * F.width).toNat = F.width.toNat := by simp
        have part := take_drop_read F.content (addr + readLength)
          (show 0 + (size - readLength).toNat ≤ F.width.toNat by omega)
        rw [List.drop_zero, BitVec.add_zero] at part
        rw [width, part]
        have put := read.put (k := (size - readLength).toNat) (by omega)
        rw [ofNat_toNat, rest, Nat.add_sub_cancel' le] at put
        rw [rest]
        exact put
      · intro e t failed
        exact failed
  · next none_left =>
      rw [ne_eq, not_not] at none_left
      rw [none_left] at rest
      have all : readLength.toNat = size.toNat := by
        have zero : 0 = size.toNat - readLength.toNat := rest
        omega
      rw [← all]
      exact upto.upto

/-- An unaligned read reads the bytes of the range. -/
theorem flashReadUnaligned_holds (within : F.Within addr size) :
    (flashReadUnaligned F addr buff size).Holds ⟨m, []⟩
      (Reads F m buff (F.content.read addr size.toNat)) := by
  have start : Upto F addr buff m 0 ⟨m, []⟩ := ⟨by simp [ByteMemory.read], by simp⟩
  have reads : (flashReadUnaligned F addr buff size).Holds ⟨m, []⟩
      (Ends F fun _ t ↦ Upto F addr buff m size.toNat t) := by
    apply (readFirst_holds within start).bind
    · intro readLength t upto
      apply (readItems_holds within upto).bind
      · rintro readLength t ⟨upto, below⟩
        exact readLast_holds within upto below
      · intro e t failed
        exact failed
    · intro e t failed
      exact failed
  apply reads.mono
  intro result t ends
  cases result with
  | ok value =>
      constructor
      · exact ends.calls
      · exact fun _ ↦ ends.memory
      · simp
  | error e =>
      constructor
      · exact ends.calls
      · simp
      · rintro _ ⟨⟩
        exact ⟨ends.error, ends.fails⟩

/-- A read by `memcpy` needs no call of the driver. -/
theorem memcpy_holds {src : Word} :
    (memcpy buff src size).Holds ⟨m, []⟩ (Reads F m buff (m.read src size.toNat)) := by
  constructor
  · simp [memcpy]
  · exact fun _ ↦ rfl
  · simp [memcpy]

/-- The reads of NOR and NAND flash leave exactly the bytes of the range in the buffer, and call the
driver with whole items at aligned addresses only. -/
theorem readsExactly (F : Device) (cfg : FlashConfig) (dev : NandDev) : ReadsExactly F cfg dev where
  nor := by
    intro m blockId buff offset size within
    rw [itsFlashNorRead]
    split
    · next zero =>
        constructor
        · simp [pure]
        · intro _
          rw [zero]
          rfl
        · simp [pure]
    · exact flashReadUnaligned_holds within
  nand := by
    intro m blockId buff offset size valid within
    rw [itsFlashNandRead, if_neg valid, NandDev.view]
    split
    · exact memcpy_holds
    · next other =>
        split
        · exact memcpy_holds
        · next other' => exact flashReadUnaligned_holds (within other other')

end TrustedFirmwareM.Its.UnalignedReads
