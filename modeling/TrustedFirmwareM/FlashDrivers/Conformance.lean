import TrustedFirmwareM.FlashDrivers.Drivers

/-!
# What the flash and RRAM drivers do

Callers rely on the geometry that an instance announces: sectors are erased, items are programmed,
and nothing outside of the region is touched.
-/

namespace TrustedFirmwareM.FlashDrivers

variable {P : Pdl} {φ : Type}

/-! ## Regions -/

/-- The bytes of the region of an instance. -/
def Obj.Region (obj : Obj) (a : Word) : Prop :=
  ∃ d < obj.flashInfo.sectorSize.toNat * obj.flashInfo.sectorCount.toNat,
    a = obj.startAddress + BitVec.ofNat 32 d

/-- Nothing outside of a region is read or changed. -/
structure Stays (Region : Word → Prop) (s s' : Machine φ) : Prop where
  /-- What is read or written is in the region. -/
  accesses : ∃ accesses, s'.accesses = s.accesses ++ accesses ∧
    ∀ e ∈ accesses, ∀ i < e.2, Region (e.1 + BitVec.ofNat 32 i)
  /-- What is outside of it is as it was. -/
  memory : ∀ a, ¬Region a → s'.memory a = s.memory a

variable {Region : Word → Prop} {s s' s'' : Machine φ}

theorem Stays.refl (s : Machine φ) : Stays Region s s where
  accesses := ⟨[], by simp⟩
  memory _ _ := rfl

theorem Stays.trans (first : Stays Region s s') (second : Stays Region s' s'') :
    Stays Region s s'' := by
  obtain ⟨accesses, eq, inside⟩ := first.accesses
  obtain ⟨accesses', eq', inside'⟩ := second.accesses
  constructor
  · use accesses ++ accesses'
    constructor
    · rw [eq', eq, List.append_assoc]
    · intro e e_mem
      cases List.mem_append.1 e_mem with
      | inl mem => exact inside e mem
      | inr mem => exact inside' e mem
  · intro a outside
    rw [second.memory a outside, first.memory a outside]

theorem write_outside {memory : ByteMemory} {base : Word} {bytes : List (BitVec 8)} {a : Word}
    (inside : ∀ i < bytes.length, Region (base + BitVec.ofNat 32 i)) (outside : ¬Region a) :
    memory.write base bytes a = memory a := by
  obtain ⟨d, d_lt, rfl⟩ := ByteMemory.exists_distance base a
  rw [ByteMemory.write_start d_lt]
  rcases Nat.lt_or_ge d bytes.length with lt | ge
  · exact absurd (inside d lt) outside
  · rw [List.getElem?_eq_none ge, Option.getD_none]

theorem Stays.read {base : Word} {len : ℕ} (inside : ∀ i < len, Region (base + BitVec.ofNat 32 i)) :
    Stays Region s (s.read base len).2 where
  accesses := ⟨[(base, len)], rfl, by simpa using inside⟩
  memory _ _ := rfl

/-- What a call of the library does. -/
theorem call_spec (s : Machine φ) {base : Word} {bytes : List (BitVec 8)}
    (inside : ∀ i < bytes.length, Region (base + BitVec.ofNat 32 i)) :
    Stays Region s (s.call base bytes).2 ∧
      ((s.call base bytes).1 = none → (s.call base bytes).2.memory = s.memory.write base bytes) ∧
      ∃ left, left.length = bytes.length ∧
        ((s.call base bytes).1 ≠ none →
          (s.call base bytes).2.memory = s.memory.write base left) := by
  rw [Machine.call]
  cases s.fault s.calls with
  | some f =>
      have length : ((List.range bytes.length).map f.left).length = bytes.length := by
        simp
      refine ⟨⟨⟨[(base, bytes.length)], rfl, by simpa using inside⟩, ?_⟩, by simp,
        (List.range bytes.length).map f.left, length, fun _ ↦ rfl⟩
      intro a outside
      exact write_outside (by simpa using inside) outside
  | none =>
      refine ⟨⟨⟨[(base, bytes.length)], rfl, by simpa using inside⟩, ?_⟩, fun _ ↦ rfl, bytes, rfl,
        by simp⟩
      intro a outside
      exact write_outside inside outside

/-- The size of the region as it is computed. -/
def FlashInfo.regionSize (flashInfo : FlashInfo) : Word :=
  flashInfo.sectorSize * flashInfo.sectorCount

theorem FlashInfo.regionSize_le (flashInfo : FlashInfo) :
    flashInfo.regionSize.toNat ≤ flashInfo.sectorSize.toNat * flashInfo.sectorCount.toNat := by
  rw [FlashInfo.regionSize, BitVec.toNat_mul]
  exact Nat.mod_le _ _

/-- What `ifx_flash_driver_validate_region` accepts. -/
theorem validateRegion_eq_ok_iff (flashInfo : FlashInfo) (address size : Word) :
    ifxFlashDriverValidateRegion flashInfo address size = armDriverOk ↔
      0 < size.toNat ∧ address.toNat + size.toNat ≤ flashInfo.regionSize.toNat := by
  simp only [ifxFlashDriverValidateRegion, FlashInfo.regionSize]
  generalize flashInfo.sectorSize * flashInfo.sectorCount = regionSize
  split_ifs <;> simp only [armDriverErrorParameter, armDriverOk, reduceCtorEq, true_iff,
    Int.reduceNeg, false_iff, not_and, not_le] <;> bv_omega

theorem Obj.region_of_validated {obj : Obj} {addr size : Word}
    (validated : ifxFlashDriverValidateRegion obj.flashInfo addr size = armDriverOk) {i : ℕ}
    (i_lt : i < size.toNat) : obj.Region (obj.startAddress + addr + BitVec.ofNat 32 i) := by
  obtain ⟨_, le⟩ := (validateRegion_eq_ok_iff obj.flashInfo addr size).1 validated
  have le' := obj.flashInfo.regionSize_le
  refine ⟨addr.toNat + i, by omega, ?_⟩
  rw [BitVec.add_assoc, BitVec.ofNat_add, BitVec.ofNat_toNat, BitVec.setWidth_eq]

/-- What `ifx_flash_driver_initialize` accepts, as far as it matters for the operations. -/
theorem initialize_eq_ok {flashInfo : FlashInfo} {startAddress : Word} {n : ℕ} (n_lt : n < 2 ^ 32)
    (accepted : ifxFlashDriverInitialize flashInfo startAddress (BitVec.ofNat 32 n) = armDriverOk) :
    n ∣ startAddress.toNat ∧ n ∣ flashInfo.sectorSize.toNat ∧ flashInfo.sectorSize ≠ 0 := by
  have dvd_of {w : Word} (rest : w % BitVec.ofNat 32 n = 0) : n ∣ w.toNat := by
    have rest' : (w % BitVec.ofNat 32 n).toNat = 0 := by
      rw [rest]
      rfl
    rw [BitVec.toNat_umod, BitVec.toNat_ofNat, Nat.mod_eq_of_lt n_lt] at rest'
    exact Nat.dvd_of_mod_eq_zero rest'
  simp only [ifxFlashDriverInitialize] at accepted
  split_ifs at accepted with start uniform count sector page unit
  all_goals try simp [armDriverErrorParameter, armDriverOk] at accepted
  obtain ⟨sector_ne, sector_dvd⟩ := not_or.1 sector
  exact ⟨dvd_of (not_not.1 start), dvd_of (not_not.1 sector_dvd), sector_ne⟩

/-- An instance of the flash driver. -/
structure FlashInstance (P : Pdl) extends Obj where
  /-- It has been initialised. -/
  accepted : ifxDriverFlashInitialize P toObj false = armDriverOk

/-- An instance of the RRAM driver. -/
structure RramInstance (P : Pdl) extends Obj where
  /-- It has been initialised. -/
  accepted : ifxDriverRramInitialize P toObj false = armDriverOk

theorem FlashInstance.geometry (I : FlashInstance P) : P.rowSize ∣ I.startAddress.toNat ∧
    P.rowSize ∣ I.flashInfo.sectorSize.toNat ∧ I.flashInfo.sectorSize ≠ 0 :=
  initialize_eq_ok P.row_lt I.accepted

theorem RramInstance.geometry (I : RramInstance P) : P.blockSize ∣ I.startAddress.toNat ∧
    P.blockSize ∣ I.flashInfo.sectorSize.toNat ∧ I.flashInfo.sectorSize ≠ 0 :=
  initialize_eq_ok P.block_lt I.accepted

theorem FlashInstance.row_dvd_regionSize (I : FlashInstance P) :
    P.rowSize ∣ I.flashInfo.regionSize.toNat := by
  rw [FlashInfo.regionSize, BitVec.toNat_mul]
  exact (Nat.dvd_mod_iff P.row_dvd).2 (Dvd.dvd.mul_right I.geometry.2.1 _)

/-! ## Programming rows -/

section Rows

variable (I : FlashInstance P)

/-- Where an offset of the region is in its row. -/
theorem FlashInstance.offset_eq (d : ℕ) :
    (I.startAddress + BitVec.ofNat 32 d).toNat % P.rowSize = d % P.rowSize := by
  obtain ⟨k, start_eq⟩ := I.geometry.1
  rw [BitVec.toNat_add, BitVec.toNat_ofNat, Nat.add_mod_mod, Nat.mod_mod_of_dvd _ P.row_dvd,
    start_eq, Nat.mul_add_mod]

theorem rowAddress_add (address : Word) :
    BitVec.ofNat 32 (address.toNat / P.rowSize * P.rowSize) +
      BitVec.ofNat 32 (address.toNat % P.rowSize) = address := by
  rw [← BitVec.ofNat_add, Nat.div_add_mod', BitVec.ofNat_toNat, BitVec.setWidth_eq]

/-- The row of an offset of the region. -/
theorem FlashInstance.rowAddress_eq (d : ℕ) :
    BitVec.ofNat 32 ((I.startAddress + BitVec.ofNat 32 d).toNat / P.rowSize * P.rowSize) =
      I.startAddress + BitVec.ofNat 32 (d - d % P.rowSize) := by
  have row := rowAddress_add (P := P) (I.startAddress + BitVec.ofNat 32 d)
  have parts : d - d % P.rowSize + d % P.rowSize = d := Nat.sub_add_cancel (Nat.mod_le d P.rowSize)
  rw [I.offset_eq] at row
  rw [← BitVec.add_left_inj (BitVec.ofNat 32 (d % P.rowSize)), row, BitVec.add_assoc,
    ← BitVec.ofNat_add, parts]

/-- The row of an offset of the region is in the region. -/
theorem FlashInstance.row_region {d i : ℕ} (d_lt : d < I.flashInfo.regionSize.toNat)
    (i_lt : i < P.rowSize) :
    I.Region (I.startAddress + BitVec.ofNat 32 (d - d % P.rowSize) + BitVec.ofNat 32 i) := by
  have le := I.flashInfo.regionSize_le
  have row_le : d - d % P.rowSize + P.rowSize ≤ I.flashInfo.regionSize.toNat :=
    Nat.le_of_lt_add_of_dvd (by omega) (Nat.dvd_add (Nat.dvd_sub_mod d) (Nat.dvd_refl _))
      I.row_dvd_regionSize
  refine ⟨d - d % P.rowSize + i, by omega, ?_⟩
  rw [BitVec.add_assoc, ← BitVec.ofNat_add]

/-- A row is programmed with what has been read from it and a chunk in place. -/
theorem write_row (memory : ByteMemory) (base : Word) (chunk : List (BitVec 8)) {offset row : ℕ}
    (fits : offset + chunk.length ≤ row) (row_le : row ≤ 2 ^ 32) :
    memory.write base ((memory.read base row).take offset ++ chunk ++
        (memory.read base row).drop (offset + chunk.length)) =
      memory.write (base + BitVec.ofNat 32 offset) chunk := by
  obtain ⟨k, rfl⟩ := Nat.exists_eq_add_of_le fits
  rw [ByteMemory.drop_read, Nat.add_assoc, ByteMemory.take_read,
    ByteMemory.write_read_around row_le]

/-- Data that are written in two parts. -/
theorem write_chunks (data : ℕ → BitVec 8) (dataPtr : ℕ) {memory : ByteMemory} {address : Word}
    {chunk size : ℕ} (chunk_le : chunk ≤ size) (size_le : size ≤ 2 ^ 32) :
    (memory.write address ((List.range chunk).map fun i ↦ data (dataPtr + i))).write
        (address + BitVec.ofNat 32 chunk)
        ((List.range (size - chunk)).map fun i ↦ data (dataPtr + chunk + i)) =
      memory.write address ((List.range size).map fun i ↦ data (dataPtr + i)) := by
  obtain ⟨rest, rfl⟩ := Nat.exists_eq_add_of_le chunk_le
  have length : ((List.range chunk).map fun i ↦ data (dataPtr + i)).length = chunk := by
    rw [List.length_map, List.length_range]
  have base : address + BitVec.ofNat 32 chunk = address +
      BitVec.ofNat 32 ((List.range chunk).map fun i ↦ data (dataPtr + i)).length := by
    rw [length]
  rw [base, ByteMemory.write_append (by simpa using size_le), List.range_add, List.map_append,
    List.map_map, Nat.add_sub_cancel_left]
  simp only [Function.comp_def, Nat.add_assoc]

/-- A turn of the loop programs a chunk of a row. -/
theorem programChunk_spec (data : ℕ → BitVec 8) {d : ℕ} (dataPtr : ℕ) {chunk : ℕ}
    (s : Machine FlashStatus) (d_lt : d < I.flashInfo.regionSize.toNat)
    (chunk_le : d % P.rowSize + chunk ≤ P.rowSize) :
    let r := programChunk P data (I.startAddress + BitVec.ofNat 32 d) dataPtr chunk s
    Stays I.Region s r.2 ∧ (r.1 = none → r.2.memory =
      s.memory.write (I.startAddress + BitVec.ofNat 32 d)
        ((List.range chunk).map fun i ↦ data (dataPtr + i))) := by
  have inside : ∀ i < P.rowSize, I.Region
      (I.startAddress + BitVec.ofNat 32 (d - d % P.rowSize) + BitVec.ofNat 32 i) :=
    fun i i_lt ↦ I.row_region d_lt i_lt
  have row_offset : I.startAddress + BitVec.ofNat 32 (d - d % P.rowSize) +
      BitVec.ofNat 32 (d % P.rowSize) = I.startAddress + BitVec.ofNat 32 d := by
    rw [BitVec.add_assoc, ← BitVec.ofNat_add, Nat.sub_add_cancel (Nat.mod_le d P.rowSize)]
  simp only [programChunk, I.offset_eq, I.rowAddress_eq, Machine.read, cyFlashProgramRow]
  generalize I.startAddress + BitVec.ofNat 32 (d - d % P.rowSize) = row at inside row_offset
  generalize chunk_eq : ((List.range chunk).map fun i ↦ data (dataPtr + i)) = bytes
  have length : bytes.length = chunk := by
    rw [← chunk_eq, List.length_map, List.length_range]
  subst length
  have programmed := write_row s.memory row bytes chunk_le P.row_lt.le
  have buf_length : ((s.memory.read row P.rowSize).take (d % P.rowSize) ++ bytes ++
      (s.memory.read row P.rowSize).drop (d % P.rowSize + bytes.length)).length = P.rowSize := by
    simp only [List.length_append, List.length_take, List.length_drop, ByteMemory.length_read]
    omega
  have looked : Stays I.Region s (s.read row P.rowSize).2 := Stays.read inside
  obtain ⟨call_stays, call_ok, _⟩ := call_spec (s.read row P.rowSize).2 (by
    rw [buf_length]
    exact inside)
  refine ⟨looked.trans call_stays, fun finished ↦ ?_⟩
  rw [← row_offset, ← programmed]
  exact call_ok finished

/-- The loop programs the data, and reads and writes rows of the region. -/
theorem programLoop_spec (data : ℕ → BitVec 8) (status : Option FlashStatus) {d : ℕ} (dataPtr : ℕ)
    {size : Word} (s : Machine FlashStatus)
    (within : d + size.toNat ≤ I.flashInfo.regionSize.toNat) :
    let r := programLoop P data status (I.startAddress + BitVec.ofNat 32 d) dataPtr size s
    Stays I.Region s r.2 ∧ (r.1 = none → r.2.memory =
      s.memory.write (I.startAddress + BitVec.ofNat 32 d)
        ((List.range size.toNat).map fun i ↦ data (dataPtr + i))) := by
  induction remaining : size.toNat using Nat.strong_induction_on
    generalizing status d dataPtr size s with
  | _ remaining ih =>
      subst remaining
      simp only
      rw [programLoop]
      by_cases done : size = 0
      · rw [if_pos done, done]
        exact ⟨Stays.refl s, fun _ ↦ by simp⟩
      · have pos : 0 < size.toNat := by
          bv_omega
        have offset_lt := Nat.mod_lt d P.row_pos
        have region_lt := I.flashInfo.regionSize.isLt
        simp only [if_neg done, I.offset_eq]
        have chunk_le : d % P.rowSize + chunkSize P (d % P.rowSize) size.toNat ≤ P.rowSize := by
          have le := Nat.mod_le d P.rowSize
          rw [chunkSize]
          split_ifs with long
          · omega
          · rw [Nat.mod_eq_of_lt (by omega)] at long
            omega
        obtain ⟨chunk_pos, chunk_le'⟩ := chunkSize_bounds offset_lt pos size.isLt
        generalize chunkSize P (d % P.rowSize) size.toNat = chunk at chunk_le chunk_pos chunk_le' ⊢
        obtain ⟨first_stays, first_ok⟩ :=
          programChunk_spec I data dataPtr s (by omega) chunk_le
        generalize programChunk P data (I.startAddress + BitVec.ofNat 32 d) dataPtr chunk s = first
          at first_stays first_ok ⊢
        rcases first with ⟨_ | e, s'⟩
        · have next : (size - BitVec.ofNat 32 chunk).toNat = size.toNat - chunk := by
            bv_omega
          have address_eq : I.startAddress + BitVec.ofNat 32 d + BitVec.ofNat 32 chunk =
              I.startAddress + BitVec.ofNat 32 (d + chunk) := by
            rw [BitVec.add_assoc, ← BitVec.ofNat_add]
          obtain ⟨rest_stays, rest_ok⟩ := ih (size - BitVec.ofNat 32 chunk).toNat (by omega) none
            (d := d + chunk) (dataPtr + chunk) s' (by omega) rfl
          simp only [address_eq]
          refine ⟨first_stays.trans rest_stays, fun finished ↦ ?_⟩
          rw [rest_ok finished, first_ok rfl, next, ← address_eq,
            write_chunks data dataPtr chunk_le' size.isLt.le]
        · exact ⟨first_stays, by simp⟩

end Rows

/-! ## Writing to RRAM -/

section Rram

theorem ifxRramdrvToRegularStatus_neg (e : RramStatus) :
    ifxRramdrvToRegularStatus (some e) < 0 := by
  cases e <;> simp [ifxRramdrvToRegularStatus, armDriverErrorBusy, armDriverErrorTimeout,
    armDriverErrorParameter, armDriverError]

theorem ifxFlashdrvToRegularStatus_neg (e : FlashStatus) :
    ifxFlashdrvToRegularStatus (some e) < 0 := by
  cases e <;> simp [ifxFlashdrvToRegularStatus, armDriverErrorBusy, armDriverErrorParameter,
    armDriverError]

theorem validateRegion_cases (flashInfo : FlashInfo) (address size : Word) :
    ifxFlashDriverValidateRegion flashInfo address size = armDriverOk ∨
      ifxFlashDriverValidateRegion flashInfo address size = armDriverErrorParameter := by
  simp only [ifxFlashDriverValidateRegion]
  split_ifs
  · exact Or.inr rfl
  · exact Or.inr rfl
  · exact Or.inr rfl
  · exact Or.inl rfl

variable {s : Machine RramStatus} {address : Word} {data : List (BitVec 8)}

/-- However often it is tried, the data are written in the end, or there is a status. -/
theorem writeTries_spec (inside : ∀ i < data.length, Region (address + BitVec.ofNat 32 i)) (n : ℕ)
    (s : Machine RramStatus) : Stays Region s (writeTries address data n s).2 ∧
      ((writeTries address data n s).1 = none →
        (writeTries address data n s).2.memory = s.memory.write address data) := by
  induction n generalizing s with
  | zero =>
      obtain ⟨stays, written, _⟩ := call_spec s inside
      exact ⟨stays, written⟩
  | succ n ih =>
      obtain ⟨stays, written, left, length, left_eq⟩ := call_spec s inside
      simp only [writeTries, cyRramNvmWriteByteArray]
      generalize s.call address data = called at stays written left_eq ⊢
      obtain ⟨status, after⟩ := called
      rcases status with _ | e
      · exact ⟨stays, written⟩
      · cases e with
        | acquirePcLockFail =>
            obtain ⟨rest_stays, rest_written⟩ := ih after
            refine ⟨stays.trans rest_stays, fun done ↦ ?_⟩
            rw [rest_written done, left_eq (by simp), ByteMemory.write_write length]
        | _ => exact ⟨stays, written⟩

theorem readBack_spec (inside : ∀ i < data.length, Region (address + BitVec.ofNat 32 i))
    (result : ℤ) (s : Machine RramStatus) :
    Stays Region s (readBack P address data result s).2 ∧
      (readBack P address data result s).2.memory = s.memory ∧
      ((readBack P address data result s).1 = result ∨
        (readBack P address data result s).1 < 0) := by
  have looked : Stays Region s (s.read address data.length).2 := Stays.read inside
  simp only [readBack]
  split_ifs
  · exact ⟨looked, rfl, Or.inr (by simp [armDriverErrorSpecific])⟩
  · exact ⟨looked, rfl, Or.inl rfl⟩
  · exact ⟨Stays.refl s, rfl, Or.inl rfl⟩

/-- `ifx_driver_rram_write` writes the data, or there is a status. -/
theorem ifxDriverRramWrite_spec (inside : ∀ i < data.length, Region (address + BitVec.ofNat 32 i))
    (s : Machine RramStatus) : Stays Region s (ifxDriverRramWrite P address data s).2 ∧
      ((ifxDriverRramWrite P address data s).1 = armDriverOk →
        (ifxDriverRramWrite P address data s).2.memory = s.memory.write address data) ∧
      ((ifxDriverRramWrite P address data s).1 = armDriverOk ∨
        (ifxDriverRramWrite P address data s).1 < 0) := by
  obtain ⟨stays, written⟩ := writeTries_spec inside (P.retries - 1) s
  rw [ifxDriverRramWrite]
  generalize writeTries address data (P.retries - 1) s = tried at stays written ⊢
  rcases tried with ⟨_ | e, after⟩
  · obtain ⟨back_stays, back_memory, back_result⟩ := readBack_spec (P := P) inside armDriverOk after
    exact ⟨stays.trans back_stays, fun _ ↦ back_memory.trans (written rfl), back_result⟩
  · have neg := ifxRramdrvToRegularStatus_neg e
    refine ⟨stays, fun ok ↦ ?_, Or.inr neg⟩
    rw [show ifxRramdrvToRegularStatus (some e) = armDriverOk from ok] at neg
    exact absurd neg (by simp [armDriverOk])

variable (I : RramInstance P)

/-- The loop of `ifx_driver_rram_erase_sector` erases what is left of the sector. -/
theorem eraseBlocks_spec {addr : Word} (validated : ifxFlashDriverValidateRegion I.flashInfo addr
      I.flashInfo.sectorSize = armDriverOk) (offset : ℕ) (offset_dvd : P.blockSize ∣ offset)
    (offset_le : offset ≤ I.flashInfo.sectorSize.toNat) (s : Machine RramStatus) :
    let r := eraseBlocks P I.toObj addr offset armDriverOk s
    Stays I.Region s r.2 ∧ (r.1 = armDriverOk → r.2.memory =
      s.memory.write (I.startAddress + addr + BitVec.ofNat 32 offset)
        (List.replicate (I.flashInfo.sectorSize.toNat - offset) I.flashInfo.erasedValue)) := by
  induction remaining : I.flashInfo.sectorSize.toNat - offset using Nat.strong_induction_on
    generalizing offset s with
  | _ remaining ih =>
      subst remaining
      simp only
      rw [eraseBlocks]
      by_cases more : offset < I.flashInfo.sectorSize.toNat
      · have block_pos := P.block_pos
        have block_le : offset + P.blockSize ≤ I.flashInfo.sectorSize.toNat :=
          Nat.le_of_lt_add_of_dvd (by omega) (Nat.dvd_add offset_dvd (Nat.dvd_refl _))
            I.geometry.2.1
        have inside : ∀ i < (List.replicate P.blockSize I.flashInfo.erasedValue).length,
            I.Region (I.startAddress + addr + BitVec.ofNat 32 offset + BitVec.ofNat 32 i) := by
          intro i i_lt
          rw [List.length_replicate] at i_lt
          rw [BitVec.add_assoc, ← BitVec.ofNat_add]
          exact Obj.region_of_validated validated (by omega)
        obtain ⟨stays, written, _⟩ := ifxDriverRramWrite_spec (P := P) inside s
        simp only [if_pos more]
        generalize ifxDriverRramWrite P (I.startAddress + addr + BitVec.ofNat 32 offset)
          (List.replicate P.blockSize I.flashInfo.erasedValue) s = block at stays written ⊢
        obtain ⟨result, after⟩ := block
        by_cases ok : result = armDriverOk
        · subst ok
          obtain ⟨rest_stays, rest_written⟩ := ih _ (by omega) (offset + P.blockSize)
            (Nat.dvd_add offset_dvd (Nat.dvd_refl P.blockSize)) block_le after rfl
          simp only [ne_eq, not_true_eq_false, if_false]
          refine ⟨stays.trans rest_stays, fun done ↦ ?_⟩
          have parts : I.flashInfo.sectorSize.toNat - offset =
              P.blockSize + (I.flashInfo.sectorSize.toNat - (offset + P.blockSize)) := by
            omega
          have base : I.startAddress + addr + BitVec.ofNat 32 (offset + P.blockSize) =
              I.startAddress + addr + BitVec.ofNat 32 offset + BitVec.ofNat 32
                (List.replicate P.blockSize I.flashInfo.erasedValue).length := by
            rw [List.length_replicate, BitVec.add_assoc _ (BitVec.ofNat 32 offset),
              BitVec.ofNat_add]
          have size_lt := I.flashInfo.sectorSize.isLt
          rw [rest_written done, written rfl, base, ByteMemory.write_append (by simp; omega), parts,
            List.replicate_append_replicate]
        · simp only [ne_eq, ok, not_false_eq_true, if_true, false_imp_iff, and_true]
          exact stays
      · have done : I.flashInfo.sectorSize.toNat - offset = 0 := by
          omega
        rw [if_neg more, done]
        exact ⟨Stays.refl s, fun _ ↦ by simp⟩

end Rram

/-! ## Operations -/

/-- Operations of a driver. -/
inductive Operation
  /-- `ReadData`, into a buffer that is `NULL` or not. -/
  | readData (addr cnt : Word) (null : Bool)
  /-- `ProgramData`. -/
  | programData (addr cnt : Word)
  /-- `EraseSector`. -/
  | eraseSector (addr : Word)
  /-- `EraseChip`. -/
  | eraseChip

/-- Run an operation, with the data to be programmed. -/
def FlashInstance.run (I : FlashInstance P) (op : Operation) (data : ℕ → BitVec 8)
    (s : Machine FlashStatus) : ℤ × Machine FlashStatus :=
  match op with
  | .readData addr cnt null => ifxDriverFlashReadData I.toObj addr cnt null s
  | .programData addr cnt => ifxDriverFlashProgramData P I.toObj addr data cnt s
  | .eraseSector addr => ifxDriverFlashEraseSector P I.toObj addr s
  | .eraseChip => ifxDriverFlashEraseChip P I.toObj s

/-- Run an operation, with the data to be programmed. -/
def RramInstance.run (I : RramInstance P) (op : Operation) (data : ℕ → BitVec 8)
    (s : Machine RramStatus) : ℤ × Machine RramStatus :=
  match op with
  | .readData addr cnt _ => ifxDriverRramReadData P I.toObj addr cnt s
  | .programData addr cnt => ifxDriverRramProgramData P I.toObj addr data cnt s
  | .eraseSector addr => ifxDriverRramEraseSector P I.toObj addr s
  | .eraseChip => ifxDriverRramEraseChip P I.toObj s

/-- An operation does what callers rely on, in every state of the device and with all data. -/
structure Conforms (obj : Obj) (itemSize : ℕ) (erased : BitVec 8)
    (run : Operation → (ℕ → BitVec 8) → Machine φ → ℤ × Machine φ) (op : Operation) : Prop where
  /-- A sector that has been erased is erased, and nothing else. -/
  erases : ∀ addr, op = .eraseSector addr → ∀ data s, (run op data s).1 = armDriverOk →
    (run op data s).2.memory =
      s.memory.write (obj.startAddress + addr)
        (List.replicate obj.flashInfo.sectorSize.toNat erased)
  /-- Items that have been programmed are the data, and nothing else has changed. -/
  programs : ∀ addr cnt, op = .programData addr cnt → ∀ data s, 0 ≤ (run op data s).1 →
    (run op data s).1 = cnt.toNat ∧ (run op data s).2.memory =
      s.memory.write (obj.startAddress + addr) ((List.range (cnt.toNat * itemSize)).map data)
  /-- Nothing outside of the region is read or changed. -/
  stays : ∀ data s, Stays obj.Region s (run op data s).2

/-- An instance of a driver. -/
inductive Instance (P : Pdl)
  /-- Of the flash driver. -/
  | flash (I : FlashInstance P)
  /-- Of the RRAM driver. -/
  | rram (I : RramInstance P)

/-- An operation of an instance does what callers rely on. -/
def Instance.Conforms : Instance P → Operation → Prop
  | .flash I, op =>
      FlashDrivers.Conforms I.toObj ifxDriverFlashProgramUnit ifxDriverFlashEraseValue I.run op
  | .rram I, op =>
      FlashDrivers.Conforms I.toObj ifxDriverRramProgramUnit I.flashInfo.erasedValue I.run op

/-- Sectors of flash that are erased are single rows, and the size of what is programmed in RRAM
does not wrap around. -/
def Instance.Meets : Instance P → Operation → Prop
  | .flash I, .eraseSector addr =>
      ifxFlashDriverValidateRegion I.flashInfo addr I.flashInfo.sectorSize = armDriverOk →
        addr % I.flashInfo.sectorSize = 0 → I.flashInfo.sectorSize.toNat = P.rowSize
  | .rram I, .programData addr cnt =>
      ifxFlashDriverValidateRegion I.flashInfo addr
          (cnt * BitVec.ofNat 32 ifxDriverRramProgramUnit) = armDriverOk →
        cnt.toNat < 2 ^ 31 → cnt.toNat * ifxDriverRramProgramUnit < 2 ^ 32
  | _, _ => True

/-! ## Flash -/

section Flash

variable (I : FlashInstance P)

theorem ifxDriverFlashReadData_stays (addr cnt : Word) (null : Bool) (s : Machine FlashStatus) :
    Stays I.Region s (ifxDriverFlashReadData I.toObj addr cnt null s).2 := by
  simp only [ifxDriverFlashReadData]
  split_ifs with refused
  · exact Stays.refl s
  · exact Stays.refl s
  · exact Stays.read fun i i_lt ↦ Obj.region_of_validated (not_not.1 refused) i_lt

/-- A row of a sector is in the region. -/
theorem FlashInstance.sector_region {addr : Word}
    (validated : ifxFlashDriverValidateRegion I.flashInfo addr I.flashInfo.sectorSize = armDriverOk)
    {i : ℕ} (i_lt : i < P.rowSize) :
    I.Region (I.startAddress + addr + BitVec.ofNat 32 i) := by
  obtain ⟨_, sector_dvd, sector_ne⟩ := I.geometry
  have pos : 0 < I.flashInfo.sectorSize.toNat := by
    bv_omega
  have le := Nat.le_of_dvd pos sector_dvd
  exact Obj.region_of_validated validated (by omega)

theorem ifxDriverFlashEraseSector_eq (addr : Word) (s : Machine FlashStatus) :
    ifxDriverFlashEraseSector P I.toObj addr s =
      if ifxFlashDriverValidateRegion I.flashInfo addr I.flashInfo.sectorSize = armDriverOk ∧
          addr % I.flashInfo.sectorSize = 0 then
        (ifxFlashdrvToRegularStatus (cyFlashEraseRow P s (I.startAddress + addr)).1,
          (cyFlashEraseRow P s (I.startAddress + addr)).2)
      else (armDriverErrorParameter, s) := by
  rcases validateRegion_cases I.flashInfo addr I.flashInfo.sectorSize with ok | refused
  · simp only [ifxDriverFlashEraseSector, ok, ne_eq, not_true_eq_false, if_false, true_and]
    split_ifs <;> rfl
  · have ne : armDriverErrorParameter ≠ armDriverOk := by
      simp [armDriverErrorParameter, armDriverOk]
    simp only [ifxDriverFlashEraseSector, refused, ne_eq, ne, not_false_eq_true, if_true, false_and,
      if_false]

/-- A row is erased. -/
theorem ifxDriverFlashEraseSector_spec (addr : Word) (s : Machine FlashStatus) :
    let r := ifxDriverFlashEraseSector P I.toObj addr s
    Stays I.Region s r.2 ∧ (r.1 = armDriverOk → r.2.memory =
      s.memory.write (I.startAddress + addr)
        (List.replicate P.rowSize ifxDriverFlashEraseValue)) := by
  simp only [ifxDriverFlashEraseSector_eq]
  split_ifs with accepted
  · have inside : ∀ i < (List.replicate P.rowSize ifxDriverFlashEraseValue).length,
        I.Region (I.startAddress + addr + BitVec.ofNat 32 i) := by
      intro i i_lt
      rw [List.length_replicate] at i_lt
      exact I.sector_region accepted.1 i_lt
    obtain ⟨stays, erased, _⟩ := call_spec s inside
    rw [cyFlashEraseRow]
    generalize s.call _ _ = called at stays erased ⊢
    rcases called with ⟨_ | e, after⟩
    · exact ⟨stays, fun _ ↦ erased rfl⟩
    · have neg := ifxFlashdrvToRegularStatus_neg e
      refine ⟨stays, fun ok ↦ ?_⟩
      rw [show ifxFlashdrvToRegularStatus (some e) = armDriverOk from ok] at neg
      exact absurd neg (by simp [armDriverOk])
  · exact ⟨Stays.refl s, by simp [armDriverErrorParameter, armDriverOk]⟩

theorem ifxDriverFlashProgramData_spec (addr cnt : Word) (data : ℕ → BitVec 8)
    (s : Machine FlashStatus) :
    let r := ifxDriverFlashProgramData P I.toObj addr data cnt s
    Stays I.Region s r.2 ∧ (0 ≤ r.1 → r.1 = cnt.toNat ∧ r.2.memory =
      s.memory.write (I.startAddress + addr) ((List.range cnt.toNat).map data)) := by
  have size_eq : cnt * BitVec.ofNat 32 ifxDriverFlashProgramUnit = cnt := BitVec.mul_one cnt
  have parameter_neg : ¬0 ≤ armDriverErrorParameter := by
    simp [armDriverErrorParameter]
  simp only [ifxDriverFlashProgramData, size_eq]
  split_ifs with refused unaligned
  · rcases validateRegion_cases I.flashInfo addr cnt with ok | parameter
    · exact absurd ok refused
    · rw [parameter]
      exact ⟨Stays.refl s, fun nonneg ↦ absurd nonneg parameter_neg⟩
  · exact ⟨Stays.refl s, fun nonneg ↦ absurd nonneg parameter_neg⟩
  · obtain ⟨_, within⟩ := (validateRegion_eq_ok_iff I.flashInfo addr cnt).1 (not_not.1 refused)
    have programmed := programLoop_spec I data (some .errUnc) 0 s within
    simp only [BitVec.ofNat_toNat, BitVec.setWidth_eq, Nat.zero_add] at programmed
    obtain ⟨stays, written⟩ := programmed
    generalize programLoop P data (some .errUnc) (I.startAddress + addr) 0 cnt s = r
      at stays written ⊢
    rcases r with ⟨_ | e, after⟩
    · refine ⟨stays, fun nonneg ↦ ⟨?_, written rfl⟩⟩
      exact BitVec.toInt_eq_toNat_of_msb (by
        rw [BitVec.msb_eq_toInt]
        simpa using nonneg)
    · exact ⟨stays, fun nonneg ↦ absurd nonneg (Int.not_le.2 (ifxFlashdrvToRegularStatus_neg e))⟩

theorem eraseRows_stays (n : ℕ) {k : ℕ} (count : k + n = I.flashInfo.sectorCount.toNat)
    (status : Option FlashStatus) (s : Machine FlashStatus) :
    Stays I.Region s (eraseRows P I.toObj n status
      (I.startAddress + BitVec.ofNat 32 (k * I.flashInfo.sectorSize.toNat)) s).2 := by
  induction n generalizing k status s with
  | zero => exact Stays.refl s
  | succ n ih =>
      obtain ⟨_, sector_dvd, sector_ne⟩ := I.geometry
      have pos : 0 < I.flashInfo.sectorSize.toNat := by
        bv_omega
      have row_le := Nat.le_of_dvd pos sector_dvd
      have inside : ∀ i < (List.replicate P.rowSize ifxDriverFlashEraseValue).length, I.Region
          (I.startAddress + BitVec.ofNat 32 (k * I.flashInfo.sectorSize.toNat) +
            BitVec.ofNat 32 i) := by
        intro i i_lt
        rw [List.length_replicate] at i_lt
        refine ⟨k * I.flashInfo.sectorSize.toNat + i, ?_, ?_⟩
        · have sector_le : (k + 1) * I.flashInfo.sectorSize.toNat ≤
              I.flashInfo.sectorCount.toNat * I.flashInfo.sectorSize.toNat :=
            Nat.mul_le_mul_right _ (by omega)
          rw [Nat.mul_comm I.flashInfo.sectorSize.toNat]
          rw [Nat.add_mul, Nat.one_mul] at sector_le
          omega
        · rw [BitVec.add_assoc, ← BitVec.ofNat_add]
      obtain ⟨stays, _⟩ := call_spec s inside
      simp only [eraseRows, cyFlashEraseRow]
      generalize s.call _ _ = called at stays ⊢
      rcases called with ⟨_ | e, after⟩
      · have next : I.startAddress + BitVec.ofNat 32 (k * I.flashInfo.sectorSize.toNat) +
            I.flashInfo.sectorSize =
              I.startAddress + BitVec.ofNat 32 ((k + 1) * I.flashInfo.sectorSize.toNat) := by
          rw [Nat.add_mul, Nat.one_mul, BitVec.ofNat_add, BitVec.ofNat_toNat, BitVec.setWidth_eq,
            BitVec.add_assoc]
        simp only [next]
        exact stays.trans (ih (by omega) none after)
      · exact stays

theorem FlashInstance.run_stays (op : Operation) (data : ℕ → BitVec 8) (s : Machine FlashStatus) :
    Stays I.Region s (I.run op data s).2 := by
  cases op with
  | readData addr cnt null => exact ifxDriverFlashReadData_stays I addr cnt null s
  | programData addr cnt => exact (ifxDriverFlashProgramData_spec I addr cnt data s).1
  | eraseSector addr => exact (ifxDriverFlashEraseSector_spec I addr s).1
  | eraseChip =>
      have stays := eraseRows_stays I I.flashInfo.sectorCount.toNat (k := 0) (by simp)
        (some .errUnc) s
      rw [Nat.zero_mul, BitVec.add_zero] at stays
      exact stays

/-- A device in which no call fails. -/
def Machine.faultless (φ : Type) (memory : ByteMemory) : Machine φ := ⟨memory, [], 0, fun _ ↦ none⟩

/-- Sectors are erased as they are announced if and only if they are rows. -/
theorem FlashInstance.conforms_iff_rows (op : Operation) :
    Conforms I.toObj ifxDriverFlashProgramUnit ifxDriverFlashEraseValue I.run op ↔
      (Instance.flash I).Meets op := by
  constructor
  · intro conforms
    cases op with
    | eraseSector addr =>
        intro validated aligned
        obtain ⟨_, sector_dvd, sector_ne⟩ := I.geometry
        have pos : 0 < I.flashInfo.sectorSize.toNat := by
          bv_omega
        have row_le := Nat.le_of_dvd pos sector_dvd
        have sector_lt := I.flashInfo.sectorSize.isLt
        let s : Machine FlashStatus := Machine.faultless FlashStatus fun _ ↦ 0
        have result : (I.run (.eraseSector addr) (fun _ ↦ 0) s).1 = armDriverOk := by
          simp only [FlashInstance.run, ifxDriverFlashEraseSector_eq, validated, aligned, and_self,
            if_true]
          rfl
        have erased := conforms.erases addr rfl (fun _ ↦ 0) s result
        rw [FlashInstance.run, (ifxDriverFlashEraseSector_spec I addr s).2 result] at erased
        rcases row_le.lt_or_eq with row_lt | row_eq
        · have byte := congrFun erased (I.startAddress + addr + BitVec.ofNat 32 P.rowSize)
          rw [ByteMemory.write_start (by omega), ByteMemory.write_start (by omega),
            List.getElem?_replicate, List.getElem?_replicate, if_neg (by omega),
            if_pos row_lt] at byte
          simp [s, Machine.faultless, ifxDriverFlashEraseValue] at byte
        · exact row_eq.symm
    | _ => exact trivial
  · intro meets
    constructor
    · rintro addr rfl data s ok
      have accepted : ifxFlashDriverValidateRegion I.flashInfo addr I.flashInfo.sectorSize =
          armDriverOk ∧ addr % I.flashInfo.sectorSize = 0 := by
        by_contra refused
        simp only [FlashInstance.run, ifxDriverFlashEraseSector_eq, if_neg refused] at ok
        simp [armDriverErrorParameter, armDriverOk] at ok
      rw [meets accepted.1 accepted.2]
      exact (ifxDriverFlashEraseSector_spec I addr s).2 ok
    · rintro addr cnt rfl data s nonneg
      rw [ifxDriverFlashProgramUnit, Nat.mul_one]
      exact (ifxDriverFlashProgramData_spec I addr cnt data s).2 nonneg
    · exact I.run_stays op

end Flash

/-! ## RRAM -/

section RramOperations

variable (I : RramInstance P)

theorem ifxDriverRramReadData_stays (addr cnt : Word) (s : Machine RramStatus) :
    Stays I.Region s (ifxDriverRramReadData P I.toObj addr cnt s).2 := by
  simp only [ifxDriverRramReadData]
  split_ifs with refused
  · exact Stays.refl s
  · have inside : ∀ i < (cnt * BitVec.ofNat 32 ifxDriverRramProgramUnit).toNat,
        I.Region (I.startAddress + addr + BitVec.ofNat 32 i) :=
      fun i i_lt ↦ Obj.region_of_validated (not_not.1 refused) i_lt
    generalize (cnt * BitVec.ofNat 32 ifxDriverRramProgramUnit).toNat = size at inside
    simp only [cyRramNvmReadByteArray, Machine.read]
    have looked (calls : ℕ) : Stays I.Region s { s with
        accesses := s.accesses ++ [(I.startAddress + addr, size)], calls := calls } :=
      ⟨(Stays.read inside).accesses, fun _ _ ↦ rfl⟩
    cases s.fault s.calls with
    | some f => exact looked _
    | none =>
        exact (looked _).trans (readBack_spec (by simpa using inside) cnt.toInt _).1

theorem ifxDriverRramEraseSector_spec (addr : Word) (s : Machine RramStatus) :
    let r := ifxDriverRramEraseSector P I.toObj addr s
    Stays I.Region s r.2 ∧ (r.1 = armDriverOk → r.2.memory =
      s.memory.write (I.startAddress + addr)
        (List.replicate I.flashInfo.sectorSize.toNat I.flashInfo.erasedValue)) := by
  simp only [ifxDriverRramEraseSector]
  split_ifs with refused unaligned
  · exact ⟨Stays.refl s, fun ok ↦ absurd ok refused⟩
  · exact ⟨Stays.refl s, by simp [armDriverErrorParameter, armDriverOk]⟩
  · have validated := not_not.1 refused
    have erased := eraseBlocks_spec I validated 0 (Nat.dvd_zero P.blockSize) (Nat.zero_le _) s
    rw [validated]
    simpa using erased

theorem eraseSectors_stays (n : ℕ) (address : Word) (s : Machine RramStatus) :
    Stays I.Region s (eraseSectors P I.toObj n address s).2 := by
  induction n generalizing address s with
  | zero => exact Stays.refl s
  | succ n ih =>
      have stays := (ifxDriverRramEraseSector_spec I address s).1
      simp only [eraseSectors]
      split_ifs
      · exact stays
      · exact stays.trans (ih _ _)

/-- A write succeeds if no call fails. -/
theorem ifxDriverRramWrite_faultless {address : Word} {data : List (BitVec 8)}
    {s : Machine RramStatus} (small : data.length ≤ 2 ^ 32) (faultless : s.fault s.calls = none) :
    (ifxDriverRramWrite P address data s).1 = armDriverOk := by
  have called : s.call address data = (none, { s with
      memory := s.memory.write address data, accesses := s.accesses ++ [(address, data.length)],
      calls := s.calls + 1 }) := by
    rw [Machine.call, faultless]
  have tried (n : ℕ) : writeTries address data n s = s.call address data := by
    cases n with
    | zero => rfl
    | succ n => rw [writeTries, cyRramNvmWriteByteArray, called]
  simp only [ifxDriverRramWrite, tried, called, readBack, Machine.read,
    ByteMemory.read_write_self small]
  split_ifs with fih wrong
  · exact absurd rfl wrong
  · rfl
  · rfl

/-- What is programmed has the size that is computed. -/
theorem ifxDriverRramProgramData_spec (addr cnt : Word) (data : ℕ → BitVec 8)
    (s : Machine RramStatus) :
    let r := ifxDriverRramProgramData P I.toObj addr data cnt s
    let size := cnt * BitVec.ofNat 32 ifxDriverRramProgramUnit
    Stays I.Region s r.2 ∧ (0 ≤ r.1 →
      ifxFlashDriverValidateRegion I.flashInfo addr size = armDriverOk ∧ r.1 = cnt.toNat ∧
        cnt.toNat < 2 ^ 31 ∧ r.2.memory =
          s.memory.write (I.startAddress + addr) ((List.range size.toNat).map data)) := by
  simp only [ifxDriverRramProgramData]
  generalize cnt * BitVec.ofNat 32 ifxDriverRramProgramUnit = size
  rcases validateRegion_cases I.flashInfo addr size with validated | refused
  · have inside : ∀ i < ((List.range size.toNat).map data).length,
        I.Region (I.startAddress + addr + BitVec.ofNat 32 i) := by
      intro i i_lt
      rw [List.length_map, List.length_range] at i_lt
      exact Obj.region_of_validated validated i_lt
    obtain ⟨stays, written, result⟩ := ifxDriverRramWrite_spec (P := P) inside s
    simp only [validated, ne_eq, not_true_eq_false, if_false, true_and]
    refine ⟨stays, fun nonneg ↦ ?_⟩
    rcases result with ok | failed
    · rw [if_pos ok] at nonneg ⊢
      have small : cnt.msb = false := by
        rw [BitVec.msb_eq_toInt]
        simpa using nonneg
      exact ⟨BitVec.toInt_eq_toNat_of_msb small, BitVec.toNat_lt_of_msb_false small, written ok⟩
    · split_ifs at nonneg with ok
      · rw [ok] at failed
        exact absurd failed (by simp [armDriverOk])
      · exact absurd nonneg (Int.not_le.2 failed)
  · have ne : armDriverErrorParameter ≠ armDriverOk := by
      simp [armDriverErrorParameter, armDriverOk]
    simp only [refused, ne_eq, ne, not_false_eq_true, if_true]
    exact ⟨Stays.refl s, by simp [armDriverErrorParameter]⟩

theorem RramInstance.run_stays (op : Operation) (data : ℕ → BitVec 8) (s : Machine RramStatus) :
    Stays I.Region s (I.run op data s).2 := by
  cases op with
  | readData addr cnt null => exact ifxDriverRramReadData_stays I addr cnt s
  | programData addr cnt => exact (ifxDriverRramProgramData_spec I addr cnt data s).1
  | eraseSector addr => exact (ifxDriverRramEraseSector_spec I addr s).1
  | eraseChip => exact eraseSectors_stays I _ 0 s

/-- Items are programmed as they are counted if and only if their size does not wrap around. -/
theorem RramInstance.conforms_iff_fits (op : Operation) :
    Conforms I.toObj ifxDriverRramProgramUnit I.flashInfo.erasedValue I.run op ↔
      (Instance.rram I).Meets op := by
  constructor
  · intro conforms
    cases op with
    | programData addr cnt =>
        intro validated cnt_lt
        let s : Machine RramStatus := Machine.faultless RramStatus fun _ ↦ 0
        have result : (I.run (.programData addr cnt) (fun _ ↦ 1) s).1 = cnt.toNat := by
          have lt := (cnt * BitVec.ofNat 32 ifxDriverRramProgramUnit).isLt
          simp only [RramInstance.run, ifxDriverRramProgramData, validated, ne_eq,
            not_true_eq_false, if_false]
          rw [if_pos (ifxDriverRramWrite_faultless (by simpa using lt.le) rfl)]
          exact BitVec.toInt_eq_toNat_of_lt (by omega)
        obtain ⟨_, programmed⟩ := conforms.programs addr cnt rfl (fun _ ↦ 1) s (by
          rw [result]
          exact Int.natCast_nonneg _)
        obtain ⟨_, _, _, written⟩ := (ifxDriverRramProgramData_spec I addr cnt (fun _ ↦ 1) s).2 (by
          rw [show (ifxDriverRramProgramData P I.toObj addr (fun _ ↦ 1) cnt s).1 = cnt.toNat from
            result]
          exact Int.natCast_nonneg _)
        rw [RramInstance.run, written] at programmed
        by_contra wraps
        have byte := congrFun programmed (I.startAddress + addr + BitVec.ofNat 32
          (cnt * BitVec.ofNat 32 ifxDriverRramProgramUnit).toNat)
        have lt := (cnt * BitVec.ofNat 32 ifxDriverRramProgramUnit).isLt
        rw [ByteMemory.write_start lt, ByteMemory.write_start lt, List.getElem?_eq_none (by simp),
          List.getElem?_map, List.getElem?_range (by omega)] at byte
        simp [s, Machine.faultless] at byte
    | _ => exact trivial
  · intro meets
    constructor
    · rintro addr rfl data s ok
      exact (ifxDriverRramEraseSector_spec I addr s).2 ok
    · rintro addr cnt rfl data s nonneg
      obtain ⟨validated, result, cnt_lt, written⟩ :=
        (ifxDriverRramProgramData_spec I addr cnt data s).2 nonneg
      have size_eq : (cnt * BitVec.ofNat 32 ifxDriverRramProgramUnit).toNat =
          cnt.toNat * ifxDriverRramProgramUnit := by
        have unit_lt : ifxDriverRramProgramUnit < 2 ^ 32 := by
          simp [ifxDriverRramProgramUnit]
        rw [BitVec.toNat_mul, BitVec.toNat_ofNat, Nat.mod_eq_of_lt unit_lt,
          Nat.mod_eq_of_lt (meets validated cnt_lt)]
      rw [size_eq] at written
      exact ⟨result, written⟩
    · exact I.run_stays op

end RramOperations

/-- An operation of an instance does what callers rely on if and only if sectors of flash are rows
and the size of what is programmed in RRAM does not wrap around. -/
theorem Instance.conforms_iff_meets (I : Instance P) (op : Operation) :
    I.Conforms op ↔ I.Meets op := by
  cases I with
  | flash I => exact I.conforms_iff_rows op
  | rram I => exact I.conforms_iff_fits op

/-! ## Sectors of two rows, and a count that wraps around -/

/-- Rows of 512 bytes and blocks of 16 bytes. -/
def samplePdl : Pdl where
  rowSize := 512
  row_dvd := by simp
  row_lt := by simp
  blockSize := 16
  block_pos := by simp
  block_lt := by simp
  retries := 100
  fih := false

/-- A region of two sectors of two rows each. -/
def sampleObj : Obj where
  startAddress := 0x10000000
  flashInfo := ⟨true, 2, 1024, 512, 1, 0xFF⟩

/-- An instance of the flash driver with sectors of two rows. -/
def sampleFlash : FlashInstance samplePdl where
  toObj := sampleObj
  accepted := by decide

/-- An instance of the RRAM driver. -/
def sampleRram : RramInstance samplePdl where
  toObj := sampleObj
  accepted := by decide

/-- The second row of a sector is not erased, and a count whose size wraps around is taken for
done. -/
theorem secondRow_wrappedCount : ¬(Instance.flash sampleFlash).Conforms (.eraseSector 0) ∧
    ¬(Instance.rram sampleRram).Conforms (.programData 0 0x40000001) := by
  constructor
  · intro conforms
    have row := (sampleFlash.conforms_iff_rows (.eraseSector 0)).1 conforms (by decide) (by decide)
    simp [sampleFlash, sampleObj, samplePdl] at row
  · intro conforms
    have fits := (sampleRram.conforms_iff_fits (.programData 0 0x40000001)).1 conforms (by decide)
      (by simp)
    simp [ifxDriverRramProgramUnit] at fits

end TrustedFirmwareM.FlashDrivers
