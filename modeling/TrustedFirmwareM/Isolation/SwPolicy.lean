import TrustedFirmwareM.Isolation.Mpc
import Mathlib.Data.List.Basic
import Mathlib.Tactic.IntervalCases

/-!
# Memory checks against the boot policy

Where the boot code sets up the memory protection controllers, its policy says what each protection
context may do.  Memory checks look for an entry of the policy that has all of a range.
-/

namespace TrustedFirmwareM.Isolation.SwPolicy

/-- `ifx_mpc_cfg_t`. -/
structure MpcCfg where
  /-- `mem_offset`, in blocks. -/
  memOffset : BitVec 16
  /-- `mem_size`, in blocks. -/
  memSize : BitVec 16
  /-- `attr`: for each protection context, bit 3 is 0, bit 2 is W, bit 1 is R and bit 0 is NS. -/
  attr : Word
  deriving DecidableEq

/-- `ifx_mpc_policy_t`. -/
structure MpcPolicy where
  /-- `n_ram_mpc`. -/
  nRamMpc : BitVec 8
  /-- `n_flash_mpc`. -/
  nFlashMpc : BitVec 8
  /-- `mpc_struct`. -/
  mpcStruct : List MpcCfg
  /-- Its size. -/
  length_eq : mpcStruct.length = 32
  /-- The entries fit. -/
  fits : nRamMpc.toNat + nFlashMpc.toNat ≤ 32

/-- The memories. -/
inductive Memory
  /-- SRAM0. -/
  | sram0
  /-- FLASH. -/
  | flash
  deriving DecidableEq

/-- The memories of a device. -/
structure Device where
  /-- `CY_SRAM0_BASE`, `CY_FLASH_BASE`. -/
  base : Memory → Word
  /-- `CY_SRAM0_SIZE`, `CY_FLASH_SIZE`. -/
  size : Memory → Word
  /-- The secure aliases are not at the end of the address space. -/
  fits : ∀ m, (ifxSAddressAlias (base m)).toNat + 2 ^ 28 ≤ 2 ^ 32

/-- A partition with its protection contexts. -/
structure Partition where
  /-- Its information. -/
  info : PartitionInfo
  /-- The protection context for secure and for non-secure access. -/
  pc : Bool → Fin 8
  /-- They are the ones of the information. -/
  pc_eq : ∀ secure, ifxGetPartitionPc info secure = some (pc secure).val

/-- `IFX_MPC_BLOCK_SIZE`. -/
def ifxMpcBlockSize : Word := 0x800

/-- `IFX_MPC_PC_ATTR_NS_MSK`. -/
def ifxMpcPcAttrNsMsk : Word := (1 : Word) <<< 0

/-- `IFX_MPC_PC_ATTR_W_MSK`. -/
def ifxMpcPcAttrWMsk : Word := (1 : Word) <<< 1

/-- `IFX_MPC_PC_ATTR_R_MSK`. -/
def ifxMpcPcAttrRMsk : Word := (1 : Word) <<< 2

/-- `IFX_MPC_GET_PC_ATTR`. -/
def ifxMpcGetPcAttr (attr : Word) (pc : ℕ) : Word := (attr >>> (pc * 4)) &&& 0xF

/-- `ifx_mpc_check_access_rights`. -/
def ifxMpcCheckAccessRights (cfg : MpcCfg) (p : Partition) (accessType : AccessType) : HalStatus :=
  let isSecure := !accessType.ns
  let pcAttr := ifxMpcGetPcAttr cfg.attr (p.pc isSecure)
  if accessType.readable ∧ ¬pcAttr &&& ifxMpcPcAttrRMsk = ifxMpcPcAttrRMsk then .memFault
  else if accessType.writable ∧ ¬pcAttr &&& ifxMpcPcAttrWMsk = ifxMpcPcAttrWMsk then .memFault
  else if decide (pcAttr &&& ifxMpcPcAttrNsMsk ≠ 0) = isSecure then .memFault
  else .success

/-- `mpc_region_start_addr`. -/
def MpcCfg.startAddr (cfg : MpcCfg) (baseAddr : Word) : Word :=
  baseAddr + cfg.memOffset.setWidth 32 * ifxMpcBlockSize

/-- `mpc_region_end_addr`. -/
def MpcCfg.endAddr (cfg : MpcCfg) (baseAddr : Word) : Word :=
  cfg.startAddr baseAddr + cfg.memSize.setWidth 32 * ifxMpcBlockSize

/-- The loop of `ifx_mpc_memory_check`, over indices.  There is no result when an index is outside
of the array. -/
def checkEntries (P : MpcPolicy) (baseAddr : Word) (p : Partition) (baseS size : Word)
    (accessType : AccessType) : List ℕ → Option HalStatus
  | [] => some .memFault
  | idx :: rest =>
      match P.mpcStruct[idx]? with
      | none => none
      | some cfg =>
          if ifxIsRegionInsideOther baseS (baseS + size) (cfg.startAddr baseAddr)
              (cfg.endAddr baseAddr) then
            some (ifxMpcCheckAccessRights cfg p accessType)
          else checkEntries P baseAddr p baseS size accessType rest

/-- The range is inside a memory. -/
def Device.isInside (D : Device) (m : Memory) (baseS size : Word) : Bool :=
  ifxIsRegionInsideOther baseS (baseS + size) (ifxSAddressAlias (D.base m))
    (ifxSAddressAlias (D.base m) + D.size m)

/-- `mpc_start_idx`. -/
def MpcPolicy.startIdx (P : MpcPolicy) : Memory → ℕ
  | .sram0 => 0
  | .flash => P.nRamMpc.toNat

/-- `mpc_end_idx`. -/
def MpcPolicy.endIdx (P : MpcPolicy) : Memory → ℕ
  | .sram0 => P.nRamMpc.toNat
  | .flash => P.nRamMpc.toNat + P.nFlashMpc.toNat

/-- The memory whose entries are looked at. -/
def Device.memoryOf (D : Device) (baseS size : Word) : Option Memory :=
  if D.isInside .sram0 baseS size then some .sram0
  else if D.isInside .flash baseS size then some .flash
  else none

/-- `ifx_mpc_memory_check`. -/
def ifxMpcMemoryCheck (D : Device) (P : MpcPolicy) (p : Partition) (base size : Word)
    (accessType : AccessType) : Option HalStatus :=
  let baseS := ifxSAddressAlias base
  match D.memoryOf baseS size with
  | none => some .invalidInput
  | some m =>
      checkEntries P (ifxSAddressAlias (D.base m)) p baseS size accessType
        (List.range' (P.startIdx m) (P.endIdx m - P.startIdx m))

/-- The entries of a memory. -/
def MpcPolicy.entriesOf (P : MpcPolicy) (m : Memory) : List MpcCfg :=
  (P.mpcStruct.drop (P.startIdx m)).take (P.endIdx m - P.startIdx m)

/-- A memory has all of a range, in its secure alias. -/
def Device.Contains (D : Device) (m : Memory) (base size : Word) : Prop :=
  (ifxSAddressAlias (D.base m)).toNat ≤ (ifxSAddressAlias base).toNat ∧
    (ifxSAddressAlias base).toNat + size.toNat ≤
      (ifxSAddressAlias (D.base m)).toNat + (D.size m).toNat

/-- An entry of a memory has all of a range. -/
def MpcCfg.Covers (cfg : MpcCfg) (D : Device) (m : Memory) (base size : Word) : Prop :=
  (ifxSAddressAlias (D.base m)).toNat + cfg.memOffset.toNat * 2 ^ 11 ≤
      (ifxSAddressAlias base).toNat ∧
    (ifxSAddressAlias base).toNat + size.toNat ≤ (ifxSAddressAlias (D.base m)).toNat +
      cfg.memOffset.toNat * 2 ^ 11 + cfg.memSize.toNat * 2 ^ 11

/-- A bit of the attributes for a protection context. -/
def MpcCfg.pcBit (cfg : MpcCfg) (pc : Fin 8) (bit : ℕ) : Bool := cfg.attr.getLsbD (pc * 4 + bit)

/-- An entry grants an access, as the attributes are laid out. -/
structure MpcCfg.Grants (cfg : MpcCfg) (p : Partition) (accessType : AccessType) : Prop where
  /-- Bit 1 is read. -/
  reads : accessType.readable = true → cfg.pcBit (p.pc !accessType.ns) 1 = true
  /-- Bit 2 is write. -/
  writes : accessType.writable = true → cfg.pcBit (p.pc !accessType.ns) 2 = true
  /-- Bit 0 is non-secure. -/
  ns : cfg.pcBit (p.pc !accessType.ns) 0 = accessType.ns

/-- The policy grants an access to all of a range by one entry. -/
def Granted (D : Device) (P : MpcPolicy) (p : Partition) (base size : Word)
    (accessType : AccessType) : Prop :=
  ∃ m, D.Contains m base size ∧
    ∃ cfg ∈ P.entriesOf m, cfg.Covers D m base size ∧ cfg.Grants p accessType

/-- What is asked of `ifx_mpc_memory_check`. -/
structure FollowsPolicy (D : Device) (P : MpcPolicy) (p : Partition) (base size : Word)
    (accessType : AccessType) : Prop where
  /-- No entry is read outside of the array. -/
  inside : (ifxMpcMemoryCheck D P p base size accessType).isSome
  /-- Success is by an entry that grants the access. -/
  granted : ifxMpcMemoryCheck D P p base size accessType = some .success →
    Granted D P p base size accessType

/-- Of read and write access only one is asked for, and an entry with the security that is asked for
has the other one. -/
def MpcCfg.HasOther (cfg : MpcCfg) (p : Partition) (accessType : AccessType) : Prop :=
  cfg.pcBit (p.pc !accessType.ns) 0 = accessType.ns ∧
    (accessType.readable = true ∧ accessType.writable = false ∧
        cfg.pcBit (p.pc !accessType.ns) 1 = false ∧ cfg.pcBit (p.pc !accessType.ns) 2 = true ∨
      accessType.readable = false ∧ accessType.writable = true ∧
        cfg.pcBit (p.pc !accessType.ns) 1 = true ∧ cfg.pcBit (p.pc !accessType.ns) 2 = false)

/-- The first entry that has all of a range has the other access. -/
def FirstHasOther (D : Device) (P : MpcPolicy) (p : Partition) (base size : Word)
    (accessType : AccessType) : Prop :=
  ∃ m, D.memoryOf (ifxSAddressAlias base) size = some m ∧ ∃ before cfg after,
    P.entriesOf m = before ++ cfg :: after ∧ (∀ e ∈ before, ¬e.Covers D m base size) ∧
      cfg.Covers D m base size ∧ cfg.HasOther p accessType

variable {D : Device} {P : MpcPolicy} {p : Partition} {base size : Word} {accessType : AccessType}
  {m : Memory} {cfg : MpcCfg}

/-! ### Ranges -/

theorem ifxIsRegionInsideOther_iff {first second : Word} {secondSize : ℕ} {limit : Word}
    (limit_eq : limit.toNat = second.toNat + secondSize) :
    ifxIsRegionInsideOther first (first + size) second limit = true ↔
      second.toNat ≤ first.toNat ∧ first.toNat + size.toNat ≤ second.toNat + secondSize := by
  have order : ¬limit < second := by
    rw [BitVec.lt_def]
    omega
  have limit_lt := limit.isLt
  rw [ifxIsRegionInsideOther, if_neg order, limit_eq.symm]
  split
  · next wraps =>
      simp only [Bool.false_eq_true, false_iff, not_and, not_le]
      bv_omega
  · next no_wrap =>
      simp only [Bool.and_eq_true, decide_eq_true_eq]
      bv_omega

theorem startAddr_toNat (D : Device) (m : Memory) (cfg : MpcCfg) :
    (cfg.startAddr (ifxSAddressAlias (D.base m))).toNat =
      (ifxSAddressAlias (D.base m)).toNat + cfg.memOffset.toNat * 2 ^ 11 := by
  have fits := D.fits m
  rw [MpcCfg.startAddr, ifxMpcBlockSize]
  bv_omega

theorem endAddr_toNat (D : Device) (m : Memory) (cfg : MpcCfg) :
    (cfg.endAddr (ifxSAddressAlias (D.base m))).toNat =
      (cfg.startAddr (ifxSAddressAlias (D.base m))).toNat + cfg.memSize.toNat * 2 ^ 11 := by
  have fits := D.fits m
  have start := startAddr_toNat D m cfg
  rw [MpcCfg.endAddr, ifxMpcBlockSize]
  bv_omega

/-- The comparison that the loop makes for an entry. -/
def MpcCfg.hasRange (cfg : MpcCfg) (D : Device) (m : Memory) (base size : Word) : Bool :=
  ifxIsRegionInsideOther (ifxSAddressAlias base) (ifxSAddressAlias base + size)
    (cfg.startAddr (ifxSAddressAlias (D.base m))) (cfg.endAddr (ifxSAddressAlias (D.base m)))

/-- The comparison finds the entries that have all of a range. -/
theorem hasRange_iff_covers : cfg.hasRange D m base size = true ↔ cfg.Covers D m base size := by
  rw [MpcCfg.hasRange, ifxIsRegionInsideOther_iff (endAddr_toNat D m cfg), startAddr_toNat,
    MpcCfg.Covers]

theorem contains_of_isInside (inside : D.isInside m (ifxSAddressAlias base) size = true) :
    D.Contains m base size := by
  rw [Device.isInside] at inside
  rcases Nat.lt_or_ge ((ifxSAddressAlias (D.base m)).toNat + (D.size m).toNat) (2 ^ 32) with
    no_wrap | wraps
  · have limit : (ifxSAddressAlias (D.base m) + D.size m).toNat =
        (ifxSAddressAlias (D.base m)).toNat + (D.size m).toNat := by bv_omega
    exact (ifxIsRegionInsideOther_iff limit).mp inside
  · have order : ifxSAddressAlias (D.base m) + D.size m < ifxSAddressAlias (D.base m) := by bv_omega
    simp [ifxIsRegionInsideOther, order] at inside

theorem contains_of_memoryOf (found : D.memoryOf (ifxSAddressAlias base) size = some m) :
    D.Contains m base size := by
  apply contains_of_isInside
  rw [Device.memoryOf] at found
  split at found
  · next inside => exact Option.some.inj found ▸ inside
  · split at found
    · next inside => exact Option.some.inj found ▸ inside
    · exact nomatch found

/-! ### Attributes -/

theorem pcAttr_and {bit : ℕ} (small : bit < 4) (pc : Fin 8) :
    ifxMpcGetPcAttr cfg.attr pc &&& (1 : Word) <<< bit =
      if cfg.pcBit pc bit then (1 : Word) <<< bit else 0 := by
  have nibble : (0xF : Word).getLsbD bit = true := by
    interval_cases bit <;> rfl
  have power := BitVec.and_twoPow (ifxMpcGetPcAttr cfg.attr pc) bit
  rw [ifxMpcGetPcAttr, BitVec.getLsbD_and, BitVec.getLsbD_ushiftRight, nibble,
    Bool.and_true] at power
  exact power

theorem one_shiftLeft_ne_zero {bit : ℕ} (small : bit < 4) : (1 : Word) <<< bit ≠ 0 := by
  interval_cases bit <;> decide

theorem pcAttr_and_eq_iff {bit : ℕ} (small : bit < 4) (pc : Fin 8) :
    ifxMpcGetPcAttr cfg.attr pc &&& (1 : Word) <<< bit = (1 : Word) <<< bit ↔
      cfg.pcBit pc bit = true := by
  rw [pcAttr_and small]
  cases cfg.pcBit pc bit with
  | true => simp
  | false => simpa using (one_shiftLeft_ne_zero small).symm

theorem pcAttr_and_ne_zero_iff {bit : ℕ} (small : bit < 4) (pc : Fin 8) :
    ifxMpcGetPcAttr cfg.attr pc &&& (1 : Word) <<< bit ≠ 0 ↔ cfg.pcBit pc bit = true := by
  rw [pcAttr_and small]
  cases cfg.pcBit pc bit with
  | true => simpa using one_shiftLeft_ne_zero small
  | false => simp

/-- The check takes bit 2 for read and bit 1 for write. -/
theorem checkAccessRights_eq_success_iff :
    ifxMpcCheckAccessRights cfg p accessType = .success ↔
      (accessType.readable = true → cfg.pcBit (p.pc !accessType.ns) 2 = true) ∧
        (accessType.writable = true → cfg.pcBit (p.pc !accessType.ns) 1 = true) ∧
          cfg.pcBit (p.pc !accessType.ns) 0 = accessType.ns := by
  simp only [ifxMpcCheckAccessRights, ifxMpcPcAttrRMsk, ifxMpcPcAttrWMsk, ifxMpcPcAttrNsMsk,
    pcAttr_and_eq_iff (show 2 < 4 by decide), pcAttr_and_eq_iff (show 1 < 4 by decide),
    pcAttr_and_ne_zero_iff (show 0 < 4 by decide)]
  grind

/-- An entry with success grants the access, or it has the other one. -/
theorem grants_or_hasOther (success : ifxMpcCheckAccessRights cfg p accessType = .success) :
    cfg.Grants p accessType ∨ cfg.HasOther p accessType := by
  obtain ⟨reads, writes, ns⟩ := checkAccessRights_eq_success_iff.mp success
  cases bit₁ : cfg.pcBit (p.pc !accessType.ns) 1 with
  | true =>
      cases bit₂ : cfg.pcBit (p.pc !accessType.ns) 2 with
      | true => exact .inl ⟨fun _ ↦ bit₁, fun _ ↦ bit₂, ns⟩
      | false =>
          have no_read : accessType.readable = false := by simpa [bit₂] using reads
          cases asked : accessType.writable with
          | true => exact .inr ⟨ns, .inr ⟨no_read, asked, bit₁, bit₂⟩⟩
          | false => exact .inl ⟨by simp [no_read], by simp [asked], ns⟩
  | false =>
      have no_write : accessType.writable = false := by simpa [bit₁] using writes
      cases asked : accessType.readable with
      | true => exact .inr ⟨ns, .inl ⟨asked, no_write, bit₁, reads asked⟩⟩
      | false => exact .inl ⟨by simp [asked], by simp [no_write], ns⟩

theorem success_of_hasOther (other : cfg.HasOther p accessType) :
    ifxMpcCheckAccessRights cfg p accessType = .success := by
  rw [checkAccessRights_eq_success_iff]
  rcases other.2 with ⟨_, no_write, _, bit⟩ | ⟨no_read, _, bit, _⟩
  · exact ⟨fun _ ↦ bit, by simp [no_write], other.1⟩
  · exact ⟨by simp [no_read], fun _ ↦ bit, other.1⟩

/-! ### Entries -/

/-- The loop takes the first entry that has all of the range. -/
theorem checkEntries_range' {start count : ℕ} (inside : start + count ≤ 32) :
    checkEntries P (ifxSAddressAlias (D.base m)) p (ifxSAddressAlias base) size accessType
        (List.range' start count) =
      some (match ((P.mpcStruct.drop start).take count).find? (·.hasRange D m base size) with
        | some cfg => ifxMpcCheckAccessRights cfg p accessType
        | none => .memFault) := by
  induction count generalizing start with
  | zero => rfl
  | succ count induction =>
      have start_lt : start < P.mpcStruct.length := by
        rw [P.length_eq]
        omega
      rw [List.range'_succ, checkEntries, List.getElem?_eq_getElem start_lt,
        List.drop_eq_getElem_cons start_lt, List.take_succ_cons, List.find?_cons,
        induction (by omega)]
      dsimp only [MpcCfg.hasRange]
      split
      · next covers => rw [covers]
      · next other => rw [Bool.eq_false_iff.mpr other]

theorem idx_le (P : MpcPolicy) (m : Memory) : P.startIdx m + (P.endIdx m - P.startIdx m) ≤ 32 := by
  have fits := P.fits
  cases m with
  | sram0 => exact Nat.le_trans (by simp [MpcPolicy.startIdx, MpcPolicy.endIdx]) fits
  | flash =>
      simp only [MpcPolicy.startIdx, MpcPolicy.endIdx]
      omega

/-- The check as a search in the entries of the memory. -/
theorem ifxMpcMemoryCheck_of_memoryOf (found : D.memoryOf (ifxSAddressAlias base) size = some m) :
    ifxMpcMemoryCheck D P p base size accessType =
      some (match (P.entriesOf m).find? (·.hasRange D m base size) with
        | some cfg => ifxMpcCheckAccessRights cfg p accessType
        | none => .memFault) := by
  simp only [ifxMpcMemoryCheck, found]
  exact checkEntries_range' (idx_le P m)

/-- Success is success for the first entry that has all of the range. -/
theorem ifxMpcMemoryCheck_eq_success_iff :
    ifxMpcMemoryCheck D P p base size accessType = some .success ↔
      ∃ m, D.memoryOf (ifxSAddressAlias base) size = some m ∧ ∃ before cfg after,
        P.entriesOf m = before ++ cfg :: after ∧ (∀ e ∈ before, ¬e.Covers D m base size) ∧
          cfg.Covers D m base size ∧ ifxMpcCheckAccessRights cfg p accessType = .success := by
  cases found : D.memoryOf (ifxSAddressAlias base) size with
  | none => simp [ifxMpcMemoryCheck, found]
  | some m =>
      rw [ifxMpcMemoryCheck_of_memoryOf found]
      simp only [Option.some.injEq, exists_eq_left', ← hasRange_iff_covers]
      constructor
      · intro success
        split at success
        · next cfg first =>
            obtain ⟨covers, before, after, entries, others⟩ :=
              List.find?_eq_some_iff_append.mp first
            exact ⟨before, cfg, after, entries, by simpa using others, covers, success⟩
        · exact nomatch success
      · rintro ⟨before, cfg, after, entries, others, covers, success⟩
        have first : (P.entriesOf m).find? (·.hasRange D m base size) = some cfg :=
          List.find?_eq_some_iff_append.mpr ⟨covers, before, after, entries, by simpa using others⟩
        rw [first]
        exact success

theorem ifxMpcMemoryCheck_isSome : (ifxMpcMemoryCheck D P p base size accessType).isSome := by
  cases found : D.memoryOf (ifxSAddressAlias base) size with
  | none => simp [ifxMpcMemoryCheck, found]
  | some m => simp [ifxMpcMemoryCheck_of_memoryOf found]

/-- Success follows the policy if and only if, where the first entry that has all of the range has
the other access only, another entry grants the one that is asked for: the masks of the check have
read and write in each other's place. -/
theorem followsPolicy_iff_not_firstHasOther (D : Device) (P : MpcPolicy) (p : Partition)
    (base size : Word) (accessType : AccessType) :
    FollowsPolicy D P p base size accessType ↔
      (FirstHasOther D P p base size accessType → Granted D P p base size accessType) := by
  constructor
  · rintro follows ⟨m, found, before, cfg, after, entries, others, covers, other⟩
    apply follows.granted
    rw [ifxMpcMemoryCheck_eq_success_iff]
    exact ⟨m, found, before, cfg, after, entries, others, covers, success_of_hasOther other⟩
  · intro granted
    constructor
    · exact ifxMpcMemoryCheck_isSome
    · intro success
      obtain ⟨m, found, before, cfg, after, entries, others, covers, success⟩ :=
        ifxMpcMemoryCheck_eq_success_iff.mp success
      rcases grants_or_hasOther success with grants | other
      · exact ⟨m, contains_of_memoryOf found, cfg, by simp [entries], covers, grants⟩
      · exact granted ⟨m, found, before, cfg, after, entries, others, covers, other⟩

/-- Memories of a device. -/
def sampleDevice : Device where
  base
    | .sram0 => 0x24000000
    | .flash => 0x22000000
  size
    | .sram0 => 0x10000
    | .flash => 0x40000
  fits m := by cases m <;> decide

/-- A policy with one entry, the first block of SRAM0, from which protection context 2 may read. -/
def samplePolicy : MpcPolicy where
  nRamMpc := 1
  nFlashMpc := 0
  mpcStruct := ⟨0, 1, 0x200⟩ :: List.replicate 31 ⟨0, 0, 0⟩
  length_eq := rfl
  fits := by decide

/-- A partition in protection context 2. -/
def samplePartition : Partition where
  info := ⟨false, false, false, some 2, none⟩
  pc _ := 2
  pc_eq _ := rfl

/-- A write to memory that the policy has as read-only is granted. -/
theorem followsPolicy_fails :
    ¬FollowsPolicy sampleDevice samplePolicy samplePartition 0x34000000 4 ⟨false, true, false⟩ := by
  intro follows
  obtain ⟨m, contains, cfg, mem, _, grants⟩ := follows.granted (by decide)
  cases m with
  | sram0 =>
      have entries : samplePolicy.entriesOf .sram0 = [⟨0, 1, 0x200⟩] := rfl
      obtain rfl := List.mem_singleton.mp (entries ▸ mem)
      exact absurd (grants.writes rfl) (by decide)
  | flash => exact absurd contains.2 (by decide)

end TrustedFirmwareM.Isolation.SwPolicy
