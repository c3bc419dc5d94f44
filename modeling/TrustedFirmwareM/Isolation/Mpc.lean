import Mathlib.Data.BitVec
import Mathlib.Data.Nat.Notation

/-!
# Memory protection controllers

A memory is divided into blocks.  For each block and each protection context the controller of the
memory holds a security attribute and an access attribute.  Memory checks look at every block of a
range.
-/

namespace TrustedFirmwareM.Isolation

/-- `uint32_t`, `uintptr_t`, `size_t`. -/
abbrev Word := BitVec 32

/-- `enum tfm_hal_status_t`. -/
inductive HalStatus
  /-- `TFM_HAL_SUCCESS`. -/
  | success
  /-- `TFM_HAL_ERROR_MEM_FAULT`. -/
  | memFault
  /-- `TFM_HAL_ERROR_BAD_STATE`. -/
  | badState
  /-- `TFM_HAL_ERROR_INVALID_INPUT`. -/
  | invalidInput
  /-- `TFM_HAL_ERROR_GENERIC`. -/
  | generic
  deriving DecidableEq

/-- The access that is asked for: `TFM_HAL_ACCESS_READABLE`, `TFM_HAL_ACCESS_WRITABLE` and
`TFM_HAL_ACCESS_NS`. -/
structure AccessType where
  /-- Read access. -/
  readable : Bool
  /-- Write access. -/
  writable : Bool
  /-- On behalf of the non-secure side. -/
  ns : Bool
  deriving DecidableEq

/-- `ifx_partition_info_t`, as far as memory checks read it. -/
structure PartitionInfo where
  /-- `IS_NS_AGENT_TZ`. -/
  isNsAgentTz : Bool
  /-- `IS_NS_AGENT_MAILBOX`. -/
  isNsAgentMailbox : Bool
  /-- `IFX_IS_PARTITION_PRIVILEGED`. -/
  privileged : Bool
  /-- `secure_pc`, unless it is disabled. -/
  securePc : Option ℕ
  /-- `non_secure_pc`, unless it is disabled. -/
  nonSecurePc : Option ℕ

/-- `IS_NS_AGENT`. -/
def PartitionInfo.isNsAgent (pInfo : PartitionInfo) : Bool :=
  pInfo.isNsAgentTz || pInfo.isNsAgentMailbox

/-- `IFX_GET_PARTITION_PC`.  Without `IFX_ISOLATION_PC_SWITCHING` both contexts are
`IFX_PC_TFM_ID`. -/
def ifxGetPartitionPc (pInfo : PartitionInfo) (secure : Bool) : Option ℕ :=
  if pInfo.isNsAgent && !secure then pInfo.nonSecurePc else pInfo.securePc

/-- `ifx_memory_config_t`. -/
structure MemoryConfig where
  /-- The secure address. -/
  sAddress : Word
  /-- The size. -/
  size : Word
  /-- The size of a block, as `cy_en_mpc_size_t`. -/
  mpcBlockSize : ℕ
  /-- The controller, unless it is `IFX_MPC_NOT_CONTROLLED_BY_TFM`. -/
  mpc : Option ℕ
  deriving DecidableEq

/-- `CY_MPC_SIZE_4KB`. -/
def cyMpcSize4kb : ℕ := 7

/-- `IFX_MPC_BLOCK_SIZE_TO_BYTES`. -/
def ifxMpcBlockSizeToBytes (mpcSize : ℕ) : Word := (1 : Word) <<< (mpcSize + 5)

/-- `IFX_S_ADDRESS_ALIAS`. -/
def ifxSAddressAlias (address : Word) : Word := address ||| 0x10000000

/-- `IFX_ROUND_UP_TO_MULTIPLE`. -/
def ifxRoundUpToMultiple (number multiple : Word) : Word :=
  (number + multiple - 1) / multiple * multiple

/-- `ifx_is_region_inside_other`. -/
def ifxIsRegionInsideOther (firstStart firstLimit secondStart secondLimit : Word) : Bool :=
  if firstLimit < firstStart then false
  else if secondLimit < secondStart then false
  else decide (secondStart ≤ firstStart) && decide (firstLimit ≤ secondLimit)

/-- The range is inside a memory. -/
def MemoryConfig.contains (m : MemoryConfig) (address size : Word) : Bool :=
  ifxIsRegionInsideOther (ifxSAddressAlias address) (ifxSAddressAlias address + size) m.sAddress
    (m.sAddress + m.size)

/-- `ifx_find_memory_config`. -/
def ifxFindMemoryConfig (address size : Word) (configs : List MemoryConfig) : Option MemoryConfig :=
  configs.find? fun m ↦ m.contains address size

/-- The offset of an address in a memory. -/
def MemoryConfig.offset (m : MemoryConfig) (address : Word) : Word :=
  ifxSAddressAlias address - m.sAddress

/-- `first_block_idx`. -/
def firstBlockIdx (offset blockSize : Word) : Word := offset / blockSize

/-- `last_block_idx`. -/
def lastBlockIdx (offset size blockSize : Word) : Word :=
  ifxRoundUpToMultiple (offset + size) blockSize / blockSize

/-- The indices of a loop over blocks. -/
def blockIds (first last : Word) : List ℕ := List.range' first.toNat (last.toNat - first.toNat)

/-- `cy_en_mpc_access_attr_t`. -/
inductive MpcAccess
  /-- `CY_MPC_ACCESS_DISABLED`. -/
  | disabled
  /-- `CY_MPC_ACCESS_R`. -/
  | r
  /-- `CY_MPC_ACCESS_W`. -/
  | w
  /-- `CY_MPC_ACCESS_RW`. -/
  | rw
  deriving DecidableEq

/-- The access attribute for masks of read and write access. -/
def MpcAccess.ofMasks (r w : Bool) : MpcAccess :=
  if r && w then .rw else if r then .r else if w then .w else .disabled

/-- Read access is allowed. -/
def MpcAccess.reads : MpcAccess → Bool
  | .r | .rw => true
  | .w | .disabled => false

/-- Write access is allowed. -/
def MpcAccess.writes : MpcAccess → Bool
  | .w | .rw => true
  | .r | .disabled => false

@[simp] theorem MpcAccess.reads_ofMasks (r w : Bool) : (MpcAccess.ofMasks r w).reads = r := by
  cases r <;> cases w <;> rfl

@[simp] theorem MpcAccess.writes_ofMasks (r w : Bool) : (MpcAccess.ofMasks r w).writes = w := by
  cases r <;> cases w <;> rfl

/-- `cy_stc_mpc_rot_block_attr_t`. -/
structure BlockAttr where
  /-- The block is non-secure. -/
  nonSecure : Bool
  /-- The access. -/
  access : MpcAccess
  deriving DecidableEq

/-- Secure, and no access. -/
def BlockAttr.closed : BlockAttr := ⟨false, .disabled⟩

/-- The attributes of the blocks, for each protection context. -/
abbrev Mpc := ℕ → ℕ → BlockAttr

/-- The loop of `ifx_mpc_memory_check`.  `Cy_Mpc_GetRotBlockAttr` fails for blocks that do not
exist. -/
def checkBlocks (getRotBlockAttr : ℕ → Option BlockAttr) (expectedNonSecure : Bool)
    (accessType : AccessType) : List ℕ → HalStatus
  | [] => .success
  | idx :: rest =>
      match getRotBlockAttr idx with
      | none => .memFault
      | some settings =>
          if settings.nonSecure ≠ expectedNonSecure then .memFault
          else if settings.access = .rw then
            checkBlocks getRotBlockAttr expectedNonSecure accessType rest
          else if accessType.readable && settings.access ≠ .r then .memFault
          else if accessType.writable && settings.access ≠ .w then .memFault
          else checkBlocks getRotBlockAttr expectedNonSecure accessType rest

/-- The part of `ifx_mpc_memory_check` that looks at the blocks of a range. -/
def checkRange (m : MemoryConfig) (getRotBlockAttr : ℕ → Option BlockAttr) (pInfo : PartitionInfo)
    (base size : Word) (accessType : AccessType) : HalStatus :=
  let blockSize := ifxMpcBlockSizeToBytes m.mpcBlockSize
  let expectedNonSecure := pInfo.isNsAgent && accessType.ns
  checkBlocks getRotBlockAttr expectedNonSecure accessType
    (blockIds (firstBlockIdx (m.offset base) blockSize)
      (lastBlockIdx (m.offset base) size blockSize))

/-- A block permits an access. -/
structure BlockAttr.Permits (attr : BlockAttr) (nonSecure : Bool)
    (accessType : AccessType) : Prop where
  /-- The security attribute is the expected one. -/
  nonSecure_eq : attr.nonSecure = nonSecure
  /-- Read access, if it is asked for. -/
  reads : accessType.readable = true → attr.access.reads = true
  /-- Write access, if it is asked for. -/
  writes : accessType.writable = true → attr.access.writes = true

/-- A block that is not readable and writable, where the loop checks each access on its own. -/
theorem permits_iff_of_ne_rw {attr : BlockAttr} {nonSecure : Bool} {accessType : AccessType}
    (ne : attr.access ≠ .rw) : attr.Permits nonSecure accessType ↔ attr.nonSecure = nonSecure ∧
      ¬(accessType.readable && attr.access ≠ .r) = true ∧
      ¬(accessType.writable && attr.access ≠ .w) = true := by
  obtain ⟨ns, access⟩ := attr
  obtain ⟨readable, writable, -⟩ := accessType
  constructor
  · rintro ⟨nonSecure_eq, reads, writes⟩
    refine ⟨nonSecure_eq, ?_, ?_⟩
    · cases readable <;> cases access <;> simp_all [MpcAccess.reads]
    · cases writable <;> cases access <;> simp_all [MpcAccess.writes]
  · rintro ⟨nonSecure_eq, reads, writes⟩
    refine ⟨nonSecure_eq, ?_, ?_⟩
    · rintro rfl
      cases access <;> simp_all [MpcAccess.reads]
    · rintro rfl
      cases access <;> simp_all [MpcAccess.writes]

/-- The loop accepts the ranges all of whose blocks permit the access. -/
theorem checkBlocks_eq_success {getRotBlockAttr : ℕ → Option BlockAttr} {nonSecure : Bool}
    {accessType : AccessType} {ids : List ℕ} :
    checkBlocks getRotBlockAttr nonSecure accessType ids = .success ↔
      ∀ idx ∈ ids, ∃ attr, getRotBlockAttr idx = some attr ∧ attr.Permits nonSecure accessType := by
  induction ids with
  | nil => exact ⟨fun _ _ mem ↦ absurd mem List.not_mem_nil, fun _ ↦ rfl⟩
  | cons idx rest ih =>
      rw [List.forall_mem_cons, ← ih, checkBlocks]
      cases found : getRotBlockAttr idx with
      | none => simp
      | some attr =>
          have here : (∃ attr', some attr = some attr' ∧ attr'.Permits nonSecure accessType) ↔
              attr.Permits nonSecure accessType :=
            ⟨fun ⟨_, eq, permits⟩ ↦ Option.some.inj eq ▸ permits,
              fun permits ↦ ⟨attr, rfl, permits⟩⟩
          rw [here]
          dsimp only
          by_cases eq : attr.nonSecure = nonSecure
          swap
          · rw [if_pos eq]
            exact iff_of_false (by decide) fun both ↦ eq both.1.nonSecure_eq
          rw [if_neg (not_not.2 eq)]
          by_cases rw_eq : attr.access = .rw
          · have permits : attr.Permits nonSecure accessType :=
              ⟨eq, fun _ ↦ rw_eq ▸ rfl, fun _ ↦ rw_eq ▸ rfl⟩
            rw [if_pos rw_eq]
            exact (and_iff_right permits).symm
          rw [if_neg rw_eq, permits_iff_of_ne_rw rw_eq]
          by_cases reads : (accessType.readable && attr.access ≠ .r) = true
          · rw [if_pos reads]
            exact iff_of_false (by decide) fun both ↦ both.1.2.1 reads
          rw [if_neg reads]
          by_cases writes : (accessType.writable && attr.access ≠ .w) = true
          · rw [if_pos writes]
            exact iff_of_false (by decide) fun both ↦ both.1.2.2 writes
          · rw [if_neg writes]
            exact (and_iff_right ⟨eq, reads, writes⟩).symm

/-! ## Ranges of blocks -/

/-- What it means for a range to be inside a memory. -/
structure MemoryConfig.Inside (m : MemoryConfig) (address size : Word) : Prop where
  /-- The offset of the range. -/
  offset_eq : m.sAddress.toNat + (m.offset address).toNat = (ifxSAddressAlias address).toNat
  /-- The range ends in the memory. -/
  fits : (m.offset address).toNat + size.toNat ≤ m.size.toNat
  /-- The memory does not wrap around. -/
  total : m.sAddress.toNat + m.size.toNat < 2 ^ 32

/-- An addition that does not come out below its first operand has not wrapped around. -/
theorem toNat_add_of_not_lt {a b : Word}
    (not_lt : ¬a + b < a) : (a + b).toNat = a.toNat + b.toNat := by
  rw [BitVec.lt_def, BitVec.toNat_add] at not_lt
  rw [BitVec.toNat_add]
  omega

/-- Inside a memory nothing wraps around. -/
theorem MemoryConfig.inside_of_contains {m : MemoryConfig} {address size : Word}
    (contains : m.contains address size = true) : m.Inside address size := by
  rw [MemoryConfig.contains, ifxIsRegionInsideOther] at contains
  split at contains
  · cases contains
  next range =>
  split at contains
  · cases contains
  next memory =>
  rw [Bool.and_eq_true, decide_eq_true_eq, decide_eq_true_eq, BitVec.le_def, BitVec.le_def,
    toNat_add_of_not_lt range, toNat_add_of_not_lt memory] at contains
  have offset : (m.offset address).toNat = (ifxSAddressAlias address).toNat - m.sAddress.toNat := by
    rw [MemoryConfig.offset, BitVec.toNat_sub]
    have := (ifxSAddressAlias address).isLt
    omega
  have total := toNat_add_of_not_lt memory
  have := (m.sAddress + m.size).isLt
  exact ⟨by omega, by omega, by omega⟩

/-- A byte of a range is in a block of a loop if and only if the block overlaps the range. -/
theorem mem_blockIds {offset size blockSize : Word} (pos : 0 < blockSize.toNat)
    (room : offset.toNat + size.toNat + blockSize.toNat ≤ 2 ^ 32) (b : ℕ) :
    b ∈ blockIds (firstBlockIdx offset blockSize) (lastBlockIdx offset size blockSize) ↔
      offset.toNat < (b + 1) * blockSize.toNat ∧
        b * blockSize.toNat < offset.toNat + size.toNat := by
  have sum : (offset + size + blockSize - 1).toNat =
      offset.toNat + size.toNat + blockSize.toNat - 1 := by
    have one : (1 : Word).toNat = 1 := rfl
    rw [BitVec.toNat_sub, BitVec.toNat_add, BitVec.toNat_add, one]
    omega
  have last : (lastBlockIdx offset size blockSize).toNat =
      (offset.toNat + size.toNat + blockSize.toNat - 1) / blockSize.toNat := by
    have product : (offset.toNat + size.toNat + blockSize.toNat - 1) / blockSize.toNat *
        blockSize.toNat ≤ offset.toNat + size.toNat + blockSize.toNat - 1 := Nat.div_mul_le_self ..
    rw [lastBlockIdx, ifxRoundUpToMultiple, BitVec.toNat_udiv, BitVec.toNat_mul,
      BitVec.toNat_udiv, sum,
      Nat.mod_eq_of_lt (by omega), Nat.mul_div_cancel _ pos]
  have first : (firstBlockIdx offset blockSize).toNat = offset.toNat / blockSize.toNat :=
    BitVec.toNat_udiv
  have start : offset.toNat / blockSize.toNat ≤ b ↔ offset.toNat < (b + 1) * blockSize.toNat := by
    rw [← Nat.lt_succ_iff, Nat.div_lt_iff_lt_mul pos]
  have stop : b < (offset.toNat + size.toNat + blockSize.toNat - 1) / blockSize.toNat ↔
      b * blockSize.toNat < offset.toNat + size.toNat := by
    rw [← Nat.succ_le_iff, Nat.le_div_iff_mul_le pos, Nat.succ_mul]
    omega
  rw [blockIds, List.mem_range'_1, first, last, start, ← stop]
  omega

end TrustedFirmwareM.Isolation
