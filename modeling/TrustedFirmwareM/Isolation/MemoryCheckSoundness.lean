import Mathlib.Data.Nat.Bitwise
import TrustedFirmwareM.Isolation.MemoryCheck

/-!
# Soundness of memory checks

A range that is accepted may be accessed in each of its bytes, unless something between its ends is
hidden from the test of the ends.
-/

namespace TrustedFirmwareM.Isolation.MemoryCheck

variable {P : Platform} {x : World} {pInfo : PartitionInfo} {domain : ℕ} {base size : Word}
  {accessType : AccessType} {m : MemoryConfig}

/-- A byte of a range. -/
def InRange (base size address : Word) : Prop :=
  base.toNat ≤ address.toNat ∧ address.toNat < base.toNat + size.toNat

/-- The last byte of a range. -/
def lastByte (base size : Word) : Word := base + size - 1

/-- The protection of the core applies, unless the request comes from another core. -/
def OnCore (pInfo : PartitionInfo) (accessType : AccessType) : Prop :=
  (pInfo.isNsAgentMailbox && accessType.ns) = false

/-- A partition runs unprivileged. -/
def unprivileged (core : Core) (pInfo : PartitionInfo) : Bool :=
  if pInfo.isNsAgentTz then core.nPrivNs else !pInfo.privileged

/-- The MPU permits the access that is asked for. -/
structure MpuPermits (core : Core) (pInfo : PartitionInfo) (accessType : AccessType)
    (g : ℕ) : Prop where
  /-- Read access. -/
  reads : accessType.readable = true →
    mpuPermits (core.regions pInfo.isNsAgentTz) (unprivileged core pInfo) false g = true
  /-- Write access. -/
  writes : accessType.writable = true →
    mpuPermits (core.regions pInfo.isNsAgentTz) (unprivileged core pInfo) true g = true

/-- A byte is in a memory. -/
def Holds (m : MemoryConfig) (address : Word) : Prop :=
  m.sAddress.toNat ≤ (ifxSAddressAlias address).toNat ∧
    (ifxSAddressAlias address).toNat < m.sAddress.toNat + m.size.toNat

/-- The block of a byte. -/
def blockOf (m : MemoryConfig) (address : Word) : ℕ :=
  ((ifxSAddressAlias address).toNat - m.sAddress.toNat) /
    (ifxMpcBlockSizeToBytes m.mpcBlockSize).toNat

/-- The attributes of a block.  Those of the RRAM are in the cache. -/
def blockAttr (P : Platform) (x : World) (m : MemoryConfig) (pc block : ℕ) : Option BlockAttr :=
  match m.mpc with
  | some mpc => x.getRotBlockAttr mpc block pc
  | none => P.rram.bind fun rram ↦
      if block < rram.blockCount then some (ExternalMpc.cachedAttr (x.rramAttr block) pc) else none

/-- A block permits the access that is asked for.  Whether it is secure counts for partitions that
are asked for the kind of access that they have. -/
structure BlockPermits (pInfo : PartitionInfo) (accessType : AccessType)
    (attr : BlockAttr) : Prop where
  /-- Read access. -/
  reads : accessType.readable = true → attr.access.reads = true
  /-- Write access. -/
  writes : accessType.writable = true → attr.access.writes = true
  /-- The security attribute. -/
  nonSecure : (accessType.ns = true → pInfo.isNsAgent = true) → attr.nonSecure = accessType.ns

/-- A byte permits the access that is asked for. -/
structure Permitted (P : Platform) (x : World) (pInfo : PartitionInfo) (accessType : AccessType)
    (address : Word) : Prop where
  /-- By the MPU. -/
  mpu : OnCore pInfo accessType → MpuPermits x.core pInfo accessType (granule address)
  /-- By the MPC. -/
  mpc : ∃ m ∈ P.configs, Holds m address ∧
    ∃ pc, ifxGetPartitionPc pInfo (!accessType.ns) = some pc ∧
    ∃ attr, blockAttr P x m pc (blockOf m address) = some attr ∧ BlockPermits pInfo accessType attr
  /-- By the SAU and the IDAU. -/
  nonSecure : pInfo.isNsAgentTz = true → OnCore pInfo accessType → accessType.ns = true →
    (x.core.attribution (granule address)).secure = false

/-- No computation of an address wraps around. -/
structure NoWrap (P : Platform) (base size : Word) : Prop where
  /-- The end of the range. -/
  range : base.toNat + size.toNat < 2 ^ 32
  /-- The end of the range in the secure alias. -/
  secureEnd : (ifxSAddressAlias base).toNat + size.toNat < 2 ^ 32
  /-- The end of the memory and the offset in it. -/
  memory : ∀ m, ifxFindMemoryConfig base size P.configs = some m → m.Inside base size
  /-- The end of the blocks. -/
  blocks : ∀ m, ifxFindMemoryConfig base size P.configs = some m →
    (m.offset base).toNat + size.toNat + (ifxMpcBlockSizeToBytes m.mpcBlockSize).toNat ≤ 2 ^ 32

/-- An accepted range may be accessed. -/
def SoundCheck (P : Platform) (x : World) (pInfo : PartitionInfo) (domain : ℕ) (base size : Word)
    (accessType : AccessType) : Prop :=
  tfmHalMemoryCheck P x pInfo domain base size accessType = some .success →
    (∀ address, InRange base size address → Permitted P x pInfo accessType address) ∧
      (size ≠ 0 → NoWrap P base size)

/-- What the platform promises. -/
structure Platform.Sane (P : Platform) : Prop where
  /-- Memories are in the secure alias. -/
  secure : ∀ m ∈ P.configs, ∃ q, (2 * q + 1) * 2 ^ 28 ≤ m.sAddress.toNat ∧
    m.sAddress.toNat + m.size.toNat ≤ (2 * q + 2) * 2 ^ 28
  /-- Blocks have 1 MB at most. -/
  mpcBlockSize : ∀ m ∈ P.configs, m.mpcBlockSize ≤ 15

/-- Regions of an MPU are disjoint. -/
def Separate (regions : List MpuRegion) : Prop :=
  regions.Pairwise fun r s ↦ ∀ g, ¬(r.contains g = true ∧ s.contains g = true)

/-- The protection contexts of a partition exist. -/
def SmallPcs (pInfo : PartitionInfo) : Prop :=
  ∀ secure pc, ifxGetPartitionPc pInfo secure = some pc → pc < 8

/-! ## Addresses -/

/-- The secure alias has bit 28 set. -/
theorem toNat_ifxSAddressAlias (address : Word) : (ifxSAddressAlias address).toNat =
    if address.toNat / 2 ^ 28 % 2 = 1 then address.toNat else address.toNat + 2 ^ 28 := by
  have bit : address.getLsbD 28 = decide (address.toNat / 2 ^ 28 % 2 = 1) := by
    rw [BitVec.getLsbD, Nat.testBit_eq_decide_div_mod_eq]
  have small := address.isLt
  have mask : (0x10000000 : Word) = BitVec.twoPow 32 28 := rfl
  split
  · next set =>
      rw [decide_eq_true set] at bit
      congr 1
      refine BitVec.eq_of_getLsbD_eq fun i lt ↦ ?_
      rw [ifxSAddressAlias, BitVec.getLsbD_or, mask, BitVec.getLsbD_twoPow]
      by_cases eq : 28 = i
      · rw [← eq, bit, Bool.true_or]
      · rw [decide_eq_false eq, Bool.and_false, Bool.or_false]
  · next clear =>
      rw [decide_eq_false clear] at bit
      have apart : address &&& 0x10000000 = 0 := by
        refine BitVec.eq_of_getLsbD_eq fun i lt ↦ ?_
        rw [BitVec.getLsbD_and, mask, BitVec.getLsbD_twoPow]
        by_cases eq : 28 = i
        · rw [← eq, bit]
          rfl
        · rw [decide_eq_false eq, Bool.and_false, Bool.and_false]
          exact BitVec.getLsbD_zero.symm
      have toNat_mask : (0x10000000 : Word).toNat = 2 ^ 28 := rfl
      rw [ifxSAddressAlias, ← BitVec.add_eq_or_of_and_eq_zero _ _ apart, BitVec.toNat_add]
      omega

/-- In a memory in the secure alias, the aliases of the bytes of a range are next to each other. -/
theorem toNat_alias_of_inRange {address : Word}
    (secure : ∃ q, (2 * q + 1) * 2 ^ 28 ≤ m.sAddress.toNat ∧
      m.sAddress.toNat + m.size.toNat ≤ (2 * q + 2) * 2 ^ 28)
    (inside : m.Inside base size) (inRange : InRange base size address) :
    (ifxSAddressAlias address).toNat =
      (ifxSAddressAlias base).toNat + (address.toNat - base.toNat) := by
  obtain ⟨q, low, high⟩ := secure
  obtain ⟨after, before⟩ := inRange
  have offset := inside.offset_eq
  have fits := inside.fits
  rw [toNat_ifxSAddressAlias] at offset ⊢
  rw [toNat_ifxSAddressAlias base]
  split at offset
  · next set =>
      rw [if_pos set, if_pos (by omega)]
      omega
  · next clear =>
      rw [if_neg clear, if_neg (by omega)]
      omega

/-- The size of a block is not zero. -/
theorem toNat_blockSize {n : ℕ} (small : n ≤ 15) :
    0 < (ifxMpcBlockSizeToBytes n).toNat ∧ (ifxMpcBlockSizeToBytes n).toNat ≤ 2 ^ 20 := by
  have all : ∀ n : Fin 16, 0 < (ifxMpcBlockSizeToBytes n.val).toNat ∧
      (ifxMpcBlockSizeToBytes n.val).toNat ≤ 2 ^ 20 := by decide
  exact all ⟨n, by omega⟩

/-- The memory of a range. -/
theorem mem_of_ifxFindMemoryConfig (found : ifxFindMemoryConfig base size P.configs = some m) :
    m ∈ P.configs ∧ m.Inside base size := by
  rw [ifxFindMemoryConfig] at found
  have contains := List.find?_some found
  exact ⟨List.mem_of_find?_eq_some found, MemoryConfig.inside_of_contains contains⟩

/-- The blocks of a range do not wrap around. -/
theorem room_of_inside (sane : P.Sane) (mem : m ∈ P.configs) (inside : m.Inside base size) :
    (m.offset base).toNat + size.toNat +
      (ifxMpcBlockSizeToBytes m.mpcBlockSize).toNat ≤ 2 ^ 32 := by
  obtain ⟨q, low, high⟩ := sane.secure m mem
  have fits := inside.fits
  have total := inside.total
  have blockSize := (toNat_blockSize (sane.mpcBlockSize m mem)).2
  omega

/-- A byte of a range that is inside a memory. -/
theorem blockOf_mem (sane : P.Sane) (mem : m ∈ P.configs) (inside : m.Inside base size)
    {address : Word}
    (inRange : InRange base size address) :
    Holds m address ∧ blockOf m address ∈
      blockIds (firstBlockIdx (m.offset base) (ifxMpcBlockSizeToBytes m.mpcBlockSize))
        (lastBlockIdx (m.offset base) size (ifxMpcBlockSizeToBytes m.mpcBlockSize)) := by
  have alias_eq := toNat_alias_of_inRange (sane.secure m mem) inside inRange
  have offset := inside.offset_eq
  have fits := inside.fits
  have pos := (toNat_blockSize (sane.mpcBlockSize m mem)).1
  obtain ⟨after, before⟩ := inRange
  refine ⟨⟨by omega, by omega⟩, ?_⟩
  rw [mem_blockIds pos (room_of_inside sane mem inside), blockOf, alias_eq]
  have distance : (ifxSAddressAlias base).toNat + (address.toNat - base.toNat) - m.sAddress.toNat =
      (m.offset base).toNat + (address.toNat - base.toNat) := by omega
  rw [distance]
  generalize (ifxMpcBlockSizeToBytes m.mpcBlockSize).toNat = blockSize at pos ⊢
  constructor
  · have below := Nat.lt_mul_div_succ ((m.offset base).toNat + (address.toNat - base.toNat)) pos
    rw [Nat.mul_comm] at below
    omega
  · have above :=
      Nat.div_mul_le_self ((m.offset base).toNat + (address.toNat - base.toNat)) blockSize
    omega

/-! ## Attributes of blocks -/

/-- The blocks of a range that is accepted by the check of the cache. -/
theorem external_spec {rram : ExternalMpc.Rram} {cache : ℕ → Word} {pc : ℕ} (small : pc < 8)
    (succeeds : ExternalMpc.ifxMpcMemoryCheckWithExternalMpc rram cache pc m base size accessType =
      .success) :
    ∀ b ∈ blockIds (firstBlockIdx (m.offset base) (ifxMpcBlockSizeToBytes m.mpcBlockSize))
        (lastBlockIdx (m.offset base) size (ifxMpcBlockSizeToBytes m.mpcBlockSize)),
      b < rram.blockCount ∧
        (ExternalMpc.cachedAttr (cache b) pc).Permits accessType.ns accessType := by
  rw [ExternalMpc.ifxMpcMemoryCheckWithExternalMpc] at succeeds
  split at succeeds
  · cases succeeds
  next blockSize =>
  rw [not_not.1 blockSize] at succeeds
  dsimp only at succeeds
  split at succeeds
  · cases succeeds
  next bounds =>
  rw [ExternalMpc.checkCache_eq_success] at succeeds
  intro b mem
  refine ⟨?_, (ExternalMpc.and_mask_eq_iff small accessType).1 (succeeds b mem)⟩
  rw [blockIds, List.mem_range'_1] at mem
  omega

/-- The blocks of a range that is accepted. -/
theorem mpc_spec (smallPcs : SmallPcs pInfo)
    (succeeds : ifxMpcMemoryCheck P x pInfo base size accessType = .success) :
    ∃ m, ifxFindMemoryConfig base size P.configs = some m ∧
      ∃ pc, ifxGetPartitionPc pInfo (!accessType.ns) = some pc ∧
        ∀ b ∈ blockIds (firstBlockIdx (m.offset base) (ifxMpcBlockSizeToBytes m.mpcBlockSize))
            (lastBlockIdx (m.offset base) size (ifxMpcBlockSizeToBytes m.mpcBlockSize)),
          ∃ attr, blockAttr P x m pc b = some attr ∧ BlockPermits pInfo accessType attr := by
  rw [ifxMpcMemoryCheck] at succeeds
  split at succeeds
  · cases succeeds
  next m found =>
  split at succeeds
  · cases succeeds
  next pc context =>
  refine ⟨m, found, pc, context, fun b mem ↦ ?_⟩
  rw [blockAttr]
  split at succeeds
  · next external =>
      rw [external]
      split at succeeds
      · cases succeeds
      next rram present =>
      obtain ⟨bound, permits⟩ := external_spec (smallPcs _ pc context) succeeds b mem
      rw [present, Option.bind_some, if_pos bound]
      exact ⟨_, rfl, permits.reads, permits.writes, fun _ ↦ permits.nonSecure_eq⟩
  · next mpc internal =>
      rw [internal]
      obtain ⟨attr, found, permits⟩ := checkBlocks_eq_success.1 succeeds b mem
      refine ⟨attr, found, permits.reads, permits.writes, fun agent ↦ ?_⟩
      rw [permits.nonSecure_eq]
      cases ns : accessType.ns with
      | false => exact Bool.and_false _
      | true => rw [agent ns, Bool.and_true]

/-- Each byte of an accepted range is in a block that permits the access. -/
theorem mpc_byte (sane : P.Sane) (smallPcs : SmallPcs pInfo)
    (succeeds : ifxMpcMemoryCheck P x pInfo base size accessType = .success) {address : Word}
    (inRange : InRange base size address) :
    ∃ m ∈ P.configs, Holds m address ∧ ∃ pc, ifxGetPartitionPc pInfo (!accessType.ns) = some pc ∧
      ∃ attr, blockAttr P x m pc (blockOf m address) = some attr ∧
        BlockPermits pInfo accessType attr := by
  obtain ⟨m, found, pc, context, permits⟩ := mpc_spec smallPcs succeeds
  obtain ⟨mem, inside⟩ := mem_of_ifxFindMemoryConfig found
  obtain ⟨holds, block⟩ := blockOf_mem sane mem inside inRange
  exact ⟨m, mem, holds, pc, context, permits _ block⟩

/-! ## The ends of a range -/

/-- Two granules are in the same region of the MPU and are attributed alike. -/
structure Alike (core : Core) (nonsecure : Bool) (g h : ℕ) : Prop where
  /-- The region of the MPU. -/
  mpuRegion_eq : mpuRegion (core.regions nonsecure) g = mpuRegion (core.regions nonsecure) h
  /-- The attribution. -/
  attribution_eq : core.attribution g = core.attribution h

/-- The test target instructions see the regions and the attribution. -/
theorem cmseTt_eq_iff {core : Core} {flags : CmseFlags} {a b : Word} :
    cmseTt core flags a = cmseTt core flags b ↔
      Alike core flags.mpuNonsecure (granule a) (granule b) := by
  constructor
  · intro eq
    exact ⟨congrArg AddressInfo.mpuRegion eq, congrArg AddressInfo.attribution eq⟩
  · rintro ⟨mpuRegion_eq, attribution_eq⟩
    rw [cmseTt, cmseTt]
    rw [mpuPermits, mpuPermits, mpuPermits, mpuPermits, mpuRegion_eq, attribution_eq]

/-- A single test is made when both ends are in one granule. -/
theorem granule_eq_of_xor_lt {a b : Word} (lt : a ^^^ b < 32) : granule a = granule b := by
  have small : a.toNat ^^^ b.toNat < 32 := by
    rw [BitVec.lt_def, BitVec.toNat_xor] at lt
    exact lt
  have shifted : a.toNat >>> 5 ^^^ b.toNat >>> 5 = 0 := by
    rw [← Nat.shiftRight_xor_distrib, Nat.shiftRight_eq_div_pow, Nat.div_eq_of_lt small]
  have eq := Nat.eq_of_xor_eq_zero shifted
  rw [Nat.shiftRight_eq_div_pow, Nat.shiftRight_eq_div_pow] at eq
  exact eq

/-- The check of a range, when it does not wrap around. -/
theorem cmseCheck_eq_success {core : Core} {flags : CmseFlags}
    (fits : base.toNat + size.toNat < 2 ^ 32) :
    ifxCmseCheckAddressRange core base size flags = .success ↔
      Alike core flags.mpuNonsecure (granule base) (granule (lastByte base size)) ∧
        permissionOk flags (cmseTt core flags base) = true := by
  have no_wrap : ¬0xFFFFFFFF - base < size := by
    have max : (0xFFFFFFFF : Word).toNat = 2 ^ 32 - 1 := rfl
    rw [BitVec.lt_def, BitVec.toNat_sub, max]
    omega
  rw [ifxCmseCheckAddressRange, if_neg no_wrap]
  dsimp only
  have ends : (cmseTt core flags base =
      if base ^^^ (base + size - 1) < 32 then cmseTt core flags base
      else cmseTt core flags (base + size - 1)) ↔
      Alike core flags.mpuNonsecure (granule base) (granule (lastByte base size)) := by
    rw [← cmseTt_eq_iff, lastByte]
    split
    · next single =>
        refine iff_of_true rfl (cmseTt_eq_iff.2 ?_)
        rw [granule_eq_of_xor_lt single]
        exact ⟨rfl, rfl⟩
    · exact Iff.rfl
  rw [← ends]
  by_cases same : cmseTt core flags base =
      if base ^^^ (base + size - 1) < 32 then cmseTt core flags base
      else cmseTt core flags (base + size - 1)
  · rw [if_neg (not_not.2 same), and_iff_right same]
    cases ok : permissionOk flags (cmseTt core flags base) with
    | true => exact iff_of_true rfl rfl
    | false => exact iff_of_false (by decide) (by decide)
  · rw [if_pos same]
    exact iff_of_false (by decide) fun both ↦ same both.1

/-- The test of the ends of a range. -/
theorem tz_eq_success {core : Core} (onCore : OnCore pInfo accessType)
    (fits : base.toNat + size.toNat < 2 ^ 32) :
    ifxTzMemoryCheck core pInfo base size accessType = .success ↔
      accessType.readable = true ∧
        Alike core pInfo.isNsAgentTz (granule base) (granule (lastByte base size)) ∧
        MpuPermits core pInfo accessType (granule base) ∧
        (pInfo.isNsAgentTz = true → (core.attribution (granule base)).secure = false) := by
  have on_core : (pInfo.isNsAgentMailbox && accessType.ns) = false := onCore
  rw [ifxTzMemoryCheck, on_core, if_neg (by decide), tzFlags]
  have checked (flags : CmseFlags) :
      (if ifxCmseCheckAddressRange core base size flags ≠ .success then
      HalStatus.memFault else .success) = .success ↔
      Alike core flags.mpuNonsecure (granule base) (granule (lastByte base size)) ∧
        permissionOk flags (cmseTt core flags base) = true := by
    rw [← cmseCheck_eq_success fits]
    split
    · next failed => exact iff_of_false (by decide) failed
    · next ok => exact iff_of_true rfl (not_not.1 ok)
  cases readable : accessType.readable with
  | false =>
      refine iff_of_false (fun failed ↦ ?_) fun all ↦ Bool.false_ne_true all.1
      cases failed
  | true =>
      have permits : MpuPermits core pInfo accessType (granule base) ↔
          mpuPermits (core.regions pInfo.isNsAgentTz) (unprivileged core pInfo) false
            (granule base) =
              true ∧
            (accessType.writable = true → mpuPermits (core.regions pInfo.isNsAgentTz)
              (unprivileged core pInfo) true (granule base) = true) :=
        ⟨fun permits ↦ ⟨permits.reads readable, permits.writes⟩,
          fun both ↦ ⟨fun _ ↦ both.1, both.2⟩⟩
      rw [permits, and_iff_right rfl]
      cases writable : accessType.writable with
      | false =>
          refine (checked _).trans (and_congr_right fun _ ↦ ?_)
          cases tz : pInfo.isNsAgentTz <;>
            simp [permissionOk, cmseTt, AddressInfo.nonsecureReadOk, unprivileged, tz]
      | true =>
          refine (checked _).trans (and_congr_right fun _ ↦ ?_)
          cases tz : pInfo.isNsAgentTz <;>
            simp [permissionOk, cmseTt, AddressInfo.nonsecureReadwriteOk, unprivileged, tz]

/-- A region that contains both ends of a range contains what is between them. -/
theorem mpuRegion_between {regions : List MpuRegion} (separate : Separate regions) {g h k i : ℕ}
    (first : mpuRegion regions g = some i) (last : mpuRegion regions h = some i) (after : g ≤ k)
    (before : k ≤ h) : mpuRegion regions k = some i := by
  obtain ⟨lt, contains_g, -⟩ := List.findIdx?_eq_some_iff_getElem.1 first
  obtain ⟨_, contains_h, -⟩ := List.findIdx?_eq_some_iff_getElem.1 last
  have contains_k : regions[i].contains k = true := by
    rw [MpuRegion.contains, Bool.and_eq_true, decide_eq_true_eq, decide_eq_true_eq] at *
    exact ⟨contains_g.1.trans after, before.trans contains_h.2⟩
  refine List.findIdx?_eq_some_iff_getElem.2 ⟨lt, contains_k, fun j lt' contains ↦ ?_⟩
  exact List.pairwise_iff_getElem.1 separate j i (lt'.trans lt) lt lt' k ⟨contains, contains_k⟩

/-- The granules of a range are between those of its ends. -/
theorem granule_between (fits : base.toNat + size.toNat < 2 ^ 32) {address : Word}
    (inRange : InRange base size address) :
    granule base ≤ granule address ∧ granule address ≤ granule (lastByte base size) := by
  obtain ⟨after, before⟩ := inRange
  have last : (lastByte base size).toNat = base.toNat + size.toNat - 1 := by
    have one : (1 : Word).toNat = 1 := rfl
    rw [lastByte, BitVec.toNat_sub, BitVec.toNat_add, one]
    omega
  rw [granule, granule, granule, last]
  exact ⟨Nat.div_le_div_right after, Nat.div_le_div_right (by omega)⟩

/-- What the test of the ends of a range does not see. -/
inductive Hidden (x : World) (pInfo : PartitionInfo) (base size : Word)
    (accessType : AccessType) : Prop
  /-- Both ends are outside of the regions of the MPU, and a byte between them is in a region that
  does not permit the access. -/
  | region (outside : mpuRegion (x.core.regions pInfo.isNsAgentTz) (granule base) = none)
      (denied : ∃ address, InRange base size address ∧
        mpuRegion (x.core.regions pInfo.isNsAgentTz) (granule address) ≠ none ∧
        ¬MpuPermits x.core pInfo accessType (granule address))
  /-- Both ends are non-secure, and a byte between them is secure. -/
  | secure (agent : pInfo.isNsAgentTz = true) (ns : accessType.ns = true)
      (secure : ∃ address, InRange base size address ∧
        (x.core.attribution (granule address)).secure = true)

/-- Something is hidden between the ends of a range that are alike and permit the access, in blocks
that permit it. -/
structure Slips (P : Platform) (x : World) (pInfo : PartitionInfo) (base size : Word)
    (accessType : AccessType) : Prop where
  /-- The request comes from this core. -/
  onCore : OnCore pInfo accessType
  /-- Read access is asked for. -/
  readable : accessType.readable = true
  /-- There is a range. -/
  nonempty : size ≠ 0
  /-- Its base is not null. -/
  base_ne : base ≠ 0
  /-- It does not wrap around. -/
  fits : base.toNat + size.toNat < 2 ^ 32
  /-- Its ends are alike. -/
  alike : Alike x.core pInfo.isNsAgentTz (granule base) (granule (lastByte base size))
  /-- They permit the access. -/
  permits : MpuPermits x.core pInfo accessType (granule base)
  /-- They are non-secure for the agent of the non-secure side. -/
  nonSecure : pInfo.isNsAgentTz = true → (x.core.attribution (granule base)).secure = false
  /-- The blocks permit the access. -/
  blocks : ifxMpcMemoryCheck P x pInfo base size accessType = .success
  /-- Something is hidden. -/
  hidden : Hidden x pInfo base size accessType

theorem not_lt_iff_fits : ¬0xFFFFFFFF - size < base ↔ base.toNat + size.toNat < 2 ^ 32 := by
  have max : (0xFFFFFFFF : Word).toNat = 2 ^ 32 - 1 := rfl
  have base_lt := base.isLt
  have size_lt := size.isLt
  rw [BitVec.lt_def, BitVec.toNat_sub, max]
  omega

/-- When a memory check of a range that is not empty succeeds. -/
theorem tfmHalMemoryCheck_eq_success (active : domain = x.activeDomain) (nonempty : size ≠ 0) :
    tfmHalMemoryCheck P x pInfo domain base size accessType = some .success ↔
      base ≠ 0 ∧ base.toNat + size.toNat < 2 ^ 32 ∧
        ifxTzMemoryCheck x.core pInfo base size accessType = .success ∧
        ifxMpcMemoryCheck P x pInfo base size accessType = .success := by
  rw [tfmHalMemoryCheck, if_neg (not_not.2 active), if_neg nonempty, ← not_lt_iff_fits]
  by_cases null : base = 0
  · rw [if_pos null]
    exact iff_of_false (by decide) fun all ↦ all.1 null
  rw [if_neg null]
  by_cases wraps : 0xFFFFFFFF - size < base
  · rw [if_pos wraps]
    exact iff_of_false (by decide) fun all ↦ all.2.1 wraps
  rw [if_neg wraps, and_iff_right null, and_iff_right wraps]
  cases ifxTzMemoryCheck x.core pInfo base size accessType with
  | success => exact Option.some_inj.trans (and_iff_right rfl).symm
  | _ => exact iff_of_false (fun failed ↦ by cases failed) fun both ↦ by cases both.1

/-- A memory check is sound if and only if nothing slips through the test of the ends. -/
theorem sound_iff_not_slips (P : Platform) (x : World) (pInfo : PartitionInfo) (domain : ℕ)
    (base size : Word) (accessType : AccessType) (sane : P.Sane) (smallPcs : SmallPcs pInfo)
    (separate : Separate x.core.mpu) (separateNs : Separate x.core.mpuNs)
    (active : domain = x.activeDomain) :
    SoundCheck P x pInfo domain base size accessType ↔ ¬Slips P x pInfo base size accessType := by
  have separate_regions : Separate (x.core.regions pInfo.isNsAgentTz) := by
    cases pInfo.isNsAgentTz
    · exact separate
    · exact separateNs
  constructor
  · rintro sound ⟨onCore, readable, nonempty, base_ne, fits, alike, permits, nonSecure,
      blocks, hidden⟩
    have tz := (tz_eq_success onCore fits).2 ⟨readable, alike, permits, nonSecure⟩
    obtain ⟨permitted, -⟩ := sound ((tfmHalMemoryCheck_eq_success active nonempty).2
      ⟨base_ne, fits, tz, blocks⟩)
    cases hidden with
    | region _ denied =>
        obtain ⟨address, inRange, -, denied⟩ := denied
        exact denied ((permitted address inRange).mpu onCore)
    | secure agent ns secure =>
        obtain ⟨address, inRange, secure⟩ := secure
        exact Bool.false_ne_true
          (((permitted address inRange).nonSecure agent onCore ns).symm.trans secure)
  · intro nothing_slips success
    by_cases nonempty : size = 0
    · refine ⟨fun address inRange ↦ ?_, fun ne ↦ absurd nonempty ne⟩
      obtain ⟨after, before⟩ := inRange
      rw [nonempty] at before
      exact absurd before (Nat.not_lt.2 after)
    obtain ⟨base_ne, fits, tz, blocks⟩ := (tfmHalMemoryCheck_eq_success active nonempty).1 success
    refine ⟨fun address inRange ↦ ⟨fun onCore ↦ ?_, mpc_byte sane smallPcs blocks inRange,
      fun agent onCore ns ↦ ?_⟩, fun _ ↦ ?_⟩
    · obtain ⟨readable, alike, permits, nonSecure⟩ := (tz_eq_success onCore fits).1 tz
      obtain ⟨after, before⟩ := granule_between fits inRange
      by_contra denied
      have same : mpuRegion (x.core.regions pInfo.isNsAgentTz) (granule address) =
          mpuRegion (x.core.regions pInfo.isNsAgentTz) (granule base) := by
        cases outside : mpuRegion (x.core.regions pInfo.isNsAgentTz) (granule base) with
        | some i =>
            exact mpuRegion_between separate_regions outside
              (alike.mpuRegion_eq ▸ outside) after before
        | none =>
            by_contra inside
            exact nothing_slips ⟨onCore, readable, nonempty, base_ne, fits, alike,
              permits, nonSecure,
              blocks, .region outside ⟨address, inRange, inside, denied⟩⟩
      refine denied ⟨fun reads ↦ ?_, fun writes ↦ ?_⟩
      · rw [mpuPermits, same]
        exact permits.reads reads
      · rw [mpuPermits, same]
        exact permits.writes writes
    · obtain ⟨readable, alike, permits, nonSecure⟩ := (tz_eq_success onCore fits).1 tz
      by_contra secure
      exact nothing_slips ⟨onCore, readable, nonempty, base_ne, fits, alike, permits,
        nonSecure, blocks,
        .secure agent ns ⟨address, inRange, Bool.not_eq_false _ ▸ secure⟩⟩
    · obtain ⟨m, found, -⟩ := mpc_spec smallPcs blocks
      obtain ⟨mem, inside⟩ := mem_of_ifxFindMemoryConfig found
      have offset := inside.offset_eq
      have within := inside.fits
      have total := inside.total
      refine ⟨fits, by omega, fun m' found' ↦ (mem_of_ifxFindMemoryConfig found').2,
        fun m' found' ↦ ?_⟩
      obtain ⟨mem', inside'⟩ := mem_of_ifxFindMemoryConfig found'
      exact room_of_inside sane mem' inside'

/-- A memory of 16 blocks. -/
def samplePlatform : Platform := ⟨[⟨0x34000000, 0x10000, cyMpcSize4kb, some 0⟩], none⟩

/-- All blocks are open, and one of them is a read-only region of the MPU. -/
def sampleWorld : World where
  core := ⟨[⟨0x34002000 / 32, 0x34002FFF / 32, true, true⟩], [], fun _ ↦ ⟨true, none, none⟩, false⟩
  getRotBlockAttr _ b _ := if b < 16 then some ⟨false, .rw⟩ else none
  rramAttr _ := 0
  activeDomain := 0

/-- A partition that is no agent of the non-secure side. -/
def samplePartition (privileged : Bool) : PartitionInfo := ⟨false, false, privileged, some 2, none⟩

theorem samplePlatform_sane : samplePlatform.Sane where
  secure m mem := by
    rw [List.mem_singleton.1 mem]
    exact ⟨1, by decide⟩
  mpcBlockSize m mem := by
    rw [List.mem_singleton.1 mem]
    decide

theorem samplePartition_smallPcs (privileged : Bool) : SmallPcs (samplePartition privileged) := by
  intro secure pc context
  cases context
  decide

/-- An unprivileged partition reads in the region. -/
theorem sound_sampleRead :
    tfmHalMemoryCheck samplePlatform sampleWorld (samplePartition false) 0 0x34002000 0x100
        ⟨true, false, false⟩ = some .success ∧
      SoundCheck samplePlatform sampleWorld (samplePartition false) 0 0x34002000 0x100
        ⟨true, false, false⟩ := by
  refine ⟨by decide +kernel,
    (sound_iff_not_slips samplePlatform sampleWorld (samplePartition false) 0
    0x34002000 0x100 ⟨true, false, false⟩ samplePlatform_sane (samplePartition_smallPcs false)
    (List.pairwise_singleton ..) List.Pairwise.nil rfl).2 fun slips ↦ ?_⟩
  cases slips.hidden with
  | region outside _ => exact absurd outside (by decide +kernel)
  | secure agent _ _ => cases agent

/-- A privileged partition is allowed to write a range with the region in its middle. -/
theorem not_soundCheck : ¬∀ (P : Platform) (x : World) (pInfo : PartitionInfo) (domain : ℕ)
    (base size : Word) (accessType : AccessType), P.Sane → SmallPcs pInfo → Separate x.core.mpu →
      Separate x.core.mpuNs → domain = x.activeDomain →
        SoundCheck P x pInfo domain base size accessType := by
  intro sound
  have accepted : tfmHalMemoryCheck samplePlatform sampleWorld (samplePartition true) 0 0x34001000
      0x3000 ⟨true, true, false⟩ = some .success := by
    decide +kernel
  obtain ⟨permitted, -⟩ :=
    sound samplePlatform sampleWorld (samplePartition true) 0 0x34001000 0x3000
    ⟨true, true, false⟩ samplePlatform_sane (samplePartition_smallPcs true)
    (List.pairwise_singleton ..) List.Pairwise.nil rfl accepted
  have writable := ((permitted 0x34002000 ⟨by decide, by decide⟩).mpu rfl).writes rfl
  exact absurd writable (by decide +kernel)

end TrustedFirmwareM.Isolation.MemoryCheck
