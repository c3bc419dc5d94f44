import TrustedFirmwareM.Isolation.ExternalMpc

/-!
# Memory checks

Before the SPM reads or writes memory for a partition it checks that the partition may do so.  The
core is asked with test target (TT) instructions about the first and the last byte of the range, and
then the attributes of all blocks of the range are checked.
-/

namespace TrustedFirmwareM.Isolation.MemoryCheck

/-- The number of the 32-byte granule of an address.  Regions of the MPU and attributions have this
granularity. -/
def granule (address : Word) : ℕ := address.toNat / 32

/-- An enabled region of an MPU. -/
structure MpuRegion where
  /-- The granule of the base. -/
  first : ℕ
  /-- The granule of the limit. -/
  last : ℕ
  /-- The region is open to unprivileged code. -/
  unprivileged : Bool
  /-- The region is read-only. -/
  readOnly : Bool

/-- A granule is in a region. -/
def MpuRegion.contains (r : MpuRegion) (g : ℕ) : Bool := decide (r.first ≤ g) && decide (g ≤ r.last)

/-- The number of the region of a granule.  Regions are disjoint. -/
def mpuRegion (regions : List MpuRegion) (g : ℕ) : Option ℕ := regions.findIdx? fun r ↦ r.contains g

/-- What an MPU permits in a region, or outside of the regions, where the default memory map is for
privileged code. -/
def regionPermits (regions : List MpuRegion) (unprivileged write : Bool)
    (region : Option ℕ) : Bool :=
  match region.bind (regions[·]?) with
  | none => !unprivileged
  | some r => (r.unprivileged || !unprivileged) && (!r.readOnly || !write)

/-- What an MPU permits. -/
def mpuPermits (regions : List MpuRegion) (unprivileged write : Bool) (g : ℕ) : Bool :=
  regionPermits regions unprivileged write (mpuRegion regions g)

/-- What the SAU and the IDAU say about a granule. -/
structure Attribution where
  /-- The granule is secure. -/
  secure : Bool
  /-- The region of the SAU. -/
  sauRegion : Option ℕ
  /-- The region of the IDAU. -/
  idauRegion : Option ℕ
  deriving DecidableEq

/-- The protection of the core. -/
structure Core where
  /-- The regions of the secure MPU. -/
  mpu : List MpuRegion
  /-- The regions of the non-secure MPU. -/
  mpuNs : List MpuRegion
  /-- The attribution of the granules. -/
  attribution : ℕ → Attribution
  /-- `nPRIV` of `CONTROL_NS`. -/
  nPrivNs : Bool

/-- `cmse_address_info_t`. -/
structure AddressInfo where
  /-- `mpu_region`, if it is valid. -/
  mpuRegion : Option ℕ
  /-- `sau_region` and `idau_region`, if they are valid, and `secure`. -/
  attribution : Attribution
  /-- `read_ok`. -/
  readOk : Bool
  /-- `readwrite_ok`. -/
  readwriteOk : Bool
  deriving DecidableEq

/-- `nonsecure_read_ok`. -/
def AddressInfo.nonsecureReadOk (i : AddressInfo) : Bool := i.readOk && !i.attribution.secure

/-- `nonsecure_readwrite_ok`. -/
def AddressInfo.nonsecureReadwriteOk (i : AddressInfo) : Bool :=
  i.readwriteOk && !i.attribution.secure

/-- The flags of a check.  `CMSE_NONSECURE` is `CMSE_AU_NONSECURE` and `CMSE_MPU_NONSECURE`. -/
structure CmseFlags where
  /-- `CMSE_MPU_UNPRIV`. -/
  mpuUnpriv : Bool
  /-- `CMSE_MPU_READWRITE`. -/
  mpuReadwrite : Bool
  /-- `CMSE_MPU_READ`. -/
  mpuRead : Bool
  /-- `CMSE_AU_NONSECURE`. -/
  auNonsecure : Bool
  /-- `CMSE_MPU_NONSECURE`. -/
  mpuNonsecure : Bool

/-- The MPU of a security state. -/
def Core.regions (core : Core) (nonsecure : Bool) : List MpuRegion :=
  if nonsecure then core.mpuNs else core.mpu

/-- `cmse_TT`, `cmse_TTT`, `cmse_TTA` or `cmse_TTAT`. -/
def cmseTt (core : Core) (flags : CmseFlags) (address : Word) : AddressInfo :=
  let regions := core.regions flags.mpuNonsecure
  let g := granule address
  { mpuRegion := mpuRegion regions g
    attribution := core.attribution g
    readOk := mpuPermits regions flags.mpuUnpriv false g
    readwriteOk :=
  mpuPermits regions flags.mpuUnpriv false g && mpuPermits regions flags.mpuUnpriv true g }

/-- The permissions on a range, from those on its first byte. -/
def permissionOk (flags : CmseFlags) (permb : AddressInfo) : Bool :=
  if flags.auNonsecure then
    if flags.mpuReadwrite then permb.nonsecureReadwriteOk
    else if flags.mpuRead then permb.nonsecureReadOk
    else !permb.attribution.secure
  else
    if flags.mpuReadwrite then permb.readwriteOk
    else if flags.mpuRead then permb.readOk
    else false

/-- `ifx_cmse_check_address_range`. -/
def ifxCmseCheckAddressRange (core : Core) (p size : Word) (flags : CmseFlags) : HalStatus :=
  if 0xFFFFFFFF - p < size then .invalidInput
  else
    let pe := p + size - 1
    let singleCheck := p ^^^ pe < 32
    let permb := cmseTt core flags p
    let perme := if singleCheck then permb else cmseTt core flags pe
    -- the range does not cross boundaries of the MPU, the SAU or the IDAU
    if permb ≠ perme then .memFault
    else if permissionOk flags permb then .success
    else .memFault

/-- The flags of `ifx_tz_memory_check`, unless the access is invalid. -/
def tzFlags (core : Core) (pInfo : PartitionInfo) (accessType : AccessType) : Option CmseFlags :=
  let unpriv := if pInfo.isNsAgentTz then core.nPrivNs else !pInfo.privileged
  if accessType.readable && accessType.writable then
    some ⟨unpriv, true, false, pInfo.isNsAgentTz, pInfo.isNsAgentTz⟩
  else if accessType.readable then some ⟨unpriv, false, true, pInfo.isNsAgentTz, pInfo.isNsAgentTz⟩
  else none

/-- `ifx_tz_memory_check`. -/
def ifxTzMemoryCheck (core : Core) (pInfo : PartitionInfo) (base size : Word)
    (accessType : AccessType) : HalStatus :=
  if pInfo.isNsAgentMailbox && accessType.ns then .success
  else
    match tzFlags core pInfo accessType with
    | none => .invalidInput
    | some flags =>
        if ifxCmseCheckAddressRange core base size flags ≠ .success then .memFault else .success

/-- The memories of the platform. -/
structure Platform where
  /-- `ifx_memory_cm33_config`. -/
  configs : List MemoryConfig
  /-- The RRAM whose controller belongs to the secure enclave, if there is one. -/
  rram : Option ExternalMpc.Rram

/-- What memory checks read. -/
structure World where
  /-- The core. -/
  core : Core
  /-- `Cy_Mpc_GetRotBlockAttr`, for a controller, a block and a protection context. -/
  getRotBlockAttr : ℕ → ℕ → ℕ → Option BlockAttr
  /-- `ifx_mpc_se_rt_rram_attr`. -/
  rramAttr : ℕ → Word
  /-- The domain of `active_boundary`. -/
  activeDomain : ℕ

/-- `ifx_mpc_memory_check`. -/
def ifxMpcMemoryCheck (P : Platform) (x : World) (pInfo : PartitionInfo) (base size : Word)
    (accessType : AccessType) : HalStatus :=
  match ifxFindMemoryConfig base size P.configs with
  | none => .invalidInput
  | some m =>
      match ifxGetPartitionPc pInfo (!accessType.ns) with
      | none => .memFault
      | some pc =>
          match m.mpc with
          | none =>
              match P.rram with
              | none => .memFault
              | some rram =>
                  ExternalMpc.ifxMpcMemoryCheckWithExternalMpc rram x.rramAttr pc m base size
                    accessType
          | some mpc => checkRange m
              (fun idx ↦ x.getRotBlockAttr mpc idx pc) pInfo base size accessType

/-- `tfm_hal_memory_check` for a partition of a domain.  The SPM panics when the domain is not the
active one, and for other kinds of access. -/
def tfmHalMemoryCheck (P : Platform) (x : World) (pInfo : PartitionInfo) (domain : ℕ)
    (base size : Word) (accessType : AccessType) : Option HalStatus :=
  if domain ≠ x.activeDomain then none
  else if size = 0 then some .success
  else if base = 0 then some .invalidInput
  else if 0xFFFFFFFF - size < base then some .invalidInput
  else
    match ifxTzMemoryCheck x.core pInfo base size accessType with
    | .success => some (ifxMpcMemoryCheck P x pInfo base size accessType)
    | failed => some failed

end TrustedFirmwareM.Isolation.MemoryCheck
