import TrustedFirmwareM.Isolation.Mpc
import TrustedFirmwareM.Lib.Run

/-!
# Isolation boundaries

At isolation level 3 the assets of a partition are open only while the partition is active.
Peripherals are protected by a peripheral protection controller (PPC), memory by the memory
protection controllers (MPC) and, for unprivileged partitions, by regions of the memory protection
unit (MPU).
-/

namespace TrustedFirmwareM.Isolation.Boundary

/-- A memory asset: the `mem` part of `struct asset_desc_t`. -/
structure MemoryAsset where
  /-- The start. -/
  start : Word
  /-- The first address after the asset. -/
  limit : Word
  /-- `ASSET_ATTR_READ_ONLY`. -/
  readOnly : Bool
  /-- `ASSET_ATTR_READ_WRITE`. -/
  readWrite : Bool
  deriving DecidableEq

/-- `struct asset_desc_t`, for regions `ρ` of the PPC. -/
inductive Asset (ρ : Type)
  /-- `ASSET_ATTR_NAMED_MMIO`: a region of the PPC, unless it is `IFX_UNUSED_MMIO`. -/
  | namedMmio (devRef : Option ρ)
  /-- Memory. -/
  | memory (m : MemoryAsset)

/-- `ifx_protection_region_config_t`, with configurations `κ` of the PPC and `μ` of the MPC. -/
structure RegionCfg (κ μ : Type) where
  /-- `ppc_cfg`. -/
  ppcCfg : κ
  /-- `mpc_cfg`. -/
  mpcCfg : μ
  /-- `mpu_regions_enable`. -/
  mpuRegionsEnable : Bool
  /-- `mpc_dynamic`. -/
  mpcDynamic : Bool
  /-- `ppc_dynamic`. -/
  ppcDynamic : Bool

/-- `ifx_partition_info_t` with its `ifx_partition_load_info_t`. -/
structure Info (ρ κ μ : Type) where
  /-- The assets of `p_ldinfo`. -/
  ldAssets : List (Asset ρ)
  /-- `p_assets`. -/
  pAssets : List (Asset ρ)
  /-- `IFX_IS_PARTITION_PRIVILEGED`. -/
  privileged : Bool
  /-- `ifx_domain` is `IFX_PROTECT_SPM_DOMAIN`. -/
  spmDomain : Bool
  /-- `protect_cfg_enabled`. -/
  protectCfgEnabled : RegionCfg κ μ
  /-- `protect_cfg_disabled`. -/
  protectCfgDisabled : RegionCfg κ μ

/-- The platform, with partitions `ι` and blocks `β` of the MPC. -/
structure Platform (ι ρ β κ μ : Type) where
  /-- `ifx_protection_get_partition_info`. -/
  info : ι → Info ρ κ μ
  /-- The blocks that `ifx_mpc_apply_configuration` configures for an asset. -/
  mpcBlocks : MemoryAsset → List β
  /-- `CPUSS_CM33_0_MPU_S_REGION_NR`. -/
  mpuRegionNr : ℕ
  /-- `ifx_mpu_static_config_count`. -/
  mpuStaticConfigCount : ℕ
  /-- `IFX_PLATFORM_PPC_PRESENT`. -/
  ppcPresent : Bool
  /-- `IFX_MPC_CONFIGURED_BY_TFM && IFX_ISOLATION_PC_SWITCHING`. -/
  mpcPresent : Bool

/-- `ifx_asset_protection_type_t`. -/
inductive AssetProtectionType
  /-- `IFX_ASSET_PROTECTION_STATIC`. -/
  | static
  /-- `IFX_ASSET_PROTECTION_PARTITION_STATIC`. -/
  | partitionStatic
  /-- `IFX_ASSET_PROTECTION_PARTITION_DYNAMIC`. -/
  | partitionDynamic
  deriving DecidableEq

/-- `struct mpu_armv8m_region_cfg_t` of an enabled region. -/
structure MpuRegion where
  /-- `region_base`. -/
  base : Word
  /-- `region_limit`. -/
  limit : Word
  /-- `attr_access` is `MPU_ARMV8M_AP_RW_PRIV_UNPRIV`, not `MPU_ARMV8M_AP_RO_PRIV_UNPRIV`. -/
  readWrite : Bool
  deriving DecidableEq

/-- The state of the controllers and of the isolation driver. -/
structure World (ι ρ β κ μ : Type) where
  /-- The configuration of the regions of the PPC. -/
  ppc : ρ → κ
  /-- The configuration of the blocks of the MPC, and whether they may be written. -/
  mpc : β → μ × Bool
  /-- The enabled regions of the MPU. -/
  mpu : ℕ → Option MpuRegion
  /-- `ifx_mpu_used_regions_count`. -/
  mpuUsedRegionsCount : ℕ
  /-- `active_boundary`, unless it is `IFX_SPM_BOUNDARY`. -/
  activeBoundary : Option ι
  /-- `ifx_asset_protection_type`. -/
  assetProtectionType : AssetProtectionType
  /-- `nPRIV` of the `CONTROL` register. -/
  nPriv : Bool
  /-- The number of steps so far. -/
  steps : ℕ

/-- Which steps fail, and what they leave of a region of the PPC or a block of the MPC. -/
structure Fault (ρ β κ μ : Type) where
  /-- The step fails. -/
  fails : ℕ → Bool
  /-- What is left of a region. -/
  ppc : ρ → κ
  /-- What is left of a block. -/
  mpc : β → μ × Bool

variable {ι ρ β κ μ : Type} [DecidableEq ι] [DecidableEq ρ] [DecidableEq β]

/-- `ifx_ppc_isolate_named_mmio`. -/
def ifxPpcIsolateNamedMmio (fault : Fault ρ β κ μ) (ppcCfg : κ) (region : ρ) (x : World ι ρ β κ μ) :
    HalStatus × World ι ρ β κ μ :=
  if fault.fails x.steps then
    (.generic, { x with
      ppc := Function.update x.ppc region (fault.ppc region), steps := x.steps + 1 })
  else (.success, { x with ppc := Function.update x.ppc region ppcCfg, steps := x.steps + 1 })

/-- `ifx_mpc_isolate_numbered_mmio`. -/
def ifxMpcIsolateNumberedMmio (P : Platform ι ρ β κ μ) (fault : Fault ρ β κ μ) (mpcCfg : μ)
    (m : MemoryAsset) (x : World ι ρ β κ μ) : HalStatus × World ι ρ β κ μ :=
  if fault.fails x.steps then
    (.generic, { x with
      mpc := fun b ↦ if b ∈ P.mpcBlocks m then fault.mpc b else x.mpc b, steps := x.steps + 1 })
  else
    (.success, { x with
      mpc := fun b ↦ if b ∈ P.mpcBlocks m then (mpcCfg, m.readWrite) else x.mpc b
      steps := x.steps + 1 })

/-- The region of the MPU for an asset. -/
def MemoryAsset.region (m : MemoryAsset) : MpuRegion := ⟨m.start, m.limit - 1, m.readWrite⟩

/-- `ifx_mpu_isolate_numbered_mmio`. -/
def ifxMpuIsolateNumberedMmio (P : Platform ι ρ β κ μ) (fault : Fault ρ β κ μ) (pInfo : Info ρ κ μ)
    (m : MemoryAsset) (x : World ι ρ β κ μ) : HalStatus × World ι ρ β κ μ :=
  if x.assetProtectionType ≠ .partitionDynamic then (.success, x)
  else if pInfo.privileged then (.success, x)
  else if P.mpuRegionNr ≤ x.mpuUsedRegionsCount then (.badState, x)
  else if fault.fails x.steps then (.generic, { x with steps := x.steps + 1 })
  else
    (.success, { x with
      mpu := Function.update x.mpu x.mpuUsedRegionsCount (some m.region)
      mpuUsedRegionsCount := x.mpuUsedRegionsCount + 1
      steps := x.steps + 1 })

/-- `ifx_mpu_disable_asset_regions`. -/
def ifxMpuDisableAssetRegions (P : Platform ι ρ β κ μ) (x : World ι ρ β κ μ) : World ι ρ β κ μ :=
  { x with
    mpu := fun idx ↦
      if P.mpuStaticConfigCount ≤ idx ∧ idx < P.mpuRegionNr then none else x.mpu idx
    mpuUsedRegionsCount := P.mpuStaticConfigCount }

/-- A body of the loop of `ifx_apply_assets`. -/
def applyAsset (P : Platform ι ρ β κ μ) (fault : Fault ρ β κ μ) (pInfo : Info ρ κ μ)
    (cfg : RegionCfg κ μ) (asset : Asset ρ) (x : World ι ρ β κ μ) : HalStatus × World ι ρ β κ μ :=
  match asset with
  | .namedMmio none => (.success, x)
  | .namedMmio (some region) =>
      if P.ppcPresent && (x.assetProtectionType ≠ .partitionDynamic || cfg.ppcDynamic) then
        ifxPpcIsolateNamedMmio fault cfg.ppcCfg region x
      else (.success, x)
  | .memory m =>
      if m.readOnly = m.readWrite then (.invalidInput, x)
      else
        let (result, x) :=
          if P.mpcPresent && (x.assetProtectionType ≠ .partitionDynamic || cfg.mpcDynamic) then
            ifxMpcIsolateNumberedMmio P fault cfg.mpcCfg m x
          else (.success, x)
        if result ≠ .success then (result, x)
        else if cfg.mpuRegionsEnable then ifxMpuIsolateNumberedMmio P fault pInfo m x
        else (.success, x)

/-- `ifx_apply_assets`. -/
def ifxApplyAssets (P : Platform ι ρ β κ μ) (fault : Fault ρ β κ μ) (pInfo : Info ρ κ μ)
    (cfg : RegionCfg κ μ) : List (Asset ρ) → World ι ρ β κ μ → HalStatus × World ι ρ β κ μ
  | [], x => (.success, x)
  | asset :: rest, x =>
      match applyAsset P fault pInfo cfg asset x with
      | (.success, x) => ifxApplyAssets P fault pInfo cfg rest x
      | failed => failed

/-- `ifx_protect_partition_assets`. -/
def ifxProtectPartitionAssets (P : Platform ι ρ β κ μ) (fault : Fault ρ β κ μ) (pInfo : Info ρ κ μ)
    (cfg : RegionCfg κ μ) (x : World ι ρ β κ μ) : HalStatus × World ι ρ β κ μ :=
  match ifxApplyAssets P fault pInfo cfg pInfo.ldAssets x with
  | (.success, x) => ifxApplyAssets P fault pInfo cfg pInfo.pAssets x
  | failed => failed

/-- `tfm_hal_bind_boundary`. -/
def tfmHalBindBoundary (P : Platform ι ρ β κ μ) (fault : Fault ρ β κ μ) (p : ι)
    (x : World ι ρ β κ μ) : HalStatus × World ι ρ β κ μ :=
  let pInfo := P.info p
  if pInfo.spmDomain then
    ifxProtectPartitionAssets P fault pInfo pInfo.protectCfgEnabled
      { x with assetProtectionType := .static }
  else
    match ifxProtectPartitionAssets P fault pInfo pInfo.protectCfgEnabled
        { x with assetProtectionType := .partitionStatic } with
    | (.success, x) =>
        ifxProtectPartitionAssets P fault pInfo pInfo.protectCfgDisabled
          { x with assetProtectionType := .partitionDynamic }
    | failed => failed

/-- `tfm_hal_finish_boot`. -/
def tfmHalFinishBoot (x : World ι ρ β κ μ) : World ι ρ β κ μ :=
  { x with assetProtectionType := .partitionDynamic }

/-- Disable the assets of the active boundary, if it is not in the domain of the SPM. -/
def disableActive (P : Platform ι ρ β κ μ) (fault : Fault ρ β κ μ) (x : World ι ρ β κ μ) :
    HalStatus × World ι ρ β κ μ :=
  match x.activeBoundary with
  | none => (.success, x)
  | some q =>
      if (P.info q).spmDomain then (.success, x)
      else ifxProtectPartitionAssets P fault (P.info q) (P.info q).protectCfgDisabled x

/-- Switch to a partition that is not active. -/
def switchBoundary (P : Platform ι ρ β κ μ) (fault : Fault ρ β κ μ) (p : ι) (x : World ι ρ β κ μ) :
    HalStatus × World ι ρ β κ μ :=
  match disableActive P fault x with
  | (.success, x) =>
      let x := ifxMpuDisableAssetRegions P x
      let (result, x) :=
        if (P.info p).spmDomain then (.success, x)
        else ifxProtectPartitionAssets P fault (P.info p) (P.info p).protectCfgEnabled x
      if result ≠ .success then (result, x)
      else (.success, { x with activeBoundary := some p })
  | failed => failed

/-- `tfm_hal_activate_boundary`.  There is no partition for `IFX_SPM_BOUNDARY`. -/
def tfmHalActivateBoundary (P : Platform ι ρ β κ μ) (fault : Fault ρ β κ μ) (boundary : Option ι)
    (x : World ι ρ β κ μ) : HalStatus × World ι ρ β κ μ :=
  match boundary with
  | none => (.success, { x with nPriv := false })
  | some p =>
      let (result, x) :=
        if x.activeBoundary = some p then (.success, x) else switchBoundary P fault p x
      if result ≠ .success then (result, x)
      else (.success, { x with nPriv := !(P.info p).privileged })

end TrustedFirmwareM.Isolation.Boundary
