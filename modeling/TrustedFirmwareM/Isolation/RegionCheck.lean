import TrustedFirmwareM.Isolation.Mpc
import Mathlib.Data.List.Basic

/-!
# Memory checks by regions

Cores without test target instructions are given a table of regions.  The attributes of a range are
those of the first region that has all of it, and the secure memory that is in no other region is
for privileged code.
-/

namespace TrustedFirmwareM.Isolation.RegionCheck

/-- `TFM_ISOLATION_LEVEL`. -/
inductive Level
  /-- Level 1. -/
  | one
  /-- Level 2. -/
  | two
  deriving DecidableEq

/-- A region, with its last address. -/
structure Region where
  /-- The first address. -/
  start : Word
  /-- The last address. -/
  limit : Word

/-- The region of a pair of linker symbols, the second one behind its end. -/
def Region.ofSymbols (base stop : Word) : Region := ⟨base, stop - 1⟩

/-- A region has a byte. -/
def Region.Has (r : Region) (a : Word) : Prop := r.start ≤ a ∧ a ≤ r.limit

/-- The layout of memory. -/
structure Layout where
  /-- `NS_DATA_START`, `NS_DATA_LIMIT`. -/
  nsData : Region
  /-- `NS_CODE_START`, `NS_CODE_LIMIT`. -/
  nsCode : Region
  /-- `S_DATA_START`, `S_DATA_LIMIT`. -/
  sData : Region
  /-- `S_CODE_START`, `S_CODE_LIMIT`. -/
  sCode : Region
  /-- `TFM_UNPRIV_CODE_START`, `TFM_UNPRIV_CODE_END`. -/
  unprivCode : Word × Word
  /-- `TFM_APP_CODE_START`, `TFM_APP_CODE_END`. -/
  appCode : Word × Word
  /-- `TFM_APP_RW_STACK_START`, `TFM_APP_RW_STACK_END`. -/
  appRwStack : Word × Word

/-- `SPM_SUCCESS` and `SPM_ERROR_GENERIC`. -/
inductive SpmStatus
  /-- `SPM_SUCCESS`. -/
  | success
  /-- `SPM_ERROR_GENERIC`. -/
  | errorGeneric
  deriving DecidableEq

/-- `struct security_attr_info_t`. -/
structure SecurityAttr where
  /-- `is_valid`. -/
  isValid : Bool
  /-- `is_secure`. -/
  isSecure : Bool
  deriving DecidableEq

/-- `struct mem_attr_info_t`. -/
structure MemAttr where
  /-- `is_mpu_enabled`. -/
  isMpuEnabled : Bool
  /-- `is_valid`. -/
  isValid : Bool
  /-- `is_xn`. -/
  isXn : Bool
  /-- `is_priv_rd_allow`. -/
  isPrivRdAllow : Bool
  /-- `is_priv_wr_allow`. -/
  isPrivWrAllow : Bool
  /-- `is_unpriv_rd_allow`. -/
  isUnprivRdAllow : Bool
  /-- `is_unpriv_wr_allow`. -/
  isUnprivWrAllow : Bool
  deriving DecidableEq

/-- `MEM_CHECK_MPU_READWRITE`. -/
def memCheckMpuReadwrite : BitVec 8 := 0x01

/-- `MEM_CHECK_MPU_UNPRIV`. -/
def memCheckMpuUnpriv : BitVec 8 := 0x04

/-- `MEM_CHECK_MPU_READ`. -/
def memCheckMpuRead : BitVec 8 := 0x08

/-- `MEM_CHECK_NONSECURE`: `MEM_CHECK_AU_NONSECURE` and `MEM_CHECK_MPU_NONSECURE`. -/
def memCheckNonsecure : BitVec 8 := 0x12

/-- Some flag is set. -/
def isSet (flags flag : BitVec 8) : Bool := flags &&& flag ≠ 0

/-- `check_address_range`. -/
def checkAddressRange (p s : Word) (r : Region) : SpmStatus :=
  if 0xFFFFFFFF - s < p then .errorGeneric
  else if r.start ≤ p ∧ p + s - 1 ≤ r.limit then .success
  else .errorGeneric

/-- `tfm_get_mem_region_security_attr`. -/
def tfmGetMemRegionSecurityAttr (L : Layout) (p s : Word) (attr : SecurityAttr) : SecurityAttr :=
  let attr := { attr with isValid := true }
  if checkAddressRange p s L.nsData = .success then { attr with isSecure := false }
  else if checkAddressRange p s L.nsCode = .success then { attr with isSecure := false }
  else if checkAddressRange p s L.sData = .success then { attr with isSecure := true }
  else if checkAddressRange p s L.sCode = .success then { attr with isSecure := true }
  else { attr with isValid := false }

/-- What a region allows. -/
structure Access where
  /-- `is_priv_rd_allow`. -/
  privRd : Bool
  /-- `is_priv_wr_allow`. -/
  privWr : Bool
  /-- `is_unpriv_rd_allow`. -/
  unprivRd : Bool
  /-- `is_unpriv_wr_allow`. -/
  unprivWr : Bool
  /-- `is_xn`. -/
  xn : Bool

/-- The access and `is_xn` are set. -/
def MemAttr.set (attr : MemAttr) (access : Access) : MemAttr :=
  { attr with
    isPrivRdAllow := access.privRd
    isPrivWrAllow := access.privWr
    isUnprivRdAllow := access.unprivRd
    isUnprivWrAllow := access.unprivWr
    isXn := access.xn }

/-- The attributes of the first region of a list that has all of a range. -/
def setFromRegions (p s : Word) (attr : MemAttr) : List (Region × Access) → MemAttr
  | [] => { attr with isValid := false }
  | (region, access) :: regions =>
      if checkAddressRange p s region = .success then attr.set access
      else setFromRegions p s attr regions

/-- Data for everyone. -/
def Access.data : Access := ⟨true, true, true, true, true⟩

/-- Code for everyone. -/
def Access.code : Access := ⟨true, false, true, false, false⟩

/-- Data for privileged code. -/
def Access.privData : Access := ⟨true, true, false, false, true⟩

/-- Code for privileged code. -/
def Access.privCode : Access := ⟨true, false, false, false, false⟩

/-- The regions of `tfm_get_secure_mem_region_attr`, in its order. -/
def Layout.secureRegions (L : Layout) : Level → List (Region × Access)
  | .one => [(L.sData, .data), (L.sCode, .code)]
  | .two =>
      [(.ofSymbols L.unprivCode.1 L.unprivCode.2, .code),
        (.ofSymbols L.appCode.1 L.appCode.2, .code),
        (.ofSymbols L.appRwStack.1 L.appRwStack.2, .data), (L.sData, .privData),
        (L.sCode, .privCode)]

/-- The regions of `tfm_get_ns_mem_region_attr`, in its order. -/
def Layout.nsRegions (L : Layout) : List (Region × Access) := [(L.nsData, .data), (L.nsCode, .code)]

/-- `tfm_get_secure_mem_region_attr`, without `CONFIG_TFM_PARTITION_META`. -/
def tfmGetSecureMemRegionAttr (level : Level) (L : Layout) (p s : Word)
    (attr : MemAttr) : MemAttr :=
  setFromRegions p s { attr with isMpuEnabled := false, isValid := true } (L.secureRegions level)

/-- `tfm_get_ns_mem_region_attr`. -/
def tfmGetNsMemRegionAttr (L : Layout) (p s : Word) (attr : MemAttr) : MemAttr :=
  setFromRegions p s { attr with isMpuEnabled := false, isValid := true } L.nsRegions

/-- `security_attr_init`. -/
def securityAttrInit : SecurityAttr := ⟨false, true⟩

/-- `mem_attr_init`. -/
def memAttrInit : MemAttr := ⟨false, false, true, false, false, false, false⟩

/-- `security_attr_check`. -/
def securityAttrCheck (attr : SecurityAttr) (flags : BitVec 8) : SpmStatus :=
  if !attr.isValid then .errorGeneric
  else
    let secureAccess := !isSet flags memCheckNonsecure
    if secureAccess ^^ attr.isSecure then .errorGeneric else .success

/-- The checks for read and write access, and then for read access. -/
def accessCheck (rdAllow wrAllow : Bool) (flags : BitVec 8) : SpmStatus :=
  if isSet flags memCheckMpuReadwrite && rdAllow && wrAllow then .success
  else if isSet flags memCheckMpuRead && rdAllow then .success
  else .errorGeneric

/-- `ns_mem_attr_check`. -/
def nsMemAttrCheck (attr : MemAttr) (flags : BitVec 8) : SpmStatus :=
  accessCheck (attr.isPrivRdAllow || attr.isUnprivRdAllow)
    (attr.isPrivWrAllow || attr.isUnprivWrAllow) flags

/-- `secure_mem_attr_check`. -/
def secureMemAttrCheck (level : Level) (attr : MemAttr) (flags : BitVec 8) : SpmStatus :=
  match level with
  | .one =>
      accessCheck (attr.isPrivRdAllow || attr.isUnprivRdAllow)
        (attr.isPrivWrAllow || attr.isUnprivWrAllow) flags
  | .two =>
      if isSet flags memCheckMpuUnpriv then
        accessCheck attr.isUnprivRdAllow attr.isUnprivWrAllow flags
      else accessCheck attr.isPrivRdAllow attr.isPrivWrAllow flags

/-- `mem_attr_check`. -/
def memAttrCheck (level : Level) (attr : MemAttr) (flags : BitVec 8) : SpmStatus :=
  if !attr.isValid then .errorGeneric
  else if isSet flags memCheckNonsecure then nsMemAttrCheck attr flags
  else secureMemAttrCheck level attr flags

/-- `tfm_has_access_to_region`, with hooks that return the attributes of the regions and the state
of the MPU.  There is no result after a panic. -/
def tfmHasAccessToRegion (level : Level) (L : Layout) (archIsPriv mpuEnabled : Bool)
    (p s flags : Word) : Option SpmStatus :=
  if s = 0 then some .success
  else if p = 0 then some .errorGeneric
  else if 0xFFFFFFFF - s < p then some .errorGeneric
  else if !archIsPriv then none
  else
    let securityAttr := tfmGetMemRegionSecurityAttr L p s securityAttrInit
    if securityAttrCheck securityAttr (flags.setWidth 8) ≠ .success then some .errorGeneric
    else if securityAttr.isSecure then
      let memAttr :=
        { tfmGetSecureMemRegionAttr level L p s memAttrInit with isMpuEnabled := mpuEnabled }
      if level ≠ .one ∧ !memAttr.isMpuEnabled then none
      else some (memAttrCheck level memAttr (flags.setWidth 8))
    else some (memAttrCheck level (tfmGetNsMemRegionAttr L p s memAttrInit) (flags.setWidth 8))

/-- A byte is in a range. -/
def InRange (p s a : Word) : Prop := p.toNat ≤ a.toNat ∧ a.toNat < p.toNat + s.toNat

/-- Flags ask for secure memory. -/
def secureAsked (flags : Word) : Bool := !isSet (flags.setWidth 8) memCheckNonsecure

/-- Flags ask for unprivileged access. -/
def unprivAsked (flags : Word) : Bool := isSet (flags.setWidth 8) memCheckMpuUnpriv

/-- Flags ask for read and write access. -/
def readwriteAsked (flags : Word) : Bool := isSet (flags.setWidth 8) memCheckMpuReadwrite

/-- Read access at a privilege. -/
def Access.reads (access : Access) (unpriv : Bool) : Bool :=
  if unpriv then access.unprivRd else access.privRd

/-- Write access at a privilege. -/
def Access.writes (access : Access) (unpriv : Bool) : Bool :=
  if unpriv then access.unprivWr else access.privWr

namespace Layout

/-- A byte has a security: the attribute of the byte alone says so. -/
def HasSecurity (L : Layout) (secure : Bool) (a : Word) : Prop :=
  tfmGetMemRegionSecurityAttr L a 1 securityAttrInit = ⟨true, secure⟩

/-- The regions of a security. -/
def regionsOf (L : Layout) (level : Level) (secure : Bool) : List (Region × Access) :=
  if secure then L.secureRegions level else L.nsRegions

/-- The region whose attributes a range has. -/
def regionOf (L : Layout) (level : Level) (secure : Bool) (p s : Word) : Option (Region × Access) :=
  (L.regionsOf level secure).find? fun x ↦ checkAddressRange p s x.1 = .success

/-- A byte may be read: the region whose attributes the byte alone has lets it be read. -/
def Readable (L : Layout) (level : Level) (secure unpriv : Bool) (a : Word) : Prop :=
  ∃ x, L.regionOf level secure a 1 = some x ∧ x.2.reads unpriv = true

/-- A byte may be written. -/
def Writable (L : Layout) (level : Level) (secure unpriv : Bool) (a : Word) : Prop :=
  ∃ x, L.regionOf level secure a 1 = some x ∧ x.2.writes unpriv = true

/-- The regions that come before the one whose attributes a range has.  None of them has all of the
range. -/
def regionsBefore (L : Layout) (level : Level) (secure : Bool) (p s : Word) :
    List (Region × Access) :=
  (L.regionsOf level secure).takeWhile fun x ↦ checkAddressRange p s x.1 ≠ .success

/-- The first of these regions that has a byte. -/
def shadowOf (L : Layout) (level : Level) (secure : Bool) (p s a : Word) :
    Option (Region × Access) :=
  (L.regionsBefore level secure p s).find? fun x ↦ checkAddressRange a 1 x.1 = .success

end Layout

/-- The access that flags ask for may be granted. -/
structure AccessSound (level : Level) (L : Layout) (p s flags : Word) : Prop where
  /-- The range does not wrap around. -/
  no_wrap : p.toNat + s.toNat < 2 ^ 32
  /-- The bytes have the security that is asked for. -/
  security : ∀ a, InRange p s a → L.HasSecurity (secureAsked flags) a
  /-- They may be read. -/
  readable : ∀ a, InRange p s a → L.Readable level (secureAsked flags) (unprivAsked flags) a
  /-- They may be written, if that is asked for. -/
  writable : readwriteAsked flags = true → ∀ a, InRange p s a →
    L.Writable level (secureAsked flags) (unprivAsked flags) a
  /-- Unprivileged secure code writes to the data and stack of the application RoT only. -/
  unpriv_write : level = .two → secureAsked flags = true → unprivAsked flags = true →
    readwriteAsked flags = true → ∀ a, InRange p s a →
      (Region.ofSymbols L.appRwStack.1 L.appRwStack.2).Has a
  /-- Unprivileged secure code does not read what is for privileged code only. -/
  unpriv_read : level = .two → secureAsked flags = true → unprivAsked flags = true →
    ∀ a, InRange p s a → (Region.ofSymbols L.unprivCode.1 L.unprivCode.2).Has a ∨
      (Region.ofSymbols L.appCode.1 L.appCode.2).Has a ∨
        (Region.ofSymbols L.appRwStack.1 L.appRwStack.2).Has a

/-- What is asked of `tfm_has_access_to_region`. -/
def CheckSound (level : Level) (L : Layout) (p s flags : Word) : Prop :=
  s ≠ 0 → ∀ archIsPriv mpuEnabled,
    tfmHasAccessToRegion level L archIsPriv mpuEnabled p s flags = some .success →
      AccessSound level L p s flags

/-- The range as a whole has the security and the access that are asked for.  The flag for read
access is enough where a range may be read and not written, also with the flag for read and write
access. -/
structure Granted (level : Level) (L : Layout) (p s flags : Word) : Prop where
  /-- The pointer is not null. -/
  ne_zero : p ≠ 0
  /-- The range has the security that is asked for. -/
  security : tfmGetMemRegionSecurityAttr L p s securityAttrInit = ⟨true, secureAsked flags⟩
  /-- Its region gives the access. -/
  region : ∃ x, L.regionOf level (secureAsked flags) p s = some x ∧
    x.2.reads (unprivAsked flags) = true ∧
      (readwriteAsked flags = true ∧ x.2.writes (unprivAsked flags) = true ∨
        isSet (flags.setWidth 8) memCheckMpuRead = true)

/-- A byte of a range that is granted is taken for what the range is, and its region is not a
read-only one that is asked for with both flags. -/
structure Unshadowed (level : Level) (L : Layout) (p s flags a : Word) : Prop where
  /-- A byte of secure memory is not in a non-secure region also. -/
  security : secureAsked flags = true → ¬L.nsData.Has a ∧ ¬L.nsCode.Has a
  /-- A region with the byte, but not with all of the range, gives the access if it comes first. -/
  shadow : ∀ y, L.shadowOf level (secureAsked flags) p s a = some y →
    y.2.reads (unprivAsked flags) = true ∧
      (readwriteAsked flags = true → y.2.writes (unprivAsked flags) = true)
  /-- Where there is none, the region of the range may be written if that is asked for. -/
  plain : L.shadowOf level (secureAsked flags) p s a = none → readwriteAsked flags = true →
    ∀ x, L.regionOf level (secureAsked flags) p s = some x → x.2.writes (unprivAsked flags) = true

variable {level : Level} {L : Layout} {p s flags a : Word} {r : Region} {x : Region × Access}
  {secure unpriv : Bool}

/-! ### Ranges and regions -/

theorem checkAddressRange_eq_success_iff (ne_zero : s ≠ 0) :
    checkAddressRange p s r = .success ↔ p.toNat + s.toNat < 2 ^ 32 ∧
      r.start.toNat ≤ p.toNat ∧ p.toNat + s.toNat ≤ r.limit.toNat + 1 := by
  rw [checkAddressRange]
  split
  · next wraps =>
      simp only [reduceCtorEq, false_iff]
      bv_omega
  · next no_wrap =>
      simp only [ite_eq_left_iff, reduceCtorEq, imp_false, not_not, BitVec.le_def]
      bv_omega

/-- A region with a range has its bytes. -/
theorem Region.has_of_range (inside : checkAddressRange p s r = .success)
    (in_range : InRange p s a) : r.Has a := by
  obtain ⟨from_start, to_end⟩ := in_range
  have ne_zero : s ≠ 0 := by
    rintro rfl
    simp at to_end
    omega
  obtain ⟨_, start, limit⟩ := (checkAddressRange_eq_success_iff ne_zero).mp inside
  constructor
  · rw [BitVec.le_def]
    omega
  · rw [BitVec.le_def]
    omega

theorem checkAddressRange_byte (below : a ≠ 0xFFFFFFFF) :
    checkAddressRange a 1 r = .success ↔ r.Has a := by
  rw [checkAddressRange_eq_success_iff (by decide), Region.Has, BitVec.le_def, BitVec.le_def]
  bv_omega

/-- The last address is in no range that is admitted. -/
theorem ne_last_of_range (inside : checkAddressRange p s r = .success) (in_range : InRange p s a) :
    a ≠ 0xFFFFFFFF := by
  obtain ⟨from_start, to_end⟩ := in_range
  have ne_zero : s ≠ 0 := by
    rintro rfl
    simp at to_end
    omega
  have no_wrap := ((checkAddressRange_eq_success_iff ne_zero).mp inside).1
  rintro rfl
  have last : (0xFFFFFFFF : Word).toNat = 2 ^ 32 - 1 := by decide
  omega

theorem byte_of_range (inside : checkAddressRange p s r = .success) (in_range : InRange p s a) :
    checkAddressRange a 1 r = .success :=
  (checkAddressRange_byte (ne_last_of_range inside in_range)).mpr
    (Region.has_of_range inside in_range)

theorem hasSecurity_false_iff (below : a ≠ 0xFFFFFFFF) :
    L.HasSecurity false a ↔ L.nsData.Has a ∨ L.nsCode.Has a := by
  rw [Layout.HasSecurity, tfmGetMemRegionSecurityAttr, ← checkAddressRange_byte below,
    ← checkAddressRange_byte below]
  cases checkAddressRange a 1 L.nsData <;> cases checkAddressRange a 1 L.nsCode <;>
    cases checkAddressRange a 1 L.sData <;> cases checkAddressRange a 1 L.sCode <;> decide

theorem hasSecurity_true_iff (below : a ≠ 0xFFFFFFFF) :
    L.HasSecurity true a ↔
      (¬L.nsData.Has a ∧ ¬L.nsCode.Has a) ∧ (L.sData.Has a ∨ L.sCode.Has a) := by
  rw [Layout.HasSecurity, tfmGetMemRegionSecurityAttr, ← checkAddressRange_byte below,
    ← checkAddressRange_byte below, ← checkAddressRange_byte below, ← checkAddressRange_byte below]
  cases checkAddressRange a 1 L.nsData <;> cases checkAddressRange a 1 L.nsCode <;>
    cases checkAddressRange a 1 L.sData <;> cases checkAddressRange a 1 L.sCode <;> decide

/-- The region that decides the security of a range. -/
theorem exists_range_of_attr
    (attr : tfmGetMemRegionSecurityAttr L p s securityAttrInit = ⟨true, secure⟩) :
    if secure then
      checkAddressRange p s L.sData = .success ∨ checkAddressRange p s L.sCode = .success
    else
      checkAddressRange p s L.nsData = .success ∨ checkAddressRange p s L.nsCode = .success := by
  unfold tfmGetMemRegionSecurityAttr at attr
  dsimp only at attr
  split at attr
  · next inside =>
      obtain rfl : false = secure := congrArg SecurityAttr.isSecure attr
      exact .inl inside
  split at attr
  · next inside =>
      obtain rfl : false = secure := congrArg SecurityAttr.isSecure attr
      exact .inr inside
  split at attr
  · next inside =>
      obtain rfl : true = secure := congrArg SecurityAttr.isSecure attr
      exact .inl inside
  split at attr
  · next inside =>
      obtain rfl : true = secure := congrArg SecurityAttr.isSecure attr
      exact .inr inside
  · exact nomatch congrArg SecurityAttr.isValid attr

/-- The security of a range is the one of each byte that is not in a non-secure region also. -/
theorem hasSecurity_of_attr
    (attr : tfmGetMemRegionSecurityAttr L p s securityAttrInit = ⟨true, secure⟩)
    (in_range : InRange p s a)
    (apart : secure = true → ¬L.nsData.Has a ∧ ¬L.nsCode.Has a) : L.HasSecurity secure a := by
  have inside := exists_range_of_attr attr
  cases secure with
  | false =>
      rcases inside with inside | inside
      · exact (hasSecurity_false_iff (ne_last_of_range inside in_range)).mpr
          (.inl (Region.has_of_range inside in_range))
      · exact (hasSecurity_false_iff (ne_last_of_range inside in_range)).mpr
          (.inr (Region.has_of_range inside in_range))
  | true =>
      rcases inside with inside | inside
      · exact (hasSecurity_true_iff (ne_last_of_range inside in_range)).mpr
          ⟨apart rfl, .inl (Region.has_of_range inside in_range)⟩
      · exact (hasSecurity_true_iff (ne_last_of_range inside in_range)).mpr
          ⟨apart rfl, .inr (Region.has_of_range inside in_range)⟩

theorem find?_cons_success {α : Type} (status : α → SpmStatus) (first : α) (rest : List α) :
    (first :: rest).find? (fun x ↦ status x = .success) =
      if status first = .success then some first else rest.find? fun x ↦ status x = .success := by
  rw [List.find?_cons]
  cases status first with
  | success => rfl
  | errorGeneric => rfl

/-- The attributes of a range are those of its region. -/
theorem setFromRegions_eq (attr : MemAttr) (regions : List (Region × Access)) :
    setFromRegions p s attr regions =
      match regions.find? fun x ↦ checkAddressRange p s x.1 = .success with
      | some x => attr.set x.2
      | none => { attr with isValid := false } := by
  induction regions with
  | nil => rfl
  | cons first regions induction =>
      rw [setFromRegions, find?_cons_success fun x : Region × Access ↦ checkAddressRange p s x.1,
        induction]
      split
      · rfl
      · rfl

theorem mem_of_regionOf (found : L.regionOf level secure p s = some x) :
    x ∈ L.regionsOf level secure ∧ checkAddressRange p s x.1 = .success :=
  ⟨List.mem_of_find?_eq_some found, by simpa using List.find?_some found⟩

/-- A byte of a range has the attributes of the first region with the byte that comes before the one
of the range, and else those of the range. -/
theorem regionOf_byte (level : Level) (L : Layout) (secure : Bool) (in_range : InRange p s a) :
    L.regionOf level secure a 1 =
      (L.shadowOf level secure p s a).or (L.regionOf level secure p s) := by
  rw [Layout.regionOf, Layout.regionOf, Layout.shadowOf, Layout.regionsBefore]
  generalize L.regionsOf level secure = regions
  induction regions with
  | nil => rfl
  | cons first rest induction =>
      rw [find?_cons_success fun x : Region × Access ↦ checkAddressRange a 1 x.1,
        find?_cons_success fun x : Region × Access ↦ checkAddressRange p s x.1,
        List.takeWhile_cons]
      by_cases inside : checkAddressRange p s first.1 = .success
      · have stops : ¬decide (checkAddressRange p s first.1 ≠ .success) = true := by simp [inside]
        rw [if_pos (byte_of_range inside in_range), if_pos inside, if_neg stops]
        rfl
      · simp only [inside, ne_eq, not_false_eq_true, decide_true, if_true, if_false]
        rw [find?_cons_success fun x : Region × Access ↦ checkAddressRange a 1 x.1, induction]
        split
        · rfl
        · rfl

/-- A byte may be read when the attributes of the byte alone say so. -/
theorem readable_iff_attr {attr : MemAttr} :
    L.Readable level secure unpriv a ↔
      L.regionOf level secure a 1 ≠ none ∧
        (if unpriv then (setFromRegions a 1 attr (L.regionsOf level secure)).isUnprivRdAllow
        else (setFromRegions a 1 attr (L.regionsOf level secure)).isPrivRdAllow) = true := by
  rw [setFromRegions_eq, ← Layout.regionOf, Layout.Readable]
  cases L.regionOf level secure a 1 with
  | none => simp
  | some x => cases unpriv <;> simp [MemAttr.set, Access.reads]

/-! ### The checks of attributes -/

theorem securityAttrCheck_eq_success_iff {attr : SecurityAttr} :
    securityAttrCheck attr (flags.setWidth 8) = .success ↔ attr = ⟨true, secureAsked flags⟩ := by
  rcases attr with ⟨valid, secure⟩
  rw [securityAttrCheck, secureAsked]
  cases valid <;> cases secure <;> cases isSet (flags.setWidth 8) memCheckNonsecure <;> decide

theorem accessCheck_eq_success_iff {rdAllow wrAllow : Bool} {flags : BitVec 8} :
    accessCheck rdAllow wrAllow flags = .success ↔ rdAllow = true ∧
      (isSet flags memCheckMpuReadwrite = true ∧ wrAllow = true ∨
        isSet flags memCheckMpuRead = true) := by
  rw [accessCheck]
  cases rdAllow <;> cases wrAllow <;> cases isSet flags memCheckMpuReadwrite <;>
    cases isSet flags memCheckMpuRead <;> decide

/-- Where privilege is ignored, a region allows the same at both privileges. -/
theorem access_eq_of_mem (mem : x ∈ L.regionsOf level secure)
    (ignored : level = .one ∨ secure = false)
    (unpriv : Bool) : (x.2.privRd || x.2.unprivRd) = x.2.reads unpriv ∧
      (x.2.privWr || x.2.unprivWr) = x.2.writes unpriv := by
  have everyone : x.2 = .data ∨ x.2 = .code := by
    rcases ignored with rfl | rfl
    · cases secure with
      | true =>
          simp [Layout.regionsOf, Layout.secureRegions] at mem
          rcases mem with rfl | rfl <;> simp
      | false =>
          simp [Layout.regionsOf, Layout.nsRegions] at mem
          rcases mem with rfl | rfl <;> simp
    · simp [Layout.regionsOf, Layout.nsRegions] at mem
      rcases mem with rfl | rfl <;> simp
  rcases everyone with same | same <;> rw [same] <;> cases unpriv <;> decide

/-- The check of the attributes of a region is the check of its access at the privilege that is
asked for. -/
theorem memAttrCheck_set {attr : MemAttr} (valid : attr.isValid = true)
    (mem : x ∈ L.regionsOf level (secureAsked flags)) :
    memAttrCheck level (attr.set x.2) (flags.setWidth 8) =
      accessCheck (x.2.reads (unprivAsked flags)) (x.2.writes (unprivAsked flags))
        (flags.setWidth 8) := by
  have still_valid : (attr.set x.2).isValid = true := valid
  rw [memAttrCheck, still_valid]
  cases nonsecure : isSet (flags.setWidth 8) memCheckNonsecure with
  | true =>
      have asked : secureAsked flags = false := by simp [secureAsked, nonsecure]
      obtain ⟨reads, writes⟩ := access_eq_of_mem mem (.inr asked) (unprivAsked flags)
      rw [← reads, ← writes]
      rfl
  | false =>
      cases level with
      | one =>
          obtain ⟨reads, writes⟩ := access_eq_of_mem mem (.inl rfl) (unprivAsked flags)
          rw [← reads, ← writes]
          rfl
      | two =>
          rw [Access.reads, Access.writes, unprivAsked]
          cases unpriv : isSet (flags.setWidth 8) memCheckMpuUnpriv with
          | true => simp [secureMemAttrCheck, unpriv, MemAttr.set]
          | false => simp [secureMemAttrCheck, unpriv, MemAttr.set]

theorem memAttrCheck_setFromRegions {attr : MemAttr} (valid : attr.isValid = true) :
    memAttrCheck level (setFromRegions p s attr (L.regionsOf level (secureAsked flags)))
        (flags.setWidth 8) = .success ↔
      ∃ x, L.regionOf level (secureAsked flags) p s = some x ∧
        x.2.reads (unprivAsked flags) = true ∧
          (readwriteAsked flags = true ∧ x.2.writes (unprivAsked flags) = true ∨
            isSet (flags.setWidth 8) memCheckMpuRead = true) := by
  rw [setFromRegions_eq, ← Layout.regionOf]
  cases found : L.regionOf level (secureAsked flags) p s with
  | none => simp [memAttrCheck]
  | some x =>
      dsimp only
      rw [memAttrCheck_set valid (mem_of_regionOf found).1, accessCheck_eq_success_iff]
      simp [readwriteAsked]

/-- The check when the range has the security that is asked for. -/
theorem tfmHasAccessToRegion_of_security {mpuEnabled : Bool} (size : s ≠ 0) (pointer : p ≠ 0)
    (no_wrap : ¬0xFFFFFFFF - s < p) (asked : secureAsked flags = secure)
    (security : tfmGetMemRegionSecurityAttr L p s securityAttrInit = ⟨true, secure⟩) :
    tfmHasAccessToRegion level L true mpuEnabled p s flags =
      if secure ∧ level ≠ .one ∧ !mpuEnabled then none
      else some (memAttrCheck level (setFromRegions p s { memAttrInit with isValid := true }
        (L.regionsOf level secure)) (flags.setWidth 8)) := by
  have checked : ¬securityAttrCheck ⟨true, secure⟩ (flags.setWidth 8) ≠ .success := by
    rw [not_not, securityAttrCheck_eq_success_iff, asked]
  rw [tfmHasAccessToRegion, if_neg size, if_neg pointer, if_neg no_wrap, security]
  simp only [Bool.not_true, Bool.false_eq_true, if_false, if_neg checked]
  cases secure with
  | true =>
      simp only [if_true, true_and]
      rfl
  | false =>
      simp only [Bool.false_eq_true, if_false, false_and]
      rfl

/-- Success needs the security that is asked for. -/
theorem security_of_success {archIsPriv mpuEnabled : Bool} (size : s ≠ 0)
    (success : tfmHasAccessToRegion level L archIsPriv mpuEnabled p s flags = some .success) :
    archIsPriv = true ∧ p ≠ 0 ∧ ¬0xFFFFFFFF - s < p ∧
      tfmGetMemRegionSecurityAttr L p s securityAttrInit = ⟨true, secureAsked flags⟩ := by
  rw [tfmHasAccessToRegion, if_neg size] at success
  split at success
  · exact nomatch success
  next pointer =>
  split at success
  · exact nomatch success
  next no_wrap =>
  split at success
  · exact nomatch success
  next privileged =>
  dsimp only at success
  split at success
  · exact nomatch success
  next checked =>
  rw [ne_eq, not_not, securityAttrCheck_eq_success_iff] at checked
  exact ⟨by simpa using privileged, pointer, no_wrap, checked⟩

/-- What success of a check comes down to. -/
theorem granted_of_success {archIsPriv mpuEnabled : Bool} (size : s ≠ 0)
    (success : tfmHasAccessToRegion level L archIsPriv mpuEnabled p s flags = some .success) :
    Granted level L p s flags := by
  obtain ⟨rfl, pointer, no_wrap, security⟩ := security_of_success size success
  rw [tfmHasAccessToRegion_of_security size pointer no_wrap rfl security] at success
  split at success
  · exact nomatch success
  · exact ⟨pointer, security, (memAttrCheck_setFromRegions rfl).mp (Option.some.inj success)⟩

theorem success_of_granted (size : s ≠ 0) (granted : Granted level L p s flags) :
    tfmHasAccessToRegion level L true true p s flags = some .success := by
  obtain ⟨x, found, access⟩ := granted.region
  have no_wrap : ¬0xFFFFFFFF - s < p := by
    have inside := (checkAddressRange_eq_success_iff size).mp (mem_of_regionOf found).2
    bv_omega
  rw [tfmHasAccessToRegion_of_security size granted.ne_zero no_wrap rfl granted.security]
  simp only [Bool.not_true, Bool.false_eq_true, and_false, if_false, Option.some.injEq]
  exact (memAttrCheck_setFromRegions rfl).mpr ⟨x, found, access⟩

/-! ### Bytes -/

theorem unpriv_writable (below : a ≠ 0xFFFFFFFF) (writable : L.Writable .two true true a) :
    (Region.ofSymbols L.appRwStack.1 L.appRwStack.2).Has a := by
  obtain ⟨x, found, writes⟩ := writable
  obtain ⟨mem, inside⟩ := mem_of_regionOf found
  rw [checkAddressRange_byte below] at inside
  simp only [Layout.regionsOf, Layout.secureRegions, if_true, List.mem_cons, List.not_mem_nil,
    or_false] at mem
  rcases mem with rfl | rfl | rfl | rfl | rfl
  · exact nomatch writes
  · exact nomatch writes
  · exact inside
  · exact nomatch writes
  · exact nomatch writes

theorem unpriv_readable (below : a ≠ 0xFFFFFFFF) (readable : L.Readable .two true true a) :
    (Region.ofSymbols L.unprivCode.1 L.unprivCode.2).Has a ∨
      (Region.ofSymbols L.appCode.1 L.appCode.2).Has a ∨
        (Region.ofSymbols L.appRwStack.1 L.appRwStack.2).Has a := by
  obtain ⟨x, found, reads⟩ := readable
  obtain ⟨mem, inside⟩ := mem_of_regionOf found
  rw [checkAddressRange_byte below] at inside
  simp only [Layout.regionsOf, Layout.secureRegions, if_true, List.mem_cons, List.not_mem_nil,
    or_false] at mem
  rcases mem with rfl | rfl | rfl | rfl | rfl
  · exact .inl inside
  · exact .inr (.inl inside)
  · exact .inr (.inr inside)
  · exact nomatch reads
  · exact nomatch reads

/-- A sound check needs a byte that is taken for what the range is. -/
theorem AccessSound.unshadowed (sound : AccessSound level L p s flags)
    (granted : Granted level L p s flags) (in_range : InRange p s a) :
    Unshadowed level L p s flags a := by
  obtain ⟨x, found, -⟩ := granted.region
  have below := ne_last_of_range (mem_of_regionOf found).2 in_range
  have own := regionOf_byte level L (secureAsked flags) in_range
  refine ⟨fun secure ↦ ?_, fun y shadowed ↦ ?_, fun bare readwrite x found ↦ ?_⟩
  · have security := sound.security a in_range
    rw [secure] at security
    exact ((hasSecurity_true_iff below).mp security).1
  · rw [shadowed, Option.some_or] at own
    refine ⟨?_, fun readwrite ↦ ?_⟩
    · obtain ⟨y', found', reads⟩ := sound.readable a in_range
      rw [own] at found'
      cases found'
      exact reads
    · obtain ⟨y', found', writes⟩ := sound.writable readwrite a in_range
      rw [own] at found'
      cases found'
      exact writes
  · obtain ⟨x', found', writes⟩ := sound.writable readwrite a in_range
    rw [own, bare, Option.none_or, found] at found'
    cases found'
    exact writes

/-- A byte that is taken for what the range is has the access of the range. -/
theorem Unshadowed.readable (plain : Unshadowed level L p s flags a)
    (granted : Granted level L p s flags) (in_range : InRange p s a) :
    L.Readable level (secureAsked flags) (unprivAsked flags) a := by
  obtain ⟨x, found, reads, -⟩ := granted.region
  have own := regionOf_byte level L (secureAsked flags) in_range
  cases shadowed : L.shadowOf level (secureAsked flags) p s a with
  | some y =>
      rw [shadowed, Option.some_or] at own
      exact ⟨y, own, (plain.shadow y shadowed).1⟩
  | none =>
      rw [shadowed, Option.none_or, found] at own
      exact ⟨x, own, reads⟩

theorem Unshadowed.writable (plain : Unshadowed level L p s flags a)
    (granted : Granted level L p s flags) (in_range : InRange p s a)
    (readwrite : readwriteAsked flags = true) :
    L.Writable level (secureAsked flags) (unprivAsked flags) a := by
  obtain ⟨x, found, -⟩ := granted.region
  have own := regionOf_byte level L (secureAsked flags) in_range
  cases shadowed : L.shadowOf level (secureAsked flags) p s a with
  | some y =>
      rw [shadowed, Option.some_or] at own
      exact ⟨y, own, (plain.shadow y shadowed).2 readwrite⟩
  | none =>
      rw [shadowed, Option.none_or, found] at own
      exact ⟨x, own, plain.plain shadowed readwrite x found⟩

/-- The check is sound if and only if each byte of a range that it grants is taken for what the
range is: a region that comes first and has only some of the range gives the access as well, and the
flag for read access is not what grants read and write access. -/
theorem checkSound_iff (level : Level) (L : Layout) (p s flags : Word) :
    CheckSound level L p s flags ↔ (Granted level L p s flags → ∀ a, InRange p s a →
      Unshadowed level L p s flags a) := by
  constructor
  · intro sound granted a in_range
    have size : s ≠ 0 := by
      rintro rfl
      obtain ⟨from_start, to_end⟩ := in_range
      simp at to_end
      omega
    exact (sound size true true (success_of_granted size granted)).unshadowed granted in_range
  · intro plain size archIsPriv mpuEnabled success
    have granted := granted_of_success size success
    have plain := plain granted
    obtain ⟨x, found, -⟩ := granted.region
    have inside := (mem_of_regionOf found).2
    have readable : ∀ a, InRange p s a →
        L.Readable level (secureAsked flags) (unprivAsked flags) a :=
      fun a in_range ↦ (plain a in_range).readable granted in_range
    have writable : readwriteAsked flags = true → ∀ a, InRange p s a →
        L.Writable level (secureAsked flags) (unprivAsked flags) a :=
      fun readwrite a in_range ↦ (plain a in_range).writable granted in_range readwrite
    constructor
    · exact ((checkAddressRange_eq_success_iff size).mp inside).1
    · exact fun a in_range ↦
        hasSecurity_of_attr granted.security in_range (plain a in_range).security
    · exact readable
    · exact writable
    · intro two secure unpriv readwrite a in_range
      have at_two := writable readwrite a in_range
      rw [two, secure, unpriv] at at_two
      exact unpriv_writable (ne_last_of_range inside in_range) at_two
    · intro two secure unpriv a in_range
      have at_two := readable a in_range
      rw [two, secure, unpriv] at at_two
      exact unpriv_readable (ne_last_of_range inside in_range) at_two

/-- A layout with code in flash and data in memory. -/
def sampleLayout : Layout where
  nsData := ⟨0x28040000, 0x2807FFFF⟩
  nsCode := ⟨0x08100000, 0x081FFFFF⟩
  sData := ⟨0x28000000, 0x2803FFFF⟩
  sCode := ⟨0x08000000, 0x080FFFFF⟩
  unprivCode := (0x08010000, 0x08020000)
  appCode := (0x08020000, 0x08040000)
  appRwStack := (0x28010000, 0x28020000)

/-- Unprivileged code is granted read and write access to the code of the application RoT. -/
theorem checkSound_fails : ¬CheckSound .two sampleLayout 0x08020000 4 0x0D := by
  intro sound
  have granted := sound (by decide) true true (by decide)
  have inside := granted.unpriv_write rfl (by decide) (by decide) (by decide) 0x08020000
    ⟨by decide, by decide⟩
  exact absurd inside.1 (by decide)

end TrustedFirmwareM.Isolation.RegionCheck
