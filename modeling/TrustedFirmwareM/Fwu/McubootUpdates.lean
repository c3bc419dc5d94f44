import TrustedFirmwareM.Fwu.Mcuboot

/-!
# Images are installed and accepted

To install candidates is to check each dependency of each of them against the images that run and
the other candidates, and then to mark them pending.  To accept trial images is to confirm them.
When either fails in the middle, what has been done is rolled back.
-/

namespace TrustedFirmwareM.Fwu.Mcuboot

/-- `is_version_greater_or_equal`. -/
def isVersionGreaterOrEqual (imageVer1 imageVer2 : ImageVersion) : Bool :=
  if imageVer2.ivMajor < imageVer1.ivMajor then true
  else if imageVer1.ivMajor < imageVer2.ivMajor then false
  else if imageVer2.ivMinor < imageVer1.ivMinor then true
  else if imageVer1.ivMinor < imageVer2.ivMinor then false
  else decide (imageVer2.ivRevision ≤ imageVer1.ivRevision)

/-- `SHARED_DATA_TLV_INFO_MAGIC`. -/
def sharedDataTlvInfoMagic : BitVec 16 := 0x2016

/-- Two bytes at an offset. -/
def half (memory : ℕ → BitVec 8) (off : ℕ) : BitVec 16 := memory (off + 1) ++ memory off

/-- `SHARED_DATA_ENTRY_HEADER_SIZE`. -/
def sharedDataEntryHeaderSize : ℕ := 4

/-- `sizeof(struct image_version)`. -/
def imageVersionSize : ℕ := 8

/-- `sizeof(boot_shared_data)` for `n` images. -/
def sharedDataSize (n : ℕ) : ℕ := 4 + n * (imageVersionSize + sharedDataEntryHeaderSize)

/-- The entry at an offset is the version of a component: its `GET_FWU_CLAIM` is `SW_VERSION`, and
its `GET_FWU_MODULE` is the component. -/
def isVersionEntry (shared : ℕ → BitVec 8) (component tlvCurr : ℕ) : Bool :=
  half shared tlvCurr &&& 0x3F == 0 &&
    ((half shared tlvCurr &&& 0xFFF) >>> 6).toNat == component

/-- `tlv_len` of the entry at an offset. -/
def tlvLen (shared : ℕ → BitVec 8) (tlvCurr : ℕ) : ℕ := (half shared (tlvCurr + 2)).toNat

/-- `boot_shared_data.header.tlv_tot_len`. -/
def tlvTotLen (shared : ℕ → BitVec 8) : ℕ := (half shared 2).toNat

variable {n : ℕ}

/-- The loop of `get_active_image_version`.  The first argument bounds the number of turns. -/
def findVersion (shared : ℕ → BitVec 8) (component : ℕ) :
    ℕ → ℕ → FwuM n (Except PsaStatus ImageVersion)
  | 0, _ => pure (.error psaErrorDataCorrupt)
  | turns + 1, tlvCurr => do
    if tlvTotLen shared ≤ tlvCurr then pure (.error psaErrorDataCorrupt)
    else do
      look (.shared tlvCurr sharedDataEntryHeaderSize)
      if isVersionEntry shared component tlvCurr then
        if tlvLen shared tlvCurr ≠ imageVersionSize then pure (.error psaErrorDataCorrupt)
        else do
          look (.shared (tlvCurr + sharedDataEntryHeaderSize) (tlvLen shared tlvCurr))
          pure (.ok (imageVersionOf (readBytes shared (tlvCurr + sharedDataEntryHeaderSize)
            (tlvLen shared tlvCurr))))
      else
        findVersion shared component turns
          (tlvCurr + (sharedDataEntryHeaderSize + tlvLen shared tlvCurr))

/-- The shared data are searched when their magic is right. -/
def searchVersion (shared : ℕ → BitVec 8) (component : ℕ) :
    FwuM n (Except PsaStatus ImageVersion) := do
  if half shared 0 ≠ sharedDataTlvInfoMagic then pure (.error psaErrorDataCorrupt)
  else do
    look (.shared 2 2)
    findVersion shared component (tlvTotLen shared) 4

/-- `get_active_image_version`: a status, or the version. -/
def getActiveImageVersion (shared : ℕ → BitVec 8) (component : ℕ) :
    FwuM n (Except PsaStatus ImageVersion) := do
  look (.shared 0 2)
  searchVersion shared component

/-- The image in a secondary slot is checked, when the slot has been opened. -/
def checkSecondary (E : Env n) (fails : ℕ → Bool) (dep : List (BitVec 8)) :
    Option Area → FwuM n (List (BitVec 8))
  | none => Fallible.fail psaErrorDependencyNeeded
  | some fapSecondary => do
    let hdrSecondary ← readHeader E fails fapSecondary
    if ihMagic hdrSecondary = imageMagic ∧
        isVersionGreaterOrEqual (ihVer hdrSecondary) (imageMinVersion dep) then pure dep
    else Fallible.fail psaErrorDependencyNeeded

/-- The candidate that a dependency names is checked. -/
def checkStaged (E : Env n) (fails : ℕ → Bool) (dep : List (BitVec 8)) :
    FwuM n (List (BitVec 8)) := do
  let fap ← getFap (imageId dep)
  checkSecondary E fails dep fap

/-- The requirement in the dependency record is checked for the active version, as far as there is
one. -/
def checkVersion (E : Env n) (fails : ℕ → Bool) (candidates : List ℕ) (dep : List (BitVec 8)) :
    Except PsaStatus ImageVersion → FwuM n (List (BitVec 8))
  | .error _ => Fallible.fail psaErrorStorageFailure
  | .ok imageVer =>
    if isVersionGreaterOrEqual imageVer (imageMinVersion dep) then pure dep
    else if imageId dep ∈ candidates then checkStaged E fails dep
    else Fallible.fail psaErrorDependencyNeeded

/-- The requirement in the dependency record is checked. -/
def checkRequirement (E : Env n) (fails : ℕ → Bool) (candidates : List ℕ) (dep : List (BitVec 8)) :
    FwuM n (List (BitVec 8)) := do
  look (.dependency (imageId dep))
  if n < imageId dep then Fallible.fail psaErrorDataCorrupt
  else do
    let active ← getActiveImageVersion E.shared (imageId dep)
    checkVersion E fails candidates dep active

/-- The dependency record after bytes have been copied over its start. -/
def copied (bytes dep : List (BitVec 8)) : List (BitVec 8) :=
  bytes.take imageDependencySize ++ dep.drop bytes.length

/-- A dependency is read over the record and checked. -/
def checkDependency (E : Env n) (fails : ℕ → Bool) (candidates : List ℕ) (fap : Area)
    (tlv : ℕ × BitVec 16) (dep : List (BitVec 8)) : FwuM n (List (BitVec 8)) := do
  let bytes ← flashAreaRead E fails fap tlv.1 tlv.2.toNat
  look (.record tlv.2.toNat)
  checkRequirement E fails candidates (copied bytes dep)

/-- The dependencies of a candidate are checked, each `bootutil_tlv_iter_next` first. -/
def checkTlvs (E : Env n) (fails : ℕ → Bool) (candidates : List ℕ) (fap : Area) :
    List (ℕ × BitVec 16) → List (BitVec 8) → FwuM n (List (BitVec 8))
  | [], dep => do
    access fails fap
    pure dep
  | tlv :: tlvs, dep => do
    access fails fap
    let dep' ← checkDependency E fails candidates fap tlv dep
    checkTlvs E fails candidates fap tlvs dep'

/-- The header of a candidate is checked, and then its dependencies. -/
def checkImage (E : Env n) (fails : ℕ → Bool) (candidates : List ℕ) (fap : Area)
    (dep : List (BitVec 8)) : FwuM n (List (BitVec 8)) := do
  let hdr ← readHeader E fails fap
  if ihMagic hdr ≠ imageMagic then Fallible.fail psaErrorDataCorrupt
  else do
    -- `bootutil_tlv_iter_begin`
    access fails fap
    let s ← getState
    checkTlvs E fails candidates fap (E.dependencies (s.flash fap)) dep

/-- A candidate is checked, when its slot has been opened. -/
def checkOpened (E : Env n) (fails : ℕ → Bool) (candidates : List ℕ) (dep : List (BitVec 8)) :
    Option Area → FwuM n (List (BitVec 8))
  | none => Fallible.fail psaErrorInvalidArgument
  | some fap => checkImage E fails candidates fap dep

/-- A candidate is checked. -/
def checkCandidate (E : Env n) (fails : ℕ → Bool) (candidates : List ℕ) (component : ℕ)
    (dep : List (BitVec 8)) : FwuM n (List (BitVec 8)) := do
  if n ≤ component then Fallible.fail psaErrorInvalidArgument
  else do
    let fap ← getFap component
    checkOpened E fails candidates dep fap

/-- The loop that checks the candidates. -/
def checkCandidates (E : Env n) (fails : ℕ → Bool) (candidates : List ℕ) :
    List ℕ → List (BitVec 8) → FwuM n (List (BitVec 8))
  | [], dep => pure dep
  | component :: components, dep => do
    let dep' ← checkCandidate E fails candidates component dep
    checkCandidates E fails candidates components dep'

/-- `erase_boot_magic`. -/
def eraseBootMagic (T : Trailers) (fap : Area) : FwuM n Unit := do
  let s ← getState
  setFlash (s.flash.write fap (alignDown (bootMagicOff (T.size fap)) T.bootMaxAlign)
    (List.replicate (alignUp 16 T.bootMaxAlign) T.erasedVal))

/-- `fwu_bootloader_reject_staged_image`. -/
def fwuBootloaderRejectStagedImage (T : Trailers) (component : ℕ) : FwuM n PsaStatus := do
  if n ≤ component then pure psaErrorInvalidArgument
  else do
    match ← getFap component with
    | none => pure psaErrorDoesNotExist
    | some fap =>
      eraseBootMagic T fap
      pure psaSuccess

/-- Candidates are rejected until that fails. -/
def rejectStagedImages (T : Trailers) : List ℕ → FwuM n Unit
  | [] => pure ()
  | component :: components => do
    let status ← fwuBootloaderRejectStagedImage T component
    if status ≠ psaSuccess then pure ()
    else rejectStagedImages T components

/-- `boot_set_pending_multi` is called in a turn of the loop. -/
def bootSetPending (E : Env n) (candIndex component : ℕ) : FwuM n ℤ := do
  look (.mark component)
  let s ← getState
  setFlash (E.bootSetPendingMulti candIndex component s.flash).2
  pure (E.bootSetPendingMulti candIndex component s.flash).1

/-- The loop that marks the candidates pending. -/
def setPending (E : Env n) (candidates : List ℕ) : ℕ → List ℕ → FwuM n PsaStatus
  | _, [] => pure psaSuccessReboot
  | candIndex, component :: components => do
    let rc ← bootSetPending E candIndex component
    if rc ≠ 0 then do
      rejectStagedImages E.trailers (candidates.take candIndex)
      Fallible.fail psaErrorStorageFailure
    else setPending E candidates (candIndex + 1) components

/-- The check of the candidates, which is there when there are several images. -/
def checkInstall (E : Env n) (fails : ℕ → Bool) (candidates : List ℕ) : FwuM n Unit := do
  if 1 < n then
    let _ ← checkCandidates E fails candidates candidates E.dep
  else pure ()

/-- `fwu_bootloader_install_image`.  The candidates may be `NULL`. -/
def fwuBootloaderInstallImage (E : Env n) (fails : ℕ → Bool) :
    Option (List ℕ) → FwuM n PsaStatus
  | none => Fallible.fail psaErrorInvalidArgument
  | some candidates => do
    checkInstall E fails candidates
    setPending E candidates 0 candidates

/-- `erase_image_ok`. -/
def eraseImageOk (T : Trailers) (fap : Area) : FwuM n PsaStatus := do
  if T.bootMaxAlign < alignUp T.bootMaxAlign (T.align fap) then pure psaErrorStorageFailure
  else do
    let s ← getState
    setFlash (s.flash.write fap (bootImageOkOff (T.size fap) T.bootMaxAlign)
      (List.replicate (alignUp T.bootMaxAlign (T.align fap)) T.erasedVal))
    pure psaSuccess

/-- `erase_image_ok` for a component, a number of times until that fails. -/
def eraseImagesOk (T : Trailers) (component : ℕ) : ℕ → FwuM n Unit
  | 0 => pure ()
  | i + 1 => do
    match ← getFap component with
    | none => pure ()
    | some fap =>
      let status ← eraseImageOk T fap
      if status ≠ psaSuccess then pure ()
      else eraseImagesOk T component i

/-- The secondary slot of a component is opened. -/
def openSecondary (fails : ℕ → Bool) (component : ℕ) : FwuM n Unit := do
  access fails ⟨.secondary, component⟩
  look (.ctx component)
  fun s ↦ (.ok (), { s with ctx := s.ctx.setFap component })

/-- The secondary slots of the trial images are opened. -/
def openTrials (fails : ℕ → Bool) : List ℕ → FwuM n Unit
  | [] => pure ()
  | component :: components => do
    if n ≤ component then Fallible.fail psaErrorInvalidArgument
    else do
      openSecondary fails component
      openTrials fails components

/-- `boot_set_confirmed_multi` is called in a turn of the loop. -/
def bootSetConfirmed (E : Env n) (trialIndex component : ℕ) : FwuM n ℤ := do
  let s ← getState
  setFlash (E.bootSetConfirmedMulti trialIndex component s.flash).2
  pure (E.bootSetConfirmedMulti trialIndex component s.flash).1

/-- The loop that confirms the trial images.  The roll-back takes the area of the component that
could not be confirmed. -/
def setConfirmed (E : Env n) : ℕ → List ℕ → FwuM n PsaStatus
  | _, [] => pure psaSuccess
  | trialIndex, component :: components => do
    let rc ← bootSetConfirmed E trialIndex component
    if rc ≠ 0 then do
      eraseImagesOk E.trailers component trialIndex
      Fallible.fail psaErrorStorageFailure
    else setConfirmed E (trialIndex + 1) components

/-- `fwu_bootloader_mark_image_accepted`.  The trial images may be `NULL`. -/
def fwuBootloaderMarkImageAccepted (E : Env n) (fails : ℕ → Bool) :
    Option (List ℕ) → FwuM n PsaStatus
  | none => Fallible.fail psaErrorInvalidArgument
  | some trials => do
    openTrials fails trials
    setConfirmed E 0 trials

end TrustedFirmwareM.Fwu.Mcuboot
