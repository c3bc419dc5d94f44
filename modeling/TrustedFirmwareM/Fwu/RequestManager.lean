import TrustedFirmwareM.Lib.Numerals
import Mathlib.Data.Fin.Basic
import Mathlib.Data.List.FinRange
import Mathlib.Logic.Function.Basic

/-!
# The firmware update service

The service keeps a record for each firmware component that takes part in an update.  The state of
the other components, and the images themselves, are with the bootloader, which is reached through
the functions of `tfm_bootloader_fwu_abstraction.h`.  Each call of the bootloader may fail.
-/

namespace TrustedFirmwareM.Fwu

/-- `psa_status_t`. -/
abbrev PsaStatus := ℤ

/-- `PSA_SUCCESS`. -/
def psaSuccess : PsaStatus := 0

/-- `PSA_SUCCESS_REBOOT`. -/
def psaSuccessReboot : PsaStatus := 1

/-- `PSA_SUCCESS_RESTART`. -/
def psaSuccessRestart : PsaStatus := 2

/-- `PSA_ERROR_PROGRAMMER_ERROR`. -/
def psaErrorProgrammerError : PsaStatus := -129

/-- `PSA_ERROR_NOT_SUPPORTED`. -/
def psaErrorNotSupported : PsaStatus := -134

/-- `PSA_ERROR_INVALID_ARGUMENT`. -/
def psaErrorInvalidArgument : PsaStatus := -135

/-- `PSA_ERROR_BAD_STATE`. -/
def psaErrorBadState : PsaStatus := -137

/-- `PSA_ERROR_DOES_NOT_EXIST`. -/
def psaErrorDoesNotExist : PsaStatus := -140

/-- `PSA_ERROR_DEPENDENCY_NEEDED`. -/
def psaErrorDependencyNeeded : PsaStatus := -156

/-- The states of a component. -/
inductive ComponentState
  /-- `PSA_FWU_READY`. -/
  | ready
  /-- `PSA_FWU_WRITING`. -/
  | writing
  /-- `PSA_FWU_CANDIDATE`. -/
  | candidate
  /-- `PSA_FWU_STAGED`. -/
  | staged
  /-- `PSA_FWU_FAILED`. -/
  | failed
  /-- `PSA_FWU_TRIAL`. -/
  | trial
  /-- `PSA_FWU_REJECTED`. -/
  | rejected
  /-- `PSA_FWU_UPDATED`. -/
  | updated
  deriving DecidableEq

/-- `tfm_fwu_ctx_t`. -/
structure Ctx where
  /-- `error`. -/
  error : PsaStatus
  /-- `component_state`. -/
  componentState : ComponentState
  /-- `in_use`. -/
  inUse : Bool
  deriving DecidableEq

/-- A call of the bootloader that may change something. -/
inductive Call (n : ℕ)
  /-- `fwu_bootloader_staging_area_init`. -/
  | stagingAreaInit (component : Fin n)
  /-- `fwu_bootloader_load_image`. -/
  | loadImage (component : Fin n) (imageOffset blockSize : ℕ)
  /-- `fwu_bootloader_install_image`. -/
  | installImage (candidates : List (Fin n))
  /-- `fwu_bootloader_mark_image_accepted`. -/
  | markImageAccepted (trials : List (Fin n))
  /-- `fwu_bootloader_reject_staged_image`. -/
  | rejectStagedImage (component : Fin n)
  /-- `fwu_bootloader_reject_trial_image`. -/
  | rejectTrialImage (component : Fin n)
  /-- `fwu_bootloader_clean_component`. -/
  | cleanComponent (component : Fin n)
  deriving DecidableEq

/-- The service and the bootloader, for `n` components. -/
structure World (n : ℕ) where
  /-- `fwu_ctx`. -/
  ctx : Fin n → Ctx
  /-- The running image has not been accepted. -/
  trial : Fin n → Bool
  /-- The staged image will be taken as a candidate when the bootloader runs next. -/
  pending : Fin n → Bool
  /-- The calls of the bootloader during the request. -/
  calls : List (Call n)

/-- What the bootloader answers during a request. -/
structure Answers (n : ℕ) where
  /-- `fwu_bootloader_get_image_info`. -/
  imageInfo : Fin n → PsaStatus
  /-- `fwu_bootloader_staging_area_init`. -/
  stagingAreaInit : PsaStatus
  /-- `fwu_bootloader_load_image`, for a block at an offset. -/
  loadImage : ℕ → PsaStatus
  /-- `fwu_bootloader_install_image`. -/
  installImage : PsaStatus
  /-- Candidates that are taken as candidates although the installation has failed. -/
  leftPending : Fin n → Bool
  /-- `fwu_bootloader_mark_image_accepted`. -/
  markImageAccepted : PsaStatus
  /-- Trials that are accepted although marking them has failed. -/
  leftAccepted : Fin n → Bool
  /-- `fwu_bootloader_reject_staged_image`. -/
  rejectStagedImage : Fin n → PsaStatus
  /-- `fwu_bootloader_reject_trial_image`. -/
  rejectTrialImage : Fin n → PsaStatus
  /-- `fwu_bootloader_clean_component`. -/
  cleanComponent : PsaStatus

/-- The configuration. -/
structure Config where
  /-- `FWU_SUPPORT_TRIAL_STATE`. -/
  supportTrialState : Bool
  /-- `TFM_CONFIG_FWU_MAX_MANIFEST_SIZE`. -/
  maxManifestSize : ℕ
  /-- `PSA_FWU_MAX_WRITE_SIZE`. -/
  maxWriteSize : ℕ
  /-- `TFM_FWU_BUF_SIZE`. -/
  bufSize : ℕ
  /-- The size of `psa_fwu_component_info_t`. -/
  infoSize : ℕ

/-- `psa_msg_t` and the data that is read through it. -/
structure Msg where
  /-- `in_size[0]`. -/
  inSize0 : ℕ
  /-- `in_size[1]`. -/
  inSize1 : ℕ
  /-- `in_size[2]`. -/
  inSize2 : ℕ
  /-- `out_size[0]`. -/
  outSize0 : ℕ
  /-- The component. -/
  component : ℕ
  /-- The offset of a block. -/
  imageOffset : ℕ
  /-- The reason for a rejection. -/
  error : PsaStatus

/-- The size of `psa_fwu_component_t`. -/
def sizeofComponent : ℕ := 1

/-- The size of `size_t`. -/
def sizeofSize : ℕ := 4

/-- The size of `psa_status_t`. -/
def sizeofStatus : ℕ := 4

variable {n : ℕ}

/-- Change a record. -/
def World.modify (x : World n) (c : Fin n) (f : Ctx → Ctx) : World n :=
  { x with ctx := Function.update x.ctx c (f (x.ctx c)) }

/-- Change the records of a list of components. -/
def World.modifyAll (x : World n) (cs : List (Fin n)) (f : Ctx → Ctx) : World n :=
  { x with ctx := fun c ↦ if c ∈ cs then f (x.ctx c) else x.ctx c }

/-- A call of the bootloader has been made. -/
def World.called (x : World n) (call : Call n) : World n := { x with calls := x.calls ++ [call] }

/-! ## The bootloader -/

/-- `fwu_bootloader_staging_area_init`. -/
def fwuBootloaderStagingAreaInit (a : Answers n) (c : Fin n) (x : World n) : PsaStatus × World n :=
  (a.stagingAreaInit, { x.called (.stagingAreaInit c) with
    pending :=
      if a.stagingAreaInit = psaSuccess then Function.update x.pending c false else x.pending })

/-- `fwu_bootloader_load_image`. -/
def fwuBootloaderLoadImage (a : Answers n) (c : Fin n) (imageOffset blockSize : ℕ) (x : World n) :
    PsaStatus × World n :=
  (a.loadImage imageOffset, x.called (.loadImage c imageOffset blockSize))

/-- The installation is completed by a reboot or a restart. -/
def completes (status : PsaStatus) : Prop := status = psaSuccessReboot ∨ status = psaSuccessRestart

instance (status : PsaStatus) : Decidable (completes status) := inferInstanceAs (Decidable (_ ∨ _))

/-- `fwu_bootloader_install_image`.  Images that are installed at once run on trial, and when the
installation fails those that have been marked are rejected again. -/
def fwuBootloaderInstallImage (C : Config) (a : Answers n) (cs : List (Fin n)) (x : World n) :
    PsaStatus × World n :=
  (a.installImage, { x.called (.installImage cs) with
    pending := fun c ↦
      if c ∉ cs then x.pending c
      else if completes a.installImage then true
      else if a.installImage = psaSuccess ∨ a.installImage = psaErrorDependencyNeeded then
        x.pending c
      else x.pending c || a.leftPending c
    trial := fun c ↦
      if c ∈ cs ∧ a.installImage = psaSuccess then C.supportTrialState else x.trial c })

/-- `fwu_bootloader_mark_image_accepted`. -/
def fwuBootloaderMarkImageAccepted (a : Answers n) (cs : List (Fin n)) (x : World n) :
    PsaStatus × World n :=
  (a.markImageAccepted, { x.called (.markImageAccepted cs) with
    trial := fun c ↦
      if c ∉ cs then x.trial c
      else if a.markImageAccepted = psaSuccess then false
      else x.trial c && !a.leftAccepted c })

/-- `fwu_bootloader_reject_staged_image`. -/
def fwuBootloaderRejectStagedImage (a : Answers n) (c : Fin n)
    (x : World n) : PsaStatus × World n :=
  (a.rejectStagedImage c, { x.called (.rejectStagedImage c) with
    pending :=
      if a.rejectStagedImage c = psaSuccess then Function.update x.pending c false else x.pending })

/-- `fwu_bootloader_reject_trial_image`.  Unless a reboot or a restart is needed, the image is not
run any longer. -/
def fwuBootloaderRejectTrialImage (a : Answers n) (c : Fin n) (x : World n) : PsaStatus × World n :=
  (a.rejectTrialImage c, { x.called (.rejectTrialImage c) with
    trial :=
      if a.rejectTrialImage c = psaSuccess then Function.update x.trial c false else x.trial })

/-- `fwu_bootloader_clean_component`. -/
def fwuBootloaderCleanComponent (a : Answers n) (c : Fin n) (x : World n) : PsaStatus × World n :=
  (a.cleanComponent, { x.called (.cleanComponent c) with
    pending :=
      if a.cleanComponent = psaSuccess then Function.update x.pending c false else x.pending })

/-! ## Requests -/

/-- `tfm_fwu_start`. -/
def tfmFwuStart (C : Config) (a : Answers n) (msg : Msg) (x : World n) : PsaStatus × World n :=
  if msg.inSize0 ≠ sizeofComponent then (psaErrorProgrammerError, x)
  else if C.maxManifestSize < msg.inSize1 then (psaErrorNotSupported, x)
  else if valid : msg.component < n then
    let c : Fin n := ⟨msg.component, valid⟩
    if (x.ctx c).inUse then
      if (x.ctx c).componentState ≠ .ready then (psaErrorBadState, x) else (psaSuccess, x)
    else if a.imageInfo c ≠ psaSuccess then (a.imageInfo c, x)
    else if x.trial c then (psaErrorBadState, x)
    else
      let (status, x) := fwuBootloaderStagingAreaInit a c x
      if status ≠ psaSuccess then (status, x)
      else (psaSuccess, x.modify c fun r ↦ { r with inUse := true, componentState := .writing })
  else (psaErrorDoesNotExist, x)

/-- The loop of `tfm_fwu_write`, with the size of the block as fuel. -/
def writeBlocks (C : Config) (a : Answers n) (c : Fin n) :
    ℕ → ℕ → ℕ → World n → PsaStatus × World n
  | 0, _, _, x => (psaSuccess, x)
  | fuel + 1, imageOffset, blockSize, x =>
      if blockSize = 0 then (psaSuccess, x)
      else
        let writeSize := min C.bufSize blockSize
        let (status, x) := fwuBootloaderLoadImage a c imageOffset writeSize x
        if status ≠ psaSuccess then (status, x)
        else writeBlocks C a c fuel (imageOffset + writeSize) (blockSize - writeSize) x

/-- `tfm_fwu_write`. -/
def tfmFwuWrite (C : Config) (a : Answers n) (msg : Msg) (x : World n) : PsaStatus × World n :=
  if C.maxWriteSize < msg.inSize2 then (psaErrorInvalidArgument, x)
  else if msg.inSize0 ≠ sizeofComponent ∨ msg.inSize1 ≠ sizeofSize then (psaErrorProgrammerError, x)
  else if valid : msg.component < n then
    let c : Fin n := ⟨msg.component, valid⟩
    if !(x.ctx c).inUse ∨ (x.ctx c).componentState ≠ .writing then (psaErrorBadState, x)
    else writeBlocks C a c msg.inSize2 msg.imageOffset msg.inSize2 x
  else (psaErrorDoesNotExist, x)

/-- `tfm_fwu_finish`. -/
def tfmFwuFinish (msg : Msg) (x : World n) : PsaStatus × World n :=
  if msg.inSize0 ≠ sizeofComponent then (psaErrorProgrammerError, x)
  else if valid : msg.component < n then
    let c : Fin n := ⟨msg.component, valid⟩
    if !(x.ctx c).inUse ∨ (x.ctx c).componentState ≠ .writing then (psaErrorBadState, x)
    else (psaSuccess, x.modify c fun r ↦ { r with componentState := .candidate })
  else (psaErrorDoesNotExist, x)

/-- The first loop of `tfm_fwu_install`: the candidates, or the status that is returned. -/
def collectCandidates (a : Answers n) (x : World n) : List (Fin n) → Except PsaStatus (List (Fin n))
  | [] => .ok []
  | c :: rest =>
      if (x.ctx c).inUse then
        if (x.ctx c).componentState = .staged ∨ (x.ctx c).componentState = .rejected then
          .error psaErrorBadState
        else if (x.ctx c).componentState = .candidate then
          (c :: ·) <$> collectCandidates a x rest
        else collectCandidates a x rest
      else if a.imageInfo c ≠ psaSuccess then .error (a.imageInfo c)
      else if x.trial c then .error psaErrorBadState
      else collectCandidates a x rest

/-- The record of a candidate after an installation. -/
def installed (C : Config) (status : PsaStatus) (r : Ctx) : Ctx :=
  if status = psaSuccess then
    { r with componentState := if C.supportTrialState then .trial else .updated }
  else if ¬completes status then { r with componentState := .failed, error := status }
  else { r with componentState := .staged }

/-- `tfm_fwu_install`. -/
def tfmFwuInstall (C : Config) (a : Answers n) (x : World n) : PsaStatus × World n :=
  match collectCandidates a x (List.finRange n) with
  | .error status => (status, x)
  | .ok cs =>
      if cs = [] then (psaErrorBadState, x)
      else
        let (status, x) := fwuBootloaderInstallImage C a cs x
        if status = psaErrorDependencyNeeded then (status, x)
        else (status, x.modifyAll cs (installed C status))

/-- What `tfm_fwu_query` writes. -/
structure ComponentInfo where
  /-- `state`. -/
  state : ComponentState
  /-- `error`, for components that have been rejected or have failed. -/
  error : Option PsaStatus

/-- `tfm_fwu_query`. -/
def tfmFwuQuery (C : Config) (a : Answers n) (msg : Msg) (x : World n) :
    PsaStatus × Option ComponentInfo :=
  if msg.inSize0 ≠ sizeofComponent ∨ msg.outSize0 ≠ C.infoSize then (psaErrorProgrammerError, none)
  else if valid : msg.component < n then
    let c : Fin n := ⟨msg.component, valid⟩
    let info : ComponentInfo :=
      if (x.ctx c).inUse then
        ⟨(x.ctx c).componentState,
          if (x.ctx c).componentState = .rejected ∨ (x.ctx c).componentState = .failed then
            some (x.ctx c).error
          else none⟩
      else ⟨if x.trial c then .trial else .ready, none⟩
    if a.imageInfo c = psaSuccess then (psaSuccess, some info) else (a.imageInfo c, none)
  else (psaErrorDoesNotExist, none)

/-- The first loop of `tfm_fwu_accept`: the components on trial, or the status that is returned. -/
def collectTrials (a : Answers n) : List (Fin n) → World n →
    Except PsaStatus (List (Fin n)) × World n
  | [], x => (.ok [], x)
  | c :: rest, x =>
      if (x.ctx c).inUse then
        let (trials, x') := collectTrials a rest x
        (if (x.ctx c).componentState = .trial then (c :: ·) <$> trials else trials, x')
      else if a.imageInfo c ≠ psaSuccess then (.error (a.imageInfo c), x)
      else if x.trial c then
        let (trials, x') := collectTrials a rest
          (x.modify c fun r ↦ { r with inUse := true, componentState := .trial })
        ((c :: ·) <$> trials, x')
      else collectTrials a rest x

/-- `tfm_fwu_accept`. -/
def tfmFwuAccept (C : Config) (a : Answers n) (x : World n) : PsaStatus × World n :=
  if C.supportTrialState then
    match collectTrials a (List.finRange n) x with
    | (.error status, x) => (status, x)
    | (.ok trials, x) =>
        if trials = [] then (psaErrorBadState, x)
        else
          let (status, x) := fwuBootloaderMarkImageAccepted a trials x
          if status ≠ psaSuccess then (status, x)
          else (status, x.modifyAll trials fun r ↦ { r with componentState := .updated })
  else (psaErrorNotSupported, x)

/-- The variables of the loop of `tfm_fwu_reject`. -/
structure Rejection (n : ℕ) where
  /-- `status`. -/
  status : PsaStatus
  /-- `staged_trial_component_found`. -/
  found : Bool
  /-- The service and the bootloader. -/
  world : World n

/-- Reject the running image.  The result says whether the loop goes on. -/
def rejectTrial (a : Answers n) (error : PsaStatus) (c : Fin n) (s : Rejection n) :
    Bool × Rejection n :=
  let (status, x) := fwuBootloaderRejectTrialImage a c s.world
  if completes status then
    (true, { s with status, world := x.modify c fun r ↦
      { r with componentState := .rejected, error } })
  else if status = psaSuccess then
    (true, { s with status, world := x.modify c fun r ↦
      { r with componentState := .failed, error } })
  else (false, { s with status, world := x })

/-- A body of the loop of `tfm_fwu_reject`.  The result says whether the loop goes on. -/
def rejectComponent (a : Answers n) (error : PsaStatus) (c : Fin n) (s : Rejection n) :
    Bool × Rejection n :=
  let x := s.world
  if (x.ctx c).inUse then
    if (x.ctx c).componentState = .staged then
      let (status, x) := fwuBootloaderRejectStagedImage a c
        (x.modify c fun r ↦ { r with componentState := .failed, error })
      (decide (status = psaSuccess), ⟨status, true, x⟩)
    else if (x.ctx c).componentState = .trial then rejectTrial a error c { s with found := true }
    else (true, s)
  else
    let status := a.imageInfo c
    if status ≠ psaSuccess then (false, { s with status })
    else if x.trial c then
      rejectTrial a error c
        ⟨status, true, x.modify c fun r ↦ { r with inUse := true, componentState := .trial }⟩
    else (true, { s with status })

/-- The loop of `tfm_fwu_reject`. -/
def rejectLoop (a : Answers n) (error : PsaStatus) : List (Fin n) → Rejection n →
    PsaStatus × World n
  | [], s => (if s.found then s.status else psaErrorBadState, s.world)
  | c :: rest, s =>
      match rejectComponent a error c s with
      | (true, s) => rejectLoop a error rest s
      | (false, s) => (s.status, s.world)

/-- `tfm_fwu_reject`. -/
def tfmFwuReject (a : Answers n) (msg : Msg) (x : World n) : PsaStatus × World n :=
  if msg.inSize0 ≠ sizeofStatus then (psaErrorProgrammerError, x)
  else rejectLoop a msg.error (List.finRange n) ⟨psaSuccess, false, x⟩

/-- `tfm_fwu_cancel`. -/
def tfmFwuCancel (msg : Msg) (x : World n) : PsaStatus × World n :=
  if msg.inSize0 ≠ sizeofComponent then (psaErrorProgrammerError, x)
  else if valid : msg.component < n then
    let c : Fin n := ⟨msg.component, valid⟩
    if (x.ctx c).inUse then
      if (x.ctx c).componentState = .writing ∨ (x.ctx c).componentState = .candidate then
        (psaSuccess, x.modify c fun r ↦ { r with componentState := .failed, error := psaSuccess })
      else (psaErrorBadState, x)
    else (psaErrorBadState, x)
  else (psaErrorDoesNotExist, x)

/-- `tfm_fwu_clean`. -/
def tfmFwuClean (a : Answers n) (msg : Msg) (x : World n) : PsaStatus × World n :=
  if msg.inSize0 ≠ sizeofComponent then (psaErrorProgrammerError, x)
  else if valid : msg.component < n then
    let c : Fin n := ⟨msg.component, valid⟩
    if (x.ctx c).inUse then
      if (x.ctx c).componentState = .failed ∨ (x.ctx c).componentState = .updated then
        let (status, x) := fwuBootloaderCleanComponent a c x
        if status ≠ psaSuccess then (status, x)
        else (psaSuccess, x.modify c fun r ↦ { r with componentState := .ready, inUse := false })
      else (psaErrorBadState, x)
    else (psaErrorBadState, x)
  else (psaErrorDoesNotExist, x)

/-- The messages of the service, but `TFM_FWU_REQUEST_REBOOT`, which ends the run. -/
inductive MsgType
  /-- `TFM_FWU_START`. -/
  | start
  /-- `TFM_FWU_WRITE`. -/
  | write
  /-- `TFM_FWU_FINISH`. -/
  | finish
  /-- `TFM_FWU_CANCEL`. -/
  | cancel
  /-- `TFM_FWU_INSTALL`. -/
  | install
  /-- `TFM_FWU_CLEAN`. -/
  | clean
  /-- `TFM_FWU_REJECT`. -/
  | reject
  /-- `TFM_FWU_ACCEPT`. -/
  | accept
  /-- `TFM_FWU_QUERY`. -/
  | query
  /-- Any other type. -/
  | unknown
  deriving DecidableEq

/-- `tfm_firmware_update_service_sfn`. -/
def tfmFirmwareUpdateServiceSfn (C : Config) (a : Answers n) (type : MsgType) (msg : Msg)
    (x : World n) : PsaStatus × World n :=
  match type with
  | .start => tfmFwuStart C a msg x
  | .write => tfmFwuWrite C a msg x
  | .finish => tfmFwuFinish msg x
  | .install => tfmFwuInstall C a x
  | .cancel => tfmFwuCancel msg x
  | .clean => tfmFwuClean a msg x
  | .query => ((tfmFwuQuery C a msg x).1, x)
  | .accept => tfmFwuAccept C a x
  | .reject => tfmFwuReject a msg x
  | .unknown => (psaErrorNotSupported, x)

end TrustedFirmwareM.Fwu
