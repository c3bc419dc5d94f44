import TrustedFirmwareM.Bl2.FlashMapWrites
import TrustedFirmwareM.Fwu.Mcuboot

/-!
# Staging images

An image is written to its secondary slot block by block.  The bootloader abstraction counts the
bytes that it has been given and reports the digest of as many bytes of the slot.
-/

namespace TrustedFirmwareM.Fwu.Staging

open Bl2.FlashMap
open Mcuboot (psaErrorStorageFailure)

/-- `PSA_ERROR_GENERIC_ERROR`. -/
def psaErrorGenericError : PsaStatus := -132

/-- What `TFM_FWU_MAX_DIGEST_SIZE` bytes of a digest are. -/
abbrev Digest : Type := Vector (BitVec 8) 32

/-- `psa_fwu_image_version_t`. -/
structure PsaFwuImageVersion where
  /-- `major`. -/
  major : BitVec 8
  /-- `minor`. -/
  minor : BitVec 8
  /-- `patch`. -/
  patch : BitVec 16
  /-- `build`. -/
  build : BitVec 32
  deriving DecidableEq

/-- `PSA_FWU_FLAG_VOLATILE_STAGING`. -/
def psaFwuFlagVolatileStaging : BitVec 32 := 1

/-- `psa_fwu_component_info_t`; what has not been set is not there. -/
structure PsaFwuComponentInfo where
  /-- `state`. -/
  state : Option ComponentState
  /-- `error`. -/
  error : Option PsaStatus
  /-- `version`. -/
  version : Option PsaFwuImageVersion
  /-- `max_size`. -/
  maxSize : Option Word
  /-- `flags`. -/
  flags : Option (BitVec 32)
  /-- `location`. -/
  location : Option Word
  /-- `candidate_digest`. -/
  candidateDigest : Option Digest
  deriving DecidableEq

/-- A record in which nothing has been set. -/
def noInfo : PsaFwuComponentInfo := ⟨none, none, none, none, none, none, none⟩

/-- `tfm_fwu_mcuboot_ctx_t`. -/
structure McubootCtx (P : Platform) where
  /-- `fap`. -/
  fap : Option (FlashArea P)
  /-- `loaded_size`. -/
  loadedSize : Word

/-- The service and the staged images. -/
structure Store (P : Platform) (n : ℕ) where
  /-- The flash. -/
  flash : State
  /-- `mcuboot_ctx`. -/
  mcubootCtx : Fin n → McubootCtx P
  /-- `fwu_ctx`. -/
  fwuCtx : Fin n → Ctx

/-- The configuration of the service and of the flash. -/
structure Setup (P : Platform) (n : ℕ) where
  /-- The configuration. -/
  config : Config
  /-- The buffer for blocks has room. -/
  bufSize_pos : 0 < config.bufSize
  /-- `PSA_FRAMEWORK_HAS_MM_IOVEC`. -/
  mmIovec : Bool
  /-- Images are swapped, so that running images can be on trial. -/
  swap : Bool
  /-- `flash_area_open` of `FLASH_AREA_IMAGE_SECONDARY`. -/
  secondary : Fin n → Option (FlashArea P)
  /-- `sector_size` of a driver with uniform sectors. -/
  sectorSize : Option Word
  /-- `erased_value`. -/
  erasedValue : BitVec 8
  /-- `BOOT_TMPBUF_SZ`. -/
  bootTmpbufSz : Word
  /-- The buffer for hashing has room. -/
  bootTmpbufSz_pos : 0 < bootTmpbufSz

/-- What the rest of the platform does during a request. -/
structure Answers (P : Platform) where
  /-- Which calls that read or program flash fail. -/
  fault : ℕ → Option ℕ
  /-- What `EraseSector` returns for each sector. -/
  eraseSector : ℕ → ℤ
  /-- `flash_area_open` of the primary slot, and `fa_id` of it. -/
  primary : Option (FlashArea P × Word)
  /-- `boot_read_image_ok`: whether the flag is set. -/
  imageOk : Option Bool
  /-- `get_active_image_version`. -/
  version : Option PsaFwuImageVersion
  /-- `psa_hash_setup`. -/
  hashSetup : PsaStatus
  /-- `psa_hash_update`, for data at an offset. -/
  hashUpdate : ℕ → PsaStatus
  /-- `psa_hash_finish`. -/
  hashFinish : PsaStatus
  /-- The digest of data. -/
  hash : List (BitVec 8) → Digest

/-- `psa_msg_t` and what is read through it. -/
structure Message where
  /-- `in_size[0]`. -/
  inSize0 : ℕ
  /-- `in_size[1]`. -/
  inSize1 : ℕ
  /-- `out_size[0]`. -/
  outSize0 : ℕ
  /-- The component. -/
  component : ℕ
  /-- The offset of a block. -/
  imageOffset : Word
  /-- A block, the size of which is `in_size[2]`. -/
  block : List (BitVec 8)
  /-- The size is a number of 32 bits. -/
  block_lt : block.length < 2 ^ 32

/-- Functions of the service and of the bootloader abstraction. -/
abbrev StoreM (P : Platform) (n : ℕ) (α : Type) : Type := Fallible (Store P n) PsaStatus α

variable {P : Platform} {n : ℕ} {α : Type}

/-- An operation on the flash, and what is returned when it fails. -/
def onFlash (status : PsaStatus) (x : FlashM α) : StoreM P n α := fun s ↦
  ((x s.flash).1.mapError fun _ ↦ status, { s with flash := (x s.flash).2 })

/-- A step that depends on the state. -/
def withStore (next : Store P n → StoreM P n α) : StoreM P n α := fun s ↦ next s s

/-- Set an element of `mcuboot_ctx`. -/
def setMcubootCtx (c : Fin n) (ctx : McubootCtx P) : StoreM P n Unit := fun s ↦
  (.ok (), { s with mcubootCtx := Function.update s.mcubootCtx c ctx })

/-- Set an element of `fwu_ctx`. -/
def setFwuCtx (c : Fin n) (ctx : Ctx) : StoreM P n Unit := fun s ↦
  (.ok (), { s with fwuCtx := Function.update s.fwuCtx c ctx })

/-- Go on if there is a value. -/
def orFail (status : PsaStatus) (value : Option α) : StoreM P n α :=
  match value with
  | none => Fallible.fail status
  | some value => pure value

/-- Go on if a condition is not met. -/
def failIf (status : PsaStatus) (condition : Prop) [Decidable condition] : StoreM P n Unit :=
  if condition then Fallible.fail status else pure ()

/-! ## The bootloader abstraction -/

/-- The loop of `flash_area_erase`, for the `k`-th sector and those behind it. -/
def eraseSectors (results : ℕ → ℤ) (area : FlashArea P) (len sectorSize : Word)
    (erasedValue : BitVec 8) : ℕ → ℕ → Word → FlashM Unit
  | 0, _, _ => pure ()
  | fuel + 1, k, deletedLen => fun s ↦
      if deletedLen < len then
        if results k ≠ 0 then (.error (results k), s)
        else
          let erased := List.replicate sectorSize.toNat erasedValue
          let flash := s.flash.write (area.faOff + deletedLen) erased
          eraseSectors results area len sectorSize erasedValue fuel (k + 1)
            (deletedLen + sectorSize) { s with flash }
      else (.ok (), s)

/-- `flash_area_erase` of a whole area. -/
def flashAreaErase (E : Setup P n) (a : Answers P) (area : FlashArea P) : FlashM Unit := do
  checkRange area 0 area.faSize
  match E.sectorSize with
  | none => pure ()
  | some sectorSize =>
      eraseSectors a.eraseSector area area.faSize sectorSize E.erasedValue area.faSize.toNat 0 0

/-- `fwu_bootloader_staging_area_init`. -/
def fwuBootloaderStagingAreaInit (E : Setup P n) (a : Answers P) (c : Fin n) (manifestSize : ℕ) :
    StoreM P n Unit := do
  failIf psaErrorInvalidArgument (manifestSize ≠ 0)
  let fap ← orFail psaErrorStorageFailure (E.secondary c)
  onFlash psaErrorGenericError (flashAreaErase E a fap)
  setMcubootCtx c ⟨some fap, 0⟩

/-- `fwu_bootloader_load_image`. -/
def fwuBootloaderLoadImage (c : Fin n) (blockOffset : Word) (block : List (BitVec 8)) :
    StoreM P n Unit :=
  withStore fun s ↦ do
    let ctx := s.mcubootCtx c
    let fap ← orFail psaErrorBadState ctx.fap
    let blockSize := BitVec.ofNat 32 block.length
    onFlash psaErrorStorageFailure (flashAreaWrite fap blockOffset (bytesOf block) blockSize)
    setMcubootCtx c ⟨some fap, ctx.loadedSize + blockSize⟩

/-- The loop of `util_img_hash`.  The state of the hash operation is the data that it has been
given. -/
def hashBlocks (E : Setup P n) (a : Answers P) (fap : FlashArea P) (dataSize : Word) :
    ℕ → Word → List (BitVec 8) → StoreM P n (List (BitVec 8))
  | 0, _, data => pure data
  | fuel + 1, off, data =>
      if off < dataSize then do
        let blkSz := if E.bootTmpbufSz < dataSize - off then E.bootTmpbufSz else dataSize - off
        let tmpbuf ← onFlash psaErrorStorageFailure (flashAreaRead fap off blkSz)
        failIf (a.hashUpdate off.toNat) (a.hashUpdate off.toNat ≠ psaSuccess)
        hashBlocks E a fap dataSize fuel (off + blkSz) (data ++ tmpbuf)
      else pure data

/-- `util_img_hash`, and what is returned when it fails. -/
def utilImgHash (E : Setup P n) (a : Answers P) (fap : FlashArea P) (dataSize : Word) :
    StoreM P n Digest :=
  Fallible.mapError (fun _ ↦ psaErrorStorageFailure) do
    failIf a.hashSetup (a.hashSetup ≠ psaSuccess)
    let data ← hashBlocks E a fap dataSize dataSize.toNat 0 []
    failIf a.hashFinish (a.hashFinish ≠ psaSuccess)
    pure (a.hash data)

/-- `get_second_image_digest`. -/
def getSecondImageDigest (E : Setup P n) (a : Answers P) (c : Fin n) (info : PsaFwuComponentInfo) :
    StoreM P n PsaFwuComponentInfo :=
  withStore fun s ↦ do
    let ctx := s.mcubootCtx c
    failIf psaErrorInvalidArgument (ctx.fap.isNone)
    let fap ← orFail psaErrorStorageFailure (E.secondary c)
    let hash ← utilImgHash E a fap ctx.loadedSize
    pure { info with candidateDigest := some hash }

/-- `fwu_bootloader_get_image_info`: the state, which is looked for if it is queried. -/
def queriedState (E : Setup P n) (a : Answers P) (queryState : Bool)
    (state : Option ComponentState) : StoreM P n (Option ComponentState) :=
  if queryState then
    if E.swap then do
      let imageOk ← orFail psaErrorStorageFailure a.imageOk
      pure (some (if imageOk then .ready else .trial))
    else pure (some .ready)
  else pure state

/-- `fwu_bootloader_get_image_info`. -/
def fwuBootloaderGetImageInfo (E : Setup P n) (a : Answers P) (c : Fin n)
    (queryState queryImplInfo : Bool) (info : PsaFwuComponentInfo) :
    StoreM P n PsaFwuComponentInfo := do
  let (fap, faId) ← orFail psaErrorStorageFailure a.primary
  let state ← queriedState E a queryState info.state
  let version ← orFail psaErrorStorageFailure a.version
  let info := { info with
    state, version := some version, maxSize := some fap.faSize, location := some faId,
    flags := some psaFwuFlagVolatileStaging }
  if queryImplInfo then getSecondImageDigest E a c info else pure info

/-- `fwu_bootloader_clean_component`. -/
def fwuBootloaderCleanComponent (E : Setup P n) (a : Answers P) (c : Fin n) : StoreM P n Unit :=
  withStore fun s ↦ do
    let ctx := s.mcubootCtx c
    let fap ← orFail psaErrorDoesNotExist ctx.fap
    onFlash psaErrorStorageFailure (flashAreaErase E a fap)
    setMcubootCtx c ⟨none, ctx.loadedSize⟩

/-! ## Requests -/

/-- The component of a message, if there is one. -/
def Message.component? (msg : Message) : Option (Fin n) :=
  if valid : msg.component < n then some ⟨msg.component, valid⟩ else none

/-- `tfm_fwu_start`. -/
def tfmFwuStart (E : Setup P n) (a : Answers P) (msg : Message) : StoreM P n Unit :=
  withStore fun s ↦ do
    failIf psaErrorProgrammerError (msg.inSize0 ≠ sizeofComponent)
    failIf psaErrorNotSupported (E.config.maxManifestSize < msg.inSize1)
    let c ← orFail psaErrorDoesNotExist msg.component?
    let ctx := s.fwuCtx c
    if ctx.inUse then failIf psaErrorBadState (ctx.componentState ≠ .ready)
    else do
      let info ← fwuBootloaderGetImageInfo E a c true false noInfo
      failIf psaErrorBadState (info.state ≠ some .ready)
      fwuBootloaderStagingAreaInit E a c msg.inSize1
      setFwuCtx c { ctx with inUse := true, componentState := .writing }

/-- What `tfm_fwu_write` checks first: the component, or the status that is returned. -/
def checkWrite (E : Setup P n) (msg : Message) (s : Store P n) : Except PsaStatus (Fin n) :=
  if E.config.maxWriteSize < msg.block.length then .error psaErrorInvalidArgument
  else if msg.inSize0 ≠ sizeofComponent ∨ msg.inSize1 ≠ sizeofSize then
    .error psaErrorProgrammerError
  else
    match msg.component? with
    | none => .error psaErrorDoesNotExist
    | some c =>
        if !(s.fwuCtx c).inUse ∨ (s.fwuCtx c).componentState ≠ .writing then .error psaErrorBadState
        else .ok c

/-- The loop of `tfm_fwu_write`, with the size of the block as fuel.  What is left of the block is
read into a buffer. -/
def writeLoop (E : Setup P n) (c : Fin n) :
    ℕ → Word → ℕ → List (BitVec 8) → StoreM P n Unit
  | 0, _, _, _ => pure ()
  | fuel + 1, imageOffset, blockSize, unread =>
      if 0 < blockSize then do
        let writeSize := if E.config.bufSize ≤ blockSize then E.config.bufSize else blockSize
        let block := unread.take writeSize
        failIf psaErrorProgrammerError (block.length ≠ writeSize)
        fwuBootloaderLoadImage c imageOffset block
        writeLoop E c fuel (imageOffset + BitVec.ofNat 32 writeSize) (blockSize - writeSize)
          (unread.drop writeSize)
      else pure ()

/-- `tfm_fwu_write`: a block is loaded. -/
def writeBlock (E : Setup P n) (c : Fin n) (imageOffset : Word) (block : List (BitVec 8)) :
    StoreM P n Unit :=
  if E.mmIovec then
    if 0 < block.length then fwuBootloaderLoadImage c imageOffset block else pure ()
  else writeLoop E c block.length imageOffset block.length block

/-- `tfm_fwu_write`. -/
def tfmFwuWrite (E : Setup P n) (msg : Message) : StoreM P n Unit :=
  withStore fun s ↦
    match checkWrite E msg s with
    | .error status => Fallible.fail status
    | .ok c => writeBlock E c msg.imageOffset msg.block

/-- `tfm_fwu_finish`. -/
def tfmFwuFinish (msg : Message) : StoreM P n Unit :=
  withStore fun s ↦ do
    failIf psaErrorProgrammerError (msg.inSize0 ≠ sizeofComponent)
    let c ← orFail psaErrorDoesNotExist msg.component?
    let ctx := s.fwuCtx c
    failIf psaErrorBadState (!ctx.inUse ∨ ctx.componentState ≠ .writing)
    setFwuCtx c { ctx with componentState := .candidate }

/-- `tfm_fwu_cancel`. -/
def tfmFwuCancel (msg : Message) : StoreM P n Unit :=
  withStore fun s ↦ do
    failIf psaErrorProgrammerError (msg.inSize0 ≠ sizeofComponent)
    let c ← orFail psaErrorDoesNotExist msg.component?
    let ctx := s.fwuCtx c
    failIf psaErrorBadState
      (!ctx.inUse ∨ ctx.componentState ≠ .writing ∧ ctx.componentState ≠ .candidate)
    setFwuCtx c { ctx with componentState := .failed, error := psaSuccess }

/-- `tfm_fwu_clean`. -/
def tfmFwuClean (E : Setup P n) (a : Answers P) (msg : Message) : StoreM P n Unit :=
  withStore fun s ↦ do
    failIf psaErrorProgrammerError (msg.inSize0 ≠ sizeofComponent)
    let c ← orFail psaErrorDoesNotExist msg.component?
    let ctx := s.fwuCtx c
    failIf psaErrorBadState
      (!ctx.inUse ∨ ctx.componentState ≠ .failed ∧ ctx.componentState ≠ .updated)
    fwuBootloaderCleanComponent E a c
    setFwuCtx c { ctx with componentState := .ready, inUse := false }

/-- What `tfm_fwu_query` sets first. -/
def contextInfo (ctx : Ctx) : PsaFwuComponentInfo :=
  if ctx.inUse then
    { noInfo with
      state := some ctx.componentState
      error :=
        if ctx.componentState = .rejected ∨ ctx.componentState = .failed then some ctx.error
        else none }
  else noInfo

/-- `tfm_fwu_query`. -/
def tfmFwuQuery (E : Setup P n) (a : Answers P) (msg : Message) : StoreM P n PsaFwuComponentInfo :=
  withStore fun s ↦ do
    failIf psaErrorProgrammerError
      (msg.inSize0 ≠ sizeofComponent ∨ msg.outSize0 ≠ E.config.infoSize)
    let c ← orFail psaErrorDoesNotExist msg.component?
    let ctx := s.fwuCtx c
    fwuBootloaderGetImageInfo E a c (!ctx.inUse)
      (ctx.inUse && decide (ctx.componentState = .candidate)) (contextInfo ctx)

/-- The requests that an image is staged by. -/
inductive RequestType
  /-- `TFM_FWU_START`. -/
  | start
  /-- `TFM_FWU_WRITE`. -/
  | write
  /-- `TFM_FWU_FINISH`. -/
  | finish
  /-- `TFM_FWU_CANCEL`. -/
  | cancel
  /-- `TFM_FWU_CLEAN`. -/
  | clean
  /-- `TFM_FWU_QUERY`. -/
  | query
  deriving DecidableEq

/-- A request, and what the rest of the platform does during it. -/
structure Request (P : Platform) where
  /-- The request. -/
  type : RequestType
  /-- Its message. -/
  msg : Message
  /-- What the rest of the platform does. -/
  answers : Answers P

/-- The flash driver goes on as it does during a request. -/
def Store.during (s : Store P n) (a : Answers P) : Store P n :=
  { s with flash := { s.flash with fault := a.fault } }

/-- `tfm_firmware_update_service_sfn`. -/
def serve (E : Setup P n) (r : Request P) (s : Store P n) : Except PsaStatus Unit × Store P n :=
  match r.type with
  | .start => tfmFwuStart E r.answers r.msg (s.during r.answers)
  | .write => tfmFwuWrite E r.msg (s.during r.answers)
  | .finish => tfmFwuFinish r.msg (s.during r.answers)
  | .cancel => tfmFwuCancel r.msg (s.during r.answers)
  | .clean => tfmFwuClean E r.answers r.msg (s.during r.answers)
  | .query =>
      let (result, s) := tfmFwuQuery E r.answers r.msg (s.during r.answers)
      (result.map fun _ ↦ (), s)

/-- Requests are served one after another. -/
def serveAll (E : Setup P n) (s : Store P n) : List (Request P) → Store P n
  | [] => s
  | r :: rest => serveAll E (serve E r s).2 rest

/-- The service after a start of the system. -/
def booted (flash : State) : Store P n where
  flash := flash
  mcubootCtx _ := ⟨none, 0⟩
  fwuCtx _ := ⟨psaSuccess, .ready, false⟩

end TrustedFirmwareM.Fwu.Staging
