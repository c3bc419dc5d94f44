import TrustedFirmwareM.Its.FileSystem

/-!
# The service

The functions of `tfm_internal_trusted_storage.c`, in the build without encryption and without
mapped vectors.  An asset is a file, whose identifier is made from those of the client and of the
asset, and its data goes through a buffer of a fixed size.
-/

namespace TrustedFirmwareM.Its

open Program

/-- An identifier of a client. -/
abbrev ClientId : Type := BitVec 32

/-- `psa_storage_uid_t`. -/
abbrev Uid : Type := BitVec 64

/-- `TFM_ITS_INVALID_UID`. -/
def tfmItsInvalidUid : Uid := 0

/-- `PSA_STORAGE_FLAG_WRITE_ONCE`. -/
def psaStorageFlagWriteOnce : ℕ := 2 ^ 0

/-- `PSA_STORAGE_FLAG_NO_CONFIDENTIALITY`. -/
def psaStorageFlagNoConfidentiality : ℕ := 2 ^ 1

/-- `PSA_STORAGE_FLAG_NO_REPLAY_PROTECTION`. -/
def psaStorageFlagNoReplayProtection : ℕ := 2 ^ 2

/-- What the build sets for the service. -/
structure ServiceConfig where
  /-- The configuration of the file system. -/
  fs : Config
  /-- `sizeof(asset_data)`. -/
  bufSize : ℕ
  /-- There is a buffer. -/
  bufSize_pos : 0 < bufSize
  /-- Its size is aligned to the program unit. -/
  aligned : fs.programUnit ∣ bufSize
  /-- It is far smaller than the memory. -/
  bufSize_le : bufSize + fs.programUnit ≤ 2 ^ 32

/-- The static data that earlier requests have left. -/
structure Statics where
  /-- `g_file_info`. -/
  fileInfo : FileInfo
  /-- `asset_data`. -/
  assetData : Bytes

/-- `psa_storage_info_t`. -/
structure StorageInfo where
  /-- The space that is reserved for the asset. -/
  capacity : ℕ
  /-- The size of the asset. -/
  size : ℕ
  /-- The flags it was created with. -/
  flags : ℕ
  deriving DecidableEq

/-- `tfm_its_get_fid`. -/
def tfmItsGetFid (clientId : ClientId) (uid : Uid) : FileId := fun i ↦
  if i.val < 4 then u32Byte clientId.toNat i else u32Byte uid.toNat (i - 4)

variable (cfg : ServiceConfig)

/-- `get_file_info`. -/
def getFileInfo (uid : Uid) (clientId : ClientId) : FsM FileInfo := do
  ensure (uid != tfmItsInvalidUid) .invalidArgument
  itsFlashFsFileGetInfo cfg.fs (tfmItsGetFid clientId uid)

/-- The loop of `tfm_its_set`, with a bound on the number of its passes.  The data of the caller is
read in order. -/
def setLoop (fid : FileId) (input : Bytes) : ℕ → FileInfo → Bytes → ℕ → ℕ → FsM Unit
  | 0, _, _, _, _ => pure ()
  | passes + 1, finfo, assetData, offset, dataLength => do
      let writeSize := min dataLength cfg.bufSize
      let assetData := patch assetData 0 writeSize fun i ↦ input (offset + i)
      itsFlashFsFileWrite cfg.fs fid finfo writeSize offset assetData
      -- Do not create or truncate after the first iteration.
      let finfo := { finfo with
        flags := finfo.flags &&& not32 (itsFlashFsFlagCreate ||| itsFlashFsFlagTruncate) }
      if dataLength - writeSize > 0 then
        setLoop fid input passes finfo assetData (offset + writeSize) (dataLength - writeSize)

/-- The part of `tfm_its_set` that looks for the asset.  An object that has the write once flag set
cannot be modified. -/
def startSet (statics : Statics) (clientId : ClientId) (uid : Uid) : FsM FileInfo := do
  match ← (getFileInfo cfg uid clientId).result with
  | .ok finfo => do
      ensure (finfo.flags &&& psaStorageFlagWriteOnce == 0) .notPermitted
      pure finfo
  | .error .doesNotExist => pure statics.fileInfo
  | .error status => throw status

/-- `tfm_its_set`. -/
def tfmItsSet (statics : Statics) (clientId : ClientId) (uid : Uid) (dataLength createFlags : ℕ)
    (input : Bytes) : FsM Unit := do
  ensure (uid != tfmItsInvalidUid) .invalidArgument
  ensure (createFlags &&& not32 (psaStorageFlagWriteOnce ||| psaStorageFlagNoConfidentiality |||
    psaStorageFlagNoReplayProtection) == 0) .notSupported
  let finfo ← startSet cfg statics clientId uid
  let finfo := { finfo with
    sizeMax := dataLength
    flags := createFlags ||| itsFlashFsFlagCreate ||| itsFlashFsFlagTruncate }
  setLoop cfg (tfmItsGetFid clientId uid) input
    (dataLength + 1) finfo statics.assetData 0 dataLength

/-- The loop of `tfm_its_get_plain`, with a bound on the number of its passes.  It returns what is
written to the caller. -/
def getLoop (fid : FileId) : ℕ → ℕ → ℕ → FsM (List UInt8)
  | 0, _, _ => pure []
  | passes + 1, dataOffset, dataSize => do
      let readSize := min dataSize cfg.bufSize
      let assetData ← itsFlashFsFileRead cfg.fs fid readSize dataOffset
      let written := (List.range readSize).map assetData
      if dataSize - readSize > 0 then
        let rest ← getLoop fid passes (dataOffset + readSize) (dataSize - readSize)
        pure (written ++ rest)
      else pure written

/-- `tfm_its_get`. -/
def tfmItsGet (clientId : ClientId) (uid : Uid) (dataOffset dataSize : ℕ) : FsM (List UInt8) := do
  ensure (uid != tfmItsInvalidUid) .invalidArgument
  let finfo ← getFileInfo cfg uid clientId
  ensure (decide (dataOffset ≤ finfo.sizeCurrent)) .invalidArgument
  let dataSize := min dataSize (finfo.sizeCurrent - dataOffset)
  getLoop cfg (tfmItsGetFid clientId uid) (dataSize + 1) dataOffset dataSize

/-- `tfm_its_get_info`. -/
def tfmItsGetInfo (clientId : ClientId) (uid : Uid) : FsM StorageInfo := do
  let finfo ← getFileInfo cfg uid clientId
  pure { capacity := finfo.sizeCurrent, size := finfo.sizeCurrent, flags := finfo.flags }

/-- `tfm_its_remove`. -/
def tfmItsRemove (clientId : ClientId) (uid : Uid) : FsM Unit := do
  let finfo ← getFileInfo cfg uid clientId
  ensure (finfo.flags &&& psaStorageFlagWriteOnce == 0) .notPermitted
  itsFlashFsFileDelete cfg.fs (tfmItsGetFid clientId uid)

/-- `tfm_its_init`, once the parameters of the flash are known. -/
def tfmItsInit (createFlashLayout : Bool) : FsM Unit := do
  itsFlashFsInitCtx cfg.fs
  match ← (itsFlashFsPrepare cfg.fs).result with
  | .ok _ => pure ()
  | .error status =>
      if createFlashLayout then
        -- Remove all data and create a valid flash layout.
        itsFlashFsWipeAll cfg.fs
        itsFlashFsPrepare cfg.fs
      else throw status

end TrustedFirmwareM.Its
