import TrustedFirmwareM.Its.Mblock
import Mathlib.Data.Nat.Bitwise

/-!
# The flash file system

The functions of `its_flash_fs_dblock.c` and `its_flash_fs.c`.  A write rebuilds the data block of
the file in a scratch block, with the new data in place; a deletion rebuilds the block without the
file.
-/

namespace TrustedFirmwareM.Its

open Program

variable (cfg : Config)

/-! ## Data blocks -/

/-- `its_dblock_lo_to_phy`. -/
def itsDblockLoToPhy (lblock : ℕ) : FsM ℕ := do
  let blockMeta ← itsFlashFsMblockReadBlockMetadata cfg lblock
  pure blockMeta.phyId

/-- `its_flash_fs_dblock_compact_block`. -/
def itsFlashFsDblockCompactBlock (lblock freeSize srcOffset dstOffset size : ℕ) : FsM Unit := do
  let blockMeta ← itsFlashFsMblockReadBlockMetadata cfg lblock
  let scratchId ← itsFlashFsMblockCurDataScratchId lblock
  if size > 0 then
    (itsFlashFsBlockToBlockMove scratchId dstOffset blockMeta.phyId srcOffset size).orStatus
      .genericError
  if dstOffset > blockMeta.dataStart then
    (itsFlashFsBlockToBlockMove scratchId blockMeta.dataStart blockMeta.phyId blockMeta.dataStart
      (dstOffset - blockMeta.dataStart)).orStatus .genericError
  itsFlashFsMblockSetDataScratch blockMeta.phyId lblock
  match ← (itsFlashFsMblockUpdateScratchBlockMeta cfg lblock
      { blockMeta with
        freeSize := add32 blockMeta.freeSize freeSize
        phyId := scratchId }).result with
  | .error status =>
      -- Swap back the data block.
      itsFlashFsMblockSetDataScratch scratchId lblock
      throw status
  | .ok _ =>
      if lblock ≠ itsLogicalDblock0 ∧ (size > 0 ∨ dstOffset > blockMeta.dataStart) then
        (FlashOp.flush scratchId).call

variable {cfg} in
/-- `its_flash_fs_dblock_read_file`. -/
def itsFlashFsDblockReadFile (fileMeta : FileMeta cfg) (offset size : ℕ) : FsM Bytes := do
  let physBlock ← (itsDblockLoToPhy cfg fileMeta.lblock).orStatus .genericError
  (FlashOp.read physBlock (add32 fileMeta.dataIdx offset) size).call

variable {cfg} in
/-- `its_flash_fs_dblock_write_file`. -/
def itsFlashFsDblockWriteFile (blockMeta : BlockMeta) (fileMeta : FileMeta cfg) (offset size : ℕ)
    (data : Bytes) : FsM Unit := do
  let scratchId ← itsFlashFsMblockCurDataScratchId fileMeta.lblock
  let pos := add32 fileMeta.dataIdx offset
  -- Move data up to the new file data position.
  itsFlashFsBlockToBlockMove scratchId blockMeta.dataStart blockMeta.phyId blockMeta.dataStart
    (sub32 pos blockMeta.dataStart)
  (FlashOp.write scratchId pos size data).call
  -- Move data between the end of the file and the end of the block data.
  let pos := add32 fileMeta.dataIdx fileMeta.maxSize
  itsFlashFsBlockToBlockMove scratchId pos blockMeta.phyId pos
    (sub32 (sub32 cfg.blockSize blockMeta.freeSize) pos)
  if fileMeta.lblock ≠ itsLogicalDblock0 then (FlashOp.flush scratchId).call

/-! ## Files -/

/-- `ITS_FLASH_FS_USER_FLAGS_MASK`. -/
def itsFlashFsUserFlagsMask : ℕ := 2 ^ 16 - 1

/-- `ITS_FLASH_FS_FLAG_CREATE`. -/
def itsFlashFsFlagCreate : ℕ := 2 ^ 16

/-- `ITS_FLASH_FS_FLAG_TRUNCATE`. -/
def itsFlashFsFlagTruncate : ℕ := 2 ^ 17

/-- `ITS_FLASH_FS_INTERNAL_FLAGS_MASK`. -/
def itsFlashFsInternalFlagsMask : ℕ := 2 ^ 32 - 2 ^ 24

/-- `ITS_FLASH_FS_FLAG_DELETE`. -/
def itsFlashFsFlagDelete : ℕ := 2 ^ 24

/-- `its_flash_fs_file_info_t`, without the associated data, which the file system does not use. -/
structure FileInfo where
  /-- The current size of the file in bytes. -/
  sizeCurrent : ℕ
  /-- The maximum size of the file in bytes. -/
  sizeMax : ℕ
  /-- Flags set when the file was created. -/
  flags : ℕ
  /-- Nonce of an encrypted file. -/
  nonce : Bytes
  /-- Authentication tag of an encrypted file. -/
  tag : Bytes

variable {cfg} in
/-- `its_flash_fs_file_write_aligned_data`. -/
def itsFlashFsFileWriteAlignedData (blockMeta : BlockMeta) (fileMeta : FileMeta cfg)
    (offset size : ℕ) (data : Bytes) : FsM Unit := do
  ensure (itsUtilsIsAligned offset cfg.programUnit) .invalidArgument
  let size := itsUtilsAlign size cfg.programUnit
  ensure (decide (offset ≤ fileMeta.curSize)) .invalidArgument
  ensure (itsUtilsCheckContainedIn fileMeta.maxSize offset size) .invalidArgument
  itsFlashFsDblockWriteFile blockMeta fileMeta offset size data

/-- `its_flash_fs_num_active_dblocks`. -/
def itsFlashFsNumActiveDblocks : ℕ := if cfg.numBlocks = 2 then 1 else cfg.numBlocks - 2

/-- `its_flash_fs_all_metadata_size`. -/
def itsFlashFsAllMetadataSize : ℕ :=
  itsBlockMetaHeaderSize cfg + itsFlashFsNumActiveDblocks cfg * itsBlockMetadataSize cfg +
    cfg.maxNumFiles * itsFileMetadataSize cfg

/-- `its_flash_fs_validate_config`. -/
def itsFlashFsValidateConfig : Bool :=
  !(decide (cfg.numBlocks < 2) || decide (cfg.numBlocks = 3)) &&
    !(decide (cfg.numBlocks = 2) &&
      decide (cfg.maxFileSize > sub32 cfg.blockSize (itsFlashFsAllMetadataSize cfg))) &&
    !decide (cfg.maxFileSize > cfg.blockSize) &&
    !decide (itsFlashFsAllMetadataSize cfg > cfg.blockSize)

/-- The context after a reset. -/
def Ctx.zero : Ctx := ⟨⟨0, 0, 0, 0⟩, 0, 0⟩

/-- `its_flash_fs_init_ctx`, but for the initialisation of the driver. -/
def itsFlashFsInitCtx : FsM Unit := do
  ensure (itsFlashFsValidateConfig cfg) .invalidArgument
  modifyCtx fun _ ↦ .zero

/-- `its_flash_fs_delete_idx`: the loop over the metadata of the files.  It returns the offset of
the first byte to move and the number of bytes to move. -/
def deleteIdxLoop (delFileIdx delFileLblock delFileDataIdx delFileMaxSize : ℕ) :
    List ℕ → ℕ → ℕ → FsM (ℕ × ℕ)
  | [], srcOffset, nbrBytesToMove => pure (srcOffset, nbrBytesToMove)
  | idx :: rest, srcOffset, nbrBytesToMove =>
      if idx = delFileIdx then
        deleteIdxLoop delFileIdx delFileLblock delFileDataIdx delFileMaxSize rest srcOffset
          nbrBytesToMove
      else do
        let fileMeta ← itsFlashFsMblockReadFileMeta cfg idx
        if fileMeta.lblock = delFileLblock ∧ itsUtilsValidateFid fileMeta.id = true ∧
            fileMeta.dataIdx > delFileDataIdx then
          itsFlashFsMblockUpdateScratchFileMeta idx
            { fileMeta with dataIdx := sub32 fileMeta.dataIdx delFileMaxSize }
          deleteIdxLoop delFileIdx delFileLblock delFileDataIdx delFileMaxSize rest
            (min srcOffset fileMeta.dataIdx) (add32 nbrBytesToMove fileMeta.maxSize)
        else
          itsFlashFsMblockUpdateScratchFileMeta idx fileMeta
          deleteIdxLoop delFileIdx delFileLblock delFileDataIdx delFileMaxSize rest srcOffset
            nbrBytesToMove

/-- `its_flash_fs_delete_idx`. -/
def itsFlashFsDeleteIdx (delFileIdx : ℕ) : FsM Unit := do
  let fileMeta ← itsFlashFsMblockReadFileMeta cfg delFileIdx
  ensure (itsUtilsValidateFid fileMeta.id) .doesNotExist
  itsFlashFsMblockUpdateScratchFileMeta delFileIdx (FileMeta.zero : FileMeta cfg)
  let (srcOffset, nbrBytesToMove) ← deleteIdxLoop cfg delFileIdx fileMeta.lblock fileMeta.dataIdx
    fileMeta.maxSize (List.range cfg.maxNumFiles) cfg.blockSize 0
  if fileMeta.maxSize = 0 then
    let blockMeta ← itsFlashFsMblockReadBlockMetadata cfg itsLogicalDblock0
    itsFlashFsMblockUpdateScratchBlockMeta cfg itsLogicalDblock0 blockMeta
  else
    itsFlashFsDblockCompactBlock cfg fileMeta.lblock fileMeta.maxSize srcOffset fileMeta.dataIdx
      nbrBytesToMove
  if (fileMeta.maxSize ≠ 0 ∧ fileMeta.lblock ≠ itsLogicalDblock0) ∨ fileMeta.maxSize = 0 then
    (itsFlashFsMblockMigrateLb0DataToScratch cfg).orStatus .genericError
  itsFlashFsMblockMetaUpdateFinalize cfg

/-- `its_flash_fs_prepare`. -/
def itsFlashFsPrepare : FsM Unit := do
  itsFlashFsMblockInit cfg
  match ← (itsFlashFsMblockGetFileIdxFlag cfg itsFlashFsFlagDelete).result with
  | .ok (idx, _) => itsFlashFsDeleteIdx cfg idx
  | .error .doesNotExist => pure ()
  | .error status => throw status

/-- `its_flash_fs_wipe_all`. -/
def itsFlashFsWipeAll : FsM Unit := itsFlashFsMblockResetMetablock cfg

/-- `its_flash_fs_file_get_info`. -/
def itsFlashFsFileGetInfo (fid : FileId) : FsM FileInfo := do
  let (_, tmpMetadata) ← (itsFlashFsMblockGetFileIdxMeta cfg fid).orStatus .doesNotExist
  pure
    { sizeMax := tmpMetadata.maxSize
      sizeCurrent := tmpMetadata.curSize
      flags := tmpMetadata.flags &&& itsFlashFsUserFlagsMask
      nonce := fun i ↦ if inside : i < cfg.nonceLength then tmpMetadata.nonce ⟨i, inside⟩ else 0
      tag := fun i ↦ if inside : i < cfg.tagLength then tmpMetadata.tag ⟨i, inside⟩ else 0 }

/-- What a write decides from the metadata of an existing file: the index and the metadata to go on
with.  There is no index if a new entry has to be reserved. -/
def reuseFile (finfo : FileInfo) (sizeMax oldIdx : ℕ) (fileMeta : FileMeta cfg) :
    FsM (Option ℕ × FileMeta cfg) := do
  if finfo.flags &&& itsFlashFsFlagTruncate ≠ 0 then
    if fileMeta.maxSize = sizeMax then
      -- Truncate and reuse the existing file.
      pure (some oldIdx, { fileMeta with curSize := 0, flags := finfo.flags })
    else
      -- Mark the existing file to be deleted in this block update.
      let fileMeta := { fileMeta with flags := fileMeta.flags ||| itsFlashFsFlagDelete }
      (itsFlashFsMblockUpdateScratchFileMeta oldIdx fileMeta).orStatus .genericError
      pure (none, fileMeta)
  else pure (some oldIdx, fileMeta)

/-- The first part of a write: find the file, or reserve a new one.  It returns the old index, the
new index, and the metadata of the file and of its block. -/
def locateFile (fid : FileId) (finfo : FileInfo) (sizeMax : ℕ) :
    FsM (Option ℕ × ℕ × FileMeta cfg × BlockMeta) := do
  let (oldIdx, newIdx, fileMeta) ←
    match ← (itsFlashFsMblockGetFileIdxMeta cfg fid).result with
    | .ok (oldIdx, fileMeta) => do
        let (newIdx, fileMeta) ← reuseFile cfg finfo sizeMax oldIdx fileMeta
        pure (some oldIdx, newIdx, fileMeta)
    | .error .doesNotExist => do
        -- The create flag must be supplied to create a new file.
        ensure (finfo.flags &&& itsFlashFsFlagCreate != 0) .doesNotExist
        pure (none, none, FileMeta.zero)
    | .error status => throw status
  match newIdx with
  | none =>
      ensure (decide (sizeMax ≤ cfg.maxFileSize)) .invalidArgument
      -- Only use the spare file if there is an old file to be deleted.
      let (newIdx, fileMeta, blockMeta) ←
        itsFlashFsMblockReserveFile fid oldIdx.isSome sizeMax finfo.flags fileMeta
      pure (oldIdx, newIdx, fileMeta, blockMeta)
  | some newIdx =>
      let blockMeta ←
        (itsFlashFsMblockReadBlockMetadata cfg fileMeta.lblock).orStatus .genericError
      pure (oldIdx, newIdx, fileMeta, blockMeta)

variable {cfg} in
/-- The second part of a write: write the data to the scratch data block and make it the data block
of the file. -/
def writeFileData (fileMeta : FileMeta cfg) (blockMeta : BlockMeta) (dataSize offset : ℕ)
    (data : Bytes) : FsM (FileMeta cfg × BlockMeta) := do
  if dataSize ≠ 0 then
    (itsFlashFsFileWriteAlignedData blockMeta fileMeta offset dataSize data).orStatus .genericError
    let curPhysBlock := blockMeta.phyId
    let scratchId ← itsFlashFsMblockCurDataScratchId fileMeta.lblock
    itsFlashFsMblockSetDataScratch curPhysBlock fileMeta.lblock
    pure ({ fileMeta with
        curSize := if add32 offset dataSize > fileMeta.curSize then add32 offset dataSize
          else fileMeta.curSize },
      { blockMeta with phyId := scratchId })
  else pure (fileMeta, blockMeta)

/-- The third part of a write: copy the metadata of the other files. -/
def copyOtherFileMeta (oldIdx : Option ℕ) (newIdx : ℕ) : FsM Unit := do
  match oldIdx with
  | none =>
      (itsFlashFsMblockCpFileMeta cfg 0 newIdx).orStatus .genericError
      (itsFlashFsMblockCpFileMeta cfg (newIdx + 1) cfg.maxNumFiles).orStatus .genericError
  | some oldIdx =>
      (itsFlashFsMblockCpFileMeta cfg 0 (min newIdx oldIdx)).orStatus .genericError
      if oldIdx ≠ newIdx then
        (itsFlashFsMblockCpFileMeta cfg (min newIdx oldIdx + 1) (max newIdx oldIdx)).orStatus
          .genericError
      (itsFlashFsMblockCpFileMeta cfg
        (max newIdx oldIdx + 1) cfg.maxNumFiles).orStatus .genericError

/-- `its_flash_fs_file_write`. -/
def itsFlashFsFileWrite (fid : FileId) (finfo : FileInfo) (dataSize offset : ℕ) (data : Bytes) :
    FsM Unit := do
  ensure (finfo.flags &&& itsFlashFsInternalFlagsMask == 0) .invalidArgument
  let sizeMax := itsUtilsAlign finfo.sizeMax cfg.programUnit
  let (oldIdx, newIdx, fileMeta, blockMeta) ← locateFile cfg fid finfo sizeMax
  let (fileMeta, blockMeta) ← writeFileData fileMeta blockMeta dataSize offset data
  (itsFlashFsMblockUpdateScratchBlockMeta cfg fileMeta.lblock blockMeta).orStatus .genericError
  let fileMeta : FileMeta cfg :=
    { fileMeta with nonce := fun i ↦ finfo.nonce i, tag := fun i ↦ finfo.tag i }
  (itsFlashFsMblockUpdateScratchFileMeta newIdx fileMeta).orStatus .genericError
  copyOtherFileMeta cfg oldIdx newIdx
  if fileMeta.lblock ≠ itsLogicalDblock0 ∨ dataSize = 0 then
    (itsFlashFsMblockMigrateLb0DataToScratch cfg).orStatus .genericError
  itsFlashFsMblockMetaUpdateFinalize cfg
  -- Delete the old file in a second block update.
  match oldIdx with
  | some oldIdx => if oldIdx ≠ newIdx then itsFlashFsDeleteIdx cfg oldIdx
  | none => pure ()

/-- `its_flash_fs_file_delete`. -/
def itsFlashFsFileDelete (fid : FileId) : FsM Unit := do
  let (delFileIdx, _) ← (itsFlashFsMblockGetFileIdxMeta cfg fid).orStatus .doesNotExist
  itsFlashFsDeleteIdx cfg delFileIdx

/-- `its_flash_fs_file_read`. -/
def itsFlashFsFileRead (fid : FileId) (size offset : ℕ) : FsM Bytes := do
  let (_, tmpMetadata) ← (itsFlashFsMblockGetFileIdxMeta cfg fid).orStatus .doesNotExist
  ensure (itsUtilsCheckContainedIn tmpMetadata.curSize offset size) .invalidArgument
  (itsFlashFsDblockReadFile tmpMetadata offset size).orStatus .genericError

end TrustedFirmwareM.Its
