import TrustedFirmwareM.Its.Metadata

/-!
# Metadata blocks

The functions of `its_flash_fs_mblock.c`.  One of two metadata blocks is active; an update fills the
other one, the scratch metadata block, and commits it by writing its header.  The model is the
build that validates metadata from flash.
-/

namespace TrustedFirmwareM.Its

open Program

/-- `its_flash_fs_ctx_t`, without the configuration. -/
structure Ctx where
  /-- Metadata block header. -/
  metaBlockHeader : MetadataBlockHeader
  /-- Active metadata block. -/
  activeMetablock : ℕ
  /-- Scratch metadata block. -/
  scratchMetablock : ℕ

/-- A function of the file system.  The context is lost when the power is. -/
abbrev FsM (α : Type) := ExceptT Status (Proc Ctx FlashOp FlashOp.Result) α

/-- Issue an operation of the driver. -/
def FlashOp.call (o : FlashOp) : FsM o.Value := ExceptT.mk (Proc.call o)

/-- The context. -/
def getCtx : FsM Ctx := ExceptT.mk (Proc.get >>= fun ctx ↦ pure (.ok ctx))

/-- Change the context. -/
def modifyCtx (f : Ctx → Ctx) : FsM Unit :=
  ExceptT.mk (Proc.modify f >>= fun _ ↦ pure (.ok ()))

variable {α : Type}

/-- Look at what a function returns. -/
def FsM.result (p : FsM α) : FsM (Except Status α) :=
  ExceptT.mk (p.run >>= fun result ↦ pure (.ok result))

/-- Return a fixed error in place of any other one. -/
def FsM.orStatus (p : FsM α) (status : Status) : FsM α :=
  ExceptT.mk (p.run >>= fun result ↦ pure (result.mapError fun _ ↦ status))

/-- Return an error unless a condition holds. -/
def ensure (condition : Bool) (status : Status) : FsM Unit :=
  if condition then pure () else throw status

/-- `ITS_SUPPORTED_VERSION`. -/
def itsSupportedVersion : UInt8 := 0x02

/-- `ITS_BACKWARD_SUPPORTED_VERSION`. -/
def itsBackwardSupportedVersion : UInt8 := 0x01

/-- `ITS_LOGICAL_DBLOCK0`. -/
def itsLogicalDblock0 : ℕ := 0

/-- `ITS_METADATA_BLOCK0`. -/
def itsMetadataBlock0 : ℕ := 0

/-- `ITS_METADATA_BLOCK1`. -/
def itsMetadataBlock1 : ℕ := 1

/-- `ITS_OTHER_META_BLOCK`. -/
def itsOtherMetaBlock (metablock : ℕ) : ℕ :=
  if metablock = itsMetadataBlock0 then itsMetadataBlock1 else itsMetadataBlock0

/-- `ITS_MAX_BLOCK_DATA_COPY`. -/
def itsMaxBlockDataCopy : ℕ := 256

variable (cfg : Config)

/-! ## Layout -/

/-- The size of a structure that is programmed to flash. -/
def Config.padded (size : ℕ) : ℕ :=
  (size + (cfg.maxAlignment - 1)) / cfg.maxAlignment * cfg.maxAlignment

/-- `ITS_BLOCK_META_HEADER_SIZE`, also the size of `its_metadata_block_header_comp_t`. -/
def itsBlockMetaHeaderSize : ℕ := cfg.padded 8

/-- `ITS_BLOCK_METADATA_SIZE`. -/
def itsBlockMetadataSize : ℕ := cfg.padded 12

/-- `ITS_FILE_METADATA_SIZE`. -/
def itsFileMetadataSize : ℕ := cfg.padded (32 + cfg.nonceLength + cfg.tagLength)

/-- `its_init_scratch_dblock`. -/
def itsInitScratchDblock : ℕ := if cfg.numBlocks = 2 then 1 else 2

/-- `its_init_dblock_start`. -/
def itsInitDblockStart : ℕ := if cfg.numBlocks = 2 then 0 else 3

/-- `its_num_dedicated_dblocks`. -/
def itsNumDedicatedDblocks : ℕ :=
  if cfg.numBlocks = 2 then 0 else cfg.numBlocks - itsInitDblockStart cfg

/-- `its_num_active_dblocks`. -/
def itsNumActiveDblocks : ℕ := itsNumDedicatedDblocks cfg + 1

/-- `its_mblock_block_meta_offset`. -/
def itsMblockBlockMetaOffset (lblock : ℕ) : ℕ :=
  itsBlockMetaHeaderSize cfg + lblock * itsBlockMetadataSize cfg

/-- `its_mblock_file_meta_offset`. -/
def itsMblockFileMetaOffset (idx : ℕ) : ℕ :=
  itsBlockMetaHeaderSize cfg + itsNumActiveDblocks cfg * itsBlockMetadataSize cfg +
    idx * itsFileMetadataSize cfg

/-! ## Validation -/

/-- `its_utils_validate_fid`. -/
def itsUtilsValidateFid (fid : FileId) : Bool := decide (fid ≠ 0)

/-- `its_mblock_latest_meta_block`. -/
def itsMblockLatestMetaBlock (hMeta0 hMeta1 : MetadataBlockHeader) : ℕ :=
  let rolloverVal : UInt8 := if cfg.eraseVal = 0x00 then 1 else 0
  if hMeta1.activeSwapCount = rolloverVal ∧ hMeta0.activeSwapCount ≠ rolloverVal + 1 then
    itsMetadataBlock1
  else if hMeta0.activeSwapCount = rolloverVal ∧ hMeta1.activeSwapCount ≠ rolloverVal + 1 then
    itsMetadataBlock0
  else if hMeta1.activeSwapCount > hMeta0.activeSwapCount then itsMetadataBlock1
  else itsMetadataBlock0

variable {cfg} in
/-- `its_mblock_validate_file_meta`. -/
def itsMblockValidateFileMeta (fileMeta : FileMeta cfg) : Bool :=
  decide (fileMeta.lblock < itsNumActiveDblocks cfg) &&
    (!itsUtilsValidateFid fileMeta.id ||
      (decide (fileMeta.maxSize ≤ cfg.maxFileSize) &&
        decide (fileMeta.curSize ≤ fileMeta.maxSize) &&
        (decide (fileMeta.lblock ≠ itsLogicalDblock0) ||
          decide (itsMblockFileMetaOffset cfg cfg.maxNumFiles ≤ fileMeta.dataIdx)) &&
        itsUtilsCheckContainedIn cfg.blockSize fileMeta.dataIdx fileMeta.maxSize))

/-- The checks of the metadata of a block, with the start of the data in a metadata block. -/
def validateBlockMetaWith (metadataEnd : ℕ) (blockMeta : BlockMeta) : Bool :=
  decide (blockMeta.phyId < cfg.numBlocks) &&
    itsUtilsCheckContainedIn cfg.blockSize blockMeta.dataStart blockMeta.freeSize &&
    decide (blockMeta.dataStart =
      if blockMeta.phyId = itsMetadataBlock0 ∨ blockMeta.phyId = itsMetadataBlock1 then metadataEnd
      else 0)

/-- `its_mblock_validate_block_meta`. -/
def itsMblockValidateBlockMeta (blockMeta : BlockMeta) : Bool :=
  validateBlockMetaWith cfg (itsMblockFileMetaOffset cfg cfg.maxNumFiles) blockMeta

/-- `its_mblock_validate_block_meta_comp`. -/
def itsMblockValidateBlockMetaComp (blockMeta : BlockMeta) : Bool :=
  validateBlockMetaWith cfg
    (itsBlockMetaHeaderSize cfg + itsNumActiveDblocks cfg * itsBlockMetadataSize cfg +
      cfg.maxNumFiles * itsFileMetadataSize cfg) blockMeta

/-- The XOR of a number of bytes. -/
def xorBytes (raw : Bytes) (size : ℕ) (xorValue : UInt8) : UInt8 :=
  (List.range size).foldl (fun xorValue j ↦ xorValue ^^^ raw j) xorValue

/-- Read the entries of a table and update the XOR value with each of them. -/
def xorEntries (blockId size : ℕ) (offset : ℕ → ℕ) : List ℕ → UInt8 → FsM UInt8
  | [], xorValue => pure xorValue
  | i :: rest, xorValue => do
      let metadata ← (FlashOp.read blockId (offset i) size).call
      xorEntries blockId size offset rest (xorBytes metadata size xorValue)

/-- `its_mblock_calculate_metadata_xor`. -/
def itsMblockCalculateMetadataXor (blockId : ℕ) : FsM UInt8 := do
  ensure (blockId == itsMetadataBlock0 || blockId == itsMetadataBlock1) .invalidArgument
  let xorValue ← xorEntries blockId (itsBlockMetadataSize cfg) (itsMblockBlockMetaOffset cfg)
    (List.range (itsNumActiveDblocks cfg)) 0
  xorEntries blockId (itsFileMetadataSize cfg) (itsMblockFileMetaOffset cfg)
    (List.range cfg.maxNumFiles) xorValue

/-- `its_mblock_validate_metadata_xor`. -/
def itsMblockValidateMetadataXor (hMeta : MetadataBlockHeader) (blockId : ℕ) : FsM Unit := do
  let xorValue ← itsMblockCalculateMetadataXor cfg blockId
  ensure (xorValue == hMeta.metadataXor) .storageFailure

/-- `its_mblock_validate_swap_count`. -/
def itsMblockValidateSwapCount (swapCount : UInt8) : FsM Unit :=
  ensure (swapCount != cfg.eraseVal) .genericError

/-- `its_mblock_validate_fs_version`, which tells whether the version is a backward one. -/
def itsMblockValidateFsVersion (fsVersion : UInt8) : FsM Bool :=
  if fsVersion = itsBackwardSupportedVersion then pure true
  else if fsVersion = itsSupportedVersion then pure false
  else throw .genericError

/-- `its_mblock_validate_header_meta`. -/
def itsMblockValidateHeaderMeta (hMeta : MetadataBlockHeader) (blockId : ℕ) : FsM Unit := do
  let backwardCompatible ← itsMblockValidateFsVersion hMeta.fsVersion
  if backwardCompatible then itsMblockValidateSwapCount cfg hMeta.compActiveSwapCount
  else
    itsMblockValidateSwapCount cfg hMeta.activeSwapCount
    itsMblockValidateMetadataXor cfg hMeta blockId

/-! ## Metadata of files and blocks -/

/-- `its_flash_fs_mblock_read_file_meta`. -/
def itsFlashFsMblockReadFileMeta (idx : ℕ) : FsM (FileMeta cfg) := do
  let ctx ← getCtx
  let raw ← (FlashOp.read ctx.activeMetablock (itsMblockFileMetaOffset cfg idx)
    (itsFileMetadataSize cfg)).call
  ensure (itsMblockValidateFileMeta (FileMeta.decode raw : FileMeta cfg)) .dataCorrupt
  pure (FileMeta.decode raw)

/-- `its_flash_fs_mblock_read_block_metadata`. -/
def itsFlashFsMblockReadBlockMetadata (lblock : ℕ) : FsM BlockMeta := do
  let ctx ← getCtx
  let raw ← (FlashOp.read ctx.activeMetablock (itsMblockBlockMetaOffset cfg lblock)
    (itsBlockMetadataSize cfg)).call
  ensure (itsMblockValidateBlockMeta cfg (BlockMeta.decode raw)) .dataCorrupt
  pure (BlockMeta.decode raw)

/-- `its_flash_fs_mblock_read_block_metadata_comp`. -/
def itsFlashFsMblockReadBlockMetadataComp (lblock : ℕ) : FsM BlockMeta := do
  let ctx ← getCtx
  let raw ← (FlashOp.read ctx.activeMetablock
    (itsBlockMetaHeaderSize cfg + lblock * itsBlockMetadataSize cfg)
      (itsBlockMetadataSize cfg)).call
  ensure (itsMblockValidateBlockMetaComp cfg (BlockMeta.decode raw)) .dataCorrupt
  pure (BlockMeta.decode raw)

variable {cfg} in
/-- `its_flash_fs_mblock_update_scratch_file_meta`. -/
def itsFlashFsMblockUpdateScratchFileMeta (idx : ℕ) (fileMeta : FileMeta cfg) : FsM Unit := do
  let ctx ← getCtx
  (FlashOp.write ctx.scratchMetablock (itsMblockFileMetaOffset cfg idx) (itsFileMetadataSize cfg)
    fileMeta.encode).call

/-- `its_mblock_update_scratch_block_meta`. -/
def itsMblockUpdateScratchBlockMeta (lblock : ℕ) (blockMeta : BlockMeta) : FsM Unit := do
  let ctx ← getCtx
  (FlashOp.write ctx.scratchMetablock (itsMblockBlockMetaOffset cfg lblock)
    (itsBlockMetadataSize cfg) blockMeta.encode).call

/-- The loop of `its_flash_fs_block_to_block_move`, with a bound on the number of its passes. -/
def blockToBlockMoveLoop (dstBlock srcBlock : ℕ) : ℕ → ℕ → ℕ → ℕ → FsM Unit
  | 0, _, _, _ => pure ()
  | passes + 1, dstOffset, srcOffset, size =>
      if size = 0 then pure ()
      else do
        let bytesToMove := min size itsMaxBlockDataCopy
        let dstBlockDataCopy ← (FlashOp.read srcBlock srcOffset bytesToMove).call
        (FlashOp.write dstBlock dstOffset bytesToMove dstBlockDataCopy).call
        blockToBlockMoveLoop dstBlock srcBlock passes (add32 dstOffset bytesToMove)
          (add32 srcOffset bytesToMove) (size - bytesToMove)

/-- `its_flash_fs_block_to_block_move`. -/
def itsFlashFsBlockToBlockMove (dstBlock dstOffset srcBlock srcOffset size : ℕ) : FsM Unit :=
  blockToBlockMoveLoop dstBlock srcBlock size dstOffset srcOffset size

/-- `its_mblock_copy_remaining_block_meta`. -/
def itsMblockCopyRemainingBlockMeta (lblock : ℕ) : FsM Unit := do
  let ctx ← getCtx
  if lblock ≠ itsLogicalDblock0 then
    let blockMeta ← (itsFlashFsMblockReadBlockMetadata cfg itsLogicalDblock0).orStatus .genericError
    (itsMblockUpdateScratchBlockMeta cfg itsLogicalDblock0
      { blockMeta with phyId := ctx.scratchMetablock }).orStatus .genericError
    if lblock > 1 then
      itsFlashFsBlockToBlockMove ctx.scratchMetablock
        (itsMblockBlockMetaOffset cfg (itsLogicalDblock0 + 1)) ctx.activeMetablock
        (itsMblockBlockMetaOffset cfg (itsLogicalDblock0 + 1))
        (sub32 (itsMblockBlockMetaOffset cfg lblock)
          (itsMblockBlockMetaOffset cfg (itsLogicalDblock0 + 1)))
  itsFlashFsBlockToBlockMove ctx.scratchMetablock (itsMblockBlockMetaOffset cfg (lblock + 1))
    ctx.activeMetablock (itsMblockBlockMetaOffset cfg (lblock + 1))
    (sub32 (itsMblockFileMetaOffset cfg 0) (itsMblockBlockMetaOffset cfg (lblock + 1)))

/-- `its_flash_fs_mblock_update_scratch_block_meta`. -/
def itsFlashFsMblockUpdateScratchBlockMeta (lblock : ℕ) (blockMeta : BlockMeta) : FsM Unit := do
  let ctx ← getCtx
  let blockMeta := if lblock = itsLogicalDblock0 then
    { blockMeta with phyId := ctx.scratchMetablock } else blockMeta
  (itsMblockUpdateScratchBlockMeta cfg lblock blockMeta).orStatus .genericError
  itsMblockCopyRemainingBlockMeta cfg lblock

/-- `its_flash_fs_mblock_cp_file_meta`. -/
def itsFlashFsMblockCpFileMeta (idxStart idxEnd : ℕ) : FsM Unit := do
  let ctx ← getCtx
  itsFlashFsBlockToBlockMove ctx.scratchMetablock (itsMblockFileMetaOffset cfg idxStart)
    ctx.activeMetablock (itsMblockFileMetaOffset cfg idxStart)
    (sub32 (itsMblockFileMetaOffset cfg idxEnd) (itsMblockFileMetaOffset cfg idxStart))

/-- `its_flash_fs_mblock_migrate_lb0_data_to_scratch`. -/
def itsFlashFsMblockMigrateLb0DataToScratch : FsM Unit := do
  let blockMeta ← itsFlashFsMblockReadBlockMetadata cfg itsLogicalDblock0
  let ctx ← getCtx
  itsFlashFsBlockToBlockMove ctx.scratchMetablock blockMeta.dataStart ctx.activeMetablock
    blockMeta.dataStart (sub32 (sub32 cfg.blockSize blockMeta.dataStart) blockMeta.freeSize)

/-! ## Searches -/

/-- Search the file metadata for an entry. -/
def findFileMeta (p : FileMeta cfg → Bool) : List ℕ → FsM (ℕ × FileMeta cfg)
  | [] => throw .doesNotExist
  | i :: rest => do
      let fileMeta ← (itsFlashFsMblockReadFileMeta cfg i).orStatus .genericError
      if p fileMeta then pure (i, fileMeta) else findFileMeta p rest

/-- `its_flash_fs_mblock_get_file_idx_meta`. -/
def itsFlashFsMblockGetFileIdxMeta (fid : FileId) : FsM (ℕ × FileMeta cfg) :=
  findFileMeta cfg (fun fileMeta ↦ fileMeta.id == fid) (List.range cfg.maxNumFiles)

/-- `its_flash_fs_mblock_get_file_idx_flag`. -/
def itsFlashFsMblockGetFileIdxFlag (flags : ℕ) : FsM (ℕ × FileMeta cfg) :=
  findFileMeta cfg (fun fileMeta ↦ fileMeta.flags &&& flags != 0) (List.range cfg.maxNumFiles)

/-- The loop of `its_get_free_file_index`. -/
def getFreeFileIndexLoop : Bool → List ℕ → FsM (Option ℕ)
  | _, [] => pure none
  | useSpare, i :: rest => do
      match ← (itsFlashFsMblockReadFileMeta cfg i).result with
      | .error _ => pure none
      | .ok fileMeta =>
          if itsUtilsValidateFid fileMeta.id then getFreeFileIndexLoop useSpare rest
          -- The first free file index is kept as a spare.
          else if useSpare then pure (some i) else getFreeFileIndexLoop true rest

/-- `its_get_free_file_index`.  There is no value in place of `ITS_METADATA_INVALID_INDEX`. -/
def itsGetFreeFileIndex (useSpare : Bool) : FsM (Option ℕ) :=
  getFreeFileIndexLoop cfg useSpare (List.range cfg.maxNumFiles)

variable {cfg} in
/-- The loop of `its_mblock_reserve_file`. -/
def reserveFileLoop (fid : FileId) (size flags : ℕ) (fileMeta : FileMeta cfg) :
    List ℕ → FsM (FileMeta cfg × BlockMeta)
  | [] => throw .insufficientStorage
  | i :: rest => do
      let blockMeta ← (itsFlashFsMblockReadBlockMetadata cfg i).orStatus .genericError
      if size ≤ blockMeta.freeSize then
        pure ({ fileMeta with
            lblock := i
            dataIdx := sub32 cfg.blockSize blockMeta.freeSize
            maxSize := size
            id := fid
            curSize := 0
            flags := flags },
          { blockMeta with freeSize := blockMeta.freeSize - size })
      else reserveFileLoop fid size flags fileMeta rest

variable {cfg} in
/-- `its_mblock_reserve_file`. -/
def itsMblockReserveFile (fid : FileId) (size flags : ℕ) (fileMeta : FileMeta cfg) :
    FsM (FileMeta cfg × BlockMeta) :=
  reserveFileLoop fid size flags fileMeta (List.range (itsNumActiveDblocks cfg))

variable {cfg} in
/-- `its_flash_fs_mblock_reserve_file`. -/
def itsFlashFsMblockReserveFile (fid : FileId) (useSpare : Bool) (size flags : ℕ)
    (fileMeta : FileMeta cfg) : FsM (ℕ × FileMeta cfg × BlockMeta) := do
  let reserved ← (itsMblockReserveFile fid size flags fileMeta).result
  let idx ← itsGetFreeFileIndex cfg useSpare
  match reserved, idx with
  | .ok reserved, some idx => pure (idx, reserved)
  | _, _ => throw .insufficientStorage

/-! ## Updates -/

/-- `its_flash_fs_mblock_cur_data_scratch_id`. -/
def itsFlashFsMblockCurDataScratchId (lblock : ℕ) : FsM ℕ := do
  let ctx ← getCtx
  pure (if lblock = itsLogicalDblock0 then ctx.scratchMetablock
    else ctx.metaBlockHeader.scratchDblock)

/-- `its_flash_fs_mblock_set_data_scratch`. -/
def itsFlashFsMblockSetDataScratch (phyId lblock : ℕ) : FsM Unit :=
  modifyCtx fun ctx ↦
    if lblock ≠ itsLogicalDblock0 then
      { ctx with metaBlockHeader := { ctx.metaBlockHeader with scratchDblock := phyId } }
    else ctx

/-- `its_mblock_swap_metablocks`. -/
def itsMblockSwapMetablocks : FsM Unit :=
  modifyCtx fun ctx ↦
    { ctx with
      activeMetablock := ctx.scratchMetablock
      scratchMetablock := ctx.activeMetablock }

/-- `its_mblock_erase_scratch_blocks`. -/
def itsMblockEraseScratchBlocks : FsM Unit := do
  let ctx ← getCtx
  (FlashOp.erase ctx.scratchMetablock).call
  if cfg.numBlocks > 2 then
    let scratchDatablock ← itsFlashFsMblockCurDataScratchId (itsLogicalDblock0 + 1)
    (FlashOp.erase scratchDatablock).call

/-- The swap count of the next header: the erase value is not used. -/
def nextSwapCount (eraseVal swapCount : UInt8) : UInt8 :=
  if swapCount + 1 = eraseVal then swapCount + 1 + 1 else swapCount + 1

/-- `its_mblock_write_scratch_meta_header`. -/
def itsMblockWriteScratchMetaHeader : FsM Unit := do
  modifyCtx fun ctx ↦
    { ctx with metaBlockHeader :=
        { ctx.metaBlockHeader with
          activeSwapCount := nextSwapCount cfg.eraseVal ctx.metaBlockHeader.activeSwapCount } }
  let ctx ← getCtx
  let metadataXor ← itsMblockCalculateMetadataXor cfg ctx.scratchMetablock
  modifyCtx fun ctx ↦
    { ctx with metaBlockHeader := { ctx.metaBlockHeader with metadataXor := metadataXor } }
  let ctx ← getCtx
  (FlashOp.write ctx.scratchMetablock 0 (itsBlockMetaHeaderSize cfg)
    ctx.metaBlockHeader.encode).call

/-- `its_flash_fs_mblock_meta_update_finalize`. -/
def itsFlashFsMblockMetaUpdateFinalize : FsM Unit := do
  itsMblockWriteScratchMetaHeader cfg
  let ctx ← getCtx
  (FlashOp.flush ctx.scratchMetablock).call
  itsMblockSwapMetablocks
  itsMblockEraseScratchBlocks cfg

/-- `its_mblock_upgrade_meta_header`. -/
def itsMblockUpgradeMetaHeader : FsM Unit := do
  let ctx ← getCtx
  let backwardCompatible ← itsMblockValidateFsVersion ctx.metaBlockHeader.fsVersion
  if backwardCompatible then
    let blockMeta0 ← itsFlashFsMblockReadBlockMetadataComp cfg itsLogicalDblock0
    itsFlashFsBlockToBlockMove ctx.scratchMetablock (itsMblockBlockMetaOffset cfg itsLogicalDblock0)
      ctx.activeMetablock (itsBlockMetaHeaderSize cfg)
      (sub32 (sub32 cfg.blockSize blockMeta0.freeSize) (itsBlockMetaHeaderSize cfg))
    modifyCtx fun ctx ↦
      { ctx with metaBlockHeader :=
          { ctx.metaBlockHeader with
            activeSwapCount := ctx.metaBlockHeader.compActiveSwapCount
            fsVersion := itsSupportedVersion } }
    itsFlashFsMblockMetaUpdateFinalize cfg

/-! ## Mounting -/

/-- Read the header of a metadata block and validate it; `none` stands for a block that is not
valid. -/
def validHeader (blockId : ℕ) : FsM (Option MetadataBlockHeader) := do
  match ← (FlashOp.read blockId 0 (itsBlockMetaHeaderSize cfg)).call.result with
  | .error _ => pure none
  | .ok raw =>
      match ← (itsMblockValidateHeaderMeta cfg (MetadataBlockHeader.decode raw) blockId).result with
      | .error _ => pure none
      | .ok _ => pure (some (MetadataBlockHeader.decode raw))

/-- `its_init_get_active_metablock`. -/
def itsInitGetActiveMetablock : FsM Unit := do
  let hMeta0 ← validHeader cfg itsMetadataBlock0
  let hMeta1 ← validHeader cfg itsMetadataBlock1
  let curMetaBlock ← match hMeta0, hMeta1 with
    | some hMeta0, some hMeta1 => pure (itsMblockLatestMetaBlock cfg hMeta0 hMeta1)
    | some _, none => pure itsMetadataBlock0
    | none, some _ => pure itsMetadataBlock1
    | none, none => throw .genericError
  modifyCtx fun ctx ↦
    { ctx with
      activeMetablock := curMetaBlock
      scratchMetablock := itsOtherMetaBlock curMetaBlock }

/-- `its_mblock_read_meta_header`. -/
def itsMblockReadMetaHeader : FsM Unit := do
  let ctx ← getCtx
  let raw ← (FlashOp.read ctx.activeMetablock 0 (itsBlockMetaHeaderSize cfg)).call
  modifyCtx fun ctx ↦ { ctx with metaBlockHeader := MetadataBlockHeader.decode raw }
  itsMblockValidateHeaderMeta cfg (MetadataBlockHeader.decode raw) ctx.activeMetablock

/-- `its_flash_fs_mblock_init`. -/
def itsFlashFsMblockInit : FsM Unit := do
  (itsInitGetActiveMetablock cfg).orStatus .genericError
  (itsMblockReadMetaHeader cfg).orStatus .genericError
  (itsMblockEraseScratchBlocks cfg).orStatus .genericError
  itsMblockUpgradeMetaHeader cfg

/-! ## Wiping -/

/-- Erase blocks; an error does not stop it from erasing the rest of them. -/
def eraseDblocks : List ℕ → FsM Bool
  | [] => pure true
  | block :: rest => do
      let erased ← (FlashOp.erase block).call.result
      let others ← eraseDblocks rest
      pure (erased.isOk && others)

/-- Write the metadata of the dedicated data blocks. -/
def writeDedicatedBlockMeta : List ℕ → FsM Unit
  | [] => pure ()
  | i :: rest => do
      (itsMblockUpdateScratchBlockMeta cfg (i + 1)
        { phyId := i + itsInitDblockStart cfg, dataStart := 0, freeSize := cfg.blockSize }).orStatus
        .genericError
      writeDedicatedBlockMeta rest

/-- Write cleared file metadata. -/
def writeEmptyFileMeta : List ℕ → FsM Unit
  | [] => pure ()
  | i :: rest => do
      (itsFlashFsMblockUpdateScratchFileMeta i
        (FileMeta.zero : FileMeta cfg)).orStatus .genericError
      writeEmptyFileMeta rest

/-- `its_flash_fs_mblock_reset_metablock`. -/
def itsFlashFsMblockResetMetablock : FsM Unit := do
  let found ← (itsInitGetActiveMetablock cfg).result
  let ctx ← getCtx
  -- The active metadata block is erased last.
  let metablockToEraseFirst := if found.isOk then ctx.scratchMetablock else itsMetadataBlock0
  (FlashOp.erase metablockToEraseFirst).call
  (FlashOp.erase (itsOtherMetaBlock metablockToEraseFirst)).call
  modifyCtx fun ctx ↦
    { metaBlockHeader :=
        { ctx.metaBlockHeader with
          activeSwapCount := if cfg.eraseVal = 0x00 then 1 else 0
          scratchDblock := itsInitScratchDblock cfg
          fsVersion := itsSupportedVersion }
      scratchMetablock := itsMetadataBlock1
      activeMetablock := itsMetadataBlock0 }
  let ctx ← getCtx
  let dataStart := itsMblockFileMetaOffset cfg cfg.maxNumFiles
  itsMblockUpdateScratchBlockMeta cfg itsLogicalDblock0
    { phyId := ctx.scratchMetablock, dataStart := dataStart
      freeSize := sub32 cfg.blockSize dataStart }
  let erased ← eraseDblocks
    ((List.range (itsNumDedicatedDblocks cfg)).map (· + itsInitDblockStart cfg))
  ensure erased .storageFailure
  writeDedicatedBlockMeta cfg (List.range (itsNumDedicatedDblocks cfg))
  writeEmptyFileMeta cfg (List.range cfg.maxNumFiles)
  (itsMblockWriteScratchMetaHeader cfg).orStatus .genericError
  let ctx ← getCtx
  (FlashOp.flush ctx.scratchMetablock).call
  itsMblockSwapMetablocks

end TrustedFirmwareM.Its
