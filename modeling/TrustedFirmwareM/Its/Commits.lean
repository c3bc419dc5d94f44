import TrustedFirmwareM.Its.Updates

/-!
# Committing an update

The header of the scratch metadata block is written last.  Then the metadata blocks are swapped and
the scratch blocks are erased.  The header is what tells a mount which of the metadata blocks is the
active one.
-/

namespace TrustedFirmwareM.Its

variable {cfg : Config} {W : ℕ → ℕ → Prop} {ctx ctx' : Ctx} {f f' : Flash}

/-! ## The checksum -/

/-- The XOR of a number of entries of a metadata block. -/
def xorOfEntries (block : Bytes) (size : ℕ) (offset : ℕ → ℕ) (indices : List ℕ) (xorValue : UInt8) :
    UInt8 :=
  indices.foldl (fun xorValue i ↦ xorBytes (fun j ↦ block (offset i + j)) size xorValue) xorValue

/-- The XOR of the metadata of a block. -/
def metadataXorOf (cfg : Config) (block : Bytes) : UInt8 :=
  xorOfEntries block (itsFileMetadataSize cfg) (itsMblockFileMetaOffset cfg)
    (List.range cfg.maxNumFiles)
    (xorOfEntries block (itsBlockMetadataSize cfg) (itsMblockBlockMetaOffset cfg)
      (List.range (itsNumActiveDblocks cfg)) 0)

theorem runs_xorEntries (b size : ℕ) (offset : ℕ → ℕ) (indices : List ℕ) (xorValue : UInt8) :
    Runs cfg W (xorEntries b size offset indices xorValue) ctx f
      (.ok (xorOfEntries (f b) size offset indices xorValue)) ctx f := by
  induction indices generalizing xorValue with
  | nil => exact runs_pure _
  | cons i rest ih => exact (runs_read _ _ _).bind (ih _)

theorem runs_calculateMetadataXor {b : ℕ} (metablock : b = 0 ∨ b = 1) :
    Runs cfg W (itsMblockCalculateMetadataXor cfg b) ctx f
      (.ok (metadataXorOf cfg (f b))) ctx f := by
  refine (runs_ensure ?_).bind ((runs_xorEntries _ _ _ _ _).bind (runs_xorEntries _ _ _ _ _))
  rcases metablock with rfl | rfl <;> rfl

theorem xorBytes_congr {raw raw' : Bytes} {size : ℕ} (same : ∀ j < size, raw j = raw' j)
    (xorValue : UInt8) : xorBytes raw size xorValue = xorBytes raw' size xorValue := by
  refine List.foldl_ext _ _ _ fun value j member ↦ ?_
  rw [same j (List.mem_range.1 member)]

theorem xorOfEntries_congr {block block' : Bytes} {size : ℕ} {offset : ℕ → ℕ} {indices : List ℕ}
    (same : ∀ i ∈ indices, ∀ j < size, block (offset i + j) = block' (offset i + j))
    (xorValue : UInt8) :
    xorOfEntries block size offset indices xorValue =
      xorOfEntries block' size offset indices xorValue :=
  List.foldl_ext _ _ _ fun value i member ↦ xorBytes_congr (same i member) value

theorem metadataXorOf_congr {block block' : Bytes}
    (same : ∀ o, itsBlockMetaHeaderSize cfg ≤ o → o < metadataEnd cfg → block o = block' o) :
    metadataXorOf cfg block = metadataXorOf cfg block' := by
  have header : itsMblockBlockMetaOffset cfg 0 = itsBlockMetaHeaderSize cfg :=
    blockMetaOffset_zero cfg
  have files := blockMetaOffset_numActive cfg
  have files_lo : itsMblockBlockMetaOffset cfg 0 ≤
      itsMblockBlockMetaOffset cfg (itsNumActiveDblocks cfg) :=
    blockMetaOffset_mono cfg (Nat.zero_le _)
  have files_hi : itsMblockFileMetaOffset cfg 0 ≤ metadataEnd cfg :=
    fileMetaOffset_mono cfg (Nat.zero_le _)
  have blocks : ∀ l ∈ List.range (itsNumActiveDblocks cfg), ∀ j < itsBlockMetadataSize cfg,
      block (itsMblockBlockMetaOffset cfg l + j) = block' (itsMblockBlockMetaOffset cfg l + j) := by
    intro l member j j_lt
    have lo := blockMetaOffset_mono cfg (Nat.zero_le l)
    have hi := blockMetaOffset_lt cfg (List.mem_range.1 member)
    exact same _ (by omega) (by omega)
  have entries : ∀ i ∈ List.range cfg.maxNumFiles, ∀ j < itsFileMetadataSize cfg,
      block (itsMblockFileMetaOffset cfg i + j) = block' (itsMblockFileMetaOffset cfg i + j) := by
    intro i member j j_lt
    have lo := fileMetaOffset_mono cfg (Nat.zero_le i)
    have hi : itsMblockFileMetaOffset cfg i + itsFileMetadataSize cfg ≤ metadataEnd cfg :=
      fileMetaOffset_lt cfg (List.mem_range.1 member)
    exact same _ (by omega) (by omega)
  rw [metadataXorOf, metadataXorOf, xorOfEntries_congr entries, xorOfEntries_congr blocks]

/-! ## Headers -/

/-- The header in the context is that of the active metadata block, and it is valid. -/
structure HeaderValid (cfg : Config) (ctx : Ctx) (f : Flash) : Prop where
  /-- The context holds the header. -/
  header_eq : headerAt (f ctx.activeMetablock) = ctx.metaBlockHeader
  /-- The version is the supported one. -/
  version : ctx.metaBlockHeader.fsVersion = itsSupportedVersion
  /-- The swap count is not the erase value. -/
  swapCount_ne : ctx.metaBlockHeader.activeSwapCount ≠ cfg.eraseVal
  /-- The checksum is that of the metadata. -/
  checksum : ctx.metaBlockHeader.metadataXor = metadataXorOf cfg (f ctx.activeMetablock)

theorem headerAt_congr {block block' : Bytes} (same : ∀ o < 8, block o = block' o) :
    headerAt block = headerAt block' := by
  have scratch : getU32 (fun j ↦ block (0 + j)) 0 = getU32 (fun j ↦ block' (0 + j)) 0 :=
    getU32_congr fun i bound ↦ same _ (by omega)
  simp only [headerAt, MetadataBlockHeader.decode, scratch, same (0 + 4) (by decide),
    same (0 + 5) (by decide), same (0 + 6) (by decide)]

theorem headerAt_encode {block : Bytes} {header : MetadataBlockHeader}
    (fits : header.scratchDblock < 2 ^ 32) (bytes : ∀ o < 8, block o = header.encode o) :
    headerAt block = header := by
  rw [headerAt_congr bytes, headerAt]
  simp only [Nat.zero_add]
  exact MetadataBlockHeader.decode_encode fits

theorem HeaderValid.congr (valid : HeaderValid cfg ctx f)
    (same : ∀ o < metadataEnd cfg, f' ctx.activeMetablock o = f ctx.activeMetablock o) :
    HeaderValid cfg ctx f' where
  header_eq := by
    rw [headerAt_congr fun o bound ↦ same o ?_, valid.header_eq]
    exact bound.trans_le ((le_headerSize cfg).trans (headerSize_le_fileMetaOffset cfg _))
  version := valid.version
  swapCount_ne := valid.swapCount_ne
  checksum := by
    rw [valid.checksum]
    exact metadataXorOf_congr fun o _ bound ↦ (same o bound).symm

theorem nextSwapCount_ne (eraseVal swapCount : UInt8) :
    nextSwapCount eraseVal swapCount ≠ eraseVal := by
  rw [nextSwapCount]
  split
  · next wraps =>
      rw [wraps]
      intro eq
      have bytes := congrArg UInt8.toNat eq
      have bound := eraseVal.toNat_lt
      rw [UInt8.toNat_add, UInt8.toNat_one] at bytes
      omega
  · next ne => exact ne

/-! ## Erasing -/

/-- An erased block. -/
def erasedBlock (cfg : Config) (block : Bytes) : Bytes :=
  patch block 0 cfg.blockSize fun _ ↦ cfg.eraseVal

/-- The flash after a block has been erased. -/
def eraseBlock (cfg : Config) (b : ℕ) (f : Flash) : Flash :=
  Function.update f b (erasedBlock cfg (f b))

/-- The flash after the scratch blocks have been erased. -/
def eraseScratch (cfg : Config) (ctx : Ctx) (f : Flash) : Flash :=
  let f := eraseBlock cfg ctx.scratchMetablock f
  if cfg.numBlocks > 2 then eraseBlock cfg ctx.metaBlockHeader.scratchDblock f else f

theorem erasedBlock_apply (block : Bytes) {o : ℕ} (bound : o < cfg.blockSize) :
    erasedBlock cfg block o = cfg.eraseVal :=
  patch_in ⟨Nat.zero_le o, by omega⟩

theorem eraseBlock_of_ne {b b' : ℕ} (ne : b' ≠ b) : eraseBlock cfg b f b' = f b' :=
  Function.update_of_ne ne _ _

theorem eraseBlock_self {b o : ℕ} (bound : o < cfg.blockSize) :
    eraseBlock cfg b f b o = cfg.eraseVal := by
  rw [eraseBlock, Function.update_self, erasedBlock_apply _ bound]

/-- What is erased stays erased. -/
theorem eraseBlock_erased {b b' o : ℕ} (bound : o < cfg.blockSize)
    (erased : f b' o = cfg.eraseVal) :
    eraseBlock cfg b f b' o = cfg.eraseVal := by
  rcases eq_or_ne b' b with rfl | ne
  · exact eraseBlock_self bound
  · rw [eraseBlock_of_ne ne]
    exact erased

theorem passes_erase {C : Flash → Prop} {block : ℕ} (before : C f)
    (behind : C (eraseBlock cfg block f)) :
    Passes cfg C (FlashOp.erase block).call ctx f (.ok ()) ctx (eraseBlock cfg block f) :=
  passes_call before behind

theorem passes_eraseScratchBlocks {C : Flash → Prop} (before : C f)
    (metablock : C (eraseBlock cfg ctx.scratchMetablock f)) (behind : C (eraseScratch cfg ctx f)) :
    Passes cfg C (itsMblockEraseScratchBlocks cfg) ctx f (.ok ()) ctx (eraseScratch cfg ctx f) := by
  rw [eraseScratch] at behind ⊢
  refine (runs_getCtx.passes_silent before).bind ((passes_erase before metablock).bind ?_)
  split at behind
  · next large =>
      have scratchId : Runs cfg (fun _ _ ↦ False)
          (itsFlashFsMblockCurDataScratchId (itsLogicalDblock0 + 1)) ctx
          (eraseBlock cfg ctx.scratchMetablock f) (.ok ctx.metaBlockHeader.scratchDblock) ctx
          (eraseBlock cfg ctx.scratchMetablock f) := runs_getCtx.bind (runs_pure _)
      rw [if_pos large, if_pos large]
      exact (scratchId.passes_silent metablock).bind (passes_erase metablock behind)
  · next small =>
      rw [if_neg small, if_neg small]
      exact (runs_pure _).passes_silent metablock

theorem eraseScratch_of_ne {b : ℕ} (metablock : b ≠ ctx.scratchMetablock)
    (dblock : 2 < cfg.numBlocks → b ≠ ctx.metaBlockHeader.scratchDblock) :
    eraseScratch cfg ctx f b = f b := by
  rw [eraseScratch]
  split
  · next large => rw [eraseBlock_of_ne (dblock large), eraseBlock_of_ne metablock]
  · rw [eraseBlock_of_ne metablock]

theorem eraseScratch_metablock_eq {o : ℕ} (bound : o < cfg.blockSize) :
    eraseScratch cfg ctx f ctx.scratchMetablock o = cfg.eraseVal := by
  rw [eraseScratch]
  split
  · exact eraseBlock_erased bound (eraseBlock_self bound)
  · exact eraseBlock_self bound

theorem eraseScratch_dblock_eq {o : ℕ} (large : 2 < cfg.numBlocks) (bound : o < cfg.blockSize) :
    eraseScratch cfg ctx f ctx.metaBlockHeader.scratchDblock o = cfg.eraseVal := by
  rw [eraseScratch, if_pos large]
  exact eraseBlock_self bound

/-! ## The commit -/

/-- The header that commits an update. -/
def nextHeader (cfg : Config) (ctx : Ctx) (f : Flash) : MetadataBlockHeader :=
  { ctx.metaBlockHeader with
    activeSwapCount := nextSwapCount cfg.eraseVal ctx.metaBlockHeader.activeSwapCount
    metadataXor := metadataXorOf cfg (f ctx.scratchMetablock) }

/-- The flash after the header of the scratch metadata block has been written. -/
def writeHeader (cfg : Config) (ctx : Ctx) (f : Flash) : Flash :=
  Function.update f ctx.scratchMetablock
    (patch (f ctx.scratchMetablock) 0 (itsBlockMetaHeaderSize cfg) fun i ↦
      cfg.program (f ctx.scratchMetablock (0 + i)) ((nextHeader cfg ctx f).encode i))

/-- The context after a commit. -/
def committedCtx (cfg : Config) (ctx : Ctx) (f : Flash) : Ctx where
  metaBlockHeader := nextHeader cfg ctx f
  activeMetablock := ctx.scratchMetablock
  scratchMetablock := ctx.activeMetablock

/-- The flash after a commit. -/
def committedFlash (cfg : Config) (ctx : Ctx) (f : Flash) : Flash :=
  eraseScratch cfg (committedCtx cfg ctx f) (writeHeader cfg ctx f)

theorem passes_writeScratchMetaHeader {C : Flash → Prop}
    (metablock : ctx.scratchMetablock = 0 ∨ ctx.scratchMetablock = 1) (before : C f)
    (behind : C (writeHeader cfg ctx f)) :
    Passes cfg C (itsMblockWriteScratchMetaHeader cfg) ctx f (.ok ())
      { ctx with metaBlockHeader := nextHeader cfg ctx f } (writeHeader cfg ctx f) :=
  ((runs_modifyCtx _).passes_silent before).bind ((runs_getCtx.passes_silent before).bind
    (((runs_calculateMetadataXor metablock).passes_silent before).bind
      (((runs_modifyCtx _).passes_silent before).bind ((runs_getCtx.passes_silent before).bind
        (passes_call before behind)))))

/-- The states of a commit: the header has been written, or it has not, and the scratch blocks are
erased one after the other. -/
theorem passes_metaUpdateFinalize {C : Flash → Prop}
    (metablock : ctx.scratchMetablock = 0 ∨ ctx.scratchMetablock = 1) (before : C f)
    (header : C (writeHeader cfg ctx f))
    (erased : C (eraseBlock cfg ctx.activeMetablock (writeHeader cfg ctx f)))
    (behind : C (committedFlash cfg ctx f)) :
    Passes cfg C (itsFlashFsMblockMetaUpdateFinalize cfg) ctx f (.ok ()) (committedCtx cfg ctx f)
      (committedFlash cfg ctx f) :=
  (passes_writeScratchMetaHeader metablock before header).bind
    ((runs_getCtx.passes_silent header).bind (((runs_flush _).passes_silent header).bind
      (((runs_modifyCtx _).passes_silent header).bind
        (passes_eraseScratchBlocks header erased behind))))

theorem writeHeader_of_ne {b : ℕ} (other : b ≠ ctx.scratchMetablock) :
    writeHeader cfg ctx f b = f b :=
  Function.update_of_ne other _ _

theorem writeHeader_behind {o : ℕ} (behind : itsBlockMetaHeaderSize cfg ≤ o) :
    writeHeader cfg ctx f ctx.scratchMetablock o = f ctx.scratchMetablock o := by
  rw [writeHeader, Function.update_self, patch_out (by omega)]

theorem writeHeader_header {o : ℕ} (bound : o < itsBlockMetaHeaderSize cfg)
    (blank : cfg.Blank (f ctx.scratchMetablock o)) :
    writeHeader cfg ctx f ctx.scratchMetablock o = (nextHeader cfg ctx f).encode o := by
  rw [writeHeader, Function.update_self, patch_in ⟨Nat.zero_le o, by omega⟩,
    Nat.sub_zero, Nat.zero_add, blank]

/-- The header of the new metadata block once it has been written. -/
theorem headerValid_writeHeader (version : ctx.metaBlockHeader.fsVersion = itsSupportedVersion)
    (fits : ctx.metaBlockHeader.scratchDblock < 2 ^ 32)
    (blank : ∀ o < itsBlockMetaHeaderSize cfg, cfg.Blank (f ctx.scratchMetablock o)) :
    HeaderValid cfg (committedCtx cfg ctx f) (writeHeader cfg ctx f) where
  header_eq := by
    have bytes : ∀ o < 8,
        writeHeader cfg ctx f ctx.scratchMetablock o = (nextHeader cfg ctx f).encode o := by
      intro o bound
      have bound' := bound.trans_le (le_headerSize cfg)
      exact writeHeader_header bound' (blank o bound')
    exact headerAt_encode fits bytes
  version := version
  swapCount_ne := nextSwapCount_ne _ _
  checksum := metadataXorOf_congr fun _ behind _ ↦ (writeHeader_behind behind).symm

/-- A commit of an update whose metadata is in order. -/
structure Committed (cfg : Config) (ctx : Ctx) (f : Flash) (ctx' : Ctx) (f' : Flash) : Prop where
  /-- The metadata blocks are swapped. -/
  active : ctx'.activeMetablock = ctx.scratchMetablock
  /-- The metadata blocks are swapped. -/
  scratch : ctx'.scratchMetablock = ctx.activeMetablock
  /-- The scratch data block is the one that was chosen. -/
  scratchDblock : ctx'.metaBlockHeader.scratchDblock = ctx.metaBlockHeader.scratchDblock
  /-- The new metadata block is as it was, behind the header. -/
  metablock : ∀ o, itsBlockMetaHeaderSize cfg ≤ o →
    f' ctx.scratchMetablock o = f ctx.scratchMetablock o
  /-- Other blocks are as they were. -/
  others : ∀ b, b ≠ ctx.activeMetablock → b ≠ ctx.scratchMetablock →
    (2 < cfg.numBlocks → b ≠ ctx.metaBlockHeader.scratchDblock) → f' b = f b
  /-- The scratch metadata block is erased. -/
  erased_metablock : ∀ o < cfg.blockSize, f' ctx.activeMetablock o = cfg.eraseVal
  /-- The scratch data block is erased. -/
  erased_dblock : 2 < cfg.numBlocks → ∀ o < cfg.blockSize,
    f' ctx.metaBlockHeader.scratchDblock o = cfg.eraseVal
  /-- The header is valid. -/
  headerValid : HeaderValid cfg ctx' f'

theorem committed_metaUpdateFinalize
    (metablocks : ctx.activeMetablock ≠ ctx.scratchMetablock)
    (dblock : 2 < cfg.numBlocks → ctx.scratchMetablock ≠ ctx.metaBlockHeader.scratchDblock)
    (version : ctx.metaBlockHeader.fsVersion = itsSupportedVersion)
    (fits : ctx.metaBlockHeader.scratchDblock < 2 ^ 32)
    (blank : ∀ o < itsBlockMetaHeaderSize cfg, cfg.Blank (f ctx.scratchMetablock o)) :
    Committed cfg ctx f (committedCtx cfg ctx f) (committedFlash cfg ctx f) where
  active := rfl
  scratch := rfl
  scratchDblock := rfl
  metablock o behind := by
    rw [committedFlash, eraseScratch_of_ne
      (show _ ≠ (committedCtx cfg ctx f).scratchMetablock from metablocks.symm) dblock,
      writeHeader_behind behind]
  others b active scratch other := by
    rw [committedFlash, eraseScratch_of_ne
      (show _ ≠ (committedCtx cfg ctx f).scratchMetablock from active) other,
      writeHeader_of_ne scratch]
  erased_metablock _ bound := eraseScratch_metablock_eq bound
  erased_dblock large _ bound := eraseScratch_dblock_eq large bound
  headerValid := by
    apply (headerValid_writeHeader version fits blank).congr
    intro o _
    have same : committedFlash cfg ctx f ctx.scratchMetablock =
        writeHeader cfg ctx f ctx.scratchMetablock :=
      eraseScratch_of_ne
        (show ctx.scratchMetablock ≠ (committedCtx cfg ctx f).scratchMetablock from metablocks.symm)
        dblock
    exact congrFun same o

theorem Committed.fileMeta_eq (committed : Committed cfg ctx f ctx' f') (i : ℕ) :
    ctx'.fileMeta cfg f' i = fileMetaAt cfg (f ctx.scratchMetablock) i := by
  rw [Ctx.fileMeta, committed.active]
  refine fileMetaAt_congr fun j _ ↦ committed.metablock _ ?_
  rw [itsMblockFileMetaOffset]
  omega

theorem Committed.blockMeta_eq (committed : Committed cfg ctx f ctx' f') (l : ℕ) :
    ctx'.blockMeta cfg f' l = blockMetaAt cfg (f ctx.scratchMetablock) l := by
  rw [Ctx.blockMeta, committed.active]
  refine blockMetaAt_congr fun j _ ↦ committed.metablock _ ?_
  rw [itsMblockBlockMetaOffset]
  omega

/-- A commit of metadata that is in order leaves a file system that is in order. -/
theorem Committed.layout (committed : Committed cfg ctx f ctx' f') (config : ValidConfig cfg)
    (packed : Packed cfg (fileMetaAt cfg (f ctx.scratchMetablock)) fun l ↦
      (blockMetaAt cfg (f ctx.scratchMetablock) l).freeSize)
    (blocks : BlocksApart cfg ctx.scratchMetablock ctx.activeMetablock
      ctx.metaBlockHeader.scratchDblock (blockMetaAt cfg (f ctx.scratchMetablock))) :
    Layout cfg ctx' f' where
  config := config
  packed := by
    have files : ctx'.fileMeta cfg f' = fileMetaAt cfg (f ctx.scratchMetablock) :=
      funext committed.fileMeta_eq
    simp only [files, committed.blockMeta_eq]
    exact packed
  blocks := by
    have entries : ctx'.blockMeta cfg f' = blockMetaAt cfg (f ctx.scratchMetablock) :=
      funext committed.blockMeta_eq
    rw [entries, committed.active, committed.scratch, committed.scratchDblock]
    exact blocks
  erased_metablock o bound := by
    rw [committed.scratch, committed.erased_metablock o bound]
  erased_dblock large o bound := by
    rw [committed.scratchDblock, committed.erased_dblock large o bound]

/-- The data of the logical blocks after a commit. -/
theorem Committed.cell_eq (committed : Committed cfg ctx f ctx' f')
    (blocks : BlocksApart cfg ctx.scratchMetablock ctx.activeMetablock
      ctx.metaBlockHeader.scratchDblock (blockMetaAt cfg (f ctx.scratchMetablock))) {l o : ℕ}
    (bound : l < itsNumActiveDblocks cfg) (behind : dataStart cfg l ≤ o) :
    ctx'.cell cfg f' l o = f (blockMetaAt cfg (f ctx.scratchMetablock) l).phyId o := by
  rw [Ctx.cell, committed.blockMeta_eq]
  by_cases zero : l = 0
  · cases zero
    rw [blocks.phyId_zero]
    rw [dataStart, if_pos rfl] at behind
    exact committed.metablock o (Nat.le_trans (headerSize_le_metadataEnd cfg) behind)
  · have bounds := blocks.phyId_bounds l bound zero
    have metablocks := blocks.active_lt
    rw [committed.others _ (by omega) (by omega) fun large ↦ blocks.scratchDblock_ne large l bound]

end TrustedFirmwareM.Its
