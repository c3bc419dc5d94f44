import TrustedFirmwareM.Its.Reading

/-!
# The layout of a mounted file system

`Packed` is about the metadata alone: the files of a logical block lie one after the other, from the
start of the data to the start of the free space.  `Layout` adds what the context and the flash say:
which physical blocks are in use, and that the scratch blocks are erased.
-/

namespace TrustedFirmwareM.Its

variable {cfg : Config} {W : ℕ → ℕ → Prop} {ctx : Ctx} {f : Flash}

/-- The configurations that `its_flash_fs_validate_config` accepts. -/
structure ValidConfig (cfg : Config) : Prop where
  /-- There are two metadata blocks. -/
  two_le : 2 ≤ cfg.numBlocks
  /-- Dedicated data blocks come with a scratch data block. -/
  ne_three : cfg.numBlocks ≠ 3
  /-- Metadata fits in a block. -/
  metadata_le : metadataEnd cfg ≤ cfg.blockSize
  /-- The largest file fits in a block. -/
  maxFileSize_le : cfg.maxFileSize ≤ cfg.blockSize

theorem numActiveDblocks_eq (cfg : Config) (two_le : 2 ≤ cfg.numBlocks) :
    itsFlashFsNumActiveDblocks cfg = itsNumActiveDblocks cfg := by
  simp only [itsFlashFsNumActiveDblocks, itsNumActiveDblocks, itsNumDedicatedDblocks,
    itsInitDblockStart]
  split
  · rfl
  · omega

theorem validConfig_of_validate (valid : itsFlashFsValidateConfig cfg = true) :
    ValidConfig cfg := by
  simp only [itsFlashFsValidateConfig, Bool.and_eq_true, Bool.not_eq_true', Bool.or_eq_false_iff,
    decide_eq_false_iff_not, not_lt] at valid
  obtain ⟨⟨⟨⟨two_le, ne_three⟩, _⟩, maxFileSize_le⟩, metadata_le⟩ := valid
  rw [itsFlashFsAllMetadataSize, numActiveDblocks_eq cfg two_le] at metadata_le
  exact ⟨two_le, ne_three, metadata_le, maxFileSize_le⟩

/-- The start of the data of a logical block. -/
def dataStart (cfg : Config) (l : ℕ) : ℕ := if l = 0 then metadataEnd cfg else 0

/-- The files of the logical blocks lie one after the other. -/
structure Packed (cfg : Config) (file : ℕ → FileMeta cfg) (free : ℕ → ℕ) : Prop where
  /-- Entries name a logical block. -/
  lblock_lt : ∀ i < cfg.maxNumFiles, (file i).lblock < itsNumActiveDblocks cfg
  /-- The data of a file fits in the space that is reserved for it. -/
  curSize_le : ∀ i < cfg.maxNumFiles, (file i).Live → (file i).curSize ≤ (file i).maxSize
  /-- No file is larger than the configuration allows. -/
  maxSize_le : ∀ i < cfg.maxNumFiles, (file i).Live → (file i).maxSize ≤ cfg.maxFileSize
  /-- Files lie behind the start of the data. -/
  start_le : ∀ i < cfg.maxNumFiles, (file i).Live →
    dataStart cfg (file i).lblock ≤ (file i).dataIdx
  /-- Files lie before the free space. -/
  end_le : ∀ i < cfg.maxNumFiles, (file i).Live →
    (file i).dataIdx + (file i).maxSize + free (file i).lblock ≤ cfg.blockSize
  /-- Files of a block do not overlap. -/
  apart : ∀ i < cfg.maxNumFiles, ∀ j < cfg.maxNumFiles, i ≠ j → (file i).Live → (file j).Live →
    (file i).lblock = (file j).lblock →
      (file i).dataIdx + (file i).maxSize ≤ (file j).dataIdx ∨
        (file j).dataIdx + (file j).maxSize ≤ (file i).dataIdx
  /-- There are no gaps between them. -/
  cover : ∀ l < itsNumActiveDblocks cfg, ∀ o, dataStart cfg l ≤ o → o + free l < cfg.blockSize →
    ∃ i < cfg.maxNumFiles, (file i).Live ∧ (file i).lblock = l ∧ (file i).dataIdx ≤ o ∧
      o < (file i).dataIdx + (file i).maxSize
  /-- The free space is part of the block. -/
  free_le : ∀ l < itsNumActiveDblocks cfg, dataStart cfg l + free l ≤ cfg.blockSize

/-- The physical blocks in use, given the metadata of the logical blocks and the scratch blocks. -/
structure BlocksApart (cfg : Config) (active scratch scratchDblock : ℕ) (block : ℕ → BlockMeta) :
    Prop where
  /-- One metadata block is active and the other one is not. -/
  metablocks : (active = 0 ∧ scratch = 1) ∨ (active = 1 ∧ scratch = 0)
  /-- Logical block 0 is in the active metadata block. -/
  phyId_zero : (block 0).phyId = active
  /-- The other logical blocks are behind the metadata blocks. -/
  phyId_bounds : ∀ l < itsNumActiveDblocks cfg, l ≠ 0 →
    2 ≤ (block l).phyId ∧ (block l).phyId < cfg.numBlocks
  /-- Logical blocks are in different physical blocks. -/
  phyId_inj : ∀ l < itsNumActiveDblocks cfg, ∀ l' < itsNumActiveDblocks cfg, l ≠ l' →
    (block l).phyId ≠ (block l').phyId
  /-- The data of a logical block starts where it should. -/
  dataStart_eq : ∀ l < itsNumActiveDblocks cfg, (block l).dataStart = dataStart cfg l
  /-- The scratch data block is behind the metadata blocks. -/
  scratchDblock_bounds : 2 < cfg.numBlocks → 2 ≤ scratchDblock ∧ scratchDblock < cfg.numBlocks
  /-- The scratch data block is not in use. -/
  scratchDblock_ne : 2 < cfg.numBlocks → ∀ l < itsNumActiveDblocks cfg,
    (block l).phyId ≠ scratchDblock

/-- The metadata of the logical blocks in use. -/
abbrev Ctx.blockMeta (cfg : Config) (ctx : Ctx) (f : Flash) (l : ℕ) : BlockMeta :=
  blockMetaAt cfg (f ctx.activeMetablock) l

/-- The metadata of the files in use. -/
abbrev Ctx.fileMeta (cfg : Config) (ctx : Ctx) (f : Flash) (i : ℕ) : FileMeta cfg :=
  fileMetaAt cfg (f ctx.activeMetablock) i

/-- A byte of a logical block. -/
def Ctx.cell (cfg : Config) (ctx : Ctx) (f : Flash) (l o : ℕ) : UInt8 :=
  f (ctx.blockMeta cfg f l).phyId o

/-- The file system is mounted and its scratch blocks are erased. -/
structure Layout (cfg : Config) (ctx : Ctx) (f : Flash) : Prop where
  /-- The configuration is valid. -/
  config : ValidConfig cfg
  /-- The files lie one after the other. -/
  packed : Packed cfg (ctx.fileMeta cfg f) fun l ↦ (ctx.blockMeta cfg f l).freeSize
  /-- The blocks in use are different ones. -/
  blocks : BlocksApart cfg ctx.activeMetablock ctx.scratchMetablock
    ctx.metaBlockHeader.scratchDblock (ctx.blockMeta cfg f)
  /-- The scratch metadata block is erased. -/
  erased_metablock : ∀ o < cfg.blockSize, f ctx.scratchMetablock o = cfg.eraseVal
  /-- The scratch data block is erased. -/
  erased_dblock : 2 < cfg.numBlocks → ∀ o < cfg.blockSize,
    f ctx.metaBlockHeader.scratchDblock o = cfg.eraseVal

theorem two_lt_of_lblock {l : ℕ} (config : ValidConfig cfg) (bound : l < itsNumActiveDblocks cfg)
    (ne_zero : l ≠ 0) : 2 < cfg.numBlocks := by
  simp only [itsNumActiveDblocks, itsNumDedicatedDblocks] at bound
  have two_le := config.two_le
  split at bound <;> omega

theorem numActiveDblocks_pos (cfg : Config) : 0 < itsNumActiveDblocks cfg := Nat.succ_pos _

theorem headerSize_le_metadataEnd (cfg : Config) : itsBlockMetaHeaderSize cfg ≤ metadataEnd cfg :=
  headerSize_le_fileMetaOffset cfg _

theorem BlocksApart.active_ne_scratch {active scratch scratchDblock : ℕ} {block : ℕ → BlockMeta}
    (blocks : BlocksApart cfg active scratch scratchDblock block) : active ≠ scratch := by
  have metablocks := blocks.metablocks
  omega

theorem BlocksApart.active_lt {active scratch scratchDblock : ℕ} {block : ℕ → BlockMeta}
    (blocks : BlocksApart cfg active scratch scratchDblock block) : active < 2 ∧ scratch < 2 := by
  have metablocks := blocks.metablocks
  omega

theorem validate_of_packed {file : ℕ → FileMeta cfg} {free : ℕ → ℕ} (packed : Packed cfg file free)
    {i : ℕ} (bound : i < cfg.maxNumFiles) : itsMblockValidateFileMeta (file i) = true := by
  rw [itsMblockValidateFileMeta, Bool.and_eq_true, decide_eq_true_eq]
  refine ⟨packed.lblock_lt i bound, ?_⟩
  by_cases live : (file i).Live
  · have start_le := packed.start_le i bound live
    have end_le := packed.end_le i bound live
    rw [Bool.or_eq_true]
    right
    simp only [Bool.and_eq_true, Bool.or_eq_true, decide_eq_true_eq,
      itsUtilsCheckContainedIn_iff cfg.blockSize_lt]
    refine ⟨⟨⟨packed.maxSize_le i bound live, packed.curSize_le i bound live⟩, ?_⟩, by omega⟩
    rw [dataStart] at start_le
    by_cases zero : (file i).lblock = 0
    · rw [if_pos zero] at start_le
      exact .inr start_le
    · exact .inl zero
  · rw [itsUtilsValidateFid, decide_eq_false live]
    rfl

theorem Layout.entriesValid (layout : Layout cfg ctx f) :
    EntriesValid cfg (f ctx.activeMetablock) := by
  refine ⟨fun i bound ↦ validate_of_packed layout.packed bound, fun l bound ↦ ?_⟩
  have start_eq := layout.blocks.dataStart_eq l bound
  have free_le := layout.packed.free_le l bound
  have two_le := layout.config.two_le
  have metablocks := layout.blocks.metablocks
  simp only [itsMblockValidateBlockMeta, validateBlockMetaWith, Bool.and_eq_true, decide_eq_true_eq,
    itsUtilsCheckContainedIn_iff cfg.blockSize_lt, start_eq]
  by_cases zero : l = 0
  · cases zero
    have phyId := layout.blocks.phyId_zero
    rw [phyId]
    refine ⟨⟨by omega, free_le⟩, ?_⟩
    rw [dataStart, if_pos rfl, if_pos]
    · rfl
    · simp only [itsMetadataBlock0, itsMetadataBlock1]
      omega
  · have phyId := layout.blocks.phyId_bounds l bound zero
    have behind : ¬((ctx.blockMeta cfg f l).phyId = itsMetadataBlock0 ∨
        (ctx.blockMeta cfg f l).phyId = itsMetadataBlock1) := by
      simp only [itsMetadataBlock0, itsMetadataBlock1]
      omega
    exact ⟨⟨phyId.2, free_le⟩, by rw [dataStart, if_neg zero, if_neg behind]⟩

theorem Layout.blank_metablock (layout : Layout cfg ctx f) {o : ℕ} (bound : o < cfg.blockSize) :
    cfg.Blank (f ctx.scratchMetablock o) := by
  rw [layout.erased_metablock o bound]
  exact cfg.blank_eraseVal

theorem Layout.blank_dblock (layout : Layout cfg ctx f) (large : 2 < cfg.numBlocks) {o : ℕ}
    (bound : o < cfg.blockSize) : cfg.Blank (f ctx.metaBlockHeader.scratchDblock o) := by
  rw [layout.erased_dblock large o bound]
  exact cfg.blank_eraseVal

theorem Layout.metadata_lt (layout : Layout cfg ctx f) : metadataEnd cfg < 2 ^ 32 :=
  Nat.lt_of_le_of_lt layout.config.metadata_le cfg.blockSize_lt

theorem Layout.runs_readFileMeta (layout : Layout cfg ctx f) {i : ℕ} (bound : i < cfg.maxNumFiles) :
    Runs cfg W (itsFlashFsMblockReadFileMeta cfg i) ctx f (.ok (ctx.fileMeta cfg f i)) ctx f :=
  Its.runs_readFileMeta (layout.entriesValid.file i bound)

theorem Layout.runs_readBlockMetadata (layout : Layout cfg ctx f) {l : ℕ}
    (bound : l < itsNumActiveDblocks cfg) :
    Runs cfg W (itsFlashFsMblockReadBlockMetadata cfg l) ctx f
      (.ok (ctx.blockMeta cfg f l)) ctx f :=
  Its.runs_readBlockMetadata (layout.entriesValid.block l bound)

end TrustedFirmwareM.Its
