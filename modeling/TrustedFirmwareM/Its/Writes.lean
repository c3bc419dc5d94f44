import TrustedFirmwareM.Its.Transitions

/-!
# Writing a file

Once a write has found its file, or has reserved a new one, what it fills the scratch blocks with is
fixed: this is the update of the plan of the write.
-/

namespace TrustedFirmwareM.Its

variable {cfg : Config} {ctx : Ctx} {f : Flash}

/-- What a write goes on with once it has found its file. -/
structure WritePlan (cfg : Config) where
  /-- The index of the existing file. -/
  oldIdx : Option ℕ
  /-- The index of the file that is written. -/
  newIdx : ℕ
  /-- The metadata of the file. -/
  fileMeta : FileMeta cfg
  /-- The metadata of its block. -/
  blockMeta : BlockMeta
  /-- The metadata of the existing file if it is to be deleted. -/
  marked : FileMeta cfg
  /-- The file information. -/
  finfo : FileInfo
  /-- The size of the data. -/
  dataSize : ℕ
  /-- The offset of the data in the file. -/
  offset : ℕ
  /-- The data. -/
  data : Bytes

namespace WritePlan

variable (plan : WritePlan cfg)

/-- The size of the data as it is programmed. -/
def size : ℕ := itsUtilsAlign plan.dataSize cfg.programUnit

/-- The place of the data in the logical block. -/
def pos : ℕ := plan.fileMeta.dataIdx + plan.offset

/-- The end of the file in the logical block. -/
def fileEnd : ℕ := plan.fileMeta.dataIdx + plan.fileMeta.maxSize

/-- The metadata of the file after the write. -/
def newFile : FileMeta cfg :=
  { plan.fileMeta with
    curSize := if plan.dataSize ≠ 0 ∧ plan.offset + plan.dataSize > plan.fileMeta.curSize then
      plan.offset + plan.dataSize else plan.fileMeta.curSize
    nonce := fun i ↦ plan.finfo.nonce i
    tag := fun i ↦ plan.finfo.tag i }

/-- The new metadata of files. -/
def files (i : ℕ) : Option (FileMeta cfg) :=
  if i = plan.newIdx then some plan.newFile
  else if plan.oldIdx = some i then some plan.marked
  else none

/-- The data of the logical block with the new data in place.  The rest of the file is erased. -/
def newData (f : Flash) : Bytes := fun o ↦
  if plan.pos + plan.size ≤ o ∧ o < plan.fileEnd then cfg.eraseVal
  else patch (f plan.blockMeta.phyId) plan.pos plan.size plan.data o

/-- What the write changes. -/
def update (f : Flash) : Update cfg where
  lblock := plan.fileMeta.lblock
  rebuilt := decide (plan.dataSize ≠ 0)
  freeSize := plan.blockMeta.freeSize
  data := plan.newData f
  files := plan.files

/-- The bytes that are written while the file is looked for: the entry of an existing file that is
to be deleted. -/
def MarkWritten (ctx : Ctx) : ℕ → ℕ → Prop := fun b o ↦
  ∃ old, plan.oldIdx = some old ∧ old ≠ plan.newIdx ∧
    InRange ctx.scratchMetablock (itsMblockFileMetaOffset cfg old)
      (itsMblockFileMetaOffset cfg (old + 1)) b o

/-- The plan fits the mounted file system. -/
structure Located (ctx : Ctx) (f : Flash) : Prop where
  /-- The index is one of the file table. -/
  newIdx_lt : plan.newIdx < cfg.maxNumFiles
  /-- So is that of the existing file. -/
  oldIdx_lt : ∀ old, plan.oldIdx = some old → old < cfg.maxNumFiles
  /-- The file is in use. -/
  live : plan.fileMeta.Live
  /-- The file names a logical block. -/
  lblock_lt : plan.fileMeta.lblock < itsNumActiveDblocks cfg
  /-- The metadata of the block is that of this block. -/
  phyId_eq : plan.blockMeta.phyId = (ctx.blockMeta cfg f plan.fileMeta.lblock).phyId
  /-- The data of the block starts where it should. -/
  dataStart_eq : plan.blockMeta.dataStart = dataStart cfg plan.fileMeta.lblock
  /-- The data fits in the file so far. -/
  curSize_le : plan.fileMeta.curSize ≤ plan.fileMeta.maxSize
  /-- The file is not larger than the configuration allows. -/
  maxSize_le : plan.fileMeta.maxSize ≤ cfg.maxFileSize
  /-- The file lies behind the start of the data. -/
  start_le : dataStart cfg plan.fileMeta.lblock ≤ plan.fileMeta.dataIdx
  /-- The file lies before the free space. -/
  end_le : plan.fileEnd + plan.blockMeta.freeSize ≤ cfg.blockSize
  /-- The flags fit. -/
  flags_lt : plan.fileMeta.flags < 2 ^ 32
  /-- An existing file is written in its place, or a new one takes free space. -/
  place : (plan.oldIdx = some plan.newIdx ∧
      SamePlace (ctx.fileMeta cfg f plan.newIdx) plan.fileMeta ∧
      plan.blockMeta.freeSize = (ctx.blockMeta cfg f plan.fileMeta.lblock).freeSize) ∨
    (plan.oldIdx ≠ some plan.newIdx ∧ ¬(ctx.fileMeta cfg f plan.newIdx).Live ∧
      plan.fileMeta.dataIdx + (ctx.blockMeta cfg f plan.fileMeta.lblock).freeSize = cfg.blockSize ∧
      plan.fileMeta.maxSize ≤ (ctx.blockMeta cfg f plan.fileMeta.lblock).freeSize ∧
      plan.blockMeta.freeSize =
        (ctx.blockMeta cfg f plan.fileMeta.lblock).freeSize - plan.fileMeta.maxSize)
  /-- The existing file is marked in its place. -/
  marked : ∀ old, plan.oldIdx = some old →
    SamePlace (ctx.fileMeta cfg f old) plan.marked ∧
      plan.marked.curSize = (ctx.fileMeta cfg f old).curSize ∧ plan.marked.flags < 2 ^ 32

/-- The data can be written to the file. -/
structure Accepts : Prop where
  /-- The offset is aligned. -/
  aligned : itsUtilsIsAligned plan.offset cfg.programUnit = true
  /-- There is no gap. -/
  offset_le : plan.offset ≤ plan.fileMeta.curSize
  /-- The data fits in the file. -/
  size_le : plan.offset + plan.size ≤ plan.fileMeta.maxSize
  /-- Aligning the size does not wrap around. -/
  dataSize_le : plan.dataSize ≤ plan.size

variable {plan}

theorem newFile_samePlace : SamePlace plan.fileMeta plan.newFile := ⟨Iff.rfl, rfl, rfl, rfl⟩

theorem Located.maxSize_lt (located : plan.Located ctx f) : plan.fileMeta.maxSize < 2 ^ 16 :=
  Nat.lt_of_le_of_lt located.maxSize_le cfg.maxFileSize_lt

theorem newFile_curSize_le (located : plan.Located ctx f)
    (accepts : plan.dataSize ≠ 0 → plan.Accepts) :
    plan.newFile.curSize ≤ plan.newFile.maxSize := by
  have le := located.curSize_le
  simp only [newFile]
  split
  · next larger =>
      have accepts := accepts larger.1
      have size_le := accepts.size_le
      have dataSize_le := accepts.dataSize_le
      omega
  · exact le

theorem files_newIdx (plan : WritePlan cfg) : plan.files plan.newIdx = some plan.newFile :=
  if_pos rfl

theorem files_oldIdx {old : ℕ} (eq : plan.oldIdx = some old) (ne : old ≠ plan.newIdx) :
    plan.files old = some plan.marked := by
  rw [files, if_neg ne, if_pos eq]

theorem files_none {i : ℕ} (new : i ≠ plan.newIdx) (old : plan.oldIdx ≠ some i) :
    plan.files i = none := by
  rw [files, if_neg new, if_neg old]

theorem newFile_fits (layout : Layout cfg ctx f) (located : plan.Located ctx f)
    (accepts : plan.dataSize ≠ 0 → plan.Accepts) : plan.newFile.Fits where
  lblock := by
    have bound := fits_blockMetaAt cfg (f ctx.activeMetablock) 0
    have lblock_lt := located.lblock_lt
    have numBlocks_lt := cfg.numBlocks_lt
    have two_le := layout.config.two_le
    rw [itsNumActiveDblocks, itsNumDedicatedDblocks] at lblock_lt
    change plan.fileMeta.lblock < 2 ^ 32
    split at lblock_lt <;> omega
  dataIdx := by
    have end_le := located.end_le
    have fits := cfg.blockSize_lt
    rw [fileEnd] at end_le
    change plan.fileMeta.dataIdx < 2 ^ 32
    omega
  curSize := by
    have le := newFile_curSize_le located accepts
    have lt := located.maxSize_lt
    rw [newFile] at le
    exact Nat.lt_of_le_of_lt le (by dsimp only; omega)
  maxSize := by
    have lt := located.maxSize_lt
    exact lt.trans (by decide)
  flags := located.flags_lt

/-- The files are packed after the write. -/
theorem Located.packed (layout : Layout cfg ctx f) (located : plan.Located ctx f)
    (accepts : plan.dataSize ≠ 0 → plan.Accepts) :
    Packed cfg (fun i ↦ (plan.files i).getD (ctx.fileMeta cfg f i))
      ((plan.update f).free ctx f) := by
  have curSize_le := newFile_curSize_le located accepts
  have free_here : (plan.update f).free ctx f plan.fileMeta.lblock = plan.blockMeta.freeSize :=
    if_pos rfl
  have free_other : ∀ l, l ≠ plan.fileMeta.lblock →
      (plan.update f).free ctx f l = (ctx.blockMeta cfg f l).freeSize := fun l ne ↦ if_neg ne
  rcases located.place with ⟨old_eq, place, free⟩ | ⟨old_ne, unused, dataIdx, fits, free⟩
  · refine layout.packed.congr (fun i bound ↦ ?_) (fun i bound live ↦ ?_) fun l bound ↦ ?_
    · by_cases here : i = plan.newIdx
      · subst here
        rw [files_newIdx]
        exact ⟨place.live.trans newFile_samePlace.live, place.lblock, place.dataIdx, place.maxSize⟩
      · rw [files_none here (by rw [old_eq]; exact fun eq ↦ here (Option.some_inj.1 eq).symm)]
        exact .refl _
    · by_cases here : i = plan.newIdx
      · subst here
        rw [files_newIdx]
        exact curSize_le
      · rw [files_none here (by rw [old_eq]; exact fun eq ↦ here (Option.some_inj.1 eq).symm)]
          at live ⊢
        exact layout.packed.curSize_le i bound live
    · by_cases here : l = plan.fileMeta.lblock
      · rw [here, free_here, free]
      · rw [free_other l here]
  · have reserved : Packed cfg (Function.update (ctx.fileMeta cfg f) plan.newIdx plan.newFile)
        ((plan.update f).free ctx f) := by
      apply layout.packed.reserve located.newIdx_lt unused
      · rw [Function.update_self]
        exact ⟨located.live, located.lblock_lt, dataIdx, fits, located.maxSize_le, curSize_le⟩
      · intro i ne
        exact Function.update_of_ne ne _ _
      · rw [Function.update_self]
        exact free_here.trans free
      · rw [Function.update_self]
        exact free_other
    refine reserved.congr (fun i bound ↦ ?_) (fun i bound live ↦ ?_) fun l bound ↦ rfl
    · by_cases here : i = plan.newIdx
      · subst here
        rw [files_newIdx, Function.update_self]
        exact .refl _
      · rw [Function.update_of_ne here]
        by_cases old : plan.oldIdx = some i
        · rw [files_oldIdx old here]
          exact (located.marked i old).1
        · rw [files_none here old]
          exact .refl _
    · by_cases here : i = plan.newIdx
      · subst here
        rw [files_newIdx]
        exact curSize_le
      · by_cases old : plan.oldIdx = some i
        · have marked := located.marked i old
          rw [files_oldIdx old here, Option.getD_some] at live ⊢
          rw [marked.2.1, ← marked.1.maxSize]
          exact layout.packed.curSize_le i bound (marked.1.live.2 live)
        · rw [files_none here old] at live ⊢
          exact layout.packed.curSize_le i bound live

theorem Located.sound (layout : Layout cfg ctx f) (located : plan.Located ctx f)
    (accepts : plan.dataSize ≠ 0 → plan.Accepts) : (plan.update f).Sound ctx f where
  lblock_lt := located.lblock_lt
  files_fit i file eq := by
    change plan.files i = some file at eq
    by_cases here : i = plan.newIdx
    · subst here
      rw [files_newIdx] at eq
      cases eq
      exact newFile_fits layout located accepts
    · by_cases old : plan.oldIdx = some i
      · have marked := located.marked i old
        have fits := fits_fileMetaAt cfg (f ctx.activeMetablock) i
        rw [files_oldIdx old here] at eq
        cases eq
        exact ⟨marked.1.lblock ▸ fits.lblock, marked.1.dataIdx ▸ fits.dataIdx,
          marked.2.1 ▸ fits.curSize, marked.1.maxSize ▸ fits.maxSize, marked.2.2⟩
      · rw [files_none here old] at eq
        cases eq
  packed := located.packed layout accepts

theorem Located.blockMeta_phyId_ne (layout : Layout cfg ctx f)
    (located : plan.Located ctx f) (o : ℕ) :
    ¬plan.MarkWritten ctx plan.blockMeta.phyId o := by
  rintro ⟨old, -, -, block, -, -⟩
  have metablocks := layout.blocks.metablocks
  rw [located.phyId_eq] at block
  by_cases zero : plan.fileMeta.lblock = 0
  · rw [zero, layout.blocks.phyId_zero] at block
    omega
  · exact ((Update.scratchId_apart layout located.lblock_lt).2.2 zero).2 block.symm

/-- Nothing has been written to the data of the scratch data block. -/
theorem Located.data_unwritten (layout : Layout cfg ctx f) (located : plan.Located ctx f) {o : ℕ}
    (behind : dataStart cfg plan.fileMeta.lblock ≤ o) :
    ¬plan.MarkWritten ctx (ctx.scratchId plan.fileMeta.lblock) o := by
  rintro ⟨old, eq, -, block, -, hi⟩
  have bound : itsMblockFileMetaOffset cfg (old + 1) ≤ metadataEnd cfg :=
    fileMetaOffset_mono cfg (located.oldIdx_lt old eq)
  rw [dataStart] at behind
  by_cases zero : plan.fileMeta.lblock = 0
  · rw [if_pos zero] at behind
    omega
  · exact ((Update.scratchId_apart layout located.lblock_lt).2.2 zero).1 block.symm

/-- The context is the one that the update goes on with. -/
theorem Located.exchanged_eq (located : plan.Located ctx f) : (plan.update f).exchanged ctx f =
    if plan.dataSize ≠ 0 ∧ plan.fileMeta.lblock ≠ 0 then
      { ctx with metaBlockHeader :=
          { ctx.metaBlockHeader with scratchDblock := plan.blockMeta.phyId } }
    else ctx := by
  simp only [Update.exchanged, update, decide_eq_true_eq, located.phyId_eq]

/-! ## Steps of a write -/

/-- The metadata of the file once its data is written. -/
def dataFile (plan : WritePlan cfg) : FileMeta cfg :=
  { plan.fileMeta with
    curSize := if plan.dataSize ≠ 0 ∧ plan.offset + plan.dataSize > plan.fileMeta.curSize then
      plan.offset + plan.dataSize else plan.fileMeta.curSize }

/-- The metadata of the block once the data is written. -/
def dataBlock (plan : WritePlan cfg) (ctx : Ctx) : BlockMeta :=
  { plan.blockMeta with
    phyId :=
      if plan.dataSize ≠ 0 then ctx.scratchId plan.fileMeta.lblock else plan.blockMeta.phyId }

/-- The data is written to the scratch data block. -/
theorem Located.runs_writeFileData (layout : Layout cfg ctx f) (located : plan.Located ctx f)
    (sound : (plan.update f).Sound ctx f) (accepts : plan.dataSize ≠ 0 → plan.Accepts) {f₁ : Flash}
    (staging : Staging cfg (ScratchBytes cfg ctx) ctx f ((plan.update f).target ctx f)
      (plan.MarkWritten ctx) f₁) :
    ∃ f₂, Runs cfg (ScratchBytes cfg ctx)
        (writeFileData plan.fileMeta plan.blockMeta plan.dataSize plan.offset plan.data) ctx f₁
        (.ok (plan.dataFile, plan.dataBlock ctx)) ((plan.update f).exchanged ctx f) f₂ ∧
      Staging cfg (ScratchBytes cfg ctx) ctx f ((plan.update f).target ctx f)
        (fun b o ↦ plan.MarkWritten ctx b o ∨ plan.dataSize ≠ 0 ∧
          DataWritten (ctx.scratchId plan.fileMeta.lblock) plan.blockMeta.dataStart plan.pos
            plan.size
            plan.fileEnd (cfg.blockSize - plan.blockMeta.freeSize) b o) f₂ := by
  rw [writeFileData, located.exchanged_eq]
  by_cases empty : plan.dataSize = 0
  · refine ⟨f₁, ?_, staging.congr fun b o ↦ ?_⟩
    · rw [if_neg (not_not.2 empty), if_neg fun both ↦ both.1 empty, dataFile, dataBlock,
        if_neg fun both ↦ both.1 empty, if_neg (not_not.2 empty)]
      exact runs_pure _
    · exact ⟨.inl, fun wrote ↦ wrote.elim id fun both ↦ (both.1 empty).elim⟩
  · have accepts := accepts empty
    have size_le := accepts.size_le
    have dataSize_le := accepts.dataSize_le
    have maxSize_lt := located.maxSize_lt
    have start_le := located.start_le
    rw [← located.dataStart_eq] at start_le
    have copy : CopyTarget cfg (ScratchBytes cfg ctx) ctx f (plan.MarkWritten ctx)
        (ctx.scratchId plan.fileMeta.lblock) plan.blockMeta.phyId := by
      have unwritten := located.blockMeta_phyId_ne layout
      rw [located.phyId_eq] at unwritten ⊢
      exact Update.copyTarget layout located.lblock_lt unwritten
    have header : ctx.scratchId plan.fileMeta.lblock = ctx.scratchMetablock →
        itsBlockMetaHeaderSize cfg ≤ plan.blockMeta.dataStart := by
      intro scratch
      rw [located.dataStart_eq, dataStart]
      split
      · exact headerSize_le_metadataEnd cfg
      · next ne =>
          exact (((Update.scratchId_apart layout located.lblock_lt).2.2 ne).1 scratch.symm).elim
    have agrees : ∀ o, plan.blockMeta.dataStart ≤ o →
        o < plan.fileMeta.dataIdx + plan.offset + plan.size ∨
            plan.fileMeta.dataIdx + plan.fileMeta.maxSize ≤ o →
          (plan.update f).target ctx f (ctx.scratchId plan.fileMeta.lblock) o =
            patch (f plan.blockMeta.phyId) (plan.fileMeta.dataIdx + plan.offset) plan.size plan.data
              o := by
      intro o behind place
      rw [located.dataStart_eq] at behind
      have target : (plan.update f).target ctx f (ctx.scratchId plan.fileMeta.lblock) o =
          plan.newData f o := Update.target_scratchId layout sound (decide_eq_true empty) behind
      rw [target, newData, if_neg, pos]
      rw [pos, fileEnd]
      omega
    obtain ⟨f₂, run, staging₂⟩ := staging.runs_dblockWriteFile copy header start_le size_le
      located.end_le
      (fun o behind ↦ located.data_unwritten layout (by rw [← located.dataStart_eq]; exact behind))
      agrees
    refine ⟨f₂, ?_, staging₂.congr fun b o ↦ or_congr_right ?_⟩
    · rw [if_pos empty]
      have check : itsUtilsCheckContainedIn plan.fileMeta.maxSize plan.offset plan.size = true :=
        (itsUtilsCheckContainedIn_iff (by omega)).2 size_le
      have write : Runs cfg (ScratchBytes cfg ctx) (itsFlashFsFileWriteAlignedData plan.blockMeta
          plan.fileMeta plan.offset plan.dataSize plan.data) ctx f₁ (.ok ()) ctx f₂ :=
        (runs_ensure accepts.aligned).bind ((runs_ensure (decide_eq_true accepts.offset_le)).bind
          ((runs_ensure check).bind run))
      refine write.orStatus.bind ((runs_curDataScratchId _).bind ((runs_modifyCtx _).bind ?_))
      rw [add32_eq (by omega)]
      have file : plan.dataFile = { plan.fileMeta with
          curSize := if plan.offset + plan.dataSize > plan.fileMeta.curSize then
            plan.offset + plan.dataSize else plan.fileMeta.curSize } := by
        simp only [dataFile, ne_eq, empty, not_false_eq_true, true_and]
      have block : plan.dataBlock ctx = { plan.blockMeta with
          phyId := ctx.scratchId plan.fileMeta.lblock } := by
        rw [dataBlock, if_pos empty]
      have after : (if plan.dataSize ≠ 0 ∧ plan.fileMeta.lblock ≠ 0 then
          { ctx with metaBlockHeader :=
              { ctx.metaBlockHeader with scratchDblock := plan.blockMeta.phyId } }
          else ctx) = (if plan.fileMeta.lblock ≠ itsLogicalDblock0 then
          { ctx with metaBlockHeader :=
              { ctx.metaBlockHeader with scratchDblock := plan.blockMeta.phyId } }
          else ctx) := by
        simp only [ne_eq, empty, not_false_eq_true, true_and]
        rfl
      rw [file, block, after]
      exact runs_pure _
    · exact ⟨fun wrote ↦ ⟨empty, wrote⟩, fun wrote ↦ wrote.2⟩

/-- Nothing has been written to the metadata of files but new entries. -/
structure EntriesWritten (plan : WritePlan cfg) (ctx : Ctx) (written : ℕ → ℕ → Prop) : Prop where
  /-- Only new entries have been written. -/
  only : ∀ o, itsMblockFileMetaOffset cfg 0 ≤ o → o < metadataEnd cfg →
    written ctx.scratchMetablock o →
      (itsMblockFileMetaOffset cfg plan.newIdx ≤ o ∧
          o < itsMblockFileMetaOffset cfg (plan.newIdx + 1)) ∨
        ∃ old, plan.oldIdx = some old ∧ old ≠ plan.newIdx ∧ itsMblockFileMetaOffset cfg old ≤ o ∧
          o < itsMblockFileMetaOffset cfg (old + 1)
  /-- The entry of the file has been written. -/
  new : ∀ o, itsMblockFileMetaOffset cfg plan.newIdx ≤ o →
    o < itsMblockFileMetaOffset cfg (plan.newIdx + 1) → written ctx.scratchMetablock o
  /-- The entry of a file that is to be deleted has been written. -/
  old : ∀ old, plan.oldIdx = some old → old ≠ plan.newIdx → ∀ o,
    itsMblockFileMetaOffset cfg old ≤ o → o < itsMblockFileMetaOffset cfg (old + 1) →
      written ctx.scratchMetablock o

/-- The metadata of the other files is copied. -/
theorem runs_copyOtherFileMeta {ctx₁ : Ctx} {start target f₂ : Flash} {written : ℕ → ℕ → Prop}
    {blocks : ℕ → Option BlockMeta}
    (staging : Staging cfg (ScratchBytes cfg ctx) ctx₁ start target written f₂)
    (tables : TableTarget cfg (start ctx₁.activeMetablock) (target ctx₁.scratchMetablock) blocks
      plan.files)
    (newIdx_lt : plan.newIdx < cfg.maxNumFiles)
    (oldIdx_lt : ∀ old, plan.oldIdx = some old → old < cfg.maxNumFiles)
    (entries : plan.EntriesWritten ctx₁ written) :
    ∃ f', Runs cfg (ScratchBytes cfg ctx) (copyOtherFileMeta cfg plan.oldIdx plan.newIdx) ctx₁ f₂
      (.ok ()) ctx₁ f' ∧
      Staging cfg (ScratchBytes cfg ctx) ctx₁ start target (fun b o ↦ written b o ∨
        InRange ctx₁.scratchMetablock (itsMblockFileMetaOffset cfg 0)
          (metadataEnd cfg) b o) f' := by
  have first := fileMetaOffset_mono cfg (Nat.zero_le plan.newIdx)
  have step := fileMetaOffset_mono cfg (Nat.le_succ plan.newIdx)
  have last : itsMblockFileMetaOffset cfg (plan.newIdx + 1) ≤ metadataEnd cfg :=
    fileMetaOffset_mono cfg newIdx_lt
  have last_eq : metadataEnd cfg = itsMblockFileMetaOffset cfg cfg.maxNumFiles := rfl
  rw [Nat.succ_eq_add_one] at step
  have single : (∀ old, plan.oldIdx = some old → old = plan.newIdx) → ∃ f₃ f₄,
      Runs cfg (ScratchBytes cfg ctx) (itsFlashFsMblockCpFileMeta cfg 0 plan.newIdx) ctx₁ f₂
        (.ok ()) ctx₁ f₃ ∧
      Runs cfg (ScratchBytes cfg ctx)
        (itsFlashFsMblockCpFileMeta cfg (plan.newIdx + 1) cfg.maxNumFiles) ctx₁ f₃ (.ok ())
        ctx₁ f₄ ∧
      Staging cfg (ScratchBytes cfg ctx) ctx₁ start target (fun b o ↦ written b o ∨
        InRange ctx₁.scratchMetablock (itsMblockFileMetaOffset cfg 0)
          (metadataEnd cfg) b o) f₄ := by
    intro same
    have others : ∀ i, i ≠ plan.newIdx → plan.files i = none := by
      intro i ne
      rw [files, if_neg ne, if_neg fun eq ↦ ne (same i eq)]
    have unwritten : ∀ o, itsMblockFileMetaOffset cfg 0 ≤ o → o < metadataEnd cfg →
        written ctx₁.scratchMetablock o → itsMblockFileMetaOffset cfg plan.newIdx ≤ o ∧
          o < itsMblockFileMetaOffset cfg (plan.newIdx + 1) := by
      intro o lo hi wrote
      rcases entries.only o lo hi wrote with inside | ⟨old, eq, ne, -⟩
      · exact inside
      · exact (ne (same old eq)).elim
    obtain ⟨f₃, run₃, staging₃⟩ := staging.runs_cpFileMeta tables (Nat.zero_le plan.newIdx)
      (Nat.le_of_lt newIdx_lt) (fun i _ lt ↦ others i (by omega))
      (fun o lo hi wrote ↦ by
        have inside := unwritten o lo (by omega) wrote
        omega)
    obtain ⟨f₄, run₄, staging₄⟩ := staging₃.runs_cpFileMeta tables
      (show plan.newIdx + 1 ≤ cfg.maxNumFiles from newIdx_lt) le_rfl
      (fun i le _ ↦ others i (by omega))
      (fun o lo hi wrote ↦ by
        rcases wrote with wrote | ⟨-, -, lt⟩
        · have inside := unwritten o (by omega) hi wrote
          omega
        · omega)
    refine ⟨f₃, f₄, run₃, run₄, staging₄.congr fun b o ↦ ?_⟩
    constructor
    · rintro ((wrote | ⟨block, lo, hi⟩) | ⟨block, lo, hi⟩)
      · exact .inl wrote
      · exact .inr ⟨block, lo, by omega⟩
      · exact .inr ⟨block, by omega, hi⟩
    · rintro (wrote | ⟨rfl, lo, hi⟩)
      · exact .inl (.inl wrote)
      · by_cases before : o < itsMblockFileMetaOffset cfg plan.newIdx
        · exact .inl (.inr ⟨rfl, lo, before⟩)
        · by_cases inside : o < itsMblockFileMetaOffset cfg (plan.newIdx + 1)
          · exact .inl (.inl (entries.new o (by omega) inside))
          · exact .inr ⟨rfl, by omega, hi⟩
  rw [copyOtherFileMeta.eq_def]
  cases old_eq : plan.oldIdx with
  | none =>
      obtain ⟨f₃, f₄, run₃, run₄, staging₄⟩ := single fun old eq ↦ by rw [old_eq] at eq; cases eq
      exact ⟨f₄, run₃.orStatus.bind run₄.orStatus, staging₄⟩
  | some old =>
      dsimp only
      by_cases same : old = plan.newIdx
      · obtain ⟨f₃, f₄, run₃, run₄, staging₄⟩ := single fun other eq ↦ by
          rw [old_eq] at eq
          cases eq
          exact same
        refine ⟨f₄, ?_, staging₄⟩
        rw [same, Nat.min_self, Nat.max_self, if_neg (not_not.2 rfl)]
        exact run₃.orStatus.bind run₄.orStatus
      · have old_lt := oldIdx_lt old old_eq
        have lo_lt : min plan.newIdx old < max plan.newIdx old := by omega
        have hi_lt : max plan.newIdx old < cfg.maxNumFiles := by omega
        have others : ∀ i, i ≠ plan.newIdx → i ≠ old → plan.files i = none := by
          intro i ne ne'
          rw [files, if_neg ne, old_eq, if_neg fun eq ↦ ne' (Option.some_inj.1 eq).symm]
        have entry : ∀ o, itsMblockFileMetaOffset cfg 0 ≤ o → o < metadataEnd cfg →
            written ctx₁.scratchMetablock o →
              (itsMblockFileMetaOffset cfg (min plan.newIdx old) ≤ o ∧
                  o < itsMblockFileMetaOffset cfg (min plan.newIdx old + 1)) ∨
                (itsMblockFileMetaOffset cfg (max plan.newIdx old) ≤ o ∧
                  o < itsMblockFileMetaOffset cfg (max plan.newIdx old + 1)) := by
          intro o lo hi wrote
          rcases Nat.lt_or_gt_of_ne same with before | behind
          · rw [Nat.min_eq_right before.le, Nat.max_eq_left before.le]
            rcases entries.only o lo hi wrote with inside | ⟨other, eq, -, inside⟩
            · exact .inr inside
            · rw [old_eq] at eq
              cases eq
              exact .inl inside
          · rw [Nat.min_eq_left behind.le, Nat.max_eq_right behind.le]
            rcases entries.only o lo hi wrote with inside | ⟨other, eq, -, inside⟩
            · exact .inl inside
            · rw [old_eq] at eq
              cases eq
              exact .inr inside
        have written_entry : ∀ i, i = plan.newIdx ∨ i = old → ∀ o,
            itsMblockFileMetaOffset cfg i ≤ o → o < itsMblockFileMetaOffset cfg (i + 1) →
              written ctx₁.scratchMetablock o := by
          rintro i (rfl | rfl) o lo hi
          · exact entries.new o lo hi
          · exact entries.old i old_eq same o lo hi
        have ends : (min plan.newIdx old = plan.newIdx ∨ min plan.newIdx old = old) ∧
            (max plan.newIdx old = plan.newIdx ∨ max plan.newIdx old = old) := by omega
        have not_lo : ∀ i, i < min plan.newIdx old → i ≠ plan.newIdx ∧ i ≠ old := by omega
        have not_mid : ∀ i, min plan.newIdx old + 1 ≤ i → i < max plan.newIdx old →
            i ≠ plan.newIdx ∧ i ≠ old := by omega
        have not_hi : ∀ i, max plan.newIdx old + 1 ≤ i → i ≠ plan.newIdx ∧ i ≠ old := by omega
        generalize min plan.newIdx old = lo at *
        generalize max plan.newIdx old = hi at *
        have m₀ := fileMetaOffset_mono cfg (Nat.zero_le lo)
        have m₁ : itsMblockFileMetaOffset cfg lo ≤ itsMblockFileMetaOffset cfg (lo + 1) :=
          fileMetaOffset_mono cfg (Nat.le_succ lo)
        have m₂ : itsMblockFileMetaOffset cfg (lo + 1) ≤ itsMblockFileMetaOffset cfg hi :=
          fileMetaOffset_mono cfg lo_lt
        have m₃ : itsMblockFileMetaOffset cfg hi ≤ itsMblockFileMetaOffset cfg (hi + 1) :=
          fileMetaOffset_mono cfg (Nat.le_succ hi)
        have m₄ : itsMblockFileMetaOffset cfg (hi + 1) ≤ metadataEnd cfg :=
          fileMetaOffset_mono cfg hi_lt
        obtain ⟨f₃, run₃, staging₃⟩ := staging.runs_cpFileMeta tables (Nat.zero_le lo)
          (show lo ≤ cfg.maxNumFiles by omega)
          (fun i _ lt ↦ others i (not_lo i lt).1 (not_lo i lt).2)
          (fun o le lt wrote ↦ by
            have inside := entry o le (by omega) wrote
            omega)
        obtain ⟨f₄, run₄, staging₄⟩ := staging₃.runs_cpFileMeta tables (show lo + 1 ≤ hi from lo_lt)
          (Nat.le_of_lt hi_lt) (fun i le lt ↦ others i (not_mid i le lt).1 (not_mid i le lt).2)
          (fun o le lt wrote ↦ by
            rcases wrote with wrote | ⟨-, -, lt'⟩
            · have inside := entry o (by omega) (by omega) wrote
              omega
            · omega)
        obtain ⟨f₅, run₅, staging₅⟩ := staging₄.runs_cpFileMeta tables
          (show hi + 1 ≤ cfg.maxNumFiles from hi_lt) le_rfl
          (fun i le _ ↦ others i (not_hi i le).1 (not_hi i le).2)
          (fun o le lt wrote ↦ by
            rcases wrote with (wrote | ⟨-, -, lt'⟩) | ⟨-, -, lt'⟩
            · have inside := entry o (by omega) (by omega) wrote
              omega
            · omega
            · omega)
        refine ⟨f₅, ?_, staging₅.congr fun b o ↦ ?_⟩
        · rw [if_pos same]
          exact run₃.orStatus.bind (run₄.orStatus.bind run₅.orStatus)
        · constructor
          · rintro (((wrote | ⟨block, le, lt⟩) | ⟨block, le, lt⟩) | ⟨block, le, lt⟩)
            · exact .inl wrote
            · exact .inr ⟨block, le, by omega⟩
            · exact .inr ⟨block, by omega, by omega⟩
            · exact .inr ⟨block, by omega, lt⟩
          · rintro (wrote | ⟨rfl, le, lt⟩)
            · exact .inl (.inl (.inl wrote))
            · by_cases before : o < itsMblockFileMetaOffset cfg lo
              · exact .inl (.inl (.inr ⟨rfl, le, before⟩))
              · by_cases at_lo : o < itsMblockFileMetaOffset cfg (lo + 1)
                · exact .inl (.inl (.inl (written_entry lo ends.1 o (by omega) at_lo)))
                · by_cases between : o < itsMblockFileMetaOffset cfg hi
                  · exact .inl (.inr ⟨rfl, by omega, between⟩)
                  · by_cases at_hi : o < itsMblockFileMetaOffset cfg (hi + 1)
                    · exact .inl (.inl (.inl (written_entry hi ends.2 o (by omega) at_hi)))
                    · exact .inr ⟨rfl, by omega, lt⟩

/-- The new data is behind the metadata, and only for a file of logical block 0 it is in the scratch
metadata block. -/
theorem Located.metadataEnd_le (layout : Layout cfg ctx f) (located : plan.Located ctx f) {o : ℕ}
    (wrote : DataWritten (ctx.scratchId plan.fileMeta.lblock) plan.blockMeta.dataStart plan.pos
      plan.size plan.fileEnd (cfg.blockSize - plan.blockMeta.freeSize) ctx.scratchMetablock o) :
    plan.fileMeta.lblock = 0 ∧ metadataEnd cfg ≤ o := by
  have start_le := located.start_le
  have block : ctx.scratchMetablock = ctx.scratchId plan.fileMeta.lblock := by
    rcases wrote with ⟨block, -⟩ | ⟨block, -⟩
    · exact block
    · exact block
  have zero : plan.fileMeta.lblock = 0 := by
    by_contra ne
    exact ((Update.scratchId_apart layout located.lblock_lt).2.2 ne).1 block
  rw [zero, dataStart, if_pos rfl] at start_le
  rw [DataWritten, located.dataStart_eq, zero, dataStart, if_pos rfl, fileEnd] at wrote
  refine ⟨zero, ?_⟩
  rcases wrote with ⟨-, lo, -⟩ | ⟨-, lo, -⟩
  · exact lo
  · omega

/-- The bytes that have been written once everything but the header is in place. -/
inductive Written (plan : WritePlan cfg) (ctx : Ctx) (f : Flash) (b o : ℕ) : Prop
  | marked (wrote : plan.MarkWritten ctx b o)
  | data (nonempty : plan.dataSize ≠ 0)
      (wrote : DataWritten (ctx.scratchId plan.fileMeta.lblock) plan.blockMeta.dataStart plan.pos
        plan.size plan.fileEnd (cfg.blockSize - plan.blockMeta.freeSize) b o)
  | blocks (wrote : InRange ctx.scratchMetablock (itsMblockBlockMetaOffset cfg 0)
      (itsMblockFileMetaOffset cfg 0) b o)
  | files (wrote : InRange ctx.scratchMetablock (itsMblockFileMetaOffset cfg 0)
      (metadataEnd cfg) b o)
  | migrated (apart : plan.fileMeta.lblock ≠ 0 ∨ plan.dataSize = 0)
      (wrote : InRange ctx.scratchMetablock (metadataEnd cfg)
        (cfg.blockSize - (ctx.blockMeta cfg f 0).freeSize) b o)

theorem Located.complete (layout : Layout cfg ctx f) (located : plan.Located ctx f) :
    (plan.update f).Complete ctx f (plan.Written ctx f) := by
  have header_le := headerSize_le_metadataEnd cfg
  have block_offset := headerSize_le_blockMetaOffset cfg 0
  have file_offset := headerSize_le_fileMetaOffset cfg 0
  have end_le := located.end_le
  constructor
  · intro o bound wrote
    cases wrote with
    | marked wrote =>
        obtain ⟨old, -, -, -, lo, -⟩ := wrote
        have le := headerSize_le_fileMetaOffset cfg old
        omega
    | data nonempty wrote =>
        have lo := (located.metadataEnd_le layout wrote).2
        omega
    | blocks wrote =>
        obtain ⟨-, lo, -⟩ := wrote
        omega
    | files wrote =>
        obtain ⟨-, lo, -⟩ := wrote
        omega
    | migrated apart wrote =>
        obtain ⟨-, lo, -⟩ := wrote
        omega
  · intro o lo hi
    by_cases blocks : o < itsMblockFileMetaOffset cfg 0
    · exact .blocks ⟨rfl, lo, blocks⟩
    · exact .files ⟨rfl, by omega, hi⟩
  · intro rebuilt o behind bound
    change dataStart cfg plan.fileMeta.lblock ≤ o at behind
    change o + plan.blockMeta.freeSize < cfg.blockSize at bound
    rw [← located.dataStart_eq] at behind
    have nonempty : plan.dataSize ≠ 0 := of_decide_eq_true rebuilt
    by_cases hole : plan.pos + plan.size ≤ o ∧ o < plan.fileEnd
    · exact .inr (if_pos hole)
    · refine .inl (.data nonempty ?_)
      by_cases before : o < plan.pos + plan.size
      · exact .inl ⟨rfl, behind, before⟩
      · exact .inr ⟨rfl, by omega, by omega⟩
  · intro apart o behind bound
    change plan.fileMeta.lblock ≠ 0 ∨ decide (plan.dataSize ≠ 0) = false at apart
    rw [decide_eq_false_iff_not, not_not] at apart
    exact .migrated apart ⟨rfl, behind, by omega⟩
  · intro b o wrote
    cases wrote with
    | marked wrote =>
        obtain ⟨_, -, -, block, -⟩ := wrote
        exact .inl block
    | data nonempty wrote =>
        refine .inr ⟨decide_eq_true nonempty, ?_⟩
        rcases wrote with ⟨block, -⟩ | ⟨block, -⟩
        · exact block
        · exact block
    | blocks wrote => exact .inl wrote.1
    | files wrote => exact .inl wrote.1
    | migrated apart wrote => exact .inl wrote.1

/-- The deletion of an existing file that the write has replaced. -/
def deleteOld (plan : WritePlan cfg) : FsM Unit :=
  match plan.oldIdx with
  | some oldIdx => if oldIdx ≠ plan.newIdx then itsFlashFsDeleteIdx cfg oldIdx else pure ()
  | none => pure ()

/-- What a write does once it has found its file. -/
def finish (plan : WritePlan cfg) : FsM Unit := do
  let (fileMeta, blockMeta) ←
    writeFileData plan.fileMeta plan.blockMeta plan.dataSize plan.offset plan.data
  (itsFlashFsMblockUpdateScratchBlockMeta cfg fileMeta.lblock blockMeta).orStatus .genericError
  let fileMeta : FileMeta cfg :=
    { fileMeta with nonce := fun i ↦ plan.finfo.nonce i, tag := fun i ↦ plan.finfo.tag i }
  (itsFlashFsMblockUpdateScratchFileMeta plan.newIdx fileMeta).orStatus .genericError
  copyOtherFileMeta cfg plan.oldIdx plan.newIdx
  if fileMeta.lblock ≠ itsLogicalDblock0 ∨ plan.dataSize = 0 then
    (itsFlashFsMblockMigrateLb0DataToScratch cfg).orStatus .genericError
  itsFlashFsMblockMetaUpdateFinalize cfg
  plan.deleteOld

theorem Located.newBlock_eq (layout : Layout cfg ctx f) (located : plan.Located ctx f) :
    (plan.update f).newBlock ctx f =
      if plan.fileMeta.lblock = 0 then { plan.dataBlock ctx with phyId := ctx.scratchMetablock }
      else plan.dataBlock ctx := by
  have start_eq := layout.blocks.dataStart_eq plan.fileMeta.lblock located.lblock_lt
  simp only [Update.newBlock, update, dataBlock, Ctx.scratchId, decide_eq_true_eq, start_eq,
    ← located.dataStart_eq, ← located.phyId_eq]
  split
  · rfl
  · split <;> rfl

/-- Everything but the header is put in place, step by step. -/
theorem Located.exists_prepared (layout : Layout cfg ctx f) (located : plan.Located ctx f)
    (accepts : plan.dataSize ≠ 0 → plan.Accepts) {f₁ : Flash}
    (filled : Filled f ((plan.update f).target ctx f) (plan.MarkWritten ctx) f₁) :
    ∃ f₂ f₃ f₄ f₅ f₆,
      Runs cfg (ScratchBytes cfg ctx)
        (writeFileData plan.fileMeta plan.blockMeta plan.dataSize plan.offset plan.data) ctx f₁
        (.ok (plan.dataFile, plan.dataBlock ctx)) ((plan.update f).exchanged ctx f) f₂ ∧
      Runs cfg (ScratchBytes cfg ctx)
        (itsFlashFsMblockUpdateScratchBlockMeta cfg plan.fileMeta.lblock (plan.dataBlock ctx))
        ((plan.update f).exchanged ctx f) f₂ (.ok ()) ((plan.update f).exchanged ctx f) f₃ ∧
      Runs cfg (ScratchBytes cfg ctx)
        (itsFlashFsMblockUpdateScratchFileMeta plan.newIdx plan.newFile)
        ((plan.update f).exchanged ctx f) f₃ (.ok ()) ((plan.update f).exchanged ctx f) f₄ ∧
      Runs cfg (ScratchBytes cfg ctx) (copyOtherFileMeta cfg plan.oldIdx plan.newIdx)
        ((plan.update f).exchanged ctx f) f₄ (.ok ()) ((plan.update f).exchanged ctx f) f₅ ∧
      (if plan.fileMeta.lblock ≠ 0 ∨ plan.dataSize = 0 then
        Runs cfg (ScratchBytes cfg ctx) (itsFlashFsMblockMigrateLb0DataToScratch cfg)
          ((plan.update f).exchanged ctx f) f₅ (.ok ()) ((plan.update f).exchanged ctx f) f₆
        else f₆ = f₅) ∧
      (plan.update f).Prepared ctx f f₆ := by
  have sound := located.sound layout accepts
  have metablocks := layout.blocks.metablocks
  have active_eq : ((plan.update f).exchanged ctx f).activeMetablock = ctx.activeMetablock :=
    Update.exchanged_activeMetablock
  have scratch_eq : ((plan.update f).exchanged ctx f).scratchMetablock = ctx.scratchMetablock :=
    Update.exchanged_scratchMetablock
  have files_le : itsMblockFileMetaOffset cfg 0 ≤ metadataEnd cfg :=
    fileMetaOffset_mono cfg (Nat.zero_le _)
  have block_zero := headerSize_le_blockMetaOffset cfg 0
  have marked : ∀ b o, plan.MarkWritten ctx b o → b = ctx.scratchMetablock ∧
      itsMblockFileMetaOffset cfg 0 ≤ o ∧ o < metadataEnd cfg := by
    rintro b o ⟨old, eq, -, block, lo, hi⟩
    have first := fileMetaOffset_mono cfg (Nat.zero_le old)
    have last : itsMblockFileMetaOffset cfg (old + 1) ≤ metadataEnd cfg :=
      fileMetaOffset_mono cfg (located.oldIdx_lt old eq)
    exact ⟨block, by omega, by omega⟩
  obtain ⟨f₂, run₂, staging₂⟩ := located.runs_writeFileData layout sound accepts
    ((plan.update f).staging layout filled fun o wrote ↦ by
      have place := marked _ o wrote
      omega)
  have staging₂ := staging₂.withCtx ((plan.update f).exchanged ctx f) active_eq scratch_eq
  generalize (plan.update f).exchanged ctx f = ctx₂ at active_eq scratch_eq run₂ staging₂ ⊢
  have tables : TableTarget cfg (f ctx₂.activeMetablock)
      ((plan.update f).target ctx f ctx₂.scratchMetablock) ((plan.update f).blocks ctx f)
      plan.files := by
    rw [active_eq, scratch_eq]
    exact Update.target_tables (plan.update f) ctx f
  -- The metadata of the blocks.
  have entry : (plan.update f).blocks ctx f plan.fileMeta.lblock =
      some (if plan.fileMeta.lblock = 0 then
          { plan.dataBlock ctx with phyId := ctx₂.scratchMetablock }
        else plan.dataBlock ctx) := by
    rw [scratch_eq, ← located.newBlock_eq layout]
    exact Update.blocks_lblock (plan.update f) ctx f
  obtain ⟨f₃, run₃, staging₃⟩ := staging₂.runs_updateScratchBlockMeta tables located.lblock_lt entry
    (fun ne ↦ by
      rw [scratch_eq, active_eq]
      exact Update.blocks_zero ne)
    (fun l zero ne ↦ Update.blocks_none zero ne)
    (fun o bound wrote ↦ by
      rw [scratch_eq] at wrote
      rcases wrote with wrote | ⟨-, wrote⟩
      · have place := marked _ o wrote
        omega
      · have place := located.metadataEnd_le layout wrote
        omega)
  -- The metadata of the file.
  have first := fileMetaOffset_mono cfg (Nat.zero_le plan.newIdx)
  have last : itsMblockFileMetaOffset cfg (plan.newIdx + 1) ≤ metadataEnd cfg :=
    fileMetaOffset_mono cfg located.newIdx_lt
  obtain ⟨f₄, run₄, staging₄⟩ := staging₃.runs_updateScratchFileMeta tables located.newIdx_lt
    (files_newIdx plan)
    (fun o lo hi wrote ↦ by
      rw [scratch_eq] at wrote
      rcases wrote with (⟨old, eq, ne, -, lo', hi'⟩ | ⟨-, wrote⟩) | ⟨-, -, hi'⟩
      · rcases Nat.lt_or_gt_of_ne ne with before | behind
        · have le := fileMetaOffset_mono cfg (show old + 1 ≤ plan.newIdx from before)
          omega
        · have le := fileMetaOffset_mono cfg (show plan.newIdx + 1 ≤ old from behind)
          omega
      · have place := located.metadataEnd_le layout wrote
        omega
      · omega)
  -- The metadata of the other files.
  have entries : plan.EntriesWritten ctx₂ fun b o ↦ ((plan.MarkWritten ctx b o ∨
      plan.dataSize ≠ 0 ∧ DataWritten (ctx.scratchId plan.fileMeta.lblock) plan.blockMeta.dataStart
        plan.pos plan.size plan.fileEnd (cfg.blockSize - plan.blockMeta.freeSize) b o) ∨
      InRange ctx₂.scratchMetablock (itsMblockBlockMetaOffset cfg 0) (itsMblockFileMetaOffset cfg 0)
        b o) ∨
      InRange ctx₂.scratchMetablock (itsMblockFileMetaOffset cfg plan.newIdx)
        (itsMblockFileMetaOffset cfg (plan.newIdx + 1)) b o := by
    constructor
    · rintro o lo hi (((⟨old, eq, ne, -, inside⟩ | ⟨-, wrote⟩) | ⟨-, -, hi'⟩) | ⟨-, inside⟩)
      · exact .inr ⟨old, eq, ne, inside⟩
      · rw [scratch_eq] at wrote
        have place := located.metadataEnd_le layout wrote
        omega
      · omega
      · exact .inl inside
    · intro o lo hi
      exact .inr ⟨rfl, lo, hi⟩
    · intro old eq ne o lo hi
      exact .inl (.inl (.inl ⟨old, eq, ne, scratch_eq, lo, hi⟩))
  obtain ⟨f₅, run₅, staging₅⟩ := runs_copyOtherFileMeta staging₄ tables located.newIdx_lt
    located.oldIdx_lt entries
  by_cases apart : plan.fileMeta.lblock ≠ 0 ∨ plan.dataSize = 0
  · -- The data of logical block 0.
    have migrate : (plan.update f).lblock ≠ 0 ∨ (plan.update f).rebuilt = false := by
      change plan.fileMeta.lblock ≠ 0 ∨ decide (plan.dataSize ≠ 0) = false
      rw [decide_eq_false_iff_not, not_not]
      exact apart
    obtain ⟨f₆, run₆, staging₆⟩ := Update.runs_migrate layout staging₅ active_eq scratch_eq migrate
      (by
        rintro o behind ((((wrote | ⟨nonempty, wrote⟩) | ⟨-, -, hi⟩) | ⟨-, -, hi⟩) | ⟨-, -, hi⟩)
        · have place := marked _ o wrote
          omega
        · rw [scratch_eq] at wrote
          have place := located.metadataEnd_le layout wrote
          exact apart.elim (fun ne ↦ ne place.1) nonempty
        · omega
        · omega
        · omega)
    refine ⟨f₂, f₃, f₄, f₅, f₆, run₂, run₃, run₄, run₅, ?_, ?_⟩
    · rw [if_pos apart]
      exact run₆
    · refine Update.prepared_of_complete layout sound (staging₆.filled.congr fun b o ↦ ?_)
        (located.complete layout)
      rw [scratch_eq]
      constructor
      · rintro (((((wrote | ⟨nonempty, wrote⟩) | wrote) | ⟨block, lo, hi⟩) | wrote) | wrote)
        · exact .marked wrote
        · exact .data nonempty wrote
        · exact .blocks wrote
        · exact .files ⟨block, by omega, by omega⟩
        · exact .files wrote
        · exact .migrated apart wrote
      · intro wrote
        cases wrote with
        | marked wrote => exact .inl (.inl (.inl (.inl (.inl wrote))))
        | data nonempty wrote => exact .inl (.inl (.inl (.inl (.inr ⟨nonempty, wrote⟩))))
        | blocks wrote => exact .inl (.inl (.inl (.inr wrote)))
        | files wrote => exact .inl (.inr wrote)
        | migrated apart wrote => exact .inr wrote
  · refine ⟨f₂, f₃, f₄, f₅, f₅, run₂, run₃, run₄, run₅, ?_, ?_⟩
    · rw [if_neg apart]
    · refine Update.prepared_of_complete layout sound (staging₅.filled.congr fun b o ↦ ?_)
        (located.complete layout)
      rw [scratch_eq]
      constructor
      · rintro ((((wrote | ⟨nonempty, wrote⟩) | wrote) | ⟨block, lo, hi⟩) | wrote)
        · exact .marked wrote
        · exact .data nonempty wrote
        · exact .blocks wrote
        · exact .files ⟨block, by omega, by omega⟩
        · exact .files wrote
      · intro wrote
        cases wrote with
        | marked wrote => exact .inl (.inl (.inl (.inl wrote)))
        | data nonempty wrote => exact .inl (.inl (.inl (.inr ⟨nonempty, wrote⟩)))
        | blocks wrote => exact .inl (.inl (.inr wrote))
        | files wrote => exact .inr wrote
        | migrated apart' wrote => exact (apart apart').elim

/-- A write that has found its file commits the update of its plan. -/
theorem Located.passes_finish (layout : Layout cfg ctx f) (valid : HeaderValid cfg ctx f)
    (located : plan.Located ctx f) (accepts : plan.dataSize ≠ 0 → plan.Accepts) {f₁ : Flash}
    (filled : Filled f ((plan.update f).target ctx f) (plan.MarkWritten ctx) f₁)
    (within : ∀ b o, ¬ScratchBytes cfg ctx b o → f₁ b o = f b o) :
    ∃ ctx' f', (plan.update f).Done ctx f ctx' f' ∧
      ∀ {C : Flash → Prop} {result : Except Status Unit} {ctx'' : Ctx} {f'' : Flash},
        (∀ g, Remains cfg ctx f g ∨ Remains cfg ctx' f' g → C g) →
        Passes cfg C plan.deleteOld ctx' f' result ctx'' f'' →
        Passes cfg C plan.finish ctx f₁ result ctx'' f'' := by
  have sound := located.sound layout accepts
  obtain ⟨f₂, f₃, f₄, f₅, f₆, run₂, run₃, run₄, run₅, run₆, prepared⟩ :=
    located.exists_prepared layout accepts filled
  have within₂ : ∀ b o, ¬ScratchBytes cfg ctx b o → f₂ b o = f b o :=
    fun b o outside ↦ (run₂.frame outside).trans (within b o outside)
  have within₃ : ∀ b o, ¬ScratchBytes cfg ctx b o → f₃ b o = f b o :=
    fun b o outside ↦ (run₃.frame outside).trans (within₂ b o outside)
  have within₄ : ∀ b o, ¬ScratchBytes cfg ctx b o → f₄ b o = f b o :=
    fun b o outside ↦ (run₄.frame outside).trans (within₃ b o outside)
  have within₅ : ∀ b o, ¬ScratchBytes cfg ctx b o → f₅ b o = f b o :=
    fun b o outside ↦ (run₅.frame outside).trans (within₄ b o outside)
  refine ⟨_, _, prepared.done layout valid sound, fun {C result ctx'' f''} covers rest ↦ ?_⟩
  have before : ∀ {g : Flash}, (∀ b o, ¬ScratchBytes cfg ctx b o → g b o = f b o) →
      ∀ h : Flash, (∀ b o, ¬ScratchBytes cfg ctx b o → h b o = g b o) → C h := by
    intro g same h same'
    refine covers h (.inl (layout.remains_of_within fun b o outside ↦ ?_))
    rw [same' b o outside, same b o outside]
  refine (run₂.passes (before within)).bind ((run₃.passes (before within₂)).orStatus.bind
    ((run₄.passes (before within₃)).orStatus.bind ((run₅.passes (before within₄)).bind ?_)))
  by_cases apart : plan.fileMeta.lblock ≠ 0 ∨ plan.dataSize = 0
  · rw [if_pos apart] at run₆
    have within₆ : ∀ b o, ¬ScratchBytes cfg ctx b o → f₆ b o = f b o :=
      fun b o outside ↦ (run₆.frame outside).trans (within₅ b o outside)
    have commit := (prepared.passes_finalize layout valid sound within₆).mono covers
    dsimp only
    rw [if_pos (show plan.dataFile.lblock ≠ itsLogicalDblock0 ∨ plan.dataSize = 0 from apart)]
    exact (run₆.passes (before within₅)).orStatus.bind (commit.bind rest)
  · rw [if_neg apart] at run₆
    subst run₆
    have commit := (prepared.passes_finalize layout valid sound within₅).mono covers
    dsimp only
    rw [if_neg (show ¬(plan.dataFile.lblock ≠ itsLogicalDblock0 ∨ plan.dataSize = 0) from apart)]
    exact commit.bind rest

end WritePlan

end TrustedFirmwareM.Its
