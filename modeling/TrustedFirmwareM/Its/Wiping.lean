import TrustedFirmwareM.Its.FileSystem

/-!
# Wiping

A wipe erases both metadata blocks, the active one last, and fills the first one anew.  In between a
mount refuses the flash, so a wipe that is cut off leaves all of the files or none of them.
-/

namespace TrustedFirmwareM.Its

variable {cfg : Config} {W : ℕ → ℕ → Prop} {ctx : Ctx} {f f' g start target : Flash}
  {written : ℕ → ℕ → Prop}

/-- A mount accepts neither of the metadata blocks. -/
def Refused (cfg : Config) (g : Flash) : Prop :=
  ¬HeaderAccepted cfg (g 0) ∧ ¬HeaderAccepted cfg (g 1)

/-- The metadata of a logical block without files. -/
def freshBlock (cfg : Config) (l : ℕ) : BlockMeta :=
  if l = 0 then
    { phyId := itsMetadataBlock1
      dataStart := metadataEnd cfg
      freeSize := cfg.blockSize - metadataEnd cfg }
  else
    { phyId := l - 1 + itsInitDblockStart cfg
      dataStart := 0
      freeSize := cfg.blockSize }

/-- The flash with the tables of an empty file system. -/
def freshTarget (cfg : Config) (f : Flash) : Flash :=
  Function.update f itsMetadataBlock1 (withTables cfg (f itsMetadataBlock1)
    (fun l ↦ some (freshBlock cfg l)) fun _ ↦ some FileMeta.zero)

theorem freshTarget_block (f : Flash) {l j : ℕ} (l_lt : l < itsNumActiveDblocks cfg)
    (j_lt : j < itsBlockMetadataSize cfg) :
    freshTarget cfg f itsMetadataBlock1 (itsMblockBlockMetaOffset cfg l + j) =
      (freshBlock cfg l).encode j := by
  rw [freshTarget, Function.update_self, withTables_block _ _ _ l_lt j_lt]

theorem freshTarget_file (f : Flash) {i j : ℕ} (i_lt : i < cfg.maxNumFiles)
    (j_lt : j < itsFileMetadataSize cfg) :
    freshTarget cfg f itsMetadataBlock1 (itsMblockFileMetaOffset cfg i + j) =
      (FileMeta.zero : FileMeta cfg).encode j := by
  rw [freshTarget, Function.update_self, withTables_file _ _ _ i_lt j_lt]

/-- The bytes of the entries of the first so many blocks. -/
def BlocksWritten (cfg : Config) (n : ℕ) : ℕ → ℕ → Prop :=
  InRange itsMetadataBlock1 (itsMblockBlockMetaOffset cfg 0) (itsMblockBlockMetaOffset cfg n)

/-- The bytes of the tables, up to the entry of a file. -/
def TablesWritten (cfg : Config) (n : ℕ) : ℕ → ℕ → Prop :=
  InRange itsMetadataBlock1 (itsMblockBlockMetaOffset cfg 0) (itsMblockFileMetaOffset cfg n)

/-- The bytes that a wipe changes between the erasure of the metadata blocks and the header. -/
def FillBytes (cfg : Config) : ℕ → ℕ → Prop := fun b o ↦
  b = itsMetadataBlock1 ∧ itsBlockMetaHeaderSize cfg ≤ o ∨ 2 ≤ b

/-- Blocks nothing has been written to are erased in the meantime. -/
theorem Filled.erase (cfg : Config) (filled : Filled start target written f) {b : ℕ}
    (untouched : ∀ o, ¬written b o) :
    Filled (eraseBlock cfg b start) target written (eraseBlock cfg b f) := by
  intro b' o
  rcases eq_or_ne b' b with rfl | ne
  · refine ⟨fun wrote ↦ (untouched o wrote).elim, fun _ ↦ ?_⟩
    rw [eraseBlock, eraseBlock, Function.update_self, Function.update_self,
      erasedBlock, erasedBlock,
      filled.block_eq untouched]
  · rw [eraseBlock_of_ne ne, eraseBlock_of_ne ne]
    exact filled b' o

/-- The dedicated data blocks are erased. -/
theorem runs_eraseDblocks (ctx : Ctx) {blocks : List ℕ} (inside : ∀ b ∈ blocks, ∀ o, W b o)
    (filled : Filled start target written f) (untouched : ∀ b ∈ blocks, ∀ o, ¬written b o) :
    ∃ start' f', Runs cfg W (eraseDblocks blocks) ctx f (.ok true) ctx f' ∧
      Filled start' target written f' ∧ ∀ b, b ∉ blocks → start' b = start b := by
  induction blocks generalizing f start with
  | nil => exact ⟨start, f, runs_pure true, filled, fun _ _ ↦ rfl⟩
  | cons b rest ih =>
      have erased := filled.erase cfg (untouched b List.mem_cons_self)
      obtain ⟨start', f', run, filled', same⟩ := ih
        (fun b' member ↦ inside b' (List.mem_cons_of_mem b member)) erased
        fun b' member ↦ untouched b' (List.mem_cons_of_mem b member)
      have erase : Runs cfg W (FlashOp.erase b).call ctx f (.ok ()) ctx (eraseBlock cfg b f) := by
        refine runs_call _ ?_
        rintro b' o ⟨rfl, -⟩
        exact inside b' List.mem_cons_self o
      refine ⟨start', f', erase.result.bind (run.bind (runs_pure _)), filled', fun b' outside ↦ ?_⟩
      rw [List.mem_cons, not_or] at outside
      rw [same b' outside.2, eraseBlock_of_ne outside.1]

theorem initDblockStart_eq {i : ℕ} (bound : i < itsNumDedicatedDblocks cfg) :
    itsInitDblockStart cfg = 3 := by
  rw [itsNumDedicatedDblocks] at bound
  rw [itsInitDblockStart]
  split
  · next two =>
      rw [if_pos two] at bound
      exact (Nat.not_lt_zero i bound).elim
  · rfl

/-- The metadata of the dedicated data blocks is written. -/
theorem runs_writeDedicatedBlockMeta (scratch : ctx.scratchMetablock = itsMetadataBlock1)
    {base : Flash}
    (blank : ∀ o < metadataEnd cfg, cfg.Blank (start itsMetadataBlock1 o)) {n k : ℕ}
    (total : n + k = itsNumDedicatedDblocks cfg)
    (filled : Filled start (freshTarget cfg base) (BlocksWritten cfg (n + 1)) f) :
    ∃ f', Runs cfg (FillBytes cfg)
      (writeDedicatedBlockMeta cfg (List.range' n k)) ctx f (.ok ()) ctx f' ∧
      Filled start (freshTarget cfg base) (BlocksWritten cfg (itsNumActiveDblocks cfg)) f' := by
  induction k generalizing n f with
  | zero =>
      refine ⟨f, runs_pure (), ?_⟩
      rw [itsNumActiveDblocks, ← total]
      exact filled
  | succ k ih =>
      have l_lt : n + 1 < itsNumActiveDblocks cfg := by
        rw [itsNumActiveDblocks]
        omega
      have lo := blockMetaOffset_mono cfg (Nat.zero_le (n + 1))
      have hi := blockMetaOffset_lt cfg l_lt
      have files_le : itsMblockFileMetaOffset cfg 0 ≤ metadataEnd cfg :=
        fileMetaOffset_mono cfg (Nat.zero_le _)
      rw [blockMetaOffset_numActive] at hi
      have header := headerSize_le_blockMetaOffset cfg (n + 1)
      obtain ⟨f₁, run, filled₁⟩ := runs_write (W := FillBytes cfg) ctx filled itsMetadataBlock1
        (itsMblockBlockMetaOffset cfg (n + 1)) (itsBlockMetadataSize cfg)
          (freshBlock cfg (n + 1)).encode
        (fun o lo' _ ↦ .inl ⟨rfl, by omega⟩) (fun o _ hi' ↦ blank o (by omega))
        (fun o lo' _ wrote ↦ by
          obtain ⟨-, -, hi'⟩ := wrote
          omega)
        fun j j_lt ↦ (freshTarget_block base l_lt j_lt).symm
      obtain ⟨f₂, rest, filled₂⟩ := ih (n := n + 1) (by omega) (filled₁.congr fun b o ↦ by
        rw [BlocksWritten, BlocksWritten, InRange, InRange, InRange,
          blockMetaOffset_succ cfg (n + 1)]
        have step := blockMetaOffset_succ cfg (n + 1)
        omega)
      refine ⟨f₂, ?_, filled₂⟩
      rw [List.range'_succ, writeDedicatedBlockMeta]
      have entry : freshBlock cfg (n + 1) =
          { phyId := n + itsInitDblockStart cfg, dataStart := 0, freeSize := cfg.blockSize } :=
        if_neg (Nat.succ_ne_zero n)
      have write : Runs cfg (FillBytes cfg) (itsMblockUpdateScratchBlockMeta cfg (n + 1)
          { phyId := n + itsInitDblockStart cfg, dataStart := 0, freeSize := cfg.blockSize }) ctx f
          (.ok ()) ctx f₁ := by
        refine runs_getCtx.bind ?_
        rw [scratch, ← entry]
        exact run
      exact write.orStatus.bind rest

/-- The metadata of the files is cleared. -/
theorem runs_writeEmptyFileMeta (scratch : ctx.scratchMetablock = itsMetadataBlock1) {base : Flash}
    (blank : ∀ o < metadataEnd cfg, cfg.Blank (start itsMetadataBlock1 o)) {n k : ℕ}
    (total : n + k = cfg.maxNumFiles)
    (filled : Filled start (freshTarget cfg base) (TablesWritten cfg n) f) :
    ∃ f', Runs cfg (FillBytes cfg) (writeEmptyFileMeta cfg (List.range' n k)) ctx f
      (.ok ()) ctx f' ∧
      Filled start (freshTarget cfg base) (TablesWritten cfg cfg.maxNumFiles) f' := by
  induction k generalizing n f with
  | zero =>
      refine ⟨f, runs_pure (), ?_⟩
      rw [← total]
      exact filled
  | succ k ih =>
      have i_lt : n < cfg.maxNumFiles := by omega
      have hi : itsMblockFileMetaOffset cfg n + itsFileMetadataSize cfg ≤ metadataEnd cfg :=
        fileMetaOffset_lt cfg i_lt
      have header := headerSize_le_fileMetaOffset cfg n
      have blocks := blockMetaOffset_numActive cfg
      have blocks_le := blockMetaOffset_mono cfg (Nat.zero_le (itsNumActiveDblocks cfg))
      have files_le := fileMetaOffset_mono cfg (Nat.zero_le n)
      obtain ⟨f₁, run, filled₁⟩ := runs_write (W := FillBytes cfg) ctx filled itsMetadataBlock1
        (itsMblockFileMetaOffset cfg n) (itsFileMetadataSize cfg)
          (FileMeta.zero : FileMeta cfg).encode
        (fun o lo' _ ↦ .inl ⟨rfl, by omega⟩) (fun o _ hi' ↦ blank o (by omega))
        (fun o lo' _ wrote ↦ by
          obtain ⟨-, -, hi'⟩ := wrote
          omega)
        fun j j_lt ↦ (freshTarget_file base i_lt j_lt).symm
      obtain ⟨f₂, rest, filled₂⟩ := ih (n := n + 1) (by omega) (filled₁.congr fun b o ↦ by
        rw [TablesWritten, TablesWritten, InRange, InRange, InRange]
        have step := fileMetaOffset_succ cfg n
        omega)
      refine ⟨f₂, ?_, filled₂⟩
      rw [List.range'_succ, writeEmptyFileMeta]
      have write : Runs cfg (FillBytes cfg) (itsFlashFsMblockUpdateScratchFileMeta n
          (FileMeta.zero : FileMeta cfg)) ctx f (.ok ()) ctx f₁ := by
        refine runs_getCtx.bind ?_
        rw [scratch]
        exact run
      exact write.orStatus.bind rest

/-- A metadata block has the tables of an empty file system, but no header yet. -/
structure Fresh (cfg : Config) (raw : Bytes) : Prop where
  /-- There is no header. -/
  header : ∀ o < itsBlockMetaHeaderSize cfg, raw o = cfg.eraseVal
  /-- The metadata of the blocks. -/
  block : ∀ l < itsNumActiveDblocks cfg, blockMetaAt cfg raw l = freshBlock cfg l
  /-- The metadata of the files. -/
  file : ∀ i < cfg.maxNumFiles, fileMetaAt cfg raw i = FileMeta.zero

theorem freshBlock_fits (config : ValidConfig cfg) {l : ℕ} (bound : l < itsNumActiveDblocks cfg) :
    (freshBlock cfg l).Fits := by
  have metadata_le := config.metadata_le
  have block_lt := cfg.blockSize_lt
  have numBlocks_lt := cfg.numBlocks_lt
  rw [freshBlock]
  split
  · exact ⟨show itsMetadataBlock1 < 2 ^ 32 by decide, show metadataEnd cfg < 2 ^ 32 by omega,
      show cfg.blockSize - metadataEnd cfg < 2 ^ 32 by omega⟩
  · next ne =>
      rw [itsNumActiveDblocks] at bound
      have start := initDblockStart_eq (show l - 1 < itsNumDedicatedDblocks cfg by omega)
      have dedicated : itsNumDedicatedDblocks cfg ≤ cfg.numBlocks := by
        rw [itsNumDedicatedDblocks]
        split <;> omega
      exact ⟨show l - 1 + itsInitDblockStart cfg < 2 ^ 32 by omega,
        show 0 < 2 ^ 32 by decide, block_lt⟩

/-- A wipe fills the first metadata block. -/
theorem exists_fresh (config : ValidConfig cfg) (scratch : ctx.scratchMetablock = itsMetadataBlock1)
    (erased : ∀ o < cfg.blockSize, f itsMetadataBlock1 o = cfg.eraseVal) :
    ∃ f₁ f₂ f₃ f₄,
      Runs cfg (FillBytes cfg) (itsMblockUpdateScratchBlockMeta cfg itsLogicalDblock0
        { phyId := ctx.scratchMetablock
          dataStart := itsMblockFileMetaOffset cfg cfg.maxNumFiles
          freeSize := sub32 cfg.blockSize (itsMblockFileMetaOffset cfg cfg.maxNumFiles) }) ctx f
        (.ok ()) ctx f₁ ∧
      Runs cfg (FillBytes cfg) (eraseDblocks
        ((List.range (itsNumDedicatedDblocks cfg)).map
          (· + itsInitDblockStart cfg))) ctx f₁ (.ok true) ctx f₂ ∧
      Runs cfg (FillBytes cfg)
        (writeDedicatedBlockMeta cfg (List.range (itsNumDedicatedDblocks cfg)))
        ctx f₂ (.ok ()) ctx f₃ ∧
      Runs cfg (FillBytes cfg)
        (writeEmptyFileMeta cfg (List.range cfg.maxNumFiles)) ctx f₃ (.ok ()) ctx f₄ ∧
      Fresh cfg (f₄ itsMetadataBlock1) := by
  have metadata_le := config.metadata_le
  have block_lt := cfg.blockSize_lt
  have zero_lt := numActiveDblocks_pos cfg
  have files_le : itsMblockFileMetaOffset cfg 0 ≤ metadataEnd cfg :=
    fileMetaOffset_mono cfg (Nat.zero_le _)
  have blocks_eq := blockMetaOffset_numActive cfg
  have first_le := blockMetaOffset_lt cfg zero_lt
  have header_eq := blockMetaOffset_zero cfg
  have blank : ∀ o < metadataEnd cfg, cfg.Blank (f itsMetadataBlock1 o) := by
    intro o bound
    rw [erased o (by omega)]
    exact cfg.blank_eraseVal
  have entry : freshBlock cfg 0 =
      { phyId := itsMetadataBlock1
        dataStart := itsMblockFileMetaOffset cfg cfg.maxNumFiles
        freeSize := sub32 cfg.blockSize (itsMblockFileMetaOffset cfg cfg.maxNumFiles) } := by
    rw [freshBlock, if_pos rfl, ← metadataEnd, sub32_eq metadata_le block_lt]
  obtain ⟨f₁, run₁, filled₁⟩ := runs_write (W := FillBytes cfg) ctx
    (filled_start f (freshTarget cfg f)) itsMetadataBlock1 (itsMblockBlockMetaOffset cfg 0)
    (itsBlockMetadataSize cfg) (freshBlock cfg 0).encode (fun o lo _ ↦ .inl ⟨rfl, by omega⟩)
    (fun o _ hi ↦ blank o (by omega)) (fun o _ _ wrote ↦ wrote)
    fun j j_lt ↦ (freshTarget_block f zero_lt j_lt).symm
  have filled₁ : Filled f (freshTarget cfg f) (BlocksWritten cfg 1) f₁ := filled₁.congr fun b o ↦ by
    rw [BlocksWritten, blockMetaOffset_succ cfg 0, false_or]
  have dedicated : ∀ b ∈ (List.range (itsNumDedicatedDblocks cfg)).map (· + itsInitDblockStart cfg),
      3 ≤ b := by
    intro b member
    obtain ⟨i, inside, rfl⟩ := List.mem_map.1 member
    have start := initDblockStart_eq (List.mem_range.1 inside)
    omega
  obtain ⟨start, f₂, run₂, filled₂, same⟩ := runs_eraseDblocks (W := FillBytes cfg) ctx
    (fun b member o ↦ .inr (by have le := dedicated b member; omega)) filled₁
    fun b member o wrote ↦ by
      have le := dedicated b member
      have here : b = 1 := wrote.1
      omega
  have start_eq : start itsMetadataBlock1 = f itsMetadataBlock1 :=
    same _ fun member ↦ absurd (dedicated _ member) (by decide)
  rw [← start_eq] at blank
  obtain ⟨f₃, run₃, filled₃⟩ := runs_writeDedicatedBlockMeta scratch blank (Nat.zero_add _) filled₂
  obtain ⟨f₄, run₄, filled₄⟩ := runs_writeEmptyFileMeta scratch blank (Nat.zero_add _)
    (filled₃.congr fun b o ↦ by rw [BlocksWritten, TablesWritten, blocks_eq])
  rw [← List.range_eq_range'] at run₃ run₄
  refine ⟨f₁, f₂, f₃, f₄, ?_, run₂, run₃, run₄, ?_, ?_, ?_⟩
  · rw [scratch, ← entry]
    refine runs_getCtx.bind ?_
    rw [scratch]
    exact run₁
  · intro o bound
    rw [(filled₄ itsMetadataBlock1 o).2 fun wrote ↦ by
      obtain ⟨-, lo, -⟩ := wrote
      omega, start_eq, erased o (by omega)]
  · intro l bound
    have lo := blockMetaOffset_mono cfg (Nat.zero_le l)
    have hi := blockMetaOffset_lt cfg bound
    have le : itsMblockFileMetaOffset cfg 0 ≤ itsMblockFileMetaOffset cfg cfg.maxNumFiles :=
      files_le
    refine blockMetaAt_encode (freshBlock_fits config bound) fun j j_lt ↦ ?_
    rw [(filled₄ itsMetadataBlock1 _).1 ⟨rfl, by omega, by omega⟩, freshTarget_block f bound j_lt]
  · intro i bound
    have lo := fileMetaOffset_mono cfg (Nat.zero_le i)
    have hi := fileMetaOffset_lt cfg bound
    have blocks_le := blockMetaOffset_mono cfg (Nat.zero_le (itsNumActiveDblocks cfg))
    refine fileMetaAt_encode FileMeta.fits_zero fun j j_lt ↦ ?_
    rw [(filled₄ itsMetadataBlock1 _).1 ⟨rfl, by omega, by omega⟩, freshTarget_file f bound j_lt]

/-! ## The empty file system -/

theorem Fresh.packed (fresh : Fresh cfg (f itsMetadataBlock1)) (config : ValidConfig cfg) :
    Packed cfg (fileMetaAt cfg (f itsMetadataBlock1)) fun l ↦
      (blockMetaAt cfg (f itsMetadataBlock1) l).freeSize := by
  have unused : ∀ i < cfg.maxNumFiles, ¬(fileMetaAt cfg (f itsMetadataBlock1) i).Live := by
    intro i bound
    rw [fresh.file i bound]
    exact fun live ↦ live rfl
  have free : ∀ l < itsNumActiveDblocks cfg,
      dataStart cfg l + (blockMetaAt cfg (f itsMetadataBlock1) l).freeSize = cfg.blockSize := by
    intro l bound
    have metadata_le := config.metadata_le
    rw [fresh.block l bound, freshBlock, dataStart]
    split
    · exact Nat.add_sub_cancel' metadata_le
    · exact Nat.zero_add _
  constructor
  · intro i bound
    rw [fresh.file i bound]
    exact numActiveDblocks_pos cfg
  · exact fun i bound live ↦ (unused i bound live).elim
  · exact fun i bound live ↦ (unused i bound live).elim
  · exact fun i bound live ↦ (unused i bound live).elim
  · exact fun i bound live ↦ (unused i bound live).elim
  · exact fun i i_lt j j_lt ne live ↦ (unused i i_lt live).elim
  · intro l bound o behind before
    have eq := free l bound
    omega
  · exact fun l bound ↦ (free l bound).le

theorem Fresh.blocks (fresh : Fresh cfg (f itsMetadataBlock1)) :
    BlocksApart cfg itsMetadataBlock1 itsMetadataBlock0 (itsInitScratchDblock cfg)
      (blockMetaAt cfg (f itsMetadataBlock1)) := by
  have phyId : ∀ l < itsNumActiveDblocks cfg, l ≠ 0 →
      (blockMetaAt cfg (f itsMetadataBlock1) l).phyId = l + 2 ∧ l + 2 < cfg.numBlocks := by
    intro l bound ne
    rw [itsNumActiveDblocks] at bound
    have start := initDblockStart_eq (show l - 1 < itsNumDedicatedDblocks cfg by omega)
    have count : itsNumDedicatedDblocks cfg ≤ cfg.numBlocks - 3 := by
      rw [itsNumDedicatedDblocks, start]
      split <;> omega
    rw [fresh.block l (by rw [itsNumActiveDblocks]; exact bound), freshBlock, if_neg ne, start]
    dsimp only
    omega
  have phyId_zero : (blockMetaAt cfg (f itsMetadataBlock1) 0).phyId = 1 := by
    rw [fresh.block 0 (numActiveDblocks_pos cfg), freshBlock, if_pos rfl, itsMetadataBlock1]
  constructor
  · exact .inr ⟨rfl, rfl⟩
  · exact phyId_zero
  · intro l bound ne
    have here := phyId l bound ne
    omega
  · intro l bound l' bound' ne
    by_cases zero : l = 0
    · have here := phyId l' bound' (by omega)
      rw [zero, phyId_zero]
      omega
    · have here := phyId l bound zero
      by_cases zero' : l' = 0
      · rw [zero', phyId_zero]
        omega
      · have here' := phyId l' bound' zero'
        omega
  · intro l bound
    rw [fresh.block l bound, freshBlock, dataStart]
    split <;> rfl
  · intro large
    rw [itsInitScratchDblock, if_neg (by omega)]
    omega
  · intro large l bound
    rw [itsInitScratchDblock, if_neg (by omega)]
    by_cases zero : l = 0
    · rw [zero, phyId_zero]
      decide
    · have here := phyId l bound zero
      omega

/-- The context that a wipe works in. -/
structure WipeCtx (cfg : Config) (ctx : Ctx) : Prop where
  /-- The second metadata block is filled. -/
  scratch : ctx.scratchMetablock = itsMetadataBlock1
  /-- The first one stays erased. -/
  active : ctx.activeMetablock = itsMetadataBlock0
  /-- The scratch data block is the first data block. -/
  scratchDblock : ctx.metaBlockHeader.scratchDblock = itsInitScratchDblock cfg
  /-- The version is the supported one. -/
  version : ctx.metaBlockHeader.fsVersion = itsSupportedVersion

/-- Once its header is written, there is an empty file system. -/
theorem Fresh.holds (fresh : Fresh cfg (f itsMetadataBlock1)) (config : ValidConfig cfg)
    (some_file : 0 < cfg.maxNumFiles) (wipe : WipeCtx cfg ctx)
    (erased : ∀ o < cfg.blockSize, f itsMetadataBlock0 o = cfg.eraseVal) :
    Holds cfg (fun _ ↦ none) (writeHeader cfg ctx f) := by
  obtain ⟨scratch, active, scratchDblock, version⟩ := wipe
  have header_le := le_headerSize cfg
  have metadata_le := (headerSize_le_metadataEnd cfg).trans config.metadata_le
  have dblock : 2 < cfg.numBlocks → ctx.metaBlockHeader.scratchDblock = 2 := by
    intro large
    rw [scratchDblock, itsInitScratchDblock, if_neg (by omega)]
  have committed : Committed cfg ctx f (committedCtx cfg ctx f) (committedFlash cfg ctx f) := by
    apply committed_metaUpdateFinalize
    · rw [active, scratch]
      decide
    · intro large
      rw [scratch, dblock large]
      decide
    · exact version
    · rw [scratchDblock, itsInitScratchDblock]
      split <;> decide
    · intro o bound
      rw [scratch, fresh.header o bound]
      exact cfg.blank_eraseVal
  rw [← scratch] at fresh
  have file : ∀ i < cfg.maxNumFiles,
      (committedCtx cfg ctx f).fileMeta cfg (committedFlash cfg ctx f) i =
      FileMeta.zero := by
    intro i bound
    rw [committed.fileMeta_eq, fresh.file i bound]
  have layout : Layout cfg (committedCtx cfg ctx f) (committedFlash cfg ctx f) := by
    rw [scratch] at fresh
    apply committed.layout config
    · rw [scratch]
      exact fresh.packed config
    · rw [scratch, active, scratchDblock]
      exact fresh.blocks
  refine ⟨committedCtx cfg ctx f, committedFlash cfg ctx f, none, ?_, ?_, ?_⟩
  · constructor
    · exact layout
    · exact committed.headerValid
    · intro i i_lt j j_lt _ _ live
      rw [FileMeta.Live, file i i_lt] at live
      exact (live rfl).elim
    · intro i bound
      rw [file i bound]
      refine ⟨fun marked ↦ (marked (Nat.zero_and _)).elim,
        fun eq ↦ (Option.some_ne_none i eq.symm).elim⟩
    · exact fun i eq ↦ (Option.some_ne_none i eq.symm).elim
    · intro _
      refine ⟨0, some_file, ?_⟩
      rw [file 0 some_file]
      exact fun live ↦ live rfl
  · funext fid
    rw [Ctx.files]
    split
    · rfl
    · next ne_zero =>
        rw [Option.map_eq_none_iff, Ctx.entryOf, List.find?_eq_none]
        intro i member
        rw [file i (List.mem_range.1 member), Bool.and_eq_true, beq_iff_eq]
        exact fun both ↦ ne_zero both.1.symm
  · refine ⟨fun b o outside ↦ (eraseScratch_outside outside).symm, fun accepted ↦ ?_⟩
    refine (not_headerAccepted_of_erased (fun o bound ↦ ?_) accepted).elim
    have other : writeHeader cfg ctx f ctx.activeMetablock = f ctx.activeMetablock :=
      writeHeader_of_ne (by rw [active, scratch]; decide)
    change writeHeader cfg ctx f ctx.activeMetablock o = _
    rw [other, active, erased o (by omega)]

theorem refused_of_erased (erased : ∀ b < 2, ∀ o < 8, g b o = cfg.eraseVal) : Refused cfg g :=
  ⟨not_headerAccepted_of_erased (erased 0 (by decide)),
    not_headerAccepted_of_erased (erased 1 (by decide))⟩

/-- What a wipe does once the metadata blocks are erased. -/
def fillMetablock (cfg : Config) : FsM Unit := do
  let ctx ← getCtx
  let dataStart := itsMblockFileMetaOffset cfg cfg.maxNumFiles
  itsMblockUpdateScratchBlockMeta cfg itsLogicalDblock0
    { phyId := ctx.scratchMetablock, dataStart := dataStart
      freeSize := sub32 cfg.blockSize dataStart }
  let erased ← eraseDblocks
    ((List.range (itsNumDedicatedDblocks cfg)).map (· + itsInitDblockStart cfg))
  ensure erased .storageFailure
  writeDedicatedBlockMeta cfg (List.range (itsNumDedicatedDblocks cfg))
  writeEmptyFileMeta cfg (List.range cfg.maxNumFiles)
  (itsMblockWriteScratchMetaHeader cfg).orStatus .genericError
  let ctx ← getCtx
  (FlashOp.flush ctx.scratchMetablock).call
  itsMblockSwapMetablocks

/-- Until the header is written a mount refuses the flash, and then it has no files. -/
theorem passes_fillMetablock (config : ValidConfig cfg) (some_file : 0 < cfg.maxNumFiles)
    (wipe : WipeCtx cfg ctx) (erased : ∀ b < 2, ∀ o < cfg.blockSize, f b o = cfg.eraseVal) :
    ∃ ctx' f', Passes cfg (fun g ↦ Refused cfg g ∨ Holds cfg (fun _ ↦ none) g)
      (fillMetablock cfg) ctx f
        (.ok ()) ctx' f' ∧ Holds cfg (fun _ ↦ none) f' := by
  obtain ⟨f₁, f₂, f₃, f₄, run₁, run₂, run₃, run₄, fresh⟩ :=
    exists_fresh config wipe.scratch (erased itsMetadataBlock1 (by decide))
  have header_le := le_headerSize cfg
  have metadata_le := (headerSize_le_metadataEnd cfg).trans config.metadata_le
  -- The headers, and the first metablock as a whole, stay erased.
  have outside : ∀ b o, b = 0 ∨ b = 1 ∧ o < 8 → ¬FillBytes cfg b o := by
    intro b o here inside
    rw [FillBytes, itsMetadataBlock1] at inside
    omega
  have kept : ∀ {h : Flash}, (∀ b o, b = 0 ∨ b = 1 ∧ o < 8 → h b o = f b o) → ∀ g : Flash,
      (∀ b o, ¬FillBytes cfg b o → g b o = h b o) → Refused cfg g ∨ Holds cfg (fun _ ↦ none) g := by
    intro h same g same'
    refine .inl (refused_of_erased fun b b_lt o o_lt ↦ ?_)
    rw [same' b o (outside b o (by omega)), same b o (by omega), erased b b_lt o (by omega)]
  have same₁ : ∀ b o, b = 0 ∨ b = 1 ∧ o < 8 → f₁ b o = f b o :=
    fun b o here ↦ run₁.frame (outside b o here)
  have same₂ : ∀ b o, b = 0 ∨ b = 1 ∧ o < 8 → f₂ b o = f b o :=
    fun b o here ↦ (run₂.frame (outside b o here)).trans (same₁ b o here)
  have same₃ : ∀ b o, b = 0 ∨ b = 1 ∧ o < 8 → f₃ b o = f b o :=
    fun b o here ↦ (run₃.frame (outside b o here)).trans (same₂ b o here)
  have same₄ : ∀ b o, b = 0 ∨ b = 1 ∧ o < 8 → f₄ b o = f b o :=
    fun b o here ↦ (run₄.frame (outside b o here)).trans (same₃ b o here)
  have before := kept same₄ f₄ fun _ _ _ ↦ rfl
  have empty := fresh.holds config some_file wipe fun o bound ↦
    (same₄ 0 o (.inl rfl)).trans (erased 0 (by decide) o bound)
  have commit : Passes cfg (fun g ↦ Refused cfg g ∨ Holds cfg (fun _ ↦ none) g)
      (itsMblockWriteScratchMetaHeader cfg) ctx f₄ (.ok ())
      { ctx with metaBlockHeader := nextHeader cfg ctx f₄ } (writeHeader cfg ctx f₄) :=
    passes_writeScratchMetaHeader (.inr wipe.scratch) before (.inr empty)
  have start := kept (fun _ _ _ ↦ rfl) f fun _ _ _ ↦ rfl
  refine ⟨_, _, (runs_getCtx.passes_silent start).bind
    ((run₁.passes (kept fun _ _ _ ↦ rfl)).bind ((run₂.passes (kept same₁)).bind
      (((runs_ensure rfl).passes_silent (kept same₂ f₂ fun _ _ _ ↦ rfl)).bind
        ((run₃.passes (kept same₂)).bind ((run₄.passes (kept same₃)).bind (commit.orStatus.bind
          ((runs_getCtx.passes_silent (.inr empty)).bind
            (((runs_flush _).passes_silent (.inr empty)).bind
              ((runs_modifyCtx _).passes_silent (.inr empty)))))))))), empty⟩

/-! ## Wipes -/

/-- The search for the active metadata block finds one of them, or none. -/
theorem exists_getActiveMetablock (cfg : Config) (ctx : Ctx) (g : Flash) :
    ∃ result ctx', Runs cfg W (itsInitGetActiveMetablock cfg) ctx g result ctx' g ∧
      (result.isOk = true → ctx'.scratchMetablock = 0 ∨ ctx'.scratchMetablock = 1) := by
  have header₀ : Runs cfg W (validHeader cfg itsMetadataBlock0) ctx g _ ctx g :=
    runs_validHeader (.inl rfl)
  have header₁ : Runs cfg W (validHeader cfg itsMetadataBlock1) ctx g _ ctx g :=
    runs_validHeader (.inr rfl)
  have other : ∀ b, itsOtherMetaBlock b = 0 ∨ itsOtherMetaBlock b = 1 := by
    intro b
    rw [itsOtherMetaBlock]
    split
    · exact .inr rfl
    · exact .inl rfl
  by_cases first : HeaderAccepted cfg (g itsMetadataBlock0)
  · rw [if_pos first] at header₀
    by_cases second : HeaderAccepted cfg (g itsMetadataBlock1)
    · rw [if_pos second] at header₁
      exact ⟨_, _, header₀.bind (header₁.bind ((runs_pure _).bind (runs_modifyCtx _))),
        fun _ ↦ other _⟩
    · rw [if_neg second] at header₁
      exact ⟨_, _, header₀.bind (header₁.bind ((runs_pure _).bind (runs_modifyCtx _))),
        fun _ ↦ .inr rfl⟩
  · rw [if_neg first] at header₀
    by_cases second : HeaderAccepted cfg (g itsMetadataBlock1)
    · rw [if_pos second] at header₁
      exact ⟨_, _, header₀.bind (header₁.bind ((runs_pure _).bind (runs_modifyCtx _))),
        fun _ ↦ .inl rfl⟩
    · rw [if_neg second] at header₁
      refine ⟨_, _, header₀.bind (header₁.bind (runs_throw .genericError).bind_error),
        fun found ↦ ?_⟩
      cases found

theorem passes_wipe {C : Flash → Prop} (config : ValidConfig cfg) (some_file : 0 < cfg.maxNumFiles)
    {ctx₀ : Ctx} {result : Except Status Unit}
    (found : Runs cfg (fun _ _ ↦ False)
      (itsInitGetActiveMetablock cfg) ctx₀ g result ctx g) {first : ℕ}
    (first_eq : first = if result.isOk then ctx.scratchMetablock else itsMetadataBlock0)
    (metablock : first = 0 ∨ first = 1) (before : C g) (erased : C (eraseBlock cfg first g))
    (covers : ∀ h, Refused cfg h ∨ Holds cfg (fun _ ↦ none) h → C h) :
    ∃ ctx' f', Passes cfg C (itsFlashFsWipeAll cfg) ctx₀ g (.ok ()) ctx' f' ∧
      Holds cfg (fun _ ↦ none) f' := by
  have both : ∀ b < 2, ∀ o < cfg.blockSize,
      eraseBlock cfg (itsOtherMetaBlock first) (eraseBlock cfg first g) b o = cfg.eraseVal := by
    intro b b_lt o bound
    by_cases here : b = first
    · exact eraseBlock_erased bound (here ▸ eraseBlock_self bound)
    · have other : b = itsOtherMetaBlock first := by
        rw [itsOtherMetaBlock, itsMetadataBlock0, itsMetadataBlock1]
        split <;> omega
      exact other ▸ eraseBlock_self bound
  have header_le := le_headerSize cfg
  have metadata_le := (headerSize_le_metadataEnd cfg).trans config.metadata_le
  have refused : Refused cfg (eraseBlock cfg (itsOtherMetaBlock first) (eraseBlock cfg first g)) :=
    refused_of_erased fun b b_lt o o_lt ↦ both b b_lt o (by omega)
  have wipe : WipeCtx cfg
      { metaBlockHeader :=
          { ctx.metaBlockHeader with
            activeSwapCount := if cfg.eraseVal = 0x00 then 1 else 0
            scratchDblock := itsInitScratchDblock cfg
            fsVersion := itsSupportedVersion }
        scratchMetablock := itsMetadataBlock1
        activeMetablock := itsMetadataBlock0 } := ⟨rfl, rfl, rfl, rfl⟩
  obtain ⟨ctx', f', fill, empty⟩ := passes_fillMetablock config some_file wipe both
  refine ⟨ctx', f', (found.result.passes_silent before).bind
    ((runs_getCtx.passes_silent before).bind ?_), empty⟩
  dsimp only
  rw [← first_eq]
  exact (passes_erase before erased).bind ((passes_erase erased (covers _ (.inl refused))).bind
    (((runs_modifyCtx _).passes_silent (covers _ (.inl refused))).bind (fill.mono covers)))

/-- Whatever is in the flash, a wipe leaves an empty file system. -/
theorem runs_wipeAll (config : ValidConfig cfg) (some_file : 0 < cfg.maxNumFiles) (ctx : Ctx)
    (g : Flash) :
    ∃ ctx' f', Passes cfg (fun _ ↦ True) (itsFlashFsWipeAll cfg) ctx g (.ok ()) ctx' f' ∧
      Holds cfg (fun _ ↦ none) f' := by
  obtain ⟨result, ctx₁, found, metablock⟩ :=
    exists_getActiveMetablock (W := fun _ _ ↦ False) cfg ctx g
  refine passes_wipe config some_file found rfl ?_ trivial trivial fun _ _ ↦ trivial
  split
  · next ok => exact metablock ok
  · exact .inl rfl

/-- A wipe that is cut off leaves all of the files or none of them, or a mount refuses the flash. -/
theorem Holds.wipeAll {files : Files cfg} (holds : Holds cfg files g) (config : ValidConfig cfg)
    (eraseVal_ne : cfg.eraseVal ≠ 1) (some_file : 0 < cfg.maxNumFiles) (ctx₀ : Ctx) :
    ∃ ctx' f', Passes cfg
        (fun h ↦ Holds cfg files h ∨ Refused cfg h ∨ Holds cfg (fun _ ↦ none) h)
        (itsFlashFsWipeAll cfg) ctx₀ g (.ok ()) ctx' f' ∧ Holds cfg (fun _ ↦ none) f' := by
  obtain ⟨ctx, f, del, consistent, rfl, remains⟩ := holds
  have layout := consistent.layout
  have found : Runs cfg (fun _ _ ↦ False) (itsInitGetActiveMetablock cfg) ctx₀ g (.ok ())
      { ctx₀ with
        activeMetablock := ctx.activeMetablock
        scratchMetablock := ctx.scratchMetablock } g :=
    remains.runs_getActiveMetablock layout consistent.headerValid eraseVal_ne
  have metablocks := layout.blocks.active_lt
  have metablock : ctx.scratchMetablock = 0 ∨ ctx.scratchMetablock = 1 := by omega
  refine passes_wipe config some_file found rfl metablock
    (.inl ⟨ctx, f, del, consistent, rfl, remains⟩) (.inl ⟨ctx, f, del, consistent, rfl, ?_⟩)
    fun h other ↦ .inr other
  exact remains.eraseBlock layout (.inl rfl)

theorem Refused.eraseBlock (refused : Refused cfg g) (large : 8 ≤ cfg.blockSize) (b : ℕ) :
    Refused cfg (eraseBlock cfg b g) := by
  have kept : ∀ b', ¬HeaderAccepted cfg (g b') →
      ¬HeaderAccepted cfg (Its.eraseBlock cfg b g b') := by
    intro b' refused'
    by_cases here : b' = b
    · exact not_headerAccepted_of_erased fun o bound ↦ here ▸ eraseBlock_self (by omega)
    · rw [eraseBlock_of_ne here]
      exact refused'
  exact ⟨kept 0 refused.1, kept 1 refused.2⟩

/-- A wipe of a flash that is refused. -/
theorem Refused.wipeAll (refused : Refused cfg g) (config : ValidConfig cfg)
    (some_file : 0 < cfg.maxNumFiles) (ctx : Ctx) :
    ∃ ctx' f', Passes cfg (fun h ↦ Refused cfg h ∨ Holds cfg (fun _ ↦ none) h)
      (itsFlashFsWipeAll cfg)
        ctx g (.ok ()) ctx' f' ∧ Holds cfg (fun _ ↦ none) f' := by
  have header_le := le_headerSize cfg
  have metadata_le := (headerSize_le_metadataEnd cfg).trans config.metadata_le
  obtain ⟨result, ctx₁, found, metablock⟩ :=
    exists_getActiveMetablock (W := fun _ _ ↦ False) cfg ctx g
  refine passes_wipe config some_file found rfl ?_ (.inl refused)
    (.inl (refused.eraseBlock (by omega) _)) fun _ ↦ id
  split
  · next ok => exact metablock ok
  · exact .inl rfl

/-- A mount of a flash that is refused fails, and changes nothing. -/
theorem Refused.prepare (refused : Refused cfg g) (ctx : Ctx) :
    Runs cfg W (itsFlashFsPrepare cfg) ctx g (.error .genericError) ctx g := by
  have header₀ : Runs cfg W (validHeader cfg itsMetadataBlock0) ctx g _ ctx g :=
    runs_validHeader (.inl rfl)
  have header₁ : Runs cfg W (validHeader cfg itsMetadataBlock1) ctx g _ ctx g :=
    runs_validHeader (.inr rfl)
  rw [itsMetadataBlock0, if_neg refused.1] at header₀
  rw [itsMetadataBlock1, if_neg refused.2] at header₁
  have search : Runs cfg W (itsInitGetActiveMetablock cfg) ctx g (.error .genericError) ctx g :=
    header₀.bind (header₁.bind (runs_throw .genericError).bind_error)
  have init : Runs cfg W (itsFlashFsMblockInit cfg) ctx g (.error .genericError) ctx g :=
    search.orStatus.bind_error
  exact init.bind_error

end TrustedFirmwareM.Its
