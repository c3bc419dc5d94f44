import TrustedFirmwareM.Its.Layout

/-!
# Filling the scratch metadata block

An update writes the metadata of every block and of every file to the scratch metadata block: new
entries where something changes, and copies of the entries of the active metadata block elsewhere.
-/

namespace TrustedFirmwareM.Its

variable {cfg : Config} {W : ℕ → ℕ → Prop} {ctx : Ctx} {f f' start target : Flash}
  {written written' : ℕ → ℕ → Prop}

/-! ## Target of an update -/

/-- A metadata block is filled with new entries, and with copies of old ones where there is no new
entry. -/
structure TableTarget (cfg : Config) (active target : Bytes) (blocks : ℕ → Option BlockMeta)
    (files : ℕ → Option (FileMeta cfg)) : Prop where
  /-- New metadata of blocks. -/
  block_some : ∀ l < itsNumActiveDblocks cfg, ∀ blockMeta, blocks l = some blockMeta →
    ∀ j < itsBlockMetadataSize cfg,
      target (itsMblockBlockMetaOffset cfg l + j) = blockMeta.encode j
  /-- Old metadata of blocks. -/
  block_none : ∀ l < itsNumActiveDblocks cfg, blocks l = none →
    ∀ j < itsBlockMetadataSize cfg,
      target (itsMblockBlockMetaOffset cfg l + j) = active (itsMblockBlockMetaOffset cfg l + j)
  /-- New metadata of files. -/
  file_some : ∀ i < cfg.maxNumFiles, ∀ fileMeta, files i = some fileMeta →
    ∀ j < itsFileMetadataSize cfg,
      target (itsMblockFileMetaOffset cfg i + j) = fileMeta.encode j
  /-- Old metadata of files. -/
  file_none : ∀ i < cfg.maxNumFiles, files i = none →
    ∀ j < itsFileMetadataSize cfg,
      target (itsMblockFileMetaOffset cfg i + j) = active (itsMblockFileMetaOffset cfg i + j)

/-- A block with new entries. -/
def withTables (cfg : Config) (base : Bytes) (blocks : ℕ → Option BlockMeta)
    (files : ℕ → Option (FileMeta cfg)) : Bytes := fun o ↦
  if itsMblockBlockMetaOffset cfg 0 ≤ o ∧ o < itsMblockFileMetaOffset cfg 0 then
    match blocks ((o - itsMblockBlockMetaOffset cfg 0) / itsBlockMetadataSize cfg) with
    | some blockMeta =>
        blockMeta.encode ((o - itsMblockBlockMetaOffset cfg 0) % itsBlockMetadataSize cfg)
    | none => base o
  else if itsMblockFileMetaOffset cfg 0 ≤ o ∧ o < metadataEnd cfg then
    match files ((o - itsMblockFileMetaOffset cfg 0) / itsFileMetadataSize cfg) with
    | some fileMeta =>
        fileMeta.encode ((o - itsMblockFileMetaOffset cfg 0) % itsFileMetadataSize cfg)
    | none => base o
  else base o

theorem entry_div_mod {size l j : ℕ} (bound : j < size) (base : ℕ) :
    (base + l * size + j - base) / size = l ∧ (base + l * size + j - base) % size = j := by
  rw [Nat.add_assoc, Nat.add_sub_cancel_left, Nat.mul_comm]
  exact ⟨by rw [Nat.mul_add_div (Nat.zero_lt_of_lt bound), Nat.div_eq_of_lt bound, Nat.add_zero],
    by rw [Nat.mul_add_mod, Nat.mod_eq_of_lt bound]⟩

theorem withTables_block (base : Bytes) (blocks : ℕ → Option BlockMeta)
    (files : ℕ → Option (FileMeta cfg)) {l j : ℕ} (l_lt : l < itsNumActiveDblocks cfg)
    (j_lt : j < itsBlockMetadataSize cfg) :
    withTables cfg base blocks files (itsMblockBlockMetaOffset cfg l + j) =
      match blocks l with
      | some blockMeta => blockMeta.encode j
      | none => base (itsMblockBlockMetaOffset cfg l + j) := by
  have lo := blockMetaOffset_mono cfg (Nat.zero_le l)
  have hi := blockMetaOffset_lt cfg l_lt
  rw [blockMetaOffset_numActive] at hi
  obtain ⟨div, mod⟩ := entry_div_mod (l := l) j_lt (itsMblockBlockMetaOffset cfg 0)
  have offset : itsMblockBlockMetaOffset cfg l =
      itsMblockBlockMetaOffset cfg 0 + l * itsBlockMetadataSize cfg := by
    rw [blockMetaOffset_zero, itsMblockBlockMetaOffset]
  rw [← offset] at div mod
  rw [withTables, if_pos (by omega), div, mod]

theorem withTables_file (base : Bytes) (blocks : ℕ → Option BlockMeta)
    (files : ℕ → Option (FileMeta cfg)) {i j : ℕ} (i_lt : i < cfg.maxNumFiles)
    (j_lt : j < itsFileMetadataSize cfg) :
    withTables cfg base blocks files (itsMblockFileMetaOffset cfg i + j) =
      match files i with
      | some fileMeta => fileMeta.encode j
      | none => base (itsMblockFileMetaOffset cfg i + j) := by
  have lo := fileMetaOffset_mono cfg (Nat.zero_le i)
  have hi := fileMetaOffset_lt cfg i_lt
  obtain ⟨div, mod⟩ := entry_div_mod (l := i) j_lt (itsMblockFileMetaOffset cfg 0)
  have offset : itsMblockFileMetaOffset cfg i =
      itsMblockFileMetaOffset cfg 0 + i * itsFileMetadataSize cfg := by
    simp only [itsMblockFileMetaOffset, Nat.zero_mul, Nat.add_zero]
  rw [← offset] at div mod
  rw [withTables, if_neg (by omega), if_pos (by rw [metadataEnd]; omega), div, mod]

theorem withTables_data (base : Bytes) (blocks : ℕ → Option BlockMeta)
    (files : ℕ → Option (FileMeta cfg)) {o : ℕ} (behind : metadataEnd cfg ≤ o) :
    withTables cfg base blocks files o = base o := by
  have files_le : itsMblockFileMetaOffset cfg 0 ≤ metadataEnd cfg :=
    fileMetaOffset_mono cfg (Nat.zero_le _)
  rw [withTables, if_neg (by omega), if_neg (by omega)]

theorem tableTarget_withTables {active base : Bytes} {blocks : ℕ → Option BlockMeta}
    {files : ℕ → Option (FileMeta cfg)} (same : ∀ o < metadataEnd cfg, base o = active o) :
    TableTarget cfg active (withTables cfg base blocks files) blocks files where
  block_some l l_lt blockMeta eq j j_lt := by rw [withTables_block _ _ _ l_lt j_lt, eq]
  block_none l l_lt eq j j_lt := by
    have hi := blockMetaOffset_lt cfg l_lt
    rw [blockMetaOffset_numActive] at hi
    have files_le : itsMblockFileMetaOffset cfg 0 ≤ metadataEnd cfg :=
      fileMetaOffset_mono cfg (Nat.zero_le _)
    rw [withTables_block _ _ _ l_lt j_lt, eq]
    exact same _ (by omega)
  file_some i i_lt fileMeta eq j j_lt := by rw [withTables_file _ _ _ i_lt j_lt, eq]
  file_none i i_lt eq j j_lt := by
    have hi : itsMblockFileMetaOffset cfg i + itsFileMetadataSize cfg ≤ metadataEnd cfg :=
      fileMetaOffset_lt cfg i_lt
    rw [withTables_file _ _ _ i_lt j_lt, eq]
    exact same _ (by omega)

/-- The metadata of a block once the target is reached. -/
theorem TableTarget.blockMetaAt {active target block : Bytes} {blocks : ℕ → Option BlockMeta}
    {files : ℕ → Option (FileMeta cfg)}
    (tables : TableTarget cfg active target blocks files) {l : ℕ}
    (l_lt : l < itsNumActiveDblocks cfg)
    (same : ∀ j < itsBlockMetadataSize cfg,
      block (itsMblockBlockMetaOffset cfg l + j) = target (itsMblockBlockMetaOffset cfg l + j))
    (fits : ∀ blockMeta, blocks l = some blockMeta → blockMeta.Fits) :
    blockMetaAt cfg block l = (blocks l).getD (Its.blockMetaAt cfg active l) := by
  cases eq : blocks l with
  | none => exact blockMetaAt_congr fun j bound ↦
      (same j bound).trans (tables.block_none l l_lt eq j bound)
  | some blockMeta => exact blockMetaAt_encode (fits blockMeta eq) fun j bound ↦
      (same j bound).trans (tables.block_some l l_lt blockMeta eq j bound)

/-- The metadata of a file once the target is reached. -/
theorem TableTarget.fileMetaAt {active target block : Bytes} {blocks : ℕ → Option BlockMeta}
    {files : ℕ → Option (FileMeta cfg)}
    (tables : TableTarget cfg active target blocks files) {i : ℕ}
    (i_lt : i < cfg.maxNumFiles)
    (same : ∀ j < itsFileMetadataSize cfg,
      block (itsMblockFileMetaOffset cfg i + j) = target (itsMblockFileMetaOffset cfg i + j))
    (fits : ∀ fileMeta, files i = some fileMeta → fileMeta.Fits) :
    fileMetaAt cfg block i = (files i).getD (Its.fileMetaAt cfg active i) := by
  cases eq : files i with
  | none => exact fileMetaAt_congr fun j bound ↦
      (same j bound).trans (tables.file_none i i_lt eq j bound)
  | some fileMeta => exact fileMetaAt_encode (fits fileMeta eq) fun j bound ↦
      (same j bound).trans (tables.file_some i i_lt fileMeta eq j bound)

/-! ## Steps of an update -/

/-- An update is under way: the active metadata block is as it was, and the scratch metadata block
could be programmed at the start. -/
structure Staging (cfg : Config) (W : ℕ → ℕ → Prop) (ctx : Ctx) (start target : Flash)
    (written : ℕ → ℕ → Prop) (f : Flash) : Prop where
  /-- The bytes filled so far. -/
  filled : Filled start target written f
  /-- Nothing is written to the active metadata block. -/
  active_unwritten : ∀ o, ¬written ctx.activeMetablock o
  /-- The metadata blocks are different ones. -/
  metablocks : ctx.activeMetablock ≠ ctx.scratchMetablock
  /-- The active entries are valid. -/
  valid : EntriesValid cfg (start ctx.activeMetablock)
  /-- The scratch metadata block could be programmed. -/
  blank : ∀ o < metadataEnd cfg, cfg.Blank (start ctx.scratchMetablock o)
  /-- Metadata fits in a block. -/
  metadata_lt : metadataEnd cfg < 2 ^ 32
  /-- All of it but the header may change. -/
  within : ∀ o, itsBlockMetaHeaderSize cfg ≤ o → o < metadataEnd cfg → W ctx.scratchMetablock o

theorem Staging.active_eq (staging : Staging cfg W ctx start target written f) :
    f ctx.activeMetablock = start ctx.activeMetablock :=
  staging.filled.block_eq staging.active_unwritten

theorem Staging.extend (staging : Staging cfg W ctx start target written f) {block lo hi : ℕ}
    (filled : Filled start target (fun b o ↦ written b o ∨ InRange block lo hi b o) f')
    (other : ctx.activeMetablock ≠ block) :
    Staging cfg W ctx start target (fun b o ↦ written b o ∨ InRange block lo hi b o) f' where
  filled := filled
  active_unwritten o wrote := wrote.elim (staging.active_unwritten o) fun range ↦ other range.1
  metablocks := staging.metablocks
  valid := staging.valid
  blank := staging.blank
  metadata_lt := staging.metadata_lt
  within := staging.within

theorem Staging.congr (staging : Staging cfg W ctx start target written f)
    (same : ∀ b o, written b o ↔ written' b o) : Staging cfg W ctx start target written' f where
  filled := staging.filled.congr same
  active_unwritten o wrote := staging.active_unwritten o ((same _ _).2 wrote)
  metablocks := staging.metablocks
  valid := staging.valid
  blank := staging.blank
  metadata_lt := staging.metadata_lt
  within := staging.within

/-- A change of the context that keeps the metadata blocks. -/
theorem Staging.withCtx (staging : Staging cfg W ctx start target written f) (ctx' : Ctx)
    (active : ctx'.activeMetablock = ctx.activeMetablock)
    (scratch : ctx'.scratchMetablock = ctx.scratchMetablock) :
    Staging cfg W ctx' start target written f where
  filled := staging.filled
  active_unwritten := by rw [active]; exact staging.active_unwritten
  metablocks := by rw [active, scratch]; exact staging.metablocks
  valid := by rw [active]; exact staging.valid
  blank := by rw [scratch]; exact staging.blank
  metadata_lt := staging.metadata_lt
  within := by rw [scratch]; exact staging.within

/-- Write metadata to the scratch metadata block. -/
theorem Staging.runs_write (staging : Staging cfg W ctx start target written f) {lo size : ℕ}
    {data : Bytes} (header : itsBlockMetaHeaderSize cfg ≤ lo) (inside : lo + size ≤ metadataEnd cfg)
    (unwritten : ∀ o, lo ≤ o → o < lo + size → ¬written ctx.scratchMetablock o)
    (agrees : ∀ j < size, data j = target ctx.scratchMetablock (lo + j)) :
    ∃ f', Runs cfg W (FlashOp.write ctx.scratchMetablock lo size data).call ctx f (.ok ()) ctx f' ∧
      Staging cfg W ctx start target
        (fun b o ↦ written b o ∨ InRange ctx.scratchMetablock lo (lo + size) b o) f' := by
  obtain ⟨f', run, filled⟩ := Its.runs_write ctx staging.filled ctx.scratchMetablock lo size data
    (fun o le _ ↦ staging.within o (header.trans le) (by omega))
    (fun o _ hi ↦ staging.blank o (by omega)) unwritten agrees
  exact ⟨f', run, staging.extend filled staging.metablocks⟩

/-- Copy metadata to the scratch metadata block. -/
theorem Staging.runs_copy (staging : Staging cfg W ctx start target written f) {lo hi : ℕ}
    (header : itsBlockMetaHeaderSize cfg ≤ lo) (le : lo ≤ hi) (inside : hi ≤ metadataEnd cfg)
    (unwritten : ∀ o, lo ≤ o → o < hi → ¬written ctx.scratchMetablock o)
    (agrees : ∀ o, lo ≤ o → o < hi →
      start ctx.activeMetablock o = target ctx.scratchMetablock o) :
    ∃ f', Runs cfg W (itsFlashFsBlockToBlockMove ctx.scratchMetablock lo ctx.activeMetablock lo
        (sub32 hi lo)) ctx f (.ok ()) ctx f' ∧
      Staging cfg W ctx start target
        (fun b o ↦ written b o ∨ InRange ctx.scratchMetablock lo hi b o) f' := by
  have fits := staging.metadata_lt
  rw [sub32_eq le (by omega)]
  have total : lo + (hi - lo) = hi := by omega
  obtain ⟨f', run, filled⟩ := runs_blockToBlockMove ctx staging.filled
    (show lo + (hi - lo) < 2 ^ 32 by omega) (show lo + (hi - lo) < 2 ^ 32 by omega)
    (fun o le _ ↦ staging.within o (header.trans le) (by omega))
    (fun o _ bound ↦ staging.blank o (by omega)) (fun o lo_le bound ↦ unwritten o lo_le (by omega))
    staging.metablocks
    (fun j bound ↦ by
      rw [staging.active_eq]
      exact agrees (lo + j) (by omega) (by omega))
  rw [total] at filled
  exact ⟨f', run, staging.extend filled staging.metablocks⟩

section

variable {blocks : ℕ → Option BlockMeta} {files : ℕ → Option (FileMeta cfg)}

/-- Every offset behind the start of a table is in one of its entries. -/
theorem exists_blockMetaOffset {a b o : ℕ} (lo : itsMblockBlockMetaOffset cfg a ≤ o)
    (hi : o < itsMblockBlockMetaOffset cfg b) :
    ∃ l, a ≤ l ∧ l < b ∧ ∃ j < itsBlockMetadataSize cfg,
      o = itsMblockBlockMetaOffset cfg l + j := by
  induction b with
  | zero =>
      have mono := blockMetaOffset_mono cfg (Nat.zero_le a)
      omega
  | succ b ih =>
      by_cases before : o < itsMblockBlockMetaOffset cfg b
      · obtain ⟨l, a_le, l_lt, j, j_lt, eq⟩ := ih before
        exact ⟨l, a_le, by omega, j, j_lt, eq⟩
      · rw [blockMetaOffset_succ] at hi
        refine ⟨b, ?_, by omega, o - itsMblockBlockMetaOffset cfg b, by omega, by omega⟩
        by_contra behind
        have le := blockMetaOffset_lt cfg (Nat.lt_of_not_le behind)
        omega

theorem exists_fileMetaOffset {a b o : ℕ} (lo : itsMblockFileMetaOffset cfg a ≤ o)
    (hi : o < itsMblockFileMetaOffset cfg b) :
    ∃ i, a ≤ i ∧ i < b ∧ ∃ j < itsFileMetadataSize cfg, o = itsMblockFileMetaOffset cfg i + j := by
  induction b with
  | zero =>
      have mono := fileMetaOffset_mono cfg (Nat.zero_le a)
      omega
  | succ b ih =>
      by_cases before : o < itsMblockFileMetaOffset cfg b
      · obtain ⟨i, a_le, i_lt, j, j_lt, eq⟩ := ih before
        exact ⟨i, a_le, by omega, j, j_lt, eq⟩
      · rw [fileMetaOffset_succ] at hi
        refine ⟨b, ?_, by omega, o - itsMblockFileMetaOffset cfg b, by omega, by omega⟩
        by_contra behind
        have le := fileMetaOffset_lt cfg (Nat.lt_of_not_le behind)
        omega

theorem Staging.runs_updateScratchFileMeta (staging : Staging cfg W ctx start target written f)
    (tables : TableTarget cfg (start ctx.activeMetablock)
      (target ctx.scratchMetablock) blocks files)
    {i : ℕ} {fileMeta : FileMeta cfg} (bound : i < cfg.maxNumFiles)
    (entry : files i = some fileMeta)
    (unwritten : ∀ o, itsMblockFileMetaOffset cfg i ≤ o → o < itsMblockFileMetaOffset cfg (i + 1) →
      ¬written ctx.scratchMetablock o) :
    ∃ f', Runs cfg W (itsFlashFsMblockUpdateScratchFileMeta i fileMeta) ctx f (.ok ()) ctx f' ∧
      Staging cfg W ctx start target (fun b o ↦ written b o ∨
        InRange ctx.scratchMetablock (itsMblockFileMetaOffset cfg i)
          (itsMblockFileMetaOffset cfg (i + 1)) b o) f' := by
  rw [fileMetaOffset_succ] at unwritten ⊢
  obtain ⟨f', run, staging'⟩ := staging.runs_write (headerSize_le_fileMetaOffset cfg i)
    (fileMetaOffset_lt cfg bound) unwritten fun j j_lt ↦
      (tables.file_some i bound fileMeta entry j j_lt).symm
  exact ⟨f', runs_getCtx.bind run, staging'⟩

theorem Staging.runs_cpFileMeta (staging : Staging cfg W ctx start target written f)
    (tables : TableTarget cfg (start ctx.activeMetablock)
      (target ctx.scratchMetablock) blocks files)
    {a b : ℕ} (le : a ≤ b) (bound : b ≤ cfg.maxNumFiles)
    (old : ∀ i, a ≤ i → i < b → files i = none)
    (unwritten : ∀ o, itsMblockFileMetaOffset cfg a ≤ o → o < itsMblockFileMetaOffset cfg b →
      ¬written ctx.scratchMetablock o) :
    ∃ f', Runs cfg W (itsFlashFsMblockCpFileMeta cfg a b) ctx f (.ok ()) ctx f' ∧
      Staging cfg W ctx start target (fun block o ↦ written block o ∨
        InRange ctx.scratchMetablock (itsMblockFileMetaOffset cfg a)
          (itsMblockFileMetaOffset cfg b) block o) f' := by
  obtain ⟨f', run, staging'⟩ := staging.runs_copy (headerSize_le_fileMetaOffset cfg a)
    (fileMetaOffset_mono cfg le) (fileMetaOffset_mono cfg bound) unwritten fun o lo hi ↦ by
      obtain ⟨i, a_le, i_lt, j, j_lt, rfl⟩ := exists_fileMetaOffset lo hi
      exact (tables.file_none i (by omega) (old i a_le i_lt) j j_lt).symm
  exact ⟨f', runs_getCtx.bind run, staging'⟩

theorem Staging.runs_writeBlockMeta (staging : Staging cfg W ctx start target written f)
    (tables : TableTarget cfg (start ctx.activeMetablock)
      (target ctx.scratchMetablock) blocks files)
    {l : ℕ} {blockMeta : BlockMeta} (bound : l < itsNumActiveDblocks cfg)
    (entry : blocks l = some blockMeta)
    (unwritten : ∀ o, itsMblockBlockMetaOffset cfg l ≤ o →
      o < itsMblockBlockMetaOffset cfg (l + 1) →
      ¬written ctx.scratchMetablock o) :
    ∃ f', Runs cfg W (itsMblockUpdateScratchBlockMeta cfg l blockMeta) ctx f (.ok ()) ctx f' ∧
      Staging cfg W ctx start target (fun b o ↦ written b o ∨
        InRange ctx.scratchMetablock (itsMblockBlockMetaOffset cfg l)
          (itsMblockBlockMetaOffset cfg (l + 1)) b o) f' := by
  have le : itsMblockBlockMetaOffset cfg l + itsBlockMetadataSize cfg ≤ metadataEnd cfg := by
    calc
      itsMblockBlockMetaOffset cfg l + itsBlockMetadataSize cfg ≤
        itsMblockFileMetaOffset cfg 0 := by
        rw [← blockMetaOffset_numActive]
        exact blockMetaOffset_lt cfg bound
      _ ≤ metadataEnd cfg := fileMetaOffset_mono cfg (Nat.zero_le _)
  rw [blockMetaOffset_succ] at unwritten ⊢
  obtain ⟨f', run, staging'⟩ :=
    staging.runs_write (headerSize_le_blockMetaOffset cfg l) le unwritten
    fun j j_lt ↦ (tables.block_some l bound blockMeta entry j j_lt).symm
  exact ⟨f', runs_getCtx.bind run, staging'⟩

theorem Staging.runs_copyBlockMeta (staging : Staging cfg W ctx start target written f)
    (tables : TableTarget cfg (start ctx.activeMetablock)
      (target ctx.scratchMetablock) blocks files)
    {a b : ℕ} (le : a ≤ b) (bound : b ≤ itsNumActiveDblocks cfg)
    (old : ∀ l, a ≤ l → l < b → blocks l = none)
    (unwritten : ∀ o, itsMblockBlockMetaOffset cfg a ≤ o → o < itsMblockBlockMetaOffset cfg b →
      ¬written ctx.scratchMetablock o) :
    ∃ f', Runs cfg W
      (itsFlashFsBlockToBlockMove ctx.scratchMetablock (itsMblockBlockMetaOffset cfg a)
        ctx.activeMetablock (itsMblockBlockMetaOffset cfg a)
        (sub32 (itsMblockBlockMetaOffset cfg b)
          (itsMblockBlockMetaOffset cfg a))) ctx f (.ok ()) ctx f' ∧
      Staging cfg W ctx start target (fun block o ↦ written block o ∨
        InRange ctx.scratchMetablock (itsMblockBlockMetaOffset cfg a)
          (itsMblockBlockMetaOffset cfg b) block o) f' := by
  have hi : itsMblockBlockMetaOffset cfg b ≤ metadataEnd cfg := by
    calc
      itsMblockBlockMetaOffset cfg b ≤ itsMblockFileMetaOffset cfg 0 := by
        rw [← blockMetaOffset_numActive]
        exact blockMetaOffset_mono cfg bound
      _ ≤ metadataEnd cfg := fileMetaOffset_mono cfg (Nat.zero_le _)
  refine staging.runs_copy (headerSize_le_blockMetaOffset cfg a)
    (blockMetaOffset_mono cfg le) hi unwritten fun o lo hi ↦ ?_
  obtain ⟨l, a_le, l_lt, j, j_lt, rfl⟩ := exists_blockMetaOffset lo hi
  exact (tables.block_none l (by omega) (old l a_le l_lt) j j_lt).symm

/-- All metadata of blocks is written, with new metadata for one of them and, in any case, for
logical block 0. -/
theorem Staging.runs_updateScratchBlockMeta (staging : Staging cfg W ctx start target written f)
    (tables : TableTarget cfg (start ctx.activeMetablock)
      (target ctx.scratchMetablock) blocks files)
    {l : ℕ} {blockMeta : BlockMeta} (bound : l < itsNumActiveDblocks cfg)
    (entry : blocks l = some
      (if l = 0 then { blockMeta with phyId := ctx.scratchMetablock } else blockMeta))
    (zero : l ≠ 0 → blocks 0 = some
      { blockMetaAt cfg (start ctx.activeMetablock) 0 with phyId := ctx.scratchMetablock })
    (old : ∀ k, k ≠ 0 → k ≠ l → blocks k = none)
    (unwritten : ∀ o, o < itsMblockFileMetaOffset cfg 0 → ¬written ctx.scratchMetablock o) :
    ∃ f', Runs cfg W (itsFlashFsMblockUpdateScratchBlockMeta cfg l blockMeta) ctx f
      (.ok ()) ctx f' ∧
      Staging cfg W ctx start target (fun b o ↦ written b o ∨
        InRange ctx.scratchMetablock (itsMblockBlockMetaOffset cfg 0)
          (itsMblockFileMetaOffset cfg 0) b o) f' := by
  have files_eq := blockMetaOffset_numActive cfg
  have hi : itsMblockBlockMetaOffset cfg (l + 1) ≤
      itsMblockBlockMetaOffset cfg (itsNumActiveDblocks cfg) := blockMetaOffset_mono cfg bound
  have here : itsMblockBlockMetaOffset cfg l ≤ itsMblockBlockMetaOffset cfg (l + 1) :=
    blockMetaOffset_mono cfg (Nat.le_succ l)
  obtain ⟨f₁, run₁, staging₁⟩ := staging.runs_writeBlockMeta tables bound entry
    fun o _ hi' ↦ unwritten o (by omega)
  by_cases first : l = 0
  · have origin : itsMblockBlockMetaOffset cfg l = itsMblockBlockMetaOffset cfg 0 := by rw [first]
    obtain ⟨f₂, run₂, staging₂⟩ := staging₁.runs_copyBlockMeta tables (show l + 1 ≤ _ from bound)
      le_rfl (fun k lo _ ↦ old k (by omega) (by omega))
      (fun o lo hi' wrote ↦ wrote.elim (unwritten o (by omega)) fun range ↦ by
        obtain ⟨_, _, lt⟩ := range
        omega)
    refine ⟨f₂, ?_, staging₂.congr fun b o ↦ ?_⟩
    · rw [files_eq] at run₂
      refine runs_getCtx.bind (run₁.orStatus.bind (runs_getCtx.bind ?_))
      dsimp only
      rw [if_neg (show ¬l ≠ itsLogicalDblock0 from not_not.2 first)]
      exact run₂
    · simp only [InRange, or_assoc]
      refine or_congr_right ⟨fun range ↦ ?_, fun range ↦ ?_⟩ <;> omega
  · have one : itsMblockBlockMetaOffset cfg (0 + 1) = itsMblockBlockMetaOffset cfg 1 := rfl
    have lo : itsMblockBlockMetaOffset cfg 1 ≤ itsMblockBlockMetaOffset cfg l :=
      blockMetaOffset_mono cfg (Nat.one_le_iff_ne_zero.2 first)
    have begin_le : itsMblockBlockMetaOffset cfg 0 ≤ itsMblockBlockMetaOffset cfg 1 :=
      blockMetaOffset_mono cfg (Nat.zero_le 1)
    obtain ⟨f₂, run₂, staging₂⟩ := staging₁.runs_writeBlockMeta tables (numActiveDblocks_pos cfg)
      (zero first) (fun o _ hi' wrote ↦ wrote.elim (unwritten o (by omega)) fun range ↦ by
        obtain ⟨_, le, _⟩ := range
        omega)
    obtain ⟨f₃, run₃, staging₃⟩ := staging₂.runs_copyBlockMeta tables
      (Nat.one_le_iff_ne_zero.2 first) (Nat.le_of_lt bound)
      (fun k lo' hi' ↦ old k (by omega) (by omega))
      (fun o lo' hi' wrote ↦ by
        rcases wrote with (wrote | ⟨_, le, _⟩) | ⟨_, _, lt⟩
        · exact unwritten o (by omega) wrote
        · omega
        · omega)
    obtain ⟨f₄, run₄, staging₄⟩ := staging₃.runs_copyBlockMeta tables (show l + 1 ≤ _ from bound)
      le_rfl (fun k lo' _ ↦ old k (by omega) (by omega))
      (fun o lo' hi' wrote ↦ by
        rcases wrote with ((wrote | ⟨_, _, lt⟩) | ⟨_, _, lt⟩) | ⟨_, _, lt⟩
        · exact unwritten o (by omega) wrote
        · omega
        · omega
        · omega)
    refine ⟨f₄, ?_, staging₄.congr fun b o ↦ ?_⟩
    · rw [files_eq] at run₄
      rw [if_neg first] at run₁
      have read : Runs cfg W (itsFlashFsMblockReadBlockMetadata cfg 0) ctx f₁
          (.ok (blockMetaAt cfg (start ctx.activeMetablock) 0)) ctx f₁ := by
        rw [← staging₁.active_eq]
        refine runs_readBlockMetadata ?_
        rw [staging₁.active_eq]
        exact staging.valid.block 0 (numActiveDblocks_pos cfg)
      refine runs_getCtx.bind ?_
      rw [if_neg (show ¬l = itsLogicalDblock0 from first)]
      refine run₁.orStatus.bind (runs_getCtx.bind ?_)
      dsimp only
      rw [if_pos (show l ≠ itsLogicalDblock0 from first)]
      refine read.orStatus.bind (run₂.orStatus.bind ?_)
      by_cases further : l > 1
      · rw [if_pos further]
        exact run₃.bind run₄
      · -- There is nothing between logical block 0 and this one.
        have single : l = 1 := by omega
        rw [if_neg further]
        rw [single, sub32_self] at run₃
        have none_moved : Runs cfg W (itsFlashFsBlockToBlockMove ctx.scratchMetablock
            (itsMblockBlockMetaOffset cfg 1) ctx.activeMetablock (itsMblockBlockMetaOffset cfg 1) 0)
            ctx f₂ (.ok ()) ctx f₂ := runs_pure ()
        rw [← (none_moved.unique run₃).2.2] at run₄
        exact run₄
    · simp only [InRange, or_assoc]
      refine or_congr_right ⟨fun range ↦ ?_, fun range ↦ ?_⟩ <;> omega

end

end TrustedFirmwareM.Its
