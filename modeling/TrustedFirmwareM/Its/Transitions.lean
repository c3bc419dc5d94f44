import TrustedFirmwareM.Its.DataBlocks
import TrustedFirmwareM.Its.Mounting
import TrustedFirmwareM.Its.Packing

/-!
# Updates as a whole

A write and a deletion both fill the scratch metadata block, and a scratch data block if they change
data, and commit them.  An update says what they are filled with; once it is committed, the file
system is in order again.
-/

namespace TrustedFirmwareM.Its

variable {cfg : Config} {ctx ctx₁ ctx' : Ctx} {f f₁ f' : Flash}

/-- The bytes that change before an update is committed. -/
def ScratchBytes (cfg : Config) (ctx : Ctx) : ℕ → ℕ → Prop := fun b o ↦
  o < cfg.blockSize ∧ (b = ctx.scratchMetablock ∧ itsBlockMetaHeaderSize cfg ≤ o ∨
    2 < cfg.numBlocks ∧ b = ctx.metaBlockHeader.scratchDblock)

/-- Before an update is committed, a mount brings back the file system as it was. -/
theorem Layout.remains_of_within (layout : Layout cfg ctx f) {g : Flash}
    (within : ∀ b o, ¬ScratchBytes cfg ctx b o → g b o = f b o) : Remains cfg ctx f g := by
  refine ⟨fun b o outside ↦ within b o ?_, fun accepted ↦ ?_⟩
  · rintro ⟨bound, ⟨metablock, -⟩ | dblock⟩
    · exact outside ⟨bound, .inl metablock⟩
    · exact outside ⟨bound, .inr dblock⟩
  · have header_le := le_headerSize cfg
    have large := layout.blockSize_pos
    refine (not_headerAccepted_of_erased (fun o bound ↦ ?_) accepted).elim
    rw [within, layout.erased_metablock o (by omega)]
    rintro ⟨-, ⟨-, header⟩ | ⟨numBlocks, dblock⟩⟩
    · omega
    · have le := layout.scratchDblock_ne numBlocks
      have metablocks := layout.blocks.active_lt
      omega

/-- What an update changes. -/
structure Update (cfg : Config) where
  /-- The logical block whose metadata changes. -/
  lblock : ℕ
  /-- Its data is rebuilt in a scratch block. -/
  rebuilt : Bool
  /-- Its free size after the update. -/
  freeSize : ℕ
  /-- Its data after the update. -/
  data : Bytes
  /-- New metadata of files. -/
  files : ℕ → Option (FileMeta cfg)

namespace Update

variable (u : Update cfg)

/-- The free sizes after the update. -/
def free (ctx : Ctx) (f : Flash) (l : ℕ) : ℕ :=
  if l = u.lblock then u.freeSize else (ctx.blockMeta cfg f l).freeSize

/-- The metadata of the block after the update. -/
def newBlock (ctx : Ctx) (f : Flash) : BlockMeta :=
  { ctx.blockMeta cfg f u.lblock with
    phyId := if u.lblock = 0 then ctx.scratchMetablock
      else if u.rebuilt then ctx.metaBlockHeader.scratchDblock
      else (ctx.blockMeta cfg f u.lblock).phyId
    freeSize := u.freeSize }

/-- New metadata of blocks. -/
def blocks (ctx : Ctx) (f : Flash) (l : ℕ) : Option BlockMeta :=
  if l = u.lblock then some (u.newBlock ctx f)
  else if l = 0 then some { ctx.blockMeta cfg f 0 with phyId := ctx.scratchMetablock }
  else none

/-- What the scratch blocks are filled with. -/
def target (ctx : Ctx) (f : Flash) : Flash := fun b ↦
  if b = ctx.scratchMetablock then
    withTables cfg (fun o ↦ if u.lblock = 0 ∧ u.rebuilt = true ∧ metadataEnd cfg ≤ o then u.data o
      else f ctx.activeMetablock o) (u.blocks ctx f) u.files
  else u.data

/-- The context once the data is in place. -/
def exchanged (ctx : Ctx) (f : Flash) : Ctx :=
  if u.rebuilt ∧ u.lblock ≠ 0 then
    { ctx with metaBlockHeader :=
        { ctx.metaBlockHeader with scratchDblock := (ctx.blockMeta cfg f u.lblock).phyId } }
  else ctx

/-- The files are still packed after the update. -/
structure Sound (ctx : Ctx) (f : Flash) : Prop where
  /-- The update is about a logical block. -/
  lblock_lt : u.lblock < itsNumActiveDblocks cfg
  /-- New metadata fits. -/
  files_fit : ∀ i file, u.files i = some file → file.Fits
  /-- The files are packed. -/
  packed : Packed cfg (fun i ↦ (u.files i).getD (ctx.fileMeta cfg f i)) (u.free ctx f)

/-- Everything but the header of the scratch metadata block has been written. -/
structure Complete (ctx : Ctx) (f : Flash) (written : ℕ → ℕ → Prop) : Prop where
  /-- The header is still to be written. -/
  header : ∀ o < itsBlockMetaHeaderSize cfg, ¬written ctx.scratchMetablock o
  /-- The metadata has been written. -/
  tables : ∀ o, itsMblockBlockMetaOffset cfg 0 ≤ o → o < metadataEnd cfg →
    written ctx.scratchMetablock o
  /-- The data of the block has been written, where it is not to be erased. -/
  data : u.rebuilt = true → ∀ o, dataStart cfg u.lblock ≤ o → o + u.freeSize < cfg.blockSize →
    written (ctx.scratchId u.lblock) o ∨ u.data o = cfg.eraseVal
  /-- The data of logical block 0 has been written, where it is not the block that is rebuilt. -/
  migrated : u.lblock ≠ 0 ∨ u.rebuilt = false → ∀ o, metadataEnd cfg ≤ o →
    o + (ctx.blockMeta cfg f 0).freeSize < cfg.blockSize → written ctx.scratchMetablock o
  /-- Nothing else has been written. -/
  only : ∀ b o, written b o →
    b = ctx.scratchMetablock ∨ u.rebuilt = true ∧ b = ctx.scratchId u.lblock

/-- Everything but the header of the scratch metadata block is in place. -/
structure Prepared (ctx : Ctx) (f f₁ : Flash) : Prop where
  /-- The header is still to be written. -/
  header : ∀ o < itsBlockMetaHeaderSize cfg, f₁ ctx.scratchMetablock o = cfg.eraseVal
  /-- The metadata of the files. -/
  fileMeta : ∀ i < cfg.maxNumFiles, fileMetaAt cfg (f₁ ctx.scratchMetablock) i =
    (u.files i).getD (ctx.fileMeta cfg f i)
  /-- The metadata of the blocks. -/
  blockMeta : ∀ l < itsNumActiveDblocks cfg, blockMetaAt cfg (f₁ ctx.scratchMetablock) l =
    (u.blocks ctx f l).getD (ctx.blockMeta cfg f l)
  /-- Other blocks are as they were. -/
  others : ∀ b, b ≠ ctx.scratchMetablock → (u.rebuilt = true → b ≠ ctx.scratchId u.lblock) →
    f₁ b = f b
  /-- The data of the block. -/
  data : u.rebuilt = true → ∀ o, dataStart cfg u.lblock ≤ o → o + u.freeSize < cfg.blockSize →
    f₁ (ctx.scratchId u.lblock) o = u.data o
  /-- The data of logical block 0, where it is not the block that is rebuilt. -/
  migrated : u.lblock ≠ 0 ∨ u.rebuilt = false → ∀ o, metadataEnd cfg ≤ o →
    o + (ctx.blockMeta cfg f 0).freeSize < cfg.blockSize →
      f₁ ctx.scratchMetablock o = f ctx.activeMetablock o

/-- The update is committed. -/
structure Done (ctx : Ctx) (f : Flash) (ctx' : Ctx) (f' : Flash) : Prop where
  /-- The file system is in order. -/
  layout : Layout cfg ctx' f'
  /-- The header is valid. -/
  headerValid : HeaderValid cfg ctx' f'
  /-- The metadata of the files. -/
  fileMeta_eq : ∀ i < cfg.maxNumFiles, ctx'.fileMeta cfg f' i =
    (u.files i).getD (ctx.fileMeta cfg f i)
  /-- The free sizes. -/
  freeSize_eq : ∀ l < itsNumActiveDblocks cfg,
    (ctx'.blockMeta cfg f' l).freeSize = u.free ctx f l
  /-- The data of the block that is rebuilt. -/
  data_eq : u.rebuilt = true → ∀ o, dataStart cfg u.lblock ≤ o → o + u.freeSize < cfg.blockSize →
    ctx'.cell cfg f' u.lblock o = u.data o
  /-- The data of the other blocks. -/
  cell_eq : ∀ l < itsNumActiveDblocks cfg, ¬(u.rebuilt = true ∧ l = u.lblock) → ∀ o,
    dataStart cfg l ≤ o → o + (ctx.blockMeta cfg f l).freeSize < cfg.blockSize →
      ctx'.cell cfg f' l o = ctx.cell cfg f l o

variable {u}

theorem exchanged_activeMetablock : (u.exchanged ctx f).activeMetablock = ctx.activeMetablock := by
  rw [exchanged]
  split <;> rfl

theorem exchanged_scratchMetablock : (u.exchanged ctx f).scratchMetablock =
    ctx.scratchMetablock := by
  rw [exchanged]
  split <;> rfl

theorem exchanged_fsVersion :
    (u.exchanged ctx f).metaBlockHeader.fsVersion = ctx.metaBlockHeader.fsVersion := by
  rw [exchanged]
  split <;> rfl

/-- The scratch block of a logical block is apart from the blocks in use. -/
theorem scratchId_apart (layout : Layout cfg ctx f) {l : ℕ} (l_lt : l < itsNumActiveDblocks cfg) :
    (ctx.blockMeta cfg f l).phyId ≠ ctx.scratchId l ∧ ctx.activeMetablock ≠ ctx.scratchId l ∧
      (l ≠ 0 → ctx.scratchMetablock ≠ ctx.scratchId l ∧
        ctx.scratchMetablock ≠ (ctx.blockMeta cfg f l).phyId) := by
  have metablocks := layout.blocks.metablocks
  rw [Ctx.scratchId]
  by_cases zero : l = 0
  · have phyId := layout.blocks.phyId_zero
    rw [if_pos zero, zero, phyId]
    exact ⟨by omega, by omega, fun ne ↦ (ne rfl).elim⟩
  · have large := two_lt_of_lblock layout.config l_lt zero
    have scratch := layout.blocks.scratchDblock_bounds large
    have bounds := layout.blocks.phyId_bounds l l_lt zero
    rw [if_neg zero]
    exact ⟨layout.blocks.scratchDblock_ne large l l_lt, by omega, fun _ ↦ ⟨by omega, by omega⟩⟩

theorem newBlock_fits (layout : Layout cfg ctx f) (sound : u.Sound ctx f) :
    (u.newBlock ctx f).Fits := by
  have old := fits_blockMetaAt cfg (f ctx.activeMetablock) u.lblock
  have free_le := sound.packed.free_le u.lblock sound.lblock_lt
  have fits := cfg.blockSize_lt
  have metablocks := layout.blocks.metablocks
  have numBlocks_lt := cfg.numBlocks_lt
  rw [free, if_pos rfl] at free_le
  constructor
  · rw [newBlock]
    dsimp only
    split
    · omega
    · next ne =>
        split
        · have large := two_lt_of_lblock layout.config sound.lblock_lt ne
          have bounds := layout.blocks.scratchDblock_bounds large
          omega
        · exact old.phyId
  · exact old.dataStart
  · change u.freeSize < 2 ^ 32
    omega

theorem blocks_fit (layout : Layout cfg ctx f) (sound : u.Sound ctx f) (l : ℕ)
    (blockMeta : BlockMeta)
    (eq : u.blocks ctx f l = some blockMeta) : blockMeta.Fits := by
  rw [blocks] at eq
  split at eq
  · cases eq
    exact newBlock_fits layout sound
  · split at eq
    · cases eq
      have old := fits_blockMetaAt cfg (f ctx.activeMetablock) 0
      have metablocks := layout.blocks.metablocks
      exact ⟨show ctx.scratchMetablock < 2 ^ 32 by omega, old.dataStart, old.freeSize⟩
    · cases eq

theorem target_tables (u : Update cfg) (ctx : Ctx) (f : Flash) :
    TableTarget cfg (f ctx.activeMetablock) (u.target ctx f ctx.scratchMetablock) (u.blocks ctx f)
      u.files := by
  rw [target, if_pos rfl]
  apply tableTarget_withTables
  intro o bound
  rw [if_neg fun both ↦ by omega]

/-- The data that the scratch block of the logical block is filled with. -/
theorem target_scratchId (layout : Layout cfg ctx f) (sound : u.Sound ctx f)
    (rebuilt : u.rebuilt = true) {o : ℕ} (behind : dataStart cfg u.lblock ≤ o) :
    u.target ctx f (ctx.scratchId u.lblock) o = u.data o := by
  rw [target]
  by_cases zero : u.lblock = 0
  · rw [dataStart, if_pos zero] at behind
    rw [Ctx.scratchId, if_pos zero, if_pos rfl, withTables_data _ _ _ behind,
      if_pos ⟨zero, rebuilt, behind⟩]
  · rw [if_neg ((scratchId_apart layout sound.lblock_lt).2.2 zero).1.symm]

theorem target_migrated (apart : u.lblock ≠ 0 ∨ u.rebuilt = false) {o : ℕ}
    (behind : metadataEnd cfg ≤ o) :
    u.target ctx f ctx.scratchMetablock o = f ctx.activeMetablock o := by
  rw [target, if_pos rfl, withTables_data _ _ _ behind, if_neg]
  rintro ⟨zero, rebuilt, -⟩
  rcases apart with ne | not_rebuilt
  · exact ne zero
  · rw [not_rebuilt] at rebuilt
    cases rebuilt

theorem blocks_lblock (u : Update cfg) (ctx : Ctx) (f : Flash) :
    u.blocks ctx f u.lblock = some (u.newBlock ctx f) := if_pos rfl

theorem blocks_zero (ne : u.lblock ≠ 0) : u.blocks ctx f 0 =
    some { ctx.blockMeta cfg f 0 with phyId := ctx.scratchMetablock } := by
  rw [blocks, if_neg ne.symm, if_pos rfl]

theorem blocks_none {l : ℕ} (zero : l ≠ 0) (ne : l ≠ u.lblock) : u.blocks ctx f l = none := by
  rw [blocks, if_neg ne, if_neg zero]

theorem staging (u : Update cfg) (layout : Layout cfg ctx f) {written : ℕ → ℕ → Prop}
    (filled : Filled f (u.target ctx f) written f₁)
    (unwritten : ∀ o, ¬written ctx.activeMetablock o) :
    Staging cfg (ScratchBytes cfg ctx) ctx f (u.target ctx f) written f₁ where
  filled := filled
  active_unwritten := unwritten
  metablocks := layout.blocks.active_ne_scratch
  valid := layout.entriesValid
  blank _ bound := layout.blank_metablock (Nat.lt_of_lt_of_le bound layout.config.metadata_le)
  metadata_lt := layout.metadata_lt
  within _ header bound :=
    ⟨Nat.lt_of_lt_of_le bound layout.config.metadata_le, .inl ⟨rfl, header⟩⟩

/-- The data of a logical block can be copied to its scratch block. -/
theorem copyTarget (layout : Layout cfg ctx f) {l : ℕ} (l_lt : l < itsNumActiveDblocks cfg)
    {written : ℕ → ℕ → Prop} (unwritten : ∀ o, ¬written (ctx.blockMeta cfg f l).phyId o) :
    CopyTarget cfg (ScratchBytes cfg ctx) ctx f written (ctx.scratchId l)
      (ctx.blockMeta cfg f l).phyId where
  active_ne := (scratchId_apart layout l_lt).2.1
  src_ne := (scratchId_apart layout l_lt).1
  src_unwritten := unwritten
  blank o bound := by
    rw [Ctx.scratchId]
    split
    · exact layout.blank_metablock bound
    · next ne => exact layout.blank_dblock (two_lt_of_lblock layout.config l_lt ne) bound
  within o bound header := by
    rw [Ctx.scratchId] at header ⊢
    split
    · next zero =>
        rw [if_pos zero] at header
        exact ⟨bound, .inl ⟨rfl, header rfl⟩⟩
    · next ne => exact ⟨bound, .inr ⟨two_lt_of_lblock layout.config l_lt ne, rfl⟩⟩

/-- The data of logical block 0 is copied to the scratch metadata block. -/
theorem runs_migrate (layout : Layout cfg ctx f) {written : ℕ → ℕ → Prop}
    (staging : Staging cfg (ScratchBytes cfg ctx) ctx₁ f (u.target ctx f) written f₁)
    (active : ctx₁.activeMetablock = ctx.activeMetablock)
    (scratch : ctx₁.scratchMetablock = ctx.scratchMetablock)
    (apart : u.lblock ≠ 0 ∨ u.rebuilt = false)
    (unwritten : ∀ o, metadataEnd cfg ≤ o → ¬written ctx₁.scratchMetablock o) :
    ∃ f', Runs cfg (ScratchBytes cfg ctx) (itsFlashFsMblockMigrateLb0DataToScratch cfg) ctx₁ f₁
        (.ok ()) ctx₁ f' ∧
      Staging cfg (ScratchBytes cfg ctx) ctx₁ f (u.target ctx f) (fun b o ↦ written b o ∨
        InRange ctx₁.scratchMetablock (metadataEnd cfg)
          (cfg.blockSize - (ctx.blockMeta cfg f 0).freeSize) b o) f' := by
  have start_eq : (ctx.blockMeta cfg f 0).dataStart = metadataEnd cfg :=
    (layout.blocks.dataStart_eq 0 (numActiveDblocks_pos cfg)).trans (if_pos rfl)
  have free_le := layout.packed.free_le 0 (numActiveDblocks_pos cfg)
  rw [dataStart, if_pos rfl] at free_le
  have copy : CopyTarget cfg (ScratchBytes cfg ctx) ctx₁ f written ctx₁.scratchMetablock
      ctx₁.activeMetablock := by
    have elsewhere := staging.active_unwritten
    have phyId := layout.blocks.phyId_zero
    rw [active, ← phyId] at elsewhere
    have copy := (copyTarget layout
      (numActiveDblocks_pos cfg) elsewhere).withCtx ctx₁ active scratch
    rw [phyId, Ctx.scratchId, if_pos rfl, ← active, ← scratch] at copy
    exact copy
  rw [Ctx.blockMeta, ← active] at start_eq free_le ⊢
  refine staging.runs_migrate copy unwritten start_eq free_le fun o behind ↦ ?_
  rw [scratch, active]
  exact target_migrated apart behind

/-- Everything that has been written is in place. -/
theorem prepared_of_complete (layout : Layout cfg ctx f) (sound : u.Sound ctx f)
    {written : ℕ → ℕ → Prop} (filled : Filled f (u.target ctx f) written f₁)
    (complete : u.Complete ctx f written) : u.Prepared ctx f f₁ := by
  have metadata_le := layout.config.metadata_le
  have files_le : itsMblockFileMetaOffset cfg 0 ≤ metadataEnd cfg :=
    fileMetaOffset_mono cfg (Nat.zero_le _)
  have blocks_le : itsMblockBlockMetaOffset cfg 0 ≤ itsMblockFileMetaOffset cfg 0 := by
    rw [← blockMetaOffset_numActive]
    exact blockMetaOffset_mono cfg (Nat.zero_le _)
  have table : ∀ o, itsMblockBlockMetaOffset cfg 0 ≤ o → o < metadataEnd cfg →
      f₁ ctx.scratchMetablock o = u.target ctx f ctx.scratchMetablock o :=
    fun o lo hi ↦ (filled _ o).1 (complete.tables o lo hi)
  constructor
  · intro o bound
    rw [(filled _ o).2 (complete.header o bound)]
    exact layout.erased_metablock o
      (bound.trans_le ((headerSize_le_metadataEnd cfg).trans metadata_le))
  · intro i bound
    have hi : itsMblockFileMetaOffset cfg i + itsFileMetadataSize cfg ≤ metadataEnd cfg :=
      fileMetaOffset_lt cfg bound
    have lo := fileMetaOffset_mono cfg (Nat.zero_le i)
    exact (target_tables u ctx f).fileMetaAt bound (fun j _ ↦ table _ (by omega) (by omega))
      (sound.files_fit i)
  · intro l bound
    have hi := blockMetaOffset_lt cfg bound
    rw [blockMetaOffset_numActive] at hi
    have lo := blockMetaOffset_mono cfg (Nat.zero_le l)
    exact (target_tables u ctx f).blockMetaAt bound (fun j _ ↦ table _ (by omega) (by omega))
      (blocks_fit layout sound l)
  · intro b ne other
    apply filled.block_eq
    intro o wrote
    rcases complete.only b o wrote with same | ⟨rebuilt, same⟩
    · exact ne same
    · exact other rebuilt same
  · intro rebuilt o behind bound
    rcases complete.data rebuilt o behind bound with wrote | erased
    · rw [(filled _ o).1 wrote]
      exact target_scratchId layout sound rebuilt behind
    · by_cases wrote : written (ctx.scratchId u.lblock) o
      · rw [(filled _ o).1 wrote]
        exact target_scratchId layout sound rebuilt behind
      · rw [(filled _ o).2 wrote, erased, Ctx.scratchId]
        split
        · exact layout.erased_metablock o (by omega)
        · next ne =>
            exact layout.erased_dblock
              (two_lt_of_lblock layout.config sound.lblock_lt ne) o (by omega)
  · intro apart o behind bound
    rw [(filled _ o).1 (complete.migrated apart o behind bound)]
    exact target_migrated apart behind

/-! ## The file system after an update -/

theorem Prepared.freeSize (prepared : u.Prepared ctx f f₁) {l : ℕ}
    (bound : l < itsNumActiveDblocks cfg) :
    (blockMetaAt cfg (f₁ ctx.scratchMetablock) l).freeSize = u.free ctx f l := by
  rw [prepared.blockMeta l bound, blocks, free]
  split
  · rfl
  · split
    · next zero => rw [Option.getD_some, zero]
    · rfl

theorem Prepared.phyId (prepared : u.Prepared ctx f f₁) {l : ℕ}
    (bound : l < itsNumActiveDblocks cfg) :
    (blockMetaAt cfg (f₁ ctx.scratchMetablock) l).phyId =
      if l = 0 then ctx.scratchMetablock
      else if l = u.lblock ∧ u.rebuilt = true then ctx.metaBlockHeader.scratchDblock
      else (ctx.blockMeta cfg f l).phyId := by
  rw [prepared.blockMeta l bound, blocks]
  by_cases zero : l = 0
  · rw [if_pos zero]
    split
    · next here =>
        rw [Option.getD_some, newBlock]
        dsimp only
        rw [← here, if_pos zero]
    · rfl
  · rw [if_neg zero, if_neg zero]
    split
    · next here =>
        subst here
        rw [Option.getD_some, newBlock]
        dsimp only
        rw [if_neg zero]
        simp only [true_and]
    · next other => rw [Option.getD_none, if_neg fun both ↦ other both.1]

theorem Prepared.dataStart_eq (prepared : u.Prepared ctx f f₁) (layout : Layout cfg ctx f) {l : ℕ}
    (bound : l < itsNumActiveDblocks cfg) :
    (blockMetaAt cfg (f₁ ctx.scratchMetablock) l).dataStart = dataStart cfg l := by
  have old := layout.blocks.dataStart_eq
  rw [prepared.blockMeta l bound, blocks]
  split
  · next here =>
      subst here
      exact old _ bound
  · split
    · next zero =>
        subst zero
        exact old 0 bound
    · exact old l bound

/-- The scratch data block of the next update. -/
theorem exchanged_scratchDblock : (u.exchanged ctx f).metaBlockHeader.scratchDblock =
    if u.rebuilt = true ∧ u.lblock ≠ 0 then (ctx.blockMeta cfg f u.lblock).phyId
    else ctx.metaBlockHeader.scratchDblock := by
  rw [exchanged]
  split <;> rfl

theorem Prepared.blocksApart (prepared : u.Prepared ctx f f₁) (layout : Layout cfg ctx f)
    (sound : u.Sound ctx f) :
    BlocksApart cfg ctx.scratchMetablock ctx.activeMetablock
      (u.exchanged ctx f).metaBlockHeader.scratchDblock
      (blockMetaAt cfg (f₁ ctx.scratchMetablock)) := by
  have blocks := layout.blocks
  have metablocks := blocks.metablocks
  have zero_lt := numActiveDblocks_pos cfg
  constructor
  · omega
  · rw [prepared.phyId zero_lt, if_pos rfl]
  · intro l bound ne
    have large := two_lt_of_lblock layout.config bound ne
    rw [prepared.phyId bound, if_neg ne]
    split
    · exact blocks.scratchDblock_bounds large
    · exact blocks.phyId_bounds l bound ne
  · intro l bound l' bound' ne
    rw [prepared.phyId bound, prepared.phyId bound']
    have inj := blocks.phyId_inj l bound l' bound' ne
    by_cases zero : l = 0
    · have ne' : l' ≠ 0 := by omega
      have large := two_lt_of_lblock layout.config bound' ne'
      have scratch := blocks.scratchDblock_bounds large
      have bounds := blocks.phyId_bounds l' bound' ne'
      rw [if_pos zero, if_neg ne']
      split <;> omega
    · have large := two_lt_of_lblock layout.config bound zero
      have scratch := blocks.scratchDblock_bounds large
      have bounds := blocks.phyId_bounds l bound zero
      have scratch_ne := blocks.scratchDblock_ne large l bound
      have scratch_ne' := blocks.scratchDblock_ne large l' bound'
      rw [if_neg zero]
      by_cases zero' : l' = 0
      · rw [if_pos zero']
        split <;> omega
      · rw [if_neg zero']
        by_cases here : l = u.lblock ∧ u.rebuilt = true
        · have there : ¬(l' = u.lblock ∧ u.rebuilt = true) := by omega
          rw [if_pos here, if_neg there]
          exact scratch_ne'.symm
        · rw [if_neg here]
          split
          · exact scratch_ne
          · exact inj
  · intro l bound
    exact prepared.dataStart_eq layout bound
  · intro large
    rw [exchanged_scratchDblock]
    split
    · next both => exact blocks.phyId_bounds u.lblock sound.lblock_lt both.2
    · exact blocks.scratchDblock_bounds large
  · intro large l bound
    have scratch := blocks.scratchDblock_bounds large
    have scratch_ne := blocks.scratchDblock_ne large l bound
    rw [exchanged_scratchDblock, prepared.phyId bound]
    by_cases both : u.rebuilt = true ∧ u.lblock ≠ 0
    · have bounds := blocks.phyId_bounds u.lblock sound.lblock_lt both.2
      have taken_ne := blocks.scratchDblock_ne large u.lblock sound.lblock_lt
      have inj := blocks.phyId_inj l bound u.lblock sound.lblock_lt
      rw [if_pos both]
      by_cases zero : l = 0
      · rw [if_pos zero]
        omega
      · rw [if_neg zero]
        by_cases here : l = u.lblock ∧ u.rebuilt = true
        · rw [if_pos here]
          exact taken_ne.symm
        · rw [if_neg here]
          exact inj fun eq ↦ here ⟨eq, both.1⟩
    · rw [if_neg both]
      by_cases zero : l = 0
      · rw [if_pos zero]
        omega
      · have elsewhere : ¬(l = u.lblock ∧ u.rebuilt = true) :=
          fun here ↦ both ⟨here.2, here.1 ▸ zero⟩
        rw [if_neg zero, if_neg elsewhere]
        exact scratch_ne

theorem Prepared.packed (prepared : u.Prepared ctx f f₁) (sound : u.Sound ctx f) :
    Packed cfg (fileMetaAt cfg (f₁ ctx.scratchMetablock)) fun l ↦
      (blockMetaAt cfg (f₁ ctx.scratchMetablock) l).freeSize := by
  apply sound.packed.congr
  · intro i bound
    rw [prepared.fileMeta i bound]
    exact .refl _
  · intro i bound live
    rw [prepared.fileMeta i bound] at live ⊢
    exact sound.packed.curSize_le i bound live
  · intro l bound
    exact (prepared.freeSize bound).symm

/-- The context after the update. -/
def ctxAfter (u : Update cfg) (ctx : Ctx) (f f₁ : Flash) : Ctx :=
  committedCtx cfg (u.exchanged ctx f) f₁

/-- The flash after the update. -/
def flashAfter (u : Update cfg) (ctx : Ctx) (f f₁ : Flash) : Flash :=
  committedFlash cfg (u.exchanged ctx f) f₁

theorem Prepared.committed (prepared : u.Prepared ctx f f₁) (layout : Layout cfg ctx f)
    (valid : HeaderValid cfg ctx f) (sound : u.Sound ctx f) :
    Committed cfg (u.exchanged ctx f) f₁ (u.ctxAfter ctx f f₁) (u.flashAfter ctx f f₁) := by
  have metablocks := layout.blocks.metablocks
  have numBlocks_lt := cfg.numBlocks_lt
  have bounds := (prepared.blocksApart layout sound).scratchDblock_bounds
  apply committed_metaUpdateFinalize
  · rw [exchanged_activeMetablock, exchanged_scratchMetablock]
    exact layout.blocks.active_ne_scratch
  · intro large
    have bounds := bounds large
    rw [exchanged_scratchMetablock]
    omega
  · rw [exchanged_fsVersion]
    exact valid.version
  · by_cases large : 2 < cfg.numBlocks
    · have bounds := bounds large
      omega
    · have single : u.lblock = 0 := by
        by_contra ne
        exact large (two_lt_of_lblock layout.config sound.lblock_lt ne)
      rw [exchanged_scratchDblock, if_neg fun both ↦ both.2 single, ← valid.header_eq]
      exact getU32_lt _ _
  · intro o bound
    rw [exchanged_scratchMetablock, prepared.header o bound]
    exact cfg.blank_eraseVal

/-- The file system is in order once a prepared update is committed. -/
theorem Prepared.done (prepared : u.Prepared ctx f f₁) (layout : Layout cfg ctx f)
    (valid : HeaderValid cfg ctx f) (sound : u.Sound ctx f) :
    u.Done ctx f (u.ctxAfter ctx f f₁) (u.flashAfter ctx f f₁) := by
  have committed := prepared.committed layout valid sound
  have packed := prepared.packed sound
  have blocks := prepared.blocksApart layout sound
  have metablocks := layout.blocks.metablocks
  have scratch_eq : (u.exchanged ctx f).scratchMetablock = ctx.scratchMetablock :=
    exchanged_scratchMetablock
  have active_eq : (u.exchanged ctx f).activeMetablock = ctx.activeMetablock :=
    exchanged_activeMetablock
  rw [← scratch_eq] at packed
  rw [← scratch_eq, ← active_eq] at blocks
  constructor
  · exact committed.layout layout.config packed blocks
  · exact committed.headerValid
  · intro i bound
    rw [committed.fileMeta_eq, exchanged_scratchMetablock]
    exact prepared.fileMeta i bound
  · intro l bound
    rw [committed.blockMeta_eq, exchanged_scratchMetablock]
    exact prepared.freeSize bound
  · intro rebuilt o behind before
    have bound := sound.lblock_lt
    have data := prepared.data rebuilt o behind before
    rw [committed.cell_eq blocks bound behind, exchanged_scratchMetablock, prepared.phyId bound,
      ← data, Ctx.scratchId]
    simp only [true_and, rebuilt, if_true]
  · intro l bound other o behind before
    rw [committed.cell_eq blocks bound behind, exchanged_scratchMetablock, prepared.phyId bound,
      Ctx.cell]
    by_cases zero : l = 0
    · subst zero
      rw [dataStart, if_pos rfl] at behind
      rw [if_pos rfl, layout.blocks.phyId_zero]
      refine prepared.migrated ?_ o behind before
      by_contra both
      rw [not_or, not_not] at both
      exact other ⟨by rw [← Bool.not_eq_false]; exact both.2, both.1.symm⟩
    · have large := two_lt_of_lblock layout.config bound zero
      have phyId := layout.blocks.phyId_bounds l bound zero
      rw [if_neg zero, if_neg fun both ↦ other both.symm, prepared.others]
      · omega
      · intro rebuilt
        rw [Ctx.scratchId]
        split
        · omega
        · exact layout.blocks.scratchDblock_ne large l bound

/-- Wherever the commit of a prepared update is cut off, a mount brings back the file system as it
was before the update, or as it is after it. -/
theorem Prepared.passes_finalize (prepared : u.Prepared ctx f f₁) (layout : Layout cfg ctx f)
    (valid : HeaderValid cfg ctx f) (sound : u.Sound ctx f)
    (within : ∀ b o, ¬ScratchBytes cfg ctx b o → f₁ b o = f b o) :
    Passes cfg
      (fun g ↦ Remains cfg ctx f g ∨
        Remains cfg (u.ctxAfter ctx f f₁) (u.flashAfter ctx f f₁) g)
      (itsFlashFsMblockMetaUpdateFinalize cfg) (u.exchanged ctx f) f₁ (.ok ())
      (u.ctxAfter ctx f f₁) (u.flashAfter ctx f f₁) := by
  have done := prepared.done layout valid sound
  have metablocks := layout.blocks.metablocks
  have before : Remains cfg ctx f f₁ := layout.remains_of_within within
  have header : Remains cfg (u.ctxAfter ctx f f₁) (u.flashAfter ctx f f₁)
      (writeHeader cfg (u.exchanged ctx f) f₁) := by
    refine ⟨fun b o outside ↦ (eraseScratch_outside outside).symm, fun _ ↦ ?_⟩
    have scratch_eq : (u.ctxAfter ctx f f₁).scratchMetablock = ctx.activeMetablock :=
      exchanged_activeMetablock
    have active_eq : writeHeader cfg (u.exchanged ctx f) f₁ ctx.activeMetablock =
        f ctx.activeMetablock := by
      rw [writeHeader_of_ne, before.active_eq layout]
      rw [exchanged_scratchMetablock]
      omega
    have count : (u.exchanged ctx f).metaBlockHeader.activeSwapCount =
        ctx.metaBlockHeader.activeSwapCount := by
      rw [exchanged]
      split <;> rfl
    rw [scratch_eq, active_eq, valid.header_eq]
    refine ⟨valid.swapCount_ne, ?_⟩
    rw [← count]
    rfl
  refine passes_metaUpdateFinalize ?_ (.inl before) (.inr header) (.inr ?_) (.inr ?_)
  · rw [exchanged_scratchMetablock]
    omega
  · exact header.eraseBlock done.layout (.inl rfl)
  · exact done.layout.remains

end Update

end TrustedFirmwareM.Its
