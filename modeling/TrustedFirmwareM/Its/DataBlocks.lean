import TrustedFirmwareM.Its.Commits

/-!
# Filling a scratch data block

A write or a deletion copies the data of a logical block to a scratch block, with new data in the
middle or with the data of a file left out.  The data of logical block 0 moves along with the
metadata.
-/

namespace TrustedFirmwareM.Its

variable {cfg : Config} {W : ℕ → ℕ → Prop} {ctx : Ctx} {f f' start target : Flash}
  {written : ℕ → ℕ → Prop}

/-- A block that the data of another one is copied to. -/
structure CopyTarget (cfg : Config) (W : ℕ → ℕ → Prop) (ctx : Ctx) (start : Flash)
    (written : ℕ → ℕ → Prop) (dst src : ℕ) : Prop where
  /-- It is not the active metadata block. -/
  active_ne : ctx.activeMetablock ≠ dst
  /-- It is not the block that is copied. -/
  src_ne : src ≠ dst
  /-- Nothing is written to the block that is copied. -/
  src_unwritten : ∀ o, ¬written src o
  /-- It could be programmed at the start. -/
  blank : ∀ o < cfg.blockSize, cfg.Blank (start dst o)
  /-- All of it may change, but for the header of the scratch metadata block. -/
  within : ∀ o < cfg.blockSize, (dst = ctx.scratchMetablock → itsBlockMetaHeaderSize cfg ≤ o) →
    W dst o

/-- A change of the context that keeps the metadata blocks. -/
theorem CopyTarget.withCtx {dst src : ℕ} (copy : CopyTarget cfg W ctx start written dst src)
    (ctx' : Ctx) (active : ctx'.activeMetablock = ctx.activeMetablock)
    (scratch : ctx'.scratchMetablock = ctx.scratchMetablock) :
    CopyTarget cfg W ctx' start written dst src where
  active_ne := by rw [active]; exact copy.active_ne
  src_ne := copy.src_ne
  src_unwritten := copy.src_unwritten
  blank := copy.blank
  within := by rw [scratch]; exact copy.within

theorem CopyTarget.extend {dst src lo hi : ℕ} (copy : CopyTarget cfg W ctx start written dst src) :
    CopyTarget cfg W ctx start (fun b o ↦ written b o ∨ InRange dst lo hi b o) dst src where
  active_ne := copy.active_ne
  src_ne := copy.src_ne
  src_unwritten o wrote :=
    wrote.elim (copy.src_unwritten o) fun range ↦ copy.src_ne range.1
  blank := copy.blank
  within := copy.within

/-- Copy a range of a block to another place of a scratch block. -/
theorem Staging.runs_move (staging : Staging cfg W ctx start target written f) {dst src : ℕ}
    (copy : CopyTarget cfg W ctx start written dst src) {dstOffset srcOffset size : ℕ}
    (header : dst = ctx.scratchMetablock → itsBlockMetaHeaderSize cfg ≤ dstOffset)
    (dst_le : dstOffset + size ≤ cfg.blockSize) (src_le : srcOffset + size ≤ cfg.blockSize)
    (unwritten : ∀ o, dstOffset ≤ o → o < dstOffset + size → ¬written dst o)
    (agrees : ∀ j < size, start src (srcOffset + j) = target dst (dstOffset + j)) :
    ∃ f', Runs cfg W
      (itsFlashFsBlockToBlockMove dst dstOffset src srcOffset size) ctx f (.ok ()) ctx f' ∧
      Staging cfg W ctx start target
        (fun b o ↦ written b o ∨ InRange dst dstOffset (dstOffset + size) b o) f' := by
  have fits := cfg.blockSize_lt
  obtain ⟨f', run, filled⟩ := runs_blockToBlockMove ctx staging.filled
    (show dstOffset + size < 2 ^ 32 by omega) (show srcOffset + size < 2 ^ 32 by omega)
    (fun o le _ ↦ copy.within o (by omega) fun scratch ↦ (header scratch).trans le)
    (fun o _ bound ↦ copy.blank o (by omega)) unwritten copy.src_ne
    (fun j bound ↦ by
      rw [staging.filled.block_eq copy.src_unwritten]
      exact agrees j bound)
  exact ⟨f', run, staging.extend filled copy.active_ne⟩

/-- Write new data to a scratch block. -/
theorem Staging.runs_writeData (staging : Staging cfg W ctx start target written f) {dst src : ℕ}
    (copy : CopyTarget cfg W ctx start written dst src) {offset size : ℕ} {data : Bytes}
    (header : dst = ctx.scratchMetablock → itsBlockMetaHeaderSize cfg ≤ offset)
    (le : offset + size ≤ cfg.blockSize)
    (unwritten : ∀ o, offset ≤ o → o < offset + size → ¬written dst o)
    (agrees : ∀ j < size, data j = target dst (offset + j)) :
    ∃ f', Runs cfg W (FlashOp.write dst offset size data).call ctx f (.ok ()) ctx f' ∧
      Staging cfg W ctx start target
        (fun b o ↦ written b o ∨ InRange dst offset (offset + size) b o) f' := by
  obtain ⟨f', run, filled⟩ := Its.runs_write ctx staging.filled dst offset size data
    (fun o le _ ↦ copy.within o (by omega) fun scratch ↦ (header scratch).trans le)
    (fun o _ bound ↦ copy.blank o (by omega)) unwritten agrees
  exact ⟨f', run, staging.extend filled copy.active_ne⟩

/-- The scratch data block of a logical block. -/
def Ctx.scratchId (ctx : Ctx) (l : ℕ) : ℕ :=
  if l = 0 then ctx.scratchMetablock else ctx.metaBlockHeader.scratchDblock

theorem runs_curDataScratchId (l : ℕ) :
    Runs cfg W (itsFlashFsMblockCurDataScratchId l) ctx f (.ok (ctx.scratchId l)) ctx f :=
  runs_getCtx.bind (runs_pure _)

/-- The bytes of a scratch data block that a write fills: the data before the new data, the new
data, and the data behind the file. -/
def DataWritten (dst lo pos size fileEnd hi : ℕ) : ℕ → ℕ → Prop := fun b o ↦
  InRange dst lo (pos + size) b o ∨ InRange dst fileEnd hi b o

/-- The data of a file is written to a scratch block, along with the other data of its block. -/
theorem Staging.runs_dblockWriteFile (staging : Staging cfg W ctx start target written f)
    {blockMeta : BlockMeta} {fileMeta : FileMeta cfg} {offset size : ℕ} {data : Bytes}
    (copy : CopyTarget cfg W ctx start written (ctx.scratchId fileMeta.lblock) blockMeta.phyId)
    (header : ctx.scratchId fileMeta.lblock = ctx.scratchMetablock →
      itsBlockMetaHeaderSize cfg ≤ blockMeta.dataStart)
    (start_le : blockMeta.dataStart ≤ fileMeta.dataIdx)
    (size_le : offset + size ≤ fileMeta.maxSize)
    (end_le : fileMeta.dataIdx + fileMeta.maxSize + blockMeta.freeSize ≤ cfg.blockSize)
    (unwritten : ∀ o, blockMeta.dataStart ≤ o → ¬written (ctx.scratchId fileMeta.lblock) o)
    (agrees : ∀ o, blockMeta.dataStart ≤ o →
      o < fileMeta.dataIdx + offset + size ∨ fileMeta.dataIdx + fileMeta.maxSize ≤ o →
        target (ctx.scratchId fileMeta.lblock) o =
          patch (start blockMeta.phyId) (fileMeta.dataIdx + offset) size data o) :
    ∃ f', Runs cfg W (itsFlashFsDblockWriteFile blockMeta fileMeta offset size data) ctx f (.ok ())
        ctx f' ∧
      Staging cfg W ctx start target (fun b o ↦ written b o ∨
        DataWritten (ctx.scratchId fileMeta.lblock) blockMeta.dataStart (fileMeta.dataIdx + offset)
          size (fileMeta.dataIdx + fileMeta.maxSize)
            (cfg.blockSize - blockMeta.freeSize) b o) f' := by
  have fits := cfg.blockSize_lt
  have before : blockMeta.dataStart + (fileMeta.dataIdx + offset - blockMeta.dataStart) =
      fileMeta.dataIdx + offset := by omega
  have behind : fileMeta.dataIdx + fileMeta.maxSize +
      (cfg.blockSize - blockMeta.freeSize - (fileMeta.dataIdx + fileMeta.maxSize)) =
      cfg.blockSize - blockMeta.freeSize := by omega
  obtain ⟨f₁, run₁, staging₁⟩ := staging.runs_move copy header
    (show blockMeta.dataStart + (fileMeta.dataIdx + offset - blockMeta.dataStart) ≤ _ by omega)
    (show blockMeta.dataStart + (fileMeta.dataIdx + offset - blockMeta.dataStart) ≤ _ by omega)
    (fun o le _ ↦ unwritten o le)
    (fun j bound ↦ by rw [agrees _ (by omega) (by omega), patch_out (by omega)])
  obtain ⟨f₂, run₂, staging₂⟩ := staging₁.runs_writeData copy.extend
    (fun scratch ↦ (header scratch).trans (by omega))
    (show fileMeta.dataIdx + offset + size ≤ _ by omega)
    (fun o le lt wrote ↦ wrote.elim (unwritten o (by omega)) fun range ↦ by
      obtain ⟨_, _, lt⟩ := range
      omega)
    (fun j bound ↦ by
      rw [agrees _ (by omega) (by omega), patch_in (by omega), Nat.add_sub_cancel_left])
  obtain ⟨f₃, run₃, staging₃⟩ := staging₂.runs_move copy.extend.extend
    (fun scratch ↦ (header scratch).trans (by omega))
    (show fileMeta.dataIdx + fileMeta.maxSize + (cfg.blockSize - blockMeta.freeSize -
      (fileMeta.dataIdx + fileMeta.maxSize)) ≤ _ by omega)
    (show fileMeta.dataIdx + fileMeta.maxSize + (cfg.blockSize - blockMeta.freeSize -
      (fileMeta.dataIdx + fileMeta.maxSize)) ≤ _ by omega)
    (fun o le lt wrote ↦ by
      rcases wrote with (wrote | ⟨_, _, lt⟩) | ⟨_, _, lt⟩
      · exact unwritten o (by omega) wrote
      · omega
      · omega)
    (fun j bound ↦ by rw [agrees _ (by omega) (by omega), patch_out (by omega)])
  refine ⟨f₃, ?_, staging₃.congr fun b o ↦ ?_⟩
  · refine (runs_curDataScratchId _).bind ?_
    dsimp only
    rw [add32_eq (by omega), add32_eq (by omega), sub32_eq (by omega) (by omega),
      sub32_eq (a := cfg.blockSize) (by omega) fits, sub32_eq (by omega) (by omega)]
    refine run₁.bind (run₂.bind (run₃.bind ?_))
    split
    · exact runs_flush _
    · exact runs_pure _
  · simp only [DataWritten, InRange, or_assoc]
    refine or_congr_right ⟨fun range ↦ ?_, fun range ↦ ?_⟩ <;> omega

/-- The data of logical block 0 is copied to the scratch metadata block. -/
theorem Staging.runs_migrate (staging : Staging cfg W ctx start target written f)
    (copy : CopyTarget cfg W ctx start written ctx.scratchMetablock ctx.activeMetablock)
    (unwritten : ∀ o, metadataEnd cfg ≤ o → ¬written ctx.scratchMetablock o)
    (start_eq : (blockMetaAt cfg (start ctx.activeMetablock) 0).dataStart = metadataEnd cfg)
    (free_le : metadataEnd cfg + (blockMetaAt cfg (start ctx.activeMetablock) 0).freeSize ≤
      cfg.blockSize)
    (agrees : ∀ o, metadataEnd cfg ≤ o →
      target ctx.scratchMetablock o = start ctx.activeMetablock o) :
    ∃ f', Runs cfg W (itsFlashFsMblockMigrateLb0DataToScratch cfg) ctx f (.ok ()) ctx f' ∧
      Staging cfg W ctx start target (fun b o ↦ written b o ∨
        InRange ctx.scratchMetablock (metadataEnd cfg)
          (cfg.blockSize - (blockMetaAt cfg (start ctx.activeMetablock) 0).freeSize) b o) f' := by
  have fits := cfg.blockSize_lt
  have read : Runs cfg W (itsFlashFsMblockReadBlockMetadata cfg 0) ctx f
      (.ok (blockMetaAt cfg (start ctx.activeMetablock) 0)) ctx f := by
    rw [← staging.active_eq]
    refine runs_readBlockMetadata ?_
    rw [staging.active_eq]
    exact staging.valid.block 0 (numActiveDblocks_pos cfg)
  have total : metadataEnd cfg + (cfg.blockSize - metadataEnd cfg -
      (blockMetaAt cfg (start ctx.activeMetablock) 0).freeSize) =
      cfg.blockSize - (blockMetaAt cfg (start ctx.activeMetablock) 0).freeSize := by omega
  obtain ⟨f', run, staging'⟩ := staging.runs_move copy
    (fun _ ↦ headerSize_le_metadataEnd cfg)
    (show metadataEnd cfg + (cfg.blockSize - metadataEnd cfg -
      (blockMetaAt cfg (start ctx.activeMetablock) 0).freeSize) ≤ _ by omega)
    (show metadataEnd cfg + (cfg.blockSize - metadataEnd cfg -
      (blockMetaAt cfg (start ctx.activeMetablock) 0).freeSize) ≤ _ by omega)
    (fun o le _ ↦ unwritten o le) (fun j _ ↦ (agrees _ (by omega)).symm)
  rw [total] at staging'
  refine ⟨f', read.bind (runs_getCtx.bind ?_), staging'⟩
  rw [start_eq, sub32_eq (a := cfg.blockSize) (by omega) fits, sub32_eq (by omega) (by omega)]
  exact run

end TrustedFirmwareM.Its
