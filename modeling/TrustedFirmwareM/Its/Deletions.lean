import TrustedFirmwareM.Its.Transitions

/-!
# Deleting a file

A deletion clears the metadata of the file and moves the files behind it up, in their metadata and
in the data of the block.  What it fills the scratch blocks with depends on the index of the file
only.
-/

namespace TrustedFirmwareM.Its

variable {cfg : Config} {ctx : Ctx} {f : Flash}

/-- The metadata of the files after a deletion. -/
def deletedFile (cfg : Config) (ctx : Ctx) (f : Flash) (del i : ℕ) : FileMeta cfg :=
  if i = del then FileMeta.zero else moveUp (ctx.fileMeta cfg f del) (ctx.fileMeta cfg f i)

/-- What the deletion of a file changes. -/
def deletion (cfg : Config) (ctx : Ctx) (f : Flash) (del : ℕ) : Update cfg where
  lblock := if (ctx.fileMeta cfg f del).maxSize = 0 then 0 else (ctx.fileMeta cfg f del).lblock
  rebuilt := decide ((ctx.fileMeta cfg f del).maxSize ≠ 0)
  freeSize :=
    if (ctx.fileMeta cfg f del).maxSize = 0 then (ctx.blockMeta cfg f 0).freeSize
    else (ctx.blockMeta cfg f (ctx.fileMeta cfg f del).lblock).freeSize +
      (ctx.fileMeta cfg f del).maxSize
  data o :=
    if o < (ctx.fileMeta cfg f del).dataIdx then
      ctx.cell cfg f (ctx.fileMeta cfg f del).lblock o
    else ctx.cell cfg f (ctx.fileMeta cfg f del).lblock (o + (ctx.fileMeta cfg f del).maxSize)
  files i := some (deletedFile cfg ctx f del i)

/-- There is a file to delete. -/
structure Deletable (cfg : Config) (ctx : Ctx) (f : Flash) (del : ℕ) : Prop where
  /-- The index is one of the file table. -/
  bound : del < cfg.maxNumFiles
  /-- The file is in use. -/
  live : (ctx.fileMeta cfg f del).Live

variable {del : ℕ}

theorem deletion_files (i : ℕ) :
    (deletion cfg ctx f del).files i = some (deletedFile cfg ctx f del i) := rfl

theorem deletion_free (l : ℕ) : (deletion cfg ctx f del).free ctx f l =
    (ctx.blockMeta cfg f l).freeSize +
      if l = (ctx.fileMeta cfg f del).lblock then (ctx.fileMeta cfg f del).maxSize else 0 := by
  by_cases empty : (ctx.fileMeta cfg f del).maxSize = 0
  · have lblock : (deletion cfg ctx f del).lblock = 0 := if_pos empty
    have freeSize : (deletion cfg ctx f del).freeSize = (ctx.blockMeta cfg f 0).freeSize :=
      if_pos empty
    rw [Update.free, lblock, freeSize, empty, ite_self, Nat.add_zero]
    split
    · next zero => rw [zero]
    · rfl
  · have lblock : (deletion cfg ctx f del).lblock = (ctx.fileMeta cfg f del).lblock := if_neg empty
    have freeSize : (deletion cfg ctx f del).freeSize =
        (ctx.blockMeta cfg f (ctx.fileMeta cfg f del).lblock).freeSize +
          (ctx.fileMeta cfg f del).maxSize := if_neg empty
    rw [Update.free, lblock, freeSize]
    split
    · next here => rw [here]
    · rw [Nat.add_zero]

theorem Deletable.sound (layout : Layout cfg ctx f) (file : Deletable cfg ctx f del) :
    (deletion cfg ctx f del).Sound ctx f where
  lblock_lt := by
    rw [deletion]
    dsimp only
    split
    · exact numActiveDblocks_pos cfg
    · exact layout.packed.lblock_lt del file.bound
  files_fit i entry eq := by
    cases eq
    have fits := fits_fileMetaAt cfg (f ctx.activeMetablock) i
    rw [deletedFile]
    split
    · exact FileMeta.fits_zero
    · rw [moveUp]
      split
      · exact ⟨fits.lblock, (Nat.sub_le _ _).trans_lt fits.dataIdx, fits.curSize, fits.maxSize,
          fits.flags⟩
      · exact fits
  packed := by
    apply layout.packed.remove file.bound file.live
    · rw [deletion_files, Option.getD_some, deletedFile, if_pos rfl]
    · intro i ne
      rw [deletion_files, Option.getD_some, deletedFile, if_neg ne]
    · rw [deletion_free, if_pos rfl]
    · intro l ne
      rw [deletion_free, if_neg ne, Nat.add_zero]

/-! ## Steps of a deletion -/

/-- The metadata of the files is written, one after the other. -/
theorem runs_deleteIdxLoop {start target : Flash} {W written : ℕ → ℕ → Prop} {f₁ : Flash}
    {blocks : ℕ → Option BlockMeta} (layout : Layout cfg ctx start)
    (file : Deletable cfg ctx start del)
    (staging : Staging cfg W ctx start target written f₁)
    (tables : TableTarget cfg (start ctx.activeMetablock) (target ctx.scratchMetablock) blocks
      fun i ↦ some (deletedFile cfg ctx start del i))
    {k m : ℕ} (total : k + m = cfg.maxNumFiles)
    (here : ∀ o, itsMblockFileMetaOffset cfg del ≤ o → o < itsMblockFileMetaOffset cfg (del + 1) →
      written ctx.scratchMetablock o)
    (elsewhere : ∀ o, itsMblockFileMetaOffset cfg k ≤ o → o < metadataEnd cfg →
      written ctx.scratchMetablock o →
        itsMblockFileMetaOffset cfg del ≤ o ∧ o < itsMblockFileMetaOffset cfg (del + 1))
    {srcOffset nbrBytesToMove : ℕ}
    (fits : nbrBytesToMove + bytesBehind (ctx.fileMeta cfg start) del (List.range' k m) < 2 ^ 32) :
    ∃ f', Runs cfg W
        (deleteIdxLoop cfg del (ctx.fileMeta cfg start del).lblock
          (ctx.fileMeta cfg start del).dataIdx
          (ctx.fileMeta cfg start del).maxSize (List.range' k m) srcOffset nbrBytesToMove) ctx f₁
        (.ok (firstBehind (ctx.fileMeta cfg start) del (List.range' k m) srcOffset,
          nbrBytesToMove + bytesBehind (ctx.fileMeta cfg start) del (List.range' k m))) ctx f' ∧
      Staging cfg W ctx start target (fun b o ↦ written b o ∨
        InRange ctx.scratchMetablock (itsMblockFileMetaOffset cfg k) (metadataEnd cfg) b o) f' := by
  induction m generalizing k f₁ written srcOffset nbrBytesToMove with
  | zero =>
      have last : itsMblockFileMetaOffset cfg k = metadataEnd cfg := by
        rw [metadataEnd, ← total]
        rfl
      refine ⟨f₁, runs_pure _, staging.congr fun b o ↦
        ⟨.inl, fun wrote ↦ wrote.elim id fun range ↦ ?_⟩⟩
      obtain ⟨-, lo, hi⟩ := range
      omega
  | succ m ih =>
      have k_lt : k < cfg.maxNumFiles := by omega
      have step := fileMetaOffset_mono cfg (Nat.le_succ k)
      have last : itsMblockFileMetaOffset cfg (k + 1) ≤ metadataEnd cfg :=
        fileMetaOffset_mono cfg k_lt
      rw [Nat.succ_eq_add_one] at step
      rw [List.range'_succ] at fits ⊢
      rw [bytesBehind] at fits
      rw [deleteIdxLoop, bytesBehind, firstBehind]
      by_cases del_eq : k = del
      · rw [if_neg fun both ↦ both.1 del_eq, Nat.zero_add] at fits
        rw [if_pos del_eq, if_neg fun both ↦ both.1 del_eq, if_neg fun both ↦ both.1 del_eq,
          Nat.zero_add]
        obtain ⟨f', run, staging'⟩ := ih staging (by omega) here
          (fun o lo hi ↦ elsewhere o (by omega) hi) fits
        refine ⟨f', run, staging'.congr fun b o ↦ ?_⟩
        constructor
        · rintro (wrote | ⟨block, lo, hi⟩)
          · exact .inl wrote
          · exact .inr ⟨block, by omega, hi⟩
        · rintro (wrote | ⟨rfl, lo, hi⟩)
          · exact .inl wrote
          · by_cases entry : o < itsMblockFileMetaOffset cfg (k + 1)
            · rw [del_eq] at lo entry
              exact .inl (here o lo entry)
            · exact .inr ⟨rfl, by omega, hi⟩
      · have unwritten : ∀ o, itsMblockFileMetaOffset cfg k ≤ o →
            o < itsMblockFileMetaOffset cfg (k + 1) → ¬written ctx.scratchMetablock o := by
          intro o lo hi wrote
          have inside := elsewhere o lo (by omega) wrote
          rcases Nat.lt_or_gt_of_ne del_eq with before | after
          · have le := fileMetaOffset_mono cfg (show k + 1 ≤ del from before)
            omega
          · have le := fileMetaOffset_mono cfg (show del + 1 ≤ k from after)
            omega
        have read : Runs cfg W (itsFlashFsMblockReadFileMeta cfg k) ctx f₁
            (.ok (ctx.fileMeta cfg start k)) ctx f₁ := by
          have valid := layout.entriesValid.file k k_lt
          rw [← staging.active_eq] at valid
          rw [Ctx.fileMeta, ← staging.active_eq]
          exact runs_readFileMeta valid
        obtain ⟨f₂, run₂, staging₂⟩ := staging.runs_updateScratchFileMeta tables k_lt rfl unwritten
        have here₂ : ∀ o, itsMblockFileMetaOffset cfg del ≤ o →
            o < itsMblockFileMetaOffset cfg (del + 1) →
              written ctx.scratchMetablock o ∨ InRange ctx.scratchMetablock
                (itsMblockFileMetaOffset cfg k) (itsMblockFileMetaOffset cfg (k + 1))
                ctx.scratchMetablock o := fun o lo hi ↦ .inl (here o lo hi)
        have elsewhere₂ : ∀ o, itsMblockFileMetaOffset cfg (k + 1) ≤ o → o < metadataEnd cfg →
            (written ctx.scratchMetablock o ∨ InRange ctx.scratchMetablock
              (itsMblockFileMetaOffset cfg k) (itsMblockFileMetaOffset cfg (k + 1))
              ctx.scratchMetablock o) →
              itsMblockFileMetaOffset cfg del ≤ o ∧ o < itsMblockFileMetaOffset cfg (del + 1) := by
          rintro o lo hi (wrote | ⟨-, -, hi'⟩)
          · exact elsewhere o (by omega) hi wrote
          · omega
        have written_iff : ∀ b o, ((written b o ∨ InRange ctx.scratchMetablock
            (itsMblockFileMetaOffset cfg k) (itsMblockFileMetaOffset cfg (k + 1)) b o) ∨
            InRange ctx.scratchMetablock (itsMblockFileMetaOffset cfg (k + 1))
              (metadataEnd cfg) b o) ↔
            written b o ∨
              InRange ctx.scratchMetablock (itsMblockFileMetaOffset cfg k)
                (metadataEnd cfg) b o := by
          intro b o
          simp only [InRange, or_assoc]
          refine or_congr_right ⟨fun range ↦ ?_, fun range ↦ ?_⟩ <;> omega
        rw [deletedFile, if_neg del_eq, moveUp] at run₂
        rw [← Nat.add_assoc] at fits ⊢
        rw [if_neg del_eq]
        by_cases behind : Behind (ctx.fileMeta cfg start del) (ctx.fileMeta cfg start k)
        · have place := layout.packed.end_le_of_behind file.bound file.live k_lt del_eq behind
          have moved : sub32 (ctx.fileMeta cfg start k).dataIdx
              (ctx.fileMeta cfg start del).maxSize =
              (ctx.fileMeta cfg start k).dataIdx - (ctx.fileMeta cfg start del).maxSize :=
            sub32_eq (by omega) (fits_fileMetaAt cfg (start ctx.activeMetablock) k).dataIdx
          rw [if_pos behind] at run₂
          rw [if_pos ⟨del_eq, behind⟩] at fits
          rw [if_pos ⟨del_eq, behind⟩, if_pos ⟨del_eq, behind⟩]
          obtain ⟨f₃, run₃, staging₃⟩ := ih staging₂ (by omega) here₂ elsewhere₂ fits
          refine ⟨f₃, read.bind ?_, staging₃.congr written_iff⟩
          rw [if_pos ⟨behind.1, decide_eq_true behind.2.1, behind.2.2⟩, moved,
            add32_eq (by omega)]
          exact run₂.bind run₃
        · rw [if_neg behind] at run₂
          rw [if_neg fun both ↦ behind both.2, Nat.add_zero] at fits
          rw [if_neg fun both ↦ behind both.2, if_neg fun both ↦ behind both.2, Nat.add_zero]
          obtain ⟨f₃, run₃, staging₃⟩ := ih staging₂ (by omega) here₂ elsewhere₂ fits
          refine ⟨f₃, read.bind ?_, staging₃.congr written_iff⟩
          rw [if_neg fun both ↦ behind ⟨both.1, of_decide_eq_true both.2.1, both.2.2⟩]
          exact run₂.bind run₃

/-- The metadata of the block of the file once its data is moved up. -/
def movedBlock (cfg : Config) (ctx : Ctx) (f : Flash) (del : ℕ) : BlockMeta :=
  { ctx.blockMeta cfg f (ctx.fileMeta cfg f del).lblock with
    freeSize := (ctx.blockMeta cfg f (ctx.fileMeta cfg f del).lblock).freeSize +
      (ctx.fileMeta cfg f del).maxSize
    phyId := ctx.scratchId (ctx.fileMeta cfg f del).lblock }

/-- A move of no bytes changes nothing. -/
theorem runs_move_nothing {W : ℕ → ℕ → Prop} {dst dstOffset src srcOffset : ℕ} {f₁ : Flash}
    (run : Runs cfg W (itsFlashFsBlockToBlockMove dst dstOffset src srcOffset 0) ctx f
      (.ok ()) ctx f₁) :
    f₁ = f := by
  have nothing :
      Runs cfg W (itsFlashFsBlockToBlockMove dst dstOffset src srcOffset 0) ctx f (.ok ())
      ctx f := runs_pure ()
  exact (run.unique nothing).2.2

/-- The data of the block is moved up, and the metadata of the blocks is written. -/
theorem Deletable.runs_compactBlock (layout : Layout cfg ctx f) (file : Deletable cfg ctx f del)
    (nonempty : (ctx.fileMeta cfg f del).maxSize ≠ 0) {f₁ : Flash} {written : ℕ → ℕ → Prop}
    (staging : Staging cfg (ScratchBytes cfg ctx) ctx f ((deletion cfg ctx f del).target ctx f)
      written f₁)
    (files : ∀ b o, written b o → b = ctx.scratchMetablock ∧
      itsMblockFileMetaOffset cfg 0 ≤ o ∧ o < metadataEnd cfg)
    {srcOffset size : ℕ}
    (srcOffset_eq : 0 < size →
      srcOffset = (ctx.fileMeta cfg f del).dataIdx + (ctx.fileMeta cfg f del).maxSize)
    (size_eq : (ctx.fileMeta cfg f del).dataIdx + (ctx.fileMeta cfg f del).maxSize + size +
      (ctx.blockMeta cfg f (ctx.fileMeta cfg f del).lblock).freeSize = cfg.blockSize) :
    ∃ f', Runs cfg (ScratchBytes cfg ctx)
        (itsFlashFsDblockCompactBlock cfg (ctx.fileMeta cfg f del).lblock
          (ctx.fileMeta cfg f del).maxSize srcOffset (ctx.fileMeta cfg f del).dataIdx size) ctx f₁
        (.ok ()) ((deletion cfg ctx f del).exchanged ctx f) f' ∧
      Staging cfg (ScratchBytes cfg ctx) ((deletion cfg ctx f del).exchanged ctx f) f
        ((deletion cfg ctx f del).target ctx f)
        (fun b o ↦ (written b o ∨
          InRange (ctx.scratchId (ctx.fileMeta cfg f del).lblock)
            (dataStart cfg (ctx.fileMeta cfg f del).lblock)
            ((ctx.fileMeta cfg f del).dataIdx + size) b o) ∨
          InRange ctx.scratchMetablock (itsMblockBlockMetaOffset cfg 0)
            (itsMblockFileMetaOffset cfg 0) b o) f' := by
  have sound := file.sound layout
  have u_lblock : (deletion cfg ctx f del).lblock = (ctx.fileMeta cfg f del).lblock :=
    if_neg nonempty
  have rebuilt : (deletion cfg ctx f del).rebuilt = true := decide_eq_true nonempty
  have l_lt := layout.packed.lblock_lt del file.bound
  have start_le := layout.packed.start_le del file.bound file.live
  have start_eq := layout.blocks.dataStart_eq _ l_lt
  have block_lt := cfg.blockSize_lt
  have target_eq : ∀ o, dataStart cfg (ctx.fileMeta cfg f del).lblock ≤ o →
      (deletion cfg ctx f del).target ctx f (ctx.scratchId (ctx.fileMeta cfg f del).lblock) o =
        (deletion cfg ctx f del).data o := by
    intro o behind
    rw [← u_lblock] at behind ⊢
    exact Update.target_scratchId layout sound rebuilt behind
  have read : Runs cfg (ScratchBytes cfg ctx)
      (itsFlashFsMblockReadBlockMetadata cfg (ctx.fileMeta cfg f del).lblock) ctx f₁
      (.ok (ctx.blockMeta cfg f (ctx.fileMeta cfg f del).lblock)) ctx f₁ := by
    have valid := layout.entriesValid.block _ l_lt
    rw [← staging.active_eq] at valid
    rw [Ctx.blockMeta, ← staging.active_eq]
    exact runs_readBlockMetadata valid
  have apart := Update.scratchId_apart layout l_lt
  have unwritten : ∀ o, ¬written (ctx.blockMeta cfg f (ctx.fileMeta cfg f del).lblock).phyId o := by
    intro o wrote
    have block := (files _ o wrote).1
    by_cases zero : (ctx.fileMeta cfg f del).lblock = 0
    · have metablocks := layout.blocks.active_ne_scratch
      rw [zero, layout.blocks.phyId_zero] at block
      exact metablocks block
    · exact (apart.2.2 zero).2 block.symm
  have copy := Update.copyTarget layout l_lt unwritten
  have header : ctx.scratchId (ctx.fileMeta cfg f del).lblock = ctx.scratchMetablock →
      itsBlockMetaHeaderSize cfg ≤ dataStart cfg (ctx.fileMeta cfg f del).lblock := by
    intro scratch
    rw [dataStart]
    split
    · exact headerSize_le_metadataEnd cfg
    · next ne => exact ((apart.2.2 ne).1 scratch.symm).elim
  have data_unwritten : ∀ o, dataStart cfg (ctx.fileMeta cfg f del).lblock ≤ o →
      ¬written (ctx.scratchId (ctx.fileMeta cfg f del).lblock) o := by
    intro o behind wrote
    have place := files _ o wrote
    rw [dataStart] at behind
    split at behind
    · omega
    · next ne => exact (apart.2.2 ne).1 place.1.symm
  obtain ⟨f₂, run₂, staging₂⟩ := staging.runs_move copy
    (fun scratch ↦ (header scratch).trans start_le)
    (show (ctx.fileMeta cfg f del).dataIdx + size ≤ cfg.blockSize by omega)
    (show (ctx.fileMeta cfg f del).dataIdx + (ctx.fileMeta cfg f del).maxSize + size ≤
      cfg.blockSize by omega)
    (fun o lo _ ↦ data_unwritten o (by omega))
    (fun j bound ↦ by
      rw [target_eq _ (by omega), deletion]
      dsimp only
      rw [if_neg (by omega), Ctx.cell, Nat.add_right_comm])
  obtain ⟨f₃, run₃, staging₃⟩ := staging₂.runs_move copy.extend
    (fun scratch ↦ header scratch)
    (show dataStart cfg (ctx.fileMeta cfg f del).lblock +
      ((ctx.fileMeta cfg f del).dataIdx - dataStart cfg (ctx.fileMeta cfg f del).lblock) ≤
        cfg.blockSize by omega)
    (show dataStart cfg (ctx.fileMeta cfg f del).lblock +
      ((ctx.fileMeta cfg f del).dataIdx - dataStart cfg (ctx.fileMeta cfg f del).lblock) ≤
        cfg.blockSize by omega)
    (fun o lo hi wrote ↦ by
      rcases wrote with wrote | ⟨-, lo', -⟩
      · exact data_unwritten o lo wrote
      · omega)
    (fun j bound ↦ by
      rw [target_eq _ (by omega), deletion]
      dsimp only
      rw [if_pos (by omega), Ctx.cell])
  have active_eq : ((deletion cfg ctx f del).exchanged ctx f).activeMetablock =
      ctx.activeMetablock := Update.exchanged_activeMetablock
  have scratch_eq : ((deletion cfg ctx f del).exchanged ctx f).scratchMetablock =
      ctx.scratchMetablock := Update.exchanged_scratchMetablock
  have exchanged_eq : (deletion cfg ctx f del).exchanged ctx f =
      if (ctx.fileMeta cfg f del).lblock ≠ itsLogicalDblock0 then
        { ctx with metaBlockHeader := { ctx.metaBlockHeader with
          scratchDblock := (ctx.blockMeta cfg f (ctx.fileMeta cfg f del).lblock).phyId } }
      else ctx := by
    rw [Update.exchanged, u_lblock]
    simp only [rebuilt, true_and]
    rfl
  have staging₃ := staging₃.withCtx ((deletion cfg ctx f del).exchanged ctx f) active_eq scratch_eq
  have tables : TableTarget cfg (f ((deletion cfg ctx f del).exchanged ctx f).activeMetablock)
      ((deletion cfg ctx f del).target ctx f
        ((deletion cfg ctx f del).exchanged ctx f).scratchMetablock)
      ((deletion cfg ctx f del).blocks ctx f) (deletion cfg ctx f del).files := by
    rw [active_eq, scratch_eq]
    exact Update.target_tables (deletion cfg ctx f del) ctx f
  have free_eq : (deletion cfg ctx f del).freeSize =
      (ctx.blockMeta cfg f (ctx.fileMeta cfg f del).lblock).freeSize +
        (ctx.fileMeta cfg f del).maxSize := if_neg nonempty
  have entry : (deletion cfg ctx f del).blocks ctx f (ctx.fileMeta cfg f del).lblock =
      some (if (ctx.fileMeta cfg f del).lblock = 0 then
          { movedBlock cfg ctx f del with
            phyId := ((deletion cfg ctx f del).exchanged ctx f).scratchMetablock }
        else movedBlock cfg ctx f del) := by
    have here := Update.blocks_lblock (deletion cfg ctx f del) ctx f
    rw [Update.newBlock, u_lblock, rebuilt, free_eq] at here
    rw [here, scratch_eq, movedBlock, Ctx.scratchId]
    split <;> rfl
  obtain ⟨f₄, run₄, staging₄⟩ := staging₃.runs_updateScratchBlockMeta tables l_lt entry
    (fun ne ↦ by
      rw [scratch_eq, active_eq]
      exact Update.blocks_zero (by rw [u_lblock]; exact ne))
    (fun l zero ne ↦ Update.blocks_none zero (by rw [u_lblock]; exact ne))
    (fun o bound wrote ↦ by
      have table_le : itsMblockFileMetaOffset cfg 0 ≤ metadataEnd cfg :=
        fileMetaOffset_mono cfg (Nat.zero_le _)
      rw [scratch_eq] at wrote
      have data : ∀ lo hi, dataStart cfg (ctx.fileMeta cfg f del).lblock ≤ lo →
          ¬InRange (ctx.scratchId
            (ctx.fileMeta cfg f del).lblock) lo hi ctx.scratchMetablock o := by
        rintro lo hi behind ⟨block, le, -⟩
        rw [dataStart] at behind
        split at behind
        · omega
        · next ne => exact (apart.2.2 ne).1 block
      rcases wrote with (wrote | wrote) | wrote
      · have place := files _ o wrote
        omega
      · exact data _ _ start_le wrote
      · exact data _ _ le_rfl wrote)
  have step₂ : size > 0 → Runs cfg (ScratchBytes cfg ctx)
      ((itsFlashFsBlockToBlockMove (ctx.scratchId (ctx.fileMeta cfg f del).lblock)
        (ctx.fileMeta cfg f del).dataIdx (ctx.blockMeta cfg f (ctx.fileMeta cfg f del).lblock).phyId
        srcOffset size).orStatus .genericError) ctx f₁ (.ok ()) ctx f₂ := by
    intro some
    rw [srcOffset_eq some]
    exact run₂.orStatus
  have skip₂ : ¬size > 0 → ctx = ctx ∧ f₂ = f₁ := by
    intro none
    rw [Nat.eq_zero_of_not_pos none] at run₂
    exact ⟨rfl, runs_move_nothing run₂⟩
  have step₃ : (ctx.fileMeta cfg f del).dataIdx > dataStart cfg (ctx.fileMeta cfg f del).lblock →
      Runs cfg (ScratchBytes cfg ctx)
        ((itsFlashFsBlockToBlockMove (ctx.scratchId (ctx.fileMeta cfg f del).lblock)
          (dataStart cfg (ctx.fileMeta cfg f del).lblock)
          (ctx.blockMeta cfg f (ctx.fileMeta cfg f del).lblock).phyId
          (dataStart cfg (ctx.fileMeta cfg f del).lblock)
          ((ctx.fileMeta cfg f del).dataIdx -
            dataStart cfg
              (ctx.fileMeta cfg f del).lblock)).orStatus .genericError) ctx f₂ (.ok ()) ctx
        f₃ := fun _ ↦ run₃.orStatus
  have skip₃ : ¬(ctx.fileMeta cfg f del).dataIdx > dataStart cfg (ctx.fileMeta cfg f del).lblock →
      ctx = ctx ∧ f₃ = f₂ := by
    intro none
    rw [Nat.sub_eq_zero_of_le (Nat.le_of_not_lt none)] at run₃
    exact ⟨rfl, runs_move_nothing run₃⟩
  refine ⟨f₄, ?_, staging₄.congr fun b o ↦ ?_⟩
  · have free_fits : (ctx.blockMeta cfg f (ctx.fileMeta cfg f del).lblock).freeSize +
        (ctx.fileMeta cfg f del).maxSize < 2 ^ 32 := by omega
    refine read.bind ((runs_curDataScratchId _).bind ?_)
    dsimp only
    rw [start_eq, add32_eq free_fits]
    refine runs_if step₂ skip₂ (runs_if step₃ skip₃ ((runs_modifyCtx _).bind ?_))
    rw [← exchanged_eq]
    rw [movedBlock, start_eq] at run₄
    refine run₄.result.bind ?_
    dsimp only
    split
    · exact runs_flush _
    · exact runs_pure _
  · rw [scratch_eq]
    simp only [InRange, or_assoc]
    refine or_congr_right ⟨fun range ↦ ?_, fun range ↦ ?_⟩
    · omega
    · omega

/-- The bytes that have been written once everything but the header is in place. -/
inductive DeletionWritten (cfg : Config) (ctx : Ctx) (f : Flash) (del b o : ℕ) : Prop
  | files (wrote : InRange ctx.scratchMetablock (itsMblockFileMetaOffset cfg 0)
      (metadataEnd cfg) b o)
  | data (nonempty : (ctx.fileMeta cfg f del).maxSize ≠ 0)
      (wrote : InRange (ctx.scratchId (ctx.fileMeta cfg f del).lblock)
        (dataStart cfg (ctx.fileMeta cfg f del).lblock)
        (cfg.blockSize - (deletion cfg ctx f del).freeSize) b o)
  | blocks (wrote : InRange ctx.scratchMetablock (itsMblockBlockMetaOffset cfg 0)
      (itsMblockFileMetaOffset cfg 0) b o)
  | migrated (apart : (deletion cfg ctx f del).lblock ≠ 0 ∨
      (deletion cfg ctx f del).rebuilt = false)
      (wrote : InRange ctx.scratchMetablock (metadataEnd cfg)
        (cfg.blockSize - (ctx.blockMeta cfg f 0).freeSize) b o)

/-- The data of a block is in the scratch metadata block only for logical block 0. -/
theorem metadataEnd_le_of_data (layout : Layout cfg ctx f) {l lo hi o : ℕ}
    (l_lt : l < itsNumActiveDblocks cfg) (behind : dataStart cfg l ≤ lo)
    (wrote : InRange (ctx.scratchId l) lo hi ctx.scratchMetablock o) :
    l = 0 ∧ metadataEnd cfg ≤ o := by
  obtain ⟨block, le, -⟩ := wrote
  have zero : l = 0 := by
    by_contra ne
    exact ((Update.scratchId_apart layout l_lt).2.2 ne).1 block
  rw [dataStart, if_pos zero] at behind
  exact ⟨zero, by omega⟩

theorem Deletable.complete (layout : Layout cfg ctx f) (file : Deletable cfg ctx f del) :
    (deletion cfg ctx f del).Complete ctx f (DeletionWritten cfg ctx f del) := by
  have header_le := headerSize_le_metadataEnd cfg
  have block_offset := headerSize_le_blockMetaOffset cfg 0
  have file_offset := headerSize_le_fileMetaOffset cfg 0
  have l_lt := layout.packed.lblock_lt del file.bound
  constructor
  · intro o bound wrote
    cases wrote with
    | files wrote =>
        obtain ⟨-, lo, -⟩ := wrote
        omega
    | data nonempty wrote =>
        have place := metadataEnd_le_of_data layout l_lt le_rfl wrote
        omega
    | blocks wrote =>
        obtain ⟨-, lo, -⟩ := wrote
        omega
    | migrated apart wrote =>
        obtain ⟨-, lo, -⟩ := wrote
        omega
  · intro o lo hi
    by_cases blocks : o < itsMblockFileMetaOffset cfg 0
    · exact .blocks ⟨rfl, lo, blocks⟩
    · exact .files ⟨rfl, by omega, hi⟩
  · intro rebuilt o behind bound
    have nonempty : (ctx.fileMeta cfg f del).maxSize ≠ 0 := of_decide_eq_true rebuilt
    have lblock : (deletion cfg ctx f del).lblock = (ctx.fileMeta cfg f del).lblock :=
      if_neg nonempty
    rw [lblock] at behind ⊢
    exact .inl (.data nonempty ⟨rfl, behind, by omega⟩)
  · intro apart o behind bound
    exact .migrated apart ⟨rfl, behind, by omega⟩
  · intro b o wrote
    cases wrote with
    | files wrote => exact .inl wrote.1
    | data nonempty wrote =>
        have lblock : (deletion cfg ctx f del).lblock = (ctx.fileMeta cfg f del).lblock :=
          if_neg nonempty
        rw [lblock]
        exact .inr ⟨decide_eq_true nonempty, wrote.1⟩
    | blocks wrote => exact .inl wrote.1
    | migrated apart wrote => exact .inl wrote.1

/-- The metadata of the files is written. -/
theorem Deletable.runs_files (layout : Layout cfg ctx f) (file : Deletable cfg ctx f del) :
    ∃ f₁ f₂,
      Runs cfg (ScratchBytes cfg ctx)
        (itsFlashFsMblockUpdateScratchFileMeta del
          (FileMeta.zero : FileMeta cfg)) ctx f (.ok ()) ctx f₁ ∧
      Runs cfg (ScratchBytes cfg ctx)
        (deleteIdxLoop cfg del (ctx.fileMeta cfg f del).lblock (ctx.fileMeta cfg f del).dataIdx
          (ctx.fileMeta cfg f del).maxSize (List.range cfg.maxNumFiles) cfg.blockSize 0) ctx f₁
        (.ok (firstBehind (ctx.fileMeta cfg f) del (List.range cfg.maxNumFiles) cfg.blockSize,
          bytesBehind (ctx.fileMeta cfg f) del (List.range cfg.maxNumFiles))) ctx f₂ ∧
      Staging cfg (ScratchBytes cfg ctx) ctx f ((deletion cfg ctx f del).target ctx f)
        (InRange ctx.scratchMetablock (itsMblockFileMetaOffset cfg 0) (metadataEnd cfg)) f₂ := by
  have tables := Update.target_tables (deletion cfg ctx f del) ctx f
  have staging := (deletion cfg ctx f del).staging layout (filled_start f _) fun _ wrote ↦ wrote
  have entry : (deletion cfg ctx f del).files del = some FileMeta.zero := by
    rw [deletion_files, deletedFile, if_pos rfl]
  obtain ⟨f₁, run₁, staging₁⟩ := staging.runs_updateScratchFileMeta tables file.bound entry
    fun _ _ _ wrote ↦ wrote
  have fits : 0 + bytesBehind (ctx.fileMeta cfg f) del
      (List.range' 0 cfg.maxNumFiles) < 2 ^ 32 := by
    have le : bytesBehind (ctx.fileMeta cfg f) del (List.range cfg.maxNumFiles) ≤ cfg.blockSize :=
      layout.packed.bytesBehind_le
    have block_lt := cfg.blockSize_lt
    rw [← List.range_eq_range']
    omega
  obtain ⟨f₂, run₂, staging₂⟩ := runs_deleteIdxLoop layout file staging₁ tables
    (show 0 + cfg.maxNumFiles = cfg.maxNumFiles from Nat.zero_add _)
      (fun o lo hi ↦ .inr ⟨rfl, lo, hi⟩)
    (fun o _ _ wrote ↦ by
      rcases wrote with wrote | ⟨-, lo, hi⟩
      · exact wrote.elim
      · exact ⟨lo, hi⟩) fits
  rw [Nat.zero_add, ← List.range_eq_range'] at run₂
  refine ⟨f₁, f₂, run₁, run₂, staging₂.congr fun b o ↦ ?_⟩
  constructor
  · rintro ((wrote | ⟨block, lo, hi⟩) | wrote)
    · exact wrote.elim
    · have first := fileMetaOffset_mono cfg (Nat.zero_le del)
      have last : itsMblockFileMetaOffset cfg (del + 1) ≤ metadataEnd cfg :=
        fileMetaOffset_mono cfg file.bound
      exact ⟨block, by omega, by omega⟩
    · exact wrote
  · exact fun wrote ↦ .inr wrote

/-- The metadata of the blocks is written, and the data of the block of the file if there is any. -/
theorem Deletable.runs_blocks (layout : Layout cfg ctx f)
    (file : Deletable cfg ctx f del) {f₂ : Flash}
    (staging : Staging cfg (ScratchBytes cfg ctx) ctx f ((deletion cfg ctx f del).target ctx f)
      (InRange ctx.scratchMetablock (itsMblockFileMetaOffset cfg 0) (metadataEnd cfg)) f₂) :
    ∃ f₃,
      (∀ {β : Type} {next : Unit → FsM β} {result : Except Status β} {ctx' : Ctx} {f' : Flash}
        {C : Flash → Prop},
        (∀ g, (∀ b o, ¬ScratchBytes cfg ctx b o → g b o = f₂ b o) → C g) →
        Passes cfg C (next ()) ((deletion cfg ctx f del).exchanged ctx f) f₃ result ctx' f' →
        Passes cfg C (if (ctx.fileMeta cfg f del).maxSize = 0 then do
            let blockMeta ← itsFlashFsMblockReadBlockMetadata cfg itsLogicalDblock0
            itsFlashFsMblockUpdateScratchBlockMeta cfg itsLogicalDblock0 blockMeta >>= next
          else
            itsFlashFsDblockCompactBlock cfg (ctx.fileMeta cfg f del).lblock
              (ctx.fileMeta cfg f del).maxSize
              (firstBehind (ctx.fileMeta cfg f) del (List.range cfg.maxNumFiles) cfg.blockSize)
              (ctx.fileMeta cfg f del).dataIdx
              (bytesBehind (ctx.fileMeta cfg f) del (List.range cfg.maxNumFiles)) >>= next) ctx f₂
          result ctx' f') ∧
      (∀ b o, ¬ScratchBytes cfg ctx b o → f₃ b o = f₂ b o) ∧
      Staging cfg (ScratchBytes cfg ctx) ((deletion cfg ctx f del).exchanged ctx f) f
        ((deletion cfg ctx f del).target ctx f)
        (fun b o ↦ (InRange ctx.scratchMetablock (itsMblockFileMetaOffset cfg 0)
          (metadataEnd cfg) b o ∨
          (ctx.fileMeta cfg f del).maxSize ≠ 0 ∧
            InRange (ctx.scratchId (ctx.fileMeta cfg f del).lblock)
              (dataStart cfg (ctx.fileMeta cfg f del).lblock)
              (cfg.blockSize - (deletion cfg ctx f del).freeSize) b o) ∨
          InRange ctx.scratchMetablock (itsMblockBlockMetaOffset cfg 0)
            (itsMblockFileMetaOffset cfg 0) b o) f₃ := by
  by_cases empty : (ctx.fileMeta cfg f del).maxSize = 0
  · have u_lblock : (deletion cfg ctx f del).lblock = 0 := if_pos empty
    have exchanged_eq : (deletion cfg ctx f del).exchanged ctx f = ctx := by
      rw [Update.exchanged, u_lblock, if_neg fun both ↦ both.2 rfl]
    have free_eq : (deletion cfg ctx f del).freeSize = (ctx.blockMeta cfg f 0).freeSize :=
      if_pos empty
    have tables := Update.target_tables (deletion cfg ctx f del) ctx f
    have entry : (deletion cfg ctx f del).blocks ctx f 0 =
        some (if 0 = 0 then { ctx.blockMeta cfg f 0 with phyId := ctx.scratchMetablock }
          else ctx.blockMeta cfg f 0) := by
      have here := Update.blocks_lblock (deletion cfg ctx f del) ctx f
      rw [Update.newBlock, u_lblock, free_eq, if_pos rfl] at here
      rw [here, if_pos rfl]
    obtain ⟨f₃, run₃, staging₃⟩ := staging.runs_updateScratchBlockMeta tables
      (numActiveDblocks_pos cfg) entry (fun ne ↦ (ne rfl).elim)
      (fun l zero _ ↦ Update.blocks_none zero (by rw [u_lblock]; exact zero))
      (fun o bound wrote ↦ by
        obtain ⟨-, lo, -⟩ := wrote
        omega)
    have read : Runs cfg (ScratchBytes cfg ctx)
        (itsFlashFsMblockReadBlockMetadata cfg itsLogicalDblock0)
        ctx f₂ (.ok (ctx.blockMeta cfg f 0)) ctx f₂ := by
      have valid := layout.entriesValid.block 0 (numActiveDblocks_pos cfg)
      rw [← staging.active_eq] at valid
      rw [Ctx.blockMeta, ← staging.active_eq]
      exact runs_readBlockMetadata valid
    refine ⟨f₃, fun outside rest ↦ ?_, fun b o outside ↦ run₃.frame outside, ?_⟩
    · rw [if_pos empty]
      rw [exchanged_eq] at rest
      exact (read.passes outside).bind ((run₃.passes outside).bind rest)
    · rw [exchanged_eq]
      refine staging₃.congr fun b o ↦ ?_
      simp only [empty, ne_eq, not_true_eq_false, false_and, or_false]
  · have total := layout.packed.bytesBehind_eq file.bound file.live (Nat.pos_of_ne_zero empty)
    have free_eq : (deletion cfg ctx f del).freeSize =
        (ctx.blockMeta cfg f (ctx.fileMeta cfg f del).lblock).freeSize +
          (ctx.fileMeta cfg f del).maxSize := if_neg empty
    obtain ⟨f₃, run₃, staging₃⟩ := file.runs_compactBlock layout empty staging
      (fun b o wrote ↦ wrote)
      (layout.packed.firstBehind_eq file.bound file.live (Nat.pos_of_ne_zero empty)) total
    refine ⟨f₃, fun outside rest ↦ ?_, fun b o outside ↦ run₃.frame outside, ?_⟩
    · rw [if_neg empty]
      exact (run₃.passes outside).bind rest
    · refine staging₃.congr fun b o ↦ ?_
      have end_eq : (ctx.fileMeta cfg f del).dataIdx +
          bytesBehind (ctx.fileMeta cfg f) del (List.range cfg.maxNumFiles) =
          cfg.blockSize - (deletion cfg ctx f del).freeSize := by
        rw [free_eq]
        omega
      rw [end_eq]
      simp only [ne_eq, empty, not_false_eq_true, true_and]

/-- A deletion commits the update of the file. -/
theorem Deletable.passes_deleteIdx (layout : Layout cfg ctx f) (valid : HeaderValid cfg ctx f)
    (file : Deletable cfg ctx f del) :
    ∃ ctx' f', (deletion cfg ctx f del).Done ctx f ctx' f' ∧
      Passes cfg (fun g ↦ Remains cfg ctx f g ∨ Remains cfg ctx' f' g)
        (itsFlashFsDeleteIdx cfg del) ctx f (.ok ()) ctx' f' := by
  have sound := file.sound layout
  have active_eq : ((deletion cfg ctx f del).exchanged ctx f).activeMetablock =
      ctx.activeMetablock := Update.exchanged_activeMetablock
  have scratch_eq : ((deletion cfg ctx f del).exchanged ctx f).scratchMetablock =
      ctx.scratchMetablock := Update.exchanged_scratchMetablock
  obtain ⟨f₁, f₂, run₁, run₂, staging₂⟩ := file.runs_files layout
  obtain ⟨f₃, pass₃, within₃, staging₃⟩ := file.runs_blocks layout staging₂
  have within₁ : ∀ b o, ¬ScratchBytes cfg ctx b o → f₁ b o = f b o := fun b o ↦ run₁.frame
  have within₂ : ∀ b o, ¬ScratchBytes cfg ctx b o → f₂ b o = f b o :=
    fun b o outside ↦ (run₂.frame outside).trans (within₁ b o outside)
  have within₃ : ∀ b o, ¬ScratchBytes cfg ctx b o → f₃ b o = f b o :=
    fun b o outside ↦ (within₃ b o outside).trans (within₂ b o outside)
  have read : Runs cfg (ScratchBytes cfg ctx) (itsFlashFsMblockReadFileMeta cfg del) ctx f
      (.ok (ctx.fileMeta cfg f del)) ctx f := layout.runs_readFileMeta file.bound
  have live : itsUtilsValidateFid (ctx.fileMeta cfg f del).id = true := decide_eq_true file.live
  have cond_iff : ((ctx.fileMeta cfg f del).maxSize ≠ 0 ∧
        (ctx.fileMeta cfg f del).lblock ≠ itsLogicalDblock0 ∨
          (ctx.fileMeta cfg f del).maxSize = 0) ↔
      ((deletion cfg ctx f del).lblock ≠ 0 ∨ (deletion cfg ctx f del).rebuilt = false) := by
    rw [deletion]
    simp only [decide_eq_false_iff_not, not_not]
    by_cases empty : (ctx.fileMeta cfg f del).maxSize = 0
    · simp only [empty, or_true]
    · simp only [empty, ne_eq, not_false_eq_true, true_and, if_false, or_false]
      rfl
  -- Until the header is written, only the scratch blocks have changed.
  have before : ∀ {C : Flash → Prop}, (∀ g, Remains cfg ctx f g → C g) → ∀ {g : Flash},
      (∀ b o, ¬ScratchBytes cfg ctx b o → g b o = f b o) →
        ∀ h : Flash, (∀ b o, ¬ScratchBytes cfg ctx b o → h b o = g b o) → C h := by
    intro C covers g same h same'
    refine covers h (layout.remains_of_within fun b o outside ↦ ?_)
    rw [same' b o outside, same b o outside]
  have whole : ∀ {C : Flash → Prop} {result : Except Status Unit} {ctx' : Ctx} {f' : Flash},
      (∀ g, Remains cfg ctx f g → C g) →
      Passes cfg C
        (if (ctx.fileMeta cfg f del).maxSize ≠ 0 ∧
            (ctx.fileMeta cfg f del).lblock ≠ itsLogicalDblock0 ∨
            (ctx.fileMeta cfg f del).maxSize = 0 then
          (itsFlashFsMblockMigrateLb0DataToScratch cfg).orStatus .genericError >>= fun _ ↦
            itsFlashFsMblockMetaUpdateFinalize cfg
        else itsFlashFsMblockMetaUpdateFinalize cfg)
        ((deletion cfg ctx f del).exchanged ctx f) f₃ result ctx' f' →
      Passes cfg C (itsFlashFsDeleteIdx cfg del) ctx f result ctx' f' := by
    intro C result ctx' f' covers rest
    refine (read.passes (before covers fun _ _ _ ↦ rfl)).bind
      (((runs_ensure live).passes (before covers fun _ _ _ ↦ rfl)).bind
        ((run₁.passes (before covers fun _ _ _ ↦ rfl)).bind
          ((run₂.passes (before covers within₁)).bind ?_)))
    dsimp only
    exact pass₃ (before covers within₂) rest
  by_cases apart : (deletion cfg ctx f del).lblock ≠ 0 ∨ (deletion cfg ctx f del).rebuilt = false
  · obtain ⟨f₄, run₄, staging₄⟩ := Update.runs_migrate layout staging₃ active_eq scratch_eq apart
      (by
        have files_le : itsMblockFileMetaOffset cfg 0 ≤ metadataEnd cfg :=
          fileMetaOffset_mono cfg (Nat.zero_le _)
        rw [scratch_eq]
        rintro o behind ((⟨-, -, hi⟩ | ⟨nonempty, wrote⟩) | ⟨-, -, hi⟩)
        · omega
        · have lblock : (deletion cfg ctx f del).lblock = (ctx.fileMeta cfg f del).lblock :=
            if_neg nonempty
          have place :=
            metadataEnd_le_of_data layout (layout.packed.lblock_lt del file.bound) le_rfl wrote
          rcases apart with ne | not_rebuilt
          · exact ne (lblock.trans place.1)
          · exact of_decide_eq_false not_rebuilt nonempty
        · omega)
    have prepared : (deletion cfg ctx f del).Prepared ctx f f₄ := by
      refine Update.prepared_of_complete layout sound (staging₄.filled.congr fun b o ↦ ?_)
        (file.complete layout)
      rw [scratch_eq]
      constructor
      · rintro (((wrote | ⟨nonempty, wrote⟩) | wrote) | wrote)
        · exact .files wrote
        · exact .data nonempty wrote
        · exact .blocks wrote
        · exact .migrated apart wrote
      · intro wrote
        cases wrote with
        | files wrote => exact .inl (.inl (.inl wrote))
        | data nonempty wrote => exact .inl (.inl (.inr ⟨nonempty, wrote⟩))
        | blocks wrote => exact .inl (.inr wrote)
        | migrated apart wrote => exact .inr wrote
    have within₄ : ∀ b o, ¬ScratchBytes cfg ctx b o → f₄ b o = f b o :=
      fun b o outside ↦ (run₄.frame outside).trans (within₃ b o outside)
    refine ⟨_, _, prepared.done layout valid sound, whole (fun _ ↦ .inl) ?_⟩
    rw [if_pos (cond_iff.2 apart)]
    exact (run₄.passes (before (fun _ ↦ .inl) within₃)).orStatus.bind
      (prepared.passes_finalize layout valid sound within₄)
  · have prepared : (deletion cfg ctx f del).Prepared ctx f f₃ := by
      refine Update.prepared_of_complete layout sound (staging₃.filled.congr fun b o ↦ ?_)
        (file.complete layout)
      constructor
      · rintro ((wrote | ⟨nonempty, wrote⟩) | wrote)
        · exact .files wrote
        · exact .data nonempty wrote
        · exact .blocks wrote
      · intro wrote
        cases wrote with
        | files wrote => exact .inl (.inl wrote)
        | data nonempty wrote => exact .inl (.inr ⟨nonempty, wrote⟩)
        | blocks wrote => exact .inr wrote
        | migrated apart' wrote => exact (apart apart').elim
    refine ⟨_, _, prepared.done layout valid sound, whole (fun _ ↦ .inl) ?_⟩
    rw [if_neg fun cond ↦ apart (cond_iff.1 cond)]
    exact prepared.passes_finalize layout valid sound within₃

end TrustedFirmwareM.Its
