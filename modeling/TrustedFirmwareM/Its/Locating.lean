import TrustedFirmwareM.Its.Writes
import TrustedFirmwareM.Its.Deletions

/-!
# Finding a file

A write looks for an entry with the identifier of the file.  It goes on with this entry, or it
reserves a new one in the first block with enough space.  A replaced file is marked in the scratch
metadata block before there is a new entry for it.
-/

namespace TrustedFirmwareM.Its

variable {cfg : Config} {W : ℕ → ℕ → Prop} {ctx : Ctx} {f : Flash}

/-! ## Searches -/

/-- The index of a file. -/
def indexOf (cfg : Config) (ctx : Ctx) (f : Flash) (fid : FileId) : Option ℕ :=
  (List.range cfg.maxNumFiles).find? fun i ↦ (ctx.fileMeta cfg f i).id == fid

/-- The block that a new file is put in. -/
def blockFor (cfg : Config) (ctx : Ctx) (f : Flash) (size : ℕ) : Option ℕ :=
  (List.range (itsNumActiveDblocks cfg)).find? fun l ↦
    decide (size ≤ (ctx.blockMeta cfg f l).freeSize)

/-- The index that a new file gets. -/
def freeFor (cfg : Config) (ctx : Ctx) (f : Flash) (useSpare : Bool) : Option ℕ :=
  freeIndex (fun i ↦ !itsUtilsValidateFid (ctx.fileMeta cfg f i).id) useSpare
    (List.range cfg.maxNumFiles)

/-- The metadata of a new file. -/
def reservedFile (cfg : Config) (ctx : Ctx) (f : Flash) (fid : FileId) (size flags : ℕ)
    (fileMeta : FileMeta cfg) (l : ℕ) : FileMeta cfg :=
  { fileMeta with
    lblock := l
    dataIdx := cfg.blockSize - (ctx.blockMeta cfg f l).freeSize
    maxSize := size
    id := fid
    curSize := 0
    flags := flags }

/-- The metadata of the block of a new file. -/
def reservedBlock (cfg : Config) (ctx : Ctx) (f : Flash) (size l : ℕ) : BlockMeta :=
  { ctx.blockMeta cfg f l with freeSize := (ctx.blockMeta cfg f l).freeSize - size }

theorem indexOf_some {fid : FileId} {i : ℕ} (found : indexOf cfg ctx f fid = some i) :
    i < cfg.maxNumFiles ∧ (ctx.fileMeta cfg f i).id = fid := by
  have here := List.find?_some found
  rw [beq_iff_eq] at here
  exact ⟨List.mem_range.1 (List.mem_of_find?_eq_some found), here⟩

theorem blockFor_some {size l : ℕ} (found : blockFor cfg ctx f size = some l) :
    l < itsNumActiveDblocks cfg ∧ size ≤ (ctx.blockMeta cfg f l).freeSize := by
  have fits := List.find?_some found
  rw [decide_eq_true_eq] at fits
  exact ⟨List.mem_range.1 (List.mem_of_find?_eq_some found), fits⟩

theorem freeFor_some {useSpare : Bool} {i : ℕ} (found : freeFor cfg ctx f useSpare = some i) :
    i < cfg.maxNumFiles ∧ ¬(ctx.fileMeta cfg f i).Live := by
  obtain ⟨free, member⟩ := freeIndex_isFree found
  refine ⟨List.mem_range.1 member, ?_⟩
  rw [Bool.not_eq_true', itsUtilsValidateFid, decide_eq_false_iff_not] at free
  exact free

theorem runs_indexOf (valid : EntriesValid cfg (f ctx.activeMetablock)) (fid : FileId) :
    Runs cfg W (itsFlashFsMblockGetFileIdxMeta cfg fid) ctx f
      (match indexOf cfg ctx f fid with
        | some i => .ok (i, ctx.fileMeta cfg f i)
        | none => .error .doesNotExist) ctx f := runs_getFileIdxMeta valid fid

theorem runs_reserveFileLoop (valid : EntriesValid cfg (f ctx.activeMetablock))
    (free_le : ∀ l < itsNumActiveDblocks cfg, (ctx.blockMeta cfg f l).freeSize ≤ cfg.blockSize)
    (fid : FileId) (size flags : ℕ) (fileMeta : FileMeta cfg) {indices : List ℕ}
    (bound : ∀ l ∈ indices, l < itsNumActiveDblocks cfg) :
    Runs cfg W (reserveFileLoop fid size flags fileMeta indices) ctx f
      (match indices.find? fun l ↦ decide (size ≤ (ctx.blockMeta cfg f l).freeSize) with
        | some l => .ok (reservedFile cfg ctx f fid size flags fileMeta l,
            reservedBlock cfg ctx f size l)
        | none => .error .insufficientStorage) ctx f := by
  induction indices with
  | nil => exact runs_throw _
  | cons l rest ih =>
      have l_lt := bound l List.mem_cons_self
      have block_lt := cfg.blockSize_lt
      rw [reserveFileLoop]
      refine (runs_readBlockMetadata (valid.block l l_lt)).orStatus.bind ?_
      rw [List.find?_cons]
      by_cases fits : size ≤ (ctx.blockMeta cfg f l).freeSize
      · rw [if_pos fits, decide_eq_true fits, sub32_eq (free_le l l_lt) block_lt]
        exact runs_pure _
      · rw [if_neg fits, decide_eq_false fits]
        exact ih fun k member ↦ bound k (List.mem_cons_of_mem l member)

theorem runs_reserveFile (valid : EntriesValid cfg (f ctx.activeMetablock))
    (free_le : ∀ l < itsNumActiveDblocks cfg, (ctx.blockMeta cfg f l).freeSize ≤ cfg.blockSize)
    (fid : FileId) (useSpare : Bool) (size flags : ℕ) (fileMeta : FileMeta cfg) :
    Runs cfg W (itsFlashFsMblockReserveFile fid useSpare size flags fileMeta) ctx f
      (match blockFor cfg ctx f size, freeFor cfg ctx f useSpare with
        | some l, some i => .ok (i, reservedFile cfg ctx f fid size flags fileMeta l,
            reservedBlock cfg ctx f size l)
        | _, _ => .error .insufficientStorage) ctx f := by
  have loop := runs_reserveFileLoop (W := W) valid free_le fid size flags fileMeta
    fun l member ↦ List.mem_range.1 member
  refine loop.result.bind ((runs_getFreeFileIndex valid useSpare).bind ?_)
  rw [blockFor, freeFor]
  cases (List.range (itsNumActiveDblocks cfg)).find? fun l ↦
      decide (size ≤ (ctx.blockMeta cfg f l).freeSize) with
  | none => exact runs_throw _
  | some l =>
      cases freeIndex (fun i ↦ !itsUtilsValidateFid (ctx.fileMeta cfg f i).id) useSpare
          (List.range cfg.maxNumFiles) with
      | none => exact runs_throw _
      | some i => exact runs_pure _

/-! ## Plans -/

namespace WritePlan

variable {plan : WritePlan cfg}

/-- The entry of an existing file is reused. -/
theorem located_reuse (layout : Layout cfg ctx f) (old_eq : plan.oldIdx = some plan.newIdx)
    (bound : plan.newIdx < cfg.maxNumFiles) (live : plan.fileMeta.Live)
    (place : SamePlace (ctx.fileMeta cfg f plan.newIdx) plan.fileMeta)
    (curSize_le : plan.fileMeta.curSize ≤ plan.fileMeta.maxSize)
    (flags_lt : plan.fileMeta.flags < 2 ^ 32)
    (block_eq : plan.blockMeta = ctx.blockMeta cfg f plan.fileMeta.lblock)
    (marked_eq : plan.marked = ctx.fileMeta cfg f plan.newIdx) : plan.Located ctx f := by
  have live_old := place.live.2 live
  have lblock_lt := layout.packed.lblock_lt _ bound
  have maxSize_le := layout.packed.maxSize_le _ bound live_old
  have start_le := layout.packed.start_le _ bound live_old
  have end_le := layout.packed.end_le _ bound live_old
  have dataStart_eq := layout.blocks.dataStart_eq _ lblock_lt
  rw [place.lblock] at lblock_lt start_le end_le dataStart_eq
  rw [place.maxSize] at maxSize_le end_le
  rw [place.dataIdx] at start_le end_le
  constructor
  · exact bound
  · intro old eq
    rw [old_eq] at eq
    cases eq
    exact bound
  · exact live
  · exact lblock_lt
  · rw [block_eq]
  · rw [block_eq]
    exact dataStart_eq
  · exact curSize_le
  · exact maxSize_le
  · exact start_le
  · rw [block_eq]
    exact end_le
  · exact flags_lt
  · exact .inl ⟨old_eq, place, by rw [block_eq]⟩
  · intro old eq
    rw [old_eq] at eq
    cases eq
    rw [marked_eq]
    exact ⟨.refl _, rfl, (fits_fileMetaAt cfg (f ctx.activeMetablock) _).flags⟩

/-- A new entry is reserved. -/
theorem located_reserve (layout : Layout cfg ctx f) {fid : FileId} {size flags l : ℕ}
    {old : FileMeta cfg} (ne_zero : fid ≠ 0)
    (file_eq : plan.fileMeta = reservedFile cfg ctx f fid size flags old l)
    (block_eq : plan.blockMeta = reservedBlock cfg ctx f size l)
    (l_lt : l < itsNumActiveDblocks cfg) (fits : size ≤ (ctx.blockMeta cfg f l).freeSize)
    (size_le : size ≤ cfg.maxFileSize) (flags_lt : flags < 2 ^ 32)
    (bound : plan.newIdx < cfg.maxNumFiles) (unused : ¬(ctx.fileMeta cfg f plan.newIdx).Live)
    (used : ∀ i, plan.oldIdx = some i → i < cfg.maxNumFiles ∧ (ctx.fileMeta cfg f i).Live)
    (marked : ∀ i, plan.oldIdx = some i →
      SamePlace (ctx.fileMeta cfg f i) plan.marked ∧
        plan.marked.curSize = (ctx.fileMeta cfg f i).curSize ∧ plan.marked.flags < 2 ^ 32) :
    plan.Located ctx f := by
  have free_le := layout.packed.free_le l l_lt
  have dataStart_eq := layout.blocks.dataStart_eq l l_lt
  constructor
  · exact bound
  · exact fun i eq ↦ (used i eq).1
  · rw [file_eq]
    exact ne_zero
  · rw [file_eq]
    exact l_lt
  · rw [block_eq, file_eq]
    rfl
  · rw [block_eq, file_eq]
    exact dataStart_eq
  · rw [file_eq]
    exact Nat.zero_le _
  · rw [file_eq]
    exact size_le
  · rw [file_eq]
    change dataStart cfg l ≤ cfg.blockSize - (ctx.blockMeta cfg f l).freeSize
    omega
  · rw [fileEnd, file_eq, block_eq]
    change cfg.blockSize - (ctx.blockMeta cfg f l).freeSize + size +
      ((ctx.blockMeta cfg f l).freeSize - size) ≤ cfg.blockSize
    omega
  · rw [file_eq]
    exact flags_lt
  · refine .inr ⟨fun eq ↦ unused (used _ eq).2, unused, ?_⟩
    rw [file_eq, block_eq]
    change cfg.blockSize - (ctx.blockMeta cfg f l).freeSize + (ctx.blockMeta cfg f l).freeSize =
        cfg.blockSize ∧ size ≤ (ctx.blockMeta cfg f l).freeSize ∧
      (ctx.blockMeta cfg f l).freeSize - size = (ctx.blockMeta cfg f l).freeSize - size
    omega
  · exact marked

/-- Nothing is written before a plan that marks no old entry. -/
theorem filled_of_unmarked (unmarked : ∀ i, plan.oldIdx = some i → i = plan.newIdx)
    (target : Flash) :
    Filled f target (plan.MarkWritten ctx) f := by
  refine (filled_start f target).congr fun b o ↦ ⟨fun wrote ↦ wrote.elim, ?_⟩
  rintro ⟨old, eq, ne, -⟩
  exact ne (unmarked old eq)

/-- An old entry is marked. -/
theorem runs_mark (plan : WritePlan cfg) (layout : Layout cfg ctx f) {old : ℕ}
    (old_eq : plan.oldIdx = some old)
    (ne : old ≠ plan.newIdx) (bound : old < cfg.maxNumFiles) :
    ∃ f₁, Runs cfg (ScratchBytes cfg ctx)
      (itsFlashFsMblockUpdateScratchFileMeta old plan.marked) ctx f (.ok ()) ctx f₁ ∧
      Filled f ((plan.update f).target ctx f) (plan.MarkWritten ctx) f₁ := by
  have staging := (plan.update f).staging layout (filled_start f _) fun _ wrote ↦ wrote
  obtain ⟨f₁, run, staging₁⟩ := staging.runs_updateScratchFileMeta
    (Update.target_tables (plan.update f) ctx f) bound (files_oldIdx old_eq ne)
    fun _ _ _ wrote ↦ wrote
  refine ⟨f₁, run, staging₁.filled.congr fun b o ↦ ⟨?_, ?_⟩⟩
  · rintro (wrote | ⟨block, lo, hi⟩)
    · exact wrote.elim
    · exact ⟨old, old_eq, ne, block, lo, hi⟩
  · rintro ⟨i, eq, -, block, lo, hi⟩
    rw [old_eq] at eq
    cases eq
    exact .inr ⟨block, lo, hi⟩

end WritePlan

end TrustedFirmwareM.Its
