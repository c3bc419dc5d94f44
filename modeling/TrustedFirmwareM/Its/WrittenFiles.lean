import TrustedFirmwareM.Its.Files

/-!
# The files after a write

A committed write changes one file.  If the file has a new entry, the old one stays until it is
deleted, but it is marked.
-/

namespace TrustedFirmwareM.Its

variable {cfg : Config} {ctx ctx' : Ctx} {f f' : Flash}

/-- Data with new data from an offset on.  The new data is programmed in units, and what lies behind
it is erased. -/
def writeAt (cfg : Config) (old : List UInt8) (offset dataSize : ℕ) (data : Bytes) : List UInt8 :=
  (List.range (max old.length (offset + dataSize))).map fun k ↦
    if k < offset then old.getD k 0
    else if k < offset + itsUtilsAlign dataSize cfg.programUnit then data (k - offset)
    else cfg.eraseVal

namespace WritePlan

/-- The data of the file before the write. -/
def oldData (plan : WritePlan cfg) (ctx : Ctx) (f : Flash) : List UInt8 :=
  (List.range plan.fileMeta.curSize).map fun k ↦
    ctx.cell cfg f plan.fileMeta.lblock (plan.fileMeta.dataIdx + k)

/-- The file after the write. -/
def newStored (plan : WritePlan cfg) (ctx : Ctx) (f : Flash) : StoredFile cfg where
  maxSize := plan.fileMeta.maxSize
  flags := plan.fileMeta.flags
  data :=
    if plan.dataSize = 0 then plan.oldData ctx f
    else writeAt cfg (plan.oldData ctx f) plan.offset plan.dataSize plan.data
  nonce := fun i ↦ plan.finfo.nonce i
  tag := fun i ↦ plan.finfo.tag i

/-- The old entry that is to be deleted. -/
def replaced (plan : WritePlan cfg) : Option ℕ :=
  if plan.oldIdx = some plan.newIdx then none else plan.oldIdx

/-- The plan is about a file of the file system. -/
structure For (plan : WritePlan cfg) (ctx : Ctx) (f : Flash) (fid : FileId) : Prop where
  /-- The entry is one for the file. -/
  id_eq : plan.fileMeta.id = fid
  /-- The old entry is that of the file. -/
  oldIdx_eq : plan.oldIdx = ctx.entryOf cfg f none fid
  /-- The new entry is not marked. -/
  settled : plan.fileMeta.flags &&& itsFlashFsFlagDelete = 0
  /-- An old entry that is to be deleted is marked. -/
  marked : plan.marked.flags &&& itsFlashFsFlagDelete ≠ 0 ∨ plan.oldIdx = some plan.newIdx ∨
    plan.oldIdx = none
  /-- A new entry is one of an empty file. -/
  fresh : plan.oldIdx ≠ some plan.newIdx → plan.fileMeta.curSize = 0
  /-- There is a spare entry without an old one. -/
  spare : plan.oldIdx = none → ∃ i < cfg.maxNumFiles, i ≠ plan.newIdx ∧ ¬(ctx.fileMeta cfg f i).Live

variable {plan : WritePlan cfg} {fid : FileId}

theorem replaced_eq_some {i : ℕ} :
    plan.replaced = some i ↔ plan.oldIdx = some i ∧ i ≠ plan.newIdx := by
  rw [replaced]
  split
  · next here =>
      rw [here]
      refine ⟨fun eq ↦ (Option.some_ne_none i eq.symm).elim, fun both ↦ ?_⟩
      exact (both.2 (Option.some_inj.1 both.1).symm).elim
  · next other =>
      refine ⟨fun eq ↦ ⟨eq, ?_⟩, fun both ↦ both.1⟩
      rintro rfl
      exact other eq

theorem length_oldData : (plan.oldData ctx f).length = plan.fileMeta.curSize := by
  rw [oldData, List.length_map, List.length_range]

section

variable (done : (plan.update f).Done ctx f ctx' f')

include done

theorem fileMeta_newIdx (located : plan.Located ctx f) :
    ctx'.fileMeta cfg f' plan.newIdx = plan.newFile := by
  rw [done.fileMeta_eq _ located.newIdx_lt]
  change (plan.files plan.newIdx).getD _ = _
  rw [files_newIdx, Option.getD_some]

theorem fileMeta_replaced {old : ℕ} (located : plan.Located ctx f) (eq : plan.oldIdx = some old)
    (ne : old ≠ plan.newIdx) : ctx'.fileMeta cfg f' old = plan.marked := by
  rw [done.fileMeta_eq _ (located.oldIdx_lt old eq)]
  change (plan.files old).getD _ = _
  rw [files_oldIdx eq ne, Option.getD_some]

theorem fileMeta_other {i : ℕ} (bound : i < cfg.maxNumFiles) (new : i ≠ plan.newIdx)
    (old : plan.oldIdx ≠ some i) : ctx'.fileMeta cfg f' i = ctx.fileMeta cfg f i := by
  rw [done.fileMeta_eq _ bound]
  change (plan.files i).getD _ = _
  rw [files_none new old, Option.getD_none]

/-- The data of the file after the write. -/
theorem cell_newIdx (located : plan.Located ctx f) (accepts : plan.Accepts)
    (nonempty : plan.dataSize ≠ 0) {k : ℕ}
    (inside : k < plan.fileMeta.maxSize) :
    ctx'.cell cfg f' plan.fileMeta.lblock (plan.fileMeta.dataIdx + k) =
      if k < plan.offset then ctx.cell cfg f plan.fileMeta.lblock (plan.fileMeta.dataIdx + k)
      else if k < plan.offset + plan.size then plan.data (k - plan.offset)
      else cfg.eraseVal := by
  have start_le := located.start_le
  have end_le := located.end_le
  have size_le := accepts.size_le
  rw [fileEnd] at end_le
  have data : ctx'.cell cfg f' plan.fileMeta.lblock (plan.fileMeta.dataIdx + k) =
      plan.newData f (plan.fileMeta.dataIdx + k) :=
    done.data_eq (decide_eq_true nonempty) (plan.fileMeta.dataIdx + k)
      (show dataStart cfg plan.fileMeta.lblock ≤ _ by omega)
      (show plan.fileMeta.dataIdx + k + plan.blockMeta.freeSize < _ by omega)
  rw [data, newData, pos, fileEnd]
  by_cases before : k < plan.offset
  · rw [if_neg (by omega), patch_out (by omega), if_pos before, Ctx.cell, located.phyId_eq]
  · rw [if_neg before]
    by_cases within : k < plan.offset + plan.size
    · rw [if_neg (by omega), patch_in (by omega), if_pos within]
      congr 1
      omega
    · rw [if_pos (by omega), if_neg within]

/-- The bytes of the other files. -/
theorem cell_other (layout : Layout cfg ctx f) (located : plan.Located ctx f)
    (accepts : plan.dataSize ≠ 0 → plan.Accepts) {i k : ℕ} (bound : i < cfg.maxNumFiles)
    (new : i ≠ plan.newIdx) (old : plan.oldIdx ≠ some i) (live : (ctx.fileMeta cfg f i).Live)
    (inside : k < (ctx.fileMeta cfg f i).maxSize) :
    ctx'.cell cfg f' (ctx.fileMeta cfg f i).lblock ((ctx.fileMeta cfg f i).dataIdx + k) =
      ctx.cell cfg f (ctx.fileMeta cfg f i).lblock ((ctx.fileMeta cfg f i).dataIdx + k) := by
  have l_lt := layout.packed.lblock_lt i bound
  have start_le := layout.packed.start_le i bound live
  have end_le := layout.packed.end_le i bound live
  by_cases here : (plan.update f).rebuilt = true ∧
      (ctx.fileMeta cfg f i).lblock = (plan.update f).lblock
  · have accepts := accepts (of_decide_eq_true here.1)
    have size_le := accepts.size_le
    have same : (ctx.fileMeta cfg f i).lblock = plan.fileMeta.lblock := here.2
    have fileMeta := fileMeta_other done bound new old
    have live' : (ctx'.fileMeta cfg f' i).Live := by
      rw [fileMeta]
      exact live
    have live_new : (ctx'.fileMeta cfg f' plan.newIdx).Live := by
      rw [fileMeta_newIdx done located]
      exact located.live
    have end_le' := done.layout.packed.end_le i bound live'
    have apart := done.layout.packed.apart i bound plan.newIdx located.newIdx_lt new live' live_new
      (by
        rw [fileMeta, fileMeta_newIdx done located]
        exact same)
    have free := done.freeSize_eq _ l_lt
    rw [same] at free
    rw [fileMeta, fileMeta_newIdx done located] at apart
    rw [fileMeta, same, free] at end_le'
    change (ctx.fileMeta cfg f i).dataIdx + (ctx.fileMeta cfg f i).maxSize ≤
        plan.fileMeta.dataIdx ∨
      plan.fileMeta.dataIdx + plan.fileMeta.maxSize ≤ (ctx.fileMeta cfg f i).dataIdx at apart
    have free_eq : (plan.update f).free ctx f plan.fileMeta.lblock = plan.blockMeta.freeSize :=
      if_pos rfl
    rw [same] at start_le ⊢
    have data : ctx'.cell cfg f' plan.fileMeta.lblock ((ctx.fileMeta cfg f i).dataIdx + k) =
        plan.newData f ((ctx.fileMeta cfg f i).dataIdx + k) :=
      done.data_eq here.1 ((ctx.fileMeta cfg f i).dataIdx + k)
        (show dataStart cfg plan.fileMeta.lblock ≤ _ by omega)
        (show (ctx.fileMeta cfg f i).dataIdx + k + plan.blockMeta.freeSize < _ by omega)
    rw [data, newData, pos, fileEnd, if_neg (by omega), patch_out (by omega), Ctx.cell,
      located.phyId_eq]
  · exact done.cell_eq _ l_lt here _ (by omega) (by omega)

/-- The file that is written. -/
theorem storedFile_newIdx (located : plan.Located ctx f) (named : plan.For ctx f fid)
    (accepts : plan.dataSize ≠ 0 → plan.Accepts) :
    ctx'.storedFile cfg f' plan.newIdx = plan.newStored ctx f := by
  have fileMeta := fileMeta_newIdx done located
  have data : (List.range plan.newFile.curSize).map (fun k ↦
      ctx'.cell cfg f' plan.newFile.lblock (plan.newFile.dataIdx + k)) =
      if plan.dataSize = 0 then plan.oldData ctx f
      else writeAt cfg (plan.oldData ctx f) plan.offset plan.dataSize plan.data := by
    by_cases empty : plan.dataSize = 0
    · have curSize : plan.newFile.curSize = plan.fileMeta.curSize :=
        if_neg fun both ↦ both.1 empty
      rw [if_pos empty, curSize, oldData]
      apply List.map_congr_left
      intro k member
      have inside := List.mem_range.1 member
      have end_le := located.end_le
      have start_le := located.start_le
      have curSize_le := located.curSize_le
      rcases located.place with ⟨-, -, free⟩ | ⟨old_ne, -⟩
      · rw [fileEnd] at end_le
        exact done.cell_eq plan.fileMeta.lblock located.lblock_lt
          (fun both ↦ of_decide_eq_true both.1 empty) (plan.fileMeta.dataIdx + k) (by omega)
          (by omega)
      · have fresh := named.fresh old_ne
        omega
    · have accepts := accepts empty
      have size_le := accepts.size_le
      have dataSize_le := accepts.dataSize_le
      have curSize_le := located.curSize_le
      have curSize : plan.newFile.curSize =
          max (plan.oldData ctx f).length (plan.offset + plan.dataSize) := by
        rw [length_oldData]
        change (if plan.dataSize ≠ 0 ∧ plan.offset + plan.dataSize > plan.fileMeta.curSize then _
          else _) = _
        split <;> omega
      rw [if_neg empty, writeAt, ← curSize]
      apply List.map_congr_left
      intro k member
      have inside := List.mem_range.1 member
      rw [curSize, length_oldData] at inside
      have cell := cell_newIdx done located accepts empty (show k < plan.fileMeta.maxSize by omega)
      refine cell.trans ?_
      rw [size]
      by_cases before : k < plan.offset
      · have offset_le := accepts.offset_le
        rw [if_pos before, if_pos before, List.getD_eq_getElem _ _ (by
          rw [length_oldData]
          omega)]
        simp only [oldData, List.getElem_map, List.getElem_range]
      · rw [if_neg before, if_neg before]
  rw [Ctx.storedFile, fileMeta, newStored, data]
  rfl

/-- Every other file is as it was. -/
theorem storedFile_other (layout : Layout cfg ctx f) (located : plan.Located ctx f)
    (accepts : plan.dataSize ≠ 0 → plan.Accepts) {i : ℕ} (bound : i < cfg.maxNumFiles)
    (new : i ≠ plan.newIdx) (old : plan.oldIdx ≠ some i) (live : (ctx.fileMeta cfg f i).Live) :
    ctx'.storedFile cfg f' i = ctx.storedFile cfg f i := by
  have curSize_le := layout.packed.curSize_le i bound live
  rw [Ctx.storedFile, Ctx.storedFile, fileMeta_other done bound new old]
  congr 1
  apply List.map_congr_left
  intro k member
  have inside := List.mem_range.1 member
  exact cell_other done layout located accepts bound new old live (by omega)

omit done in
/-- No other entry is one of the file. -/
theorem id_ne_of_other (consistent : Consistent cfg ctx f none) (named : plan.For ctx f fid)
    (ne_zero : fid ≠ 0) {i : ℕ} (bound : i < cfg.maxNumFiles) (old : plan.oldIdx ≠ some i) :
    (ctx.fileMeta cfg f i).id ≠ fid := by
  have oldIdx_eq := named.oldIdx_eq
  cases found : ctx.entryOf cfg f none fid with
  | none => exact entryOf_none found bound (Option.some_ne_none i).symm
  | some j =>
      obtain ⟨j_lt, id_eq, -⟩ := entryOf_some found
      rw [found] at oldIdx_eq
      intro same
      have eq := consistent.unique i bound j j_lt (Option.some_ne_none i).symm
        (Option.some_ne_none j).symm (by rw [FileMeta.Live, same]; exact ne_zero)
        (same.trans id_eq.symm)
      rw [oldIdx_eq, eq] at old
      exact old rfl

omit done in
theorem oldIdx_id (named : plan.For ctx f fid) {i : ℕ} (eq : plan.oldIdx = some i) :
    (ctx.fileMeta cfg f i).id = fid :=
  (entryOf_some (named.oldIdx_eq.symm.trans eq)).2.1

/-- Once a write is committed, the file system is in order but for an old entry. -/
theorem consistent_of_done (consistent : Consistent cfg ctx f none) (located : plan.Located ctx f)
    (named : plan.For ctx f fid) (ne_zero : fid ≠ 0) :
    Consistent cfg ctx' f' plan.replaced := by
  have new_id : (ctx'.fileMeta cfg f' plan.newIdx).id = fid := by
    rw [fileMeta_newIdx done located]
    exact named.id_eq
  -- An entry that counts is the new one, or it is as it was.
  have entry : ∀ i < cfg.maxNumFiles, plan.replaced ≠ some i → i = plan.newIdx ∨
      plan.oldIdx ≠ some i ∧ i ≠ plan.newIdx ∧
        ctx'.fileMeta cfg f' i = ctx.fileMeta cfg f i := by
    intro i bound ne
    by_cases new : i = plan.newIdx
    · exact .inl new
    · have old : plan.oldIdx ≠ some i := fun eq ↦ ne (replaced_eq_some.2 ⟨eq, new⟩)
      exact .inr ⟨old, new, fileMeta_other done bound new old⟩
  constructor
  · exact done.layout
  · exact done.headerValid
  · intro i i_lt j j_lt ne ne' live id_eq
    rcases entry i i_lt ne with rfl | ⟨old, new, same⟩
    · rcases entry j j_lt ne' with rfl | ⟨old', -, same'⟩
      · rfl
      · rw [new_id, same'] at id_eq
        exact (id_ne_of_other consistent named ne_zero j_lt old' id_eq.symm).elim
    · rcases entry j j_lt ne' with rfl | ⟨-, -, same'⟩
      · rw [new_id, same] at id_eq
        exact (id_ne_of_other consistent named ne_zero i_lt old id_eq).elim
      · rw [FileMeta.Live, same] at live
        rw [same, same'] at id_eq
        exact consistent.unique i i_lt j j_lt (Option.some_ne_none i).symm
          (Option.some_ne_none j).symm live id_eq
  · intro i bound
    by_cases gone : plan.replaced = some i
    · obtain ⟨old, new⟩ := replaced_eq_some.1 gone
      refine ⟨fun _ ↦ gone, fun _ ↦ ?_⟩
      rw [fileMeta_replaced done located old new]
      rcases named.marked with marked | same | none
      · exact marked
      · rw [same] at old
        exact (new (Option.some_inj.1 old).symm).elim
      · rw [none] at old
        cases old
    · refine ⟨fun marked ↦ (marked ?_).elim, fun eq ↦ (gone eq).elim⟩
      rcases entry i bound gone with rfl | ⟨-, -, same⟩
      · rw [fileMeta_newIdx done located]
        exact named.settled
      · rw [same]
        by_contra marked
        exact Option.some_ne_none i ((consistent.settled i bound).1 marked).symm
  · intro i gone
    obtain ⟨old, new⟩ := replaced_eq_some.1 gone
    refine ⟨located.oldIdx_lt i old, ?_⟩
    rw [fileMeta_replaced done located old new, ← (located.marked i old).1.live, FileMeta.Live,
      oldIdx_id named old]
    exact ne_zero
  · intro kept
    have free : ∃ i < cfg.maxNumFiles, i ≠ plan.newIdx ∧ ¬(ctx.fileMeta cfg f i).Live := by
      by_cases missing : plan.oldIdx = none
      · exact named.spare missing
      · have here : plan.oldIdx = some plan.newIdx := by
          by_contra ne
          rw [replaced, if_neg ne] at kept
          exact missing kept
        obtain ⟨i, bound, unused⟩ := consistent.spare rfl
        refine ⟨i, bound, ?_, unused⟩
        rintro rfl
        rw [FileMeta.Live, oldIdx_id named here] at unused
        exact unused ne_zero
    obtain ⟨i, bound, new, unused⟩ := free
    refine ⟨i, bound, ?_⟩
    have ne : plan.replaced ≠ some i := by
      rw [kept]
      exact (Option.some_ne_none i).symm
    rcases entry i bound ne with here | ⟨-, -, same⟩
    · exact (new here).elim
    · rw [same]
      exact unused

/-- Once a write is committed, it has changed one file. -/
theorem files_eq (consistent : Consistent cfg ctx f none) (located : plan.Located ctx f)
    (named : plan.For ctx f fid) (accepts : plan.dataSize ≠ 0 → plan.Accepts) (ne_zero : fid ≠ 0) :
    ctx'.files cfg f' plan.replaced =
      Function.update (ctx.files cfg f none) fid (some (plan.newStored ctx f)) := by
  have new_ne : plan.replaced ≠ some plan.newIdx := fun eq ↦ (replaced_eq_some.1 eq).2 rfl
  have new_id : (ctx'.fileMeta cfg f' plan.newIdx).id = fid := by
    rw [fileMeta_newIdx done located]
    exact named.id_eq
  funext fid'
  by_cases here : fid' = fid
  · subst here
    have found := (consistent_of_done done consistent located named ne_zero).entryOf_eq
      located.newIdx_lt new_ne (by rw [FileMeta.Live, new_id]; exact ne_zero)
    rw [new_id] at found
    rw [Function.update_self, Ctx.files, if_neg ne_zero, found, Option.map_some,
      storedFile_newIdx done located named accepts]
  · rw [Function.update_of_ne here]
    by_cases zero : fid' = 0
    · rw [Ctx.files, Ctx.files, if_pos zero, if_pos zero]
    · have old_ne : ∀ i, (ctx.fileMeta cfg f i).id = fid' → plan.oldIdx ≠ some i :=
        fun i id_eq old ↦ here (id_eq.symm.trans (oldIdx_id named old))
      have fresh_ne : ∀ i, (ctx.fileMeta cfg f i).id = fid' → i ≠ plan.newIdx := by
        rintro i id_eq rfl
        rcases located.place with ⟨old, -⟩ | ⟨-, unused, -⟩
        · exact old_ne _ id_eq old
        · rw [FileMeta.Live, id_eq] at unused
          exact unused zero
      refine files_congr zero (fun i bound ↦ ?_) (fun i bound id_eq _ ↦ ?_)
      · refine ⟨fun both ↦ ⟨?_, (Option.some_ne_none i).symm⟩, fun both ↦ ?_⟩
        · have new : i ≠ plan.newIdx := by
            rintro rfl
            exact here (both.1.symm.trans new_id)
          have old : plan.oldIdx ≠ some i := fun eq ↦ both.2 (replaced_eq_some.2 ⟨eq, new⟩)
          rw [← fileMeta_other done bound new old]
          exact both.1
        · have new := fresh_ne i both.1
          have old := old_ne i both.1
          rw [fileMeta_other done bound new old]
          exact ⟨both.1, fun eq ↦ old (replaced_eq_some.1 eq).1⟩
      · exact storedFile_other done consistent.layout located accepts bound (fresh_ne i id_eq)
          (old_ne i id_eq) (by rw [FileMeta.Live, id_eq]; exact zero)

end

end WritePlan

end TrustedFirmwareM.Its
