import TrustedFirmwareM.Its.Locating
import Mathlib.Data.List.Find

/-!
# Files

The file system as a map from identifiers to files, whatever their entries and their places are.
While a file is replaced there are two entries for it, and the one that is marked does not count.
-/

namespace TrustedFirmwareM.Its

variable {cfg : Config} {ctx ctx' : Ctx} {f f' : Flash} {del : Option ℕ}

/-- A file, without its place. -/
structure StoredFile (cfg : Config) where
  /-- The space that is reserved for it. -/
  maxSize : ℕ
  /-- Flags set when it was created. -/
  flags : ℕ
  /-- Its data. -/
  data : List UInt8
  /-- The nonce of an encrypted file. -/
  nonce : Fin cfg.nonceLength → UInt8
  /-- The authentication tag of an encrypted file. -/
  tag : Fin cfg.tagLength → UInt8

/-- The file of an entry. -/
def Ctx.storedFile (cfg : Config) (ctx : Ctx) (f : Flash) (i : ℕ) : StoredFile cfg where
  maxSize := (ctx.fileMeta cfg f i).maxSize
  flags := (ctx.fileMeta cfg f i).flags
  data := (List.range (ctx.fileMeta cfg f i).curSize).map fun k ↦
    ctx.cell cfg f (ctx.fileMeta cfg f i).lblock ((ctx.fileMeta cfg f i).dataIdx + k)
  nonce := (ctx.fileMeta cfg f i).nonce
  tag := (ctx.fileMeta cfg f i).tag

/-- The entry of a file, but for one that is to be deleted. -/
def Ctx.entryOf (cfg : Config) (ctx : Ctx) (f : Flash) (del : Option ℕ) (fid : FileId) : Option ℕ :=
  (List.range cfg.maxNumFiles).find? fun i ↦ (ctx.fileMeta cfg f i).id == fid && del != some i

/-- The files, but for one that is to be deleted. -/
def Ctx.files (cfg : Config) (ctx : Ctx) (f : Flash) (del : Option ℕ) (fid : FileId) :
    Option (StoredFile cfg) :=
  if fid = 0 then none else (ctx.entryOf cfg f del fid).map (ctx.storedFile cfg f)

/-- The file system is in order, but for a file that is to be deleted. -/
structure Consistent (cfg : Config) (ctx : Ctx) (f : Flash) (del : Option ℕ) : Prop where
  /-- The blocks are in order. -/
  layout : Layout cfg ctx f
  /-- The header is valid. -/
  headerValid : HeaderValid cfg ctx f
  /-- There is one entry for a file. -/
  unique : ∀ i < cfg.maxNumFiles, ∀ j < cfg.maxNumFiles, del ≠ some i → del ≠ some j →
    (ctx.fileMeta cfg f i).Live → (ctx.fileMeta cfg f i).id = (ctx.fileMeta cfg f j).id → i = j
  /-- Only the file that is to be deleted is marked. -/
  settled : ∀ i < cfg.maxNumFiles, (ctx.fileMeta cfg f i).flags &&& itsFlashFsFlagDelete ≠ 0 ↔
    del = some i
  /-- The file that is to be deleted is in use. -/
  deletable : ∀ i, del = some i → Deletable cfg ctx f i
  /-- There is a spare entry, or there will be one. -/
  spare : del = none → ∃ i < cfg.maxNumFiles, ¬(ctx.fileMeta cfg f i).Live

theorem entryOf_some {fid : FileId} {i : ℕ} (found : ctx.entryOf cfg f del fid = some i) :
    i < cfg.maxNumFiles ∧ (ctx.fileMeta cfg f i).id = fid ∧ del ≠ some i := by
  have here := List.find?_some found
  rw [Bool.and_eq_true, beq_iff_eq, bne_iff_ne] at here
  exact ⟨List.mem_range.1 (List.mem_of_find?_eq_some found), here⟩

theorem entryOf_none {fid : FileId} (missing : ctx.entryOf cfg f del fid = none) {i : ℕ}
    (bound : i < cfg.maxNumFiles) (ne : del ≠ some i) : (ctx.fileMeta cfg f i).id ≠ fid := by
  have none := List.find?_eq_none.1 missing i (List.mem_range.2 bound)
  rw [Bool.and_eq_true, beq_iff_eq, bne_iff_ne, not_and_not_right] at none
  exact fun eq ↦ ne (none eq)

theorem Consistent.entryOf_eq (consistent : Consistent cfg ctx f del) {i : ℕ}
    (bound : i < cfg.maxNumFiles) (ne : del ≠ some i) (live : (ctx.fileMeta cfg f i).Live) :
    ctx.entryOf cfg f del (ctx.fileMeta cfg f i).id = some i := by
  cases found : ctx.entryOf cfg f del (ctx.fileMeta cfg f i).id with
  | none => exact (entryOf_none found bound ne rfl).elim
  | some j =>
      obtain ⟨j_lt, id_eq, ne'⟩ := entryOf_some found
      rw [consistent.unique i bound j j_lt ne ne' live id_eq.symm]

theorem indexOf_eq (fid : FileId) : indexOf cfg ctx f fid = ctx.entryOf cfg f none fid := by
  rw [indexOf, Ctx.entryOf]
  congr 1
  funext i
  exact (Bool.and_true _).symm

/-- The files are the same if their entries are. -/
theorem files_congr {del' : Option ℕ} {fid : FileId} (ne_zero : fid ≠ 0)
    (entry : ∀ i < cfg.maxNumFiles, (ctx'.fileMeta cfg f' i).id = fid ∧ del' ≠ some i ↔
      (ctx.fileMeta cfg f i).id = fid ∧ del ≠ some i)
    (stored : ∀ i < cfg.maxNumFiles, (ctx.fileMeta cfg f i).id = fid → del ≠ some i →
      ctx'.storedFile cfg f' i = ctx.storedFile cfg f i) :
    ctx'.files cfg f' del' fid = ctx.files cfg f del fid := by
  have same : ctx'.entryOf cfg f' del' fid = ctx.entryOf cfg f del fid := by
    rw [Ctx.entryOf, Ctx.entryOf]
    apply List.find?_congr
    intro i member
    rw [Bool.eq_iff_iff, Bool.and_eq_true, Bool.and_eq_true, beq_iff_eq, beq_iff_eq, bne_iff_ne,
      bne_iff_ne]
    exact entry i (List.mem_range.1 member)
  rw [Ctx.files, Ctx.files, if_neg ne_zero, if_neg ne_zero, same]
  cases found : ctx.entryOf cfg f del fid with
  | none => rfl
  | some i =>
      obtain ⟨bound, id_eq, ne⟩ := entryOf_some found
      rw [Option.map_some, Option.map_some, stored i bound id_eq ne]

/-! ## Deletions -/

/-- The bytes of a file that is not deleted are the same behind its new start. -/
theorem deletion_cell {d i k : ℕ} (layout : Layout cfg ctx f) (file : Deletable cfg ctx f d)
    (done : (deletion cfg ctx f d).Done ctx f ctx' f') (bound : i < cfg.maxNumFiles) (ne : i ≠ d)
    (live : (ctx.fileMeta cfg f i).Live) (inside : k < (ctx.fileMeta cfg f i).maxSize) :
    ctx'.cell cfg f' (ctx.fileMeta cfg f i).lblock
        ((moveUp (ctx.fileMeta cfg f d) (ctx.fileMeta cfg f i)).dataIdx + k) =
      ctx.cell cfg f (ctx.fileMeta cfg f i).lblock ((ctx.fileMeta cfg f i).dataIdx + k) := by
  have l_lt := layout.packed.lblock_lt i bound
  have start_le := layout.packed.start_le i bound live
  have end_le := layout.packed.end_le i bound live
  by_cases here : (deletion cfg ctx f d).rebuilt = true ∧
      (ctx.fileMeta cfg f i).lblock = (deletion cfg ctx f d).lblock
  · have nonempty : (ctx.fileMeta cfg f d).maxSize ≠ 0 := of_decide_eq_true here.1
    have u_lblock : (deletion cfg ctx f d).lblock = (ctx.fileMeta cfg f d).lblock := if_neg nonempty
    have free_eq : (deletion cfg ctx f d).freeSize =
        (ctx.blockMeta cfg f (ctx.fileMeta cfg f d).lblock).freeSize +
          (ctx.fileMeta cfg f d).maxSize := if_neg nonempty
    have same := here.2.trans u_lblock
    have del_end := layout.packed.end_le d file.bound file.live
    have del_start := layout.packed.start_le d file.bound file.live
    have place := layout.packed.moveUp_dataIdx file.bound file.live bound ne live same
    have data := done.data_eq here.1
    rw [← here.2] at data
    rw [same] at start_le end_le data ⊢
    rw [data _ (by omega) (by omega), deletion]
    dsimp only
    rcases place with ⟨before, dataIdx⟩ | ⟨after, dataIdx⟩
    · rw [if_pos (by omega), dataIdx]
    · rw [if_neg (by omega), dataIdx]
      congr 1
      omega
  · have dataIdx : (moveUp (ctx.fileMeta cfg f d) (ctx.fileMeta cfg f i)).dataIdx =
        (ctx.fileMeta cfg f i).dataIdx := by
      rw [moveUp]
      split
      · next behind =>
          by_cases empty : (ctx.fileMeta cfg f d).maxSize = 0
          · rw [empty]
            rfl
          · exact (here ⟨decide_eq_true empty, behind.1.trans (if_neg empty).symm⟩).elim
      · rfl
    rw [dataIdx, done.cell_eq _ l_lt here _ (by omega) (by omega)]

theorem moveUp_id (removed file : FileMeta cfg) : (moveUp removed file).id = file.id := by
  rw [moveUp]
  split <;> rfl

theorem moveUp_flags (removed file : FileMeta cfg) : (moveUp removed file).flags = file.flags := by
  rw [moveUp]
  split <;> rfl

section

variable {d : ℕ} (done : (deletion cfg ctx f d).Done ctx f ctx' f')

include done

theorem deletion_fileMeta {i : ℕ} (bound : i < cfg.maxNumFiles) (ne : i ≠ d) :
    ctx'.fileMeta cfg f' i = moveUp (ctx.fileMeta cfg f d) (ctx.fileMeta cfg f i) := by
  rw [done.fileMeta_eq i bound, deletion_files, Option.getD_some, deletedFile, if_neg ne]

theorem deletion_fileMeta_self (bound : d < cfg.maxNumFiles) :
    ctx'.fileMeta cfg f' d = FileMeta.zero := by
  rw [done.fileMeta_eq d bound, deletion_files, Option.getD_some, deletedFile, if_pos rfl]

/-- Once a deletion is committed, the other files are as they were. -/
theorem deletion_files_eq (layout : Layout cfg ctx f) (file : Deletable cfg ctx f d) :
    ctx'.files cfg f' none = ctx.files cfg f (some d) := by
  funext fid
  by_cases zero : fid = 0
  · rw [Ctx.files, Ctx.files, if_pos zero, if_pos zero]
  · refine files_congr zero (fun i bound ↦ ?_) (fun i bound id_eq ne ↦ ?_)
    · by_cases here : i = d
      · rw [here, deletion_fileMeta_self done file.bound]
        refine ⟨fun both ↦ (zero both.1.symm).elim, fun both ↦ (both.2 rfl).elim⟩
      · rw [deletion_fileMeta done bound here, moveUp_id]
        exact and_congr_right fun _ ↦ ⟨fun _ eq ↦ here (Option.some_inj.1 eq).symm,
          fun _ ↦ (Option.some_ne_none i).symm⟩
    · have here : i ≠ d := fun eq ↦ ne (congrArg some eq.symm)
      have live : (ctx.fileMeta cfg f i).Live := by
        rw [FileMeta.Live, id_eq]
        exact zero
      have curSize_le := layout.packed.curSize_le i bound live
      have moved := deletion_fileMeta done bound here
      have data : (List.range (ctx.fileMeta cfg f i).curSize).map (fun k ↦
          ctx'.cell cfg f' (ctx.fileMeta cfg f i).lblock
            ((moveUp (ctx.fileMeta cfg f d) (ctx.fileMeta cfg f i)).dataIdx + k)) =
          (List.range (ctx.fileMeta cfg f i).curSize).map fun k ↦
            ctx.cell cfg f (ctx.fileMeta cfg f i).lblock ((ctx.fileMeta cfg f i).dataIdx + k) := by
        apply List.map_congr_left
        intro k member
        have inside := List.mem_range.1 member
        exact deletion_cell layout file done bound here live (by omega)
      rw [Ctx.storedFile, Ctx.storedFile, moved, moveUp_maxSize, moveUp_flags, moveUp_curSize,
        moveUp_lblock, data]
      rw [moveUp]
      split <;> rfl

/-- Once a deletion is committed, the file system is in order. -/
theorem deletion_consistent {del : Option ℕ} (consistent : Consistent cfg ctx f del)
    (file : Deletable cfg ctx f d) (only : ∀ i, del = some i → i = d) :
    Consistent cfg ctx' f' none where
  layout := done.layout
  headerValid := done.headerValid
  unique := by
    have other : ∀ i, i ≠ d → del ≠ some i := fun i ne eq ↦ ne (only i eq)
    intro i i_lt j j_lt _ _ live id_eq
    have ne : i ≠ d := by
      rintro rfl
      rw [deletion_fileMeta_self done i_lt] at live
      exact live rfl
    rw [FileMeta.Live, deletion_fileMeta done i_lt ne, moveUp_id] at live
    rw [deletion_fileMeta done i_lt ne, moveUp_id] at id_eq
    by_cases here : j = d
    · rw [here, deletion_fileMeta_self done file.bound] at id_eq
      exact (live id_eq).elim
    · rw [deletion_fileMeta done j_lt here, moveUp_id] at id_eq
      exact consistent.unique i i_lt j j_lt (other i ne) (other j here) live id_eq
  settled i bound := by
    refine ⟨fun marked ↦ (marked ?_).elim, fun eq ↦ (Option.some_ne_none i eq.symm).elim⟩
    by_cases here : i = d
    · rw [here, deletion_fileMeta_self done file.bound]
      exact Nat.zero_and _
    · rw [deletion_fileMeta done bound here, moveUp_flags]
      have settled := consistent.settled i bound
      by_contra marked
      exact here (only i (settled.1 marked))
  deletable i eq := (Option.some_ne_none i eq.symm).elim
  spare _ := by
    refine ⟨d, file.bound, ?_⟩
    rw [deletion_fileMeta_self done file.bound]
    exact fun live ↦ live rfl

end

/-- Without the entry of a file, there is no such file. -/
theorem Consistent.files_without (consistent : Consistent cfg ctx f none) {d : ℕ}
    (file : Deletable cfg ctx f d) :
    ctx.files cfg f (some d) =
      Function.update (ctx.files cfg f none) (ctx.fileMeta cfg f d).id none := by
  funext fid
  by_cases here : fid = (ctx.fileMeta cfg f d).id
  · subst here
    rw [Function.update_self, Ctx.files, if_neg file.live]
    cases found : ctx.entryOf cfg f (some d) (ctx.fileMeta cfg f d).id with
    | none => rfl
    | some i =>
        obtain ⟨bound, id_eq, ne⟩ := entryOf_some found
        have same := consistent.unique d file.bound i bound (Option.some_ne_none d).symm
          (Option.some_ne_none i).symm file.live id_eq.symm
        exact (ne (congrArg some same)).elim
  · rw [Function.update_of_ne here]
    by_cases zero : fid = 0
    · rw [Ctx.files, Ctx.files, if_pos zero, if_pos zero]
    · refine files_congr zero (fun i bound ↦ and_congr_right fun id_eq ↦ ?_) fun _ _ _ _ ↦ rfl
      refine ⟨fun _ ↦ (Option.some_ne_none i).symm, fun _ eq ↦ here ?_⟩
      rw [Option.some_inj.1 eq, id_eq]

end TrustedFirmwareM.Its
