import TrustedFirmwareM.Its.WriteStart

/-!
# The file system

What the operations of the file system do to its files.  A mounted file system has files, and a
flash holds the files that a mount brings back.  Wherever an operation is cut off, the flash holds
the files as they were before it, or as they are after it.
-/

namespace TrustedFirmwareM.Its

variable {cfg : Config} {W : ℕ → ℕ → Prop} {files : Files cfg} {ctx : Ctx} {f g : Flash}
  {fid : FileId}

/-- The file system is mounted and has files. -/
structure Mounted (cfg : Config) (files : Files cfg) (ctx : Ctx) (f : Flash) : Prop where
  /-- The file system is in order. -/
  consistent : Consistent cfg ctx f none
  /-- Its files. -/
  files_eq : ctx.files cfg f none = files

/-- The flash holds files, which a mount brings back. -/
def Holds (cfg : Config) (files : Files cfg) (g : Flash) : Prop :=
  ∃ ctx f del, Consistent cfg ctx f del ∧ ctx.files cfg f del = files ∧ Remains cfg ctx f g

theorem Mounted.remains_holds (mounted : Mounted cfg files ctx f) (remains : Remains cfg ctx f g) :
    Holds cfg files g :=
  ⟨ctx, f, none, mounted.consistent, mounted.files_eq, remains⟩

theorem Mounted.holds (mounted : Mounted cfg files ctx f) : Holds cfg files f :=
  mounted.remains_holds mounted.consistent.layout.remains

/-- The files that are left if one is deleted. -/
def Files.delete (files : Files cfg) (fid : FileId) : Files cfg := Function.update files fid none

theorem isSome_indexOf (mounted : Mounted cfg files ctx f) (ne_zero : fid ≠ 0) :
    (indexOf cfg ctx f fid).isSome = (files fid).isSome := by
  rw [← mounted.files_eq, Ctx.files, if_neg ne_zero, ← indexOf_eq, Option.isSome_map]

/-! ## Writes -/

/-- Data can be written to a file. -/
def acceptsData (file : StoredFile cfg) (dataSize offset : ℕ) : Bool :=
  dataSize == 0 || itsUtilsIsAligned offset cfg.programUnit && decide (offset ≤ file.data.length) &&
    decide (offset + itsUtilsAlign dataSize cfg.programUnit ≤ file.maxSize)

/-- The files after a write, or the status of one that is refused. -/
def Files.write (files : Files cfg) (room : Bool) (fid : FileId) (finfo : FileInfo)
    (dataSize offset : ℕ) (data : Bytes) : Except Status (Files cfg) :=
  if finfo.flags &&& itsFlashFsInternalFlagsMask = 0 then
    match startOfWrite files room fid finfo with
    | .error status => .error status
    | .ok file =>
        if acceptsData file dataSize offset then
          .ok (Function.update files fid (some
            { file with
              data := if dataSize = 0 then file.data
                else writeAt cfg file.data offset dataSize data
              nonce := fun i ↦ finfo.nonce i
              tag := fun i ↦ finfo.tag i }))
        else .error .genericError
  else .error .invalidArgument

theorem align_le {size : ℕ} (fits : size + cfg.programUnit ≤ 2 ^ 32) :
    size ≤ itsUtilsAlign size cfg.programUnit := by
  have pos := cfg.programUnit_pos
  have split := Nat.div_add_mod (size + (cfg.programUnit - 1)) cfg.programUnit
  have lt := Nat.mod_lt (size + (cfg.programUnit - 1)) pos
  rw [cfg.align_eq, add32_eq (by omega), Nat.mul_comm]
  omega

namespace LocateOk

variable {base : StoredFile cfg} {finfo : FileInfo} {dataSize offset : ℕ} {data : Bytes}
  {plan : WritePlan cfg} {f₁ : Flash}

theorem curSize_eq (located : LocateOk ctx f fid base finfo dataSize offset data plan f₁) :
    plan.fileMeta.curSize = base.data.length := by
  rw [← located.data_eq, WritePlan.length_oldData]

theorem accepts (located : LocateOk ctx f fid base finfo dataSize offset data plan f₁)
    (fits : dataSize + cfg.programUnit ≤ 2 ^ 32)
    (accepted : acceptsData base dataSize offset = true) :
    plan.dataSize ≠ 0 → plan.Accepts := by
  intro nonempty
  rw [located.dataSize_eq] at nonempty
  rw [acceptsData, Bool.or_eq_true, beq_iff_eq, Bool.and_eq_true, Bool.and_eq_true,
    decide_eq_true_eq,
    decide_eq_true_eq] at accepted
  obtain ⟨⟨aligned, offset_le⟩, size_le⟩ := accepted.resolve_left nonempty
  rw [← located.curSize_eq] at offset_le
  rw [← located.maxSize_eq] at size_le
  constructor
  · rw [located.offset_eq]
    exact aligned
  · rw [located.offset_eq]
    exact offset_le
  · rw [located.offset_eq, WritePlan.size, located.dataSize_eq]
    exact size_le
  · rw [WritePlan.size, located.dataSize_eq]
    exact align_le fits

/-- The write of data that cannot be written. -/
theorem runs_refused (located : LocateOk ctx f fid base finfo dataSize offset data plan f₁)
    (refused : acceptsData base dataSize offset = false) :
    Runs cfg W (writeFileData plan.fileMeta plan.blockMeta dataSize offset data) ctx f₁
      (.error .genericError) ctx f₁ := by
  rw [acceptsData, Bool.or_eq_false_iff, beq_eq_false_iff_ne] at refused
  have maxSize_lt : plan.fileMeta.maxSize < 2 ^ 32 := located.located.maxSize_lt.trans (by decide)
  have aligned_data : ∃ status,
      Runs cfg W (itsFlashFsFileWriteAlignedData plan.blockMeta plan.fileMeta
      offset dataSize data) ctx f₁ (.error status) ctx f₁ := by
    rw [itsFlashFsFileWriteAlignedData]
    by_cases aligned : itsUtilsIsAligned offset cfg.programUnit = true
    · by_cases offset_le : offset ≤ plan.fileMeta.curSize
      · have contained : itsUtilsCheckContainedIn plan.fileMeta.maxSize offset
            (itsUtilsAlign dataSize cfg.programUnit) = false := by
          rw [Bool.eq_false_iff, ne_eq, itsUtilsCheckContainedIn_iff maxSize_lt]
          intro size_le
          rw [located.curSize_eq] at offset_le
          rw [located.maxSize_eq] at size_le
          rw [aligned, decide_eq_true offset_le, decide_eq_true size_le] at refused
          exact absurd refused.2 (by decide)
        exact ⟨_, (runs_ensure aligned).bind ((runs_ensure (decide_eq_true offset_le)).bind
          (runs_ensure_error contained).bind_error)⟩
      · exact ⟨_, (runs_ensure aligned).bind
          (runs_ensure_error (decide_eq_false offset_le)).bind_error⟩
    · exact ⟨_, (runs_ensure_error (Bool.eq_false_iff.2 aligned)).bind_error⟩
  obtain ⟨status, run⟩ := aligned_data
  rw [writeFileData, if_pos refused.1]
  exact run.orStatus.bind_error

end LocateOk

/-- The deletion of a file that is marked is finished. -/
theorem Consistent.passes_deleteIdx {d : ℕ} (consistent : Consistent cfg ctx f (some d)) :
    ∃ ctx' f', Passes cfg (Holds cfg (ctx.files cfg f (some d))) (itsFlashFsDeleteIdx cfg d) ctx f
        (.ok ()) ctx' f' ∧ Mounted cfg (ctx.files cfg f (some d)) ctx' f' := by
  have file := consistent.deletable d rfl
  obtain ⟨ctx', f', done, pass⟩ := file.passes_deleteIdx consistent.layout consistent.headerValid
  have mounted : Mounted cfg (ctx.files cfg f (some d)) ctx' f' :=
    ⟨deletion_consistent done consistent file fun i eq ↦ (Option.some_inj.1 eq).symm,
      deletion_files_eq done consistent.layout file⟩
  refine ⟨ctx', f', pass.mono fun g remains ↦ ?_, mounted⟩
  rcases remains with before | behind
  · exact ⟨ctx, f, some d, consistent, rfl, before⟩
  · exact mounted.remains_holds behind

namespace WritePlan

variable {plan : WritePlan cfg} {ctx' : Ctx} {f' : Flash}

/-- The old entry is deleted once a write is committed. -/
theorem passes_deleteOld (consistent : Consistent cfg ctx' f' plan.replaced)
    (files_eq : ctx'.files cfg f' plan.replaced = files) :
    ∃ ctx'' f'', Passes cfg (Holds cfg files) plan.deleteOld ctx' f' (.ok ()) ctx'' f'' ∧
      Mounted cfg files ctx'' f'' := by
  cases found : plan.replaced with
  | none =>
      rw [found] at consistent files_eq
      have mounted : Mounted cfg files ctx' f' := ⟨consistent, files_eq⟩
      have skip : plan.deleteOld = pure () := by
        rw [deleteOld]
        cases old : plan.oldIdx with
        | none => rfl
        | some i =>
            dsimp only
            rw [if_neg]
            rintro ne
            have replaced := replaced_eq_some.2 ⟨old, ne⟩
            rw [found] at replaced
            cases replaced
      rw [skip]
      exact ⟨ctx', f', (runs_pure ()).passes_silent mounted.holds, mounted⟩
  | some d =>
      rw [found] at consistent files_eq
      obtain ⟨old, ne⟩ := replaced_eq_some.1 found
      have delete : plan.deleteOld = itsFlashFsDeleteIdx cfg d := by
        rw [deleteOld, old]
        exact if_pos ne
      rw [delete, ← files_eq]
      exact consistent.passes_deleteIdx

end WritePlan

namespace LocateOk

variable {base : StoredFile cfg} {finfo : FileInfo} {dataSize offset : ℕ} {data : Bytes}
  {plan : WritePlan cfg} {f₁ : Flash}

theorem newStored_eq (located : LocateOk ctx f fid base finfo dataSize offset data plan f₁) :
    plan.newStored ctx f =
      { base with
        data := if dataSize = 0 then base.data else writeAt cfg base.data offset dataSize data
        nonce := fun i ↦ finfo.nonce i
        tag := fun i ↦ finfo.tag i } := by
  rw [WritePlan.newStored, located.maxSize_eq, located.flags_eq, located.data_eq,
    located.dataSize_eq,
    located.offset_eq, located.bytes_eq, located.finfo_eq]

/-- A write that has found its file, and whose data can be written. -/
theorem passes_write (located : LocateOk ctx f fid base finfo dataSize offset data plan f₁)
    (consistent : Consistent cfg ctx f none) (ne_zero : fid ≠ 0)
    (fits : dataSize + cfg.programUnit ≤ 2 ^ 32)
    (accepted : acceptsData base dataSize offset = true)
    (user : finfo.flags &&& itsFlashFsInternalFlagsMask = 0)
    (run : Runs cfg (ScratchBytes cfg ctx)
      (locateFile cfg fid finfo (itsUtilsAlign finfo.sizeMax cfg.programUnit)) ctx f
      (.ok (plan.oldIdx, plan.newIdx, plan.fileMeta, plan.blockMeta)) ctx f₁) :
    ∃ ctx' f', Passes cfg
        (fun g ↦ Holds cfg (ctx.files cfg f none) g ∨
          Holds cfg (Function.update (ctx.files cfg f none) fid (some (plan.newStored ctx f))) g)
        (itsFlashFsFileWrite cfg fid finfo dataSize offset data) ctx f (.ok ()) ctx' f' ∧
      Mounted cfg (Function.update (ctx.files cfg f none) fid
        (some (plan.newStored ctx f))) ctx' f' := by
  have layout := consistent.layout
  have accepts := located.accepts fits accepted
  obtain ⟨finfo_eq, dataSize_eq, offset_eq, bytes_eq, located, named, filled, within, -⟩ := located
  obtain ⟨ctx', f', done, finish⟩ :=
    located.passes_finish layout consistent.headerValid accepts filled within
  have consistent' := WritePlan.consistent_of_done done consistent located named ne_zero
  have files' := WritePlan.files_eq done consistent located named accepts ne_zero
  obtain ⟨ctx'', f'', delete, mounted⟩ := WritePlan.passes_deleteOld consistent' files'
  refine ⟨ctx'', f'', ?_, mounted⟩
  have before : ∀ g, Remains cfg ctx f g → Holds cfg (ctx.files cfg f none) g :=
    fun g remains ↦ ⟨ctx, f, none, consistent, rfl, remains⟩
  have rest := finish (fun g remains ↦ remains.imp (before g)
    fun behind ↦ ⟨ctx', f', plan.replaced, consistent', files', behind⟩) (delete.mono fun _ ↦ .inr)
  rw [WritePlan.finish, finfo_eq, dataSize_eq, offset_eq, bytes_eq] at rest
  have search := run.passes fun g same ↦
    Or.inl (b := Holds cfg (Function.update (ctx.files cfg f none) fid
      (some (plan.newStored ctx f))) g) (before g (layout.remains_of_within same))
  exact ((runs_ensure (beq_iff_eq.2 user)).passes_silent (.inl (before f layout.remains))).bind
    (search.bind rest)

end LocateOk

/-- A write changes one file, or it is refused.  A refused one has changed nothing, unless it was to
replace a file: then it has marked that in the scratch metadata block. -/
theorem Mounted.write (mounted : Mounted cfg files ctx f) (ne_zero : fid ≠ 0) {finfo : FileInfo}
    (flags_lt : finfo.flags < 2 ^ 32) {dataSize : ℕ} (fits : dataSize + cfg.programUnit ≤ 2 ^ 32)
    (offset : ℕ) (data : Bytes) :
    match files.write (hasRoom cfg ctx f (itsUtilsAlign finfo.sizeMax cfg.programUnit)
        (files fid).isSome) fid finfo dataSize offset data with
    | .ok files' => ∃ ctx' f', Passes cfg (fun g ↦ Holds cfg files g ∨ Holds cfg files' g)
        (itsFlashFsFileWrite cfg fid finfo dataSize offset data) ctx f (.ok ()) ctx' f' ∧
        Mounted cfg files' ctx' f'
    | .error status => ∃ f', Runs cfg (ScratchBytes cfg ctx)
        (itsFlashFsFileWrite cfg fid finfo dataSize offset data) ctx f (.error status) ctx f' ∧
        LeavesMark files ctx f f' fid finfo := by
  have consistent := mounted.consistent
  rw [← isSome_indexOf mounted ne_zero, Files.write]
  by_cases user : finfo.flags &&& itsFlashFsInternalFlagsMask = 0
  · rw [if_pos user]
    have start := locateFile_outcome consistent ne_zero flags_lt user dataSize offset data rfl
    rw [mounted.files_eq] at start
    generalize startOfWrite files (hasRoom cfg ctx f (itsUtilsAlign finfo.sizeMax cfg.programUnit)
      (indexOf cfg ctx f fid).isSome) fid finfo = started at start ⊢
    cases started with
    | error status =>
        obtain ⟨f₁, run, mark⟩ := start
        exact ⟨f₁, (runs_ensure (beq_iff_eq.2 user)).bind run.bind_error, mark⟩
    | ok base =>
        obtain ⟨plan, f₁, run, located⟩ := start
        dsimp only
        by_cases accepts : acceptsData base dataSize offset = true
        · rw [if_pos accepts, ← located.newStored_eq, ← mounted.files_eq]
          exact located.passes_write consistent ne_zero fits accepts user run
        · rw [if_neg accepts]
          have refused := located.runs_refused (W := ScratchBytes cfg ctx)
            (Bool.eq_false_iff.2 accepts)
          have mark := located.mark
          rw [mounted.files_eq] at mark
          exact ⟨f₁, (runs_ensure (beq_iff_eq.2 user)).bind (run.bind refused.bind_error), mark⟩
  · rw [if_neg user]
    have kept : replaces files fid finfo = false := by
      rw [replaces, beq_eq_false_iff_ne.2 user, Bool.false_and]
    exact ⟨f, (runs_ensure_error (beq_eq_false_iff_ne.2 user)).bind_error, .unchanged kept⟩

/-! ## Deletions -/

/-- A deletion removes one file. -/
theorem Mounted.delete (mounted : Mounted cfg files ctx f) (exists_file : files fid ≠ none) :
    ∃ ctx' f', Passes cfg (fun g ↦ Holds cfg files g ∨ Holds cfg (files.delete fid) g)
        (itsFlashFsFileDelete cfg fid) ctx f (.ok ()) ctx' f' ∧
          Mounted cfg (files.delete fid) ctx' f' := by
  have consistent := mounted.consistent
  have layout := consistent.layout
  have ne_zero : fid ≠ 0 := by
    rintro rfl
    rw [← mounted.files_eq, Ctx.files, if_pos rfl] at exists_file
    exact exists_file rfl
  have search := runs_indexOf (W := fun _ _ ↦ False) layout.entriesValid fid
  cases found : indexOf cfg ctx f fid with
  | none =>
      rw [← mounted.files_eq, files_of_indexOf_none ne_zero found] at exists_file
      exact (exists_file rfl).elim
  | some d =>
      obtain ⟨bound, id_eq⟩ := indexOf_some found
      have file : Deletable cfg ctx f d := ⟨bound, by rw [FileMeta.Live, id_eq]; exact ne_zero⟩
      obtain ⟨ctx', f', done, pass⟩ := file.passes_deleteIdx layout consistent.headerValid
      have mounted' : Mounted cfg (files.delete fid) ctx' f' := by
        refine ⟨deletion_consistent done consistent file
          fun i eq ↦ (Option.some_ne_none i eq.symm).elim, ?_⟩
        rw [deletion_files_eq done layout file, consistent.files_without file,
          mounted.files_eq, id_eq, Files.delete]
      rw [found] at search
      refine ⟨ctx', f', ?_, mounted'⟩
      exact (search.orStatus.passes_silent (.inl mounted.holds)).bind
        (pass.mono fun g remains ↦ remains.imp mounted.remains_holds mounted'.remains_holds)

/-- There is nothing to delete without a file. -/
theorem Mounted.delete_missing (mounted : Mounted cfg files ctx f) (missing : files fid = none) :
    Runs cfg W (itsFlashFsFileDelete cfg fid) ctx f (.error .doesNotExist) ctx f := by
  have layout := mounted.consistent.layout
  have search := runs_indexOf (W := W) layout.entriesValid fid
  cases found : indexOf cfg ctx f fid with
  | none =>
      rw [found] at search
      exact search.orStatus.bind_error
  | some i =>
      obtain ⟨bound, id_eq⟩ := indexOf_some found
      have unused : fid = 0 := by
        by_contra ne_zero
        rw [← mounted.files_eq, files_of_indexOf ne_zero found] at missing
        cases missing
      rw [found] at search
      refine search.orStatus.bind ((layout.runs_readFileMeta bound).bind ?_)
      refine (runs_ensure_error ?_).bind_error
      rw [id_eq, unused]
      rfl

/-! ## Reads -/

/-- The information about a file. -/
def StoredFile.info (file : StoredFile cfg) : FileInfo where
  sizeMax := file.maxSize
  sizeCurrent := file.data.length
  flags := file.flags &&& itsFlashFsUserFlagsMask
  nonce := fun i ↦ if inside : i < cfg.nonceLength then file.nonce ⟨i, inside⟩ else 0
  tag := fun i ↦ if inside : i < cfg.tagLength then file.tag ⟨i, inside⟩ else 0

section

variable {ctx' : Ctx} {f' : Flash}

/-- What a search for a file finds in a flash whose scratch blocks may have been written to. -/
theorem Mounted.runs_search (mounted : Mounted cfg files ctx f) (remains : Remains cfg ctx f g)
    (fid : FileId) :
    Runs cfg W (itsFlashFsMblockGetFileIdxMeta cfg fid) ctx g
      (match indexOf cfg ctx f fid with
        | some i => .ok (i, ctx.fileMeta cfg f i)
        | none => .error .doesNotExist) ctx g := by
  have layout := mounted.consistent.layout
  have active := remains.active_eq layout
  have valid := layout.entriesValid
  rw [← active] at valid
  have search := runs_indexOf (W := W) valid fid
  simp only [indexOf, Ctx.fileMeta, active] at search ⊢
  exact search

/-- The information about a file. -/
theorem Mounted.getInfo (mounted : Mounted cfg files ctx f) (remains : Remains cfg ctx f g)
    (ne_zero : fid ≠ 0) :
    Runs cfg W (itsFlashFsFileGetInfo cfg fid) ctx g
      (match files fid with
        | some file => .ok file.info
        | none => .error .doesNotExist) ctx g := by
  have search := mounted.runs_search (W := W) remains fid
  rw [← mounted.files_eq]
  cases found : indexOf cfg ctx f fid with
  | none =>
      rw [found] at search
      rw [files_of_indexOf_none ne_zero found]
      exact search.orStatus.bind_error
  | some i =>
      rw [found] at search
      rw [files_of_indexOf ne_zero found]
      refine search.orStatus.bind ?_
      dsimp only
      rw [StoredFile.info, Ctx.storedFile, List.length_map, List.length_range]
      exact runs_pure _

/-- The data blocks in use have nothing to do with the scratch blocks. -/
theorem Remains.block_eq (remains : Remains cfg ctx f g) (layout : Layout cfg ctx f) {l : ℕ}
    (bound : l < itsNumActiveDblocks cfg) :
    g (ctx.blockMeta cfg f l).phyId = f (ctx.blockMeta cfg f l).phyId := by
  have metablocks := layout.blocks.metablocks
  funext o
  apply remains.same
  rintro ⟨-, here⟩
  by_cases zero : l = 0
  · rw [zero, layout.blocks.phyId_zero] at here
    rcases here with metablock | ⟨large, dblock⟩
    · omega
    · have le := layout.scratchDblock_ne large
      omega
  · have behind := (layout.blocks.phyId_bounds l bound zero).1
    rcases here with metablock | ⟨large, dblock⟩
    · omega
    · exact layout.blocks.scratchDblock_ne large l bound dblock

theorem Mounted.runs_readFile (mounted : Mounted cfg files ctx f)
    (remains : Remains cfg ctx f g) {i : ℕ}
    (bound : i < cfg.maxNumFiles) (live : (ctx.fileMeta cfg f i).Live) {offset size : ℕ}
    (inside : offset + size ≤ (ctx.fileMeta cfg f i).curSize) :
    ∃ data, Runs cfg W (itsFlashFsDblockReadFile (ctx.fileMeta cfg f i) offset size) ctx g
      (.ok data) ctx g ∧
      ∀ k, data k = ctx.cell cfg f (ctx.fileMeta cfg f i).lblock
        ((ctx.fileMeta cfg f i).dataIdx + (offset + k)) := by
  have layout := mounted.consistent.layout
  have active := remains.active_eq layout
  have l_lt := layout.packed.lblock_lt i bound
  have curSize_le := layout.packed.curSize_le i bound live
  have end_le := layout.packed.end_le i bound live
  have block_lt := cfg.blockSize_lt
  have block : Runs cfg W
      (itsFlashFsMblockReadBlockMetadata cfg (ctx.fileMeta cfg f i).lblock) ctx g
      (.ok (ctx.blockMeta cfg f (ctx.fileMeta cfg f i).lblock)) ctx g := by
    have valid := layout.entriesValid.block _ l_lt
    rw [← active] at valid
    have run := runs_readBlockMetadata (W := W) valid
    rw [active] at run
    exact run
  have lookUp : Runs cfg W (itsDblockLoToPhy cfg (ctx.fileMeta cfg f i).lblock) ctx g
      (.ok (ctx.blockMeta cfg f (ctx.fileMeta cfg f i).lblock).phyId) ctx g :=
    block.bind (runs_pure _)
  refine ⟨_, lookUp.orStatus.bind (runs_read _ _ _), fun k ↦ ?_⟩
  rw [add32_eq (by omega), remains.block_eq layout l_lt, Ctx.cell, Nat.add_assoc]

/-- A read returns a part of the data of a file. -/
theorem Mounted.read (mounted : Mounted cfg files ctx f) (remains : Remains cfg ctx f g)
    (ne_zero : fid ≠ 0) {file : StoredFile cfg} (file_eq : files fid = some file) {size offset : ℕ}
    (inside : offset + size ≤ file.data.length) :
    ∃ data, Runs cfg W (itsFlashFsFileRead cfg fid size offset) ctx g (.ok data) ctx g ∧
      (List.range size).map data = (file.data.drop offset).take size := by
  have search := mounted.runs_search (W := W) remains fid
  rw [← mounted.files_eq] at file_eq
  cases found : indexOf cfg ctx f fid with
  | none =>
      rw [files_of_indexOf_none ne_zero found] at file_eq
      cases file_eq
  | some i =>
      obtain ⟨bound, id_eq⟩ := indexOf_some found
      rw [found] at search
      rw [files_of_indexOf ne_zero found] at file_eq
      cases file_eq
      have length_eq : (ctx.storedFile cfg f i).data.length = (ctx.fileMeta cfg f i).curSize := by
        rw [Ctx.storedFile, List.length_map, List.length_range]
      rw [length_eq] at inside
      have live : (ctx.fileMeta cfg f i).Live := by
        rw [FileMeta.Live, id_eq]
        exact ne_zero
      have curSize_lt := (fits_fileMetaAt cfg (f ctx.activeMetablock) i).curSize
      obtain ⟨data, run, data_eq⟩ := mounted.runs_readFile (W := W) remains bound live inside
      refine ⟨data, search.orStatus.bind
        ((runs_ensure ((itsUtilsCheckContainedIn_iff curSize_lt).2 inside)).bind run.orStatus), ?_⟩
      apply List.ext_getElem
      · rw [List.length_map, List.length_range, List.length_take, List.length_drop, length_eq]
        omega
      · intro k k_lt k_lt'
        rw [List.getElem_map, List.getElem_range, List.getElem_take, List.getElem_drop, data_eq]
        simp only [Ctx.storedFile, List.getElem_map, List.getElem_range]

end

/-! ## Mounting -/

/-- A mount brings back the files, and finishes the replacement of a file. -/
theorem Holds.prepare (holds : Holds cfg files g) (eraseVal_ne : cfg.eraseVal ≠ 1) (ctx₀ : Ctx) :
    ∃ ctx f, Passes cfg (Holds cfg files) (itsFlashFsPrepare cfg) ctx₀ g (.ok ()) ctx f ∧
      Mounted cfg files ctx f := by
  obtain ⟨ctx, f, del, consistent, rfl, remains⟩ := holds
  have layout := consistent.layout
  have init : Passes cfg (Holds cfg (ctx.files cfg f del)) (itsFlashFsMblockInit cfg) ctx₀ g
      (.ok ()) ctx f :=
    (remains.passes_init layout consistent.headerValid eraseVal_ne).mono
      fun h behind ↦ ⟨ctx, f, del, consistent, rfl, behind⟩
  have search := runs_findFileMeta (W := fun _ _ ↦ False) layout.entriesValid
    (fun fileMeta ↦ fileMeta.flags &&& itsFlashFsFlagDelete != 0) fun i member ↦
      List.mem_range.1 member
  cases found : (List.range cfg.maxNumFiles).find? fun i ↦
      (ctx.fileMeta cfg f i).flags &&& itsFlashFsFlagDelete != 0 with
  | none =>
      have missing : Runs cfg (fun _ _ ↦ False)
          (itsFlashFsMblockGetFileIdxFlag cfg itsFlashFsFlagDelete) ctx f
            (.error .doesNotExist) ctx f := by
        rw [found] at search
        exact search
      have kept : del = none := by
        cases del with
        | none => rfl
        | some d =>
            have bound := (consistent.deletable d rfl).bound
            have marked := (consistent.settled d bound).2 rfl
            have none := List.find?_eq_none.1 found d (List.mem_range.2 bound)
            exact (none (bne_iff_ne.2 marked)).elim
      subst kept
      exact ⟨ctx, f, init.bind ((missing.result.bind (runs_pure ())).passes_silent init.behind),
        consistent, rfl⟩
  | some d =>
      rw [found] at search
      have bound := List.mem_range.1 (List.mem_of_find?_eq_some found)
      have marked := List.find?_some found
      rw [bne_iff_ne, ne_eq] at marked
      have gone := (consistent.settled d bound).1 marked
      subst gone
      obtain ⟨ctx', f', delete, mounted⟩ := consistent.passes_deleteIdx
      exact ⟨ctx', f', init.bind ((search.result.passes_silent init.behind).bind delete), mounted⟩

end TrustedFirmwareM.Its
