import TrustedFirmwareM.Its.WrittenFiles

/-!
# The start of a write

A write goes on with an existing file, with a truncated one, or with a new one.  Which one depends
on the files and on the flags only, and on whether there is room for a new one.
-/

namespace TrustedFirmwareM.Its

variable {cfg : Config} {W : ℕ → ℕ → Prop} {ctx : Ctx} {f : Flash}

/-- The files of a file system. -/
abbrev Files (cfg : Config) : Type := FileId → Option (StoredFile cfg)

/-- The file that a write creates. -/
def newFileOf (cfg : Config) (finfo : FileInfo) (room : Bool) : Except Status (StoredFile cfg) :=
  if itsUtilsAlign finfo.sizeMax cfg.programUnit ≤ cfg.maxFileSize then
    if room then
      .ok
        { maxSize := itsUtilsAlign finfo.sizeMax cfg.programUnit
          flags := finfo.flags
          data := []
          nonce := fun i ↦ finfo.nonce i
          tag := fun i ↦ finfo.tag i }
    else .error .insufficientStorage
  else .error .invalidArgument

/-- The file that a write goes on with. -/
def startOfWrite (files : Files cfg) (room : Bool) (fid : FileId) (finfo : FileInfo) :
    Except Status (StoredFile cfg) :=
  match files fid with
  | some file =>
      if finfo.flags &&& itsFlashFsFlagTruncate ≠ 0 then
        if file.maxSize = itsUtilsAlign finfo.sizeMax cfg.programUnit then
          .ok { file with data := [], flags := finfo.flags }
        else newFileOf cfg finfo room
      else .ok file
  | none =>
      if finfo.flags &&& itsFlashFsFlagCreate ≠ 0 then newFileOf cfg finfo room
      else .error .doesNotExist

/-- A write replaces a file by one of another size. -/
def replaces (files : Files cfg) (fid : FileId) (finfo : FileInfo) : Bool :=
  finfo.flags &&& itsFlashFsInternalFlagsMask == 0 &&
    match files fid with
    | some file => finfo.flags &&& itsFlashFsFlagTruncate != 0 &&
        file.maxSize != itsUtilsAlign finfo.sizeMax cfg.programUnit
    | none => false

theorem replaces_of_none {files : Files cfg} {fid : FileId} (missing : files fid = none)
    (finfo : FileInfo) : replaces files fid finfo = false := by
  rw [replaces, missing, Bool.and_false]

/-- The file system has a block with enough space and an entry for a new file. -/
def hasRoom (cfg : Config) (ctx : Ctx) (f : Flash) (size : ℕ) (useSpare : Bool) : Bool :=
  (blockFor cfg ctx f size).isSome && (freeFor cfg ctx f useSpare).isSome

theorem flag_settled {flags : ℕ} (user : flags &&& itsFlashFsInternalFlagsMask = 0) :
    flags &&& itsFlashFsFlagDelete = 0 := by
  have inside : itsFlashFsFlagDelete = itsFlashFsInternalFlagsMask &&& itsFlashFsFlagDelete := by
    decide
  rw [inside, ← Nat.and_assoc, user, Nat.zero_and]

theorem flag_marked (flags : ℕ) :
    (flags ||| itsFlashFsFlagDelete) &&& itsFlashFsFlagDelete ≠ 0 := by
  rw [Nat.and_comm, Nat.and_or_distrib_left, Nat.and_self, Nat.or_comm]
  exact fun zero ↦ absurd (Nat.or_eq_zero_iff.1 zero).1 (by decide)

/-- The metadata of a file that is marked. -/
def markedFile (file : FileMeta cfg) : FileMeta cfg :=
  { file with flags := file.flags ||| itsFlashFsFlagDelete }

/-- What a write changes before it stores anything: nothing, unless it is to replace a file.  Then
the scratch metadata block gets the entry of this file, marked for deletion. -/
structure LeavesMark (files : Files cfg) (ctx : Ctx) (f f₁ : Flash) (fid : FileId)
    (finfo : FileInfo) : Prop where
  /-- The flash is the same unless a file is to be replaced. -/
  kept : f₁ = f ↔ replaces files fid finfo = false
  /-- The entry of this file is marked. -/
  marked : replaces files fid finfo = true → ∃ i < cfg.maxNumFiles,
    (ctx.fileMeta cfg f i).id = fid ∧
      fileMetaAt cfg (f₁ ctx.scratchMetablock) i = markedFile (ctx.fileMeta cfg f i)

theorem LeavesMark.unchanged {files : Files cfg} {fid : FileId} {finfo : FileInfo}
    (kept : replaces files fid finfo = false) : LeavesMark files ctx f f fid finfo :=
  ⟨iff_of_true rfl kept, fun replaced ↦ (Bool.false_ne_true (kept.symm.trans replaced)).elim⟩

/-- What a search for the file of a write comes to. -/
structure LocateOk (ctx : Ctx) (f : Flash) (fid : FileId) (base : StoredFile cfg)
    (finfo : FileInfo) (dataSize offset : ℕ) (data : Bytes) (plan : WritePlan cfg) (f₁ : Flash) :
    Prop where
  /-- The file information is that of the write. -/
  finfo_eq : plan.finfo = finfo
  /-- So is the size of the data. -/
  dataSize_eq : plan.dataSize = dataSize
  /-- So is the offset of the data. -/
  offset_eq : plan.offset = offset
  /-- So is the data. -/
  bytes_eq : plan.data = data
  /-- The plan fits the mounted file system. -/
  located : plan.Located ctx f
  /-- It is about the file. -/
  named : plan.For ctx f fid
  /-- Only an old entry has been marked. -/
  filled : Filled f ((plan.update f).target ctx f) (plan.MarkWritten ctx) f₁
  /-- The scratch blocks have changed only. -/
  within : ∀ b o, ¬ScratchBytes cfg ctx b o → f₁ b o = f b o
  /-- Not even they have unless a file is replaced. -/
  mark : LeavesMark (ctx.files cfg f none) ctx f f₁ fid finfo
  /-- The space of the file. -/
  maxSize_eq : plan.fileMeta.maxSize = base.maxSize
  /-- Its flags. -/
  flags_eq : plan.fileMeta.flags = base.flags
  /-- Its data. -/
  data_eq : plan.oldData ctx f = base.data

/-- A new entry is reserved. -/
theorem runs_reserveNew (consistent : Consistent cfg ctx f none) {f₁ : Flash}
    (active : f₁ ctx.activeMetablock = f ctx.activeMetablock) (fid : FileId) (finfo : FileInfo)
    (useSpare : Bool) (size : ℕ) (old : FileMeta cfg) :
    Runs cfg W (itsFlashFsMblockReserveFile fid useSpare size finfo.flags old) ctx f₁
      (match blockFor cfg ctx f size, freeFor cfg ctx f useSpare with
        | some l, some i => .ok (i, reservedFile cfg ctx f fid size finfo.flags old l,
            reservedBlock cfg ctx f size l)
        | _, _ => .error .insufficientStorage) ctx f₁ := by
  have layout := consistent.layout
  have valid₁ : EntriesValid cfg (f₁ ctx.activeMetablock) := by
    rw [active]
    exact layout.entriesValid
  have free_le : ∀ l < itsNumActiveDblocks cfg,
      (ctx.blockMeta cfg f₁ l).freeSize ≤ cfg.blockSize := by
    intro l bound
    rw [Ctx.blockMeta, active]
    exact (Nat.le_add_left _ _).trans (layout.packed.free_le l bound)
  have run := runs_reserveFile (W := W) valid₁ free_le fid useSpare size finfo.flags old
  simp only [blockFor, freeFor, reservedFile, reservedBlock, Ctx.blockMeta, Ctx.fileMeta, active]
    at run ⊢
  exact run

section

variable {fid : FileId} {finfo : FileInfo} {sizeMax : ℕ}

/-- What a write does once it knows that it needs a new entry. -/
theorem runs_locateFile_new (consistent : Consistent cfg ctx f none) {f₁ : Flash}
    (active : f₁ ctx.activeMetablock = f ctx.activeMetablock) (oldIdx : Option ℕ)
    (old : FileMeta cfg) :
    Runs cfg W (do
        ensure (decide (sizeMax ≤ cfg.maxFileSize)) .invalidArgument
        let (newIdx, fileMeta, blockMeta) ←
          itsFlashFsMblockReserveFile fid oldIdx.isSome sizeMax finfo.flags old
        pure (oldIdx, newIdx, fileMeta, blockMeta)) ctx f₁
      (if sizeMax ≤ cfg.maxFileSize then
        match blockFor cfg ctx f sizeMax, freeFor cfg ctx f oldIdx.isSome with
        | some l, some i => .ok (oldIdx, i, reservedFile cfg ctx f fid sizeMax finfo.flags old l,
            reservedBlock cfg ctx f sizeMax l)
        | _, _ => .error .insufficientStorage
      else .error .invalidArgument) ctx f₁ := by
  split
  · next fits =>
      refine (runs_ensure (decide_eq_true fits)).bind ?_
      have run := runs_reserveNew (W := W) consistent active fid finfo oldIdx.isSome sizeMax old
      cases found : blockFor cfg ctx f sizeMax with
      | none =>
          rw [found] at run
          exact run.bind_error
      | some l =>
          rw [found] at run
          cases free : freeFor cfg ctx f oldIdx.isSome with
          | none =>
              rw [free] at run
              exact run.bind_error
          | some i =>
              rw [free] at run
              exact run.bind (runs_pure _)
  · next large => exact (runs_ensure_error (decide_eq_false large)).bind_error

theorem runs_locateFile_missing (consistent : Consistent cfg ctx f none)
    (missing : indexOf cfg ctx f fid = none) :
    Runs cfg W (locateFile cfg fid finfo sizeMax) ctx f
      (if finfo.flags &&& itsFlashFsFlagCreate ≠ 0 then
        if sizeMax ≤ cfg.maxFileSize then
          match blockFor cfg ctx f sizeMax, freeFor cfg ctx f false with
          | some l, some i => .ok (none, i,
              reservedFile cfg ctx f fid sizeMax finfo.flags FileMeta.zero l,
              reservedBlock cfg ctx f sizeMax l)
          | _, _ => .error .insufficientStorage
        else .error .invalidArgument
      else .error .doesNotExist) ctx f := by
  have search := runs_indexOf (W := W) consistent.layout.entriesValid fid
  rw [missing] at search
  refine search.result.bind ?_
  dsimp only
  split
  · next create =>
      refine (runs_ensure (bne_iff_ne.2 create)).bind ?_
      exact (runs_pure _).bind (runs_locateFile_new consistent rfl none FileMeta.zero)
  · next plain =>
      rw [not_not] at plain
      exact (runs_ensure_error (by rw [plain]; rfl)).bind_error

theorem runs_locateFile_found (consistent : Consistent cfg ctx f none) {i : ℕ}
    (found : indexOf cfg ctx f fid = some i)
    (plain : finfo.flags &&& itsFlashFsFlagTruncate = 0) :
    Runs cfg W (locateFile cfg fid finfo sizeMax) ctx f
      (.ok (some i, i, ctx.fileMeta cfg f i,
        ctx.blockMeta cfg f (ctx.fileMeta cfg f i).lblock)) ctx f := by
  have layout := consistent.layout
  have search := runs_indexOf (W := W) layout.entriesValid fid
  rw [found] at search
  refine search.result.bind ?_
  dsimp only
  rw [reuseFile, if_neg (not_not.2 plain)]
  refine (runs_pure _).bind ?_
  dsimp only
  have bound := (indexOf_some found).1
  exact (layout.runs_readBlockMetadata
    (layout.packed.lblock_lt i bound)).orStatus.bind (runs_pure _)

theorem runs_locateFile_truncated (consistent : Consistent cfg ctx f none) {i : ℕ}
    (found : indexOf cfg ctx f fid = some i)
    (truncate : finfo.flags &&& itsFlashFsFlagTruncate ≠ 0)
    (same : (ctx.fileMeta cfg f i).maxSize = sizeMax) :
    Runs cfg W (locateFile cfg fid finfo sizeMax) ctx f
      (.ok (some i, i, { ctx.fileMeta cfg f i with curSize := 0, flags := finfo.flags },
        ctx.blockMeta cfg f (ctx.fileMeta cfg f i).lblock)) ctx f := by
  have layout := consistent.layout
  have search := runs_indexOf (W := W) layout.entriesValid fid
  rw [found] at search
  refine search.result.bind ?_
  dsimp only
  rw [reuseFile, if_pos truncate, if_pos same]
  refine (runs_pure _).bind ?_
  dsimp only
  have bound := (indexOf_some found).1
  exact (layout.runs_readBlockMetadata
    (layout.packed.lblock_lt i bound)).orStatus.bind (runs_pure _)

theorem runs_locateFile_replaced (consistent : Consistent cfg ctx f none) {i : ℕ} {f₁ : Flash}
    (found : indexOf cfg ctx f fid = some i)
    (truncate : finfo.flags &&& itsFlashFsFlagTruncate ≠ 0)
    (other : (ctx.fileMeta cfg f i).maxSize ≠ sizeMax)
    (mark : Runs cfg (ScratchBytes cfg ctx)
      (itsFlashFsMblockUpdateScratchFileMeta i
        (markedFile (ctx.fileMeta cfg f i))) ctx f (.ok ()) ctx f₁) :
    Runs cfg (ScratchBytes cfg ctx) (locateFile cfg fid finfo sizeMax) ctx f
      (if sizeMax ≤ cfg.maxFileSize then
        match blockFor cfg ctx f sizeMax, freeFor cfg ctx f true with
        | some l, some new => .ok (some i, new,
            reservedFile cfg ctx f fid sizeMax finfo.flags (markedFile (ctx.fileMeta cfg f i)) l,
            reservedBlock cfg ctx f sizeMax l)
        | _, _ => .error .insufficientStorage
      else .error .invalidArgument) ctx f₁ := by
  have layout := consistent.layout
  have active : f₁ ctx.activeMetablock = f ctx.activeMetablock :=
    (layout.remains_of_within fun b o ↦ mark.frame).active_eq layout
  have search := runs_indexOf (W := ScratchBytes cfg ctx) layout.entriesValid fid
  rw [found] at search
  refine search.result.bind ?_
  dsimp only
  rw [reuseFile, if_pos truncate, if_neg other]
  have marked : Runs cfg (ScratchBytes cfg ctx)
      ((itsFlashFsMblockUpdateScratchFileMeta i (markedFile (ctx.fileMeta cfg f i))).orStatus
        .genericError >>= fun _ ↦ pure (none, markedFile (ctx.fileMeta cfg f i))) ctx f
      (.ok ((none : Option ℕ), markedFile (ctx.fileMeta cfg f i))) ctx f₁ :=
    mark.orStatus.bind (runs_pure _)
  refine marked.bind ?_
  exact (runs_pure _).bind
    (runs_locateFile_new consistent active (some i) (markedFile (ctx.fileMeta cfg f i)))

theorem files_of_indexOf {i : ℕ} (ne_zero : fid ≠ 0) (found : indexOf cfg ctx f fid = some i) :
    ctx.files cfg f none fid = some (ctx.storedFile cfg f i) := by
  rw [Ctx.files, if_neg ne_zero, ← indexOf_eq, found, Option.map_some]

theorem files_of_indexOf_none (ne_zero : fid ≠ 0) (missing : indexOf cfg ctx f fid = none) :
    ctx.files cfg f none fid = none := by
  rw [Ctx.files, if_neg ne_zero, ← indexOf_eq, missing, Option.map_none]

/-- The plan of a write that reserves a new entry. -/
def newPlan (cfg : Config) (ctx : Ctx) (f : Flash) (fid : FileId) (finfo : FileInfo)
    (sizeMax dataSize offset : ℕ) (data : Bytes) (oldIdx : Option ℕ)
    (old : FileMeta cfg) (l i : ℕ) :
    WritePlan cfg where
  oldIdx := oldIdx
  newIdx := i
  fileMeta := reservedFile cfg ctx f fid sizeMax finfo.flags old l
  blockMeta := reservedBlock cfg ctx f sizeMax l
  marked := old
  finfo := finfo
  dataSize := dataSize
  offset := offset
  data := data

/-- The plan of a write that reuses an entry. -/
def oldPlan (cfg : Config) (ctx : Ctx) (f : Flash) (finfo : FileInfo) (dataSize offset : ℕ)
    (data : Bytes) (i : ℕ) (fileMeta : FileMeta cfg) : WritePlan cfg where
  oldIdx := some i
  newIdx := i
  fileMeta := fileMeta
  blockMeta := ctx.blockMeta cfg f (ctx.fileMeta cfg f i).lblock
  marked := ctx.fileMeta cfg f i
  finfo := finfo
  dataSize := dataSize
  offset := offset
  data := data

theorem locateOk_new (consistent : Consistent cfg ctx f none) (ne_zero : fid ≠ 0)
    (flags_lt : finfo.flags < 2 ^ 32) (user : finfo.flags &&& itsFlashFsInternalFlagsMask = 0)
    (sizeMax_eq : sizeMax = itsUtilsAlign finfo.sizeMax cfg.programUnit)
    {dataSize offset : ℕ} {data : Bytes} {oldIdx : Option ℕ} {old : FileMeta cfg}
    {l i : ℕ} {f₁ : Flash}
    (found : indexOf cfg ctx f fid = oldIdx) (fits : sizeMax ≤ cfg.maxFileSize)
    (block : blockFor cfg ctx f sizeMax = some l) (free : freeFor cfg ctx f oldIdx.isSome = some i)
    (marked : ∀ j, oldIdx = some j → old = markedFile (ctx.fileMeta cfg f j))
    {base : StoredFile cfg} (base_eq : newFileOf cfg finfo true = .ok base)
    (filled : Filled f (((newPlan cfg ctx f fid finfo sizeMax dataSize offset data oldIdx old l
        i).update f).target ctx f)
      ((newPlan cfg ctx f fid finfo sizeMax dataSize offset data oldIdx old l i).MarkWritten ctx)
      f₁)
    (within : ∀ b o, ¬ScratchBytes cfg ctx b o → f₁ b o = f b o)
    (mark : LeavesMark (ctx.files cfg f none) ctx f f₁ fid finfo) :
    LocateOk ctx f fid base finfo dataSize offset data
      (newPlan cfg ctx f fid finfo sizeMax dataSize offset data oldIdx old l i) f₁ := by
  subst sizeMax_eq
  obtain ⟨l_lt, size_le⟩ := blockFor_some block
  obtain ⟨i_lt, unused⟩ := freeFor_some free
  have used : ∀ j, oldIdx = some j → j < cfg.maxNumFiles ∧ (ctx.fileMeta cfg f j).Live := by
    intro j eq
    obtain ⟨j_lt, id_eq⟩ := indexOf_some (found.trans eq)
    exact ⟨j_lt, by rw [FileMeta.Live, id_eq]; exact ne_zero⟩
  rw [newFileOf, if_pos fits, if_pos rfl] at base_eq
  cases base_eq
  refine ⟨rfl, rfl, rfl, rfl, ?_, ?_, filled, within, mark, rfl, rfl, rfl⟩
  · refine WritePlan.located_reserve consistent.layout ne_zero rfl rfl l_lt size_le fits flags_lt
      i_lt
      unused used fun j eq ↦ ?_
    rw [newPlan, marked j eq]
    exact ⟨⟨Iff.rfl, rfl, rfl, rfl⟩, rfl,
      Nat.or_lt_two_pow (fits_fileMetaAt cfg (f ctx.activeMetablock) j).flags (by decide)⟩
  · constructor
    · rfl
    · exact found.symm.trans (indexOf_eq fid)
    · exact flag_settled user
    · cases oldIdx with
      | none => exact .inr (.inr rfl)
      | some j =>
          rw [newPlan, marked j rfl]
          exact .inl (flag_marked _)
    · exact fun _ ↦ rfl
    · intro missing
      change oldIdx = none at missing
      rw [missing] at free
      obtain ⟨j, member, spare, ne⟩ := freeIndex_spare List.nodup_range free
      refine ⟨j, List.mem_range.1 member, ne, ?_⟩
      rw [Bool.not_eq_true', itsUtilsValidateFid, decide_eq_false_iff_not] at spare
      exact spare

theorem locateOk_old (consistent : Consistent cfg ctx f none) (ne_zero : fid ≠ 0)
    {dataSize offset : ℕ} {data : Bytes} {i : ℕ} (found : indexOf cfg ctx f fid = some i)
    {fileMeta : FileMeta cfg} (place : SamePlace (ctx.fileMeta cfg f i) fileMeta)
    (id_eq : fileMeta.id = fid) (curSize_le : fileMeta.curSize ≤ fileMeta.maxSize)
    (flags_lt : fileMeta.flags < 2 ^ 32) (settled : fileMeta.flags &&& itsFlashFsFlagDelete = 0)
    (kept : replaces (ctx.files cfg f none) fid finfo = false) {base : StoredFile cfg}
    (maxSize_eq : fileMeta.maxSize = base.maxSize)
    (flags_eq : fileMeta.flags = base.flags)
    (data_eq :
      (oldPlan cfg ctx f finfo dataSize offset data i fileMeta).oldData ctx f = base.data) :
    LocateOk ctx f fid base finfo dataSize offset data
      (oldPlan cfg ctx f finfo dataSize offset data i fileMeta) f := by
  obtain ⟨bound, -⟩ := indexOf_some found
  refine ⟨rfl, rfl, rfl, rfl, ?_, ?_, ?_, fun _ _ _ ↦ rfl, .unchanged kept, maxSize_eq,
    flags_eq, data_eq⟩
  · refine WritePlan.located_reuse consistent.layout rfl bound ?_ place curSize_le flags_lt ?_ rfl
    · change fileMeta.Live
      rw [FileMeta.Live, id_eq]
      exact ne_zero
    · rw [oldPlan, place.lblock]
  · constructor
    · exact id_eq
    · exact found.symm.trans (indexOf_eq fid)
    · exact settled
    · exact .inr (.inl rfl)
    · exact fun ne ↦ (ne rfl).elim
    · intro missing
      cases missing
  · exact WritePlan.filled_of_unmarked (fun j eq ↦ (Option.some_inj.1 eq).symm) _

section

variable {plan : WritePlan cfg} {j : ℕ} {f₁ : Flash} (layout : Layout cfg ctx f)
  (old_eq : plan.oldIdx = some j) (ne : j ≠ plan.newIdx) (bound : j < cfg.maxNumFiles)
  (marked_eq : plan.marked = markedFile (ctx.fileMeta cfg f j))
  (filled : Filled f ((plan.update f).target ctx f) (plan.MarkWritten ctx) f₁)

include old_eq ne bound marked_eq filled

/-- The entry that has been marked is in the scratch metadata block. -/
theorem fileMetaAt_marked :
    fileMetaAt cfg (f₁ ctx.scratchMetablock) j = markedFile (ctx.fileMeta cfg f j) := by
  have old := fits_fileMetaAt cfg (f ctx.activeMetablock) j
  have files_eq : (plan.update f).files j = some (markedFile (ctx.fileMeta cfg f j)) := by
    rw [← marked_eq]
    exact plan.files_oldIdx old_eq ne
  rw [(Update.target_tables (plan.update f) ctx f).fileMetaAt bound ?_ ?_, files_eq,
    Option.getD_some]
  · intro k k_lt
    have succ := fileMetaOffset_succ cfg j
    exact (filled ctx.scratchMetablock (itsMblockFileMetaOffset cfg j + k)).1
      ⟨j, old_eq, ne, rfl, Nat.le_add_right _ _, by omega⟩
  · intro fileMeta eq
    rw [files_eq] at eq
    cases eq
    exact ⟨old.lblock, old.dataIdx, old.curSize, old.maxSize,
      Nat.or_lt_two_pow old.flags (by decide)⟩

include layout

/-- An entry that has been marked is not erased. -/
theorem ne_of_marked : f₁ ≠ f := by
  intro unchanged
  have entry := fileMetaAt_marked old_eq ne bound marked_eq filled
  rw [unchanged] at entry
  have hi : itsMblockFileMetaOffset cfg j + itsFileMetadataSize cfg ≤ metadataEnd cfg :=
    fileMetaOffset_lt cfg bound
  have le := layout.config.metadata_le
  have fields := le_fileMetadataSize cfg
  have erased : ∀ k < 20, f ctx.scratchMetablock (itsMblockFileMetaOffset cfg j + k) =
      cfg.eraseVal :=
    fun k k_lt ↦ layout.erased_metablock _ (by omega)
  have lblock_lt := layout.packed.lblock_lt j bound
  have numBlocks_lt := cfg.numBlocks_lt
  have lblock_eq := congrArg FileMeta.lblock entry
  have flags_eq := congrArg FileMeta.flags entry
  rw [fileMetaAt, markedFile] at lblock_eq flags_eq
  simp only [FileMeta.decode, getU32, Nat.add_assoc, erased, Nat.reduceAdd, Nat.reduceLT]
    at lblock_eq flags_eq
  have dedicated : itsNumDedicatedDblocks cfg ≤ cfg.numBlocks := by
    rw [itsNumDedicatedDblocks]
    split
    · exact Nat.zero_le _
    · exact Nat.sub_le _ _
  have zero : cfg.eraseVal.toNat = 0 := by
    rw [itsNumActiveDblocks] at lblock_lt
    change _ = (ctx.fileMeta cfg f j).lblock at lblock_eq
    omega
  refine flag_marked (ctx.fileMeta cfg f j).flags ?_
  rw [← show _ = _ from flags_eq, zero]
  rfl

theorem leavesMark_of_filled (id_eq : (ctx.fileMeta cfg f j).id = fid) {files : Files cfg}
    (replaced : replaces files fid finfo = true) : LeavesMark files ctx f f₁ fid finfo :=
  ⟨iff_of_false (ne_of_marked layout old_eq ne bound marked_eq filled)
    fun kept ↦ Bool.false_ne_true (kept.symm.trans replaced),
    fun _ ↦ ⟨j, bound, id_eq, fileMetaAt_marked old_eq ne bound marked_eq filled⟩⟩

end

/-- What a write that needs a new entry goes on with. -/
theorem newFileOf_outcome {room : Bool} (fid : FileId) {oldIdx : Option ℕ} (old : FileMeta cfg)
    (sizeMax_eq : sizeMax = itsUtilsAlign finfo.sizeMax cfg.programUnit)
    (room_eq : room = hasRoom cfg ctx f sizeMax oldIdx.isSome) :
    (∃ status, newFileOf cfg finfo room = .error status ∧
      (if sizeMax ≤ cfg.maxFileSize then
        match blockFor cfg ctx f sizeMax, freeFor cfg ctx f oldIdx.isSome with
        | some l, some i => .ok (oldIdx, i, reservedFile cfg ctx f fid sizeMax finfo.flags old l,
            reservedBlock cfg ctx f sizeMax l)
        | _, _ => .error .insufficientStorage
      else .error .invalidArgument) =
        (.error status : Except Status (Option ℕ × ℕ × FileMeta cfg × BlockMeta))) ∨
    ∃ base l i, newFileOf cfg finfo room = .ok base ∧ newFileOf cfg finfo true = .ok base ∧
      sizeMax ≤ cfg.maxFileSize ∧ blockFor cfg ctx f sizeMax = some l ∧
      freeFor cfg ctx f oldIdx.isSome = some i := by
  subst sizeMax_eq room_eq
  rw [newFileOf, newFileOf, if_pos rfl]
  by_cases fits : itsUtilsAlign finfo.sizeMax cfg.programUnit ≤ cfg.maxFileSize
  · rw [if_pos fits, if_pos fits, if_pos fits]
    cases block : blockFor cfg ctx f (itsUtilsAlign finfo.sizeMax cfg.programUnit) with
    | none =>
        refine .inl ⟨.insufficientStorage, ?_, rfl⟩
        rw [hasRoom, block]
        rfl
    | some l =>
        cases free : freeFor cfg ctx f oldIdx.isSome with
        | none =>
            refine .inl ⟨.insufficientStorage, ?_, rfl⟩
            rw [hasRoom, block, free]
            rfl
        | some i =>
            refine .inr ⟨_, l, i, ?_, rfl, fits, rfl, rfl⟩
            rw [hasRoom, block, free]
            rfl
  · rw [if_neg fits, if_neg fits]
    exact .inl ⟨.invalidArgument, rfl, rfl⟩

/-- The search for the file of a write. -/
theorem locateFile_outcome (consistent : Consistent cfg ctx f none) (ne_zero : fid ≠ 0)
    (flags_lt : finfo.flags < 2 ^ 32) (user : finfo.flags &&& itsFlashFsInternalFlagsMask = 0)
    (dataSize offset : ℕ) (data : Bytes)
    (sizeMax_eq : sizeMax = itsUtilsAlign finfo.sizeMax cfg.programUnit) :
    match startOfWrite (ctx.files cfg f none)
        (hasRoom cfg ctx f sizeMax (indexOf cfg ctx f fid).isSome) fid finfo with
    | .error status => ∃ f₁,
        Runs cfg (ScratchBytes cfg ctx) (locateFile cfg fid finfo sizeMax) ctx f
        (.error status) ctx f₁ ∧ LeavesMark (ctx.files cfg f none) ctx f f₁ fid finfo
    | .ok base => ∃ plan f₁,
        Runs cfg (ScratchBytes cfg ctx) (locateFile cfg fid finfo sizeMax) ctx f
        (.ok (plan.oldIdx, plan.newIdx, plan.fileMeta, plan.blockMeta)) ctx f₁ ∧
        LocateOk ctx f fid base finfo dataSize offset data plan f₁ := by
  have layout := consistent.layout
  have settled := flag_settled user
  cases found : indexOf cfg ctx f fid with
  | none =>
      have run : Runs cfg (ScratchBytes cfg ctx) (locateFile cfg fid finfo sizeMax) ctx f _ ctx f :=
        runs_locateFile_missing consistent found
      have mark : LeavesMark (ctx.files cfg f none) ctx f f fid finfo :=
        .unchanged (replaces_of_none (files_of_indexOf_none ne_zero found) finfo)
      rw [startOfWrite, files_of_indexOf_none ne_zero found]
      dsimp only
      by_cases create : finfo.flags &&& itsFlashFsFlagCreate ≠ 0
      · rw [if_pos create] at run ⊢
        rcases newFileOf_outcome fid FileMeta.zero sizeMax_eq rfl with
          ⟨status, refused, eq⟩ | ⟨base, l, i, accepted, base_eq, fits, block, free⟩
        · rw [refused]
          exact ⟨f, eq ▸ run, mark⟩
        · rw [accepted]
          simp only [if_pos fits, block, Option.isSome_none] at run free
          rw [free] at run
          refine ⟨
            newPlan cfg ctx f fid finfo sizeMax dataSize offset data none FileMeta.zero l i, f,
            run, ?_⟩
          refine locateOk_new consistent ne_zero flags_lt user sizeMax_eq found fits block free
            (fun j eq ↦ (Option.some_ne_none j eq.symm).elim) base_eq ?_ (fun _ _ _ ↦ rfl) mark
          exact WritePlan.filled_of_unmarked (fun j eq ↦ (Option.some_ne_none j eq.symm).elim) _
      · rw [if_neg create] at run ⊢
        exact ⟨f, run, mark⟩
  | some i =>
      obtain ⟨bound, id_eq⟩ := indexOf_some found
      have live : (ctx.fileMeta cfg f i).Live := by
        rw [FileMeta.Live, id_eq]
        exact ne_zero
      have file_settled : (ctx.fileMeta cfg f i).flags &&& itsFlashFsFlagDelete = 0 := by
        by_contra marked
        exact Option.some_ne_none i ((consistent.settled i bound).1 marked).symm
      have file_flags := (fits_fileMetaAt cfg (f ctx.activeMetablock) i).flags
      have replaces_eq : replaces (ctx.files cfg f none) fid finfo =
          (finfo.flags &&& itsFlashFsFlagTruncate != 0 &&
            (ctx.storedFile cfg f i).maxSize != itsUtilsAlign finfo.sizeMax cfg.programUnit) := by
        rw [replaces, files_of_indexOf ne_zero found, user, beq_self_eq_true, Bool.true_and]
      rw [startOfWrite, files_of_indexOf ne_zero found]
      dsimp only
      by_cases truncate : finfo.flags &&& itsFlashFsFlagTruncate ≠ 0
      · rw [if_pos truncate]
        by_cases same : (ctx.storedFile cfg f i).maxSize = sizeMax
        · rw [if_pos (same.trans sizeMax_eq)]
          refine ⟨oldPlan cfg ctx f finfo dataSize offset data i
            { ctx.fileMeta cfg f i with curSize := 0, flags := finfo.flags }, f,
            runs_locateFile_truncated consistent found truncate same, ?_⟩
          apply locateOk_old consistent ne_zero found
          · exact ⟨Iff.rfl, rfl, rfl, rfl⟩
          · exact id_eq
          · exact Nat.zero_le _
          · exact flags_lt
          · exact settled
          · rw [replaces_eq, same.trans sizeMax_eq, bne_self_eq_false, Bool.and_false]
          · rfl
          · rfl
          · rfl
        · rw [if_neg fun eq ↦ same (eq.trans sizeMax_eq.symm)]
          have replaced : replaces (ctx.files cfg f none) fid finfo = true := by
            rw [replaces_eq, bne_iff_ne.2 truncate, bne_iff_ne.2 fun eq ↦
              same (eq.trans sizeMax_eq.symm)]
            rfl
          rcases newFileOf_outcome fid (markedFile (ctx.fileMeta cfg f i)) sizeMax_eq rfl with
            ⟨status, refused, eq⟩ | ⟨base, l, new, accepted, base_eq, fits, block, free⟩
          · -- The old file is marked although there is no place for the new one.
            rw [refused]
            have ne : i ≠ i + 1 := Nat.ne_of_lt (Nat.lt_succ_self i)
            obtain ⟨f₁, mark, filled⟩ := (newPlan cfg ctx f fid finfo sizeMax dataSize offset data
              (some i) (markedFile (ctx.fileMeta cfg f i)) 0 (i + 1)).runs_mark layout rfl ne bound
            have run := runs_locateFile_replaced consistent found truncate same mark
            exact ⟨f₁, eq ▸ run,
              leavesMark_of_filled layout rfl ne bound rfl filled id_eq replaced⟩
          · rw [accepted]
            have ne : i ≠ new := by
              rintro rfl
              exact (freeFor_some free).2 live
            obtain ⟨f₁, mark, filled⟩ := (newPlan cfg ctx f fid finfo sizeMax dataSize offset data
              (some i) (markedFile (ctx.fileMeta cfg f i)) l new).runs_mark layout rfl ne bound
            have run := runs_locateFile_replaced consistent found truncate same mark
            rw [Option.isSome_some] at free
            rw [if_pos fits, block, free] at run
            refine ⟨newPlan cfg ctx f fid finfo sizeMax dataSize offset data (some i)
              (markedFile (ctx.fileMeta cfg f i)) l new, f₁, run, ?_⟩
            refine locateOk_new consistent ne_zero flags_lt user sizeMax_eq found fits block free
              (fun j eq ↦ by rw [Option.some_inj.1 eq]) base_eq filled (fun b o ↦ mark.frame)
              (leavesMark_of_filled layout rfl ne bound rfl filled id_eq replaced)
      · rw [if_neg truncate]
        refine ⟨oldPlan cfg ctx f finfo dataSize offset data i (ctx.fileMeta cfg f i), f,
          runs_locateFile_found consistent found (not_not.1 truncate), ?_⟩
        refine locateOk_old consistent ne_zero found (.refl _) id_eq
          (layout.packed.curSize_le i bound live) file_flags file_settled ?_ rfl rfl rfl
        rw [replaces_eq, not_not.1 truncate, bne_self_eq_false, Bool.false_and]

end

end TrustedFirmwareM.Its
