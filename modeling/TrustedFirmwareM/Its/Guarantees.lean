import TrustedFirmwareM.Its.Histories

/-!
# Guarantees

What the users of the file system can rely on, and what they cannot: how the metadata looks after
any run, what a write leaves when it is refused or cut off, and what it does to the rest of its
file.
-/

namespace TrustedFirmwareM.Its

open Run

variable {cfg : Config} {W : ℕ → ℕ → Prop} {files : Files cfg} {ctx : Ctx} {f g : Flash}
  {fid : FileId} {device device' device'' : Device} {x y : Session}

/-! ## The metadata -/

/-- Files fill their blocks without gaps, the blocks in use are apart, every file has one entry,
none is marked, and one entry is spare. -/
structure MetadataInOrder (cfg : Config) (ctx : Ctx) (g : Flash) : Prop where
  /-- The files of a logical block lie one after the other. -/
  packed : Packed cfg (ctx.fileMeta cfg g) fun l ↦ (ctx.blockMeta cfg g l).freeSize
  /-- No space of a block is lost. -/
  space : ∀ l < itsNumActiveDblocks cfg, dataStart cfg l +
    ∑ i ∈ (Finset.range cfg.maxNumFiles).filter
      (fun i ↦ (ctx.fileMeta cfg g i).Live ∧ (ctx.fileMeta cfg g i).lblock = l),
        (ctx.fileMeta cfg g i).maxSize + (ctx.blockMeta cfg g l).freeSize = cfg.blockSize
  /-- The physical blocks in use are different ones. -/
  blocks : BlocksApart cfg ctx.activeMetablock ctx.scratchMetablock
    ctx.metaBlockHeader.scratchDblock (ctx.blockMeta cfg g)
  /-- There is one entry for a file. -/
  unique : ∀ i < cfg.maxNumFiles, ∀ j < cfg.maxNumFiles, (ctx.fileMeta cfg g i).Live →
    (ctx.fileMeta cfg g i).id = (ctx.fileMeta cfg g j).id → i = j
  /-- No file is marked. -/
  settled : ∀ i < cfg.maxNumFiles, (ctx.fileMeta cfg g i).flags &&& itsFlashFsFlagDelete = 0
  /-- There is a spare entry. -/
  spare : ∃ i < cfg.maxNumFiles, ¬(ctx.fileMeta cfg g i).Live

theorem Mounted.inOrder (mounted : Mounted cfg files ctx f) (remains : Remains cfg ctx f g) :
    MetadataInOrder cfg ctx g := by
  have consistent := mounted.consistent
  have layout := consistent.layout
  have active := remains.active_eq layout
  have files_eq : ctx.fileMeta cfg g = ctx.fileMeta cfg f := by
    funext i
    rw [Ctx.fileMeta, Ctx.fileMeta, active]
  have blocks_eq : ctx.blockMeta cfg g = ctx.blockMeta cfg f := by
    funext l
    rw [Ctx.blockMeta, Ctx.blockMeta, active]
  constructor
  · rw [files_eq, blocks_eq]
    exact layout.packed
  · intro l bound
    rw [files_eq, blocks_eq]
    exact layout.packed.free_eq bound
  · rw [blocks_eq]
    exact layout.blocks
  · intro i i_lt j j_lt
    rw [files_eq]
    exact consistent.unique i i_lt j j_lt (Option.some_ne_none i).symm (Option.some_ne_none j).symm
  · intro i bound
    rw [files_eq]
    by_contra marked
    exact Option.some_ne_none i ((consistent.settled i bound).1 marked).symm
  · rw [files_eq]
    exact consistent.spare rfl

/-- The metadata is in order whenever the file system is mounted, whatever has been written and
deleted since a wipe, and wherever the power has been lost. -/
theorem exec_inOrder (config : ValidConfig cfg) (eraseVal_ne : cfg.eraseVal ≠ 1)
    (some_file : 0 < cfg.maxNumFiles) {events : List Event}
    (exec_eq : Run.exec (Session.step cfg) (.start device) (⟨.wipeAll, none⟩ :: events) = some y)
    (allowed : Allowed (Session.step cfg) (Event.Sound cfg) (.start device)
      (⟨.wipeAll, none⟩ :: events)) (mounted : y.device.mounted = true) :
    MetadataInOrder cfg y.device.ctx y.device.flash := by
  obtain ⟨after, step_eq, rest⟩ := exec_cons_eq_some exec_eq
  obtain ⟨state, -, has⟩ := (Session.has_of_wipe config some_file step_eq).exec config eraseVal_ne
    some_file rest (allowed.2 after step_eq)
  have has := has.device
  cases state with
  | none => exact (Bool.false_ne_true (has.1.symm.trans mounted)).elim
  | some files =>
      rw [Device.Has, if_pos mounted] at has
      obtain ⟨f, inside, remains⟩ := has
      exact inside.inOrder remains

theorem exec_inOrder_small :
    MetadataInOrder smallFlash smallSession.device.ctx smallSession.device.flash :=
  exec_inOrder smallFlash_valid (by decide) (by decide) exec_smallHistory allowed_smallHistory
    (by decide +kernel)

/-! ## Writes -/

section

variable (settled : x.Settled cfg) (config : ValidConfig cfg) (eraseVal_ne : cfg.eraseVal ≠ 1)
  (some_file : 0 < cfg.maxNumFiles)

include settled config eraseVal_ne some_file

/-- A write that is refused keeps the files.  It has changed the flash only if it was to replace a
file: the entry of this file has been marked in the scratch metadata block then. -/
theorem write_refused (ne_zero : fid ≠ 0) {finfo : FileInfo} (flags_lt : finfo.flags < 2 ^ 32)
    {dataSize : ℕ} (fits : dataSize + cfg.programUnit ≤ 2 ^ 32) {offset : ℕ} {data : Bytes}
    {status : Status}
    (returns : ((itsFlashFsFileWrite cfg fid finfo dataSize offset data).run x.device.ctx).run
      (FlashOp.work cfg) x.device.flash = (some (.error status, ctx), g)) :
    Holds cfg (x.device.files cfg) g ∧
      (g = x.device.flash ↔ replaces (x.device.files cfg) fid finfo = false) ∧
      (replaces (x.device.files cfg) fid finfo = true → ∃ i < cfg.maxNumFiles,
        (x.device.ctx.fileMeta cfg x.device.flash i).id = fid ∧
          fileMetaAt cfg (g x.device.ctx.scratchMetablock) i =
            markedFile (x.device.ctx.fileMeta cfg x.device.flash i)) := by
  have mounted := settled.mounted_files config eraseVal_ne some_file
  have write := mounted.write ne_zero flags_lt fits offset data
  split at write
  · obtain ⟨ctx', f', pass, -⟩ := write
    cases returns.symm.trans pass.returns
  · obtain ⟨f', run, mark⟩ := write
    cases returns.symm.trans run.returns
    have remains := mounted.consistent.layout.remains_of_within fun b o ↦ run.frame
    exact ⟨mounted.remains_holds remains, mark.kept, mark.marked⟩

/-- A file that is too large. -/
def largeFile : FileInfo := { smallFile with sizeMax := 100, flags := itsFlashFsFlagTruncate }

omit settled config eraseVal_ne some_file in
/-- There is no room for a large file, and the old one is marked. -/
theorem write_refused_small : ∃ g, Holds smallFlash smallFiles g ∧ ∃ i < smallFlash.maxNumFiles,
    fileMetaAt smallFlash (g smallSession.device.ctx.scratchMetablock) i =
      markedFile (smallSession.device.ctx.fileMeta smallFlash smallSession.device.flash i) := by
  have failed : ((((itsFlashFsFileWrite smallFlash (fun _ ↦ 1) largeFile 4 0 fun _ ↦ 0).run
      smallSession.device.ctx).run (FlashOp.work smallFlash) smallSession.device.flash).1.any
        fun out ↦ !out.1.isOk) = true := by decide +kernel
  have replaced : replaces smallFiles (fun _ ↦ 1) largeFile = true := by decide +kernel
  cases run : ((itsFlashFsFileWrite smallFlash (fun _ ↦ 1) largeFile 4 0 fun _ ↦ 0).run
      smallSession.device.ctx).run (FlashOp.work smallFlash) smallSession.device.flash with
  | mk out g =>
      rw [run] at failed
      obtain ⟨⟨result, ctx⟩, rfl, failed⟩ := (Option.any_eq_true ..).1 failed
      cases result with
      | ok _ => cases failed
      | error status =>
          obtain ⟨holds, -, marked⟩ := write_refused smallSession_settled smallFlash_valid
            (by decide) (by decide) (by decide +kernel) (by decide) (by decide) run
          obtain ⟨i, bound, -, marked⟩ := marked replaced
          exact ⟨g, holds, i, bound, marked⟩

/-- A write in place keeps what lies before the data.  What lies behind it is lost. -/
theorem write_in_place (ne_zero : fid ≠ 0) {file : StoredFile cfg}
    (found : x.device.files cfg fid = some file) {finfo : FileInfo}
    (flags_lt : finfo.flags < 2 ^ 32)
    (user : finfo.flags &&& itsFlashFsInternalFlagsMask = 0)
    (in_place : finfo.flags &&& itsFlashFsFlagTruncate = 0) {dataSize offset : ℕ}
    (nonempty : dataSize ≠ 0) (fits : dataSize + cfg.programUnit ≤ 2 ^ 32)
    (aligned : itsUtilsIsAligned offset cfg.programUnit = true)
    (offset_le : offset ≤ file.data.length)
    (inside : offset + itsUtilsAlign dataSize cfg.programUnit ≤ file.maxSize) (data : Bytes) :
    ∃ ctx' f' info bytes,
      ((itsFlashFsFileWrite cfg fid finfo dataSize offset data).run x.device.ctx).run
        (FlashOp.work cfg) x.device.flash = (some (.ok (), ctx'), f') ∧
      ((itsFlashFsFileGetInfo cfg fid).run ctx').run (FlashOp.work cfg) f' =
        (some (.ok info, ctx'), f') ∧
      info.sizeCurrent = max file.data.length (offset + dataSize) ∧
      ((itsFlashFsFileRead cfg fid info.sizeCurrent 0).run ctx').run (FlashOp.work cfg) f' =
        (some (.ok bytes, ctx'), f') ∧
      ∀ k < info.sizeCurrent, bytes k =
        if k < offset then file.data.getD k 0
        else if k < offset + itsUtilsAlign dataSize cfg.programUnit then data (k - offset)
        else cfg.eraseVal := by
  have mounted := settled.mounted_files config eraseVal_ne some_file
  have write := mounted.write ne_zero flags_lt fits offset data
  have accepted : acceptsData file dataSize offset = true := by
    rw [acceptsData, aligned, decide_eq_true offset_le, decide_eq_true inside, Bool.or_eq_true]
    exact .inr rfl
  generalize hasRoom cfg x.device.ctx x.device.flash (itsUtilsAlign finfo.sizeMax cfg.programUnit)
    (x.device.files cfg fid).isSome = room at write
  rw [Files.write, if_pos user, startOfWrite, found] at write
  dsimp only at write
  rw [if_neg (not_not.2 in_place)] at write
  dsimp only at write
  rw [if_pos accepted, if_neg nonempty] at write
  obtain ⟨ctx', f', pass, mounted'⟩ := write
  have length_eq : (writeAt cfg file.data offset dataSize data).length =
      max file.data.length (offset + dataSize) := by
    rw [writeAt, List.length_map, List.length_range]
  have remains' := mounted'.consistent.layout.remains
  have info := mounted'.getInfo (W := fun _ _ ↦ False) remains' ne_zero
  rw [Function.update_self] at info
  obtain ⟨bytes, read, bytes_eq⟩ := mounted'.read (W := fun _ _ ↦ False) remains' ne_zero
    (Function.update_self ..)
    (show 0 + max file.data.length (offset + dataSize) ≤
      (writeAt cfg file.data offset dataSize data).length by omega)
  refine ⟨ctx', f', _, bytes, pass.returns, info.returns, length_eq, ?_, fun k bound ↦ ?_⟩
  · rw [StoredFile.info, length_eq]
    exact read.returns
  · rw [StoredFile.info, length_eq] at bound
    dsimp only at bytes_eq
    rw [List.drop_zero, ← length_eq, List.take_length, length_eq, writeAt,
      List.map_inj_left] at bytes_eq
    exact bytes_eq k (List.mem_range.2 bound)

end

/-- The last two bytes of a file are lost. -/
theorem write_in_place_small : ∃ ctx' f' bytes,
    ((itsFlashFsFileRead smallFlash (fun _ ↦ 1) 4 0).run ctx').run (FlashOp.work smallFlash) f' =
      (some (.ok bytes, ctx'), f') ∧ (List.range 4).map bytes = [10, 99, 0xFF, 0xFF] := by
  have contents : (smallFiles fun _ ↦ 1).map (fun file ↦ (file.data, file.maxSize)) =
      some ([10, 11, 12, 13], 10) := by decide +kernel
  obtain ⟨file, found, file_eq⟩ := Option.map_eq_some_iff.1 contents
  have data_eq : file.data = [10, 11, 12, 13] := congrArg Prod.fst file_eq
  have maxSize_eq : file.maxSize = 10 := congrArg Prod.snd file_eq
  obtain ⟨ctx', f', info, bytes, -, -, size_eq, read, bytes_eq⟩ := write_in_place
    smallSession_settled smallFlash_valid (by decide) (by decide) (by decide +kernel) found
    (show smallFile.flags < 2 ^ 32 by decide) (by decide) (by decide)
    Nat.one_ne_zero (by decide) (show itsUtilsIsAligned 1 smallFlash.programUnit = true by decide)
    (by rw [data_eq]; decide) (by rw [maxSize_eq]; decide) fun _ ↦ 99
  rw [data_eq] at size_eq bytes_eq
  rw [size_eq] at read bytes_eq
  refine ⟨ctx', f', bytes, read, ?_⟩
  have same : (List.range 4).map bytes = (List.range 4).map fun k ↦
      if k < 1 then [10, 11, 12, 13].getD k 0
      else if k < 1 + itsUtilsAlign 1 smallFlash.programUnit then 99 else smallFlash.eraseVal :=
    List.map_congr_left fun k member ↦ bytes_eq k (List.mem_range.1 member)
  exact same.trans (by decide)

/-! ## Power loss -/

/-- A call does not wipe the file system. -/
def Call.keepsFiles : Call → Bool
  | .wipeAll => false
  | .prepare | .write .. | .delete _ => true

/-- Mounts change nothing, be they cut off or not. -/
theorem Device.Has.exec_mounts (has : device.Has (some files)) (eraseVal_ne : cfg.eraseVal ≠ 1)
    {events : List Event} (mounts : ∀ event ∈ events, event.call = .prepare)
    (exec_eq : Run.exec (Device.step cfg) device events = some device') :
      device'.Has (some files) := by
  induction events generalizing device with
  | nil =>
      cases exec_eq
      exact has
  | cons event rest ih =>
      obtain ⟨call, cut⟩ := event
      cases mounts _ List.mem_cons_self
      obtain ⟨after, step_eq, rest_eq⟩ := exec_cons_eq_some exec_eq
      obtain ⟨state, next, ⟨has', -⟩⟩ : ∃ state, Next (some files) ⟨.prepare, cut⟩ state ∧
          (Session.start after).Has state := has.step_prepare eraseVal_ne step_eq
      refine ih ?_ (fun event member ↦ mounts event (List.mem_cons_of_mem _ member)) rest_eq
      cases next with
      | returned room => exact has'
      | before => exact has'
      | behind room => exact has'

/-- After a call that is cut off, and any number of mounts that are cut off, a mount succeeds and
brings back the files as they were before the call, or as they are behind it. -/
theorem mount_recovers (settled : x.Settled cfg) (config : ValidConfig cfg)
    (eraseVal_ne : cfg.eraseVal ≠ 1) (some_file : 0 < cfg.maxNumFiles) {call : Call} {n : ℕ}
    (keeps : call.keepsFiles = true) (sound : Event.Sound cfg x ⟨call, some n⟩)
    (step_eq : x.step cfg ⟨call, some n⟩ = some y) {events : List Event}
    (mounts : ∀ event ∈ events, event.call = .prepare)
    (exec_eq : Run.exec (Device.step cfg) y.device events = some device) :
    ∃ remounted : Device, device.step cfg ⟨.prepare, none⟩ = some remounted ∧
      remounted.mounted = true ∧ remounted.Ready cfg ∧
      (remounted.Has (some (x.device.files cfg)) ∨
        ∃ room, remounted.Has (some (call.outcome room (x.device.files cfg)))) := by
  have has : x.Has (some (x.device.files cfg)) :=
    (settled.mounted_files config eraseVal_ne some_file).session
  obtain ⟨state, next, has'⟩ := has.step config eraseVal_ne some_file sound step_eq
  obtain ⟨files', rfl, either⟩ : ∃ files' : Files cfg, state = some files' ∧
      (files' = x.device.files cfg ∨ ∃ room, files' = call.outcome room (x.device.files cfg)) := by
    cases next with
    | before => exact ⟨_, rfl, .inl rfl⟩
    | behind room => exact ⟨_, rfl, .inr ⟨room, rfl⟩⟩
    | wiping => cases keeps
    | wipedBehind => cases keeps
  have kept := has'.device.exec_mounts eraseVal_ne mounts exec_eq
  obtain ⟨remounted, step_eq', mounted, ready, has''⟩ := kept.mount eraseVal_ne
  refine ⟨remounted, step_eq', mounted, ready, ?_⟩
  rcases either with rfl | ⟨room, rfl⟩
  · exact .inl has''
  · exact .inr ⟨room, has''⟩

theorem mount_recovers_small : ∃ y : Session, ∃ device₁ device₂ : Device,
    smallSession.step smallFlash ⟨.delete fun _ ↦ 1, some 5⟩ = some y ∧
      Run.exec (Device.step smallFlash) y.device [⟨.prepare, some 2⟩] = some device₁ ∧
      device₁.step smallFlash ⟨.prepare, none⟩ = some device₂ ∧ device₂.mounted = true := by
  have returns : ((smallSession.step smallFlash ⟨.delete fun _ ↦ 1, some 5⟩).any fun y ↦
      (Run.exec (Device.step smallFlash) y.device [⟨.prepare, some 2⟩]).isSome) = true := by
    decide +kernel
  obtain ⟨y, step_eq, returns⟩ := (Option.any_eq_true ..).1 returns
  obtain ⟨device₁, exec_eq⟩ := Option.isSome_iff_exists.1 returns
  have mounts : ∀ event ∈ [Event.mk .prepare (some 2)], event.call = .prepare := by
    intro event member
    rw [List.mem_singleton.1 member]
  obtain ⟨device₂, mount, mounted, -⟩ := mount_recovers smallSession_settled smallFlash_valid
    (by decide) (by decide) rfl
    (show Event.Sound smallFlash smallSession ⟨.delete fun _ ↦ 1, some 5⟩ from
      smallSession_settled.settled) step_eq mounts exec_eq
  exact ⟨y, device₁, device₂, step_eq, exec_eq, mount, mounted⟩

end TrustedFirmwareM.Its
