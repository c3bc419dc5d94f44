import TrustedFirmwareM.Lib.Run
import TrustedFirmwareM.Its.Wiping

/-!
# Histories

The device goes from one call of the file system to the next, and the power may be lost between any
two operations of the driver.  The files go along with it: a call that is cut off has changed them
as a whole, or not at all.  This takes erased scratch blocks.  A mount leaves them erased and so
does an update, but not a write that is refused although it is to replace a file: the file system
has to be mounted again before the next update then.
-/

namespace TrustedFirmwareM.Its

open Run

/-- The calls that change the flash. -/
inductive Call
  /-- `its_flash_fs_prepare`. -/
  | prepare
  /-- `its_flash_fs_wipe_all`. -/
  | wipeAll
  /-- `its_flash_fs_file_write`. -/
  | write (fid : FileId) (finfo : FileInfo) (dataSize offset : ℕ) (data : Bytes)
  /-- `its_flash_fs_file_delete`. -/
  | delete (fid : FileId)

/-- A call that returns, or that is cut off after a number of operations. -/
structure Event where
  /-- The call. -/
  call : Call
  /-- The number of operations before the power is lost. -/
  cut : Option ℕ

/-- The device. -/
structure Device where
  /-- The context. -/
  ctx : Ctx
  /-- The file system is mounted. -/
  mounted : Bool
  /-- The flash. -/
  flash : Flash

variable (cfg : Config)

/-- The function that is called. -/
def Call.program : Call → FsM Unit
  | .prepare => itsFlashFsPrepare cfg
  | .wipeAll => itsFlashFsWipeAll cfg
  | .write fid finfo dataSize offset data => itsFlashFsFileWrite cfg fid finfo dataSize offset data
  | .delete fid => itsFlashFsFileDelete cfg fid

/-- Whether the file system is mounted after a call that has returned. -/
def Call.mounts (mounted : Bool) : Call → Except Status Unit → Bool
  | .prepare, result => result.isOk
  | .wipeAll, _ => false
  | .write .., _ | .delete _, _ => mounted

/-- The file system has to be mounted for the call. -/
def Call.needsMount : Call → Bool
  | .prepare | .wipeAll => false
  | .write .. | .delete _ => true

/-- A program returns, or it is cut off after a number of operations.  Then the context is lost.
Its result decides whether the file system is mounted, unless it is not the one that is expected. -/
def Device.run {α : Type} (device : Device) (needsMount : Bool)
    (mounts : Except Status α → Option Bool)
    (program : FsM α) (cut : Option ℕ) : Option Device :=
  if needsMount && !device.mounted then none
  else
    match cut with
    | some n => some
        { ctx := .zero, mounted := false
          flash := (program.run device.ctx).cut (FlashOp.work cfg) n device.flash }
    | none =>
        match (program.run device.ctx).run (FlashOp.work cfg) device.flash with
        | (some (result, ctx), flash) => (mounts result).map fun mounted ↦ { ctx, mounted, flash }
        | (none, _) => none

/-- What a call does to the device. -/
def Device.step (device : Device) (event : Event) : Option Device :=
  device.run cfg event.call.needsMount (fun result ↦ some (event.call.mounts device.mounted result))
    (event.call.program cfg) event.cut

/-- The files in the flash of a device that is mounted. -/
def Device.files (device : Device) : Files cfg := device.ctx.files cfg device.flash none

/-- A write that is to replace a file returns an error.  It has marked the entry of the file in the
scratch metadata block, which is not erased before the next mount. -/
def Device.refuses (device : Device) : Event → Bool
  | ⟨.write fid finfo dataSize offset data, none⟩ =>
      replaces (device.files cfg) fid finfo &&
        (((itsFlashFsFileWrite cfg fid finfo dataSize offset data).run device.ctx).run
          (FlashOp.work cfg) device.flash).1.any fun out ↦ !out.1.isOk
  | _ => false

/-- The device, and whether a replacement may have been refused since the latest mount. -/
structure Session where
  /-- The device. -/
  device : Device
  /-- A replacement may have been refused. -/
  refused : Bool

/-- Nothing is known about the past of the device. -/
def Session.start (device : Device) : Session := ⟨device, true⟩

/-- What a call does to a session. -/
def Session.step (x : Session) (event : Event) : Option Session :=
  (x.device.step cfg event).map fun device ↦
    { device
      refused := event.call.needsMount && (x.refused || x.device.refuses cfg event) }

/-- The scratch blocks are erased. -/
def Device.Ready (device : Device) : Prop :=
  (∀ o < cfg.blockSize, device.flash device.ctx.scratchMetablock o = cfg.eraseVal) ∧
    (2 < cfg.numBlocks → ∀ o < cfg.blockSize,
      device.flash device.ctx.metaBlockHeader.scratchDblock o = cfg.eraseVal)

/-- What the users of the file system see to: files have an identifier, sizes fit, and files are
changed only if no replacement has been refused since the mount. -/
def Event.Sound (x : Session) (event : Event) : Prop :=
  match event.call with
  | .prepare | .wipeAll => True
  | .write fid finfo dataSize _ _ => fid ≠ 0 ∧ finfo.flags < 2 ^ 32 ∧
      dataSize + cfg.programUnit ≤ 2 ^ 32 ∧ x.refused = false
  | .delete _ => x.refused = false

variable {cfg}

/-- What a call does to the files. -/
def Call.outcome (room : Bool) (files : Files cfg) : Call → Files cfg
  | .prepare => files
  | .wipeAll => fun _ ↦ none
  | .write fid finfo dataSize offset data =>
      match files.write room fid finfo dataSize offset data with
      | .ok files' => files'
      | .error _ => files
  | .delete fid => files.delete fid

/-- What may happen to the files.  There are none while a mount refuses the flash. -/
inductive Next : Option (Files cfg) → Event → Option (Files cfg) → Prop
  /-- A call returns. -/
  | returned {files : Files cfg} {call : Call} (room : Bool) :
      Next (some files) ⟨call, none⟩ (some (call.outcome room files))
  /-- A call is cut off before it takes effect. -/
  | before {state : Option (Files cfg)} {call : Call} {n : ℕ} : Next state ⟨call, some n⟩ state
  /-- A call is cut off behind that. -/
  | behind {files : Files cfg} {call : Call} {n : ℕ} (room : Bool) :
      Next (some files) ⟨call, some n⟩ (some (call.outcome room files))
  /-- A mount is refused. -/
  | refused : Next none ⟨.prepare, none⟩ none
  /-- A wipe returns. -/
  | wiped {state : Option (Files cfg)} : Next state ⟨.wipeAll, none⟩ (some fun _ ↦ none)
  /-- A wipe is cut off before there is a new file system. -/
  | wiping {state : Option (Files cfg)} {n : ℕ} : Next state ⟨.wipeAll, some n⟩ none
  /-- A wipe is cut off behind that. -/
  | wipedBehind {state : Option (Files cfg)} {n : ℕ} :
      Next state ⟨.wipeAll, some n⟩ (some fun _ ↦ none)

/-- The device has files. -/
def Device.Has (device : Device) : Option (Files cfg) → Prop
  | none => device.mounted = false ∧ Refused cfg device.flash
  | some files =>
      if device.mounted = true then
        ∃ f, Mounted cfg files device.ctx f ∧ Remains cfg device.ctx f device.flash
      else Holds cfg files device.flash

/-- The device has files.  Its scratch blocks are erased if no replacement has been refused since
the file system was mounted. -/
structure Session.Has (x : Session) (state : Option (Files cfg)) : Prop where
  /-- The device has files. -/
  device : x.device.Has state
  /-- The scratch blocks are erased. -/
  ready : x.refused = false → x.device.mounted = true → x.device.Ready cfg

variable {device device' : Device} {x y : Session} {refused : Bool} {files : Files cfg}
  {state : Option (Files cfg)}

theorem Device.Has.holds (has : device.Has (some files)) : Holds cfg files device.flash := by
  rw [Device.Has] at has
  split at has
  · obtain ⟨f, mounted, remains⟩ := has
    exact mounted.remains_holds remains
  · exact has

/-- Between erased scratch blocks, there is nothing but the mounted file system. -/
theorem Remains.eq_of_ready {f : Flash} (remains : Remains cfg device.ctx f device.flash)
    (layout : Layout cfg device.ctx f) (ready : device.Ready cfg) : device.flash = f := by
  funext b o
  by_cases inside : ScratchArea cfg device.ctx b o
  · obtain ⟨bound, rfl | ⟨large, rfl⟩⟩ := inside
    · rw [ready.1 o bound, layout.erased_metablock o bound]
    · rw [ready.2 large o bound, layout.erased_dblock large o bound]
  · exact remains.same b o inside

theorem Device.Has.mounted (has : device.Has (some files)) (mounted : device.mounted = true)
    (ready : device.Ready cfg) : Mounted cfg files device.ctx device.flash := by
  rw [Device.Has, if_pos mounted] at has
  obtain ⟨f, mounted, remains⟩ := has
  rw [remains.eq_of_ready mounted.consistent.layout ready]
  exact mounted

/-- A device that is mounted, and whose scratch blocks are erased. -/
theorem Mounted.has {ctx : Ctx} {f : Flash} (mounted : Mounted cfg files ctx f) {flag : Bool} :
    (Device.mk ctx flag f).Has (some files) := by
  rw [Device.Has]
  split
  · exact ⟨f, mounted, mounted.consistent.layout.remains⟩
  · exact mounted.holds

theorem Mounted.ready {ctx : Ctx} {f : Flash} (mounted : Mounted cfg files ctx f) {flag : Bool} :
    (Device.mk ctx flag f).Ready cfg :=
  ⟨mounted.consistent.layout.erased_metablock, mounted.consistent.layout.erased_dblock⟩

theorem Mounted.session {ctx : Ctx} {f : Flash} (mounted : Mounted cfg files ctx f) {flag : Bool} :
    (Session.mk ⟨ctx, flag, f⟩ refused).Has (some files) :=
  ⟨mounted.has, fun _ _ ↦ mounted.ready⟩

/-- A device whose past is not known. -/
theorem Device.Has.start (has : device.Has state) : (Session.start device).Has state :=
  ⟨has, fun known ↦ (Bool.false_ne_true known.symm).elim⟩

/-- The scratch blocks do not matter before the file system is mounted. -/
theorem Session.has_of_unmounted (unmounted : device.mounted = false) (has : device.Has state) :
    (Session.mk device refused).Has state :=
  ⟨has, fun _ mounted ↦ (Bool.false_ne_true (unmounted.symm.trans mounted)).elim⟩

theorem Session.Has.mounted (has : x.Has (some files)) (mounted : x.device.mounted = true)
    (settled : x.refused = false) : Mounted cfg files x.device.ctx x.device.flash :=
  has.device.mounted mounted (has.ready settled mounted)

/-! ## Steps -/

section

variable {α : Type} {needsMount : Bool} {mounts : Except Status α → Option Bool} {program : FsM α}
  {C : Flash → Prop} {result : Except Status α} {ctx' : Ctx} {f' : Flash}

theorem Device.run_mounted {cut : Option ℕ}
    (run_eq : device.run cfg needsMount mounts program cut = some device')
    (needs : needsMount = true) :
    device.mounted = true := by
  by_contra unmounted
  rw [Bool.not_eq_true] at unmounted
  rw [Device.run.eq_def, if_pos (by rw [needs, unmounted]; rfl)] at run_eq
  cases run_eq

/-- A step of a program that is known to return. -/
theorem Device.run_passes {cut : Option ℕ}
    (run_eq : device.run cfg needsMount mounts program cut = some device')
    (pass : Passes cfg C program device.ctx device.flash result ctx' f') :
    (cut = none ∧ ∃ flag, mounts result = some flag ∧ device' = ⟨ctx', flag, f'⟩) ∨
      ∃ n, cut = some n ∧ device'.mounted = false ∧ C device'.flash := by
  rw [Device.run.eq_def] at run_eq
  split at run_eq
  · cases run_eq
  · cases cut with
    | none =>
        dsimp only at run_eq
        rw [pass.returns] at run_eq
        obtain ⟨flag, flag_eq, rfl⟩ := Option.map_eq_some_iff.1 run_eq
        exact .inl ⟨rfl, flag, flag_eq, rfl⟩
    | some n =>
        cases run_eq
        exact .inr ⟨n, rfl, rfl, pass.cuts n⟩

/-- A program that is known to return can be run. -/
theorem Device.run_returned (usable : needsMount = true → device.mounted = true) {flag : Bool}
    (expected : mounts result = some flag)
    (pass : Passes cfg C program device.ctx device.flash result ctx' f') :
    device.run cfg needsMount mounts program none = some ⟨ctx', flag, f'⟩ := by
  have allowed : ¬(needsMount && !device.mounted) = true := by
    rw [Bool.and_eq_true, Bool.not_eq_true']
    exact fun both ↦ Bool.false_ne_true (both.2.symm.trans (usable both.1))
  have returns := pass.returns
  rw [Device.run, if_neg allowed]
  simp only [returns, expected, Option.map_some]

end

theorem Device.has_of_unmounted (unmounted : device.mounted = false)
    (holds : Holds cfg files device.flash) :
    device.Has (some files) := by
  rw [Device.Has, if_neg (by rw [unmounted]; exact Bool.false_ne_true)]
  exact holds

/-- A step of a call that has an outcome. -/
theorem Device.Has.step_call (room : Bool) {call : Call} {cut : Option ℕ}
    (step_eq : device.step cfg ⟨call, cut⟩ = some device') {result : Except Status Unit}
    {ctx' : Ctx} {f' : Flash}
    (pass : Passes cfg (fun g ↦ Holds cfg files g ∨ Holds cfg (call.outcome room files) g)
      (call.program cfg) device.ctx device.flash result ctx' f')
    (has' : cut = none → (Session.mk ⟨ctx', call.mounts device.mounted result, f'⟩ refused).Has
      (some (call.outcome room files))) :
    ∃ state' : Option (Files cfg), Next (some files) ⟨call, cut⟩ state' ∧
      (Session.mk device' refused).Has state' := by
  rcases Device.run_passes step_eq pass with ⟨rfl, flag, ⟨⟩, rfl⟩ | ⟨n, rfl, unmounted, cuts⟩
  · exact ⟨_, .returned room, has' rfl⟩
  · rcases cuts with before | behind
    · exact ⟨_, .before,
        Session.has_of_unmounted unmounted (Device.has_of_unmounted unmounted before)⟩
    · exact ⟨_, .behind room,
        Session.has_of_unmounted unmounted (Device.has_of_unmounted unmounted behind)⟩

theorem Device.Has.step_prepare (has : device.Has state) (eraseVal_ne : cfg.eraseVal ≠ 1)
    {cut : Option ℕ} (step_eq : device.step cfg ⟨.prepare, cut⟩ = some device') :
    ∃ state', Next state ⟨.prepare, cut⟩ state' ∧ (Session.mk device' refused).Has state' := by
  cases state with
  | none =>
      have pass := (has.2.prepare (W := fun _ _ ↦ False) device.ctx).passes_silent
        (C := Refused cfg) has.2
      rcases Device.run_passes step_eq pass with ⟨rfl, flag, ⟨⟩, rfl⟩ | ⟨n, rfl, unmounted, cuts⟩
      · exact ⟨none, .refused, Session.has_of_unmounted rfl ⟨rfl, has.2⟩⟩
      · exact ⟨none, .before, Session.has_of_unmounted unmounted ⟨unmounted, cuts⟩⟩
  | some files =>
      obtain ⟨ctx', f', pass, mounted⟩ := has.holds.prepare eraseVal_ne device.ctx
      exact Device.Has.step_call true step_eq (pass.mono fun _ ↦ .inl) fun _ ↦ mounted.session

theorem Device.Has.step_wipeAll (has : device.Has state) (config : ValidConfig cfg)
    (eraseVal_ne : cfg.eraseVal ≠ 1) (some_file : 0 < cfg.maxNumFiles) {cut : Option ℕ}
    (step_eq : device.step cfg ⟨.wipeAll, cut⟩ = some device') :
    ∃ state', Next state ⟨.wipeAll, cut⟩ state' ∧ device'.mounted = false ∧ device'.Has state' := by
  cases state with
  | none =>
      obtain ⟨ctx', f', pass, empty⟩ := has.2.wipeAll config some_file device.ctx
      rcases Device.run_passes step_eq pass with ⟨rfl, flag, ⟨⟩, rfl⟩ | ⟨n, rfl, unmounted, cuts⟩
      · exact ⟨_, .wiped, rfl, Device.has_of_unmounted rfl empty⟩
      · rcases cuts with refused | behind
        · exact ⟨none, .wiping, unmounted, unmounted, refused⟩
        · exact ⟨_, .wipedBehind, unmounted, Device.has_of_unmounted unmounted behind⟩
  | some files =>
      obtain ⟨ctx', f', pass, empty⟩ := has.holds.wipeAll config eraseVal_ne some_file device.ctx
      rcases Device.run_passes step_eq pass with ⟨rfl, flag, ⟨⟩, rfl⟩ | ⟨n, rfl, unmounted, cuts⟩
      · exact ⟨_, .wiped, rfl, Device.has_of_unmounted rfl empty⟩
      · rcases cuts with before | refused | behind
        · exact ⟨_, .before, unmounted, Device.has_of_unmounted unmounted before⟩
        · exact ⟨none, .wiping, unmounted, unmounted, refused⟩
        · exact ⟨_, .wipedBehind, unmounted, Device.has_of_unmounted unmounted behind⟩

theorem Device.refuses_eq {fid : FileId} {finfo : FileInfo} {dataSize offset : ℕ} {data : Bytes}
    (files_eq : device.files cfg = files) {W : ℕ → ℕ → Prop}
    {status : Status} {ctx' : Ctx} {f' : Flash}
    (run : Runs cfg W (itsFlashFsFileWrite cfg fid finfo dataSize offset data) device.ctx
      device.flash (.error status) ctx' f') :
    device.refuses cfg ⟨.write fid finfo dataSize offset data, none⟩ =
      replaces files fid finfo := by
  rw [Device.refuses, files_eq, run.returns, Option.any_some]
  exact Bool.and_true _

theorem Session.Has.step_write (has : x.Has (some files)) (mounted : x.device.mounted = true)
    {fid : FileId} {finfo : FileInfo} {dataSize offset : ℕ} {data : Bytes} {cut : Option ℕ}
    (sound : Event.Sound cfg x ⟨.write fid finfo dataSize offset data, cut⟩)
    (step_eq : x.device.step cfg ⟨.write fid finfo dataSize offset data, cut⟩ = some device') :
    ∃ state' : Option (Files cfg),
      Next (some files) ⟨.write fid finfo dataSize offset data, cut⟩ state' ∧
        (Session.mk device' (x.device.refuses cfg
          ⟨.write fid finfo dataSize offset data, cut⟩)).Has state' := by
  obtain ⟨ne_zero, flags_lt, fits, settled⟩ := sound
  obtain ⟨device, refused⟩ := x
  have inside := has.mounted mounted settled
  have layout := inside.consistent.layout
  have write := inside.write ne_zero flags_lt fits offset data
  generalize hasRoom cfg device.ctx device.flash (itsUtilsAlign finfo.sizeMax cfg.programUnit)
    (files fid).isSome = room at write
  split at write
  · next files' accepted =>
      obtain ⟨ctx', f', pass, inside'⟩ := write
      have outcome : Call.outcome room files (.write fid finfo dataSize offset data) = files' := by
        rw [Call.outcome, accepted]
      refine Device.Has.step_call room step_eq (by rw [outcome]; exact pass) ?_
      rw [outcome]
      exact fun _ ↦ inside'.session
  · next status refused =>
      obtain ⟨f', run, mark⟩ := write
      have outcome : Call.outcome room files (.write fid finfo dataSize offset data) = files := by
        rw [Call.outcome, refused]
      have pass := run.passes (C := fun g ↦ Remains cfg device.ctx device.flash g) fun g same ↦
        layout.remains_of_within same
      refine Device.Has.step_call room step_eq
        (pass.mono fun g remains ↦ .inl (inside.remains_holds remains)) fun returned ↦ ?_
      subst returned
      have still : Call.mounts device.mounted (.write fid finfo dataSize offset data)
          (.error status) = true := mounted
      rw [outcome, Device.refuses_eq inside.files_eq run]
      constructor
      · rw [Device.Has, if_pos still]
        exact ⟨device.flash, inside, pass.behind⟩
      · intro alike _
        dsimp only at alike ⊢
        rw [mark.kept.2 alike]
        exact inside.ready

theorem Session.Has.step_delete (has : x.Has (some files)) (mounted : x.device.mounted = true)
    {fid : FileId} {cut : Option ℕ} (sound : Event.Sound cfg x ⟨.delete fid, cut⟩)
    (step_eq : x.device.step cfg ⟨.delete fid, cut⟩ = some device') :
    ∃ state' : Option (Files cfg), Next (some files) ⟨.delete fid, cut⟩ state' ∧
      (Session.mk device' refused).Has state' := by
  have inside := has.mounted mounted sound
  by_cases missing : files fid = none
  · have outcome : Call.outcome true files (.delete fid) = files := by
      rw [Call.outcome, Files.delete, ← missing, Function.update_eq_self]
    have pass := (inside.delete_missing (W := fun _ _ ↦ False) missing).passes_silent inside.holds
    refine Device.Has.step_call true step_eq (pass.mono fun _ ↦ .inl) fun _ ↦ ?_
    rw [outcome]
    exact inside.session
  · obtain ⟨ctx', f', pass, inside'⟩ := inside.delete missing
    exact Device.Has.step_call true step_eq pass fun _ ↦ inside'.session

/-- A step of the device is a step of the files. -/
theorem Session.Has.step (has : x.Has state) (config : ValidConfig cfg)
    (eraseVal_ne : cfg.eraseVal ≠ 1) (some_file : 0 < cfg.maxNumFiles) {event : Event}
    (sound : event.Sound cfg x) (step_eq : x.step cfg event = some y) :
    ∃ state', Next state event state' ∧ y.Has state' := by
  obtain ⟨device', device_eq, rfl⟩ := Option.map_eq_some_iff.1 step_eq
  have mounted := Device.run_mounted device_eq
  obtain ⟨call, cut⟩ := event
  cases call with
  | prepare => exact has.device.step_prepare eraseVal_ne device_eq
  | wipeAll =>
      obtain ⟨state', next, unmounted, has'⟩ :=
        has.device.step_wipeAll config eraseVal_ne some_file device_eq
      exact ⟨state', next, Session.has_of_unmounted unmounted has'⟩
  | write fid finfo dataSize offset data =>
      cases state with
      | none => exact (Bool.false_ne_true (has.device.1.symm.trans (mounted rfl))).elim
      | some files =>
          rw [show x.refused = false from sound.2.2.2, Bool.false_or]
          exact has.step_write (mounted rfl) sound device_eq
  | delete fid =>
      cases state with
      | none => exact (Bool.false_ne_true (has.device.1.symm.trans (mounted rfl))).elim
      | some files => exact has.step_delete (mounted rfl) sound device_eq

/-! ## Runs -/

/-- Whatever the calls are, and wherever the power is lost, the files go along with the device. -/
theorem Session.Has.exec (has : x.Has state) (config : ValidConfig cfg)
    (eraseVal_ne : cfg.eraseVal ≠ 1) (some_file : 0 < cfg.maxNumFiles) {events : List Event}
    (exec_eq : Run.exec (Session.step cfg) x events = some y)
    (allowed : Allowed (Session.step cfg) (Event.Sound cfg) x events) :
    ∃ state', Follows Next state events state' ∧ y.Has state' :=
  exec_follows (fun _ _ _ _ has sound step_eq ↦
    has.step config eraseVal_ne some_file sound step_eq) has exec_eq allowed

/-- A device that has been wiped has no files, whatever was in its flash. -/
theorem Device.has_of_wipe (config : ValidConfig cfg) (some_file : 0 < cfg.maxNumFiles)
    (step_eq : device.step cfg ⟨.wipeAll, none⟩ = some device') :
    device'.mounted = false ∧ device'.Has (some (fun _ ↦ none : Files cfg)) := by
  obtain ⟨ctx', f', pass, empty⟩ := runs_wipeAll config some_file device.ctx device.flash
  rcases Device.run_passes step_eq pass with ⟨-, flag, ⟨⟩, rfl⟩ | ⟨n, cut, -⟩
  · exact ⟨rfl, Device.has_of_unmounted rfl empty⟩
  · cases cut

/-- So does a session. -/
theorem Session.has_of_wipe (config : ValidConfig cfg) (some_file : 0 < cfg.maxNumFiles)
    (step_eq : x.step cfg ⟨.wipeAll, none⟩ = some y) :
    y.Has (some (fun _ ↦ none : Files cfg)) := by
  obtain ⟨device', device_eq, rfl⟩ := Option.map_eq_some_iff.1 step_eq
  obtain ⟨unmounted, has⟩ := Device.has_of_wipe config some_file device_eq
  exact Session.has_of_unmounted unmounted has

/-- The files of a device after any run that starts with a wipe. -/
theorem exec_wiped (config : ValidConfig cfg) (eraseVal_ne : cfg.eraseVal ≠ 1)
    (some_file : 0 < cfg.maxNumFiles) {events : List Event}
    (exec_eq : Run.exec (Session.step cfg) (.start device) (⟨.wipeAll, none⟩ :: events) = some y)
    (allowed : Allowed (Session.step cfg) (Event.Sound cfg) (.start device)
      (⟨.wipeAll, none⟩ :: events)) :
    ∃ state', Follows Next (some (fun _ ↦ none : Files cfg)) events state' ∧
      y.device.Has state' := by
  obtain ⟨after, step_eq, rest⟩ := exec_cons_eq_some exec_eq
  obtain ⟨state', follows, has⟩ := (Session.has_of_wipe config some_file step_eq).exec config
    eraseVal_ne some_file rest (allowed.2 after step_eq)
  exact ⟨state', follows, has.device⟩

/-- The file system is mounted after a run over any files, and no replacement has been refused since
then. -/
structure Session.Settled (cfg : Config) (x : Session) : Prop where
  /-- The run. -/
  reached : ∃ (device : Device) (state : Option (Files cfg)), device.Has state ∧
    Run.Reaches (Session.step cfg) (Event.Sound cfg) (.start device) x
  /-- The file system is mounted. -/
  mounted : x.device.mounted = true
  /-- No replacement has been refused. -/
  settled : x.refused = false

/-- A session that is settled has the files that are in its flash. -/
theorem Session.Settled.mounted_files (settled : x.Settled cfg) (config : ValidConfig cfg)
    (eraseVal_ne : cfg.eraseVal ≠ 1) (some_file : 0 < cfg.maxNumFiles) :
    Mounted cfg (x.device.files cfg) x.device.ctx x.device.flash := by
  obtain ⟨device, state, has, reaches⟩ := settled.reached
  obtain ⟨state', has'⟩ := reaches.invariant
    (I := fun x ↦ ∃ state' : Option (Files cfg), x.Has state') ⟨state, has.start⟩ (by
      rintro before event after ⟨state, has⟩ sound step_eq
      obtain ⟨state', -, has'⟩ := has.step config eraseVal_ne some_file sound step_eq
      exact ⟨state', has'⟩)
  cases state' with
  | none => exact (Bool.false_ne_true (has'.device.1.symm.trans settled.mounted)).elim
  | some files =>
      have mounted := has'.mounted settled.mounted settled.settled
      rw [Device.files, mounted.files_eq]
      exact mounted

/-- The call is about a file, or about all of them. -/
def Call.Addresses (fid : FileId) : Call → Prop
  | .prepare => False
  | .wipeAll => True
  | .write fid' .. | .delete fid' => fid' = fid

theorem Call.outcome_other {fid : FileId} {call : Call} (other : ¬call.Addresses fid)
    (room : Bool) :
    call.outcome room files fid = files fid := by
  cases call with
  | prepare => rfl
  | wipeAll => exact (other trivial).elim
  | write fid' finfo dataSize offset data =>
      have ne : fid ≠ fid' := fun eq ↦ other eq.symm
      rw [Call.outcome]
      cases written : files.write room fid' finfo dataSize offset data with
      | error status => rfl
      | ok files' =>
          rw [Files.write] at written
          split at written
          · split at written
            · cases written
            · split at written
              · cases written
                exact Function.update_of_ne ne _ _
              · cases written
          · cases written
  | delete fid' =>
      have ne : fid ≠ fid' := fun eq ↦ other eq.symm
      rw [Call.outcome, Files.delete, Function.update_of_ne ne]

/-- A file that no call is about is kept. -/
theorem Follows.file_eq {fid : FileId} {events : List Event}
    (follows : Follows Next (some files) events state)
    (others : ∀ event ∈ events, ¬event.call.Addresses fid) :
    ∃ files', state = some files' ∧ files' fid = files fid := by
  refine follows.invariant (I := fun state ↦ ∃ files' : Files cfg, state = some files' ∧
    files' fid = files fid) ⟨files, rfl, rfl⟩ ?_
  rintro before event member after ⟨files', rfl, same⟩ next
  have other := others event member
  cases next with
  | returned room => exact ⟨_, rfl, (Call.outcome_other other room).trans same⟩
  | before => exact ⟨files', rfl, same⟩
  | behind room => exact ⟨_, rfl, (Call.outcome_other other room).trans same⟩
  | wiped => exact (other trivial).elim
  | wiping => exact (other trivial).elim
  | wipedBehind => exact (other trivial).elim

/-- A file stays readable as it is, as long as no call is about it. -/
theorem Device.Has.read_kept (has : device.Has (some files)) (config : ValidConfig cfg)
    (eraseVal_ne : cfg.eraseVal ≠ 1) (some_file : 0 < cfg.maxNumFiles) {events : List Event}
    (exec_eq : Run.exec (Session.step cfg) (.start device) events = some y)
    (allowed : Allowed (Session.step cfg) (Event.Sound cfg) (.start device) events)
    (mounted : y.device.mounted = true) {fid : FileId} (ne_zero : fid ≠ 0)
    (others : ∀ event ∈ events, ¬event.call.Addresses fid) {file : StoredFile cfg}
    (file_eq : files fid = some file) {size offset : ℕ}
    (inside : offset + size ≤ file.data.length) :
    ∃ data, Runs cfg (fun _ _ ↦ False)
      (itsFlashFsFileRead cfg fid size offset) y.device.ctx y.device.flash
        (.ok data) y.device.ctx y.device.flash ∧
      (List.range size).map data = (file.data.drop offset).take size := by
  obtain ⟨state', follows, has'⟩ := has.start.exec config eraseVal_ne some_file exec_eq allowed
  obtain ⟨files', rfl, same⟩ := Follows.file_eq follows others
  have has' := has'.device
  rw [Device.Has, if_pos mounted] at has'
  obtain ⟨f, inside', remains⟩ := has'
  exact inside'.read remains ne_zero (same.trans file_eq) inside

/-! ## Readiness -/

/-- A mount always succeeds, and then the scratch blocks are erased. -/
theorem Device.Has.mount (has : device.Has (some files)) (eraseVal_ne : cfg.eraseVal ≠ 1) :
    ∃ device', device.step cfg ⟨.prepare, none⟩ = some device' ∧ device'.mounted = true ∧
      device'.Ready cfg ∧ device'.Has (some files) := by
  obtain ⟨ctx', f', pass, mounted⟩ := has.holds.prepare eraseVal_ne device.ctx
  have step_eq : device.step cfg ⟨.prepare, none⟩ =
      some ⟨ctx', Call.mounts device.mounted .prepare (.ok ()), f'⟩ :=
    Device.run_returned (fun needs ↦ (Bool.false_ne_true needs).elim) rfl pass
  exact ⟨_, step_eq, rfl, mounted.ready, mounted.has⟩

/-! ## A small device -/

instance (device : Device) : Decidable (device.Ready cfg) :=
  inferInstanceAs (Decidable ((∀ o < cfg.blockSize,
    device.flash device.ctx.scratchMetablock o = cfg.eraseVal) ∧ (2 < cfg.numBlocks →
      ∀ o < cfg.blockSize, device.flash device.ctx.metaBlockHeader.scratchDblock o = cfg.eraseVal)))

instance (x : Session) (event : Event) : Decidable (event.Sound cfg x) :=
  match event with
  | ⟨.prepare, _⟩ | ⟨.wipeAll, _⟩ => inferInstanceAs (Decidable True)
  | ⟨.write fid finfo dataSize _ _, _⟩ => inferInstanceAs (Decidable (fid ≠ 0 ∧
      finfo.flags < 2 ^ 32 ∧ dataSize + cfg.programUnit ≤ 2 ^ 32 ∧ x.refused = false))
  | ⟨.delete _, _⟩ => inferInstanceAs (Decidable (x.refused = false))

/-- A flash with two blocks, whose bits are cleared when it is programmed. -/
def smallFlash : Config where
  blockSize := 160
  numBlocks := 2
  programUnit := 1
  eraseVal := 0xFF
  maxFileSize := 40
  maxNumFiles := 3
  maxAlignment := 1
  nonceLength := 0
  tagLength := 0
  program := fun old new ↦ old &&& new
  program_eraseVal := fun _ ↦ UInt8.neg_one_and
  blockSize_lt := by decide
  numBlocks_lt := by decide
  maxFileSize_lt := by decide
  maxNumFiles_lt := by decide
  programUnit_pow := ⟨0, by decide, rfl⟩
  maxAlignment_pos := by decide

/-- A device with a new flash. -/
def newDevice : Device where
  ctx := .zero
  mounted := false
  flash := fun _ _ ↦ smallFlash.eraseVal

/-- A file with ten bytes of room. -/
def smallFile : FileInfo where
  sizeCurrent := 0
  sizeMax := 10
  flags := itsFlashFsFlagCreate
  nonce := fun _ ↦ 0
  tag := fun _ ↦ 0

/-- The power is lost during a mount, and then a file is written. -/
def smallHistory : List Event :=
  [⟨.prepare, some 2⟩, ⟨.prepare, none⟩,
    ⟨.write (fun _ ↦ 1) smallFile 4 0 fun i ↦ UInt8.ofNat (10 + i), none⟩]

theorem smallFlash_valid : ValidConfig smallFlash := validConfig_of_validate (by decide)

/-- The session after these calls. -/
@[irreducible]
def smallSession : Session :=
  (Run.exec (Session.step smallFlash) (.start newDevice)
    (⟨.wipeAll, none⟩ :: smallHistory)).getD (.start newDevice)

theorem exec_smallHistory : Run.exec (Session.step smallFlash) (.start newDevice)
    (⟨.wipeAll, none⟩ :: smallHistory) = some smallSession := by
  have returns : (Run.exec (Session.step smallFlash) (.start newDevice)
      (⟨.wipeAll, none⟩ :: smallHistory)).isSome = true := by decide +kernel
  unfold smallSession
  exact (Option.getD_of_ne_none (Option.isSome_iff_ne_none.1 returns) _).symm

theorem allowed_smallHistory : Allowed (Session.step smallFlash) (Event.Sound smallFlash)
    (.start newDevice) (⟨.wipeAll, none⟩ :: smallHistory) :=
  allowed_of_decide (by decide +kernel)

theorem exec_wiped_small : ∃ state', Follows Next (some (fun _ ↦ none : Files smallFlash))
    smallHistory state' ∧ smallSession.device.Has state' :=
  exec_wiped smallFlash_valid (by decide) (by decide) exec_smallHistory allowed_smallHistory

theorem newDevice_has : newDevice.Has (none : Option (Files smallFlash)) :=
  ⟨rfl, refused_of_erased fun _ _ _ _ ↦ rfl⟩

theorem smallSession_settled : smallSession.Settled smallFlash where
  reached := ⟨newDevice, none, newDevice_has, exec_reaches exec_smallHistory allowed_smallHistory⟩
  mounted := by decide +kernel
  settled := by decide +kernel

/-- The files of the small session. -/
def smallFiles : Files smallFlash := smallSession.device.files smallFlash

theorem smallSession_mounted :
    Mounted smallFlash smallFiles smallSession.device.ctx smallSession.device.flash :=
  smallSession_settled.mounted_files smallFlash_valid (by decide) (by decide)

theorem smallSession_has : smallSession.device.Has (some smallFiles) := smallSession_mounted.has

/-- One file is read although the power has been lost while another one was written. -/
theorem read_kept_small : ∃ y : Session, ∃ data, Runs smallFlash (fun _ _ ↦ False)
    (itsFlashFsFileRead smallFlash (fun _ ↦ 1) 2 1) y.device.ctx y.device.flash (.ok data)
      y.device.ctx y.device.flash ∧ (List.range 2).map data = [11, 12] := by
  have contents : (smallFiles fun _ ↦ 1).map StoredFile.data = some [10, 11, 12, 13] := by
    decide +kernel
  obtain ⟨file, found, data_eq⟩ := Option.map_eq_some_iff.1 contents
  have returns : ((Run.exec (Session.step smallFlash) (.start smallSession.device)
      [⟨.prepare, none⟩, ⟨.write (fun _ ↦ 2) smallFile 3 0 fun _ ↦ 5, some 9⟩,
        ⟨.prepare, none⟩]).any fun y ↦ y.device.mounted) = true := by decide +kernel
  obtain ⟨y, exec_eq, mounted⟩ := (Option.any_eq_true ..).1 returns
  have others : ∀ event ∈ [Event.mk .prepare none,
      ⟨.write (fun _ ↦ 2) smallFile 3 0 fun _ ↦ 5, some 9⟩, ⟨.prepare, none⟩],
      ¬event.call.Addresses fun _ ↦ 1 := by
    have ne : (fun _ ↦ 2 : FileId) ≠ fun _ ↦ 1 := by decide +kernel
    intro event member
    rcases List.mem_cons.1 member with rfl | rest
    · exact id
    · rcases List.mem_pair.1 rest with rfl | rfl
      · exact ne
      · exact id
  have allowed : Allowed (Session.step smallFlash) (Event.Sound smallFlash)
      (.start smallSession.device) [⟨.prepare, none⟩,
        ⟨.write (fun _ ↦ 2) smallFile 3 0 fun _ ↦ 5, some 9⟩, ⟨.prepare, none⟩] :=
    allowed_of_decide (by decide +kernel)
  obtain ⟨data, run, data_eq'⟩ := smallSession_has.read_kept smallFlash_valid (by decide)
    (by decide) exec_eq allowed mounted (by decide +kernel) others found
    (show 1 + 2 ≤ file.data.length by rw [data_eq]; decide)
  rw [data_eq] at data_eq'
  exact ⟨y, data, run, data_eq'⟩

end TrustedFirmwareM.Its
