import TrustedFirmwareM.Its.AssetRuns
import Mathlib.Algebra.BigOperators.Finprod
import Mathlib.Data.Nat.Count
import Mathlib.Data.Set.Card

/-!
# Capacity

Without dedicated data blocks, whether there is room for a file depends on the files only, and not
on how they have come about: no space is lost to fragmentation.
-/

namespace TrustedFirmwareM.Its

open Run

variable {cfg : Config} {files : Files cfg} {ctx : Ctx} {f : Flash}

/-- The space that files have reserved. -/
noncomputable def Files.reserved (files : Files cfg) : ℕ :=
  ∑ᶠ fid, (files fid).elim 0 StoredFile.maxSize

/-- The number of files. -/
noncomputable def Files.count (files : Files cfg) : ℕ := {fid | files fid ≠ none}.ncard

/-- The entries in use. -/
def Ctx.liveEntries (cfg : Config) (ctx : Ctx) (f : Flash) : Finset ℕ :=
  (Finset.range cfg.maxNumFiles).filter fun i ↦ (ctx.fileMeta cfg f i).Live

theorem mem_liveEntries {i : ℕ} :
    i ∈ ctx.liveEntries cfg f ↔ i < cfg.maxNumFiles ∧ (ctx.fileMeta cfg f i).Live := by
  rw [Ctx.liveEntries, Finset.mem_filter, Finset.mem_range]

namespace Mounted

/-- Entries in use have different identifiers. -/
theorem id_injOn (mounted : Mounted cfg files ctx f) :
    Set.InjOn (fun i ↦ (ctx.fileMeta cfg f i).id) (ctx.liveEntries cfg f) := by
  intro i member j member' same
  obtain ⟨i_lt, live⟩ := mem_liveEntries.1 member
  obtain ⟨j_lt, -⟩ := mem_liveEntries.1 member'
  exact mounted.consistent.unique i i_lt j j_lt (Option.some_ne_none i).symm
    (Option.some_ne_none j).symm live same

theorem files_of_live (mounted : Mounted cfg files ctx f) {i : ℕ}
    (member : i ∈ ctx.liveEntries cfg f) :
    files (ctx.fileMeta cfg f i).id = some (ctx.storedFile cfg f i) := by
  obtain ⟨bound, live⟩ := mem_liveEntries.1 member
  have found := mounted.consistent.entryOf_eq bound (Option.some_ne_none i).symm live
  rw [← mounted.files_eq, Ctx.files, if_neg live, found, Option.map_some]

/-- Files are those of the entries in use. -/
theorem exists_file_iff (mounted : Mounted cfg files ctx f) (fid : FileId) :
    files fid ≠ none ↔ ∃ i ∈ ctx.liveEntries cfg f, (ctx.fileMeta cfg f i).id = fid := by
  constructor
  · intro exists_file
    rw [← mounted.files_eq, Ctx.files] at exists_file
    split at exists_file
    · exact (exists_file rfl).elim
    · next ne_zero =>
        cases found : ctx.entryOf cfg f none fid with
        | none =>
            rw [found] at exists_file
            exact (exists_file rfl).elim
        | some i =>
            obtain ⟨bound, id_eq, -⟩ := entryOf_some found
            exact ⟨i, mem_liveEntries.2 ⟨bound, by rw [FileMeta.Live, id_eq]; exact ne_zero⟩, id_eq⟩
  · rintro ⟨i, member, rfl⟩
    rw [mounted.files_of_live member]
    exact Option.some_ne_none _

/-- There are as many files as entries in use. -/
theorem count_eq (mounted : Mounted cfg files ctx f) :
    files.count = (ctx.liveEntries cfg f).card := by
  have image : {fid | files fid ≠ none} =
      (fun i ↦ (ctx.fileMeta cfg f i).id) '' (ctx.liveEntries cfg f : Set ℕ) :=
    Set.ext mounted.exists_file_iff
  rw [Files.count, image, mounted.id_injOn.ncard_image, Set.ncard_coe_finset]

/-- The space of the files is that of the entries in use. -/
theorem reserved_eq (mounted : Mounted cfg files ctx f) :
    files.reserved = ∑ i ∈ ctx.liveEntries cfg f, (ctx.fileMeta cfg f i).maxSize := by
  have support : Function.support (fun fid ↦ (files fid).elim 0 StoredFile.maxSize) ⊆
      ((ctx.liveEntries cfg f).image fun i ↦ (ctx.fileMeta cfg f i).id : Finset FileId) := by
    intro fid nonzero
    rw [Finset.coe_image]
    refine (mounted.exists_file_iff fid).1 fun missing ↦ nonzero ?_
    change (files fid).elim 0 StoredFile.maxSize = 0
    rw [missing, Option.elim_none]
  rw [Files.reserved, finsum_eq_sum_of_support_subset _ support, Finset.sum_image mounted.id_injOn]
  apply Finset.sum_congr rfl
  intro i member
  rw [mounted.files_of_live member, Option.elim_some]
  rfl

end Mounted

/-! ## Free entries -/

/-- A search finds a free index if there are enough of them. -/
theorem freeIndex_isSome {isFree : ℕ → Bool} {useSpare : Bool} {indices : List ℕ} :
    (freeIndex isFree useSpare indices).isSome = true ↔
      (if useSpare then 1 else 2) ≤ indices.countP isFree := by
  induction indices generalizing useSpare with
  | nil =>
      rw [freeIndex, List.countP_nil]
      cases useSpare <;> decide
  | cons i rest ih =>
      rw [freeIndex, List.countP_cons]
      cases isFree i with
      | true =>
          cases useSpare with
          | true =>
              rw [if_pos rfl, if_pos rfl, if_pos rfl, if_pos rfl]
              exact ⟨fun _ ↦ Nat.le_add_left _ _, fun _ ↦ rfl⟩
          | false =>
              rw [if_pos rfl, if_neg Bool.false_ne_true, if_neg Bool.false_ne_true, if_pos rfl, ih,
                if_pos rfl]
              omega
      | false =>
          rw [if_neg Bool.false_ne_true, if_neg Bool.false_ne_true, Nat.add_zero]
          exact ih

theorem Mounted.freeFor_isSome (mounted : Mounted cfg files ctx f) (useSpare : Bool) :
    (freeFor cfg ctx f useSpare).isSome = true ↔
      files.count + (if useSpare then 1 else 2) ≤ cfg.maxNumFiles := by
  have split := List.length_eq_countP_add_countP
    (fun i ↦ !itsUtilsValidateFid (ctx.fileMeta cfg f i).id) (l := List.range cfg.maxNumFiles)
  have used : (List.range cfg.maxNumFiles).countP
      (fun i ↦ decide ¬(!itsUtilsValidateFid (ctx.fileMeta cfg f i).id) = true) = files.count := by
    rw [mounted.count_eq, Ctx.liveEntries, ← Nat.count_eq_card_filter_range, Nat.count]
    congr 1
    funext i
    refine decide_eq_decide.2 ?_
    rw [itsUtilsValidateFid, Bool.not_eq_true', Bool.not_eq_false, decide_eq_true_eq]
  rw [used, List.length_range] at split
  rw [freeFor, freeIndex_isSome]
  omega

/-! ## Free space -/

/-- Without dedicated data blocks, the free space is what the files leave. -/
theorem Mounted.free_eq (mounted : Mounted cfg files ctx f) (two : cfg.numBlocks = 2) :
    metadataEnd cfg + files.reserved + (ctx.blockMeta cfg f 0).freeSize = cfg.blockSize := by
  have packed := mounted.consistent.layout.packed
  have one : itsNumActiveDblocks cfg = 1 := by
    rw [itsNumActiveDblocks, itsNumDedicatedDblocks, if_pos two]
  have free := packed.free_eq (numActiveDblocks_pos cfg)
  have all : (Finset.range cfg.maxNumFiles).filter
      (fun i ↦ (ctx.fileMeta cfg f i).Live ∧ (ctx.fileMeta cfg f i).lblock = 0) =
        ctx.liveEntries cfg f := by
    apply Finset.filter_congr
    intro i member
    have bound := packed.lblock_lt i (Finset.mem_range.1 member)
    rw [one] at bound
    exact and_iff_left (Nat.lt_one_iff.1 bound)
  rw [all, ← mounted.reserved_eq] at free
  rw [dataStart, if_pos rfl] at free
  exact free

/-- There is room for a file if its size and its entry fit beside those of the others. -/
theorem Mounted.hasRoom_iff (mounted : Mounted cfg files ctx f) (two : cfg.numBlocks = 2) (size : ℕ)
    (useSpare : Bool) :
    hasRoom cfg ctx f size useSpare = true ↔
      metadataEnd cfg + files.reserved + size ≤ cfg.blockSize ∧
        files.count + (if useSpare then 1 else 2) ≤ cfg.maxNumFiles := by
  have free := mounted.free_eq two
  have one : itsNumActiveDblocks cfg = 1 := by
    rw [itsNumActiveDblocks, itsNumDedicatedDblocks, if_pos two]
  rw [hasRoom, Bool.and_eq_true, mounted.freeFor_isSome, blockFor, one, List.isSome_find?]
  refine and_congr_left fun _ ↦ ?_
  rw [List.range_one, List.any_cons, List.any_nil, Bool.or_false, decide_eq_true_eq]
  omega

/-! ## Assets -/

section

variable {cfg : ServiceConfig} {files : Files cfg.fs} {fid : FileId}

/-- An asset keeps its space, or it gets a new one. -/
theorem Files.setStatus_ok_iff {finfo : FileInfo}
    (create : finfo.flags &&& itsFlashFsFlagCreate ≠ 0)
    (truncate : finfo.flags &&& itsFlashFsFlagTruncate ≠ 0) (room : Bool) :
    files.setStatus room fid finfo = .ok () ↔ finfo.sizeMax + cfg.fs.programUnit ≤ 2 ^ 32 ∧
      ((∃ file, files fid = some file ∧
          file.maxSize = itsUtilsAlign finfo.sizeMax cfg.fs.programUnit) ∨
        itsUtilsAlign finfo.sizeMax cfg.fs.programUnit ≤ cfg.fs.maxFileSize ∧ room = true) := by
  have new : (∃ base, newFileOf cfg.fs finfo room = .ok base) ↔
      itsUtilsAlign finfo.sizeMax cfg.fs.programUnit ≤ cfg.fs.maxFileSize ∧ room = true := by
    rw [newFileOf]
    constructor
    · rintro ⟨base, made⟩
      split at made
      · next fits =>
          split at made
          · next free => exact ⟨fits, free⟩
          · cases made
      · cases made
    · rintro ⟨fits, free⟩
      rw [if_pos fits, if_pos free]
      exact ⟨_, rfl⟩
  have start : (∃ base, startOfWrite files room fid finfo = .ok base) ↔
      (∃ file, files fid = some file ∧
          file.maxSize = itsUtilsAlign finfo.sizeMax cfg.fs.programUnit) ∨
        itsUtilsAlign finfo.sizeMax cfg.fs.programUnit ≤ cfg.fs.maxFileSize ∧ room = true := by
    rw [← new, startOfWrite]
    cases found : files fid with
    | none =>
        dsimp only
        rw [if_pos create]
        refine ⟨.inr, fun made ↦ made.elim ?_ id⟩
        rintro ⟨file, impossible, -⟩
        cases impossible
    | some file =>
        dsimp only
        rw [if_pos truncate]
        by_cases same : file.maxSize = itsUtilsAlign finfo.sizeMax cfg.fs.programUnit
        · rw [if_pos same]
          exact ⟨fun _ ↦ .inl ⟨file, rfl, same⟩, fun _ ↦ ⟨_, rfl⟩⟩
        · rw [if_neg same]
          refine ⟨.inr, fun made ↦ made.elim ?_ id⟩
          rintro ⟨file', file_eq, same'⟩
          cases file_eq
          exact (same same').elim
  rw [Files.setStatus, ← start]
  cases startOfWrite files room fid finfo with
  | error status =>
      refine ⟨fun ok ↦ ?_, fun both ↦ ?_⟩
      · cases ok
      · obtain ⟨base, impossible⟩ := both.2
        cases impossible
  | ok base =>
      dsimp only
      by_cases wraps : 2 ^ 32 < finfo.sizeMax + cfg.fs.programUnit
      · rw [if_pos wraps]
        refine ⟨fun ok ↦ ?_, fun both ↦ (Nat.not_le.2 wraps both.1).elim⟩
        cases ok
      · rw [if_neg wraps]
        exact ⟨fun _ ↦ ⟨Nat.le_of_not_lt wraps, base, rfl⟩, fun _ ↦ rfl⟩

/-- A request that may set an asset returns what the file system says. -/
theorem Mounted.returns_set {ctx : Ctx} {f : Flash} (mounted : Mounted cfg.fs files ctx f)
    {clientId : ClientId} {uid : Uid} (valid : uid ≠ tfmItsInvalidUid) {dataLength createFlags : ℕ}
    (length_lt : dataLength < 2 ^ 32) (flags_lt : createFlags < 2 ^ 3)
    (supported : createFlags &&& not32 psaStorageFlags = 0) (statics : Statics)
    (unlocked : ∀ file, files (tfmItsGetFid clientId uid) = some file →
      file.asset.isWriteOnce = false) (input : Bytes) :
    ∃ finfo : FileInfo, finfo.sizeMax = dataLength ∧ finfo.flags = creationFlags createFlags ∧
      ∃ ctx' f', Passes cfg.fs (fun _ ↦ True)
        (tfmItsSet cfg statics clientId uid dataLength createFlags input) ctx f
        (files.setStatus (hasRoom cfg.fs ctx f (itsUtilsAlign finfo.sizeMax cfg.fs.programUnit)
          (files (tfmItsGetFid clientId uid)).isSome)
            (tfmItsGetFid clientId uid) finfo) ctx' f' := by
  have ne_zero : tfmItsGetFid clientId uid ≠ 0 := tfmItsGetFid_ne_zero valid
  have start := mounted.runs_startSet (W := fun _ _ ↦ False) valid statics clientId
  obtain ⟨found, run⟩ : ∃ found,
      Runs cfg.fs (fun _ _ ↦ False) (startSet cfg statics clientId uid) ctx f
      (.ok found) ctx f := by
    cases existing : files (tfmItsGetFid clientId uid) with
    | none =>
        rw [existing] at start
        exact ⟨_, start⟩
    | some file =>
        rw [existing] at start
        dsimp only at start
        rw [if_neg (by rw [unlocked file existing]; exact Bool.false_ne_true)] at start
        exact ⟨_, start⟩
  refine ⟨{ found with sizeMax := dataLength, flags := creationFlags createFlags }, rfl, rfl, ?_⟩
  have loop := mounted.setLoop ne_zero
    { found with
      sizeMax := dataLength
      flags := creationFlags createFlags } flags_lt rfl length_lt rfl input statics.assetData
  split at loop
  · next status =>
      obtain ⟨ctx', f', pass, -⟩ := loop
      rw [status]
      exact ⟨ctx', f', passes_tfmItsSet trivial valid supported run (pass.mono fun _ _ ↦ trivial)⟩
  · next refused =>
      obtain ⟨f', failed, -⟩ := loop
      rw [refused]
      exact ⟨ctx, f',
        passes_tfmItsSet trivial valid supported run (failed.passes fun _ _ ↦ trivial)⟩

/-- The service is initialised after a run over any assets, and it has not refused to replace an
asset since then. -/
structure Session.Initialised (cfg : ServiceConfig) (x : Session) : Prop where
  /-- The run. -/
  reached : ∃ (device : Device) (state : Option Assets), device.HasAssets cfg state ∧
    Reaches (Session.serve cfg) (fun x action ↦ action.request.Sound x) (.start device) x
  /-- The service is initialised. -/
  mounted : x.device.mounted = true
  /-- No replacement has been refused. -/
  settled : x.refused = false

/-- The assets are those of the files in the flash. -/
theorem Session.Initialised.mounted_files {x : Session} (initialised : x.Initialised cfg)
    (validated : itsFlashFsValidateConfig cfg.fs = true) (eraseVal_ne : cfg.fs.eraseVal ≠ 1)
    (some_file : 0 < cfg.fs.maxNumFiles) :
    Mounted cfg.fs (x.device.files cfg.fs) x.device.ctx x.device.flash := by
  obtain ⟨device, state, has, reaches⟩ := initialised.reached
  obtain ⟨state', has'⟩ := reaches.invariant
    (I := fun x ↦ ∃ state' : Option Assets, x.HasAssets cfg state') ⟨state, has.start⟩ (by
      rintro before action after ⟨state, has⟩ sound step_eq
      obtain ⟨state', -, has'⟩ := has.step validated eraseVal_ne some_file sound step_eq
      exact ⟨state', has'⟩)
  cases state' with
  | none => exact (Bool.false_ne_true (has'.device.1.symm.trans initialised.mounted)).elim
  | some assets =>
      obtain ⟨files, here, -⟩ := has'.device
      have mounted := here.mounted initialised.mounted
        (has'.ready initialised.settled initialised.mounted)
      rw [Device.files, mounted.files_eq]
      exact mounted

/-- Without dedicated data blocks, an asset can be set if it fits beside the files there are. -/
theorem set_succeeds_iff {x : Session} (initialised : x.Initialised cfg)
    (validated : itsFlashFsValidateConfig cfg.fs = true) (eraseVal_ne : cfg.fs.eraseVal ≠ 1)
    (some_file : 0 < cfg.fs.maxNumFiles) (two : cfg.fs.numBlocks = 2) {clientId : ClientId}
    {uid : Uid} (valid : uid ≠ tfmItsInvalidUid) {dataLength createFlags : ℕ}
    (length_lt : dataLength < 2 ^ 32) (flags_lt : createFlags < 2 ^ 32)
    (supported : createFlags &&& not32 psaStorageFlags = 0) (statics : Statics)
    (unlocked : ∀ file, x.device.files cfg.fs (tfmItsGetFid clientId uid) = some file →
      file.asset.isWriteOnce = false) (input : Bytes) :
    ∃ result ctx' f',
      ((tfmItsSet cfg statics clientId uid dataLength createFlags input).run x.device.ctx).run
        (FlashOp.work cfg.fs) x.device.flash = (some (result, ctx'), f') ∧
      (result = .ok () ↔ dataLength + cfg.fs.programUnit ≤ 2 ^ 32 ∧
        ((∃ file, x.device.files cfg.fs (tfmItsGetFid clientId uid) = some file ∧
            file.maxSize = itsUtilsAlign dataLength cfg.fs.programUnit) ∨
          itsUtilsAlign dataLength cfg.fs.programUnit ≤ cfg.fs.maxFileSize ∧
          metadataEnd cfg.fs + (x.device.files cfg.fs).reserved +
            itsUtilsAlign dataLength cfg.fs.programUnit ≤ cfg.fs.blockSize ∧
          (x.device.files cfg.fs).count +
            (if (x.device.files cfg.fs (tfmItsGetFid clientId uid)).isSome then 1 else 2) ≤
              cfg.fs.maxNumFiles)) := by
  have mounted := initialised.mounted_files validated eraseVal_ne some_file
  have small := createFlags_lt flags_lt supported
  obtain ⟨-, -, create, truncate, -⟩ := creationFlags_spec small
  obtain ⟨finfo, sizeMax_eq, flags_eq, ctx', f', pass⟩ :=
    mounted.returns_set valid length_lt small supported statics unlocked input
  rw [← flags_eq] at create truncate
  refine ⟨_, ctx', f', pass.returns, ?_⟩
  rw [Files.setStatus_ok_iff create truncate, mounted.hasRoom_iff two, sizeMax_eq]

end

/-- Client 2 has set an asset, and client 1 sets one of its own. -/
theorem set_succeeds_iff_small : ∃ x : Session, ∃ result ctx' f',
    ((tfmItsSet smallService ⟨smallFile, fun _ ↦ 0⟩ 1 7 6 0 fun _ ↦ 5).run x.device.ctx).run
      (FlashOp.work smallFlash) x.device.flash = (some (result, ctx'), f') ∧
    (result = .ok () ↔ 6 + 1 ≤ 2 ^ 32 ∧
      ((∃ file, x.device.files smallFlash (tfmItsGetFid 1 7) = some file ∧
          file.maxSize = itsUtilsAlign 6 1) ∨
        itsUtilsAlign 6 1 ≤ 40 ∧
        metadataEnd smallFlash + (x.device.files smallFlash).reserved + itsUtilsAlign 6 1 ≤ 160 ∧
        (x.device.files smallFlash).count +
          (if (x.device.files smallFlash (tfmItsGetFid 1 7)).isSome then 1 else 2) ≤ 3)) := by
  obtain ⟨x, exec_eq, allowed⟩ := exists_smallRun [firstInit, ⟨setSix 2 0, .returned (.ok .done)⟩]
    (by decide +kernel) (by decide +kernel)
  have test : ((Run.exec (Session.serve smallService) (.start newDevice)
      [firstInit, ⟨setSix 2 0, .returned (.ok .done)⟩]).all fun x ↦
        x.device.mounted && !x.refused &&
          (x.device.files smallFlash (tfmItsGetFid 1 7)).isNone) = true := by decide +kernel
  have here := (Option.all_eq_true ..).1 test x exec_eq
  rw [Bool.and_eq_true, Bool.and_eq_true, Bool.not_eq_true'] at here
  obtain ⟨⟨mounted, settled⟩, missing⟩ := here
  have unlocked : ∀ file : StoredFile smallService.fs,
      x.device.files smallFlash (tfmItsGetFid 1 7) = some file →
        file.asset.isWriteOnce = false := by
    intro file found
    rw [found] at missing
    cases missing
  have initialised : x.Initialised smallService :=
    ⟨⟨newDevice, none, newDevice_hasAssets, exec_reaches exec_eq allowed⟩, mounted, settled⟩
  exact ⟨x, set_succeeds_iff initialised smallService_validated (by decide) (by decide) rfl
    (by decide) (by decide) (by decide) (by decide) ⟨smallFile, fun _ ↦ 0⟩ unlocked fun _ ↦ 5⟩

end TrustedFirmwareM.Its
