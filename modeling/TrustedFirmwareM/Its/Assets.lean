import TrustedFirmwareM.Its.AssetWrites
import TrustedFirmwareM.Its.Histories

/-!
# Assets

What the service is for: every client has assets of its own, which are set, read and removed one by
one.  Whatever happens to the power, an asset is as it was, or as it was to be, or it has the first
chunks of its new data.
-/

namespace TrustedFirmwareM.Its

/-! ## Requests -/

/-- An asset. -/
structure Asset where
  /-- The flags it was created with. -/
  flags : ℕ
  /-- Its data. -/
  data : List UInt8

/-- The assets of all clients. -/
abbrev Assets : Type := ClientId → Uid → Option Asset

/-- What the service is asked for. -/
inductive Request
  /-- `tfm_its_init`. -/
  | init (createFlashLayout : Bool)
  /-- `tfm_its_set`. -/
  | set (statics : Statics) (clientId : ClientId) (uid : Uid) (dataLength createFlags : ℕ)
      (input : Bytes)
  /-- `tfm_its_get`. -/
  | get (clientId : ClientId) (uid : Uid) (dataOffset dataSize : ℕ)
  /-- `tfm_its_get_info`. -/
  | getInfo (clientId : ClientId) (uid : Uid)
  /-- `tfm_its_remove`. -/
  | remove (clientId : ClientId) (uid : Uid)

/-- What a request that succeeds returns. -/
inductive Reply
  | done
  | data (bytes : List UInt8)
  | info (info : StorageInfo)
  deriving DecidableEq

/-- The function that serves a request. -/
def Request.program (cfg : ServiceConfig) : Request → FsM Reply
  | .init createFlashLayout => do
      tfmItsInit cfg createFlashLayout
      pure .done
  | .set statics clientId uid dataLength createFlags input => do
      tfmItsSet cfg statics clientId uid dataLength createFlags input
      pure .done
  | .get clientId uid dataOffset dataSize => do
      let bytes ← tfmItsGet cfg clientId uid dataOffset dataSize
      pure (.data bytes)
  | .getInfo clientId uid => do
      let info ← tfmItsGetInfo cfg clientId uid
      pure (.info info)
  | .remove clientId uid => do
      tfmItsRemove cfg clientId uid
      pure .done

/-! ## Their meaning -/

/-- The assets with one of them changed. -/
def Assets.put (assets : Assets) (clientId : ClientId) (uid : Uid)
    (asset : Option Asset) : Assets :=
  Function.update assets clientId (Function.update (assets clientId) uid asset)

/-- An asset cannot be changed. -/
def Asset.isWriteOnce (asset : Asset) : Bool := asset.flags &&& psaStorageFlagWriteOnce != 0

/-- What the assets say about a request. -/
def Assets.check (assets : Assets) : Request → Except Status Unit
  | .init _ => .ok ()
  | .set _ clientId uid _ createFlags _ =>
      if uid = tfmItsInvalidUid then .error .invalidArgument
      else if createFlags &&& not32 psaStorageFlags ≠ 0 then .error .notSupported
      else
        match assets clientId uid with
        | some asset => if asset.isWriteOnce then .error .notPermitted else .ok ()
        | none => .ok ()
  | .get clientId uid dataOffset _ =>
      if uid = tfmItsInvalidUid then .error .invalidArgument
      else
        match assets clientId uid with
        | some asset =>
            if dataOffset ≤ asset.data.length then .ok () else .error .invalidArgument
        | none => .error .doesNotExist
  | .getInfo clientId uid =>
      if uid = tfmItsInvalidUid then .error .invalidArgument
      else
        match assets clientId uid with
        | some _ => .ok ()
        | none => .error .doesNotExist
  | .remove clientId uid =>
      if uid = tfmItsInvalidUid then .error .invalidArgument
      else
        match assets clientId uid with
        | some asset => if asset.isWriteOnce then .error .notPermitted else .ok ()
        | none => .error .doesNotExist

/-- What a request returns. -/
def Assets.answer (assets : Assets) : Request → Reply
  | .get clientId uid dataOffset dataSize =>
      match assets clientId uid with
      | some asset => .data ((asset.data.drop dataOffset).take dataSize)
      | none => .done
  | .getInfo clientId uid =>
      match assets clientId uid with
      | some asset => .info ⟨asset.data.length, asset.data.length, asset.flags⟩
      | none => .done
  | .init _ | .set .. | .remove .. => .done

/-- The assets once a request has been served.  Only so much data may have been written. -/
def Assets.after (assets : Assets) (size : ℕ) : Request → Assets
  | .set _ clientId uid _ createFlags input =>
      assets.put clientId uid (some ⟨createFlags, (List.range size).map input⟩)
  | .remove clientId uid => assets.put clientId uid none
  | .init _ | .get .. | .getInfo .. => assets

/-- The size of the data that comes with a request. -/
def Request.length : Request → ℕ
  | .set _ _ _ dataLength _ _ => dataLength
  | .init _ | .get .. | .getInfo .. | .remove .. => 0

/-- The request sets an asset. -/
def Request.isSet : Request → Bool
  | .set .. => true
  | .init _ | .get .. | .getInfo .. | .remove .. => false

/-- What a request returns, and the assets behind it. -/
inductive Assets.Answers (assets : Assets) (request : Request) : Except Status Reply → Assets → Prop
  /-- The request is served. -/
  | served (allowed : assets.check request = .ok ()) :
      Answers assets request (.ok (assets.answer request)) (assets.after request.length request)
  /-- The request is refused. -/
  | refused {status : Status} (refused : assets.check request = .error status) :
      Answers assets request (.error status) assets
  /-- There is no room for the asset. -/
  | noRoom {status : Status} (allowed : assets.check request = .ok ()) (set : request.isSet = true)
      (status_eq : status = .insufficientStorage ∨ status = .invalidArgument ∨
        status = .genericError) :
      Answers assets request (.error status) assets

/-- The assets once a request has been cut off. -/
inductive Assets.Cut (bufSize : ℕ) (assets : Assets) (request : Request) : Assets → Prop
  /-- The request has had no effect. -/
  | before : Cut bufSize assets request assets
  /-- It has had its effect, as far as the chunks that have been written go. -/
  | behind {chunks : ℕ} (some_chunk : 0 < chunks) (allowed : assets.check request = .ok ()) :
      Cut bufSize assets request (assets.after (min request.length (chunks * bufSize)) request)

/-- There is no room for an asset that is to replace another one. -/
def Assets.Overflows (assets : Assets) (request : Request) (result : Except Status Reply) : Prop :=
  match request with
  | .set _ clientId uid .. =>
      assets clientId uid ≠ none ∧ assets.check request = .ok () ∧ result.isOk = false
  | .init _ | .get .. | .getInfo .. | .remove .. => False

variable {cfg : ServiceConfig}

/-- The asset of a file. -/
def StoredFile.asset (file : StoredFile cfg.fs) : Asset :=
  ⟨file.flags &&& itsFlashFsUserFlagsMask, file.data⟩

/-- The assets of the files. -/
def Files.assets (files : Files cfg.fs) : Assets := fun clientId uid ↦
  if uid = tfmItsInvalidUid then none else (files (tfmItsGetFid clientId uid)).map StoredFile.asset

variable {files : Files cfg.fs} {ctx : Ctx} {f g : Flash} {W : ℕ → ℕ → Prop} {clientId : ClientId}
  {uid : Uid}

theorem Assets.put_self (assets : Assets) (clientId : ClientId) (uid : Uid) (asset : Option Asset) :
    assets.put clientId uid asset clientId uid = asset := by
  rw [Assets.put, Function.update_self, Function.update_self]

theorem Assets.put_other (assets : Assets) {clientId' : ClientId} {uid' : Uid}
    (asset : Option Asset)
    (other : ¬(clientId' = clientId ∧ uid' = uid)) :
    assets.put clientId uid asset clientId' uid' = assets clientId' uid' := by
  rw [Assets.put]
  by_cases client : clientId' = clientId
  · subst client
    rw [Function.update_self, Function.update_of_ne fun same ↦ other ⟨rfl, same⟩]
  · rw [Function.update_of_ne client]

theorem Files.assets_update (valid : uid ≠ tfmItsInvalidUid) (file : Option (StoredFile cfg.fs)) :
    Files.assets (Function.update files (tfmItsGetFid clientId uid) file) =
      files.assets.put clientId uid (file.map StoredFile.asset) := by
  funext clientId' uid'
  by_cases same : clientId' = clientId ∧ uid' = uid
  · obtain ⟨rfl, rfl⟩ := same
    rw [Assets.put_self, Files.assets, if_neg valid, Function.update_self]
  · rw [Assets.put_other _ _ same, Files.assets, Files.assets,
      Function.update_of_ne fun fid_eq ↦ same (tfmItsGetFid_inj fid_eq)]

/-! ## Reads -/

theorem Mounted.runs_getFileInfo (mounted : Mounted cfg.fs files ctx f)
    (remains : Remains cfg.fs ctx f g) (valid : uid ≠ tfmItsInvalidUid) (clientId : ClientId) :
    Runs cfg.fs W (getFileInfo cfg uid clientId) ctx g
      (match files (tfmItsGetFid clientId uid) with
        | some file => .ok file.info
        | none => .error .doesNotExist) ctx g := by
  have ne_zero : tfmItsGetFid clientId uid ≠ 0 := tfmItsGetFid_ne_zero valid
  have info := mounted.getInfo (W := W) remains ne_zero
  refine (runs_ensure (bne_iff_ne.2 valid)).bind ?_
  cases found : files (tfmItsGetFid clientId uid) with
  | none =>
      rw [found] at info
      exact info
  | some file =>
      rw [found] at info
      exact info

theorem runs_getFileInfo_invalid (clientId : ClientId) :
    Runs cfg.fs W (getFileInfo cfg tfmItsInvalidUid clientId) ctx g
      (.error .invalidArgument) ctx g :=
  (runs_ensure_error (bne_self_eq_false _)).bind_error

/-- The chunks that are read make up a part of the data. -/
theorem Mounted.runs_getLoop (mounted : Mounted cfg.fs files ctx f)
    (remains : Remains cfg.fs ctx f g)
    {fid : FileId} (ne_zero : fid ≠ 0) {file : StoredFile cfg.fs} (file_eq : files fid = some file)
    {passes offset size : ℕ} (inside : offset + size ≤ file.data.length) (enough : size < passes) :
    Runs cfg.fs W (getLoop cfg fid passes offset size) ctx g
      (.ok ((file.data.drop offset).take size)) ctx g := by
  induction passes generalizing offset size with
  | zero => exact (Nat.not_lt_zero size enough).elim
  | succ passes ih =>
      have buf_pos := cfg.bufSize_pos
      have size_le : min size cfg.bufSize ≤ size := Nat.min_le_left _ _
      obtain ⟨data, read, data_eq⟩ := mounted.read (W := W) remains ne_zero file_eq
        (show offset + min size cfg.bufSize ≤ file.data.length by omega)
      rw [getLoop]
      refine read.bind ?_
      dsimp only
      rw [data_eq]
      split
      · have later := ih (show offset + min size cfg.bufSize + (size - min size cfg.bufSize) ≤
            file.data.length by omega) (by omega)
        have parts : (file.data.drop offset).take size =
            (file.data.drop offset).take (min size cfg.bufSize) ++
              (file.data.drop (offset + min size cfg.bufSize)).take
                (size - min size cfg.bufSize) := by
          rw [← List.drop_drop, ← List.take_add, Nat.add_sub_cancel' size_le]
        rw [parts]
        exact later.bind (runs_pure _)
      · have all : min size cfg.bufSize = size := by omega
        rw [all]
        exact runs_pure _

/-! ## Requests that are served -/

/-- The flash holds what a request leaves that is cut off. -/
def HoldsCut (cfg : ServiceConfig) (files : Files cfg.fs) (request : Request) (h : Flash) : Prop :=
  ∃ files' : Files cfg.fs, Holds cfg.fs files' h ∧
    files.assets.Cut cfg.bufSize request files'.assets

/-- A request returns what the assets say, and it leaves what they say.  It also leaves erased
scratch blocks, unless there is no room for a replacement: the old file has been marked in one of
them then. -/
def Serves (cfg : ServiceConfig) (files : Files cfg.fs) (request : Request)
    (ctx : Ctx) (g : Flash) : Prop :=
  ∃ result ctx' f', ∃ files' : Files cfg.fs,
    Passes cfg.fs (HoldsCut cfg files request) (request.program cfg) ctx g result ctx' f' ∧
      files.assets.Answers request result files'.assets ∧
      (Device.mk ctx' true f').Has (some files') ∧
      ((Device.mk ctx true g).Ready cfg.fs → ¬files.assets.Overflows request result →
        (Device.mk ctx' true f').Ready cfg.fs)

theorem Mounted.has_remains (mounted : Mounted cfg.fs files ctx f)
    (remains : Remains cfg.fs ctx f g) :
    (Device.mk ctx true g).Has (some files) := by
  rw [Device.Has, if_pos rfl]
  exact ⟨f, mounted, remains⟩

/-- A request that changes nothing. -/
theorem Mounted.serves_silent (mounted : Mounted cfg.fs files ctx f)
    (remains : Remains cfg.fs ctx f g)
    {request : Request} {result : Except Status Reply}
    (run : Runs cfg.fs (fun _ _ ↦ False) (request.program cfg) ctx g result ctx g)
    (answers : files.assets.Answers request result files.assets) : Serves cfg files request ctx g :=
  ⟨result, ctx, g, files,
    run.passes_silent ⟨files, mounted.remains_holds remains, .before⟩, answers,
    mounted.has_remains remains, fun ready _ ↦ ready⟩

theorem Files.assets_valid (valid : uid ≠ tfmItsInvalidUid) (files : Files cfg.fs)
    (clientId : ClientId) :
    files.assets clientId uid = (files (tfmItsGetFid clientId uid)).map StoredFile.asset :=
  if_neg valid

theorem Mounted.serves_get (mounted : Mounted cfg.fs files ctx f) (remains : Remains cfg.fs ctx f g)
    (clientId : ClientId) (uid : Uid) (dataOffset dataSize : ℕ) :
    Serves cfg files (.get clientId uid dataOffset dataSize) ctx g := by
  by_cases valid : uid = tfmItsInvalidUid
  · refine mounted.serves_silent remains (Runs.bind_error ?_) (.refused (if_pos valid))
    exact (runs_ensure_error (bne_eq_false_iff_eq.2 valid)).bind_error
  · have info := mounted.runs_getFileInfo (W := fun _ _ ↦ False) remains valid clientId
    have check : files.assets.check (.get clientId uid dataOffset dataSize) = _ := if_neg valid
    rw [Files.assets_valid valid] at check
    have usable : Runs cfg.fs (fun _ _ ↦ False) (ensure (uid != tfmItsInvalidUid) .invalidArgument)
        ctx g (.ok ()) ctx g := runs_ensure (bne_iff_ne.2 valid)
    cases found : files (tfmItsGetFid clientId uid) with
    | none =>
        rw [found] at info check
        exact mounted.serves_silent remains (usable.bind info.bind_error).bind_error
          (.refused check)
    | some file =>
        rw [found] at info check
        by_cases inside : dataOffset ≤ file.data.length
        · have answer : files.assets.answer (.get clientId uid dataOffset dataSize) =
              .data ((file.data.drop dataOffset).take
                (min dataSize (file.data.length - dataOffset))) := by
            rw [Assets.answer, Files.assets_valid valid, found, ← List.length_drop,
              ← List.take_take, List.take_length]
            rfl
          have loop := mounted.runs_getLoop (W := fun _ _ ↦ False) remains
            (tfmItsGetFid_ne_zero valid) found
            (show dataOffset + min dataSize (file.data.length - dataOffset) ≤
              file.data.length by omega)
            (Nat.lt_succ_self _)
          have served := Assets.Answers.served (check.trans (if_pos inside))
          rw [answer] at served
          refine mounted.serves_silent remains ?_ served
          exact (usable.bind (info.bind ((runs_ensure (decide_eq_true inside)).bind loop))).bind
            (runs_pure _)
        · refine mounted.serves_silent remains ?_ (.refused (check.trans (if_neg inside)))
          exact (usable.bind
            (info.bind (runs_ensure_error (decide_eq_false inside)).bind_error)).bind_error

theorem Mounted.serves_getInfo (mounted : Mounted cfg.fs files ctx f)
    (remains : Remains cfg.fs ctx f g) (clientId : ClientId) (uid : Uid) :
    Serves cfg files (.getInfo clientId uid) ctx g := by
  by_cases valid : uid = tfmItsInvalidUid
  · refine mounted.serves_silent remains ?_ (.refused (if_pos valid))
    subst valid
    exact (runs_getFileInfo_invalid clientId).bind_error.bind_error
  · have info := mounted.runs_getFileInfo (W := fun _ _ ↦ False) remains valid clientId
    have check : files.assets.check (.getInfo clientId uid) = _ := if_neg valid
    rw [Files.assets_valid valid] at check
    cases found : files (tfmItsGetFid clientId uid) with
    | none =>
        rw [found] at info check
        exact mounted.serves_silent remains info.bind_error.bind_error (.refused check)
    | some file =>
        rw [found] at info check
        have answer : files.assets.answer (.getInfo clientId uid) =
            .info ⟨file.data.length, file.data.length, file.flags &&& itsFlashFsUserFlagsMask⟩ := by
          rw [Assets.answer, Files.assets_valid valid, found]
          rfl
        have served := Assets.Answers.served check
        rw [answer] at served
        refine mounted.serves_silent remains ?_ served
        have inner : Runs cfg.fs (fun _ _ ↦ False) (tfmItsGetInfo cfg clientId uid) ctx g
            (.ok ⟨file.data.length, file.data.length,
            file.flags &&& itsFlashFsUserFlagsMask⟩) ctx g :=
          info.bind (runs_pure _)
        exact inner.bind (runs_pure _)

theorem Files.assets_delete (valid : uid ≠ tfmItsInvalidUid) :
    Files.assets (files.delete (tfmItsGetFid clientId uid)) = files.assets.put clientId uid none :=
  Files.assets_update valid none

theorem Mounted.serves_remove (mounted : Mounted cfg.fs files ctx f)
    (clientId : ClientId) (uid : Uid) :
    Serves cfg files (.remove clientId uid) ctx f := by
  have remains := mounted.consistent.layout.remains
  by_cases valid : uid = tfmItsInvalidUid
  · refine mounted.serves_silent remains ?_ (.refused (if_pos valid))
    subst valid
    exact (runs_getFileInfo_invalid clientId).bind_error.bind_error
  · have info := mounted.runs_getFileInfo (W := fun _ _ ↦ False) remains valid clientId
    have check : files.assets.check (.remove clientId uid) = _ := if_neg valid
    rw [Files.assets_valid valid] at check
    cases found : files (tfmItsGetFid clientId uid) with
    | none =>
        rw [found] at info check
        exact mounted.serves_silent remains info.bind_error.bind_error (.refused check)
    | some file =>
        rw [found] at info check
        dsimp only [Option.map_some] at check
        by_cases locked : file.asset.isWriteOnce = true
        · refine mounted.serves_silent remains ?_ (.refused (check.trans (if_pos locked)))
          refine (info.bind (runs_ensure_error ?_).bind_error).bind_error
          rw [Asset.isWriteOnce, bne, Bool.not_eq_true'] at locked
          exact locked
        · have allowed := check.trans (if_neg locked)
          have unlocked : (file.info.flags &&& psaStorageFlagWriteOnce == 0) = true := by
            rw [Asset.isWriteOnce, bne, Bool.not_eq_true', Bool.not_eq_false] at locked
            exact locked
          have exists_file : files (tfmItsGetFid clientId uid) ≠ none := by
            rw [found]
            exact Option.some_ne_none file
          obtain ⟨ctx', f', delete, mounted'⟩ := mounted.delete exists_file
          have after : Files.assets (files.delete (tfmItsGetFid clientId uid)) =
              files.assets.put clientId uid none := Files.assets_delete valid
          have pass := delete.mono fun h holds ↦
            (holds.elim (fun before ↦ ⟨files, before, .before⟩)
              fun behind ↦ ⟨_, behind, after ▸ .behind Nat.one_pos allowed⟩ :
              HoldsCut cfg files (.remove clientId uid) h)
          have here : HoldsCut cfg files (.remove clientId uid) f := ⟨files, mounted.holds, .before⟩
          have served := Assets.Answers.served allowed
          refine ⟨_, ctx', f', files.delete (tfmItsGetFid clientId uid), Passes.bind
            ((info.passes_silent here).bind (((runs_ensure unlocked).passes_silent here).bind pass))
            ((runs_pure Reply.done).passes_silent pass.behind), ?_, mounted'.has,
            fun _ _ ↦ mounted'.ready⟩
          rw [after]
          exact served

/-! ## Requests that set an asset -/

theorem Mounted.runs_startSet (mounted : Mounted cfg.fs files ctx f)
    (valid : uid ≠ tfmItsInvalidUid)
    (statics : Statics) (clientId : ClientId) :
    Runs cfg.fs W (startSet cfg statics clientId uid) ctx f
      (match files (tfmItsGetFid clientId uid) with
        | some file => if file.asset.isWriteOnce = true then .error .notPermitted else .ok file.info
        | none => .ok statics.fileInfo) ctx f := by
  have info := mounted.runs_getFileInfo (W := W) mounted.consistent.layout.remains valid clientId
  rw [startSet]
  cases found : files (tfmItsGetFid clientId uid) with
  | none =>
      rw [found] at info
      exact info.result.bind (runs_pure _)
  | some file =>
      rw [found] at info
      refine info.result.bind ?_
      dsimp only
      split
      · next locked =>
          rw [Asset.isWriteOnce, bne, Bool.not_eq_true'] at locked
          exact (runs_ensure_error locked).bind_error
      · next unlocked =>
          rw [Asset.isWriteOnce, bne, Bool.not_eq_true', Bool.not_eq_false] at unlocked
          exact (runs_ensure unlocked).bind (runs_pure _)

theorem Files.assets_withAsset (files : Files cfg.fs) (clientId : ClientId)
    (valid : uid ≠ tfmItsInvalidUid) {createFlags : ℕ} (flags_lt : createFlags < 2 ^ 3)
    (finfo : FileInfo) (dataLength size : ℕ) (input : Bytes) :
    Files.assets (files.withAsset
      (tfmItsGetFid clientId uid) finfo dataLength createFlags size input) =
      files.assets.put clientId uid (some ⟨createFlags, (List.range size).map input⟩) := by
  obtain ⟨-, -, -, -, user, -⟩ := creationFlags_spec flags_lt
  rw [Files.withAsset, Files.assets_update valid, Option.map_some, StoredFile.asset,
    assetFile, user]

/-- So much of the data has been written as the chunks say. -/
theorem holdsCut_of_part {h : Flash} (valid : uid ≠ tfmItsInvalidUid) {dataLength createFlags : ℕ}
    (flags_lt : createFlags < 2 ^ 3) {statics : Statics} {input : Bytes}
    (allowed : files.assets.check (.set statics clientId uid dataLength createFlags input) = .ok ())
    {finfo : FileInfo} (holds : Holds cfg.fs files h ∨
      HoldsPart files (tfmItsGetFid clientId uid) finfo dataLength createFlags input h) :
    HoldsCut cfg files (.set statics clientId uid dataLength createFlags input) h := by
  rcases holds with before | ⟨chunks, some_chunk, behind⟩
  · exact ⟨files, before, .before⟩
  · refine ⟨_, behind, ?_⟩
    rw [files.assets_withAsset clientId valid flags_lt]
    exact .behind some_chunk allowed

theorem passes_tfmItsSet {C : Flash → Prop} (here : C f) (valid : uid ≠ tfmItsInvalidUid)
    {dataLength createFlags : ℕ} (supported : createFlags &&& not32 psaStorageFlags = 0)
    {statics : Statics} {finfo : FileInfo} {input : Bytes}
    (start : Runs cfg.fs (fun _ _ ↦ False) (startSet cfg statics clientId uid) ctx f
      (.ok finfo) ctx f)
    {result : Except Status Unit} {ctx' : Ctx} {f' : Flash}
    (pass : Passes cfg.fs C (setLoop cfg (tfmItsGetFid clientId uid) input (dataLength + 1)
      { finfo with
        sizeMax := dataLength
        flags := creationFlags createFlags } statics.assetData 0 dataLength) ctx f result ctx' f') :
    Passes cfg.fs C
      (tfmItsSet cfg statics clientId uid dataLength createFlags input) ctx f result ctx' f' :=
  ((runs_ensure (bne_iff_ne.2 valid)).passes_silent here).bind
    (((runs_ensure (beq_iff_eq.2 supported)).passes_silent here).bind
      ((start.passes_silent here).bind pass))

/-- A request that is allowed writes all of the data, or there is no room. -/
theorem Mounted.serves_allowed (mounted : Mounted cfg.fs files ctx f)
    (valid : uid ≠ tfmItsInvalidUid)
    {dataLength createFlags : ℕ} (length_lt : dataLength < 2 ^ 32) (flags_lt : createFlags < 2 ^ 3)
    (supported : createFlags &&& not32 psaStorageFlags = 0) {statics : Statics} {finfo : FileInfo}
    {input : Bytes}
    (allowed : files.assets.check (.set statics clientId uid dataLength createFlags input) = .ok ())
    (start : Runs cfg.fs (fun _ _ ↦ False) (startSet cfg statics clientId uid) ctx f
      (.ok finfo) ctx f) :
    Serves cfg files (.set statics clientId uid dataLength createFlags input) ctx f := by
  have layout := mounted.consistent.layout
  have ne_zero : tfmItsGetFid clientId uid ≠ 0 := tfmItsGetFid_ne_zero valid
  obtain ⟨-, -, create, -⟩ := creationFlags_spec flags_lt
  have before : ∀ h, Holds cfg.fs files h →
      HoldsCut cfg files (.set statics clientId uid dataLength createFlags input) h :=
    fun h holds ↦ ⟨files, holds, .before⟩
  have loop := mounted.setLoop ne_zero
    { finfo with
      sizeMax := dataLength
      flags := creationFlags createFlags } flags_lt rfl length_lt rfl input statics.assetData
  split at loop
  · obtain ⟨ctx', f', pass, mounted'⟩ := loop
    have after := fun size ↦ files.assets_withAsset clientId valid flags_lt
      { finfo with
        sizeMax := dataLength
        flags := creationFlags createFlags } dataLength size input
    have pass' := pass.mono fun h ↦ holdsCut_of_part valid flags_lt allowed
    refine ⟨_, ctx', f', _,
      (passes_tfmItsSet (before f mounted.holds) valid supported start pass').bind
      ((runs_pure Reply.done).passes_silent pass'.behind), ?_, mounted'.has,
      fun _ _ ↦ mounted'.ready⟩
    rw [after]
    exact .served allowed
  · next status refused =>
    obtain ⟨f', run, mark⟩ := loop
    have pass := run.passes fun g same ↦ layout.remains_of_within same
    have pass' := pass.mono fun h remains ↦ before h (mounted.remains_holds remains)
    refine ⟨_, ctx, f', files,
      (passes_tfmItsSet (before f mounted.holds) valid supported start pass').bind_error,
      .noRoom allowed rfl (setStatus_error create refused), mounted.has_remains pass.behind,
      fun ready fitting ↦ ?_⟩
    have missing : files (tfmItsGetFid clientId uid) = none := by
      by_contra present
      refine fitting ⟨fun gone ↦ present ?_, allowed, rfl⟩
      rw [Files.assets_valid valid] at gone
      exact Option.map_eq_none_iff.1 gone
    rw [mark.kept.2 (replaces_of_none missing _)]
    exact ready

theorem Mounted.serves_set (mounted : Mounted cfg.fs files ctx f) (statics : Statics)
    (clientId : ClientId) (uid : Uid) {dataLength createFlags : ℕ} (length_lt : dataLength < 2 ^ 32)
    (flags_lt : createFlags < 2 ^ 32) (input : Bytes) :
    Serves cfg files (.set statics clientId uid dataLength createFlags input) ctx f := by
  have remains := mounted.consistent.layout.remains
  by_cases valid : uid = tfmItsInvalidUid
  · refine mounted.serves_silent remains ?_ (.refused (if_pos valid))
    exact (runs_ensure_error (bne_eq_false_iff_eq.2 valid)).bind_error.bind_error
  · have usable : Runs cfg.fs (fun _ _ ↦ False) (ensure (uid != tfmItsInvalidUid) .invalidArgument)
        ctx f (.ok ()) ctx f := runs_ensure (bne_iff_ne.2 valid)
    have check : files.assets.check (.set statics clientId uid dataLength createFlags input) = _ :=
      if_neg valid
    by_cases supported : createFlags &&& not32 psaStorageFlags = 0
    · rw [if_neg (not_not.2 supported), Files.assets_valid valid] at check
      have start := mounted.runs_startSet (W := fun _ _ ↦ False) valid statics clientId
      have small := createFlags_lt flags_lt supported
      cases found : files (tfmItsGetFid clientId uid) with
      | none =>
          rw [found] at start check
          exact mounted.serves_allowed valid length_lt small supported check start
      | some file =>
          rw [found] at start check
          dsimp only [Option.map_some] at start check
          by_cases locked : file.asset.isWriteOnce = true
          · rw [if_pos locked] at start check
            refine mounted.serves_silent remains ?_ (.refused check)
            exact (usable.bind ((runs_ensure (beq_iff_eq.2 supported)).bind
              start.bind_error)).bind_error
          · rw [if_neg locked] at start check
            exact mounted.serves_allowed valid length_lt small supported check start
    · rw [if_pos supported] at check
      refine mounted.serves_silent remains ?_ (.refused check)
      exact (usable.bind
        (runs_ensure_error (beq_eq_false_iff_ne.2 supported)).bind_error).bind_error

end TrustedFirmwareM.Its
