import TrustedFirmwareM.Its.AssetRuns

/-!
# Encrypted assets

The service in the build with encryption: `its_crypto_interface.c` and the functions of
`tfm_internal_trusted_storage.c` that call it, for the clients whose assets are encrypted.  The data
of an asset is encrypted as a whole, under a key of its file, and the nonce and the tag are in the
metadata of the file.  The encryption itself is that of the platform.
-/

namespace TrustedFirmwareM.Its.Encrypted

open Run

variable {cfg : ServiceConfig}

/-! ## The interface of the encryption -/

/-- The errors of `tfm_hal_status_t`. -/
inductive HalError
  | invalidInput
  | other

/-- `tfm_hal_to_psa_error`. -/
def tfmHalToPsaError : HalError → Status
  | .invalidInput => .invalidArgument
  | .other => .genericError

/-- The additional data of a file. -/
structure AdditionalData where
  /-- The identifier of the file. -/
  fid : FileId
  /-- The user flags of the file. -/
  userFlags : ℕ
  /-- The size of the data of the file. -/
  dataSize : ℕ

/-- `tfm_its_fill_enc_add`. -/
def tfmItsFillEncAdd (fid : FileId) (flags dataSize : ℕ) : AdditionalData :=
  ⟨fid, flags &&& itsFlashFsUserFlagsMask, dataSize⟩

/-- The nonce of a file. -/
abbrev Nonce (cfg : Config) : Type := Fin cfg.nonceLength → UInt8

/-- The tag of a file. -/
abbrev Tag (cfg : Config) : Type := Fin cfg.tagLength → UInt8

/-- The authenticated encryption of the platform, under keys that are derived from the identifiers
of the files. -/
structure Aead (cfg : Config) where
  /-- `tfm_hal_its_aead_encrypt`. -/
  encrypt : FileId → Nonce cfg → AdditionalData → List UInt8 →
    Except HalError (List UInt8 × Tag cfg)
  /-- `tfm_hal_its_aead_decrypt`. -/
  decrypt : FileId → Nonce cfg → AdditionalData → List UInt8 → Tag cfg →
    Except HalError (List UInt8)
  /-- Encryption keeps the length of the data. -/
  length_encrypt : ∀ {fid nonce add plain cipher tag},
    encrypt fid nonce add plain = .ok (cipher, tag) → cipher.length = plain.length
  /-- Decryption gives back what was encrypted. -/
  decrypt_encrypt : ∀ {fid nonce add plain cipher tag},
    encrypt fid nonce add plain = .ok (cipher, tag) → decrypt fid nonce add cipher tag = .ok plain

/-- Bytes in a buffer. -/
def buffer {n : ℕ} (bytes : Fin n → UInt8) : Bytes := fun i ↦
  if inside : i < n then bytes ⟨i, inside⟩ else 0

/-- `tfm_its_crypt_file`, with the nonce that `tfm_hal_its_aead_generate_nonce` returns.  It returns
the information of the file and the output. -/
def tfmItsCryptFile {cfg : Config} (aead : Aead cfg) (generated : Except HalError (Nonce cfg))
    (finfo : FileInfo) (fid : FileId) (input : List UInt8) (isEncrypt : Bool) :
    Except Status (FileInfo × List UInt8) :=
  -- The file size is not known yet when encrypting.
  let fileSize := if isEncrypt then input.length else finfo.sizeCurrent
  let add := tfmItsFillEncAdd fid finfo.flags fileSize
  if isEncrypt then
    match generated with
    | .error err => .error (tfmHalToPsaError err)
    | .ok nonce =>
        match aead.encrypt fid nonce add input with
        | .error err => .error (tfmHalToPsaError err)
        | .ok (cipher, tag) =>
            .ok ({ finfo with
              nonce := buffer nonce
              tag := buffer tag
              sizeMax := input.length }, cipher)
  else
    match aead.decrypt fid (fun i ↦ finfo.nonce i) add input (fun i ↦ finfo.tag i) with
    | .error err => .error (tfmHalToPsaError err)
    | .ok plain => .ok (finfo, plain)

/-- Go on with a result. -/
def fromResult {α : Type} : Except Status α → FsM α
  | .ok value => pure value
  | .error status => throw status

/-! ## The service -/

section

variable (cfg) (aead : Aead cfg.fs)

/-- `tfm_its_crypt_data`. -/
def tfmItsCryptData (generated : Except HalError (Nonce cfg.fs)) (fid : FileId) (finfo : FileInfo)
    (input : List UInt8) : FsM (FileInfo × List UInt8) :=
  fromResult (tfmItsCryptFile aead generated finfo fid input true)

/-- `tfm_its_write_data_to_fs`.  It returns the information of the file. -/
def tfmItsWriteDataToFs (generated : Except HalError (Nonce cfg.fs)) (fid : FileId)
    (finfo : FileInfo) (dataSize offset : ℕ) (data encAssetData : Bytes) : FsM FileInfo := do
  -- If the data will be encrypted the whole file needs to be written.
  ensure (offset == 0) .invalidArgument
  let (finfo, cipher) ← tfmItsCryptData cfg aead generated fid finfo
    ((List.range dataSize).map data)
  itsFlashFsFileWrite cfg.fs fid finfo dataSize offset
    (patch encAssetData 0 dataSize fun i ↦ cipher.getD i 0)
  pure finfo

/-- The loop of `tfm_its_set`, with a bound on the number of its passes. -/
def setLoop (generated : Except HalError (Nonce cfg.fs)) (fid : FileId)
    (input encAssetData : Bytes) : ℕ → FileInfo → Bytes → ℕ → ℕ → FsM Unit
  | 0, _, _, _, _ => pure ()
  | passes + 1, finfo, assetData, offset, dataLength => do
      let writeSize := min dataLength cfg.bufSize
      let assetData := patch assetData 0 writeSize fun i ↦ input (offset + i)
      let finfo ← tfmItsWriteDataToFs cfg aead generated fid finfo writeSize offset assetData
        encAssetData
      -- Do not create or truncate after the first iteration.
      let finfo := { finfo with
        flags := finfo.flags &&& not32 (itsFlashFsFlagCreate ||| itsFlashFsFlagTruncate) }
      if dataLength - writeSize > 0 then
        setLoop generated fid input encAssetData passes finfo assetData (offset + writeSize)
          (dataLength - writeSize)

/-- `buffer_size_check`. -/
def bufferSizeCheck (bufferSize : ℕ) : FsM Unit :=
  -- The whole file needs to fit in the global buffer.
  ensure (decide (bufferSize ≤ cfg.bufSize)) .bufferTooSmall

/-- `tfm_its_set`. -/
def tfmItsSet (generated : Except HalError (Nonce cfg.fs)) (statics : Statics)
    (encAssetData : Bytes) (clientId : ClientId) (uid : Uid) (dataLength createFlags : ℕ)
    (input : Bytes) : FsM Unit := do
  ensure (uid != tfmItsInvalidUid) .invalidArgument
  ensure (createFlags &&& not32 psaStorageFlags == 0) .notSupported
  bufferSizeCheck cfg dataLength
  let finfo ← startSet cfg statics clientId uid
  let finfo := { finfo with
    sizeMax := dataLength
    flags := creationFlags createFlags }
  setLoop cfg aead generated (tfmItsGetFid clientId uid) input encAssetData (dataLength + 1) finfo
    statics.assetData 0 dataLength

/-- `tfm_its_get_encrypted`. -/
def tfmItsGetEncrypted (finfo : FileInfo) (fid : FileId) (dataOffset dataSize : ℕ) :
    FsM (List UInt8) := do
  ensure (decide (finfo.sizeMax ≤ cfg.bufSize)) .bufferTooSmall
  -- The whole file needs to be read.
  let encAssetData ← itsFlashFsFileRead cfg.fs fid finfo.sizeCurrent 0
  let (_, assetData) ← fromResult (tfmItsCryptFile aead (.error .other) finfo fid
    ((List.range finfo.sizeCurrent).map encAssetData) false)
  pure ((assetData.drop dataOffset).take dataSize)

/-- `tfm_its_get`. -/
def tfmItsGet (clientId : ClientId) (uid : Uid) (dataOffset dataSize : ℕ) : FsM (List UInt8) := do
  ensure (uid != tfmItsInvalidUid) .invalidArgument
  bufferSizeCheck cfg (add32 dataOffset dataSize)
  let finfo ← getFileInfo cfg uid clientId
  ensure (decide (dataOffset ≤ finfo.sizeCurrent)) .invalidArgument
  let dataSize := min dataSize (finfo.sizeCurrent - dataOffset)
  tfmItsGetEncrypted cfg aead finfo (tfmItsGetFid clientId uid) dataOffset dataSize

/-! ## Encrypted files -/

variable {cfg} {aead}

/-- A file decrypts to an asset. -/
structure Opened (cfg : ServiceConfig) (aead : Aead cfg.fs) (fid : FileId) (createFlags : ℕ)
    (plain : List UInt8) (file : StoredFile cfg.fs) : Prop where
  /-- The user flags are those of the asset. -/
  flags_eq : file.flags &&& itsFlashFsUserFlagsMask = createFlags
  /-- The file is as long as the asset. -/
  length_eq : file.data.length = plain.length
  /-- It fits in the buffers. -/
  maxSize_le : file.maxSize ≤ cfg.bufSize
  /-- Its data decrypts to that of the asset. -/
  decrypts : aead.decrypt fid file.nonce ⟨fid, createFlags, plain.length⟩ file.data file.tag =
    .ok plain

variable {generated : Except HalError (Nonce cfg.fs)} {fid : FileId} {finfo finfo' : FileInfo}
  {plain cipher : List UInt8} {createFlags dataLength : ℕ} {input : Bytes}
  {files : Files cfg.fs} {ctx : Ctx} {f g : Flash} {W : ℕ → ℕ → Prop} {program : FsM Unit}

theorem buffer_fin {n : ℕ} (bytes : Fin n → UInt8) : (fun i : Fin n ↦ buffer bytes i) = bytes := by
  funext i
  exact dif_pos i.isLt

theorem tfmItsCryptFile_ok (crypted : tfmItsCryptFile aead generated finfo fid plain true =
      .ok (finfo', cipher)) :
    ∃ nonce tag, aead.encrypt fid nonce (tfmItsFillEncAdd fid finfo.flags plain.length) plain =
        .ok (cipher, tag) ∧
      finfo' = { finfo with
        nonce := buffer nonce
        tag := buffer tag
        sizeMax := plain.length } := by
  rw [tfmItsCryptFile.eq_def] at crypted
  dsimp only at crypted
  rw [if_pos rfl, if_pos rfl] at crypted
  cases generated with
  | error err => cases crypted
  | ok nonce =>
      dsimp only at crypted
      split at crypted
      · cases crypted
      · next sealed =>
          cases crypted
          exact ⟨nonce, _, sealed, rfl⟩

theorem runs_fromResult (cfg : ServiceConfig) {α : Type} (result : Except Status α) (ctx : Ctx)
    (f : Flash) :
    Runs cfg.fs W (fromResult result) ctx f result ctx f := by
  cases result with
  | error status => exact runs_throw status
  | ok value => exact runs_pure value

theorem map_getD (cipher : List UInt8) {n : ℕ} (length_eq : cipher.length = n) :
    (List.range n).map (fun i ↦ cipher.getD i 0) = cipher := by
  subst length_eq
  refine List.ext_getElem (by rw [List.length_map, List.length_range]) fun i inside inside' ↦ ?_
  rw [List.getElem_map, List.getElem_range, List.getD_eq_getElem _ _ inside']

theorem align_le_bufSize (cfg : ServiceConfig) {size : ℕ} (le : size ≤ cfg.bufSize) :
    itsUtilsAlign size cfg.fs.programUnit ≤ cfg.bufSize := by
  have pos := cfg.fs.programUnit_pos
  have mono := align_mono cfg.fs le cfg.bufSize_le
  obtain ⟨k, eq⟩ := cfg.aligned
  have own : itsUtilsAlign cfg.bufSize cfg.fs.programUnit = cfg.bufSize := by
    rw [align_eq cfg.fs cfg.bufSize_le, eq, Nat.mul_add_div pos,
      Nat.div_eq_of_lt (by omega), Nat.add_zero, Nat.mul_comm]
  rwa [own] at mono

/-- What is written is the encrypted asset. -/
theorem opened_assetFile (flags_lt : createFlags < 2 ^ 3)
    (flags_eq : finfo.flags = creationFlags createFlags) (length_le : plain.length ≤ cfg.bufSize)
    (crypted : tfmItsCryptFile aead generated finfo fid plain true = .ok (finfo', cipher)) :
    Opened cfg aead fid createFlags plain
      (assetFile cfg finfo' plain.length createFlags plain.length fun i ↦ cipher.getD i 0) := by
  obtain ⟨-, -, -, -, user, -⟩ := creationFlags_spec flags_lt
  obtain ⟨nonce, tag, sealed, rfl⟩ := tfmItsCryptFile_ok crypted
  have length_eq : cipher.length = plain.length := aead.length_encrypt sealed
  refine ⟨user, ?_, align_le_bufSize cfg length_le, ?_⟩
  · rw [assetFile, List.length_map, List.length_range]
  · have decrypts := aead.decrypt_encrypt sealed
    rw [tfmItsFillEncAdd, flags_eq, user] at decrypts
    rw [assetFile, map_getD cipher length_eq, buffer_fin, buffer_fin]
    exact decrypts

/-- The files once an asset has been set. -/
def SetTo (cfg : ServiceConfig) (aead : Aead cfg.fs) (files : Files cfg.fs) (fid : FileId)
    (createFlags : ℕ) (plain : List UInt8) (files' : Files cfg.fs) : Prop :=
  ∃ file, files' = Function.update files fid (some file) ∧
    Opened cfg aead fid createFlags plain file

/-- What a flash holds when an asset is being set. -/
def SetCut (cfg : ServiceConfig) (aead : Aead cfg.fs) (files : Files cfg.fs) (fid : FileId)
    (createFlags : ℕ) (plain : List UInt8) (g : Flash) : Prop :=
  Holds cfg.fs files g ∨
    ∃ files', SetTo cfg aead files fid createFlags plain files' ∧ Holds cfg.fs files' g

/-- How a request that sets an asset ends. -/
structure SetEnds (cfg : ServiceConfig) (aead : Aead cfg.fs) (files : Files cfg.fs) (fid : FileId)
    (createFlags : ℕ) (plain : List UInt8) (ctx : Ctx) (f : Flash) (result : Except Status Unit)
    (ctx' : Ctx) (f' : Flash) : Prop where
  /-- The asset is set. -/
  done : result = .ok () → ∃ files', SetTo cfg aead files fid createFlags plain files' ∧
    Mounted cfg.fs files' ctx' f'
  /-- The request is refused, and the files are kept. -/
  refused : ∀ status, result = .error status → ctx' = ctx ∧ Remains cfg.fs ctx f f'

/-- A request that changes nothing. -/
theorem setEnds_silent (layout : Layout cfg.fs ctx f) (status : Status) :
    SetEnds cfg aead files fid createFlags plain ctx f (.error status) ctx f where
  done eq := by cases eq
  refused _ _ := ⟨rfl, layout.remains⟩

/-- The program sets an asset, or it changes nothing. -/
def Sets (cfg : ServiceConfig) (aead : Aead cfg.fs) (files : Files cfg.fs) (fid : FileId)
    (createFlags : ℕ) (plain : List UInt8) (program : FsM Unit) (ctx : Ctx) (f : Flash) : Prop :=
  ∃ result ctx' f',
    Passes cfg.fs (SetCut cfg aead files fid createFlags plain) program ctx f result ctx' f' ∧
      SetEnds cfg aead files fid createFlags plain ctx f result ctx' f'

theorem sets_silent (mounted : Mounted cfg.fs files ctx f) {program : FsM Unit} {status : Status}
    (run : Runs cfg.fs (fun _ _ ↦ False) program ctx f (.error status) ctx f) :
    Sets cfg aead files fid createFlags plain program ctx f :=
  ⟨.error status, ctx, f, run.passes_silent (.inl mounted.holds),
    setEnds_silent mounted.consistent.layout status⟩

theorem Sets.bind (sets : Sets cfg aead files fid createFlags plain program ctx f)
    (mounted : Mounted cfg.fs files ctx f) {α : Type} {first : FsM α} {value : α}
    {rest : α → FsM Unit} (rest_eq : rest value = program)
    (run : Runs cfg.fs (fun _ _ ↦ False) first ctx f (.ok value) ctx f) :
    Sets cfg aead files fid createFlags plain (first >>= rest) ctx f := by
  obtain ⟨result, ctx', f', pass, ends⟩ := sets
  subst rest_eq
  exact ⟨result, ctx', f', (run.passes_silent (.inl mounted.holds)).bind pass, ends⟩

/-- The whole asset is encrypted and written. -/
theorem exists_writeDataToFs (mounted : Mounted cfg.fs files ctx f) (ne_zero : fid ≠ 0)
    (flags_lt : createFlags < 2 ^ 3) (flags_eq : finfo.flags = creationFlags createFlags)
    (length_le : dataLength ≤ cfg.bufSize) (generated : Except HalError (Nonce cfg.fs))
    {data : Bytes} (data_eq : (List.range dataLength).map data = plain) (encAssetData : Bytes) :
    ∃ result ctx' f', Passes cfg.fs (SetCut cfg aead files fid createFlags plain)
        (tfmItsWriteDataToFs cfg aead generated fid finfo dataLength 0 data encAssetData) ctx f
        result ctx' f' ∧
      SetEnds cfg aead files fid createFlags plain ctx f (result.map fun _ ↦ ()) ctx' f' := by
  have layout := mounted.consistent.layout
  have buf_le := cfg.bufSize_le
  have unit_pos := cfg.fs.programUnit_pos
  have here : SetCut cfg aead files fid createFlags plain f := .inl mounted.holds
  have usable : Passes cfg.fs (SetCut cfg aead files fid createFlags plain)
      (ensure (0 == 0) .invalidArgument) ctx f (.ok ()) ctx f :=
    (runs_ensure rfl).passes_silent here
  have crypt := runs_fromResult (W := fun _ _ ↦ False) cfg
    (tfmItsCryptFile aead generated finfo fid plain true) ctx f
  obtain rfl : plain.length = dataLength := by rw [← data_eq, List.length_map, List.length_range]
  rw [tfmItsWriteDataToFs, tfmItsCryptData, data_eq]
  cases crypted : tfmItsCryptFile aead generated finfo fid plain true with
  | error status =>
      rw [crypted] at crypt
      exact ⟨.error status, ctx, f, usable.bind (crypt.passes_silent here).bind_error,
        setEnds_silent layout status⟩
  | ok output =>
      obtain ⟨finfo', cipher⟩ := output
      rw [crypted] at crypt
      have opened := opened_assetFile flags_lt flags_eq length_le crypted
      obtain ⟨nonce, tag, sealed, finfo_eq⟩ := tfmItsCryptFile_ok crypted
      have flags_eq' : finfo'.flags = creationFlags createFlags := by rw [finfo_eq, flags_eq]
      have sizeMax_eq : finfo'.sizeMax = plain.length := by rw [finfo_eq]
      have chunk : ∀ i < min plain.length cfg.bufSize,
          patch encAssetData 0 plain.length (fun i ↦ cipher.getD i 0) i = cipher.getD i 0 := by
        intro i bound
        rw [patch_in ⟨Nat.zero_le i, by omega⟩, Nat.sub_zero]
      have step := mounted.write ne_zero
        (show finfo'.flags < 2 ^ 32 from flags_eq' ▸ (creationFlags_spec flags_lt).1)
        (show plain.length + cfg.fs.programUnit ≤ 2 ^ 32 by omega) 0
        (patch encAssetData 0 plain.length fun i ↦ cipher.getD i 0)
      -- The whole file is in the first chunk.
      have first : ∀ room, files.write room fid finfo' (min plain.length cfg.bufSize) 0
          (patch encAssetData 0 plain.length fun i ↦ cipher.getD i 0) =
          (files.setStatus room fid finfo').map fun _ ↦ files.withAsset fid finfo' plain.length
            createFlags (min plain.length cfg.bufSize) fun i ↦ cipher.getD i 0 :=
        fun room ↦ write_first flags_lt flags_eq' sizeMax_eq
          (show plain.length < 2 ^ 32 by omega) chunk room
      rw [Nat.min_eq_left length_le] at first
      rw [first] at step
      generalize hasRoom cfg.fs ctx f (itsUtilsAlign finfo'.sizeMax cfg.fs.programUnit)
        (files fid).isSome = room at step
      cases allowed : files.setStatus room fid finfo' with
      | error status =>
          rw [allowed] at step
          obtain ⟨f', run, -⟩ := step
          have pass := run.passes fun g same ↦ layout.remains_of_within same
          have refused := (pass.mono fun h remains ↦ Or.inl (mounted.remains_holds remains) :
            Passes cfg.fs (SetCut cfg aead files fid createFlags plain) _ _ _ _ _ _)
          refine ⟨.error status, ctx, f', usable.bind
            ((crypt.passes_silent here).bind refused.bind_error), ?_,
            fun _ _ ↦ ⟨rfl, pass.behind⟩⟩
          intro impossible
          cases impossible
      | ok _ =>
          rw [allowed] at step
          obtain ⟨ctx', f', pass, mounted'⟩ := step
          have done : SetTo cfg aead files fid createFlags plain _ := ⟨_, rfl, opened⟩
          have written := (pass.mono fun h ↦ Or.imp_right fun behind ↦ ⟨_, done, behind⟩ :
            Passes cfg.fs (SetCut cfg aead files fid createFlags plain) _ _ _ _ _ _)
          refine ⟨.ok finfo', ctx', f', usable.bind ((crypt.passes_silent here).bind (written.bind
            ((runs_pure finfo').passes_silent written.behind))), fun _ ↦ ⟨_, done, mounted'⟩, ?_⟩
          intro status impossible
          cases impossible

/-- There is only one pass of the loop. -/
theorem sets_setLoop (mounted : Mounted cfg.fs files ctx f) (ne_zero : fid ≠ 0)
    (flags_lt : createFlags < 2 ^ 3) (flags_eq : finfo.flags = creationFlags createFlags)
    (length_le : dataLength ≤ cfg.bufSize) (generated : Except HalError (Nonce cfg.fs))
    (input assetData encAssetData : Bytes) :
    Sets cfg aead files fid createFlags ((List.range dataLength).map input)
      (setLoop cfg aead generated fid input encAssetData (dataLength + 1) finfo assetData 0
        dataLength) ctx f := by
  have data_eq : (List.range dataLength).map
      (patch assetData 0 dataLength fun i ↦ input (0 + i)) = (List.range dataLength).map input := by
    apply List.map_congr_left
    intro i member
    rw [patch_in ⟨Nat.zero_le i, by have := List.mem_range.1 member; omega⟩, Nat.sub_zero,
      Nat.zero_add]
  obtain ⟨result, ctx', f', pass, ends⟩ := exists_writeDataToFs mounted ne_zero flags_lt flags_eq
    length_le generated data_eq encAssetData
  rw [setLoop]
  dsimp only
  rw [Nat.min_eq_left length_le]
  cases result with
  | error status => exact ⟨.error status, ctx', f', pass.bind_error, ends⟩
  | ok finfo' =>
      refine ⟨.ok (), ctx', f', pass.bind ?_, ends⟩
      rw [if_neg (by omega)]
      exact (runs_pure ()).passes_silent pass.behind

variable (aead) in
/-- A request sets an asset, or it changes nothing. -/
theorem sets_tfmItsSet (mounted : Mounted cfg.fs files ctx f) (flags_lt : createFlags < 2 ^ 32)
    (generated : Except HalError (Nonce cfg.fs)) (statics : Statics) (encAssetData : Bytes)
    (clientId : ClientId) (uid : Uid) (dataLength : ℕ) (input : Bytes) :
    Sets cfg aead files (tfmItsGetFid clientId uid) createFlags ((List.range dataLength).map input)
      (tfmItsSet cfg aead generated statics encAssetData clientId uid dataLength createFlags input)
      ctx f := by
  by_cases valid : uid = tfmItsInvalidUid
  · exact sets_silent mounted (runs_ensure_error (bne_eq_false_iff_eq.2 valid)).bind_error
  · have start := mounted.runs_startSet (W := fun _ _ ↦ False) valid statics clientId
    refine Sets.bind ?_ mounted rfl (runs_ensure (bne_iff_ne.2 valid))
    by_cases supported : createFlags &&& not32 psaStorageFlags = 0
    · refine Sets.bind ?_ mounted rfl (runs_ensure (beq_iff_eq.2 supported))
      by_cases length_le : dataLength ≤ cfg.bufSize
      · refine Sets.bind ?_ mounted rfl (runs_ensure (decide_eq_true length_le))
        split at start
        · split at start
          · exact sets_silent mounted start.bind_error
          · exact (sets_setLoop mounted (tfmItsGetFid_ne_zero valid)
              (createFlags_lt flags_lt supported) rfl length_le generated input statics.assetData
              encAssetData).bind mounted rfl start
        · exact (sets_setLoop mounted (tfmItsGetFid_ne_zero valid)
            (createFlags_lt flags_lt supported) rfl length_le generated input statics.assetData
            encAssetData).bind mounted rfl start
      · exact sets_silent mounted (runs_ensure_error (decide_eq_false length_le)).bind_error
    · exact sets_silent mounted (runs_ensure_error (beq_eq_false_iff_ne.2 supported)).bind_error

/-- A file that decrypts to an asset is read as this asset. -/
theorem Opened.runs_get {clientId : ClientId} {uid : Uid} {file : StoredFile cfg.fs}
    (opened : Opened cfg aead (tfmItsGetFid clientId uid) createFlags plain file)
    (mounted : Mounted cfg.fs files ctx f) (remains : Remains cfg.fs ctx f g)
    (valid : uid ≠ tfmItsInvalidUid) (found : files (tfmItsGetFid clientId uid) = some file)
    {dataOffset dataSize : ℕ} (fits : add32 dataOffset dataSize ≤ cfg.bufSize)
    (inside : dataOffset ≤ plain.length) :
    Runs cfg.fs W (tfmItsGet cfg aead clientId uid dataOffset dataSize) ctx g
      (.ok ((plain.drop dataOffset).take dataSize)) ctx g := by
  have length_eq := opened.length_eq
  have info := mounted.runs_getFileInfo (W := W) remains valid clientId
  rw [found] at info
  obtain ⟨data, read, data_eq⟩ := mounted.read (W := W) remains (tfmItsGetFid_ne_zero valid) found
    (show 0 + file.data.length ≤ file.data.length by omega)
  rw [List.drop_zero, List.take_length] at data_eq
  have user : file.info.flags &&& itsFlashFsUserFlagsMask = createFlags := by
    rw [StoredFile.info, Nat.and_assoc, Nat.and_self, opened.flags_eq]
  have decrypted : tfmItsCryptFile aead (.error .other) file.info (tfmItsGetFid clientId uid)
      file.data false = .ok (file.info, plain) := by
    have decrypts := opened.decrypts
    rw [← buffer_fin file.nonce, ← buffer_fin file.tag, ← length_eq, ← user] at decrypts
    rw [tfmItsCryptFile, if_neg Bool.false_ne_true, if_neg Bool.false_ne_true, tfmItsFillEncAdd]
    exact decrypts ▸ rfl
  have crypt := runs_fromResult (W := W) cfg
    (tfmItsCryptFile aead (.error .other) file.info (tfmItsGetFid clientId uid) file.data false)
    ctx g
  rw [decrypted] at crypt
  have slice : (plain.drop dataOffset).take (min dataSize (file.info.sizeCurrent - dataOffset)) =
      (plain.drop dataOffset).take dataSize := by
    rw [show file.info.sizeCurrent = plain.length from length_eq, ← List.length_drop,
      ← List.take_take, List.take_length]
  refine (runs_ensure (bne_iff_ne.2 valid)).bind ((runs_ensure (decide_eq_true fits)).bind
    (info.bind ((runs_ensure (decide_eq_true (inside.trans_eq length_eq.symm))).bind
      ((runs_ensure (decide_eq_true opened.maxSize_le)).bind (read.bind ?_)))))
  dsimp only
  rw [show file.info.sizeCurrent = file.data.length from rfl, data_eq, decrypted]
  refine crypt.bind ?_
  dsimp only
  rw [show file.data.length = file.info.sizeCurrent from rfl, slice]
  exact runs_pure _

end

/-! ## Requests that set an asset -/

/-- A request that sets an asset. -/
structure SetRequest (cfg : ServiceConfig) where
  /-- What the generator of nonces returns. -/
  generated : Except HalError (Nonce cfg.fs)
  /-- The static data. -/
  statics : Statics
  /-- `enc_asset_data`. -/
  encAssetData : Bytes
  /-- The client. -/
  clientId : ClientId
  /-- The identifier of the asset. -/
  uid : Uid
  /-- The size of the asset. -/
  dataLength : ℕ
  /-- Its flags. -/
  createFlags : ℕ
  /-- Its data. -/
  input : Bytes

/-- The file of the asset. -/
def SetRequest.fid (request : SetRequest cfg) : FileId := tfmItsGetFid request.clientId request.uid

/-- The asset. -/
def SetRequest.plain (request : SetRequest cfg) : List UInt8 :=
  (List.range request.dataLength).map request.input

/-- The program of the request. -/
def SetRequest.program (aead : Aead cfg.fs) (request : SetRequest cfg) : FsM Unit :=
  tfmItsSet cfg aead request.generated request.statics request.encAssetData request.clientId
    request.uid request.dataLength request.createFlags request.input

/-- What a request does to the device if it returns this, or if the power is lost after so many
operations. -/
def SetRequest.serve (aead : Aead cfg.fs) (request : SetRequest cfg) (device : Device)
    (expected : Except Status Unit) (cut : Option ℕ) : Option Device :=
  device.run cfg.fs true (fun result ↦ if result = expected then some true else none)
    (request.program aead) cut

section

variable {aead : Aead cfg.fs} {files files' : Files cfg.fs} {device : Device} {x y : Session}
  {request : SetRequest cfg} {expected : Except Status Unit} {cut : Option ℕ}

/-- A request that sets an asset returns without an error, or it is cut off.  The files are those
from before, or one of them has become the asset.  If the request returns, the asset is set. -/
theorem Mounted.set_whole (here : Mounted cfg.fs files x.device.ctx x.device.flash)
    (flags_lt : request.createFlags < 2 ^ 32)
    (set_eq : request.serve aead x.device expected cut = some device)
    (returned : cut = none → expected = .ok ()) :
    ∃ files', (Session.mk device false).Has (some files') ∧
      (request.uid ≠ tfmItsInvalidUid ∧
          SetTo cfg aead files request.fid request.createFlags request.plain files' ∨
        files' = files ∧ cut ≠ none) := by
  have unmounted_has : ∀ {files' : Files cfg.fs}, device.mounted = false →
      Holds cfg.fs files' device.flash → (Session.mk device false).Has (some files') :=
    fun unmounted holds ↦
      Session.has_of_unmounted unmounted (Device.has_of_unmounted unmounted holds)
  by_cases invalid : request.uid = tfmItsInvalidUid
  · have run : Runs cfg.fs (fun _ _ ↦ False) (request.program aead) x.device.ctx x.device.flash
        (.error .invalidArgument) x.device.ctx x.device.flash :=
      (runs_ensure_error (bne_eq_false_iff_eq.2 invalid)).bind_error
    rcases Device.run_passes set_eq (run.passes_silent here.holds) with
      ⟨rfl, flag, flag_eq, rfl⟩ | ⟨n, rfl, unmounted, before⟩
    · rw [returned rfl] at flag_eq
      cases flag_eq
    · exact ⟨files, unmounted_has unmounted before, .inr ⟨rfl, Option.some_ne_none n⟩⟩
  · obtain ⟨result, ctx', f', pass, ends⟩ := sets_tfmItsSet aead here flags_lt
      request.generated request.statics request.encAssetData request.clientId request.uid
      request.dataLength request.input
    rcases Device.run_passes set_eq pass with
      ⟨rfl, flag, flag_eq, rfl⟩ | ⟨n, rfl, unmounted, before | ⟨files', done, holds⟩⟩
    · have flag_eq' : (if result = expected then some true else none) = some flag := flag_eq
      rw [returned rfl] at flag_eq'
      split at flag_eq'
      · next same =>
          obtain ⟨files', done, mounted'⟩ := ends.done same
          exact ⟨files', mounted'.session, .inl ⟨invalid, done⟩⟩
      · cases flag_eq'
    · exact ⟨files, unmounted_has unmounted before, .inr ⟨rfl, Option.some_ne_none n⟩⟩
    · exact ⟨files', unmounted_has unmounted holds, .inl ⟨invalid, done⟩⟩

/-! ## What is read later -/

variable {events : List Event} (config : ValidConfig cfg.fs) (eraseVal_ne : cfg.fs.eraseVal ≠ 1)
  (some_file : 0 < cfg.fs.maxNumFiles)
  (exec_eq : Run.exec (Session.step cfg.fs) ⟨device, false⟩ events = some y)
  (allowed : Allowed (Session.step cfg.fs) (Event.Sound cfg.fs) ⟨device, false⟩ events)
  (others : ∀ event ∈ events, ¬event.call.Addresses request.fid)

include config eraseVal_ne some_file exec_eq allowed others

/-- The file of an asset is kept by what happens to other files. -/
theorem exists_kept (has : (Session.mk device false).Has (some files)) :
    ∃ files' : Files cfg.fs, y.device.Has (some files') ∧
      files' request.fid = files request.fid := by
  obtain ⟨state, follows, has'⟩ := has.exec config eraseVal_ne some_file exec_eq allowed
  obtain ⟨files', rfl, same⟩ := Follows.file_eq follows others
  exact ⟨files', has'.device, same⟩

/-- So the asset is read as it was set. -/
theorem SetTo.runs_get
    (done : SetTo cfg aead files request.fid request.createFlags request.plain files')
    (valid : request.uid ≠ tfmItsInvalidUid) (has : (Session.mk device false).Has (some files'))
    (mounted : y.device.mounted = true) {dataOffset dataSize : ℕ}
    (fits : add32 dataOffset dataSize ≤ cfg.bufSize) (inside : dataOffset ≤ request.dataLength) :
    Runs cfg.fs (fun _ _ ↦ False)
      (tfmItsGet cfg aead request.clientId request.uid dataOffset dataSize)
      y.device.ctx y.device.flash
      (.ok ((request.plain.drop dataOffset).take dataSize)) y.device.ctx y.device.flash := by
  obtain ⟨file, rfl, opened⟩ := done
  obtain ⟨files'', has', same⟩ :=
    exists_kept config eraseVal_ne some_file exec_eq allowed others has
  rw [Function.update_self] at same
  rw [Device.Has, if_pos mounted] at has'
  obtain ⟨f, within, remains⟩ := has'
  refine opened.runs_get within remains valid same fits ?_
  rw [SetRequest.plain, List.length_map, List.length_range]
  exact inside

/-- An asset that has been set is read as it was, whatever happens to other files in between, and
wherever the power is lost meanwhile. -/
theorem reads_encrypted (before : x.Settled cfg.fs) (flags_lt : request.createFlags < 2 ^ 32)
    (set_eq : request.serve aead x.device (.ok ()) none = some device)
    (mounted : y.device.mounted = true) {dataOffset dataSize : ℕ}
    (fits : add32 dataOffset dataSize ≤ cfg.bufSize) (inside : dataOffset ≤ request.dataLength) :
    Runs cfg.fs (fun _ _ ↦ False)
      (tfmItsGet cfg aead request.clientId request.uid dataOffset dataSize)
      y.device.ctx y.device.flash
      (.ok ((request.plain.drop dataOffset).take dataSize)) y.device.ctx y.device.flash := by
  have here := before.mounted_files config eraseVal_ne some_file
  obtain ⟨files', has', ⟨valid, done⟩ | ⟨-, lost⟩⟩ :=
    Mounted.set_whole here flags_lt set_eq fun _ ↦ rfl
  · exact done.runs_get config eraseVal_ne some_file exec_eq allowed others valid has' mounted fits
      inside
  · exact (lost rfl).elim

/-- If the power is lost while an asset is set, then it is read later as it was to be set, or its
file is the one from before. -/
theorem reads_encrypted_lost (before : x.Settled cfg.fs) (flags_lt : request.createFlags < 2 ^ 32)
    {operations : ℕ}
    (set_eq : request.serve aead x.device expected (some operations) = some device)
    (mounted : y.device.mounted = true) {dataOffset dataSize : ℕ}
    (fits : add32 dataOffset dataSize ≤ cfg.bufSize) (inside : dataOffset ≤ request.dataLength) :
    (∃ files' : Files cfg.fs, y.device.Has (some files') ∧
      files' request.fid = x.device.files cfg.fs request.fid) ∨
    Runs cfg.fs (fun _ _ ↦ False)
      (tfmItsGet cfg aead request.clientId request.uid dataOffset dataSize)
      y.device.ctx y.device.flash
      (.ok ((request.plain.drop dataOffset).take dataSize)) y.device.ctx y.device.flash := by
  have here := before.mounted_files config eraseVal_ne some_file
  obtain ⟨files', has', ⟨valid, done⟩ | ⟨rfl, -⟩⟩ :=
    Mounted.set_whole here flags_lt set_eq fun returned ↦ by cases returned
  · exact .inr (done.runs_get config eraseVal_ne some_file exec_eq allowed others valid has' mounted
      fits inside)
  · exact .inl (exists_kept config eraseVal_ne some_file exec_eq allowed others has')

end

/-! ## A small service -/

/-- The small flash with a nonce and a tag for each file. -/
def sealedFlash : Config :=
  { smallFlash with
    blockSize := 200
    blockSize_lt := by decide
    nonceLength := 2
    tagLength := 2 }

/-- A service whose buffer takes every file. -/
def sealedService : ServiceConfig where
  fs := sealedFlash
  bufSize := sealedFlash.maxFileSize
  bufSize_pos := by decide
  aligned := by decide
  bufSize_le := by decide

/-- The byte that the data of a file is added to. -/
def smallKey (fid : FileId) (nonce : Nonce sealedFlash) : UInt8 := fid 0 ^^^ nonce ⟨0, by decide⟩

/-- A checksum of the data and of what is authenticated with it. -/
def smallTag (nonce : Nonce sealedFlash) (add : AdditionalData) (cipher : List UInt8) :
    Tag sealedFlash := fun i ↦
  cipher.foldl (· + ·) (nonce ⟨i, i.isLt⟩ + UInt8.ofNat (add.dataSize + add.userFlags))

theorem xor_twice (key : UInt8) (bytes : List UInt8) :
    (bytes.map (· ^^^ key)).map (· ^^^ key) = bytes := by
  rw [List.map_map]
  refine (List.map_congr_left fun byte _ ↦ ?_).trans (List.map_id bytes)
  rw [Function.comp_apply, UInt8.xor_assoc, UInt8.xor_self, UInt8.xor_zero, id]

/-- A small encryption. -/
def smallAead : Aead sealedFlash where
  encrypt fid nonce add plain :=
    let cipher := plain.map (· ^^^ smallKey fid nonce)
    .ok (cipher, smallTag nonce add cipher)
  decrypt fid nonce add cipher tag :=
    if ∀ i, tag i = smallTag nonce add cipher i then
      .ok (cipher.map (· ^^^ smallKey fid nonce))
    else .error .other
  length_encrypt eq := by
    cases eq
    exact List.length_map _
  decrypt_encrypt eq := by
    cases eq
    rw [if_pos fun _ ↦ rfl, xor_twice]

/-- An asset of four bytes. -/
def sealedRequest : SetRequest sealedService where
  generated := .ok fun i ↦ UInt8.ofNat (3 + i)
  statics := ⟨smallFile, fun _ ↦ 0⟩
  encAssetData := fun _ ↦ 0
  clientId := 1
  uid := 7
  dataLength := 4
  createFlags := 0
  input := fun i ↦ UInt8.ofNat (10 + i)

/-- A session of a device that has been wiped and mounted. -/
@[irreducible]
def sealedSession : Session :=
  (Run.exec (Session.step sealedFlash) (.start newDevice)
    [⟨.wipeAll, none⟩, ⟨.prepare, none⟩]).getD (.start newDevice)

theorem exec_sealedSession : Run.exec (Session.step sealedFlash) (.start newDevice)
    [⟨.wipeAll, none⟩, ⟨.prepare, none⟩] = some sealedSession := by
  have returns : (Run.exec (Session.step sealedFlash) (.start newDevice)
      [⟨.wipeAll, none⟩, ⟨.prepare, none⟩]).isSome = true := by decide +kernel
  unfold sealedSession
  exact (Option.getD_of_ne_none (Option.isSome_iff_ne_none.1 returns) _).symm

theorem sealedFlash_valid : ValidConfig sealedFlash := validConfig_of_validate (by decide)

theorem sealedSession_settled : sealedSession.Settled sealedFlash where
  reached := ⟨newDevice, none, ⟨rfl, refused_of_erased fun _ _ _ _ ↦ rfl⟩, exec_reaches
    exec_sealedSession ⟨trivial, fun _ _ ↦ ⟨trivial, fun _ _ ↦ trivial⟩⟩⟩
  mounted := by decide +kernel
  settled := by decide +kernel

/-- The device once the asset is set, or once the power has been lost meanwhile. -/
@[irreducible]
def setDevice (cut : Option ℕ) : Device :=
  (sealedRequest.serve smallAead sealedSession.device (.ok ()) cut).getD newDevice

theorem set_setDevice {cut : Option ℕ}
    (returns : (sealedRequest.serve smallAead sealedSession.device (.ok ()) cut).isSome = true) :
    sealedRequest.serve smallAead sealedSession.device (.ok ()) cut = some (setDevice cut) := by
  unfold setDevice
  exact (Option.getD_of_ne_none (Option.isSome_iff_ne_none.1 returns) newDevice).symm

/-- Another file is written, and the power is lost. -/
def sealedHistory : List Event :=
  [⟨.prepare, none⟩, ⟨.write (fun _ ↦ 2) smallFile 3 0 fun _ ↦ 5, some 9⟩, ⟨.prepare, none⟩]

theorem sealedHistory_others :
    ∀ event ∈ sealedHistory, ¬event.call.Addresses sealedRequest.fid := by
  intro event member
  rcases List.mem_cons.1 member with rfl | rest
  · exact id
  · rcases List.mem_cons.1 rest with rfl | last
    · have ne : (fun _ ↦ 2 : FileId) ≠ sealedRequest.fid := by decide +kernel
      exact ne
    · rw [List.mem_singleton.1 last]
      exact id

theorem allowed_sealedHistory {x : Session}
    (test : allowedBy (Session.step sealedFlash)
      (fun x event ↦ decide (event.Sound sealedFlash x)) x sealedHistory = true) :
    Allowed (Session.step sealedFlash) (Event.Sound sealedFlash) x sealedHistory :=
  allowed_of_decide test

theorem reads_encrypted_small : ∃ y : Session, Runs sealedFlash (fun _ _ ↦ False)
    (tfmItsGet sealedService smallAead 1 7 1 3) y.device.ctx y.device.flash (.ok [11, 12, 13])
      y.device.ctx y.device.flash := by
  have returns : ((Run.exec (Session.step sealedService.fs) ⟨setDevice none, false⟩
      sealedHistory).any fun y ↦ y.device.mounted) = true := by decide +kernel
  obtain ⟨y, exec_eq, mounted⟩ := (Option.any_eq_true ..).1 returns
  exact ⟨y, reads_encrypted sealedFlash_valid (by decide) (by decide) exec_eq
    (allowed_sealedHistory (by decide +kernel)) sealedHistory_others sealedSession_settled
    (by decide) (set_setDevice (by decide +kernel)) mounted (by decide) (by decide)⟩

theorem reads_encrypted_lost_small : ∃ y : Session,
    (∃ files' : Files sealedFlash, y.device.Has (some files') ∧
      files' sealedRequest.fid = sealedSession.device.files sealedFlash sealedRequest.fid) ∨
    Runs sealedFlash (fun _ _ ↦ False)
      (tfmItsGet sealedService smallAead 1 7 1 3) y.device.ctx y.device.flash (.ok [11, 12, 13])
        y.device.ctx y.device.flash := by
  have returns : ((Run.exec (Session.step sealedService.fs) ⟨setDevice (some 9), false⟩
      sealedHistory).any fun y ↦ y.device.mounted) = true := by decide +kernel
  obtain ⟨y, exec_eq, mounted⟩ := (Option.any_eq_true ..).1 returns
  exact ⟨y, reads_encrypted_lost sealedFlash_valid (by decide) (by decide) exec_eq
    (allowed_sealedHistory (by decide +kernel)) sealedHistory_others sealedSession_settled
    (by decide) (set_setDevice (by decide +kernel)) mounted (by decide) (by decide)⟩

end TrustedFirmwareM.Its.Encrypted
