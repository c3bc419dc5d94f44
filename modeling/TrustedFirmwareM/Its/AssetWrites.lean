import TrustedFirmwareM.Its.Service

/-!
# Setting an asset

The data of an asset is written in chunks, and each chunk is a write of the file system.  The first
one creates the file, or replaces it; the later ones cannot be refused.  If the power is lost in
between, the file has the chunks that have been written.
-/

namespace TrustedFirmwareM.Its

variable {cfg : ServiceConfig} {files : Files cfg.fs} {ctx : Ctx} {f : Flash} {fid : FileId}

/-! ## Flags -/

/-- The flags that a client may set. -/
def psaStorageFlags : ℕ :=
  psaStorageFlagWriteOnce ||| psaStorageFlagNoConfidentiality ||| psaStorageFlagNoReplayProtection

/-- The flags that a file is created with. -/
def creationFlags (createFlags : ℕ) : ℕ :=
  createFlags ||| itsFlashFsFlagCreate ||| itsFlashFsFlagTruncate

theorem createFlags_lt {createFlags : ℕ} (bound : createFlags < 2 ^ 32)
    (supported : createFlags &&& not32 psaStorageFlags = 0) : createFlags < 2 ^ 3 := by
  have unsupported : ∀ i < 32, 3 ≤ i → (not32 psaStorageFlags).testBit i = true := by decide
  refine Nat.lt_pow_two_of_testBit _ fun i le ↦ ?_
  by_cases small : i < 32
  · have bit : (createFlags &&& not32 psaStorageFlags).testBit i = false := by
      rw [supported, Nat.zero_testBit]
    rwa [Nat.testBit_and, unsupported i small le, Bool.and_true] at bit
  · exact Nat.testBit_lt_two_pow (bound.trans_le (Nat.pow_le_pow_right (by decide) (by omega)))

/-- The flags of a client are kept apart from those of the file system. -/
theorem creationFlags_spec {createFlags : ℕ} (bound : createFlags < 2 ^ 3) :
    creationFlags createFlags < 2 ^ 32 ∧
      creationFlags createFlags &&& itsFlashFsInternalFlagsMask = 0 ∧
      creationFlags createFlags &&& itsFlashFsFlagCreate ≠ 0 ∧
      creationFlags createFlags &&& itsFlashFsFlagTruncate ≠ 0 ∧
      creationFlags createFlags &&& itsFlashFsUserFlagsMask = createFlags ∧
      creationFlags createFlags &&& not32 (itsFlashFsFlagCreate ||| itsFlashFsFlagTruncate) =
        createFlags ∧
      createFlags &&& itsFlashFsInternalFlagsMask = 0 ∧
      createFlags &&& itsFlashFsFlagTruncate = 0 ∧
      createFlags &&& not32 (itsFlashFsFlagCreate ||| itsFlashFsFlagTruncate) = createFlags := by
  revert createFlags
  decide

/-! ## Identifiers -/

theorem eq_of_bytes {n a b : ℕ} (a_lt : a < 256 ^ n) (b_lt : b < 256 ^ n)
    (same : ∀ i < n, u32Byte a i = u32Byte b i) : a = b := by
  induction n generalizing a b with
  | zero =>
      rw [Nat.pow_zero] at a_lt b_lt
      omega
  | succ n ih =>
      have rest : a / 256 = b / 256 := by
        apply ih
        · rw [Nat.pow_succ] at a_lt
          omega
        · rw [Nat.pow_succ] at b_lt
          omega
        · intro i bound
          have byte := same (i + 1) (Nat.succ_lt_succ bound)
          rw [u32Byte, u32Byte, Nat.pow_succ, Nat.mul_comm, ← Nat.div_div_eq_div_mul,
            ← Nat.div_div_eq_div_mul] at byte
          exact byte
      have first := congrArg UInt8.toNat (same 0 (Nat.succ_pos n))
      rw [u32Byte, u32Byte, Nat.pow_zero, Nat.div_one, Nat.div_one, UInt8.toNat_ofNat',
        UInt8.toNat_ofNat'] at first
      omega

/-- Different assets are different files. -/
theorem tfmItsGetFid_inj {clientId clientId' : ClientId} {uid uid' : Uid}
    (same : tfmItsGetFid clientId uid = tfmItsGetFid clientId' uid') :
    clientId = clientId' ∧ uid = uid' := by
  constructor
  · have lt : clientId.toNat < 256 ^ 4 := clientId.isLt
    have lt' : clientId'.toNat < 256 ^ 4 := clientId'.isLt
    refine BitVec.eq_of_toNat_eq (eq_of_bytes lt lt' fun i bound ↦ ?_)
    have byte := congrFun same ⟨i, by omega⟩
    rw [tfmItsGetFid, tfmItsGetFid, if_pos bound, if_pos bound] at byte
    exact byte
  · have lt : uid.toNat < 256 ^ 8 := uid.isLt
    have lt' : uid'.toNat < 256 ^ 8 := uid'.isLt
    refine BitVec.eq_of_toNat_eq (eq_of_bytes lt lt' fun i bound ↦ ?_)
    have byte := congrFun same ⟨4 + i, by omega⟩
    rw [tfmItsGetFid, tfmItsGetFid, if_neg (Nat.not_lt.2 (Nat.le_add_right 4 i)),
      if_neg (Nat.not_lt.2 (Nat.le_add_right 4 i))] at byte
    simp only [Nat.add_sub_cancel_left] at byte
    exact byte

theorem tfmItsGetFid_ne_zero {clientId : ClientId} {uid : Uid} (valid : uid ≠ tfmItsInvalidUid) :
    tfmItsGetFid clientId uid ≠ 0 := by
  intro zero
  have lt : uid.toNat < 256 ^ 8 := uid.isLt
  have lt' : tfmItsInvalidUid.toNat < 256 ^ 8 := by decide
  refine valid (BitVec.eq_of_toNat_eq (eq_of_bytes lt lt' fun i bound ↦ ?_))
  have byte := congrFun zero ⟨4 + i, by omega⟩
  rw [tfmItsGetFid, if_neg (Nat.not_lt.2 (Nat.le_add_right 4 i))] at byte
  simp only [Nat.add_sub_cancel_left] at byte
  have invalid : tfmItsInvalidUid.toNat = 0 := rfl
  rw [byte, invalid, u32Byte, Nat.zero_div]
  rfl

/-! ## Chunks -/

/-- The file of an asset once so much of its data is written. -/
def assetFile (cfg : ServiceConfig) (finfo : FileInfo) (dataLength createFlags size : ℕ)
    (input : Bytes) : StoredFile cfg.fs where
  maxSize := itsUtilsAlign dataLength cfg.fs.programUnit
  flags := creationFlags createFlags
  data := (List.range size).map input
  nonce := fun i ↦ finfo.nonce i
  tag := fun i ↦ finfo.tag i

/-- The files with an asset once so much of its data is written. -/
def Files.withAsset (files : Files cfg.fs) (fid : FileId) (finfo : FileInfo)
    (dataLength createFlags size : ℕ) (input : Bytes) : Files cfg.fs :=
  Function.update files fid (some (assetFile cfg finfo dataLength createFlags size input))

theorem align_eq (cfg : Config) {size : ℕ} (fits : size + cfg.programUnit ≤ 2 ^ 32) :
    itsUtilsAlign size cfg.programUnit =
      (size + (cfg.programUnit - 1)) / cfg.programUnit * cfg.programUnit := by
  have pos := cfg.programUnit_pos
  rw [cfg.align_eq, add32_eq (by omega)]

theorem align_add (cfg : Config) {offset size : ℕ} (aligned : cfg.programUnit ∣ offset)
    (fits : offset + size + cfg.programUnit ≤ 2 ^ 32) :
    itsUtilsAlign (offset + size) cfg.programUnit =
      offset + itsUtilsAlign size cfg.programUnit := by
  rw [align_eq cfg fits, align_eq cfg (by omega)]
  obtain ⟨k, rfl⟩ := aligned
  rw [Nat.add_assoc, Nat.mul_add_div cfg.programUnit_pos, Nat.add_mul,
    Nat.mul_comm k cfg.programUnit]

theorem align_mono (cfg : Config) {size size' : ℕ} (le : size ≤ size')
    (fits : size' + cfg.programUnit ≤ 2 ^ 32) :
    itsUtilsAlign size cfg.programUnit ≤ itsUtilsAlign size' cfg.programUnit := by
  rw [align_eq cfg fits, align_eq cfg (by omega)]
  exact Nat.mul_le_mul_right _ (Nat.div_le_div_right (by omega))

/-- A chunk that is written behind the others. -/
theorem writeAt_prefix (cfg : Config) {input data : Bytes} (offset size : ℕ)
    (fits : size + cfg.programUnit ≤ 2 ^ 32) (chunk : ∀ i < size, data i = input (offset + i)) :
    writeAt cfg ((List.range offset).map input) offset size data =
      (List.range (offset + size)).map input := by
  have size_le := align_le fits
  rw [writeAt, List.length_map, List.length_range, Nat.max_eq_right (Nat.le_add_right _ _)]
  apply List.map_congr_left
  intro k member
  have bound := List.mem_range.1 member
  by_cases before : k < offset
  · rw [if_pos before,
      List.getD_eq_getElem _ _ (by rw [List.length_map, List.length_range]; exact before),
      List.getElem_map, List.getElem_range]
  · rw [if_neg before, if_pos (by omega), chunk _ (by omega), Nat.add_sub_cancel' (by omega)]

/-! ## The first chunk -/

/-- What a request that sets an asset starts with. -/
theorem startOfWrite_created {room : Bool} {finfo : FileInfo} {base : StoredFile cfg.fs}
    (create : finfo.flags &&& itsFlashFsFlagCreate ≠ 0)
    (truncate : finfo.flags &&& itsFlashFsFlagTruncate ≠ 0)
    (started : startOfWrite files room fid finfo = .ok base) :
    base.maxSize = itsUtilsAlign finfo.sizeMax cfg.fs.programUnit ∧ base.flags = finfo.flags ∧
      base.data = [] := by
  have new : newFileOf cfg.fs finfo room = .ok base →
      base.maxSize = itsUtilsAlign finfo.sizeMax cfg.fs.programUnit ∧ base.flags = finfo.flags ∧
        base.data = [] := by
    intro made
    rw [newFileOf] at made
    split at made
    · split at made
      · cases made
        exact ⟨rfl, rfl, rfl⟩
      · cases made
    · cases made
  rw [startOfWrite] at started
  cases found : files fid with
  | none =>
      rw [found] at started
      dsimp only at started
      rw [if_pos create] at started
      exact new started
  | some file =>
      rw [found] at started
      dsimp only at started
      rw [if_pos truncate] at started
      split at started
      · next same =>
          cases started
          exact ⟨same, rfl, rfl⟩
      · exact new started

/-- The status of a request that sets an asset, once it is permitted. -/
def Files.setStatus (files : Files cfg.fs) (room : Bool) (fid : FileId) (finfo : FileInfo) :
    Except Status Unit :=
  match startOfWrite files room fid finfo with
  | .error status => .error status
  | .ok _ =>
      -- The aligned size wraps around, and there is no space for any data.
      if 2 ^ 32 < finfo.sizeMax + cfg.fs.programUnit then .error .genericError else .ok ()

section

variable {finfo : FileInfo} {createFlags dataLength : ℕ} {input data : Bytes}
  (flags_lt : createFlags < 2 ^ 3) (flags_eq : finfo.flags = creationFlags createFlags)
  (sizeMax_eq : finfo.sizeMax = dataLength) (length_lt : dataLength < 2 ^ 32)
  (chunk : ∀ i < min dataLength cfg.bufSize, data i = input i)

include flags_lt flags_eq sizeMax_eq length_lt chunk

/-- The first chunk. -/
theorem write_first (room : Bool) :
    files.write room fid finfo (min dataLength cfg.bufSize) 0 data =
      (files.setStatus room fid finfo).map fun _ ↦
        files.withAsset fid finfo dataLength createFlags (min dataLength cfg.bufSize) input := by
  obtain ⟨-, internal, create, truncate, -⟩ := creationFlags_spec flags_lt
  rw [← flags_eq] at internal create truncate
  have pos := cfg.fs.programUnit_pos
  have buf_pos := cfg.bufSize_pos
  have buf_le := cfg.bufSize_le
  rw [Files.write, if_pos internal, Files.setStatus]
  cases started : startOfWrite files room fid finfo with
  | error status => rfl
  | ok base =>
      obtain ⟨maxSize_eq, baseFlags_eq, data_eq⟩ := startOfWrite_created create truncate started
      rw [sizeMax_eq] at maxSize_eq ⊢
      dsimp only
      by_cases wraps : 2 ^ 32 < dataLength + cfg.fs.programUnit
      · have size_le : min dataLength cfg.bufSize ≤
            itsUtilsAlign (min dataLength cfg.bufSize) cfg.fs.programUnit := align_le (by omega)
        have space : itsUtilsAlign dataLength cfg.fs.programUnit = 0 := by
          have wrapped : add32 dataLength (cfg.fs.programUnit - 1) < cfg.fs.programUnit := by
            rw [add32]
            omega
          rw [cfg.fs.align_eq, Nat.div_eq_of_lt wrapped, Nat.zero_mul]
        have refused : acceptsData base (min dataLength cfg.bufSize) 0 = false := by
          rw [acceptsData, maxSize_eq, space, Bool.or_eq_false_iff, beq_eq_false_iff_ne,
            Bool.and_eq_false_imp]
          exact ⟨by omega, fun _ ↦ decide_eq_false (by omega)⟩
        rw [if_neg (by rw [refused]; exact Bool.false_ne_true), if_pos wraps]
        rfl
      · have le := align_mono cfg.fs (Nat.min_le_left dataLength cfg.bufSize) (by omega)
        have accepted : acceptsData base (min dataLength cfg.bufSize) 0 = true := by
          rw [acceptsData, maxSize_eq, data_eq, cfg.fs.isAligned_eq, Nat.zero_mod, Nat.zero_add,
            decide_eq_true le, Bool.or_eq_true]
          exact .inr rfl
        have bytes : (if min dataLength cfg.bufSize = 0 then base.data
            else writeAt cfg.fs base.data 0 (min dataLength cfg.bufSize) data) =
              (List.range (min dataLength cfg.bufSize)).map input := by
          rw [data_eq]
          split
          · next empty =>
              rw [empty]
              rfl
          · have first : ∀ i < min dataLength cfg.bufSize, data i = input (0 + i) := by
              intro i bound
              rw [Nat.zero_add]
              exact chunk i bound
            have written := writeAt_prefix cfg.fs 0 (min dataLength cfg.bufSize) (by omega) first
            rw [Nat.zero_add] at written
            exact written
        rw [if_pos accepted, if_neg wraps, bytes, maxSize_eq, baseFlags_eq, flags_eq]
        rfl

end

/-! ## The other chunks -/

/-- The next chunk is not refused. -/
theorem write_next {finfo finfo' : FileInfo} {createFlags dataLength offset size : ℕ}
    {input data : Bytes} (flags_lt : createFlags < 2 ^ 3) (flags_eq : finfo'.flags = createFlags)
    (nonce_eq : finfo'.nonce = finfo.nonce) (tag_eq : finfo'.tag = finfo.tag)
    (fits : dataLength + cfg.fs.programUnit ≤ 2 ^ 32) (aligned : cfg.fs.programUnit ∣ offset)
    (inside : offset + size ≤ dataLength) (chunk : ∀ i < size, data i = input (offset + i))
    (room : Bool) :
    (files.withAsset fid finfo dataLength createFlags offset input).write room fid finfo' size
        offset data =
      .ok (files.withAsset fid finfo dataLength createFlags (offset + size) input) := by
  obtain ⟨-, -, -, -, -, -, internal, truncate, -⟩ := creationFlags_spec flags_lt
  rw [← flags_eq] at internal truncate
  have here : files.withAsset fid finfo dataLength createFlags offset input fid =
      some (assetFile cfg finfo dataLength createFlags offset input) := Function.update_self ..
  have length_eq :
      (assetFile cfg finfo dataLength createFlags offset input).data.length = offset := by
    rw [assetFile, List.length_map, List.length_range]
  have accepted :
      acceptsData (assetFile cfg finfo dataLength createFlags offset input) size offset =
      true := by
    have le : offset + itsUtilsAlign size cfg.fs.programUnit ≤
        itsUtilsAlign dataLength cfg.fs.programUnit := by
      rw [← align_add cfg.fs aligned (by omega)]
      exact align_mono cfg.fs inside fits
    rw [acceptsData, length_eq, cfg.fs.isAligned_eq, Nat.mod_eq_zero_of_dvd aligned,
      decide_eq_true le_rfl, assetFile, decide_eq_true le, Bool.or_eq_true]
    exact .inr rfl
  have bytes : (if size = 0 then (List.range offset).map input
      else writeAt cfg.fs ((List.range offset).map input) offset size data) =
        (List.range (offset + size)).map input := by
    split
    · next empty => rw [empty, Nat.add_zero]
    · exact writeAt_prefix cfg.fs offset size (by omega) chunk
  rw [Files.write, if_pos internal, startOfWrite, here]
  dsimp only
  rw [if_neg (not_not.2 truncate)]
  dsimp only
  rw [if_pos accepted, nonce_eq, tag_eq, Files.withAsset, Files.withAsset, Function.update_idem]
  dsimp only [assetFile]
  rw [bytes]

theorem fits_of_setStatus {room : Bool} {finfo : FileInfo}
    (allowed : files.setStatus room fid finfo = .ok ()) :
    finfo.sizeMax + cfg.fs.programUnit ≤ 2 ^ 32 := by
  rw [Files.setStatus] at allowed
  split at allowed
  · cases allowed
  · split at allowed
    · cases allowed
    · next fits => exact Nat.le_of_not_lt fits

theorem setStatus_error {room : Bool} {finfo : FileInfo} {status : Status}
    (create : finfo.flags &&& itsFlashFsFlagCreate ≠ 0)
    (refused : files.setStatus room fid finfo = .error status) :
    status = .insufficientStorage ∨ status = .invalidArgument ∨ status = .genericError := by
  have new : ∀ status, newFileOf cfg.fs finfo room = .error status →
      status = .insufficientStorage ∨ status = .invalidArgument := by
    intro status failed
    rw [newFileOf] at failed
    split at failed
    · split at failed
      · cases failed
      · cases failed
        exact .inl rfl
    · cases failed
      exact .inr rfl
  rw [Files.setStatus] at refused
  split at refused
  · next status' started =>
      cases refused
      rw [← or_assoc]
      refine .inl (new status ?_)
      rw [startOfWrite] at started
      cases found : files fid with
      | none =>
          rw [found] at started
          dsimp only at started
          rw [if_pos create] at started
          exact started
      | some file =>
          rw [found] at started
          dsimp only at started
          split at started
          · split at started
            · cases started
            · exact started
          · cases started
  · split at refused
    · cases refused
      exact .inr (.inr rfl)
    · cases refused

/-- The flash has the files with some chunks of the data of an asset. -/
def HoldsPart (files : Files cfg.fs) (fid : FileId) (finfo : FileInfo) (dataLength createFlags : ℕ)
    (input : Bytes) (g : Flash) : Prop :=
  ∃ chunks > 0, Holds cfg.fs (files.withAsset fid finfo dataLength createFlags
    (min dataLength (chunks * cfg.bufSize)) input) g

section

variable {finfo : FileInfo} {createFlags dataLength : ℕ} {input : Bytes}

/-- The rest of the data is written. -/
theorem Mounted.passes_setLoop (ne_zero : fid ≠ 0) (flags_lt : createFlags < 2 ^ 3)
    (fits : dataLength + cfg.fs.programUnit ≤ 2 ^ 32) {passes chunks rest : ℕ}
    (some_chunk : 0 < chunks)
    (finfo' : FileInfo) (assetData : Bytes) (flags_eq : finfo'.flags = createFlags)
    (nonce_eq : finfo'.nonce = finfo.nonce) (tag_eq : finfo'.tag = finfo.tag)
    (total : chunks * cfg.bufSize + rest = dataLength)
    (enough : rest < passes)
    (mounted : Mounted cfg.fs
      (files.withAsset fid finfo dataLength createFlags (chunks * cfg.bufSize) input) ctx f) :
    ∃ ctx' f', Passes cfg.fs (HoldsPart files fid finfo dataLength createFlags input)
        (setLoop cfg fid input passes finfo' assetData
          (chunks * cfg.bufSize) rest) ctx f (.ok ()) ctx' f' ∧
      Mounted cfg.fs
        (files.withAsset fid finfo dataLength createFlags dataLength input) ctx' f' := by
  induction passes generalizing ctx f finfo' assetData chunks rest with
  | zero => exact (Nat.not_lt_zero rest enough).elim
  | succ passes ih =>
      have buf_pos := cfg.bufSize_pos
      have buf_le := cfg.bufSize_le
      obtain ⟨-, -, -, -, -, -, -, -, kept⟩ := creationFlags_spec flags_lt
      have size_le : min rest cfg.bufSize ≤ rest := Nat.min_le_left _ _
      have here : min dataLength (chunks * cfg.bufSize) = chunks * cfg.bufSize := by omega
      have next : chunks * cfg.bufSize + min rest cfg.bufSize =
          min dataLength ((chunks + 1) * cfg.bufSize) := by
        rw [Nat.succ_mul]
        omega
      have flags_small : finfo'.flags < 2 ^ 32 := by
        rw [flags_eq]
        exact flags_lt.trans (by decide)
      have step := mounted.write ne_zero flags_small
        (show min rest cfg.bufSize + cfg.fs.programUnit ≤ 2 ^ 32 by omega) (chunks * cfg.bufSize)
        (patch assetData 0 (min rest cfg.bufSize) fun i ↦ input (chunks * cfg.bufSize + i))
      rw [write_next flags_lt flags_eq nonce_eq tag_eq fits (cfg.aligned.mul_left chunks) (by omega)
        fun i bound ↦ by rw [patch_in ⟨Nat.zero_le i, by omega⟩, Nat.sub_zero]] at step
      obtain ⟨ctx₁, f₁, pass, mounted₁⟩ := step
      have pass₁ := pass.mono fun g holds ↦ by
        show HoldsPart files fid finfo dataLength createFlags input g
        rcases holds with before | behind
        · rw [← here] at before
          exact ⟨chunks, some_chunk, before⟩
        · rw [next] at behind
          exact ⟨chunks + 1, Nat.succ_pos chunks, behind⟩
      rw [setLoop]
      by_cases more : rest - min rest cfg.bufSize > 0
      · have size_eq : min rest cfg.bufSize = cfg.bufSize := by omega
        rw [size_eq] at pass₁ mounted₁ more ⊢
        rw [← Nat.succ_mul] at mounted₁
        have total' : (chunks + 1) * cfg.bufSize + (rest - cfg.bufSize) = dataLength := by
          rw [Nat.succ_mul]
          omega
        obtain ⟨ctx₂, f₂, pass₂, mounted₂⟩ := ih (Nat.succ_pos chunks)
          { finfo' with
            flags := finfo'.flags &&& not32 (itsFlashFsFlagCreate ||| itsFlashFsFlagTruncate) }
          (patch assetData 0 cfg.bufSize fun i ↦ input (chunks * cfg.bufSize + i))
          (by rw [flags_eq, kept]) nonce_eq tag_eq total' (by omega) mounted₁
        refine ⟨ctx₂, f₂, pass₁.bind ?_, mounted₂⟩
        dsimp only
        rw [if_pos more, ← Nat.succ_mul]
        exact pass₂
      · have last : chunks * cfg.bufSize + min rest cfg.bufSize = dataLength := by omega
        rw [last] at mounted₁
        refine ⟨ctx₁, f₁, pass₁.bind ?_, mounted₁⟩
        dsimp only
        rw [if_neg more]
        exact (runs_pure ()).passes_silent pass₁.behind

/-- All of the data is written, or the first chunk is refused. -/
theorem Mounted.setLoop (mounted : Mounted cfg.fs files ctx f) (ne_zero : fid ≠ 0)
    (finfo : FileInfo)
    (flags_lt : createFlags < 2 ^ 3) (flags_eq : finfo.flags = creationFlags createFlags)
    (length_lt : dataLength < 2 ^ 32) (sizeMax_eq : finfo.sizeMax = dataLength)
    (input assetData : Bytes) :
    match files.setStatus (hasRoom cfg.fs ctx f (itsUtilsAlign finfo.sizeMax cfg.fs.programUnit)
        (files fid).isSome) fid finfo with
    | .ok _ => ∃ ctx' f', Passes cfg.fs
        (fun g ↦ Holds cfg.fs files g ∨ HoldsPart files fid finfo dataLength createFlags input g)
        (setLoop cfg fid input (dataLength + 1) finfo assetData 0 dataLength) ctx f
          (.ok ()) ctx' f' ∧
        Mounted cfg.fs (files.withAsset fid finfo dataLength createFlags dataLength input) ctx' f'
    | .error status => ∃ f', Runs cfg.fs (ScratchBytes cfg.fs ctx)
        (setLoop cfg fid input (dataLength + 1) finfo assetData 0 dataLength) ctx f
          (.error status) ctx
        f' ∧ LeavesMark files ctx f f' fid finfo := by
  obtain ⟨flags_small, -, -, -, -, later, -⟩ := creationFlags_spec flags_lt
  rw [← flags_eq] at flags_small later
  have buf_pos := cfg.bufSize_pos
  have buf_le := cfg.bufSize_le
  have step := mounted.write ne_zero flags_small
    (show min dataLength cfg.bufSize + cfg.fs.programUnit ≤ 2 ^ 32 by omega) 0
    (patch assetData 0 (min dataLength cfg.bufSize) fun i ↦ input (0 + i))
  have chunk : ∀ i < min dataLength cfg.bufSize,
      patch assetData 0 (min dataLength cfg.bufSize) (fun i ↦ input (0 + i)) i = input i := by
    intro i bound
    rw [patch_in ⟨Nat.zero_le i, by omega⟩, Nat.sub_zero, Nat.zero_add]
  rw [write_first flags_lt flags_eq sizeMax_eq length_lt chunk] at step
  generalize hasRoom cfg.fs ctx f (itsUtilsAlign finfo.sizeMax cfg.fs.programUnit)
    (files fid).isSome = room at step ⊢
  cases allowed : files.setStatus room fid finfo with
  | error status =>
      rw [allowed] at step
      obtain ⟨f', run, mark⟩ := step
      exact ⟨f', run.bind_error, mark⟩
  | ok _ =>
      have fits := fits_of_setStatus allowed
      rw [sizeMax_eq] at fits
      rw [allowed] at step
      obtain ⟨ctx₁, f₁, pass, mounted₁⟩ := step
      have first : min dataLength cfg.bufSize = min dataLength (1 * cfg.bufSize) := by
        rw [Nat.one_mul]
      have pass₁ := pass.mono fun g holds ↦
        (holds.imp_right fun behind ↦ ⟨1, Nat.one_pos, first ▸ behind⟩ :
          Holds cfg.fs files g ∨ HoldsPart files fid finfo dataLength createFlags input g)
      rw [Its.setLoop]
      by_cases more : dataLength - min dataLength cfg.bufSize > 0
      · have size_eq : min dataLength cfg.bufSize = 1 * cfg.bufSize := by omega
        rw [size_eq] at pass₁ mounted₁ more ⊢
        obtain ⟨ctx₂, f₂, pass₂, mounted₂⟩ := mounted₁.passes_setLoop ne_zero flags_lt fits
          (show 0 < 1 from Nat.one_pos)
          { finfo with
            flags := finfo.flags &&& not32 (itsFlashFsFlagCreate ||| itsFlashFsFlagTruncate) }
          (patch assetData 0 (1 * cfg.bufSize) fun i ↦ input (0 + i)) later rfl rfl
          (show 1 * cfg.bufSize + (dataLength - 1 * cfg.bufSize) = dataLength by omega)
          (show dataLength - 1 * cfg.bufSize < dataLength by omega)
        refine ⟨ctx₂, f₂, pass₁.bind ?_, mounted₂⟩
        dsimp only
        rw [if_pos more, Nat.zero_add]
        exact pass₂.mono fun _ ↦ .inr
      · have last : min dataLength cfg.bufSize = dataLength := by omega
        dsimp only at mounted₁
        rw [last] at mounted₁
        refine ⟨ctx₁, f₁, pass₁.bind ?_, mounted₁⟩
        dsimp only
        rw [if_neg more]
        exact (runs_pure ()).passes_silent pass₁.behind

end

end TrustedFirmwareM.Its
