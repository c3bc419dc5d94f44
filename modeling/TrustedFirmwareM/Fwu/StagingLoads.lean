import TrustedFirmwareM.Fwu.Staging

/-!
# Loading blocks

A block is loaded chunk by chunk, until the flash refuses a chunk.  The bytes that the flash has
taken are counted, and the records of other components do not change.
-/

namespace TrustedFirmwareM.Fwu.Staging

open Bl2.FlashMap
open Mcuboot (psaErrorStorageFailure)

variable {P : Platform} {n : ℕ}

/-- The chunks of a block that a buffer of a size takes, with the size of the block as fuel. -/
def chunksOf (size : ℕ) : ℕ → List (BitVec 8) → List (List (BitVec 8))
  | 0, _ => []
  | fuel + 1, bytes =>
      if bytes.length = 0 then [] else bytes.take size :: chunksOf size fuel (bytes.drop size)

/-- The chunks that a block is loaded in. -/
def chunks (E : Setup P n) (block : List (BitVec 8)) : List (List (BitVec 8)) :=
  if E.mmIovec then if block.length = 0 then [] else [block]
  else chunksOf E.config.bufSize block.length block

/-- The number of bytes of chunks that the flash takes, before the first chunk that it refuses. -/
def takenBytes (area : FlashArea P) : Word → List (List (BitVec 8)) → State → ℕ
  | _, [], _ => 0
  | off, chunk :: rest, s =>
      match flashAreaWrite area off (bytesOf chunk) (BitVec.ofNat 32 chunk.length) s with
      | (.ok _, t) => chunk.length + takenBytes area (off + BitVec.ofNat 32 chunk.length) rest t
      | (.error _, _) => 0

/-! ## Steps -/

section Steps

variable {α β : Type} {status : PsaStatus} {s t : Store P n}

@[simp] theorem failIf_bind_apply {p : Prop} [Decidable p] {next : Unit → StoreM P n β} :
    (failIf status p >>= next) s = if p then (.error status, s) else next () s := by
  rw [failIf]
  split_ifs
  · rfl
  · rfl

@[simp] theorem orFail_bind_apply {value : Option α} {next : α → StoreM P n β} :
    (orFail status value >>= next) s =
      match value with
      | none => (.error status, s)
      | some x => next x s := by
  cases value with
  | none => rfl
  | some x => rfl

@[simp] theorem onFlash_bind_apply {x : FlashM α} {next : α → StoreM P n β} :
    (onFlash status x >>= next) s =
      match x s.flash with
      | (.ok value, flash) => next value { s with flash }
      | (.error _, flash) => (.error status, { s with flash }) := by
  simp only [Bind.bind, onFlash]
  rcases x s.flash with ⟨value | value, flash⟩
  · rfl
  · rfl

theorem component?_eq_some {msg : Message} {c : Fin n} :
    msg.component? = some c ↔ msg.component = c := by
  rw [Message.component?]
  split_ifs with valid
  · simp [Fin.ext_iff]
  · simp only [false_iff]
    intro eq
    exact valid (eq ▸ c.isLt)

end Steps

/-! ## Loading -/

section Loading

variable {c : Fin n} {area : FlashArea P} {off : Word} {s : Store P n}

/-- Load chunks one behind another. -/
def loadChunks (c : Fin n) : Word → List (List (BitVec 8)) → StoreM P n Unit
  | _, [] => pure ()
  | off, chunk :: rest => do
      fwuBootloaderLoadImage c off chunk
      loadChunks c (off + BitVec.ofNat 32 chunk.length) rest

/-- A chunk has been loaded. -/
def Store.load (s : Store P n) (c : Fin n) (area : FlashArea P) (len : ℕ) (flash : State) :
    Store P n :=
  { s with
    flash
    mcubootCtx := Function.update s.mcubootCtx c
      ⟨some area, (s.mcubootCtx c).loadedSize + BitVec.ofNat 32 len⟩ }

@[simp] theorem load_self {len : ℕ} {flash : State} : (s.load c area len flash).mcubootCtx c =
    ⟨some area, (s.mcubootCtx c).loadedSize + BitVec.ofNat 32 len⟩ :=
  Function.update_self ..

theorem load_other {d : Fin n} {len : ℕ} {flash : State} (ne : d ≠ c) :
    (s.load c area len flash).mcubootCtx d = s.mcubootCtx d :=
  Function.update_of_ne ne ..

theorem loadImage_apply (off : Word) (chunk : List (BitVec 8))
    (fap : (s.mcubootCtx c).fap = some area) :
    fwuBootloaderLoadImage c off chunk s =
      match flashAreaWrite area off (bytesOf chunk) (BitVec.ofNat 32 chunk.length) s.flash with
      | (.ok _, flash) => (.ok (), s.load c area chunk.length flash)
      | (.error _, flash) => (.error psaErrorStorageFailure, { s with flash }) := by
  rw [fwuBootloaderLoadImage, withStore, fap]
  simp only [orFail_bind_apply, onFlash_bind_apply]
  rcases flashAreaWrite area off (bytesOf chunk) (BitVec.ofNat 32 chunk.length) s.flash
    with ⟨value | value, flash⟩
  · rfl
  · rfl

theorem chunksOf_spec {size : ℕ} (size_pos : 0 < size) (fuel : ℕ) (bytes : List (BitVec 8))
    (enough : bytes.length ≤ fuel) :
    (chunksOf size fuel bytes).flatten = bytes := by
  induction fuel generalizing bytes with
  | zero => exact (List.eq_nil_of_length_eq_zero (Nat.le_zero.1 enough)).symm
  | succ fuel ih =>
      rw [chunksOf]
      split_ifs with empty
      · exact (List.eq_nil_of_length_eq_zero empty).symm
      · rw [List.flatten_cons, ih, List.take_append_drop]
        rw [List.length_drop]
        omega

theorem writeLoop_eq (E : Setup P n) (fuel : ℕ) (off : Word) (bytes : List (BitVec 8)) :
    writeLoop E c fuel off bytes.length bytes =
      loadChunks c off (chunksOf E.config.bufSize fuel bytes) := by
  induction fuel generalizing off bytes with
  | zero => rfl
  | succ fuel ih =>
      have size : (if E.config.bufSize ≤ bytes.length then E.config.bufSize else bytes.length) =
          (bytes.take E.config.bufSize).length := by
        rw [List.length_take]
        split_ifs with large <;> omega
      have same : bytes.take (bytes.take E.config.bufSize).length =
          bytes.take E.config.bufSize := by
        simp
      have rest : bytes.length - (bytes.take E.config.bufSize).length =
          (bytes.drop E.config.bufSize).length := by
        simp
        omega
      have dropped : bytes.drop (bytes.take E.config.bufSize).length =
          bytes.drop E.config.bufSize := by
        rw [List.length_take]
        rcases Nat.le_total E.config.bufSize bytes.length with le | le
        · rw [Nat.min_eq_left le]
        · rw [Nat.min_eq_right le, List.drop_length, List.drop_eq_nil_of_le le]
      rw [writeLoop, chunksOf]
      dsimp only
      rw [size, same, rest, dropped, ih]
      split_ifs with more empty empty
      · omega
      · rw [failIf, if_neg (not_not.2 rfl), Fallible.pure_bind]
        rfl
      · rfl
      · omega

theorem writeBlock_eq (E : Setup P n) (off : Word) (block : List (BitVec 8)) :
    writeBlock E c off block = loadChunks c off (chunks E block) := by
  rw [writeBlock, chunks]
  split_ifs with whole more empty empty
  · omega
  · funext s
    rw [loadChunks, loadChunks]
    simp only [Bind.bind]
    rcases fwuBootloaderLoadImage c off block s with ⟨value | value, t⟩
    · rfl
    · rfl
  · rfl
  · omega
  · exact writeLoop_eq E block.length off block

theorem chunks_flatten (E : Setup P n) (block : List (BitVec 8)) :
    (chunks E block).flatten = block := by
  rw [chunks]
  split_ifs with whole empty
  · exact (List.eq_nil_of_length_eq_zero empty).symm
  · exact List.append_nil block
  · exact chunksOf_spec E.bufSize_pos block.length block (Nat.le_refl _)

theorem inArea_of_flashAreaWrite {src : ℕ → BitVec 8} {len : Word} {flash flash' : State}
    (written : flashAreaWrite area off src len flash = (.ok (), flash')) : InArea area off len := by
  by_contra outside
  rw [flashAreaWrite_of_not_inArea outside] at written
  cases written

/-- What loading chunks does. -/
structure Loaded (c : Fin n) (area : FlashArea P) (off : Word) (total taken : ℕ) (s : Store P n)
    (value : Except PsaStatus Unit) (t : Store P n) : Prop where
  /-- The service does not change. -/
  fwuCtx : t.fwuCtx = s.fwuCtx
  /-- Other components do not change. -/
  other : ∀ d ≠ c, t.mcubootCtx d = s.mcubootCtx d
  /-- The bytes that the flash has taken are counted. -/
  self : t.mcubootCtx c = ⟨some area, (s.mcubootCtx c).loadedSize + BitVec.ofNat 32 taken⟩
  /-- All of the bytes have been taken. -/
  all : value = .ok () → taken = total
  /-- The bytes are in the slot. -/
  inside : value = .ok () → 0 < total → off.toNat + total ≤ area.faSize.toNat

theorem loadChunks_holds (blocks : List (List (BitVec 8))) (off : Word) (s : Store P n)
    (fap : (s.mcubootCtx c).fap = some area) (small : blocks.flatten.length < 2 ^ 32) :
    (loadChunks c off blocks).Holds s (Loaded c area off blocks.flatten.length
      (takenBytes area off blocks s.flash) s) := by
  induction blocks generalizing off s with
  | nil =>
      constructor
      · rfl
      · intro d _
        rfl
      · simp [takenBytes, loadChunks, ← fap]
        rfl
      · intro _
        rfl
      · intro _ positive
        cases positive
  | cons chunk rest ih =>
      rw [List.flatten_cons, List.length_append] at small ⊢
      rw [loadChunks, takenBytes]
      have image := loadImage_apply off chunk fap
      rcases written : flashAreaWrite area off (bytesOf chunk) (BitVec.ofNat 32 chunk.length)
        s.flash with ⟨value | value, flash⟩
      · rw [written] at image
        rw [Fallible.Holds, Fallible.bind_of_error image]
        constructor
        · rfl
        · intro d _
          rfl
        · simp [← fap]
        · intro ok
          cases ok
        · intro ok
          cases ok
      · rw [written] at image
        have range := inArea_of_flashAreaWrite written
        have length : (BitVec.ofNat 32 chunk.length).toNat = chunk.length :=
          Nat.mod_eq_of_lt (Nat.lt_of_le_of_lt (Nat.le_add_right _ _) small)
        have size_lt := area.faSize.isLt
        rw [InArea, length] at range
        have behind : (off + BitVec.ofNat 32 chunk.length).toNat = off.toNat + chunk.length := by
          rw [BitVec.toNat_add, length, Nat.mod_eq_of_lt (by omega)]
        rw [Fallible.Holds, Fallible.bind_of_ok image]
        have loaded := ih (off + BitVec.ofNat 32 chunk.length) (s.load c area chunk.length flash)
          (by rw [load_self]) (by omega)
        constructor
        · exact loaded.fwuCtx
        · intro d ne
          rw [loaded.other d ne, load_other ne]
        · rw [loaded.self, load_self, BitVec.ofNat_add, BitVec.add_assoc]
          rfl
        · intro ok
          exact congrArg (chunk.length + ·) (loaded.all ok)
        · intro ok _
          rcases Nat.eq_zero_or_pos rest.flatten.length with none | some
          · omega
          · have inside := loaded.inside ok some
            omega

end Loading

/-! ## Other components -/

section Keeps

variable {α β : Type} {c d : Fin n} {s t u : Store P n} {status : PsaStatus} {E : Setup P n}
  {a : Answers P} {msg : Message}

/-- The records of a component do not change. -/
structure Kept (c : Fin n) (s t : Store P n) : Prop where
  /-- The record of the bootloader abstraction. -/
  mcubootCtx : t.mcubootCtx c = s.mcubootCtx c
  /-- The record of the service. -/
  fwuCtx : t.fwuCtx c = s.fwuCtx c

/-- A program leaves the records of a component alone. -/
def Keeps (c : Fin n) (x : StoreM P n α) : Prop := ∀ s, x.Holds s fun _ t ↦ Kept c s t

theorem Keeps.during {x : StoreM P n α} (keeps : Keeps c x) (a : Answers P) :
    Kept c s (x (s.during a)).2 := by
  have kept : Kept c (s.during a) (x (s.during a)).2 := keeps (s.during a)
  exact ⟨kept.mcubootCtx, kept.fwuCtx⟩

theorem Kept.trans (first : Kept c s t) (second : Kept c t u) : Kept c s u :=
  ⟨second.mcubootCtx.trans first.mcubootCtx, second.fwuCtx.trans first.fwuCtx⟩

theorem keeps_pure {x : α} : Keeps c (pure x : StoreM P n α) := fun _ ↦ ⟨rfl, rfl⟩

theorem keeps_fail : Keeps c (Fallible.fail status : StoreM P n α) := fun _ ↦ ⟨rfl, rfl⟩

theorem keeps_bind {x : StoreM P n α} {next : α → StoreM P n β} (first : Keeps c x)
    (second : ∀ y, Keeps c (next y)) : Keeps c (x >>= next) := by
  intro s
  apply (first s).bind
  · intro y t kept
    apply (second y t).mono
    intro _ u kept'
    exact kept.trans kept'
  · intro _ t kept
    exact kept

theorem keeps_mapError {x : StoreM P n α} {f : PsaStatus → PsaStatus} (keeps : Keeps c x) :
    Keeps c (x.mapError f) := by
  intro s
  apply (keeps s).mapError
  · intro _ t kept
    exact kept
  · intro _ t kept
    exact kept

theorem keeps_withStore {next : Store P n → StoreM P n α} (keeps : ∀ s, Keeps c (next s)) :
    Keeps c (withStore next) :=
  fun s ↦ keeps s s

theorem keeps_ite {p : Prop} [Decidable p] {x y : StoreM P n α} (first : Keeps c x)
    (second : Keeps c y) : Keeps c (if p then x else y) := by
  split_ifs
  · exact first
  · exact second

theorem keeps_failIf {p : Prop} [Decidable p] : Keeps c (failIf status p : StoreM P n Unit) :=
  keeps_ite keeps_fail keeps_pure

/-- What follows may use the value. -/
theorem keeps_orFail_bind {value : Option α} {next : α → StoreM P n β}
    (keeps : ∀ y, value = some y → Keeps c (next y)) : Keeps c (orFail status value >>= next) := by
  cases value with
  | none => exact keeps_fail
  | some y => exact keeps y rfl

theorem keeps_onFlash {x : FlashM α} : Keeps c (onFlash status x : StoreM P n α) := by
  intro s
  constructor
  · rfl
  · rfl

theorem keeps_setMcubootCtx (ne : c ≠ d) {ctx : McubootCtx P} : Keeps c (setMcubootCtx d ctx) := by
  intro s
  constructor
  · exact Function.update_of_ne ne ..
  · rfl

theorem keeps_setFwuCtx (ne : c ≠ d) {ctx : Ctx} :
    Keeps c (setFwuCtx d ctx : StoreM P n Unit) := by
  intro s
  constructor
  · rfl
  · exact Function.update_of_ne ne ..

theorem keeps_hashBlocks {area : FlashArea P} {dataSize : Word} (fuel : ℕ) (off : Word)
    (data : List (BitVec 8)) : Keeps c (hashBlocks E a area dataSize fuel off data) := by
  induction fuel generalizing off data with
  | zero => exact keeps_pure
  | succ fuel ih =>
      rw [hashBlocks]
      apply keeps_ite _ keeps_pure
      apply keeps_bind keeps_onFlash
      intro _
      exact keeps_bind keeps_failIf fun _ ↦ ih _ _

theorem keeps_getSecondImageDigest {info : PsaFwuComponentInfo} :
    Keeps c (getSecondImageDigest E a d info) := by
  apply keeps_withStore
  intro s
  apply keeps_bind keeps_failIf
  intro _
  apply keeps_orFail_bind
  intro fap _
  apply keeps_bind
  · apply keeps_mapError
    apply keeps_bind keeps_failIf
    intro _
    apply keeps_bind (keeps_hashBlocks _ _ _)
    intro _
    exact keeps_bind keeps_failIf fun _ ↦ keeps_pure
  · intro _
    exact keeps_pure

theorem keeps_getImageInfo {queryState queryImplInfo : Bool} {info : PsaFwuComponentInfo} :
    Keeps c (fwuBootloaderGetImageInfo E a d queryState queryImplInfo info) := by
  apply keeps_orFail_bind
  rintro ⟨fap, faId⟩ _
  apply keeps_bind
  · apply keeps_ite
    · apply keeps_ite
      · exact keeps_orFail_bind fun _ _ ↦ keeps_pure
      · exact keeps_pure
    · exact keeps_pure
  · intro _
    apply keeps_orFail_bind
    intro _ _
    exact keeps_ite keeps_getSecondImageDigest keeps_pure

theorem keeps_query : Keeps c (tfmFwuQuery E a msg) := by
  apply keeps_withStore
  intro s
  apply keeps_bind keeps_failIf
  intro _
  exact keeps_orFail_bind fun _ _ ↦ keeps_getImageInfo

theorem keeps_loadChunks (ne : c ≠ d) (blocks : List (List (BitVec 8))) (off : Word) :
    Keeps c (loadChunks d off blocks : StoreM P n Unit) := by
  induction blocks generalizing off with
  | nil => exact keeps_pure
  | cons chunk rest ih =>
      apply keeps_bind
      · apply keeps_withStore
        intro s
        apply keeps_orFail_bind
        intro _ _
        exact keeps_bind keeps_onFlash fun _ ↦ keeps_setMcubootCtx ne
      · intro _
        exact ih _

theorem keeps_stagingAreaInit (ne : c ≠ d) {manifestSize : ℕ} :
    Keeps c (fwuBootloaderStagingAreaInit E a d manifestSize) := by
  apply keeps_bind keeps_failIf
  intro _
  apply keeps_orFail_bind
  intro _ _
  exact keeps_bind keeps_onFlash fun _ ↦ keeps_setMcubootCtx ne

theorem checkWrite_eq_ok (checked : checkWrite E msg s = .ok c) : msg.component? = some c ∧
    (s.fwuCtx c).inUse ∧ (s.fwuCtx c).componentState = .writing := by
  rw [checkWrite] at checked
  split_ifs at checked
  split at checked
  · cases checked
  · next d component_eq =>
      split_ifs at checked with refused
      cases checked
      rw [not_or, not_not] at refused
      exact ⟨component_eq, by simpa using refused.1, refused.2⟩

/-- Requests for other components leave the records of a component alone. -/
theorem keeps_component (other : msg.component? ≠ some c) {next : Fin n → StoreM P n α}
    (keeps : ∀ d, c ≠ d → Keeps c (next d)) :
    Keeps c (orFail psaErrorDoesNotExist msg.component? >>= next) := by
  apply keeps_orFail_bind
  intro d component_eq
  apply keeps
  rintro rfl
  exact other component_eq

theorem keeps_start (other : msg.component? ≠ some c) : Keeps c (tfmFwuStart E a msg) := by
  apply keeps_withStore
  intro s
  apply keeps_bind keeps_failIf
  intro _
  apply keeps_bind keeps_failIf
  intro _
  apply keeps_component other
  intro d ne
  apply keeps_ite keeps_failIf
  apply keeps_bind keeps_getImageInfo
  intro _
  apply keeps_bind keeps_failIf
  intro _
  apply keeps_bind (keeps_stagingAreaInit ne)
  intro _
  exact keeps_setFwuCtx ne

theorem keeps_write (other : msg.component? ≠ some c) : Keeps c (tfmFwuWrite E msg) := by
  apply keeps_withStore
  intro s
  split
  · exact keeps_fail
  · next d checked =>
      rw [writeBlock_eq]
      apply keeps_loadChunks
      rintro rfl
      exact other (checkWrite_eq_ok checked).1

theorem keeps_finish (other : msg.component? ≠ some c) :
    Keeps c (tfmFwuFinish msg : StoreM P n Unit) := by
  apply keeps_withStore
  intro s
  apply keeps_bind keeps_failIf
  intro _
  apply keeps_component other
  intro d ne
  exact keeps_bind keeps_failIf fun _ ↦ keeps_setFwuCtx ne

theorem keeps_cancel (other : msg.component? ≠ some c) :
    Keeps c (tfmFwuCancel msg : StoreM P n Unit) := by
  apply keeps_withStore
  intro s
  apply keeps_bind keeps_failIf
  intro _
  apply keeps_component other
  intro d ne
  exact keeps_bind keeps_failIf fun _ ↦ keeps_setFwuCtx ne

theorem keeps_clean (other : msg.component? ≠ some c) : Keeps c (tfmFwuClean E a msg) := by
  apply keeps_withStore
  intro s
  apply keeps_bind keeps_failIf
  intro _
  apply keeps_component other
  intro d ne
  apply keeps_bind keeps_failIf
  intro _
  apply keeps_bind
  · apply keeps_withStore
    intro t
    apply keeps_orFail_bind
    intro _ _
    exact keeps_bind keeps_onFlash fun _ ↦ keeps_setMcubootCtx ne
  · intro _
    exact keeps_setFwuCtx ne

theorem kept_serve (r : Request P) (other : r.msg.component? ≠ some c) :
    Kept c s (serve E r s).2 := by
  rw [serve]
  split
  · exact (keeps_start other).during r.answers
  · exact (keeps_write other).during r.answers
  · exact (keeps_finish other).during r.answers
  · exact (keeps_cancel other).during r.answers
  · exact (keeps_clean other).during r.answers
  · exact keeps_query.during r.answers

end Keeps

end TrustedFirmwareM.Fwu.Staging
