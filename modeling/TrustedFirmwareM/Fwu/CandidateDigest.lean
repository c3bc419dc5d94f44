import TrustedFirmwareM.Fwu.StagingLoads
import TrustedFirmwareM.Fwu.StagingQueries

/-!
# Digests of candidates

The digest of a candidate is that of as many bytes of its slot as have been loaded.  The bytes are
counted chunk by chunk, wherever the chunks are written, and the chunks of a request that fails
later have been counted.
-/

namespace TrustedFirmwareM.Fwu.Staging

open Bl2.FlashMap
open Mcuboot (psaErrorStorageFailure)

variable {P : Platform} {n : ℕ}

/-- A block that has been accepted. -/
structure Block where
  /-- Its offset. -/
  offset : ℕ
  /-- Its size. -/
  size : ℕ
  deriving DecidableEq

/-- What has been given to the slot of a component since the update was started. -/
structure Download where
  /-- The blocks of the requests that have been accepted. -/
  blocks : List Block
  /-- The number of bytes that the flash has taken from requests that have been refused. -/
  leftover : ℕ
  deriving DecidableEq

/-- Nothing has been given. -/
def Download.empty : Download := ⟨[], 0⟩

/-- The number of bytes that the flash has taken. -/
def Download.taken (d : Download) : ℕ := (d.blocks.map Block.size).sum + d.leftover

/-- The greatest end of a block. -/
def Download.extent (d : Download) : ℕ :=
  d.blocks.foldr (fun b extent ↦ max (b.offset + b.size) extent) 0

/-- The number of bytes that the flash takes from a request that passes the checks. -/
def takenFrom (E : Setup P n) (c : Fin n) (r : Request P) (s : Store P n) : ℕ :=
  match checkWrite E r.msg s, E.secondary c with
  | .ok _, some area =>
      takenBytes area r.msg.imageOffset (chunks E r.msg.block) (s.during r.answers).flash
  | _, _ => 0

/-- What has been given after a start: nothing, unless the start is refused. -/
def Download.afterStart (d : Download) : Except PsaStatus Unit → Download
  | .ok _ => Download.empty
  | .error _ => d

/-- What has been given after a write: a block, or a number of bytes if the write is refused. -/
def Download.afterWrite (d : Download) (b : Block) (taken : ℕ) : Except PsaStatus Unit → Download
  | .ok _ => { d with blocks := d.blocks ++ [b] }
  | .error _ => { d with leftover := d.leftover + taken }

/-- What has been given to the slot after a request. -/
def Download.after (E : Setup P n) (c : Fin n) (r : Request P) (s : Store P n) (d : Download) :
    Download :=
  if r.msg.component? = some c then
    match r.type with
    | .start => d.afterStart (serve E r s).1
    | .write =>
        d.afterWrite ⟨r.msg.imageOffset.toNat, r.msg.block.length⟩ (takenFrom E c r s)
          (serve E r s).1
    | _ => d
  else d

/-- What has been given to the slot after some requests. -/
def download (E : Setup P n) (c : Fin n) : List (Request P) → Store P n → Download → Download
  | [], _, d => d
  | r :: rest, s, d => download E c rest (serve E r s).2 (d.after E c r s)

/-- The digest that is reported for a component is that of the first bytes of its slot. -/
structure DigestCovers (E : Setup P n) (c : Fin n) (s : Store P n) (size : ℕ) : Prop where
  /-- The bytes are in the slot. -/
  fits : ∀ area, E.secondary c = some area → size ≤ area.faSize.toNat
  /-- A digest that is reported is that of the bytes. -/
  digest : ∀ a msg area info, msg.component? = some c → E.secondary c = some area →
    (tfmFwuQuery E a msg (s.during a)).1 = .ok info →
      info.candidateDigest = some (a.hash (s.flash.flash.read area.faOff size))
  /-- A digest is reported if nothing goes wrong. -/
  reported : ∀ a msg, msg.component? = some c → Undisturbed E a msg →
    ∃ info, (tfmFwuQuery E a msg (s.during a)).1 = .ok info

/-- The bytes that the flash has taken add up to the greatest end of a block, and blocks without
bytes are not beyond the slot. -/
structure Download.Proper (d : Download) (E : Setup P n) (c : Fin n) : Prop where
  /-- Where blocks without bytes are. -/
  bounded : ∀ b ∈ d.blocks, b.size = 0 → ∀ area, E.secondary c = some area →
    b.offset ≤ area.faSize.toNat
  /-- The sum does not depend on where the blocks are. -/
  sum : d.taken % 2 ^ 32 = d.extent

/-! ## Runs -/

section Runs

variable {c : Fin n} {area : FlashArea P} {s t : Store P n} {E : Setup P n} {a : Answers P}
  {msg : Message} {d : Download}

/-- An image is being written, or is a candidate. -/
def Staged (ctx : Ctx) : Prop :=
  ctx.inUse ∧ (ctx.componentState = .writing ∨ ctx.componentState = .candidate)

/-- The bootloader abstraction counts what has been given to the slot. -/
structure Tracks (E : Setup P n) (c : Fin n) (area : FlashArea P) (d : Download) (s : Store P n) :
    Prop where
  /-- The slot has been opened. -/
  opened : Opened E c area s
  /-- The bytes that the flash has taken are counted. -/
  loaded : (s.mcubootCtx c).loadedSize = BitVec.ofNat 32 d.taken
  /-- Blocks with bytes are in the slot. -/
  inside : ∀ b ∈ d.blocks, 0 < b.size → b.offset + b.size ≤ area.faSize.toNat

/-- If an image is staged, the bootloader abstraction counts what has been given to the slot. -/
def Tracked (E : Setup P n) (c : Fin n) (d : Download) (s : Store P n) : Prop :=
  Staged (s.fwuCtx c) → ∃ area, Tracks E c area d s

theorem Tracks.of_eq (tracks : Tracks E c area d s) (same : t.mcubootCtx c = s.mcubootCtx c) :
    Tracks E c area d t where
  opened := ⟨tracks.opened.secondary, by rw [same, tracks.opened.fap]⟩
  loaded := by rw [same, tracks.loaded]
  inside := tracks.inside

theorem Tracked.of_kept (tracked : Tracked E c d s) (kept : Kept c s t) : Tracked E c d t := by
  intro staged
  rw [kept.fwuCtx] at staged
  obtain ⟨area, tracks⟩ := tracked staged
  exact ⟨area, tracks.of_eq kept.mcubootCtx⟩

theorem tracked_of_not_staged (none : ¬Staged (t.fwuCtx c)) : Tracked E c d t :=
  fun staged ↦ absurd staged none

/-- A staging area that has been set up has nothing in it, and else nothing has changed. -/
theorem stagingAreaInit_cases (manifestSize : ℕ) :
    (fwuBootloaderStagingAreaInit E a c manifestSize).Holds s fun value t ↦
      (∃ e, value = .error e ∧ Kept c s t) ∨
        ∃ area, value = .ok () ∧ E.secondary c = some area ∧ t.mcubootCtx c = ⟨some area, 0⟩ := by
  rw [Fallible.Holds, fwuBootloaderStagingAreaInit, failIf_bind_apply]
  split_ifs
  · exact .inl ⟨_, rfl, rfl, rfl⟩
  · rw [orFail_bind_apply]
    cases secondary : E.secondary c with
    | none => exact .inl ⟨_, rfl, rfl, rfl⟩
    | some area =>
        dsimp only
        rw [onFlash_bind_apply]
        rcases flashAreaErase E a area s.flash with ⟨e | value, flash⟩
        · exact .inl ⟨_, rfl, rfl, rfl⟩
        · exact .inr ⟨area, rfl, rfl, Function.update_self ..⟩

/-- What a start does: it is refused, or nothing has been given to the slot. -/
def Started (E : Setup P n) (c : Fin n) (s : Store P n) (value : Except PsaStatus Unit)
    (t : Store P n) : Prop :=
  (Kept c s t ∧ (value = .ok () → ¬Staged (s.fwuCtx c))) ∨
    ∃ area, value = .ok () ∧ E.secondary c = some area ∧ t.mcubootCtx c = ⟨some area, 0⟩

theorem started_error {status : PsaStatus} (kept : Kept c s t) :
    Started E c s (.error status) t := by
  left
  constructor
  · exact kept
  · intro ok
    cases ok

theorem start_own (component_eq : msg.component? = some c) :
    (tfmFwuStart E a msg).Holds s (Started E c s) := by
  rw [Fallible.Holds, tfmFwuStart, withStore, failIf_bind_apply, failIf_bind_apply, component_eq,
    orFail_bind_apply]
  dsimp only
  split_ifs with size manifest used
  · exact started_error ⟨rfl, rfl⟩
  · exact started_error ⟨rfl, rfl⟩
  · rw [failIf]
    split_ifs with busy
    · exact started_error ⟨rfl, rfl⟩
    · left
      constructor
      · exact ⟨rfl, rfl⟩
      · rintro _ ⟨_, staged⟩
        rw [not_not] at busy
        simp [busy] at staged
  · apply (keeps_getImageInfo (c := c) s).bind (Q := Started E c s)
    · intro info t kept
      apply (keeps_failIf (c := c) t).bind
      · intro _ u kept'
        apply (stagingAreaInit_cases (c := c) msg.inSize1).bind
        · rintro _ v (⟨_, eq, _⟩ | ⟨area, _, secondary, ctx⟩)
          · cases eq
          · exact .inr ⟨area, rfl, secondary, ctx⟩
        · rintro e v (⟨_, _, kept''⟩ | ⟨_, eq, _⟩)
          · exact started_error ((kept.trans kept').trans kept'')
          · cases eq
      · intro e u kept'
        exact started_error (kept.trans kept')
    · intro e t kept
      exact started_error kept

theorem finish_own (component_eq : msg.component? = some c) :
    (tfmFwuFinish msg).Holds s fun _ t ↦
      Kept c s t ∨ Staged (s.fwuCtx c) ∧ t.mcubootCtx c = s.mcubootCtx c := by
  rw [Fallible.Holds, tfmFwuFinish, withStore, failIf_bind_apply, component_eq, orFail_bind_apply]
  dsimp only
  rw [failIf_bind_apply]
  split_ifs with size refused
  · exact .inl ⟨rfl, rfl⟩
  · exact .inl ⟨rfl, rfl⟩
  · rw [not_or, not_not] at refused
    exact .inr ⟨⟨by simpa using refused.1, .inl refused.2⟩, rfl⟩

theorem cancel_own (component_eq : msg.component? = some c) :
    (tfmFwuCancel msg).Holds s fun _ t ↦ Kept c s t ∨ ¬Staged (t.fwuCtx c) := by
  rw [Fallible.Holds, tfmFwuCancel, withStore, failIf_bind_apply, component_eq, orFail_bind_apply]
  dsimp only
  rw [failIf_bind_apply]
  split_ifs with size refused
  · exact .inl ⟨rfl, rfl⟩
  · exact .inl ⟨rfl, rfl⟩
  · right
    simp [setFwuCtx, Staged]

theorem cleanComponent_cases : (fwuBootloaderCleanComponent E a c).Holds s fun value t ↦
    value = .ok () ∨ Kept c s t := by
  rw [Fallible.Holds, fwuBootloaderCleanComponent, withStore, orFail_bind_apply]
  cases (s.mcubootCtx c).fap with
  | none => exact .inr ⟨rfl, rfl⟩
  | some area =>
      dsimp only
      rw [onFlash_bind_apply]
      rcases flashAreaErase E a area s.flash with ⟨e | value, flash⟩
      · exact .inr ⟨rfl, rfl⟩
      · exact .inl rfl

theorem clean_own (component_eq : msg.component? = some c) :
    (tfmFwuClean E a msg).Holds s fun _ t ↦ Kept c s t ∨ ¬Staged (t.fwuCtx c) := by
  rw [Fallible.Holds, tfmFwuClean, withStore, failIf_bind_apply, component_eq, orFail_bind_apply]
  dsimp only
  rw [failIf_bind_apply]
  split_ifs with size refused
  · exact .inl ⟨rfl, rfl⟩
  · exact .inl ⟨rfl, rfl⟩
  · apply cleanComponent_cases.bind (Q := fun _ t ↦ Kept c s t ∨ ¬Staged (t.fwuCtx c))
    · intro _ t _
      right
      simp [setFwuCtx, Staged]
    · rintro e t (eq | kept)
      · cases eq
      · exact .inl kept

/-- A write is refused, or chunks of the block are loaded. -/
theorem write_own (tracked : Tracked E c d s) (component_eq : msg.component? = some c) :
    (tfmFwuWrite E msg).Holds s fun value t ↦
      (∃ e, checkWrite E msg s = .error e ∧ value = .error e ∧ t = s) ∨
        ∃ area, checkWrite E msg s = .ok c ∧ Tracks E c area d s ∧
          Loaded c area msg.imageOffset msg.block.length
            (takenBytes area msg.imageOffset (chunks E msg.block) s.flash) s value t := by
  rw [Fallible.Holds, tfmFwuWrite, withStore]
  cases checked : checkWrite E msg s with
  | error e => exact .inl ⟨e, rfl, rfl, rfl⟩
  | ok c' =>
      obtain ⟨component_eq', used, writing⟩ := checkWrite_eq_ok checked
      obtain rfl : c = c' := Option.some.inj (component_eq.symm.trans component_eq')
      obtain ⟨area, tracks⟩ := tracked ⟨used, .inl writing⟩
      right
      have loaded := loadChunks_holds (chunks E msg.block) msg.imageOffset s tracks.opened.fap
        (by rw [chunks_flatten]; exact msg.block_lt)
      rw [chunks_flatten] at loaded
      dsimp only
      rw [writeBlock_eq]
      exact ⟨area, rfl, tracks, loaded⟩

/-- The number of bytes that a request gives. -/
theorem taken_append {b : Block} : Download.taken { d with blocks := d.blocks ++ [b] } =
    d.taken + b.size := by
  simp only [Download.taken, List.map_append, List.sum_append, List.map_cons, List.map_nil,
    List.sum_singleton]
  omega

theorem taken_leftover {k : ℕ} :
    Download.taken { d with leftover := d.leftover + k } = d.taken + k :=
  (Nat.add_assoc ..).symm

theorem tracked_of_started {value : Except PsaStatus Unit} (tracked : Tracked E c d s)
    (started : Started E c s value t) :
    Tracked E c (d.afterStart value) t := by
  rcases started with ⟨kept, unstaged⟩ | ⟨area, rfl, secondary, ctx⟩
  · cases value with
    | ok value =>
        apply tracked_of_not_staged
        rw [kept.fwuCtx]
        exact unstaged rfl
    | error e => exact tracked.of_kept kept
  · intro _
    use area
    constructor
    · exact ⟨secondary, by rw [ctx]⟩
    · rw [ctx]
      rfl
    · exact List.forall_mem_nil _

theorem taken_eq_of_checked {r : Request P} (checked : checkWrite E r.msg s = .ok c)
    (secondary : E.secondary c = some area) : takenFrom E c r s =
      takenBytes area r.msg.imageOffset (chunks E r.msg.block) (s.during r.answers).flash := by
  rw [takenFrom, checked, secondary]

theorem taken_eq_of_refused {r : Request P} {e : PsaStatus}
    (checked : checkWrite E r.msg s = .error e) : takenFrom E c r s = 0 := by
  rw [takenFrom, checked]

/-- A write keeps the count, whether or not all of it has been taken. -/
theorem tracked_of_write (r : Request P) (tracked : Tracked E c d s)
    (component_eq : r.msg.component? = some c) :
    (tfmFwuWrite E r.msg).Holds (s.during r.answers) fun value t ↦
      Tracked E c (d.afterWrite ⟨r.msg.imageOffset.toNat, r.msg.block.length⟩ (takenFrom E c r s)
        value) t := by
  have tracked' : Tracked E c d (s.during r.answers) := tracked.of_kept ⟨rfl, rfl⟩
  apply (write_own tracked' component_eq).mono
  rintro value t (⟨e, checked, rfl, rfl⟩ | ⟨area, checked, tracks, loaded⟩)
  · rw [taken_eq_of_refused (s := s) checked]
    exact tracked'
  · intro _
    use area
    rw [taken_eq_of_checked (s := s) checked tracks.opened.secondary]
    cases value with
    | ok value =>
        constructor
        · exact ⟨tracks.opened.secondary, by rw [loaded.self]⟩
        · rw [Download.afterWrite, taken_append, loaded.self, tracks.loaded, loaded.all rfl,
            BitVec.ofNat_add]
        · rw [Download.afterWrite, List.forall_mem_append]
          exact ⟨tracks.inside, List.forall_mem_singleton.2 (loaded.inside rfl)⟩
    | error e =>
        constructor
        · exact ⟨tracks.opened.secondary, by rw [loaded.self]⟩
        · rw [Download.afterWrite, taken_leftover, loaded.self, tracks.loaded, BitVec.ofNat_add]
        · exact tracks.inside

/-- A request keeps the count. -/
theorem tracked_serve (r : Request P) (tracked : Tracked E c d s) :
    Tracked E c (d.after E c r s) (serve E r s).2 := by
  have tracked' : Tracked E c d (s.during r.answers) := tracked.of_kept ⟨rfl, rfl⟩
  rw [Download.after]
  split_ifs with component_eq
  · have wrote := tracked_of_write r tracked component_eq
    rcases r with ⟨type, msg, a⟩
    cases type with
    | start => exact tracked_of_started tracked' (start_own component_eq)
    | write => exact wrote
    | finish =>
        rcases finish_own (s := s.during a) component_eq with kept | ⟨staged, same⟩
        · exact tracked'.of_kept kept
        · intro _
          obtain ⟨area, tracks⟩ := tracked' staged
          exact ⟨area, tracks.of_eq same⟩
    | cancel =>
        rcases cancel_own (s := s.during a) component_eq with kept | unstaged
        · exact tracked'.of_kept kept
        · exact tracked_of_not_staged unstaged
    | clean =>
        rcases clean_own (E := E) (a := a) (s := s.during a) component_eq with kept | unstaged
        · exact tracked'.of_kept kept
        · exact tracked_of_not_staged unstaged
    | query => exact tracked.of_kept (keeps_query.during a)
  · exact tracked.of_kept (kept_serve r component_eq)

/-- Requests keep the count. -/
theorem tracked_serveAll (requests : List (Request P)) (tracked : Tracked E c d s) :
    Tracked E c (download E c requests s d) (serveAll E s requests) := by
  induction requests generalizing s d with
  | nil => exact tracked
  | cons r rest ih => exact ih (tracked_serve r tracked)

theorem tracked_booted (flash : State) : Tracked E c d (booted flash) := by
  apply tracked_of_not_staged
  simp [booted, Staged]

/-! ## Digests -/

theorem extent_le_iff {k : ℕ} : d.extent ≤ k ↔ ∀ b ∈ d.blocks, b.offset + b.size ≤ k := by
  rcases d with ⟨blocks, leftover⟩
  rw [Download.extent]
  induction blocks with
  | nil => simp
  | cons first rest ih => rw [List.foldr_cons, Nat.max_le, ih, List.forall_mem_cons]

/-- An answer of the platform during a query in which nothing goes wrong. -/
def calmAnswers (area : FlashArea P) (hash : List (BitVec 8) → Digest) : Answers P where
  fault _ := none
  eraseSector _ := 0
  primary := some (area, 0)
  imageOk := none
  version := some ⟨0, 0, 0, 0⟩
  hashSetup := psaSuccess
  hashUpdate _ := psaSuccess
  hashFinish := psaSuccess
  hash := hash

/-- A query of a component. -/
def queryMessage (E : Setup P n) (c : Fin n) : Message where
  inSize0 := sizeofComponent
  inSize1 := 0
  outSize0 := E.config.infoSize
  component := c
  imageOffset := 0
  block := []
  block_lt := by decide

theorem undisturbed_query (area : FlashArea P) (hash : List (BitVec 8) → Digest) :
    Undisturbed E (calmAnswers area hash) (queryMessage E c) := by
  constructor <;> simp [calmAnswers, queryMessage]

/-- Whether data have a length, as a digest. -/
def lengthDigest (size : ℕ) (data : List (BitVec 8)) : Digest :=
  Vector.replicate 32 (if data.length = size then 0 else 1)

theorem lengthDigest_eq_iff {size : ℕ} {bytes : List (BitVec 8)} (other : List (BitVec 8))
    (length : other.length = size) :
    lengthDigest size bytes = lengthDigest size other ↔ bytes.length = size := by
  constructor
  · intro same
    have byte := congrArg (fun digest : Digest ↦ digest[0]) same
    simp only [lengthDigest, Vector.getElem_replicate, length, if_true] at byte
    by_contra ne
    rw [if_neg ne] at byte
    cases byte
  · intro same
    rw [lengthDigest, lengthDigest, same, length]

/-- What a query reports is the digest of as many bytes as have been loaded. -/
theorem digestCovers_iff_loaded (candidate : IsCandidate c s) (opened : Opened E c area s)
    (size : ℕ) : DigestCovers E c s size ↔
      size ≤ area.faSize.toNat ∧ (s.mcubootCtx c).loadedSize.toNat = size := by
  have gives (a : Answers P) (msg : Message) (component_eq : msg.component? = some c) :
      Gives (s.during a) ((s.mcubootCtx c).loadedSize.toNat ≤ area.faSize.toNat)
        (Undisturbed E a msg ∧ (s.during a).flash.fault = a.fault) (HasDigest a area c (s.during a))
        (tfmFwuQuery E a msg (s.during a)).1 (tfmFwuQuery E a msg (s.during a)).2 :=
    gives_query (s := s.during a) msg ⟨opened.secondary, opened.fap⟩ candidate component_eq
  constructor
  · intro covers
    have size_le := covers.fits area opened.secondary
    have component_eq : (queryMessage E c).component? = some c := component?_eq_some.2 rfl
    obtain ⟨info, ok⟩ := covers.reported (calmAnswers area (lengthDigest size)) (queryMessage E c)
      component_eq (undisturbed_query area (lengthDigest size))
    have digest := covers.digest _ _ area info component_eq opened.secondary ok
    obtain ⟨_, loaded⟩ := (gives _ _ component_eq).ok info ok
    rw [HasDigest, digest, Option.some_inj] at loaded
    have length := (lengthDigest_eq_iff _ (ByteMemory.length_read ..)).1 loaded.symm
    rw [ByteMemory.length_read] at length
    exact ⟨size_le, length⟩
  · rintro ⟨size_le, loaded⟩
    constructor
    · intro fap secondary
      rwa [Option.some.inj (secondary.symm.trans opened.secondary)]
    · intro a msg fap info component_eq secondary ok
      obtain ⟨_, digest⟩ := (gives a msg component_eq).ok info ok
      rw [Option.some.inj (secondary.symm.trans opened.secondary), ← loaded]
      exact digest
    · intro a msg component_eq calm
      exact (gives a msg component_eq).total (loaded ▸ size_le) ⟨calm, rfl⟩

/-- In every run, the digest of a candidate covers what has been downloaded exactly if the bytes
that the flash has taken add up to the greatest end of a block. -/
theorem digestCovers_iff (E : Setup P n) (c : Fin n) (flash : State) (requests : List (Request P))
    (candidate : IsCandidate c (serveAll E (booted flash) requests)) :
    DigestCovers E c (serveAll E (booted flash) requests)
        (download E c requests (booted flash) Download.empty).extent ↔
      (download E c requests (booted flash) Download.empty).Proper E c := by
  have tracked := tracked_serveAll (E := E) (c := c) (d := Download.empty) requests
    (tracked_booted flash)
  obtain ⟨area, tracks⟩ := tracked ⟨candidate.1, .inr candidate.2⟩
  generalize download E c requests (booted flash) Download.empty = d at *
  rw [digestCovers_iff_loaded candidate tracks.opened, tracks.loaded, BitVec.toNat_ofNat,
    extent_le_iff]
  constructor
  · rintro ⟨ends, sum⟩
    constructor
    · intro b mem _ fap secondary
      rw [Option.some.inj (secondary.symm.trans tracks.opened.secondary)]
      exact (Nat.le_add_right _ _).trans (ends b mem)
    · exact sum
  · rintro ⟨bounded, sum⟩
    constructor
    · intro b mem
      rcases Nat.eq_zero_or_pos b.size with none | some
      · rw [none]
        exact bounded b mem none area tracks.opened.secondary
      · exact tracks.inside b mem some
    · exact sum

/-- Blocks one behind the other, from an offset on. -/
def InOrder : ℕ → List Block → Prop
  | _, [] => True
  | off, b :: rest => b.offset = off ∧ InOrder (off + b.size) rest

theorem extent_of_inOrder {off size : ℕ} {blocks : List Block} (ordered : InOrder off blocks)
    (off_le : off ≤ size) (inside : ∀ b ∈ blocks, 0 < b.size → b.offset + b.size ≤ size) :
    off + (blocks.map Block.size).sum ≤ size ∧
      max off (Download.extent ⟨blocks, 0⟩) = off + (blocks.map Block.size).sum := by
  induction blocks generalizing off with
  | nil => exact ⟨off_le, Nat.max_eq_left (Nat.zero_le off)⟩
  | cons b rest ih =>
      obtain ⟨rfl, ordered⟩ := ordered
      obtain ⟨inside_b, inside⟩ := List.forall_mem_cons.1 inside
      have end_le : b.offset + b.size ≤ size := by
        rcases Nat.eq_zero_or_pos b.size with none | some
        · omega
        · exact inside_b some
      obtain ⟨sum_le, extent_eq⟩ := ih ordered end_le inside
      simp only [Download.extent, List.map_cons, List.sum_cons, List.foldr_cons] at extent_eq ⊢
      omega

/-- Blocks that come one behind the other, and none of which is refused halfway, are covered. -/
theorem covered_of_inOrder (flash : State) (requests : List (Request P))
    (candidate : IsCandidate c (serveAll E (booted flash) requests))
    (given : download E c requests (booted flash) Download.empty = d) (whole : d.leftover = 0)
    (ordered : InOrder 0 d.blocks) :
    DigestCovers E c (serveAll E (booted flash) requests) d.extent := by
  have tracked := tracked_serveAll (E := E) (c := c) (d := Download.empty) requests
    (tracked_booted flash)
  rw [given] at tracked
  obtain ⟨area, tracks⟩ := tracked ⟨candidate.1, .inr candidate.2⟩
  obtain ⟨sum_le, extent_eq⟩ := extent_of_inOrder ordered (Nat.zero_le _) tracks.inside
  rw [Nat.zero_add] at sum_le extent_eq
  have extent_eq' : d.extent = (d.blocks.map Block.size).sum :=
    (Nat.max_eq_right (Nat.zero_le _)).symm.trans extent_eq
  rw [digestCovers_iff_loaded candidate tracks.opened, tracks.loaded, Download.taken, whole,
    Nat.add_zero, BitVec.toNat_ofNat, Nat.mod_eq_of_lt (sum_le.trans_lt area.faSize.isLt),
    extent_eq']
  exact ⟨sum_le, rfl⟩

end Runs

/-! ## A slot of 64 bytes -/

/-- One component, and blocks that are loaded in chunks of 8 bytes. -/
def sampleSetup : Setup samplePlatform 1 where
  config := ⟨false, 0, 64, 8, 64⟩
  bufSize_pos := by decide
  mmIovec := false
  swap := true
  secondary _ := some sampleArea
  sectorSize := some 32
  erasedValue := 0xFF
  bootTmpbufSz := 256
  bootTmpbufSz_pos := by decide

/-- The flash before the update. -/
def sampleFlash : State := ⟨fun _ ↦ 0, [], fun _ ↦ none⟩

/-- A request for the component, with a block of 8 bytes. -/
def sampleRequest (type : RequestType) (imageOffset : Word) : Request samplePlatform where
  type := type
  msg :=
    { inSize0 := 1
      inSize1 := if type = .write then 4 else 0
      outSize0 := 0
      component := 0
      imageOffset := imageOffset
      block := [1, 2, 3, 4, 5, 6, 7, 8]
      block_lt := by decide }
  answers := { calmAnswers sampleArea (lengthDigest 0) with imageOk := some true }

/-- An update with a block at each offset. -/
def sampleUpdate (offsets : List Word) : List (Request samplePlatform) :=
  sampleRequest .start 0 :: (offsets.map (sampleRequest .write) ++ [sampleRequest .finish 0])

/-- The state after an update. -/
def sampleStore (offsets : List Word) : Store samplePlatform 1 :=
  serveAll sampleSetup (booted sampleFlash) (sampleUpdate offsets)

/-- What has been given to the slot during an update. -/
def sampleDownload (offsets : List Word) : Download :=
  download sampleSetup 0 (sampleUpdate offsets) (booted sampleFlash) Download.empty

/-- Two blocks one behind the other are covered. -/
theorem digestCovers_consecutive :
    DigestCovers sampleSetup 0 (sampleStore [0, 8]) (sampleDownload [0, 8]).extent := by
  have candidate : IsCandidate 0 (sampleStore [0, 8]) := by
    decide +kernel
  have given : sampleDownload [0, 8] = ⟨[⟨0, 8⟩, ⟨8, 8⟩], 0⟩ := by
    decide +kernel
  apply (digestCovers_iff sampleSetup 0 sampleFlash (sampleUpdate [0, 8]) candidate).2
  constructor
  · intro b mem none
    change b ∈ (sampleDownload [0, 8]).blocks at mem
    rw [given] at mem
    simp only [List.mem_cons, List.not_mem_nil, or_false] at mem
    rcases mem with rfl | rfl
    · cases none
    · cases none
  · change (sampleDownload [0, 8]).taken % 2 ^ 32 = (sampleDownload [0, 8]).extent
    rw [given]
    decide

/-- A block that is accepted twice is counted twice. -/
theorem digestCovers_repeated_fails :
    sampleDownload [0, 0] = ⟨[⟨0, 8⟩, ⟨0, 8⟩], 0⟩ ∧ IsCandidate 0 (sampleStore [0, 0]) ∧
      ¬DigestCovers sampleSetup 0 (sampleStore [0, 0]) (sampleDownload [0, 0]).extent := by
  have candidate : IsCandidate 0 (sampleStore [0, 0]) := by
    decide +kernel
  have given : sampleDownload [0, 0] = ⟨[⟨0, 8⟩, ⟨0, 8⟩], 0⟩ := by
    decide +kernel
  have loaded : ((sampleStore [0, 0]).mcubootCtx 0).loadedSize.toNat = 16 := by
    decide +kernel
  obtain ⟨area, tracks⟩ := tracked_serveAll (E := sampleSetup) (c := 0) (d := Download.empty)
    (sampleUpdate [0, 0]) (tracked_booted sampleFlash) ⟨candidate.1, .inr candidate.2⟩
  refine ⟨given, candidate, ?_⟩
  rw [given]
  intro covers
  have size := ((digestCovers_iff_loaded candidate tracks.opened _).1 covers).2
  rw [loaded] at size
  revert size
  decide

end TrustedFirmwareM.Fwu.Staging
