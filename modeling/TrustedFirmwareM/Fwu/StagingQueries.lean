import TrustedFirmwareM.Fwu.Staging

/-!
# Queries of candidates

A query reads the slot of a candidate part by part.  It gives the digest of as many bytes as have
been loaded, if they are in the slot and nothing goes wrong.
-/

namespace TrustedFirmwareM.Fwu.Staging

open Bl2.FlashMap
open Mcuboot (psaErrorStorageFailure)

variable {P : Platform} {n : ℕ}

/-- The component is a candidate. -/
def IsCandidate (c : Fin n) (s : Store P n) : Prop :=
  (s.fwuCtx c).inUse ∧ (s.fwuCtx c).componentState = .candidate

instance (c : Fin n) (s : Store P n) : Decidable (IsCandidate c s) :=
  inferInstanceAs (Decidable (_ ∧ _))

/-- Nothing goes wrong during a query. -/
structure Undisturbed (E : Setup P n) (a : Answers P) (msg : Message) : Prop where
  /-- The message has a component. -/
  inSize0 : msg.inSize0 = sizeofComponent
  /-- There is room for the answer. -/
  outSize0 : msg.outSize0 = E.config.infoSize
  /-- The flash can be read. -/
  fault : ∀ k, a.fault k = none
  /-- The primary slot is there. -/
  primary : a.primary ≠ none
  /-- The version of the running image is there. -/
  version : a.version ≠ none
  /-- A hash operation can be set up. -/
  hashSetup : a.hashSetup = psaSuccess
  /-- Data can be hashed. -/
  hashUpdate : ∀ off, a.hashUpdate off = psaSuccess
  /-- A hash operation can be finished. -/
  hashFinish : a.hashFinish = psaSuccess

/-! ## Queries -/

section Queries

variable {α β : Type} {status : PsaStatus} {s t u : Store P n} {fits fits' clean clean' : Prop}
  {good : α → Prop} {good' : β → Prop}

/-- Nothing but reads has happened. -/
structure Quiet (s t : Store P n) : Prop where
  /-- The flash is left alone. -/
  flash : t.flash.flash = s.flash.flash
  /-- The driver is as it was. -/
  fault : t.flash.fault = s.flash.fault
  /-- The bootloader abstraction does not change. -/
  mcubootCtx : t.mcubootCtx = s.mcubootCtx
  /-- The service does not change. -/
  fwuCtx : t.fwuCtx = s.fwuCtx

theorem Quiet.refl (s : Store P n) : Quiet s s := ⟨rfl, rfl, rfl, rfl⟩

theorem Quiet.trans (first : Quiet s t) (second : Quiet t u) : Quiet s u :=
  ⟨second.flash.trans first.flash, second.fault.trans first.fault,
    second.mcubootCtx.trans first.mcubootCtx, second.fwuCtx.trans first.fwuCtx⟩

/-- What a step of a query gives: what it reads must fit, and it gives something if that does and
nothing goes wrong. -/
structure Gives (s : Store P n) (fits clean : Prop) (good : α → Prop) (value : Except PsaStatus α)
    (t : Store P n) : Prop where
  /-- Nothing is changed. -/
  quiet : Quiet s t
  /-- What is returned. -/
  ok : ∀ x, value = .ok x → fits ∧ good x
  /-- Something is returned. -/
  total : fits → clean → ∃ x, value = .ok x

theorem gives_pure (good : α → Prop) {x : α} (x_good : good x) : (pure x : StoreM P n α).Holds s
    (Gives s True True good) where
  quiet := Quiet.refl s
  ok := by
    intro y eq
    cases eq
    exact ⟨trivial, x_good⟩
  total _ _ := ⟨x, rfl⟩

theorem gives_failIf (status : PsaStatus) (p : Prop) [Decidable p] :
    (failIf status p).Holds s (Gives s True (¬p) fun _ ↦ True) := by
  rw [Fallible.Holds, failIf]
  split_ifs with failing
  · constructor
    · exact Quiet.refl s
    · intro _ eq
      cases eq
    · intro _ passing
      exact absurd failing passing
  · exact ⟨Quiet.refl s, fun _ _ ↦ ⟨trivial, trivial⟩, fun _ _ ↦ ⟨(), rfl⟩⟩

theorem gives_orFail (status : PsaStatus) (value : Option α) :
    (orFail status value).Holds s (Gives s True (value ≠ none) fun x ↦ value = some x) := by
  cases value with
  | none =>
      constructor
      · exact Quiet.refl s
      · intro _ eq
        cases eq
      · intro _ missing
        exact absurd rfl missing
  | some x =>
      constructor
      · exact Quiet.refl s
      · intro y eq
        cases eq
        exact ⟨trivial, rfl⟩
      · intro _ _
        exact ⟨x, rfl⟩

theorem gives_mono {x : StoreM P n α} {good' : α → Prop}
    (gives : x.Holds s (Gives s fits clean good)) (fits_iff : fits' ↔ fits)
    (cleaner : clean' → clean) (better : ∀ y, good y → good' y) :
    x.Holds s (Gives s fits' clean' good') where
  quiet := Gives.quiet gives
  ok := by
    intro y eq
    obtain ⟨fit, y_good⟩ := Gives.ok gives y eq
    exact ⟨fits_iff.2 fit, better y y_good⟩
  total fit proper := Gives.total gives (fits_iff.1 fit) (cleaner proper)

theorem gives_bind {x : StoreM P n α} {next : α → StoreM P n β}
    (first : x.Holds s (Gives s fits clean good))
    (second : ∀ y t, good y → Quiet s t → (next y).Holds t (Gives t fits' clean' good')) :
    (x >>= next).Holds s (Gives s (fits ∧ fits') (clean ∧ clean') good') := by
  apply first.bind
  · intro y t gives
    obtain ⟨fit, y_good⟩ := gives.ok y rfl
    apply (second y t y_good gives.quiet).mono
    intro value u gives'
    constructor
    · exact gives.quiet.trans gives'.quiet
    · intro z eq
      exact ⟨⟨fit, (gives'.ok z eq).1⟩, (gives'.ok z eq).2⟩
    · intro fits_both clean_both
      exact gives'.total fits_both.2 clean_both.2
  · intro e t gives
    constructor
    · exact gives.quiet
    · intro _ eq
      cases eq
    · intro fits_both clean_both
      obtain ⟨y, eq⟩ := gives.total fits_both.1 clean_both.1
      cases eq

theorem gives_mapError {x : StoreM P n α} {f : PsaStatus → PsaStatus}
    (gives : x.Holds s (Gives s fits clean good)) :
    (x.mapError f).Holds s (Gives s fits clean good) := by
  apply gives.mapError
  · intro value t gives'
    exact gives'
  · intro e t gives'
    constructor
    · exact gives'.quiet
    · intro _ eq
      cases eq
    · intro fit proper
      obtain ⟨y, eq⟩ := gives'.total fit proper
      cases eq

theorem gives_read (status : PsaStatus) {area : FlashArea P} {off len : Word} :
    (onFlash status (flashAreaRead area off len)).Holds s (Gives s (InArea area off len)
      (∀ k, s.flash.fault k = none)
      fun bytes ↦ bytes = s.flash.flash.read (area.faOff + off) len.toNat) := by
  by_cases range : InArea area off len
  · have post := flashAreaRead_holds (s := s.flash) range
    rw [Fallible.Holds] at post ⊢
    simp only [onFlash]
    generalize flashAreaRead area off len s.flash = result at post ⊢
    rcases result with ⟨value | value, flash⟩
    · constructor
      · exact ⟨post.reads.flash, post.reads.fault, rfl, rfl⟩
      · intro _ eq
        cases eq
      · intro _ quiet
        obtain ⟨k, failing⟩ := (post.error value rfl).2
        exact absurd (quiet k) failing
    · constructor
      · exact ⟨post.reads.flash, post.reads.fault, rfl, rfl⟩
      · intro _ eq
        cases eq
        exact ⟨range, post.ok value rfl⟩
      · intro _ _
        exact ⟨value, rfl⟩
  · rw [Fallible.Holds, onFlash, flashAreaRead_of_not_inArea range]
    constructor
    · exact Quiet.refl s
    · intro _ eq
      cases eq
    · intro fit _
      exact absurd fit range

variable {E : Setup P n} {a : Answers P} {area : FlashArea P} {c : Fin n}

/-- Everything has been hashed. -/
theorem gives_hashed {dataSize off : Word} {data : List (BitVec 8)} (done : ¬off < dataSize) :
    (pure data : StoreM P n _).Holds s (Gives s
      (off < dataSize → dataSize.toNat ≤ area.faSize.toNat) clean
      fun bytes ↦ bytes = data ++
        s.flash.flash.read (area.faOff + off) (dataSize.toNat - off.toNat)) := by
  have none : dataSize.toNat - off.toNat = 0 := by
    rw [BitVec.lt_def] at done
    omega
  rw [none]
  apply gives_mono (gives_pure (fun bytes ↦ bytes = data) rfl)
  · rw [iff_true]
    intro more
    exact absurd more done
  · intro _
    trivial
  · intro bytes eq
    rw [eq]
    exact (List.append_nil data).symm

/-- The size of the next part of the data. -/
theorem blkSz_bounds {dataSize off tmpBufSz : Word} (tmpBufSz_pos : 0 < tmpBufSz)
    (more : off < dataSize) :
    let blkSz := if tmpBufSz < dataSize - off then tmpBufSz else dataSize - off
    0 < blkSz.toNat ∧ off.toNat + blkSz.toNat ≤ dataSize.toNat ∧
      (off + blkSz).toNat = off.toNat + blkSz.toNat := by
  dsimp only
  split_ifs with large <;> bv_omega

theorem gives_hashBlocks {dataSize : Word} (fuel : ℕ) (off : Word) (data : List (BitVec 8))
    (s : Store P n) (enough : dataSize.toNat ≤ off.toNat + fuel) :
    (hashBlocks E a area dataSize fuel off data).Holds s (Gives s
      (off < dataSize → dataSize.toNat ≤ area.faSize.toNat)
      ((∀ k, s.flash.fault k = none) ∧ ∀ k, a.hashUpdate k = psaSuccess)
      fun bytes ↦ bytes = data ++
        s.flash.flash.read (area.faOff + off) (dataSize.toNat - off.toNat)) := by
  induction fuel generalizing off data s with
  | zero =>
      apply gives_hashed
      rw [BitVec.lt_def]
      omega
  | succ fuel ih =>
      rw [hashBlocks]
      by_cases more : off < dataSize
      · obtain ⟨blkSz_pos, blkSz_le, behind⟩ := blkSz_bounds E.bootTmpbufSz_pos more
        rw [if_pos more]
        dsimp only
        generalize (if E.bootTmpbufSz < dataSize - off then E.bootTmpbufSz else dataSize - off) =
          blkSz at *
        have parts : dataSize.toNat - off.toNat =
            blkSz.toNat + (dataSize.toNat - (off + blkSz).toNat) := by
          omega
        have address : area.faOff + (off + blkSz) =
            area.faOff + off + BitVec.ofNat 32 blkSz.toNat := by
          rw [BitVec.ofNat_toNat, BitVec.setWidth_eq, BitVec.add_assoc]
        have rest (bytes : List (BitVec 8)) (u : Store P n) (quiet : Quiet s u)
            (bytes_eq : bytes = s.flash.flash.read (area.faOff + off) blkSz.toNat) :
            (hashBlocks E a area dataSize fuel (off + blkSz) (data ++ bytes)).Holds u (Gives u
              (off + blkSz < dataSize → dataSize.toNat ≤ area.faSize.toNat)
              ((∀ k, s.flash.fault k = none) ∧ ∀ k, a.hashUpdate k = psaSuccess)
              fun out ↦ out = data ++
                s.flash.flash.read (area.faOff + off) (dataSize.toNat - off.toNat)) := by
          apply gives_mono (ih (off + blkSz) (data ++ bytes) u (by omega)) Iff.rfl
          · intro proper
            rwa [quiet.fault]
          · intro out eq
            rw [eq, quiet.flash, bytes_eq, parts, ByteMemory.read_add, address, List.append_assoc]
        have whole := gives_bind (gives_read psaErrorStorageFailure) fun bytes t bytes_eq quiet ↦
          gives_bind (gives_failIf (a.hashUpdate off.toNat) (a.hashUpdate off.toNat ≠ psaSuccess))
            fun _ u _ quiet' ↦ rest bytes u (quiet.trans quiet') bytes_eq
        apply gives_mono whole
        · rw [InArea]
          constructor
          · intro fit
            have size_le := fit more
            exact ⟨by omega, trivial, fun _ ↦ size_le⟩
          · intro fit _
            rcases Nat.lt_or_ge (off + blkSz).toNat dataSize.toNat with lt | ge
            · exact fit.2.2 lt
            · have range := fit.1
              omega
        · intro proper
          exact ⟨proper.1, not_not.2 (proper.2 off.toNat), proper⟩
        · intro out eq
          exact eq
      · rw [if_neg more]
        exact gives_hashed more

/-- The hash operations of a query do not fail, and neither do its reads. -/
structure Hashable (a : Answers P) (s : Store P n) : Prop where
  /-- The flash can be read. -/
  fault : ∀ k, s.flash.fault k = none
  /-- A hash operation can be set up. -/
  hashSetup : a.hashSetup = psaSuccess
  /-- Data can be hashed. -/
  hashUpdate : ∀ off, a.hashUpdate off = psaSuccess
  /-- A hash operation can be finished. -/
  hashFinish : a.hashFinish = psaSuccess

theorem gives_utilImgHash (dataSize : Word) :
    (utilImgHash E a area dataSize).Holds s (Gives s (dataSize.toNat ≤ area.faSize.toNat)
      (Hashable a s)
      fun digest ↦ digest = a.hash (s.flash.flash.read area.faOff dataSize.toNat)) := by
  have blocks (t : Store P n) (quiet : Quiet s t) :
      (hashBlocks E a area dataSize dataSize.toNat 0 []).Holds t (Gives t
        (dataSize.toNat ≤ area.faSize.toNat)
        (Hashable a s) fun bytes ↦ bytes = s.flash.flash.read area.faOff dataSize.toNat) := by
    apply gives_mono (gives_hashBlocks dataSize.toNat 0 [] t (Nat.le_add_left _ _))
    · constructor
      · intro fit _
        exact fit
      · intro fit
        rcases Nat.eq_zero_or_pos dataSize.toNat with zero | pos
        · rw [zero]
          exact Nat.zero_le _
        · exact fit (BitVec.lt_def.2 pos)
    · intro hashable
      rw [quiet.fault]
      exact ⟨hashable.fault, hashable.hashUpdate⟩
    · intro bytes eq
      rw [eq, quiet.flash]
      simp
  have whole := gives_bind (s := s) (gives_failIf a.hashSetup (a.hashSetup ≠ psaSuccess))
    fun _ t _ quiet ↦ gives_bind (blocks t quiet) fun bytes u bytes_eq quiet' ↦
      gives_bind (gives_failIf a.hashFinish (a.hashFinish ≠ psaSuccess)) fun _ v _ _ ↦
        gives_pure (fun digest ↦ digest = a.hash (s.flash.flash.read area.faOff dataSize.toNat))
          (congrArg a.hash bytes_eq)
  apply gives_mono (gives_mapError whole)
  · simp
  · intro hashable
    exact ⟨not_not.2 hashable.hashSetup, hashable, not_not.2 hashable.hashFinish, trivial⟩
  · intro digest eq
    exact eq

/-- The record has the digest of as many bytes of the slot as have been loaded. -/
def HasDigest (a : Answers P) (area : FlashArea P) (c : Fin n) (s : Store P n)
    (info : PsaFwuComponentInfo) : Prop :=
  info.candidateDigest =
    some (a.hash (s.flash.flash.read area.faOff (s.mcubootCtx c).loadedSize.toNat))

theorem Quiet.hasDigest {info : PsaFwuComponentInfo} (quiet : Quiet s t)
    (digest : HasDigest a area c t info) : HasDigest a area c s info := by
  rwa [HasDigest, quiet.flash, quiet.mcubootCtx] at digest

theorem Quiet.hashable (quiet : Quiet s t) (hashable : Hashable a s) : Hashable a t where
  fault := by
    rw [quiet.fault]
    exact hashable.fault
  hashSetup := hashable.hashSetup
  hashUpdate := hashable.hashUpdate
  hashFinish := hashable.hashFinish

/-- The component is in an update, and its slot has been opened. -/
structure Opened (E : Setup P n) (c : Fin n) (area : FlashArea P) (s : Store P n) : Prop where
  /-- The slot can be opened. -/
  secondary : E.secondary c = some area
  /-- The slot has been opened. -/
  fap : (s.mcubootCtx c).fap = some area

theorem gives_getSecondImageDigest (opened : Opened E c area s) (info : PsaFwuComponentInfo) :
    (getSecondImageDigest E a c info).Holds s (Gives s
      ((s.mcubootCtx c).loadedSize.toNat ≤ area.faSize.toNat) (Hashable a s)
      (HasDigest a area c s)) := by
  have hashed (fap : FlashArea P) (t : Store P n) (same : E.secondary c = some fap)
      (quiet : Quiet s t) :
      (utilImgHash E a fap (s.mcubootCtx c).loadedSize).Holds t (Gives t
        ((s.mcubootCtx c).loadedSize.toNat ≤ area.faSize.toNat) (Hashable a s) fun digest ↦
          digest = a.hash
            (s.flash.flash.read area.faOff (s.mcubootCtx c).loadedSize.toNat)) := by
    obtain rfl : area = fap := Option.some.inj (opened.secondary.symm.trans same)
    apply gives_mono (gives_utilImgHash (s.mcubootCtx c).loadedSize) Iff.rfl
    · exact quiet.hashable
    · intro digest eq
      rw [eq, quiet.flash]
  have whole := gives_bind (s := s)
    (gives_failIf psaErrorInvalidArgument ((s.mcubootCtx c).fap.isNone)) fun _ t _ quiet ↦
      gives_bind (gives_orFail psaErrorStorageFailure (E.secondary c)) fun fap u same quiet' ↦
        gives_bind (hashed fap u same (quiet.trans quiet')) fun digest v digest_eq _ ↦
          gives_pure (x := { info with candidateDigest := some digest }) (HasDigest a area c s)
            (congrArg some digest_eq)
  apply gives_mono whole
  · simp
  · intro hashable
    simp [opened.fap, opened.secondary, hashable]
  · intro info' digest
    exact digest

theorem gives_getImageInfo (opened : Opened E c area s) (info : PsaFwuComponentInfo) :
    (fwuBootloaderGetImageInfo E a c false true info).Holds s (Gives s
      ((s.mcubootCtx c).loadedSize.toNat ≤ area.faSize.toNat)
      (Hashable a s ∧ a.primary ≠ none ∧ a.version ≠ none) (HasDigest a area c s)) := by
  have digested (info : PsaFwuComponentInfo) (t : Store P n) (quiet : Quiet s t) :
      (getSecondImageDigest E a c info).Holds t (Gives t
        ((s.mcubootCtx c).loadedSize.toNat ≤ area.faSize.toNat) (Hashable a s)
        (HasDigest a area c s)) := by
    have opened' : Opened E c area t := ⟨opened.secondary, by rw [quiet.mcubootCtx, opened.fap]⟩
    apply gives_mono (gives_getSecondImageDigest opened' info)
    · rw [quiet.mcubootCtx]
    · exact quiet.hashable
    · intro info' digest
      exact quiet.hasDigest digest
  have whole := gives_bind (s := s) (gives_orFail psaErrorStorageFailure a.primary)
    fun slot t _ quiet ↦ gives_bind (gives_pure (fun _ ↦ True) (x := info.state) trivial)
      fun state u _ quiet' ↦ gives_bind (gives_orFail psaErrorStorageFailure a.version)
        fun version v _ quiet'' ↦ digested { info with
          state
          version := some version
          maxSize := some slot.1.faSize
          location := some slot.2
          flags := some psaFwuFlagVolatileStaging } v ((quiet.trans quiet').trans quiet'')
  apply gives_mono whole
  · simp
  · intro proper
    exact ⟨proper.2.1, trivial, proper.2.2, proper.1⟩
  · intro info' digest
    exact digest

theorem gives_query (msg : Message) (opened : Opened E c area s) (candidate : IsCandidate c s)
    (component_eq : msg.component? = some c) :
    (tfmFwuQuery E a msg).Holds s (Gives s
      ((s.mcubootCtx c).loadedSize.toNat ≤ area.faSize.toNat)
      (Undisturbed E a msg ∧ s.flash.fault = a.fault) (HasDigest a area c s)) := by
  have found (d : Fin n) (t : Store P n) (same : msg.component? = some d) (quiet : Quiet s t) :
      (fwuBootloaderGetImageInfo E a d (!(s.fwuCtx d).inUse)
        ((s.fwuCtx d).inUse && decide ((s.fwuCtx d).componentState = .candidate))
        (contextInfo (s.fwuCtx d))).Holds t (Gives t
          ((s.mcubootCtx c).loadedSize.toNat ≤ area.faSize.toNat)
          (Hashable a s ∧ a.primary ≠ none ∧ a.version ≠ none) (HasDigest a area c s)) := by
    obtain rfl : c = d := Option.some.inj (component_eq.symm.trans same)
    have opened' : Opened E c area t := ⟨opened.secondary, by rw [quiet.mcubootCtx, opened.fap]⟩
    rw [candidate.1, candidate.2]
    apply gives_mono (gives_getImageInfo opened' _)
    · rw [quiet.mcubootCtx]
    · intro proper
      exact ⟨quiet.hashable proper.1, proper.2⟩
    · intro info' digest
      exact quiet.hasDigest digest
  have whole := gives_bind (s := s)
    (gives_failIf psaErrorProgrammerError
      (msg.inSize0 ≠ sizeofComponent ∨ msg.outSize0 ≠ E.config.infoSize)) fun _ t _ quiet ↦
        gives_bind (gives_orFail psaErrorDoesNotExist msg.component?) fun d u same quiet' ↦
          found d u same (quiet.trans quiet')
  apply gives_mono whole
  · simp
  · rintro ⟨calm, fault⟩
    refine ⟨?_, by simp [component_eq], ⟨?_, calm.hashSetup, calm.hashUpdate, calm.hashFinish⟩,
      calm.primary, calm.version⟩
    · simp [calm.inSize0, calm.outSize0]
    · rw [fault]
      exact calm.fault
  · intro info' digest
    exact digest

end Queries

end TrustedFirmwareM.Fwu.Staging
