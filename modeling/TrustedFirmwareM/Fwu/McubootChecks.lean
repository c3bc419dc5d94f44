import TrustedFirmwareM.Fwu.McubootUpdates
import TrustedFirmwareM.Lib.Watch
import Mathlib.Tactic.Tauto

/-!
# What the check of candidates looks at

The check only reads.  For each of its functions: the values that are returned when no access fails,
and the condition under which all that is looked at is inside of what it belongs to.
-/

namespace TrustedFirmwareM.Fwu.Mcuboot

variable {n : ℕ}

/-- An event stays inside of the array, the record or the buffer that is looked at. -/
def Inside (n : ℕ) : Event → Prop
  | .ctx index => index < n
  | .header len => len ≤ imageHeaderSize
  | .record len => len ≤ imageDependencySize
  | .shared off len => off + len ≤ sharedDataSize n
  | .flash _ | .dependency _ | .mark _ => True

/-- A dependency on an image that does not exist is looked at. -/
def Missing (n : ℕ) (e : Event) : Prop := ∃ id, n ≤ id ∧ e = .dependency id

/-- How the check is watched: it reads the flash and `mcuboot_ctx`, marks nothing, and has to end
with `PSA_ERROR_DATA_CORRUPT` at an image that does not exist. -/
def watch (n : ℕ) : Watch (State n) (Flash × Ctx n) Event PsaStatus where
  frame s := (s.flash, s.ctx)
  trace s := s.trace
  note e s := s.note e
  frame_note _ _ := rfl
  trace_note _ _ := rfl
  Kind e := ∀ component, e ≠ .mark component
  Inside := Inside n
  Last := Missing n
  status := psaErrorDataCorrupt

/-- No access fails. -/
def NoFault (fails : ℕ → Bool) : Prop := ∀ k, fails k = false

/-- What a function of the check returns, and when it is clean. -/
abbrev Does (fails : ℕ → Bool) (flash : Flash) (ctx : Ctx n) {α : Type} (x : FwuM n α)
    (returns : α → Prop) (clean : Prop) : Prop :=
  (watch n).Follows (NoFault fails) (flash, ctx) x returns clean

variable {E : Env n} {fails : ℕ → Bool} {flash : Flash} {ctx : Ctx n}

theorem does_note {x : FwuM n Unit} {e : Event} (kind : ∀ component, e ≠ .mark component)
    (found : ¬Missing n e)
    (run : ∀ s, (x s).2 = s.note e ∧
      ((x s).1 = .ok () ∨ ¬NoFault fails ∧ ∃ status, (x s).1 = .error status)) :
    Does fails flash ctx x (fun _ ↦ True) (Inside n e) :=
  Watch.follows_note kind found run

theorem does_look {e : Event} (kind : ∀ component, e ≠ .mark component) (found : ¬Missing n e) :
    Does fails flash ctx (look e) (fun _ ↦ True) (Inside n e) :=
  does_note kind found fun _ ↦ ⟨rfl, .inl rfl⟩

theorem does_access {area : Area} : Does fails flash ctx (access fails area)
    (fun _ ↦ True) True := by
  apply does_note (e := .flash area)
  · intro component eq
    exact nomatch eq
  · rintro ⟨id, -, eq⟩
    exact nomatch eq
  · intro s
    simp only [access]
    split
    · next fault =>
        refine ⟨rfl, .inr ⟨fun no_fault ↦ ?_, psaErrorStorageFailure, rfl⟩⟩
        rw [no_fault] at fault
        exact nomatch fault
    · exact ⟨rfl, .inl rfl⟩

theorem does_getState {α : Type} {next : State n → FwuM n α} {returns : α → Prop} {clean : Prop}
    (follows : ∀ s, s.flash = flash → s.ctx = ctx → Does fails flash ctx (next s) returns clean) :
    Does fails flash ctx (getState >>= next) returns clean := by
  intro s frame_eq
  exact follows s (congrArg Prod.fst frame_eq) (congrArg Prod.snd frame_eq) s frame_eq

theorem does_getFap {component : ℕ} :
    Does fails flash ctx (getFap component) (fun fap ↦ fap = ctx.fap component)
      (component < n) := by
  have read : Does fails flash ctx (getState >>= fun s ↦ pure (s.ctx.fap component))
      (fun fap ↦ fap = ctx.fap component) True := by
    apply does_getState
    intro s _ ctx_eq
    rw [ctx_eq]
    exact Watch.follows_pure
  apply ((does_look (by simp) (by simp [Missing])).bind fun _ ↦ read).congr
  · simp
  · simp [Inside]

theorem does_flashAreaRead {area : Area} {off len : ℕ} :
    Does fails flash ctx (flashAreaRead E fails area off len)
      (fun bytes ↦ off + len ≤ E.trailers.size area ∧ bytes = readBytes (flash area) off len)
      True := by
  have read : Does fails flash ctx
      (getState >>= fun s ↦ pure (readBytes (s.flash area) off len))
      (fun bytes ↦ bytes = readBytes (flash area) off len) True := by
    apply does_getState
    intro s flash_eq _
    rw [flash_eq]
    exact Watch.follows_pure
  apply (Watch.Follows.ite (fun _ ↦ Watch.follows_fail)
    (fun _ ↦ does_access.bind fun _ ↦ read)).congr
  · simp
  · simp

/-- A header in the flash. -/
def headerOf (flash : Flash) (area : Area) : List (BitVec 8) :=
  readBytes (flash area) 0 imageHeaderSize

theorem does_readHeader {area : Area} :
    Does fails flash ctx (readHeader E fails area)
      (fun hdr ↦ imageHeaderSize ≤ E.trailers.size area ∧ hdr = headerOf flash area) True := by
  apply (does_flashAreaRead.bind fun hdr ↦
    (does_look (by simp) (by simp [Missing])).bind fun _ ↦ Watch.follows_pure).congr
  · simp [headerOf]
  · simp [Inside]

/-- Offsets of the entries of the shared data from an offset on. -/
def entries (shared : ℕ → BitVec 8) : ℕ → ℕ → List ℕ
  | 0, _ => []
  | turns + 1, off =>
    if tlvTotLen shared ≤ off then []
    else off :: entries shared turns (off + (sharedDataEntryHeaderSize + tlvLen shared off))

/-- The version in the first entry for a component. -/
def versionIn (shared : ℕ → BitVec 8) (component : ℕ) (offs : List ℕ) :
    Except PsaStatus ImageVersion :=
  match offs.find? (isVersionEntry shared component) with
  | none => .error psaErrorDataCorrupt
  | some off =>
    if tlvLen shared off = imageVersionSize then
      .ok (imageVersionOf (readBytes shared (off + sharedDataEntryHeaderSize) imageVersionSize))
    else .error psaErrorDataCorrupt

/-- The entries up to the first one for a component are inside of the buffer. -/
def EntriesInside (n : ℕ) (shared : ℕ → BitVec 8) (component : ℕ) : List ℕ → Prop
  | [] => True
  | off :: offs =>
    off + sharedDataEntryHeaderSize ≤ sharedDataSize n ∧
      if isVersionEntry shared component off then
        tlvLen shared off = imageVersionSize →
          off + sharedDataEntryHeaderSize + imageVersionSize ≤ sharedDataSize n
      else EntriesInside n shared component offs

/-- The version that the shared data list for a component. -/
def activeVersion (shared : ℕ → BitVec 8) (component : ℕ) : Except PsaStatus ImageVersion :=
  if half shared 0 = sharedDataTlvInfoMagic then
    versionIn shared component (entries shared (tlvTotLen shared) 4)
  else .error psaErrorDataCorrupt

/-- The search for the version of a component stays in the shared data. -/
def SearchInside (n : ℕ) (shared : ℕ → BitVec 8) (component : ℕ) : Prop :=
  half shared 0 = sharedDataTlvInfoMagic →
    EntriesInside n shared component (entries shared (tlvTotLen shared) 4)

variable {shared : ℕ → BitVec 8} {component : ℕ}

theorem four_le_sharedDataSize : 4 ≤ sharedDataSize n := Nat.le_add_right 4 _

theorem does_look_shared {off len : ℕ} :
    Does fails flash ctx (look (.shared off len)) (fun _ ↦ True) (off + len ≤ sharedDataSize n) :=
  does_look (by simp) (by simp [Missing])

theorem versionIn_of_found {off : ℕ} {offs : List ℕ}
    (found : isVersionEntry shared component off = true) :
    versionIn shared component (off :: offs) = versionIn shared component [off] := by
  simp [versionIn, List.find?, found]

theorem versionIn_of_passed {off : ℕ} {offs : List ℕ}
    (passed : isVersionEntry shared component off = false) :
    versionIn shared component (off :: offs) = versionIn shared component offs := by
  simp [versionIn, List.find?, passed]

/-- The entry for a component is read. -/
theorem does_entry {off : ℕ} (found : isVersionEntry shared component off) :
    Does fails flash ctx
      (if tlvLen shared off ≠ imageVersionSize then pure (.error psaErrorDataCorrupt)
      else do
        look (.shared (off + sharedDataEntryHeaderSize) (tlvLen shared off))
        pure (.ok (imageVersionOf
          (readBytes shared (off + sharedDataEntryHeaderSize) (tlvLen shared off)))))
      (fun version ↦ version = versionIn shared component [off])
      (tlvLen shared off = imageVersionSize →
        off + sharedDataEntryHeaderSize + imageVersionSize ≤ sharedDataSize n) := by
  by_cases size : tlvLen shared off = imageVersionSize
  · simp only [size, ne_eq, not_true_eq_false, if_false]
    apply (does_look_shared.bind fun _ ↦ Watch.follows_pure).congr
    · simp [versionIn, List.find?, found, size]
    · simp
  · simp only [ne_eq, size, not_false_eq_true, if_true]
    apply Watch.follows_pure.congr
    · simp [versionIn, List.find?, found, size]
    · simp

theorem does_findVersion {turns tlvCurr : ℕ} :
    Does fails flash ctx (findVersion shared component turns tlvCurr)
      (fun version ↦ version = versionIn shared component (entries shared turns tlvCurr))
      (EntriesInside n shared component (entries shared turns tlvCurr)) := by
  induction turns generalizing tlvCurr with
  | zero =>
      apply Watch.follows_pure.congr
      · simp [entries, versionIn]
      · simp [entries, EntriesInside]
  | succ turns induction =>
      rw [findVersion, entries]
      by_cases done : tlvTotLen shared ≤ tlvCurr
      · simp only [done, if_true]
        apply Watch.follows_pure.congr
        · simp [versionIn]
        · simp [EntriesInside]
      · simp only [done, if_false]
        apply (does_look_shared.bind fun _ ↦
          Watch.Follows.ite (fun found ↦ does_entry found) (fun _ ↦ induction)).congr
        · intro version
          cases found : isVersionEntry shared component tlvCurr with
          | true => simp [versionIn_of_found found]
          | false => simp [versionIn_of_passed found]
        · rw [EntriesInside]
          cases isVersionEntry shared component tlvCurr with
          | true => simp
          | false => simp

theorem does_searchVersion :
    Does fails flash ctx (searchVersion shared component)
      (fun version ↦ version = activeVersion shared component)
      (SearchInside n shared component) := by
  rw [searchVersion]
  by_cases magic : half shared 0 = sharedDataTlvInfoMagic
  · simp only [magic, ne_eq, not_true_eq_false, if_false]
    apply (does_look_shared.bind fun _ ↦ does_findVersion).congr
    · simp [activeVersion, magic]
    · simp [SearchInside, magic, four_le_sharedDataSize]
  · simp only [ne_eq, magic, not_false_eq_true, if_true]
    apply Watch.follows_pure.congr
    · simp [activeVersion, magic]
    · simp [SearchInside, magic]

theorem does_getActiveImageVersion :
    Does fails flash ctx (getActiveImageVersion shared component)
      (fun version ↦ version = activeVersion shared component)
      (SearchInside n shared component) := by
  apply (does_look_shared.bind fun _ ↦ does_searchVersion).congr
  · simp
  · have header_inside := four_le_sharedDataSize (n := n)
    simp [show 2 ≤ sharedDataSize n by omega]

/-- The header of an image is there, and its magic is right. -/
def HeaderValid (E : Env n) (flash : Flash) (area : Area) : Prop :=
  imageHeaderSize ≤ E.trailers.size area ∧ ihMagic (headerOf flash area) = imageMagic

/-- The staged image that a dependency names meets it. -/
def StagedMeets (E : Env n) (flash : Flash) (ctx : Ctx n) (dep : List (BitVec 8)) : Prop :=
  ∃ area, ctx.fap (imageId dep) = some area ∧ HeaderValid E flash area ∧
    isVersionGreaterOrEqual (ihVer (headerOf flash area)) (imageMinVersion dep) = true

/-- The check takes a dependency for met by a version that is active or staged. -/
def VersionMet (E : Env n) (flash : Flash) (ctx : Ctx n) (candidates : List ℕ)
    (dep : List (BitVec 8)) : Except PsaStatus ImageVersion → Prop
  | .error _ => False
  | .ok imageVer =>
    isVersionGreaterOrEqual imageVer (imageMinVersion dep) = true ∨
      imageId dep ∈ candidates ∧ StagedMeets E flash ctx dep

/-- The check takes the dependency in the record for met. -/
def RequirementMet (E : Env n) (flash : Flash) (ctx : Ctx n) (candidates : List ℕ)
    (dep : List (BitVec 8)) : Prop :=
  imageId dep ≤ n ∧
    VersionMet E flash ctx candidates dep (activeVersion E.shared (imageId dep))

/-- The check of the dependency in the record stays inside and ends where it has to. -/
def RequirementClean (E : Env n) (dep : List (BitVec 8)) : Prop :=
  imageId dep ≠ n ∧ (imageId dep < n → SearchInside n E.shared (imageId dep))

variable {candidates : List ℕ} {dep : List (BitVec 8)}

theorem does_checkSecondary {fap : Option Area} :
    Does fails flash ctx (checkSecondary E fails dep fap)
      (fun dep' ↦ (∃ area, fap = some area ∧ HeaderValid E flash area ∧
        isVersionGreaterOrEqual (ihVer (headerOf flash area)) (imageMinVersion dep) = true) ∧
          dep' = dep) True := by
  cases fap with
  | none => exact Watch.follows_fail.congr (by simp) (by simp)
  | some area =>
      apply (does_readHeader.bind fun hdr ↦
        Watch.Follows.ite (fun _ ↦ Watch.follows_pure) (fun _ ↦ Watch.follows_fail)).congr
      · simp [HeaderValid, and_assoc]
      · simp

theorem does_checkStaged :
    Does fails flash ctx (checkStaged E fails dep)
      (fun dep' ↦ StagedMeets E flash ctx dep ∧ dep' = dep) (imageId dep < n) := by
  apply (does_getFap.bind fun fap ↦ does_checkSecondary).congr
  · simp [StagedMeets]
  · simp

theorem does_checkVersion {active : Except PsaStatus ImageVersion} :
    Does fails flash ctx (checkVersion E fails candidates dep active)
      (fun dep' ↦ VersionMet E flash ctx candidates dep active ∧ dep' = dep)
      (∀ imageVer, active = .ok imageVer →
        ¬isVersionGreaterOrEqual imageVer (imageMinVersion dep) = true →
          imageId dep ∈ candidates → imageId dep < n) := by
  cases active with
  | error status => exact Watch.follows_fail.congr (by simp [VersionMet]) (by simp)
  | ok imageVer =>
      apply (Watch.Follows.ite (fun _ ↦ Watch.follows_pure) (fun _ ↦
        Watch.Follows.ite (fun _ ↦ does_checkStaged) (fun _ ↦ Watch.follows_fail))).congr
      · intro dep'
        simp only [VersionMet]
        tauto
      · simp

theorem does_checkRequirement :
    Does fails flash ctx (checkRequirement E fails candidates dep)
      (fun dep' ↦ RequirementMet E flash ctx candidates dep ∧ dep' = dep)
      (RequirementClean E dep) := by
  rw [checkRequirement]
  rcases lt_trichotomy (imageId dep) n with lt | eq | gt
  · rw [if_neg (not_lt_of_gt lt)]
    have found : ¬Missing n (.dependency (imageId dep)) := by simp [Missing, lt]
    apply ((does_look (by simp) found).bind fun _ ↦
      does_getActiveImageVersion.bind fun active ↦ does_checkVersion).congr
    · simp [RequirementMet, lt.le]
    · simp [RequirementClean, Inside, lt, lt.ne]
  · -- The comparison lets the number of images pass, and the shared data are searched for it.
    rw [if_neg (by simp [eq]), getActiveImageVersion, Fallible.bind_assoc]
    apply (Watch.follows_past_last (W := watch n) (by simp [watch]) (by simp [watch])
      ⟨imageId dep, eq.ge, rfl⟩ (fun _ ↦ rfl) (fun _ ↦ rfl)
      (does_searchVersion.bind fun active ↦ does_checkVersion)).congr
    · simp [RequirementMet, eq.le]
    · simp [RequirementClean, eq]
  · rw [if_pos gt]
    apply (Watch.follows_last (W := watch n) (e := .dependency (imageId dep)) (by simp [watch])
      trivial (fun _ ↦ rfl) rfl).congr
    · simp [RequirementMet, gt]
    · simp [RequirementClean, gt.ne', gt.le]

/-- The record after a dependency has been read over it. -/
def recordOf (flash : Flash) (fap : Area) (tlv : ℕ × BitVec 16) (dep : List (BitVec 8)) :
    List (BitVec 8) :=
  copied (readBytes (flash fap) tlv.1 tlv.2.toNat) dep

/-- A dependency lies in its area. -/
def InArea (E : Env n) (fap : Area) (tlv : ℕ × BitVec 16) : Prop :=
  tlv.1 + tlv.2.toNat ≤ E.trailers.size fap

/-- The check takes the dependencies for met, and the record is `dep'` after that. -/
def TlvsMet (E : Env n) (flash : Flash) (ctx : Ctx n) (candidates : List ℕ) (fap : Area) :
    List (ℕ × BitVec 16) → List (BitVec 8) → List (BitVec 8) → Prop
  | [], dep, dep' => dep' = dep
  | tlv :: tlvs, dep, dep' =>
    (InArea E fap tlv ∧ RequirementMet E flash ctx candidates (recordOf flash fap tlv dep)) ∧
      TlvsMet E flash ctx candidates fap tlvs (recordOf flash fap tlv dep) dep'

/-- Each dependency that the check comes to fits the record, and its check is clean. -/
def TlvsClean (E : Env n) (flash : Flash) (ctx : Ctx n) (candidates : List ℕ) (fap : Area) :
    List (ℕ × BitVec 16) → List (BitVec 8) → Prop
  | [], _ => True
  | tlv :: tlvs, dep =>
    (InArea E fap tlv →
      tlv.2.toNat ≤ imageDependencySize ∧ RequirementClean E (recordOf flash fap tlv dep)) ∧
    (InArea E fap tlv ∧ RequirementMet E flash ctx candidates (recordOf flash fap tlv dep) →
      TlvsClean E flash ctx candidates fap tlvs (recordOf flash fap tlv dep))

variable {fap : Area} {tlvs : List (ℕ × BitVec 16)}

theorem does_checkDependency {tlv : ℕ × BitVec 16} :
    Does fails flash ctx (checkDependency E fails candidates fap tlv dep)
      (fun dep' ↦ (InArea E fap tlv ∧
        RequirementMet E flash ctx candidates (recordOf flash fap tlv dep)) ∧
          dep' = recordOf flash fap tlv dep)
      (InArea E fap tlv →
        tlv.2.toNat ≤ imageDependencySize ∧ RequirementClean E (recordOf flash fap tlv dep)) := by
  apply (does_flashAreaRead.bind fun bytes ↦
    (does_look (by simp) (by simp [Missing])).bind fun _ ↦ does_checkRequirement).congr
  · simp [InArea, recordOf, and_assoc]
  · simp [InArea, recordOf, Inside]

theorem does_checkTlvs :
    Does fails flash ctx (checkTlvs E fails candidates fap tlvs dep)
      (TlvsMet E flash ctx candidates fap tlvs dep)
      (TlvsClean E flash ctx candidates fap tlvs dep) := by
  induction tlvs generalizing dep with
  | nil =>
      apply (does_access.bind fun _ ↦ Watch.follows_pure).congr
      · simp [TlvsMet]
      · simp [TlvsClean]
  | cons tlv tlvs induction =>
      apply (does_access.bind fun _ ↦ does_checkDependency.bind fun dep' ↦ induction).congr
      · simp [TlvsMet, and_assoc]
      · simp only [TlvsClean, true_and, forall_const, and_imp]
        apply and_congr_right
        intro _
        constructor
        · intro rest in_area met
          exact rest _ in_area met rfl
        · intro rest dep' in_area met dep_eq
          rw [dep_eq]
          exact rest in_area met

/-- The check takes an image for good. -/
def ImageMet (E : Env n) (flash : Flash) (ctx : Ctx n) (candidates : List ℕ) (fap : Area)
    (dep dep' : List (BitVec 8)) : Prop :=
  HeaderValid E flash fap ∧
    TlvsMet E flash ctx candidates fap (E.dependencies (flash fap)) dep dep'

theorem does_checkImage :
    Does fails flash ctx (checkImage E fails candidates fap dep)
      (ImageMet E flash ctx candidates fap dep)
      (HeaderValid E flash fap →
        TlvsClean E flash ctx candidates fap (E.dependencies (flash fap)) dep) := by
  have iterate : Does fails flash ctx
      (getState >>= fun s ↦
        checkTlvs E fails candidates fap (E.dependencies (s.flash fap)) dep)
      (TlvsMet E flash ctx candidates fap (E.dependencies (flash fap)) dep)
      (TlvsClean E flash ctx candidates fap (E.dependencies (flash fap)) dep) := by
    apply does_getState
    intro s flash_eq _
    rw [flash_eq]
    exact does_checkTlvs
  apply (does_readHeader.bind fun hdr ↦ Watch.Follows.ite (fun _ ↦ Watch.follows_fail)
    (fun _ ↦ does_access.bind fun _ ↦ iterate)).congr
  · simp [ImageMet, HeaderValid, and_assoc]
  · simp [HeaderValid]

/-- The check takes the candidates for good, and the record is `dep'` after that. -/
def CandidatesMet (E : Env n) (flash : Flash) (ctx : Ctx n) (candidates : List ℕ) :
    List ℕ → List (BitVec 8) → List (BitVec 8) → Prop
  | [], dep, dep' => dep' = dep
  | component :: components, dep, dep' =>
    ∃ dep'', (component < n ∧ ∃ fap, ctx.fap component = some fap ∧
      ImageMet E flash ctx candidates fap dep dep'') ∧
        CandidatesMet E flash ctx candidates components dep'' dep'

/-- The dependencies of each candidate that the check comes to are clean. -/
def CandidatesClean (E : Env n) (flash : Flash) (ctx : Ctx n) (candidates : List ℕ) :
    List ℕ → List (BitVec 8) → Prop
  | [], _ => True
  | component :: components, dep =>
    (component < n → ∀ fap, ctx.fap component = some fap → HeaderValid E flash fap →
      TlvsClean E flash ctx candidates fap (E.dependencies (flash fap)) dep) ∧
    ∀ dep'', (component < n ∧ ∃ fap, ctx.fap component = some fap ∧
      ImageMet E flash ctx candidates fap dep dep'') →
        CandidatesClean E flash ctx candidates components dep''

theorem does_checkOpened {opened : Option Area} :
    Does fails flash ctx (checkOpened E fails candidates dep opened)
      (fun dep' ↦ ∃ fap, opened = some fap ∧ ImageMet E flash ctx candidates fap dep dep')
      (∀ fap, opened = some fap → HeaderValid E flash fap →
        TlvsClean E flash ctx candidates fap (E.dependencies (flash fap)) dep) := by
  cases opened with
  | none => exact Watch.follows_fail.congr (by simp) (by simp)
  | some fap => exact does_checkImage.congr (by simp) (by simp)

theorem does_checkCandidate :
    Does fails flash ctx (checkCandidate E fails candidates component dep)
      (fun dep' ↦ component < n ∧ ∃ fap, ctx.fap component = some fap ∧
        ImageMet E flash ctx candidates fap dep dep')
      (component < n → ∀ fap, ctx.fap component = some fap → HeaderValid E flash fap →
        TlvsClean E flash ctx candidates fap (E.dependencies (flash fap)) dep) := by
  apply (Watch.Follows.ite (fun _ ↦ Watch.follows_fail)
    (fun _ ↦ does_getFap.bind fun opened ↦ does_checkOpened)).congr
  · simp
  · simp only [not_le, implies_true, true_and]
    constructor
    · intro clean lt fap opened
      exact (clean lt).2 _ rfl fap opened
    · intro clean lt
      refine ⟨lt, fun opened opened_eq fap fap_eq ↦ ?_⟩
      rw [opened_eq] at fap_eq
      exact clean lt fap fap_eq

theorem does_checkCandidates {components : List ℕ} :
    Does fails flash ctx (checkCandidates E fails candidates components dep)
      (CandidatesMet E flash ctx candidates components dep)
      (CandidatesClean E flash ctx candidates components dep) := by
  induction components generalizing dep with
  | nil =>
      apply Watch.follows_pure.congr
      · simp [CandidatesMet]
      · simp [CandidatesClean]
  | cons component components induction =>
      apply (does_checkCandidate.bind fun dep' ↦ induction).congr
      · simp [CandidatesMet]
      · simp [CandidatesClean]

/-- The candidates pass the check, as far as there is one. -/
def InstallMet (E : Env n) (flash : Flash) (ctx : Ctx n) (candidates : List ℕ) : Prop :=
  1 < n → ∃ dep', CandidatesMet E flash ctx candidates candidates E.dep dep'

theorem does_checkInstall :
    Does fails flash ctx (checkInstall E fails candidates)
      (fun _ ↦ InstallMet E flash ctx candidates)
      (1 < n → CandidatesClean E flash ctx candidates candidates E.dep) := by
  apply (Watch.Follows.ite (fun _ ↦ does_checkCandidates.bind fun dep' ↦ Watch.follows_pure)
    (fun _ ↦ Watch.follows_pure)).congr
  · intro _
    simp only [InstallMet]
    by_cases several : 1 < n
    · simp [several]
    · simp [several]
  · simp

/-! ### What is looked at after the check -/

/-- All that a function looks at is inside, and no image is missing. -/
abbrev Proper {α : Type} (x : FwuM n α) : Prop :=
  (watch n).Notes (fun e ↦ Inside n e ∧ ¬Missing n e) x

theorem proper_silent {α : Type} {x : FwuM n α} (silent : ∀ s, (x s).2.trace = s.trace) :
    Proper x :=
  Watch.notes_silent silent

theorem proper_getFap (lt : component < n) : Proper (n := n) (getFap component) :=
  Watch.notes_note (e := .ctx component) ⟨lt, by simp [Missing]⟩ fun _ ↦ rfl

theorem proper_rejectStagedImage {T : Trailers} :
    Proper (n := n) (fwuBootloaderRejectStagedImage T component) := by
  rw [fwuBootloaderRejectStagedImage]
  split
  · exact proper_silent fun _ ↦ rfl
  · next lt =>
      apply (proper_getFap (not_le.mp lt)).bind
      intro opened
      cases opened with
      | none => exact proper_silent fun _ ↦ rfl
      | some fap => exact proper_silent fun _ ↦ rfl

theorem proper_rejectStagedImages {T : Trailers} {components : List ℕ} :
    Proper (n := n) (rejectStagedImages T components) := by
  induction components with
  | nil => exact proper_silent fun _ ↦ rfl
  | cons component components induction =>
      rw [rejectStagedImages]
      apply proper_rejectStagedImage.bind
      intro status
      split
      · exact proper_silent fun _ ↦ rfl
      · exact induction

theorem proper_bootSetPending {i : ℕ} : Proper (bootSetPending E i component) :=
  Watch.notes_note (e := .mark component) ⟨trivial, by simp [Missing]⟩ fun _ ↦ rfl

/-- What the loop does after a call that returned `rc`. -/
theorem proper_afterPending {i : ℕ} {rc : ℤ} {next : FwuM n PsaStatus} (proper : Proper next) :
    Proper (if rc ≠ 0 then do
        rejectStagedImages E.trailers (candidates.take i)
        Fallible.fail psaErrorStorageFailure
      else next) := by
  split
  · exact proper_rejectStagedImages.bind fun _ ↦ proper_silent fun _ ↦ rfl
  · exact proper

theorem proper_setPending {i : ℕ} {components : List ℕ} :
    Proper (setPending E candidates i components) := by
  induction components generalizing i with
  | nil => exact proper_silent fun _ ↦ rfl
  | cons component components induction =>
      exact proper_bootSetPending.bind fun rc ↦ proper_afterPending induction

/-- The loop marks its first component. -/
theorem setPending_marks {i : ℕ} {components : List ℕ} (s : State n) :
    ∃ later, (setPending E candidates i (component :: components) s).2.trace =
      s.trace ++ .mark component :: later := by
  have first : (bootSetPending E i component s).2.trace = s.trace ++ [.mark component] := rfl
  have rest : Proper (if (E.bootSetPendingMulti i component s.flash).1 ≠ 0 then do
        rejectStagedImages E.trailers (candidates.take i)
        Fallible.fail psaErrorStorageFailure
      else setPending E candidates (i + 1) components) :=
    proper_afterPending proper_setPending
  obtain ⟨later, trace_eq, -⟩ := rest (bootSetPending E i component s).2
  exact ⟨later, trace_eq.trans (by simp [watch, first])⟩

theorem setPending_ok {i : ℕ} {components : List ℕ} {s : State n}
    (ok : ∀ i component flash, (E.bootSetPendingMulti i component flash).1 = 0) :
    (setPending E candidates i components s).1 = .ok psaSuccessReboot := by
  induction components generalizing i s with
  | nil => rfl
  | cons component components induction =>
      simp only [setPending, bootSetPending, Bind.bind, look, getState, setFlash, Pure.pure, ok]
      exact induction

/-- How an attempt to install candidates goes: it ends with the check, where there is one, or the
candidates are marked after that. -/
theorem installImage_cases (E : Env n) (fails : ℕ → Bool) (s : State n) (candidates : List ℕ) :
    ∃ result : Except PsaStatus Unit, ∃ events t, t.flash = s.flash ∧ t.ctx = s.ctx ∧
      t.trace = s.trace ++ events ∧ (checkInstall E fails candidates s).1 = result ∧
      (watch n).Outcome (NoFault fails) (fun _ ↦ InstallMet E s.flash s.ctx candidates)
        (1 < n → CandidatesClean E s.flash s.ctx candidates candidates E.dep) events result ∧
      fwuBootloaderInstallImage E fails (some candidates) s =
        match result with
        | .error status => (.error status, t)
        | .ok _ => setPending E candidates 0 candidates t := by
  have check : Does fails s.flash s.ctx (checkInstall E fails candidates)
      (fun _ ↦ InstallMet E s.flash s.ctx candidates)
      (1 < n → CandidatesClean E s.flash s.ctx candidates candidates E.dep) := does_checkInstall
  obtain ⟨frame_eq, events, trace_eq, outcome⟩ := check s rfl
  refine ⟨(checkInstall E fails candidates s).1, events, (checkInstall E fails candidates s).2,
    congrArg Prod.fst frame_eq, congrArg Prod.snd frame_eq, trace_eq, rfl, outcome, ?_⟩
  rcases run : checkInstall E fails candidates s with ⟨status | value, t⟩
  · exact Fallible.bind_of_error run
  · exact Fallible.bind_of_ok run

end TrustedFirmwareM.Fwu.Mcuboot
