import TrustedFirmwareM.Fwu.McubootChecks
import Mathlib.Data.Prod.Lex

/-!
# What the check of candidates is worth

Candidates are to be marked pending only if what they depend on is there.  The check falls short of
this in three ways: it takes the number of images for an image, it copies as many bytes into the
record as an image says, and it takes what is left in the record for a part of a short dependency.
-/

namespace TrustedFirmwareM.Fwu.Mcuboot

variable {n : ℕ}

/-- Versions are ordered by major number, minor number and revision. -/
def ImageVersion.key (v : ImageVersion) : ℕ ×ₗ ℕ ×ₗ ℕ :=
  toLex (v.ivMajor.toNat, toLex (v.ivMinor.toNat, v.ivRevision.toNat))

theorem isVersionGreaterOrEqual_iff {v w : ImageVersion} :
    isVersionGreaterOrEqual v w = true ↔ w.key ≤ v.key := by
  simp only [isVersionGreaterOrEqual, ImageVersion.key, Prod.Lex.toLex_le_toLex, BitVec.lt_def,
    BitVec.le_def]
  split_ifs
  all_goals simp
  all_goals omega

/-- The bytes of a dependency. -/
def tlvBytes (flash : Flash) (fap : Area) (tlv : ℕ × BitVec 16) : List (BitVec 8) :=
  readBytes (flash fap) tlv.1 tlv.2.toNat

/-- The bytes of a dependency up to the revision of the version. -/
def requirementSize : ℕ := 8

/-- A dependency names an image and a version, and the image is active in such a version or staged
as a candidate in such a version. -/
structure DependencyMet (E : Env n) (flash : Flash) (candidates : List ℕ)
    (bytes : List (BitVec 8)) : Prop where
  /-- A version is named. -/
  named : requirementSize ≤ bytes.length
  /-- The image exists. -/
  exists_image : imageId bytes < n
  /-- The version is there. -/
  met : (∃ imageVer, activeVersion E.shared (imageId bytes) = .ok imageVer ∧
      (imageMinVersion bytes).key ≤ imageVer.key) ∨
    imageId bytes ∈ candidates ∧ HeaderValid E flash ⟨.secondary, imageId bytes⟩ ∧
      (imageMinVersion bytes).key ≤ (ihVer (headerOf flash ⟨.secondary, imageId bytes⟩)).key

/-- A candidate may be installed. -/
structure CandidateOk (E : Env n) (s : State n) (candidates : List ℕ) (component : ℕ) : Prop where
  /-- The component exists. -/
  lt : component < n
  /-- Its slot has been opened. -/
  opened : s.ctx.fap component = some ⟨.secondary, component⟩
  /-- The header is valid. -/
  valid : HeaderValid E s.flash ⟨.secondary, component⟩
  /-- The dependencies are met. -/
  dependencies : ∀ tlv ∈ E.dependencies (s.flash ⟨.secondary, component⟩),
    DependencyMet E s.flash candidates (tlvBytes s.flash ⟨.secondary, component⟩ tlv)

/-- The dependencies of the candidates lie in their slots. -/
def DependenciesInArea (E : Env n) (s : State n) (candidates : List ℕ) : Prop :=
  ∀ component ∈ candidates, ∀ tlv ∈ E.dependencies (s.flash ⟨.secondary, component⟩),
    InArea E ⟨.secondary, component⟩ tlv

/-- What has been looked at since a state. -/
def newEvents (s s' : State n) : List Event := s'.trace.drop s.trace.length

/-- An attempt to install candidates is safe. -/
structure InstallSafe (E : Env n) (s : State n) (candidates : List ℕ) (fails : ℕ → Bool)
    (result : Except PsaStatus PsaStatus) (events : List Event) : Prop where
  /-- Where there is a check, images are marked only if all candidates may be installed. -/
  marks : 1 < n → ∀ marked, .mark marked ∈ events →
    ∀ component ∈ candidates, CandidateOk E s candidates component
  /-- Such candidates are accepted when nothing fails. -/
  accepts : NoFault fails → DependenciesInArea E s candidates →
    (∀ component < n, ∃ imageVer, activeVersion E.shared component = .ok imageVer) →
      (∀ i component flash, (E.bootSetPendingMulti i component flash).1 = 0) →
        (∀ component ∈ candidates, CandidateOk E s candidates component) →
          result = .ok psaSuccessReboot
  /-- An image that does not exist makes it fail. -/
  missing : ∀ before id after, events = before ++ .dependency id :: after → n ≤ id →
    after = [] ∧ result = .error psaErrorDataCorrupt
  /-- All that is looked at is inside of what it belongs to. -/
  inside : ∀ e ∈ events, Inside n e

/-- Each attempt to install candidates is safe, whatever fails in the flash. -/
def DependencySafe (E : Env n) (s : State n) (candidates : List ℕ) : Prop :=
  ∀ fails, InstallSafe E s candidates fails
    (fwuBootloaderInstallImage E fails (some candidates) s).1
    (newEvents s (fwuBootloaderInstallImage E fails (some candidates) s).2)

/-- The check does not come to a dependency that does not fit the record, that names the number of
images, or for which the search in the shared data leaves them; and when the candidates pass, no
dependency is too short. -/
def DependenciesProper (E : Env n) (s : State n) (candidates : List ℕ) : Prop :=
  1 < n → CandidatesClean E s.flash s.ctx candidates candidates E.dep ∧
    ((∃ dep', CandidatesMet E s.flash s.ctx candidates candidates E.dep dep') →
      ∀ component ∈ candidates, ∀ tlv ∈ E.dependencies (s.flash ⟨.secondary, component⟩),
        requirementSize ≤ tlv.2.toNat)

/-! ### Dependencies in the record -/

theorem length_tlvBytes {flash : Flash} {fap : Area} {tlv : ℕ × BitVec 16} :
    (tlvBytes flash fap tlv).length = tlv.2.toNat := by
  simp [tlvBytes, readBytes]

/-- Bytes that have been copied are in the record. -/
theorem copied_getD {bytes dep : List (BitVec 8)} {i : ℕ} (lt : i < bytes.length)
    (lt' : i < imageDependencySize) : (copied bytes dep).getD i 0 = bytes.getD i 0 := by
  have taken : i < (bytes.take imageDependencySize).length := by
    rw [List.length_take]
    omega
  simp only [copied, List.getD_eq_getElem?_getD]
  rw [List.getElem?_append_left taken, List.getElem?_take_of_lt lt']

theorem imageId_copied {bytes dep : List (BitVec 8)} (named : requirementSize ≤ bytes.length) :
    imageId (copied bytes dep) = imageId bytes := by
  simp only [requirementSize] at named
  rw [imageId, copied_getD (by omega) (by decide), imageId]

theorem imageMinVersion_copied {bytes dep : List (BitVec 8)}
    (named : requirementSize ≤ bytes.length) :
    imageMinVersion (copied bytes dep) = imageMinVersion bytes := by
  have at_drop : ∀ i < 4, ((copied bytes dep).drop 4).getD i 0 = (bytes.drop 4).getD i 0 := by
    intro i lt
    simp only [requirementSize] at named
    have same : (copied bytes dep).getD (4 + i) 0 = bytes.getD (4 + i) 0 :=
      copied_getD (by omega) (by simp only [imageDependencySize]; omega)
    simpa [List.getD_eq_getElem?_getD, List.getElem?_drop] using same
  simp only [imageMinVersion, imageVersionOf]
  rw [at_drop 0 (by decide), at_drop 1 (by decide), at_drop 2 (by decide), at_drop 3 (by decide)]

/-! ### What passes the check -/

variable {E : Env n} {flash : Flash} {ctx : Ctx n} {s : State n} {candidates : List ℕ}
  {bytes dep dep' : List (BitVec 8)}

theorem dependencyMet_of_requirementMet (named : requirementSize ≤ bytes.length)
    (clean : RequirementClean E (copied bytes dep))
    (met : RequirementMet E flash ctx candidates (copied bytes dep)) :
    DependencyMet E flash candidates bytes := by
  obtain ⟨le, version_met⟩ := met
  have ne := clean.1
  simp only [imageId_copied named] at le version_met ne
  have lt : imageId bytes < n := lt_of_le_of_ne le ne
  refine ⟨named, lt, ?_⟩
  cases active : activeVersion E.shared (imageId bytes) with
  | error status =>
      rw [active] at version_met
      exact version_met.elim
  | ok imageVer =>
      rw [active] at version_met
      simp only [VersionMet, StagedMeets, imageId_copied named, imageMinVersion_copied named,
        isVersionGreaterOrEqual_iff] at version_met
      rcases version_met with ge | ⟨mem, area, opened, valid, ge⟩
      · exact .inl ⟨imageVer, rfl, ge⟩
      · obtain rfl := ctx.fap_eq _ lt area opened
        exact .inr ⟨mem, valid, ge⟩

theorem requirementMet_of_dependencyMet
    (listed : ∀ component < n, ∃ imageVer, activeVersion E.shared component = .ok imageVer)
    (opened : ∀ component ∈ candidates, ctx.fap component = some ⟨.secondary, component⟩)
    (met : DependencyMet E flash candidates bytes) :
    RequirementMet E flash ctx candidates (copied bytes dep) := by
  obtain ⟨imageVer, active⟩ := listed _ met.exists_image
  rw [RequirementMet, imageId_copied met.named, active]
  refine ⟨met.exists_image.le, ?_⟩
  simp only [VersionMet, StagedMeets, imageId_copied met.named, imageMinVersion_copied met.named,
    isVersionGreaterOrEqual_iff]
  rcases met.met with ⟨imageVer', active', ge⟩ | ⟨mem, valid, ge⟩
  · obtain rfl := Except.ok.inj (active.symm.trans active')
    exact .inl ge
  · exact .inr ⟨mem, _, opened _ mem, valid, ge⟩

theorem dependencyMet_of_tlvsMet {fap : Area} {tlvs : List (ℕ × BitVec 16)}
    (met : TlvsMet E flash ctx candidates fap tlvs dep dep')
    (clean : TlvsClean E flash ctx candidates fap tlvs dep)
    (named : ∀ tlv ∈ tlvs, requirementSize ≤ tlv.2.toNat) :
    ∀ tlv ∈ tlvs, DependencyMet E flash candidates (tlvBytes flash fap tlv) := by
  induction tlvs generalizing dep with
  | nil => simp
  | cons tlv tlvs induction =>
      have first : DependencyMet E flash candidates (tlvBytes flash fap tlv) := by
        apply dependencyMet_of_requirementMet _ (clean.1 met.1.1).2 met.1.2
        exact length_tlvBytes.symm ▸ named tlv List.mem_cons_self
      have rest := induction met.2 (clean.2 met.1)
        fun tlv' mem ↦ named tlv' (List.mem_cons_of_mem tlv mem)
      intro tlv' mem
      rcases List.mem_cons.mp mem with rfl | mem
      · exact first
      · exact rest tlv' mem

theorem exists_tlvsMet {fap : Area} {tlvs : List (ℕ × BitVec 16)}
    (listed : ∀ component < n, ∃ imageVer, activeVersion E.shared component = .ok imageVer)
    (opened : ∀ component ∈ candidates, ctx.fap component = some ⟨.secondary, component⟩)
    (in_area : ∀ tlv ∈ tlvs, InArea E fap tlv)
    (met : ∀ tlv ∈ tlvs, DependencyMet E flash candidates (tlvBytes flash fap tlv)) :
    ∃ dep', TlvsMet E flash ctx candidates fap tlvs dep dep' := by
  induction tlvs generalizing dep with
  | nil => exact ⟨dep, rfl⟩
  | cons tlv tlvs induction =>
      have rest_met : ∃ dep', TlvsMet E flash ctx candidates fap tlvs
          (recordOf flash fap tlv dep) dep' := induction
        (fun tlv' mem ↦ in_area tlv' (List.mem_cons_of_mem tlv mem))
        (fun tlv' mem ↦ met tlv' (List.mem_cons_of_mem tlv mem))
      obtain ⟨dep', rest⟩ := rest_met
      exact ⟨dep', ⟨in_area tlv List.mem_cons_self,
        requirementMet_of_dependencyMet listed opened (met tlv List.mem_cons_self)⟩, rest⟩

/-- Candidates that pass a clean check may be installed when no dependency is too short. -/
theorem candidateOk_of_candidatesMet {components : List ℕ}
    (met : CandidatesMet E s.flash s.ctx candidates components dep dep')
    (clean : CandidatesClean E s.flash s.ctx candidates components dep)
    (named : ∀ component ∈ components, ∀ tlv ∈ E.dependencies (s.flash ⟨.secondary, component⟩),
      requirementSize ≤ tlv.2.toNat) :
    ∀ component ∈ components, CandidateOk E s candidates component := by
  induction components generalizing dep with
  | nil => simp
  | cons component components induction =>
      obtain ⟨dep'', first_met, rest_met⟩ := met
      obtain ⟨lt, fap, opened, valid, tlvs_met⟩ := first_met
      obtain rfl := s.ctx.fap_eq component lt fap opened
      have tlvs_clean := clean.1 lt _ opened valid
      have rest := induction rest_met (clean.2 dep'' ⟨lt, _, opened, valid, tlvs_met⟩)
        fun component' mem ↦ named component' (List.mem_cons_of_mem component mem)
      intro component' mem
      rcases List.mem_cons.mp mem with rfl | mem
      · exact ⟨lt, opened, valid, dependencyMet_of_tlvsMet tlvs_met tlvs_clean
          (named component' List.mem_cons_self)⟩
      · exact rest component' mem

theorem exists_candidatesMet {components : List ℕ}
    (listed : ∀ component < n, ∃ imageVer, activeVersion E.shared component = .ok imageVer)
    (opened : ∀ component ∈ candidates, s.ctx.fap component = some ⟨.secondary, component⟩)
    (in_area : DependenciesInArea E s components)
    (ok : ∀ component ∈ components, CandidateOk E s candidates component) :
    ∃ dep', CandidatesMet E s.flash s.ctx candidates components dep dep' := by
  induction components generalizing dep with
  | nil => exact ⟨dep, rfl⟩
  | cons component components induction =>
      have first := ok component List.mem_cons_self
      have first_met : ∃ dep'', TlvsMet E s.flash s.ctx candidates ⟨.secondary, component⟩
          (E.dependencies (s.flash ⟨.secondary, component⟩)) dep dep'' :=
        exists_tlvsMet listed opened (in_area component List.mem_cons_self) first.dependencies
      obtain ⟨dep'', tlvs_met⟩ := first_met
      have rest_met : ∃ dep', CandidatesMet E s.flash s.ctx candidates components dep'' dep' :=
        induction (fun component' mem ↦ in_area component' (List.mem_cons_of_mem component mem))
          (fun component' mem ↦ ok component' (List.mem_cons_of_mem component mem))
      obtain ⟨dep', rest⟩ := rest_met
      exact ⟨dep', dep'', ⟨first.lt, _, first.opened, first.valid, tlvs_met⟩, rest⟩

/-! ### Attempts to install candidates -/

variable {fails : ℕ → Bool}

theorem newEvents_eq {s' : State n} {events : List Event}
    (trace_eq : s'.trace = s.trace ++ events) :
    newEvents s s' = events := by
  simp [newEvents, trace_eq]

/-- Where the dependencies are proper, each attempt is safe. -/
theorem installSafe_of_proper (proper : DependenciesProper E s candidates) :
    DependencySafe E s candidates := by
  intro fails
  obtain ⟨result, events, t, -, -, trace_eq, -, outcome, run⟩ :=
    installImage_cases E fails s candidates
  have good := outcome.good fun several ↦ (proper several).1
  rw [run]
  cases result with
  | error status =>
      rw [newEvents_eq trace_eq]
      refine ⟨?_, ?_, ?_, good.inside⟩
      · intro _ marked mem
        exact absurd rfl (outcome.kind _ mem marked)
      · intro no_fault in_area listed _ ok
        have met : InstallMet E s.flash s.ctx candidates := fun _ ↦
          exists_candidatesMet listed (fun component mem ↦ (ok component mem).opened) in_area ok
        exact nomatch outcome.complete no_fault () met
      · intro before id after eq le
        obtain ⟨after_eq, result_eq⟩ := good.last before _ after eq ⟨id, le, rfl⟩
        exact ⟨after_eq, congrArg Except.error (Except.error.inj result_eq)⟩
  | ok value =>
      have marking : Proper (setPending E candidates 0 candidates) := proper_setPending
      obtain ⟨later, trace_eq', later_proper⟩ := marking t
      have events_eq : newEvents s (setPending E candidates 0 candidates t).2 =
          events ++ later := by
        apply newEvents_eq
        rw [← List.append_assoc, ← trace_eq]
        exact trace_eq'
      simp only [events_eq]
      refine ⟨?_, ?_, ?_, ?_⟩
      · intro several _ _
        obtain ⟨clean, named⟩ := proper several
        obtain ⟨dep', met⟩ := outcome.sound value rfl several
        exact candidateOk_of_candidatesMet met clean (named ⟨dep', met⟩)
      · intro _ _ _ ok _
        exact setPending_ok ok
      · intro before id after eq le
        have mem : Event.dependency id ∈ events ++ later := by simp [eq]
        rcases List.mem_append.mp mem with mem | mem
        · exact absurd ⟨id, le, rfl⟩ (Watch.not_last_of_good good _ mem)
        · exact absurd ⟨id, le, rfl⟩ (later_proper _ mem).2
      · intro e mem
        rcases List.mem_append.mp mem with mem | mem
        · exact good.inside e mem
        · exact (later_proper e mem).1

/-- A safe attempt does not go wrong before it has ended. -/
theorem InstallSafe.not_tainted {result : Except PsaStatus PsaStatus} {events later : List Event}
    (safe : InstallSafe E s candidates fails result (events ++ later)) :
    ¬(watch n).Tainted events := by
  intro tainted
  have whole : (watch n).Tainted (events ++ later) := tainted.append
  rcases whole with ⟨e, mem, outside⟩ | ⟨before, e, after, eq, last, ne⟩
  · exact outside (safe.inside e mem)
  · obtain ⟨id, le, rfl⟩ := last
    exact ne (safe.missing before id after eq le).1

/-- An attempt without faults shows when the dependencies are not proper. -/
theorem proper_of_dependencySafe (safe : DependencySafe E s candidates) :
    DependenciesProper E s candidates := by
  intro several
  have no_fault : NoFault fun _ ↦ false := fun _ ↦ rfl
  have attempt := safe fun _ ↦ false
  obtain ⟨result, events, t, -, -, trace_eq, -, outcome, run⟩ :=
    installImage_cases E (fun _ ↦ false) s candidates
  rw [run] at attempt
  constructor
  · apply Classical.byContradiction
    intro unclean
    have tainted := outcome.tainted no_fault fun clean ↦ unclean (clean several)
    cases result with
    | error status =>
        rw [newEvents_eq trace_eq, ← List.append_nil events] at attempt
        exact attempt.not_tainted tainted
    | ok value =>
        have marking : Proper (setPending E candidates 0 candidates) := proper_setPending
        obtain ⟨later, trace_eq', -⟩ := marking t
        have whole : (setPending E candidates 0 candidates t).2.trace =
            s.trace ++ (events ++ later) := by
          rw [← List.append_assoc, ← trace_eq]
          exact trace_eq'
        simp only [newEvents_eq whole] at attempt
        exact attempt.not_tainted tainted
  · intro met component mem tlv tlv_mem
    obtain rfl := outcome.complete no_fault () fun _ ↦ met
    cases candidates with
    | nil => exact nomatch mem
    | cons first components =>
        obtain ⟨later, trace_eq'⟩ := setPending_marks (E := E) (i := 0) t
        have whole : (setPending E (first :: components) 0 (first :: components) t).2.trace =
            s.trace ++ (events ++ .mark first :: later) := by
          rw [← List.append_assoc, ← trace_eq]
          exact trace_eq'
        simp only [newEvents_eq whole] at attempt
        have ok := attempt.marks several first (by simp) component mem
        exact length_tlvBytes ▸ (ok.dependencies tlv tlv_mem).named

/-- Attempts to install candidates are safe exactly where the dependencies that the check comes to
are proper. -/
theorem dependencySafe_iff_proper (E : Env n) (s : State n) (candidates : List ℕ) :
    DependencySafe E s candidates ↔ DependenciesProper E s candidates :=
  ⟨proper_of_dependencySafe, installSafe_of_proper⟩

/-! ### The number of images as an image -/

/-- Two images have versions 1.0.0 in these shared data. -/
def listedData : List (BitVec 8) :=
  [0x16, 0x20, 28, 0,
    0x00, 0x20, 8, 0, 1, 0, 0, 0, 0, 0, 0, 0,
    0x40, 0x20, 8, 0, 1, 0, 0, 0, 0, 0, 0, 0]

/-- A header, and behind it a dependency on the third of two images. -/
def dependentImage : List (BitVec 8) :=
  [0x3d, 0xb8, 0xf3, 0x96] ++ List.replicate 28 0 ++ [2, 0, 0, 0, 1, 0, 0, 0, 0, 0, 0, 0]

/-- Each image has one dependency, and no image can be marked or confirmed. -/
def dependentEnv : Env 2 where
  trailers := smallTrailers
  dependencies _ := [(32, 12)]
  shared k := listedData.getD k 0
  dep := zeroDep
  dep_length := length_zeroDep
  bootSetPendingMulti := failedCall
  pending_frame := failedCall_frame .secondary
  pending_ok := failedCall_pending smallTrailers
  bootSetConfirmedMulti := failedCall
  confirmed_frame := failedCall_frame .primary
  confirmed_ok := failedCall_confirmed smallTrailers

/-- The image is staged for the first component. -/
def dependentState : State 2 where
  flash _ k := dependentImage.getD k 0xff
  ctx := (Ctx.closed 2).setFap 0
  trace := []

/-- The shared data are searched for an image that does not exist. -/
theorem dependencySafe_fails : ¬DependencySafe dependentEnv dependentState [0] := by
  intro safe
  have attempt := safe fun _ ↦ false
  have events_eq : newEvents dependentState
      (fwuBootloaderInstallImage dependentEnv (fun _ ↦ false) (some [0]) dependentState).2 =
        [.ctx 0, .flash ⟨.secondary, 0⟩, .header 32, .flash ⟨.secondary, 0⟩,
          .flash ⟨.secondary, 0⟩, .flash ⟨.secondary, 0⟩, .record 12] ++ .dependency 2 ::
        [.shared 0 2, .shared 2 2, .shared 4 4, .shared 16 4] := by decide
  exact nomatch (attempt.missing _ 2 _ events_eq le_rfl).1

end TrustedFirmwareM.Fwu.Mcuboot
