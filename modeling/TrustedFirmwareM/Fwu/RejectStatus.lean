import TrustedFirmwareM.Fwu.Service

/-!
# The status of a rejection

A rejection goes through all components with one status variable.  Each query and each call of the
bootloader overwrites what an earlier component has left in it, and so a reboot that is asked for
may be forgotten.
-/

namespace TrustedFirmwareM.Fwu

variable {n : ℕ} {a : Answers n} {c d : Fin n} {x y : World n} {msg : Msg}

/-- The error of a call that rejects an image on trial. -/
def trialError (status : PsaStatus) : Option PsaStatus :=
  if completes status ∨ status = psaSuccess then none else some status

/-- The error that the bootloader returns for a component. -/
def backendError (a : Answers n) (c : Fin n) (s : Slot) : Option PsaStatus :=
  if s.ctx.inUse then
    if s.ctx.componentState = .staged then
      if a.rejectStagedImage c = psaSuccess then none else some (a.rejectStagedImage c)
    else if s.ctx.componentState = .trial then trialError (a.rejectTrialImage c)
    else none
  else if a.imageInfo c ≠ psaSuccess then some (a.imageInfo c)
  else if s.trial then trialError (a.rejectTrialImage c)
  else none

/-- The last status that the bootloader returns for a component. -/
def lastStatus (a : Answers n) (c : Fin n) (s : Slot) : Option PsaStatus :=
  if s.ctx.inUse then
    if s.ctx.componentState = .staged then some (a.rejectStagedImage c)
    else if s.ctx.componentState = .trial then some (a.rejectTrialImage c)
    else none
  else if s.trial then some (a.rejectTrialImage c)
  else some (a.imageInfo c)

/-- A component is staged or on trial. -/
def Slot.Affected (s : Slot) : Prop := s.Recorded .staged ∨ s.reported = .trial

instance (s : Slot) : Decidable s.Affected :=
  inferInstanceAs (Decidable ((s.ctx.inUse = true ∧ s.ctx.componentState = .staged) ∨ _))

/-- No component up to one gets an error. -/
def Reached (a : Answers n) (x : World n) (c : Fin n) : Prop :=
  ∀ d < c, backendError a d (x.slot d) = none

/-- A component has been on trial and is rejected now: a reboot or a restart has been asked for. -/
def Rejected (x y : World n) (c : Fin n) : Prop :=
  (x.slot c).reported = .trial ∧ (y.slot c).Recorded .rejected

/-- The status of a rejection is what the bootloader has asked for. -/
structure StatusKept (a : Answers n) (msg : Msg) (x : World n) : Prop where
  /-- When a component is rejected, the reboot or restart is returned, unless there is an error. -/
  rejected : (∃ c, Rejected x (tfmFwuReject a msg x).2 c) →
    (∃ c, Rejected x (tfmFwuReject a msg x).2 c ∧
      (tfmFwuReject a msg x).1 = a.rejectTrialImage c) ∨
    ∃ c, Reached a x c ∧ backendError a c (x.slot c) = some (tfmFwuReject a msg x).1
  /-- Staged components fail, and that is a success. -/
  staged : msg.inSize0 = sizeofStatus → 0 < n → (∀ c, (x.slot c).Recorded .staged) →
    (∀ c, a.rejectStagedImage c = psaSuccess) →
      (tfmFwuReject a msg x).1 = psaSuccess ∧
        ∀ c, ((tfmFwuReject a msg x).2.slot c).Recorded .failed
  /-- An error is returned. -/
  error : msg.inSize0 = sizeofStatus → ∀ c status, Reached a x c →
    backendError a c (x.slot c) = some status → (tfmFwuReject a msg x).1 = status

/-- A reboot or a restart is asked for a component. -/
def Asked (a : Answers n) (x : World n) (c : Fin n) : Prop :=
  (x.slot c).reported = .trial ∧ completes (a.rejectTrialImage c)

/-- Where nothing fails and a reboot or a restart is asked for some component, it is asked for one
after which no status is returned: later components are in use, and neither staged nor on trial. -/
def AskedLast (a : Answers n) (msg : Msg) (x : World n) : Prop :=
  msg.inSize0 = sizeofStatus → (∀ c, backendError a c (x.slot c) = none) → (∃ c, Asked a x c) →
    ∃ c, Asked a x c ∧ ∀ d, c < d → lastStatus a d (x.slot d) = none

/-! ### What the loop does with the status -/

/-- The status after a list of components, without errors. -/
def statusAfter (a : Answers n) (x : World n) (cs : List (Fin n))
    (status : PsaStatus) : PsaStatus :=
  cs.foldl (fun status c ↦ (lastStatus a c (x.slot c)).getD status) status

theorem not_completes_success : ¬completes psaSuccess := by decide

theorem rejectTrial_status (a : Answers n) (c : Fin n) (error : PsaStatus) (s : Rejection n) :
    (rejectTrial a error c s).1 = (trialError (a.rejectTrialImage c)).isNone ∧
      (rejectTrial a error c s).2.status = a.rejectTrialImage c ∧
      (rejectTrial a error c s).2.found = s.found := by
  simp only [rejectTrial, fwuBootloaderRejectTrialImage, trialError]
  by_cases asked : completes (a.rejectTrialImage c)
  · simp [asked]
  · by_cases success : a.rejectTrialImage c = psaSuccess
    · simp [success, not_completes_success]
    · simp [asked, success]

/-- What a turn of the loop does with its variables. -/
structure Turned (a : Answers n) (c : Fin n) (s : Rejection n)
    (result : Bool × Rejection n) : Prop where
  /-- An error ends the loop. -/
  failed : ∀ status, backendError a c (s.world.slot c) = some status →
    result.1 = false ∧ result.2.status = status
  /-- Without an error the last status is kept. -/
  goes_on : backendError a c (s.world.slot c) = none →
    result.1 = true ∧ result.2.status = (lastStatus a c (s.world.slot c)).getD s.status ∧
      (result.2.found = true ↔ s.found = true ∨ (s.world.slot c).Affected)

/-- A component on trial is rejected in its turn. -/
theorem turned_rejectTrial {error : PsaStatus} {s t : Rejection n}
    (on_trial : (s.world.slot c).reported = .trial)
    (backend : backendError a c (s.world.slot c) = trialError (a.rejectTrialImage c))
    (last : lastStatus a c (s.world.slot c) = some (a.rejectTrialImage c))
    (found : t.found = true) :
    Turned a c s (rejectTrial a error c t) := by
  obtain ⟨result_eq, status_eq, found_eq⟩ := rejectTrial_status a c error t
  constructor
  · intro status failed
    rw [backend] at failed
    refine ⟨by rw [result_eq, failed]; rfl, ?_⟩
    rw [status_eq]
    simp only [trialError, Option.ite_none_left_eq_some, Option.some.injEq] at failed
    exact failed.2
  · intro none_failed
    rw [backend] at none_failed
    refine ⟨by rw [result_eq, none_failed]; rfl, by rw [status_eq, last]; rfl, ?_⟩
    simp [found_eq, found, Slot.Affected, on_trial]

theorem turned_rejectComponent (a : Answers n) (error : PsaStatus) (c : Fin n) (s : Rejection n) :
    Turned a c s (rejectComponent a error c s) := by
  rw [rejectComponent]
  dsimp only
  split
  · next inUse =>
      have in_use : (s.world.slot c).ctx.inUse = true := inUse
      split
      · next staged =>
          have recorded : (s.world.slot c).ctx.componentState = .staged := staged
          constructor
          · intro status failed
            simp only [backendError, in_use, recorded, if_true] at failed
            split at failed
            · cases failed
            · next error => exact ⟨decide_eq_false error, Option.some.inj failed⟩
          · intro none_failed
            simp only [backendError, in_use, recorded, if_true] at none_failed
            split at none_failed
            · next success =>
                refine ⟨decide_eq_true success, ?_, ?_⟩
                · simp [lastStatus, in_use, recorded, fwuBootloaderRejectStagedImage]
                · simp [Slot.Affected, Slot.Recorded, in_use, recorded]
            · cases none_failed
      · next not_staged =>
          have not_recorded : (s.world.slot c).ctx.componentState ≠ .staged := not_staged
          split
          · next trial =>
              have recorded : (s.world.slot c).ctx.componentState = .trial := trial
              exact turned_rejectTrial (Slot.reported_of_recorded ⟨in_use, recorded⟩)
                (by simp [backendError, in_use, recorded])
                  (by simp [lastStatus, in_use, recorded]) rfl
          · next not_trial =>
              have not_recorded' : (s.world.slot c).ctx.componentState ≠ .trial := not_trial
              constructor
              · intro status failed
                simp [backendError, in_use, not_recorded, not_recorded'] at failed
              · intro _
                simp [lastStatus, in_use, not_recorded, not_recorded', Slot.Affected, Slot.Recorded,
                  Slot.reported]
  · next idle =>
      have not_in_use : (s.world.slot c).ctx.inUse = false :=
        Bool.eq_false_of_not_eq_true idle
      split
      · next failed =>
          constructor
          · intro status eq
            simpa [backendError, not_in_use, failed] using eq
          · intro eq
            simp [backendError, not_in_use, failed] at eq
      · next answered =>
          have success : a.imageInfo c = psaSuccess := not_not.mp answered
          split
          · next on_trial =>
              have trial : (s.world.slot c).trial = true := on_trial
              exact turned_rejectTrial (by simp [Slot.reported, not_in_use, trial])
                (by simp [backendError, not_in_use, success, trial])
                (by simp [lastStatus, not_in_use, trial]) rfl
          · next accepted =>
              have not_trial : (s.world.slot c).trial = false :=
                Bool.eq_false_of_not_eq_true accepted
              constructor
              · intro status eq
                simp [backendError, not_in_use, success, not_trial] at eq
              · intro _
                simp [lastStatus, not_in_use, not_trial, Slot.Affected, Slot.Recorded,
                  Slot.reported]

/-- The world in a turn is the one at the start, for the components to come. -/
theorem slot_rejectComponent (a : Answers n) (error : PsaStatus) (s : Rejection n)
    {l : List (Fin n)}
    (fresh : c ∉ l) : ∀ d ∈ l, (rejectComponent a error c s).2.world.slot d = s.world.slot d := by
  intro d mem
  apply rejectComponent_spec.others
  rintro rfl
  exact fresh mem

theorem statusAfter_congr {l : List (Fin n)} {status : PsaStatus}
    (same : ∀ d ∈ l, y.slot d = x.slot d) : statusAfter a y l status =
      statusAfter a x l status := by
  induction l generalizing status with
  | nil => rfl
  | cons c l induction =>
      have rest : statusAfter a y l ((lastStatus a c (x.slot c)).getD status) =
          statusAfter a x l ((lastStatus a c (x.slot c)).getD status) :=
        induction fun d mem ↦ same d (List.mem_cons_of_mem c mem)
      simpa [statusAfter, same c List.mem_cons_self] using rest

/-- The first error of the components is returned. -/
theorem rejectLoop_of_error {error status : PsaStatus} {before after : List (Fin n)}
    (nodup : (before ++ c :: after).Nodup) (s : Rejection n)
    (clear : ∀ d ∈ before, backendError a d (s.world.slot d) = none)
    (failed : backendError a c (s.world.slot c) = some status) :
    (rejectLoop a error (before ++ c :: after) s).1 = status := by
  induction before generalizing s with
  | nil =>
      obtain ⟨ends, status_eq⟩ := (turned_rejectComponent a error c s).failed status failed
      rw [List.nil_append, rejectLoop]
      split
      · next run =>
          rw [run] at ends
          cases ends
      · next run =>
          rw [run] at status_eq
          exact status_eq
  | cons first before induction =>
      obtain ⟨fresh, nodup⟩ := List.nodup_cons.mp nodup
      have goes_on := (turned_rejectComponent a error first s).goes_on
        (clear first List.mem_cons_self)
      have same := slot_rejectComponent a error s fresh
      rw [List.cons_append, rejectLoop]
      split
      · next t run =>
          rw [run] at same
          apply induction nodup t
          · intro d mem
            rw [same d (by simp [mem])]
            exact clear d (List.mem_cons_of_mem first mem)
          · rw [same c (by simp)]
            exact failed
      · next run =>
          rw [run] at goes_on
          cases goes_on.1

/-- Without an error the status after all components is returned. -/
theorem rejectLoop_of_clear {error : PsaStatus} {l : List (Fin n)} (nodup : l.Nodup)
    (s : Rejection n) (clear : ∀ d ∈ l, backendError a d (s.world.slot d) = none) :
    (rejectLoop a error l s).1 =
      if s.found = true ∨ ∃ d ∈ l, (s.world.slot d).Affected then statusAfter a s.world l s.status
      else psaErrorBadState := by
  induction l generalizing s with
  | nil => simp [rejectLoop, statusAfter]
  | cons c l induction =>
      obtain ⟨fresh, nodup⟩ := List.nodup_cons.mp nodup
      have goes_on := (turned_rejectComponent a error c s).goes_on (clear c List.mem_cons_self)
      have same := slot_rejectComponent a error s fresh
      rw [rejectLoop]
      split
      · next t run =>
          rw [run] at same goes_on
          obtain ⟨-, status_eq, found_iff⟩ := goes_on
          have later_clear : ∀ d ∈ l, backendError a d (t.world.slot d) = none := by
            intro d mem
            rw [same d mem]
            exact clear d (List.mem_cons_of_mem c mem)
          have affected_iff : (∃ d ∈ l, (t.world.slot d).Affected) ↔
              ∃ d ∈ l, (s.world.slot d).Affected := by
            apply exists_congr
            intro d
            apply and_congr_right
            intro mem
            rw [same d mem]
          rw [induction nodup t later_clear, statusAfter_congr same, status_eq]
          simp only [found_iff, affected_iff, List.mem_cons, exists_eq_or_imp, or_assoc]
          rfl
      · next run =>
          rw [run] at goes_on
          cases goes_on.1

/-! ### What the loop does with the components -/

theorem slot_rejectTrial (a : Answers n) (error : PsaStatus) (c : Fin n) (s : Rejection n) :
    (rejectTrial a error c s).2.world.slot c =
      ⟨if completes (a.rejectTrialImage c) then
          { s.world.ctx c with componentState := .rejected, error }
        else if a.rejectTrialImage c = psaSuccess then
          { s.world.ctx c with componentState := .failed, error }
        else s.world.ctx c,
        if a.rejectTrialImage c = psaSuccess then false else s.world.trial c,
          s.world.pending c⟩ := by
  simp only [rejectTrial, fwuBootloaderRejectTrialImage]
  by_cases asked : completes (a.rejectTrialImage c)
  · have not_success : a.rejectTrialImage c ≠ psaSuccess := by
      intro success
      rw [success] at asked
      exact not_completes_success asked
    simp [asked, not_success, World.slot, World.modify, World.called]
  · by_cases success : a.rejectTrialImage c = psaSuccess
    · simp [success, not_completes_success, World.slot, World.modify, World.called]
    · simp [asked, success, World.slot, World.called]

/-- A component on trial is recorded as rejected only when a reboot or a restart is asked for. -/
theorem slot_rejectComponent_trial (a : Answers n) (error : PsaStatus) (s : Rejection n)
    (on_trial : (s.world.slot c).reported = .trial) :
    ((rejectComponent a error c s).2.world.slot c).Recorded .rejected ↔
      completes (a.rejectTrialImage c) ∧ backendError a c (s.world.slot c) = none := by
  cases inUse : (s.world.ctx c).inUse with
  | true =>
      have in_use : (s.world.slot c).ctx.inUse = true := inUse
      have recorded : (s.world.slot c).ctx.componentState = .trial := by
        simpa [Slot.reported, in_use] using on_trial
      have trial : (s.world.ctx c).componentState = .trial := recorded
      have turn : (rejectComponent a error c s).2 =
          (rejectTrial a error c { s with found := true }).2 := by
        simp [rejectComponent, inUse, trial]
      rw [turn, slot_rejectTrial]
      simp only [Slot.Recorded, backendError, in_use, recorded, trialError]
      by_cases asked : completes (a.rejectTrialImage c)
      · simp [asked, inUse]
      · by_cases success : a.rejectTrialImage c = psaSuccess
        · simp [success, not_completes_success]
        · simp [asked, success, trial]
  | false =>
      have in_use : (s.world.slot c).ctx.inUse = false := inUse
      have trial : (s.world.slot c).trial = true := by
        simpa [Slot.reported, in_use] using on_trial
      have trial' : s.world.trial c = true := trial
      by_cases answered : a.imageInfo c = psaSuccess
      · have turn : (rejectComponent a error c s).2 = (rejectTrial a error c
            ⟨psaSuccess, true, s.world.modify c fun r ↦
              { r with inUse := true, componentState := .trial }⟩).2 := by
          simp [rejectComponent, inUse, answered, trial']
        rw [turn, slot_rejectTrial]
        simp only [Slot.Recorded, backendError, in_use, trial, answered, trialError]
        by_cases asked : completes (a.rejectTrialImage c)
        · simp [asked, World.modify]
        · by_cases success : a.rejectTrialImage c = psaSuccess
          · simp [success, not_completes_success]
          · simp [asked, success, World.modify]
      · have turn : (rejectComponent a error c s).2.world = s.world := by
          simp [rejectComponent, inUse, answered]
        simp [turn, Slot.Recorded, backendError, in_use, answered]

/-- A staged component has failed. -/
theorem slot_rejectComponent_staged (a : Answers n) (error : PsaStatus) (s : Rejection n)
    (staged : (s.world.slot c).Recorded .staged) :
    ((rejectComponent a error c s).2.world.slot c).Recorded .failed := by
  obtain ⟨in_use, recorded⟩ := staged
  have inUse : (s.world.ctx c).inUse = true := in_use
  have componentState : (s.world.ctx c).componentState = .staged := recorded
  simp [rejectComponent, inUse, componentState, fwuBootloaderRejectStagedImage, World.slot,
    World.modify, World.called, Slot.Recorded]

/-- The loop does with a component what its turn does, unless it has ended before. -/
theorem rejectLoop_slot {error : PsaStatus} {l : List (Fin n)} (nodup : l.Nodup)
    (s : Rejection n) (c : Fin n) :
    ((rejectLoop a error l s).2.slot c = s.world.slot c ∧
        ¬(c ∈ l ∧ ∀ d ∈ l, backendError a d (s.world.slot d) = none)) ∨
      ∃ t : Rejection n, t.world.slot c = s.world.slot c ∧
        (rejectLoop a error l s).2.slot c = (rejectComponent a error c t).2.world.slot c := by
  induction l generalizing s with
  | nil => exact .inl ⟨rfl, fun clear ↦ List.not_mem_nil clear.1⟩
  | cons first l induction =>
      obtain ⟨fresh, distinct⟩ := List.nodup_cons.mp nodup
      have kept : c ≠ first →
          (rejectComponent a error first s).2.world.slot c = s.world.slot c :=
        rejectComponent_spec.others c
      have same := slot_rejectComponent a error s fresh
      have turned := turned_rejectComponent a error first s
      rw [rejectLoop]
      split
      · next t run =>
          rw [run] at kept same turned
          rcases eq_or_ne c first with rfl | ne
          · have rest := (rejectLoop_spec a error distinct t).2.1 c fresh
            exact .inr ⟨s, rfl, by rw [rest, run]⟩
          · rcases induction distinct t with ⟨slot_eq, unclear⟩ | ⟨t', slot_eq, turn⟩
            · refine .inl ⟨slot_eq.trans (kept ne), fun clear ↦ unclear ⟨?_, fun d mem ↦ ?_⟩⟩
              · exact (List.mem_cons.mp clear.1).resolve_left ne
              · rw [same d mem]
                exact clear.2 d (List.mem_cons_of_mem first mem)
            · exact .inr ⟨t', slot_eq.trans (kept ne), turn⟩
      · next t run =>
          rw [run] at kept turned
          rcases eq_or_ne c first with rfl | ne
          · exact .inr ⟨s, rfl, by rw [run]⟩
          · refine .inl ⟨kept ne, fun clear ↦ ?_⟩
            cases (turned.goes_on (clear.2 first List.mem_cons_self)).1

/-! ### The status and the components -/

/-- A rejection that is well-formed. -/
theorem tfmFwuReject_eq (size : msg.inSize0 = sizeofStatus) :
    tfmFwuReject a msg x = rejectLoop a msg.error (List.finRange n) ⟨psaSuccess, false, x⟩ := by
  rw [tfmFwuReject, if_neg (not_not_intro size)]

theorem rejected_size (rejected : Rejected x (tfmFwuReject a msg x).2 c) :
    msg.inSize0 = sizeofStatus := by
  by_contra wrong
  rw [tfmFwuReject, if_pos wrong] at rejected
  obtain ⟨on_trial, in_use, recorded⟩ := rejected
  rw [Slot.reported, if_pos in_use, recorded] at on_trial
  cases on_trial

/-- A component that is rejected has been on trial, and a reboot or a restart has been asked for. -/
theorem completes_of_rejected (rejected : Rejected x (tfmFwuReject a msg x).2 c) :
    completes (a.rejectTrialImage c) := by
  rw [tfmFwuReject_eq (rejected_size rejected)] at rejected
  obtain ⟨on_trial, recorded⟩ := rejected
  rcases rejectLoop_slot (List.nodup_finRange n) ⟨psaSuccess, false, x⟩ c with
    ⟨slot_eq, -⟩ | ⟨t, slot_eq, turn⟩
  · rw [slot_eq] at recorded
    have reported := Slot.reported_of_recorded recorded
    exact nomatch on_trial.symm.trans reported
  · rw [turn, slot_rejectComponent_trial a _ t (slot_eq ▸ on_trial)] at recorded
    exact recorded.1

theorem rejected_of_clear (size : msg.inSize0 = sizeofStatus)
    (clear : ∀ d, backendError a d (x.slot d) = none) (on_trial : (x.slot c).reported = .trial)
    (asked : completes (a.rejectTrialImage c)) : Rejected x (tfmFwuReject a msg x).2 c := by
  refine ⟨on_trial, ?_⟩
  rw [tfmFwuReject_eq size]
  rcases rejectLoop_slot (List.nodup_finRange n) ⟨psaSuccess, false, x⟩ c with
    ⟨-, unclear⟩ | ⟨t, slot_eq, turn⟩
  · exact absurd ⟨List.mem_finRange c, fun d _ ↦ clear d⟩ unclear
  · rw [turn, slot_rejectComponent_trial a _ t (slot_eq ▸ on_trial), slot_eq]
    exact ⟨asked, clear c⟩

/-- Where the status comes from after a list of components. -/
theorem statusAfter_cases (a : Answers n) (x : World n) (l : List (Fin n)) (status : PsaStatus) :
    statusAfter a x l status = status ∧ (∀ d ∈ l, lastStatus a d (x.slot d) = none) ∨
      ∃ before c after, l = before ++ c :: after ∧ (∀ d ∈ after, lastStatus a d (x.slot d) = none) ∧
        lastStatus a c (x.slot c) = some (statusAfter a x l status) := by
  induction l generalizing status with
  | nil => exact .inl ⟨rfl, by simp⟩
  | cons first l induction =>
      rcases induction ((lastStatus a first (x.slot first)).getD status) with
        ⟨same, clear⟩ | ⟨before, c, after, rfl, clear, last⟩
      · cases returned : lastStatus a first (x.slot first) with
        | none =>
            rw [returned] at same
            refine .inl ⟨by simpa [statusAfter, returned] using same, ?_⟩
            simpa [returned] using clear
        | some status' =>
            rw [returned] at same
            refine .inr ⟨[], first, l, rfl, clear, ?_⟩
            simpa [statusAfter, returned] using same.symm
      · exact .inr ⟨first :: before, c, after, rfl, clear, last⟩

/-- Later components are those behind a component in the list of all. -/
theorem mem_after_iff {before after : List (Fin n)}
    (split : List.finRange n = before ++ c :: after) :
    (∀ d ∈ before, d < c) ∧ ∀ d, c < d ↔ d ∈ after := by
  have sorted : (before ++ c :: after).Pairwise (· < ·) := by
    rw [← split]
    exact List.pairwise_lt_finRange n
  obtain ⟨-, tail, across⟩ := List.pairwise_append.mp sorted
  have earlier : ∀ d ∈ before, d < c := fun d mem ↦ across d mem c List.mem_cons_self
  refine ⟨earlier, fun d ↦ ⟨fun lt ↦ ?_, (List.pairwise_cons.mp tail).1 d⟩⟩
  have mem : d ∈ before ++ c :: after := by
    rw [← split]
    exact List.mem_finRange d
  rcases List.mem_append.mp mem with mem | mem
  · exact absurd lt (earlier d mem).asymm
  · exact (List.mem_cons.mp mem).resolve_left lt.ne'

theorem exists_split (c : Fin n) : ∃ before after, List.finRange n = before ++ c :: after :=
  List.append_of_mem (List.mem_finRange c)

/-- The first error is the result. -/
theorem reject_of_error {status : PsaStatus} (size : msg.inSize0 = sizeofStatus)
    (reached : Reached a x c) (failed : backendError a c (x.slot c) = some status) :
    (tfmFwuReject a msg x).1 = status := by
  obtain ⟨before, after, split⟩ := exists_split c
  have nodup := List.nodup_finRange n
  rw [tfmFwuReject_eq size, split]
  rw [split] at nodup
  exact rejectLoop_of_error nodup ⟨psaSuccess, false, x⟩
    (fun d mem ↦ reached d ((mem_after_iff split).1 d mem)) failed

/-- Without an error the last status is the result. -/
theorem reject_of_clear (size : msg.inSize0 = sizeofStatus)
    (clear : ∀ d, backendError a d (x.slot d) = none) (affected : (x.slot c).Affected) :
    (tfmFwuReject a msg x).1 = statusAfter a x (List.finRange n) psaSuccess := by
  rw [tfmFwuReject_eq size, rejectLoop_of_clear (List.nodup_finRange n) _ fun d _ ↦ clear d,
    if_pos (.inr ⟨c, List.mem_finRange c, affected⟩)]

/-- A status that asks for a reboot or a restart is that of a component on trial. -/
theorem asked_of_lastStatus {status : PsaStatus} (clear : backendError a c (x.slot c) = none)
    (last : lastStatus a c (x.slot c) = some status) (completing : completes status) :
    Asked a x c ∧ status = a.rejectTrialImage c := by
  have not_success : status ≠ psaSuccess := by
    rintro rfl
    exact not_completes_success completing
  rw [lastStatus] at last
  rw [backendError] at clear
  split at last
  · next in_use =>
      rw [if_pos in_use] at clear
      split at last
      · next staged =>
          rw [if_pos staged] at clear
          split at clear
          · next success => exact absurd ((Option.some.inj last).symm.trans success) not_success
          · exact nomatch clear
      · next not_staged =>
          split at last
          · next trial =>
              obtain rfl := Option.some.inj last
              exact ⟨⟨Slot.reported_of_recorded ⟨in_use, trial⟩, completing⟩, rfl⟩
          · exact nomatch last
  · next idle =>
      rw [if_neg idle] at clear
      split at last
      · next trial =>
          obtain rfl := Option.some.inj last
          exact ⟨⟨(if_neg idle).trans (if_pos trial), completing⟩, rfl⟩
      · obtain rfl := Option.some.inj last
        rw [if_pos not_success] at clear
        exact nomatch clear

theorem lastStatus_of_trial (on_trial : (x.slot c).reported = .trial) :
    lastStatus a c (x.slot c) = some (a.rejectTrialImage c) := by
  rw [Slot.reported] at on_trial
  rw [lastStatus]
  split at on_trial
  · next in_use => simp [in_use, on_trial]
  · next idle =>
      split at on_trial
      · next trial => simp [idle, trial]
      · cases on_trial

/-- What is asked for last is the status after all components. -/
theorem statusAfter_of_asked (asked : Asked a x c)
    (later : ∀ d, c < d → lastStatus a d (x.slot d) = none) :
    statusAfter a x (List.finRange n) psaSuccess = a.rejectTrialImage c := by
  obtain ⟨before, after, split⟩ := exists_split c
  have kept : ∀ status, statusAfter a x after status = status := by
    intro status
    rcases statusAfter_cases a x after status with ⟨same, -⟩ | ⟨front, d, rest, rfl, -, last⟩
    · exact same
    · have lt : c < d := ((mem_after_iff split).2 d).mpr (by simp)
      exact nomatch (later d lt).symm.trans last
  have step := kept ((lastStatus a c (x.slot c)).getD (statusAfter a x before psaSuccess))
  rw [split]
  simp only [statusAfter, List.foldl_append, List.foldl_cons] at step ⊢
  rw [step, lastStatus_of_trial asked.1]
  rfl

/-- There is a first error when there is one. -/
theorem exists_first_error (unclear : ¬∀ c, backendError a c (x.slot c) = none) :
    ∃ c status, Reached a x c ∧ backendError a c (x.slot c) = some status := by
  obtain ⟨c, failed⟩ := not_forall.mp unclear
  induction c using WellFoundedLT.induction with
  | ind c induction =>
      rcases Classical.em (Reached a x c) with reached | unreached
      · obtain ⟨status, eq⟩ := Option.ne_none_iff_exists'.mp failed
        exact ⟨c, status, reached, eq⟩
      · rw [Reached, not_forall] at unreached
        obtain ⟨d, later⟩ := unreached
        obtain ⟨lt, failed'⟩ := Classical.not_imp.mp later
        exact induction d lt failed'

theorem rejected_of_askedLast (kept : AskedLast a msg x)
    (rejected : ∃ c, Rejected x (tfmFwuReject a msg x).2 c) :
    (∃ c, Rejected x (tfmFwuReject a msg x).2 c ∧
      (tfmFwuReject a msg x).1 = a.rejectTrialImage c) ∨
    ∃ c, Reached a x c ∧ backendError a c (x.slot c) = some (tfmFwuReject a msg x).1 := by
  obtain ⟨c, rejected⟩ := rejected
  have size := rejected_size rejected
  rcases Classical.em (∀ d, backendError a d (x.slot d) = none) with clear | unclear
  · have asked : Asked a x c := ⟨rejected.1, completes_of_rejected rejected⟩
    obtain ⟨d, asked', later⟩ := kept size clear ⟨c, asked⟩
    refine .inl ⟨d, rejected_of_clear size clear asked'.1 asked'.2, ?_⟩
    rw [reject_of_clear size clear (.inr asked'.1), statusAfter_of_asked asked' later]
  · obtain ⟨d, status, reached, failed⟩ := exists_first_error unclear
    refine .inr ⟨d, reached, ?_⟩
    rw [reject_of_error size reached failed, failed]

theorem reject_of_staged (size : msg.inSize0 = sizeofStatus) (pos : 0 < n)
    (staged : ∀ c, (x.slot c).Recorded .staged)
    (success : ∀ c, a.rejectStagedImage c = psaSuccess) :
    (tfmFwuReject a msg x).1 = psaSuccess ∧
      ∀ c, ((tfmFwuReject a msg x).2.slot c).Recorded .failed := by
  have clear : ∀ d, backendError a d (x.slot d) = none := by
    intro d
    simp [backendError, (staged d).1, (staged d).2, success]
  constructor
  · rw [reject_of_clear size clear (.inl (staged ⟨0, pos⟩))]
    rcases statusAfter_cases a x (List.finRange n) psaSuccess with
      ⟨same, -⟩ | ⟨before, c, after, -, -, last⟩
    · exact same
    · simpa [lastStatus, (staged c).1, (staged c).2, success, eq_comm] using last
  · intro c
    rw [tfmFwuReject_eq size]
    rcases rejectLoop_slot (List.nodup_finRange n) ⟨psaSuccess, false, x⟩ c with
      ⟨-, unclear⟩ | ⟨t, slot_eq, turn⟩
    · exact absurd ⟨List.mem_finRange c, fun d _ ↦ clear d⟩ unclear
    · rw [turn]
      exact slot_rejectComponent_staged a _ t (slot_eq ▸ staged c)

/-- The status of a rejection is kept exactly when what is asked for is asked for last. -/
theorem statusKept_iff_askedLast (a : Answers n) (msg : Msg) (x : World n) :
    StatusKept a msg x ↔ AskedLast a msg x := by
  constructor
  · intro kept size clear asked
    obtain ⟨c, asked⟩ := asked
    have status_eq := reject_of_clear size clear (.inr asked.1)
    rcases kept.rejected ⟨c, rejected_of_clear size clear asked.1 asked.2⟩ with
      ⟨d, rejected, returned⟩ | ⟨d, -, failed⟩
    · have completing : completes (statusAfter a x (List.finRange n) psaSuccess) := by
        rw [← status_eq, returned]
        exact completes_of_rejected rejected
      rcases statusAfter_cases a x (List.finRange n) psaSuccess with
        ⟨same, -⟩ | ⟨before, e, after, split, later, last⟩
      · rw [same] at completing
        exact absurd completing not_completes_success
      · refine ⟨e, (asked_of_lastStatus (clear e) last completing).1, fun f lt ↦ ?_⟩
        exact later f (((mem_after_iff split).2 f).mp lt)
    · exact nomatch (clear d).symm.trans failed
  · intro kept
    refine ⟨rejected_of_askedLast kept, reject_of_staged, ?_⟩
    intro size c status reached failed
    exact reject_of_error size reached failed

/-- Images on trial are rejected at the next reboot. -/
def rebootAnswers : Answers 2 :=
  ⟨fun _ ↦ psaSuccess, psaSuccess, fun _ ↦ psaSuccess, psaSuccessReboot, fun _ ↦ false, psaSuccess,
    fun _ ↦ false, fun _ ↦ psaSuccess, fun _ ↦ psaSuccessReboot, psaSuccess⟩

/-- The first of two images runs on trial. -/
def firstOnTrial : World 2 :=
  ⟨fun _ ↦ ⟨psaSuccess, .ready, false⟩, fun c ↦ c == 0, fun _ ↦ false, []⟩

/-- A rejection. -/
def rejection : Msg := ⟨sizeofStatus, 0, 0, 0, 0, 0, -1⟩

/-- The query of the second image makes the reboot for the first one forgotten. -/
theorem statusKept_fails : ¬StatusKept rebootAnswers rejection firstOnTrial := by
  intro kept
  have result_eq : (tfmFwuReject rebootAnswers rejection firstOnTrial).1 = psaSuccess := by decide
  rcases kept.rejected ⟨0, rfl, rfl, rfl⟩ with ⟨c, -, returned⟩ | ⟨c, -, failed⟩
  · rw [result_eq] at returned
    exact absurd returned (by simp [rebootAnswers, psaSuccess, psaSuccessReboot])
  · have clear : ∀ c, backendError rebootAnswers c (firstOnTrial.slot c) = none := by decide
    exact nomatch (clear c).symm.trans failed

end TrustedFirmwareM.Fwu
