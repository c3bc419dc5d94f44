import TrustedFirmwareM.Fwu.RequestManager
import TrustedFirmwareM.Lib.Run

/-!
# The state model of firmware updates

What a request does to one component is one of a few moves, and each of them follows a transition of
the state model of the PSA Firmware Update API.
-/

namespace TrustedFirmwareM.Fwu

variable {n : ℕ} {C : Config} {a : Answers n} {x y : World n} {c d : Fin n}

/-- What there is of a component: its record and its images. -/
structure Slot where
  /-- The record. -/
  ctx : Ctx
  /-- The running image is on trial. -/
  trial : Bool
  /-- The staged image will be taken as a candidate. -/
  pending : Bool

/-- The slot of a component. -/
def World.slot (x : World n) (c : Fin n) : Slot := ⟨x.ctx c, x.trial c, x.pending c⟩

/-- The state of a component that a query reports. -/
def Slot.reported (s : Slot) : ComponentState :=
  if s.ctx.inUse then s.ctx.componentState else if s.trial then .trial else .ready

/-- The transitions of the state model. -/
inductive Transition : MsgType → ComponentState → ComponentState → Prop
  /-- An image is going to be written. -/
  | start : Transition .start .ready .writing
  /-- The image is complete. -/
  | finish : Transition .finish .writing .candidate
  /-- The image is given up while it is written. -/
  | cancelWriting : Transition .cancel .writing .failed
  /-- The image is given up when it is complete. -/
  | cancelCandidate : Transition .cancel .candidate .failed
  /-- The image will be installed by a reboot or a restart. -/
  | stage : Transition .install .candidate .staged
  /-- The image has been installed and is on trial. -/
  | tryOut : Transition .install .candidate .trial
  /-- The image has been installed for good. -/
  | update : Transition .install .candidate .updated
  /-- The image cannot be installed. -/
  | fail : Transition .install .candidate .failed
  /-- The installation is given up. -/
  | rejectStaged : Transition .reject .staged .failed
  /-- The image on trial is given up at the next reboot or restart. -/
  | reject : Transition .reject .trial .rejected
  /-- The image on trial is given up at once. -/
  | rejectTrial : Transition .reject .trial .failed
  /-- The image on trial is accepted. -/
  | accept : Transition .accept .trial .updated
  /-- A failed update is tidied up. -/
  | cleanFailed : Transition .clean .failed .ready
  /-- A successful update is tidied up. -/
  | cleanUpdated : Transition .clean .updated .ready

/-- The component takes part in an update, and its record has a state. -/
def Slot.Recorded (s : Slot) (state : ComponentState) : Prop :=
  s.ctx.inUse = true ∧ s.ctx.componentState = state

/-- What a request can do to a component. -/
inductive Moves (C : Config) (a : Answers n) (c : Fin n) : MsgType → Slot → Slot → Prop
  /-- Nothing. -/
  | stay (type : MsgType) (s : Slot) : Moves C a c type s s
  /-- A component that is ready is started. -/
  | start (s : Slot) (idle : s.ctx.inUse = false) (accepted : s.trial = false) :
      Moves C a c .start s ⟨{ s.ctx with inUse := true, componentState := .writing },
        s.trial, false⟩
  /-- A component is finished. -/
  | finish (s : Slot) (writing : s.Recorded .writing) :
      Moves C a c .finish s { s with ctx := { s.ctx with componentState := .candidate } }
  /-- A component is cancelled. -/
  | cancel (s : Slot) (recorded : s.Recorded .writing ∨ s.Recorded .candidate) :
      Moves C a c .cancel s
        { s with ctx := { s.ctx with componentState := .failed, error := psaSuccess } }
  /-- A candidate is installed, or its installation fails. -/
  | install (s : Slot) (candidate : s.Recorded .candidate)
      (independent : a.installImage ≠ psaErrorDependencyNeeded) :
      Moves C a c .install s
        ⟨installed C a.installImage s.ctx,
          if a.installImage = psaSuccess then C.supportTrialState else s.trial,
          if completes a.installImage then true
          else if a.installImage = psaSuccess then s.pending
          else s.pending || a.leftPending c⟩
  /-- A staged component is rejected. -/
  | rejectStaged (s : Slot) (error : PsaStatus) (staged : s.Recorded .staged) :
      Moves C a c .reject s
        ⟨{ s.ctx with componentState := .failed, error }, s.trial,
          if a.rejectStagedImage c = psaSuccess then false else s.pending⟩
  /-- A component on trial is rejected at the next reboot or restart. -/
  | rejectLater (s : Slot) (error : PsaStatus) (trial : s.reported = .trial) :
      Moves C a c .reject s
        { s with ctx := { s.ctx with inUse := true, componentState := .rejected, error } }
  /-- A component on trial is rejected at once. -/
  | rejectNow (s : Slot) (error : PsaStatus) (trial : s.reported = .trial) :
      Moves C a c .reject s
        ⟨{ s.ctx with inUse := true, componentState := .failed, error }, false, s.pending⟩
  /-- A component on trial takes part in the update from now on. -/
  | join (type : MsgType) (s : Slot) (left : Bool) (trial : s.reported = .trial) :
      Moves C a c type s
        ⟨{ s.ctx with inUse := true, componentState := .trial }, s.trial && !left, s.pending⟩
  /-- A component on trial is accepted. -/
  | accept (s : Slot) (trial : s.reported = .trial) :
      Moves C a c .accept s
        ⟨{ s.ctx with inUse := true, componentState := .updated }, false, s.pending⟩
  /-- A component is cleaned. -/
  | clean (s : Slot) (recorded : s.Recorded .failed ∨ s.Recorded .updated) :
      Moves C a c .clean s
        ⟨{ s.ctx with componentState := .ready, inUse := false }, s.trial, false⟩

/-- What holds of each component. -/
structure Slot.Valid (C : Config) (s : Slot) : Prop where
  /-- Images on trial are with components that are on trial or have been rejected. -/
  trial : s.ctx.inUse = true → s.trial = true →
    s.ctx.componentState = .trial ∨ s.ctx.componentState = .rejected
  /-- Components that are ready do not take part in an update. -/
  not_ready : s.ctx.inUse = true → s.ctx.componentState ≠ .ready
  /-- The bootloader supports trials. -/
  support : s.trial = true → C.supportTrialState = true

/-- Only staged components have an image that will be taken as a candidate. -/
def Slot.Settled (s : Slot) : Prop := s.pending = true → s.Recorded .staged

theorem Slot.reported_of_recorded {s : Slot} {state : ComponentState}
    (recorded : s.Recorded state) :
    s.reported = state := by
  rw [Slot.reported, if_pos recorded.1, recorded.2]

theorem Slot.reported_of_inUse {s : Slot} (inUse : s.ctx.inUse = true) :
    s.reported = s.ctx.componentState :=
  Slot.reported_of_recorded ⟨inUse, rfl⟩

theorem Slot.Valid.trial_eq_false {s : Slot} (valid : s.Valid C) {state : ComponentState}
    (recorded : s.Recorded state) (not_trial : state ≠ .trial) (not_rejected : state ≠ .rejected) :
    s.trial = false := by
  by_contra on_trial
  rcases valid.trial recorded.1 (Bool.not_eq_false _ ▸ on_trial) with eq | eq
  · exact not_trial (recorded.2.symm.trans eq)
  · exact not_rejected (recorded.2.symm.trans eq)

/-- The record of a candidate after an installation. -/
theorem installed_cases (status : PsaStatus) (r : Ctx) :
    (installed C status r).inUse = r.inUse ∧
      (status = psaSuccess ∧ (installed C status r).componentState =
          (if C.supportTrialState then .trial else .updated) ∨
        status ≠ psaSuccess ∧ completes status ∧ (installed C status r).componentState = .staged ∨
        status ≠ psaSuccess ∧ ¬completes status ∧
          (installed C status r).componentState = .failed) := by
  rw [installed]
  split
  · next success => exact ⟨rfl, .inl ⟨success, rfl⟩⟩
  next error =>
  split
  · next fails => exact ⟨rfl, .inr (.inr ⟨error, fails, rfl⟩)⟩
  · next later => exact ⟨rfl, .inr (.inl ⟨error, not_not.1 later, rfl⟩)⟩

theorem follows {type : MsgType} {s t : Slot} {before after : ComponentState}
    (from_state : s.reported = before) (to_state : t.reported = after)
    (transition : Transition type before after) :
    t.reported = s.reported ∨ Transition type s.reported t.reported :=
  .inr (from_state ▸ to_state ▸ transition)

/-- Every move follows the state model. -/
theorem Moves.transition {type : MsgType} {s t : Slot} (moves : Moves C a c type s t)
    (valid : s.Valid C) :
    t.reported = s.reported ∨ Transition type s.reported t.reported := by
  cases moves with
  | stay => exact .inl rfl
  | start _ idle accepted =>
      have ready : s.reported = .ready := by simp [Slot.reported, idle, accepted]
      exact follows ready (Slot.reported_of_inUse rfl) .start
  | finish _ writing =>
      exact follows (Slot.reported_of_recorded writing) (Slot.reported_of_inUse writing.1) .finish
  | cancel _ recorded =>
      rcases recorded with recorded | recorded
      · exact follows (Slot.reported_of_recorded recorded) (Slot.reported_of_inUse recorded.1)
          .cancelWriting
      · exact follows (Slot.reported_of_recorded recorded) (Slot.reported_of_inUse recorded.1)
          .cancelCandidate
  | install _ candidate =>
      obtain ⟨inUse, cases⟩ := installed_cases (C := C) a.installImage s.ctx
      refine follows (Slot.reported_of_recorded candidate)
        (Slot.reported_of_inUse (inUse.trans candidate.1)) ?_
      dsimp only
      rcases cases with ⟨-, eq⟩ | ⟨-, -, eq⟩ | ⟨-, -, eq⟩
      · rw [eq]
        cases C.supportTrialState with
        | true => exact .tryOut
        | false => exact .update
      · rw [eq]
        exact .stage
      · rw [eq]
        exact .fail
  | rejectStaged _ error staged =>
      exact follows (Slot.reported_of_recorded staged)
        (Slot.reported_of_inUse staged.1) .rejectStaged
  | rejectLater _ error trial => exact follows trial (Slot.reported_of_inUse rfl) .reject
  | rejectNow _ error trial => exact follows trial (Slot.reported_of_inUse rfl) .rejectTrial
  | join _ _ left trial => exact .inl ((Slot.reported_of_inUse rfl).trans trial.symm)
  | accept _ trial => exact follows trial (Slot.reported_of_inUse rfl) .accept
  | clean _ recorded =>
      have accepted : s.trial = false := by
        rcases recorded with recorded | recorded
        · exact valid.trial_eq_false recorded (by decide) (by decide)
        · exact valid.trial_eq_false recorded (by decide) (by decide)
      have ready : Slot.reported ⟨{ s.ctx with componentState := .ready, inUse := false }, s.trial,
          false⟩ = .ready := by
        simp [Slot.reported, accepted]
      rcases recorded with recorded | recorded
      · exact follows (Slot.reported_of_recorded recorded) ready .cleanFailed
      · exact follows (Slot.reported_of_recorded recorded) ready .cleanUpdated

/-- Every move keeps what holds of a component. -/
theorem Moves.valid {type : MsgType} {s t : Slot} (moves : Moves C a c type s t)
    (valid : s.Valid C) : t.Valid C := by
  have support {state : ComponentState} {error : PsaStatus} {inUse trial pending : Bool}
      (on_trial : inUse = true → trial = true → state = .trial ∨ state = .rejected)
      (ne : inUse = true → state ≠ .ready) (of_trial : trial = true → s.trial = true) :
      Slot.Valid C ⟨⟨error, state, inUse⟩, trial, pending⟩ :=
    ⟨on_trial, ne, fun on ↦ valid.support (of_trial on)⟩
  cases moves with
  | stay => exact valid
  | start _ idle accepted =>
      exact support (fun _ on ↦ absurd (accepted.symm.trans on) (by decide)) (fun _ ↦ by decide) id
  | finish _ writing =>
      have accepted := valid.trial_eq_false writing (by decide) (by decide)
      exact support (fun _ on ↦ absurd (accepted.symm.trans on) (by decide)) (fun _ ↦ by decide) id
  | cancel _ recorded =>
      have accepted : s.trial = false := by
        rcases recorded with recorded | recorded
        · exact valid.trial_eq_false recorded (by decide) (by decide)
        · exact valid.trial_eq_false recorded (by decide) (by decide)
      exact support (fun _ on ↦ absurd (accepted.symm.trans on) (by decide)) (fun _ ↦ by decide) id
  | install _ candidate =>
      have accepted := valid.trial_eq_false candidate (by decide) (by decide)
      obtain ⟨inUse, cases⟩ := installed_cases (C := C) a.installImage s.ctx
      rcases cases with ⟨success, eq⟩ | ⟨error, -, eq⟩ | ⟨error, -, eq⟩
      · rw [if_pos success]
        refine ⟨fun _ on ↦ .inl ?_, fun _ ↦ ?_, id⟩
        · rw [eq, if_pos on]
        · rw [eq]
          split <;> decide
      · rw [if_neg error]
        exact ⟨fun _ on ↦ absurd (accepted.symm.trans on) (by decide),
          fun _ ↦ eq ▸ by decide, valid.support⟩
      · rw [if_neg error]
        exact ⟨fun _ on ↦ absurd (accepted.symm.trans on) (by decide),
          fun _ ↦ eq ▸ by decide, valid.support⟩
  | rejectStaged _ error staged =>
      have accepted := valid.trial_eq_false staged (by decide) (by decide)
      exact support (fun _ on ↦ absurd (accepted.symm.trans on) (by decide)) (fun _ ↦ by decide) id
  | rejectLater _ error trial => exact support (fun _ _ ↦ .inr rfl) (fun _ ↦ by decide) id
  | rejectNow _ error trial =>
      exact support (fun _ on ↦ absurd on (by decide)) (fun _ ↦ by decide) fun on ↦
        absurd on (by decide)
  | join _ _ left trial =>
      exact support (fun _ _ ↦ .inl rfl) (fun _ ↦ by decide) fun on ↦ (Bool.and_eq_true_iff.1 on).1
  | accept _ trial =>
      exact support (fun _ on ↦ absurd on (by decide)) (fun _ ↦ by decide) fun on ↦
        absurd on (by decide)
  | clean _ recorded =>
      exact support (fun in_use ↦ absurd in_use Bool.false_ne_true)
        (fun in_use ↦ absurd in_use Bool.false_ne_true) id

/-- A move settles a component again, unless the bootloader leaves an image that has failed or been
rejected where it is. -/
theorem Moves.settled {type : MsgType} {s t : Slot} (moves : Moves C a c type s t)
    (settled : s.Settled)
    (left : type = .install → s.Recorded .candidate → a.installImage ≠ psaSuccess →
      ¬completes a.installImage → a.leftPending c = false)
    (rejected : type = .reject → s.Recorded .staged → a.rejectStagedImage c = psaSuccess) :
    t.Settled := by
  -- components that are not staged have nothing pending
  have clear (not_staged : ¬s.Recorded .staged) : s.pending = false := by
    by_contra pending
    exact not_staged (settled (Bool.not_eq_false _ ▸ pending))
  have apart {state state' : ComponentState} (recorded : s.Recorded state) (ne : state ≠ state') :
      ¬s.Recorded state' := fun other ↦ ne (recorded.2.symm.trans other.2)
  have on_trial (trial : s.reported = .trial) : ¬s.Recorded .staged := fun staged ↦ by
    rw [Slot.reported_of_recorded staged] at trial
    cases trial
  cases moves with
  | stay => exact settled
  | start => exact fun pending ↦ absurd pending Bool.false_ne_true
  | finish _ writing =>
      exact fun pending ↦
        absurd ((clear (apart writing (by decide))).symm.trans pending) (by decide)
  | cancel _ recorded =>
      have none_pending : s.pending = false := by
        rcases recorded with recorded | recorded
        · exact clear (apart recorded (by decide))
        · exact clear (apart recorded (by decide))
      exact fun pending ↦ absurd (none_pending.symm.trans pending) (by decide)
  | install _ candidate =>
      have none_pending := clear (apart candidate (by decide))
      obtain ⟨inUse, cases⟩ := installed_cases (C := C) a.installImage s.ctx
      intro pending
      dsimp only at pending
      rw [none_pending] at pending
      rcases cases with ⟨success, eq⟩ | ⟨error, later, eq⟩ | ⟨error, fails, eq⟩
      · have not_later : ¬completes a.installImage := by
          rw [success]
          decide
        rw [if_neg not_later, if_pos success] at pending
        cases pending
      · exact ⟨inUse.trans candidate.1, eq⟩
      · rw [if_neg fails, if_neg error, left rfl candidate error fails] at pending
        cases pending
  | rejectStaged _ error staged =>
      intro pending
      dsimp only at pending
      rw [if_pos (rejected rfl staged)] at pending
      cases pending
  | rejectLater _ error trial =>
      exact fun pending ↦ absurd ((clear (on_trial trial)).symm.trans pending) (by decide)
  | rejectNow _ error trial =>
      exact fun pending ↦ absurd ((clear (on_trial trial)).symm.trans pending) (by decide)
  | join _ _ _ trial =>
      exact fun pending ↦ absurd ((clear (on_trial trial)).symm.trans pending) (by decide)
  | accept _ trial =>
      exact fun pending ↦ absurd ((clear (on_trial trial)).symm.trans pending) (by decide)
  | clean => exact fun pending ↦ absurd pending Bool.false_ne_true

end TrustedFirmwareM.Fwu
