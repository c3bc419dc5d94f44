import TrustedFirmwareM.Fwu.StateModel

/-!
# Requests of the firmware update service

Every request moves each component by one of the moves of the state model, and calls the bootloader
with components in the states that it expects.
-/

namespace TrustedFirmwareM.Fwu

variable {n : ℕ} {C : Config} {a : Answers n} {msg : Msg} {x y : World n} {c d : Fin n}

/-- What a request does to the components. -/
def MovesAll (C : Config) (a : Answers n) (type : MsgType) (x y : World n) : Prop :=
  ∀ c, Moves C a c type (x.slot c) (y.slot c)

theorem MovesAll.refl (type : MsgType) : MovesAll C a type x x := fun _ ↦ .stay type _

theorem movesAll_of_slot_eq (type : MsgType) (same : ∀ c, y.slot c = x.slot c) :
    MovesAll C a type x y := by
  intro c
  rw [same]
  exact .stay type _

/-- One component is moved, and the others are left alone. -/
theorem movesAll_of_only {type : MsgType} (others : ∀ d, d ≠ c → y.slot d = x.slot d)
    (self : Moves C a c type (x.slot c) (y.slot c)) : MovesAll C a type x y := by
  intro d
  by_cases same : d = c
  · exact same ▸ self
  · rw [others d same]
    exact .stay type _

theorem slot_modify_self (f : Ctx → Ctx) :
    (x.modify c f).slot c = ⟨f (x.ctx c), x.trial c, x.pending c⟩ := by
  rw [World.slot, World.modify]
  dsimp only
  rw [Function.update_self]

theorem slot_modify_of_ne (f : Ctx → Ctx) (ne : d ≠ c) : (x.modify c f).slot d = x.slot d := by
  rw [World.slot, World.modify]
  dsimp only
  rw [Function.update_of_ne ne]
  rfl

/-! ## Requests for one component -/

theorem moves_start : MovesAll C a .start x (tfmFwuStart C a msg x).2 := by
  rw [tfmFwuStart]
  split
  · exact .refl _
  split
  · exact .refl _
  split
  swap
  · exact .refl _
  next valid =>
  dsimp only
  split
  · split <;> exact .refl _
  next idle =>
  split
  · exact .refl _
  split
  · exact .refl _
  next accepted =>
  rw [fwuBootloaderStagingAreaInit]
  dsimp only
  split
  · exact .refl _
  · next done =>
      rw [if_pos (not_not.1 done)]
      dsimp only
      refine movesAll_of_only (c := ⟨msg.component, valid⟩) (fun d ne ↦ ?_) ?_
      · rw [slot_modify_of_ne _ ne]
        exact congrArg (Slot.mk (x.ctx d) (x.trial d)) (Function.update_of_ne ne ..)
      · rw [slot_modify_self]
        dsimp only
        rw [Function.update_self]
        exact .start _ (Bool.eq_false_iff.2 idle) (Bool.eq_false_iff.2 accepted)

/-- Writing a block only calls the bootloader. -/
theorem writeBlocks_slot (fuel imageOffset blockSize : ℕ) (d : Fin n) :
    (writeBlocks C a c fuel imageOffset blockSize x).2.slot d = x.slot d := by
  induction fuel generalizing imageOffset blockSize x with
  | zero => rfl
  | succ fuel ih =>
      rw [writeBlocks]
      split
      · rfl
      dsimp only [fwuBootloaderLoadImage]
      split
      · rfl
      · exact ih ..

theorem moves_write : MovesAll C a .write x (tfmFwuWrite C a msg x).2 := by
  rw [tfmFwuWrite]
  split
  · exact .refl _
  split
  · exact .refl _
  split
  swap
  · exact .refl _
  dsimp only
  split
  · exact .refl _
  · exact movesAll_of_slot_eq _ fun d ↦ writeBlocks_slot ..

/-- A record that a request looks for. -/
theorem recorded_of_not {state : ComponentState}
    (looked : ¬((!(x.ctx c).inUse) = true ∨ (x.ctx c).componentState ≠ state)) :
    (x.slot c).Recorded state := by
  rw [not_or, Bool.not_eq_true', Bool.not_eq_false, not_not] at looked
  exact looked

theorem moves_finish : MovesAll C a .finish x (tfmFwuFinish msg x).2 := by
  rw [tfmFwuFinish]
  split
  · exact .refl _
  split
  swap
  · exact .refl _
  dsimp only
  split
  · exact .refl _
  · next looked =>
      dsimp only
      refine movesAll_of_only (fun d ne ↦ slot_modify_of_ne _ ne) ?_
      rw [slot_modify_self]
      exact .finish _ (recorded_of_not looked)

theorem moves_cancel : MovesAll C a .cancel x (tfmFwuCancel msg x).2 := by
  rw [tfmFwuCancel]
  split
  · exact .refl _
  split
  swap
  · exact .refl _
  dsimp only
  split
  swap
  · exact .refl _
  next inUse =>
  split
  swap
  · exact .refl _
  next looked =>
  dsimp only
  refine movesAll_of_only (fun d ne ↦ slot_modify_of_ne _ ne) ?_
  rw [slot_modify_self]
  exact .cancel _ (looked.imp (⟨inUse, ·⟩) (⟨inUse, ·⟩))

theorem moves_clean : MovesAll C a .clean x (tfmFwuClean a msg x).2 := by
  rw [tfmFwuClean]
  split
  · exact .refl _
  split
  swap
  · exact .refl _
  next valid =>
  dsimp only
  split
  swap
  · exact .refl _
  next inUse =>
  split
  swap
  · exact .refl _
  next looked =>
  rw [fwuBootloaderCleanComponent]
  dsimp only
  split
  · exact .refl _
  · next done =>
      rw [if_pos (not_not.1 done)]
      dsimp only
      refine movesAll_of_only (c := ⟨msg.component, valid⟩) (fun d ne ↦ ?_) ?_
      · rw [slot_modify_of_ne _ ne]
        exact congrArg (Slot.mk (x.ctx d) (x.trial d)) (Function.update_of_ne ne ..)
      · rw [slot_modify_self]
        dsimp only
        rw [Function.update_self]
        exact .clean _ (looked.imp (⟨inUse, ·⟩) (⟨inUse, ·⟩))

/-! ## Installation -/

/-- The candidates that are collected. -/
theorem mem_collectCandidates {l cs : List (Fin n)} (collected : collectCandidates a x l = .ok cs)
    (mem : c ∈ cs) : (x.slot c).Recorded .candidate := by
  induction l generalizing cs with
  | nil =>
      cases collected
      cases mem
  | cons d rest ih =>
      rw [collectCandidates] at collected
      split at collected
      · next inUse =>
          split at collected
          · cases collected
          split at collected
          · next candidate =>
              cases found : collectCandidates a x rest with
              | error status =>
                  rw [found] at collected
                  cases collected
              | ok cs' =>
                  rw [found] at collected
                  cases collected
                  rcases List.mem_cons.1 mem with rfl | mem
                  · exact ⟨inUse, candidate⟩
                  · exact ih found mem
          · exact ih collected mem
      · split at collected
        · cases collected
        split at collected
        · cases collected
        · exact ih collected mem

theorem moves_install : MovesAll C a .install x (tfmFwuInstall C a x).2 := by
  rw [tfmFwuInstall]
  split
  · exact .refl _
  next cs collected =>
  split
  · exact .refl _
  rw [fwuBootloaderInstallImage]
  dsimp only
  split
  · next needed =>
      refine movesAll_of_slot_eq _ fun d ↦ ?_
      rw [World.slot, needed]
      have not_completes : ¬completes psaErrorDependencyNeeded := by decide
      have not_success : ¬psaErrorDependencyNeeded = psaSuccess := by decide
      simp [not_completes, not_success, World.slot, World.called]
  · next independent =>
      intro c
      by_cases mem : c ∈ cs
      · have candidate := mem_collectCandidates collected mem
        have move := Moves.install (C := C) (a := a) (c := c) (x.slot c) candidate independent
        simpa [World.slot, World.modifyAll, World.called, mem, independent] using move
      · have same := Moves.stay (C := C) (a := a) (c := c) .install (x.slot c)
        simpa [World.slot, World.modifyAll, World.called, mem] using same

/-! ## Acceptance -/

/-- Components on trial take part in the update, and their state is not changed. -/
def Joined (s t : Slot) : Prop :=
  t = s ∨ s.reported = .trial ∧
    t = { s with ctx := { s.ctx with inUse := true, componentState := .trial } }

/-- The components on trial are collected. -/
theorem collectTrials_spec {l : List (Fin n)} (nodup : l.Nodup) :
    (∀ d, Joined (x.slot d) ((collectTrials a l x).2.slot d)) ∧
      (∀ d, d ∉ l → (collectTrials a l x).2.slot d = x.slot d) ∧
      (collectTrials a l x).2.calls = x.calls ∧
      ∀ trials, (collectTrials a l x).1 = .ok trials → ∀ d ∈ trials,
        d ∈ l ∧ ((collectTrials a l x).2.slot d).Recorded .trial := by
  induction l generalizing x with
  | nil =>
      refine ⟨fun _ ↦ .inl rfl, fun _ _ ↦ rfl, rfl, fun trials eq d mem ↦ ?_⟩
      cases eq
      cases mem
  | cons c rest ih =>
      obtain ⟨fresh, nodup⟩ := List.nodup_cons.1 nodup
      rw [collectTrials]
      split
      · next inUse =>
          obtain ⟨joined, kept, calls, recorded⟩ := ih nodup (x := x)
          dsimp only
          refine ⟨joined, fun d not_mem ↦ kept d fun mem ↦
            not_mem (List.mem_cons_of_mem _ mem), calls,
            fun trials eq d mem ↦ ?_⟩
          split at eq
          · next trial =>
              cases found : (collectTrials a rest x).1 with
              | error status =>
                  rw [found] at eq
                  cases eq
              | ok trials' =>
                  rw [found] at eq
                  cases eq
                  rcases List.mem_cons.1 mem with rfl | mem
                  · refine ⟨List.mem_cons_self, ?_⟩
                    rw [kept d fresh]
                    exact ⟨inUse, trial⟩
                  · exact ⟨List.mem_cons_of_mem _ (recorded _ found d mem).1,
                      (recorded _ found d mem).2⟩
          · exact ⟨List.mem_cons_of_mem _ (recorded _ eq d mem).1, (recorded _ eq d mem).2⟩
      next idle =>
      split
      · refine ⟨fun _ ↦ .inl rfl, fun _ _ ↦ rfl, rfl, fun trials eq ↦ ?_⟩
        cases eq
      split
      · next on_trial =>
          obtain ⟨joined, kept, calls, recorded⟩ := ih nodup
            (x := x.modify c fun r ↦ { r with inUse := true, componentState := .trial })
          have self : ((collectTrials a rest (x.modify c fun r ↦
              { r with inUse := true, componentState := .trial })).2.slot c) =
              ⟨{ x.ctx c with inUse := true, componentState := .trial }, x.trial c,
                x.pending c⟩ := by
            rw [kept c fresh, slot_modify_self]
          have reported : (x.slot c).reported = .trial := by
            rw [Slot.reported]
            exact (if_neg idle).trans (if_pos on_trial)
          dsimp only
          refine ⟨fun d ↦ ?_, fun d not_mem ↦ ?_, calls, fun trials eq d mem ↦ ?_⟩
          · by_cases same : d = c
            · rw [same, self]
              exact .inr ⟨reported, rfl⟩
            · have joined := joined d
              rw [slot_modify_of_ne _ same] at joined
              exact joined
          · rw [List.mem_cons, not_or] at not_mem
            rw [kept d not_mem.2, slot_modify_of_ne _ not_mem.1]
          · cases found : (collectTrials a rest (x.modify c fun r ↦
                { r with inUse := true, componentState := .trial })).1 with
            | error status =>
                rw [found] at eq
                cases eq
            | ok trials' =>
                rw [found] at eq
                cases eq
                rcases List.mem_cons.1 mem with rfl | mem
                · refine ⟨List.mem_cons_self, ?_⟩
                  rw [self]
                  exact ⟨rfl, rfl⟩
                · exact ⟨List.mem_cons_of_mem _ (recorded _ found d mem).1,
                    (recorded _ found d mem).2⟩
      · obtain ⟨joined, kept, calls, recorded⟩ := ih nodup (x := x)
        exact ⟨joined, fun d not_mem ↦ kept d fun mem ↦ not_mem (List.mem_cons_of_mem _ mem), calls,
          fun trials eq d mem ↦
            ⟨List.mem_cons_of_mem _ (recorded _ eq d mem).1, (recorded _ eq d mem).2⟩⟩

/-- Joining is a move. -/
theorem Joined.moves {type : MsgType} {s t : Slot}
    (joined : Joined s t) : Moves C a c type s t := by
  rcases joined with rfl | ⟨trial, rfl⟩
  · exact .stay _ _
  · have move := Moves.join (C := C) (a := a) (c := c) type s false trial
    rw [Bool.not_false, Bool.and_true] at move
    exact move

/-- A component on trial that takes part in the update. -/
theorem Joined.eq_of_recorded {s t : Slot} (joined : Joined s t) (recorded : t.Recorded .trial) :
    s.reported = .trial ∧ t = ⟨⟨s.ctx.error, .trial, true⟩, s.trial, s.pending⟩ := by
  rcases joined with rfl | ⟨trial, rfl⟩
  · obtain ⟨⟨error, state, inUse⟩, trial, pending⟩ := t
    obtain ⟨rfl, rfl⟩ : inUse = true ∧ state = .trial := recorded
    exact ⟨rfl, rfl⟩
  · exact ⟨trial, rfl⟩

theorem moves_accept : MovesAll C a .accept x (tfmFwuAccept C a x).2 := by
  obtain ⟨joined, -, -, recorded⟩ := collectTrials_spec (a := a) (x := x) (List.nodup_finRange n)
  rw [tfmFwuAccept]
  split
  swap
  · exact .refl _
  split
  · next status y collected =>
      rw [collected] at joined
      exact fun d ↦ (joined d).moves
  next trials y collected =>
  rw [collected] at joined recorded
  split
  · exact fun d ↦ (joined d).moves
  rw [fwuBootloaderMarkImageAccepted]
  dsimp only
  split
  · next failed =>
      intro d
      by_cases mem : d ∈ trials
      · -- some of the trials may have been accepted all the same
        obtain ⟨trial, eq⟩ := (joined d).eq_of_recorded (recorded _ rfl d mem).2
        have move := Moves.join (C := C) (a := a) (c := d) .accept (x.slot d)
          (a.leftAccepted d) trial
        have ctx_eq : y.ctx d = ⟨(x.slot d).ctx.error, .trial, true⟩ := congrArg Slot.ctx eq
        have trial_eq : y.trial d = (x.slot d).trial := congrArg Slot.trial eq
        have pending_eq : y.pending d = (x.slot d).pending := congrArg Slot.pending eq
        simpa [World.slot, World.called, mem, failed, ctx_eq, trial_eq, pending_eq] using move
      · have move : Moves C a d .accept (x.slot d) (y.slot d) := (joined d).moves
        simpa [World.slot, World.called, mem] using move
  · next done =>
      intro d
      by_cases mem : d ∈ trials
      · obtain ⟨trial, eq⟩ := (joined d).eq_of_recorded (recorded _ rfl d mem).2
        have move := Moves.accept (C := C) (a := a) (c := d) (x.slot d) trial
        have ctx_eq : y.ctx d = ⟨(x.slot d).ctx.error, .trial, true⟩ := congrArg Slot.ctx eq
        have pending_eq : y.pending d = (x.slot d).pending := congrArg Slot.pending eq
        simpa [World.slot, World.called, World.modifyAll, mem, not_not.1 done, ctx_eq, pending_eq]
          using move
      · have move : Moves C a d .accept (x.slot d) (y.slot d) := (joined d).moves
        simpa [World.slot, World.called, World.modifyAll, mem] using move

/-! ## Rejection -/

/-- The calls that reject images. -/
def Rejects : Call n → Prop
  | .rejectStagedImage _ | .rejectTrialImage _ => True
  | _ => False

/-- What is done about one component. -/
structure RejectsOnly (a : Answers n) (c : Fin n) (x y : World n) : Prop where
  /-- The other components. -/
  others : ∀ d, d ≠ c → y.slot d = x.slot d
  /-- The component. -/
  self : ∀ C, Moves C a c .reject (x.slot c) (y.slot c)
  /-- The calls of the bootloader. -/
  calls : ∀ call ∈ y.calls, call ∈ x.calls ∨ Rejects call

theorem RejectsOnly.refl : RejectsOnly a c x x :=
  ⟨fun _ _ ↦ rfl, fun _ ↦ .stay _ _, fun _ mem ↦ .inl mem⟩

theorem mem_calls_called (made : Call n) (rejects : Rejects made) {call : Call n}
    (mem : call ∈ (x.called made).calls) : call ∈ x.calls ∨ Rejects call := by
  rcases List.mem_append.1 mem with mem | mem
  · exact .inl mem
  · rw [List.mem_singleton.1 mem]
    exact .inr rejects

/-- A component on trial is rejected. -/
theorem rejectTrial_spec {error : PsaStatus} {s : Rejection n}
    (ctx_eq : ∀ d, d ≠ c → s.world.slot d = x.slot d) (calls_eq : s.world.calls = x.calls)
    (on_trial : (x.slot c).reported = .trial)
    (joined : s.world.slot c = ⟨⟨(x.ctx c).error, .trial, true⟩, x.trial c, x.pending c⟩) :
    RejectsOnly a c x (rejectTrial a error c s).2.world := by
  have ctx_c : s.world.ctx c = ⟨(x.ctx c).error, .trial, true⟩ := congrArg Slot.ctx joined
  have trial_c : s.world.trial c = x.trial c := congrArg Slot.trial joined
  have pending_c : s.world.pending c = x.pending c := congrArg Slot.pending joined
  have called (call : Call n) (mem : call ∈ (s.world.called (.rejectTrialImage c)).calls) :
      call ∈ x.calls ∨ Rejects call := by
    have mem := mem_calls_called (.rejectTrialImage c) trivial mem
    rw [calls_eq] at mem
    exact mem
  rw [rejectTrial, fwuBootloaderRejectTrialImage]
  dsimp only
  split
  · next later =>
      have not_success : a.rejectTrialImage c ≠ psaSuccess := fun success ↦ by
        rw [success] at later
        exact absurd later (by decide)
      refine ⟨fun d ne ↦ ?_, fun C ↦ ?_, called⟩
      · rw [slot_modify_of_ne _ ne, if_neg not_success]
        exact ctx_eq d ne
      · rw [slot_modify_self]
        have move := Moves.rejectLater (C := C) (a := a) (c := c) (x.slot c) error on_trial
        simpa [World.slot, World.called, not_success, ctx_c, trial_c, pending_c] using move
  split
  · next success =>
      refine ⟨fun d ne ↦ ?_, fun C ↦ ?_, called⟩
      · rw [slot_modify_of_ne _ ne]
        have same := ctx_eq d ne
        simpa [World.slot, World.called, success, ne] using same
      · rw [slot_modify_self]
        have move := Moves.rejectNow (C := C) (a := a) (c := c) (x.slot c) error on_trial
        simpa [World.slot, World.called, success, ctx_c, pending_c] using move
  · next not_success =>
      refine ⟨fun d ne ↦ ?_, fun C ↦ ?_, called⟩
      · have same := ctx_eq d ne
        simpa [World.slot, World.called, not_success] using same
      · have move := Moves.join (C := C) (a := a) (c := c) .reject (x.slot c) false on_trial
        simpa [World.slot, World.called, ctx_c, trial_c, pending_c] using move

/-- A component is rejected if it is staged or on trial. -/
theorem rejectComponent_spec {error : PsaStatus} {s : Rejection n} :
    RejectsOnly a c s.world (rejectComponent a error c s).2.world := by
  rw [rejectComponent]
  dsimp only
  split
  · next inUse =>
      split
      · next staged =>
          rw [fwuBootloaderRejectStagedImage]
          dsimp only
          refine ⟨fun d ne ↦ ?_, fun C ↦ ?_, fun call mem ↦
            mem_calls_called (.rejectStagedImage c) trivial mem⟩
          · by_cases success : a.rejectStagedImage c = psaSuccess
            · simp [World.slot, World.called, World.modify, success, ne]
            · simp [World.slot, World.called, World.modify, success, ne]
          · have move := Moves.rejectStaged (C := C) (a := a) (c := c) (s.world.slot c) error
              ⟨inUse, staged⟩
            by_cases success : a.rejectStagedImage c = psaSuccess
            · simpa [World.slot, World.called, World.modify, success] using move
            · simpa [World.slot, World.called, World.modify, success] using move
      split
      · next trial =>
          have reported : (s.world.slot c).reported = .trial :=
            Slot.reported_of_recorded ⟨inUse, trial⟩
          refine rejectTrial_spec (fun _ _ ↦ rfl) rfl reported ?_
          have eq : s.world.ctx c = ⟨(s.world.ctx c).error, .trial, true⟩ := by
            rw [← trial, ← inUse]
          rw [World.slot, ← eq]
      · exact .refl
  · next idle =>
      split
      · exact .refl
      split
      · next on_trial =>
          have reported : (s.world.slot c).reported = .trial := by
            rw [Slot.reported]
            exact (if_neg idle).trans (if_pos on_trial)
          refine rejectTrial_spec (x := s.world) (fun d ne ↦ ?_) rfl reported ?_
          · exact slot_modify_of_ne (fun r ↦ { r with inUse := true, componentState := .trial }) ne
          · exact slot_modify_self fun r ↦ { r with inUse := true, componentState := .trial }
      · exact .refl

/-- The loop deals with each component at most once. -/
theorem rejectLoop_spec (a : Answers n) (error : PsaStatus) {l : List (Fin n)} (nodup : l.Nodup)
    (s : Rejection n) :
    (∀ d, ∀ C, Moves C a d .reject (s.world.slot d) ((rejectLoop a error l s).2.slot d)) ∧
      (∀ d, d ∉ l → (rejectLoop a error l s).2.slot d = s.world.slot d) ∧
      ∀ call ∈ (rejectLoop a error l s).2.calls, call ∈ s.world.calls ∨ Rejects call := by
  induction l generalizing s with
  | nil => exact ⟨fun _ _ ↦ .stay _ _, fun _ _ ↦ rfl, fun _ mem ↦ .inl mem⟩
  | cons c rest ih =>
      obtain ⟨fresh, nodup⟩ := List.nodup_cons.1 nodup
      have first : RejectsOnly a c s.world (rejectComponent a error c s).2.world :=
        rejectComponent_spec
      rw [rejectLoop]
      split
      · next after eq =>
          rw [eq] at first
          obtain ⟨moves, kept, calls⟩ := ih nodup after
          refine ⟨fun d C ↦ ?_, fun d not_mem ↦ ?_, fun call mem ↦ ?_⟩
          · by_cases same : d = c
            · rw [same, kept c fresh]
              exact first.self C
            · rw [← first.others d same]
              exact moves d C
          · rw [List.mem_cons, not_or] at not_mem
            rw [kept d not_mem.2]
            exact first.others d not_mem.1
          · exact (calls call mem).elim (first.calls call) .inr
      · next after eq =>
          rw [eq] at first
          refine ⟨fun d C ↦ ?_, fun d not_mem ↦ ?_, first.calls⟩
          · by_cases same : d = c
            · exact same ▸ first.self C
            · have kept : after.world.slot d = s.world.slot d := first.others d same
              dsimp only
              rw [kept]
              exact .stay _ _
          · exact first.others d fun same ↦ not_mem (same ▸ List.mem_cons_self)

theorem moves_reject : MovesAll C a .reject x (tfmFwuReject a msg x).2 := by
  rw [tfmFwuReject]
  split
  · exact .refl _
  · obtain ⟨moves, -, -⟩ := rejectLoop_spec a msg.error (List.nodup_finRange n)
      ⟨psaSuccess, false, x⟩
    exact fun d ↦ moves d C

/-- Every request moves the components by the moves of the state model. -/
theorem moves_serve (type : MsgType) :
    MovesAll C a type x (tfmFirmwareUpdateServiceSfn C a type msg x).2 := by
  cases type with
  | start => exact moves_start
  | write => exact moves_write
  | finish => exact moves_finish
  | cancel => exact moves_cancel
  | install => exact moves_install
  | clean => exact moves_clean
  | reject => exact moves_reject
  | accept => exact moves_accept
  | query => exact .refl _
  | unknown => exact .refl _

end TrustedFirmwareM.Fwu
