import TrustedFirmwareM.Fwu.Service

/-!
# Runs of the firmware update service

The bootloader is asked to install candidates and to accept trials only, and nothing is left
pending for components whose update has failed, as long as the bootloader tidies up after itself.
An installation is refused while another update is not finished, unless the component of that update
is recorded as on trial.
-/

namespace TrustedFirmwareM.Fwu

variable {n : ℕ} {C : Config} {a : Answers n} {msg : Msg} {x y : World n} {c d : Fin n}

/-! ## Calls of the bootloader -/

/-- The calls of `fwu_bootloader_install_image` and `fwu_bootloader_mark_image_accepted`. -/
def Call.Commits : Call n → Prop
  | .installImage _ | .markImageAccepted _ => True
  | _ => False

/-- The calls that are added install or accept nothing. -/
def Harmless (x y : World n) : Prop := ∀ call ∈ y.calls, call.Commits → call ∈ x.calls

theorem Harmless.refl : Harmless x x := fun _ mem _ ↦ mem

theorem harmless_of_called {made : Call n} (calls : y.calls = x.calls ++ [made])
    (harmless : ¬made.Commits) : Harmless x y := by
  intro call mem commits
  rw [calls] at mem
  rcases List.mem_append.1 mem with mem | mem
  · exact mem
  · exact absurd (List.mem_singleton.1 mem ▸ commits) harmless

theorem harmless_start : Harmless x (tfmFwuStart C a msg x).2 := by
  rw [tfmFwuStart]
  split
  · exact .refl
  split
  · exact .refl
  split
  swap
  · exact .refl
  dsimp only
  split
  · split <;> exact .refl
  split
  · exact .refl
  split
  · exact .refl
  rw [fwuBootloaderStagingAreaInit]
  dsimp only
  split
  · exact harmless_of_called rfl id
  · exact harmless_of_called rfl id

theorem harmless_writeBlocks {fuel imageOffset blockSize : ℕ} :
    Harmless x (writeBlocks C a c fuel imageOffset blockSize x).2 := by
  induction fuel generalizing imageOffset blockSize x with
  | zero => exact .refl
  | succ fuel ih =>
      rw [writeBlocks]
      split
      · exact .refl
      have first (size : ℕ) : Harmless x (x.called (.loadImage c imageOffset size)) :=
        harmless_of_called rfl id
      dsimp only [fwuBootloaderLoadImage]
      split
      · exact first _
      · exact fun call mem commits ↦ first _ call (ih call mem commits) commits

theorem harmless_write : Harmless x (tfmFwuWrite C a msg x).2 := by
  rw [tfmFwuWrite]
  split
  · exact .refl
  split
  · exact .refl
  split
  swap
  · exact .refl
  dsimp only
  split
  · exact .refl
  · exact harmless_writeBlocks

theorem harmless_finish : Harmless x (tfmFwuFinish msg x).2 := by
  rw [tfmFwuFinish]
  split
  · exact .refl
  split
  swap
  · exact .refl
  dsimp only
  split
  · exact .refl
  · exact .refl

theorem harmless_cancel : Harmless x (tfmFwuCancel msg x).2 := by
  rw [tfmFwuCancel]
  split
  · exact .refl
  split
  swap
  · exact .refl
  dsimp only
  split
  swap
  · exact .refl
  split
  · exact .refl
  · exact .refl

theorem harmless_clean : Harmless x (tfmFwuClean a msg x).2 := by
  rw [tfmFwuClean]
  split
  · exact .refl
  split
  swap
  · exact .refl
  dsimp only
  split
  swap
  · exact .refl
  split
  swap
  · exact .refl
  rw [fwuBootloaderCleanComponent]
  dsimp only
  split
  · exact harmless_of_called rfl id
  · exact harmless_of_called rfl id

theorem harmless_reject : Harmless x (tfmFwuReject a msg x).2 := by
  rw [tfmFwuReject]
  split
  · exact .refl
  · obtain ⟨-, -, calls⟩ := rejectLoop_spec a msg.error (List.nodup_finRange n)
      ⟨psaSuccess, false, x⟩
    intro call mem commits
    refine (calls call mem).resolve_right fun rejects ↦ ?_
    cases call with
    | installImage => exact rejects
    | markImageAccepted => exact rejects
    | _ => exact commits

/-- Calls of `fwu_bootloader_install_image` are made with candidates. -/
theorem calls_install {call : Call n} (mem : call ∈ (tfmFwuInstall C a x).2.calls) :
    call ∈ x.calls ∨ ∃ cs, collectCandidates a x (List.finRange n) = .ok cs ∧
      call = .installImage cs := by
  rw [tfmFwuInstall] at mem
  split at mem
  · exact .inl mem
  next cs collected =>
  split at mem
  · exact .inl mem
  have called : call ∈ x.calls ++ [.installImage cs] := by
    rw [fwuBootloaderInstallImage] at mem
    dsimp only at mem
    split at mem
    · exact mem
    · exact mem
  rcases List.mem_append.1 called with mem | mem
  · exact .inl mem
  · exact .inr ⟨cs, collected, List.mem_singleton.1 mem⟩

/-- Calls of `fwu_bootloader_mark_image_accepted` are made with components on trial. -/
theorem calls_accept {call : Call n} (mem : call ∈ (tfmFwuAccept C a x).2.calls) :
    call ∈ x.calls ∨ ∃ trials, (∀ c ∈ trials, (x.slot c).reported = .trial) ∧
      call = .markImageAccepted trials := by
  obtain ⟨joined, -, calls, recorded⟩ :=
    collectTrials_spec (a := a) (x := x) (List.nodup_finRange n)
  rw [tfmFwuAccept] at mem
  split at mem
  swap
  · exact .inl mem
  split at mem
  · next status y collected =>
      rw [collected] at calls
      exact .inl (calls ▸ mem)
  next trials y collected =>
  rw [collected] at calls joined recorded
  split at mem
  · exact .inl (calls ▸ mem)
  have called : call ∈ y.calls ++ [.markImageAccepted trials] := by
    rw [fwuBootloaderMarkImageAccepted] at mem
    dsimp only at mem
    split at mem
    · exact mem
    · exact mem
  rcases List.mem_append.1 called with mem | mem
  · exact .inl (calls ▸ mem)
  · exact .inr ⟨trials, fun c on_trial ↦
      ((joined c).eq_of_recorded (recorded _ rfl c on_trial).2).1, List.mem_singleton.1 mem⟩

/-! ## Refused installations -/

/-- An update is not finished. -/
def Slot.Blocks (s : Slot) : Prop :=
  s.reported = .staged ∨ s.reported = .trial ∨ s.reported = .rejected

/-- `tfm_fwu_install` sees that an update is not finished. -/
def Slot.Stops (s : Slot) : Prop :=
  s.Recorded .staged ∨ s.Recorded .rejected ∨ s.ctx.inUse = false ∧ s.trial = true

/-- The bootloader gives the state of a component that does not take part in an update. -/
def Answered (a : Answers n) (x : World n) (c : Fin n) : Prop :=
  (x.ctx c).inUse = false → a.imageInfo c = psaSuccess

theorem collectCandidates_of_stops (stops : (x.slot c).Stops) (answered : ∀ d ≤ c, Answered a x d)
    {l : List (Fin n)} (sorted : l.Pairwise (· < ·)) (mem : c ∈ l) :
    collectCandidates a x l = .error psaErrorBadState := by
  induction l with
  | nil => cases mem
  | cons d rest ih =>
      obtain ⟨below, sorted⟩ := List.pairwise_cons.1 sorted
      have le : d ≤ c := by
        rcases List.mem_cons.1 mem with eq | mem
        · exact eq.ge
        · exact (below c mem).le
      have further (same : d ≠ c) : collectCandidates a x rest = .error psaErrorBadState :=
        ih sorted (List.mem_of_ne_of_mem same.symm mem)
      rw [collectCandidates]
      split
      · next inUse =>
          split
          · rfl
          next quiet =>
          have ne : d ≠ c := by
            rintro rfl
            rcases stops with staged | rejected | ⟨idle, -⟩
            · exact quiet (.inl staged.2)
            · exact quiet (.inr rejected.2)
            · exact absurd (idle.symm.trans inUse) Bool.false_ne_true
          rw [further ne]
          split <;> rfl
      · next idle =>
          rw [if_neg (not_not.2 (answered d le (Bool.eq_false_iff.2 idle)))]
          split
          · rfl
          next accepted =>
          refine further ?_
          rintro rfl
          rcases stops with staged | rejected | ⟨-, trial⟩
          · exact idle staged.1
          · exact idle rejected.1
          · exact accepted trial

theorem collectCandidates_of_answered (answered : ∀ d, Answered a x d) (l : List (Fin n)) :
    collectCandidates a x l = .error psaErrorBadState ∨ ∃ cs, collectCandidates a x l = .ok cs := by
  induction l with
  | nil => exact .inr ⟨[], rfl⟩
  | cons d rest ih =>
      rw [collectCandidates]
      split
      · split
        · exact .inl rfl
        split
        · rcases ih with refused | ⟨cs, found⟩
          · rw [refused]
            exact .inl rfl
          · rw [found]
            exact .inr ⟨d :: cs, rfl⟩
        · exact ih
      · next idle =>
          rw [if_neg (not_not.2 (answered d (Bool.eq_false_iff.2 idle)))]
          split
          · exact .inl rfl
          · exact ih

/-- An update that is not finished comes to the notice of `tfm_fwu_install`, or there is nothing to
install. -/
def Noticed (a : Answers n) (x : World n) : Prop :=
  (∃ c, (x.slot c).Stops ∧ ∀ d ≤ c, Answered a x d) ∨
    (∀ c, ¬(x.slot c).Recorded .candidate) ∧ ∀ d, Answered a x d

/-- An installation is refused before the bootloader is called. -/
def Refused (result : PsaStatus × World n) (x : World n) : Prop :=
  result.1 = psaErrorBadState ∧ result.2 = x

theorem refused_of_noticed (noticed : Noticed a x) : Refused (tfmFwuInstall C a x) x := by
  have refused_of_error (refused : collectCandidates a x (List.finRange n) =
      .error psaErrorBadState) : Refused (tfmFwuInstall C a x) x := by
    rw [tfmFwuInstall, refused]
    exact ⟨rfl, rfl⟩
  rcases noticed with ⟨c, stops, answered⟩ | ⟨none_candidate, answered⟩
  · exact refused_of_error
      (collectCandidates_of_stops stops answered (List.pairwise_lt_finRange n)
        (List.mem_finRange c))
  rcases collectCandidates_of_answered answered (List.finRange n) with refused | ⟨cs, found⟩
  · exact refused_of_error refused
  · have empty : cs = [] := List.eq_nil_iff_forall_not_mem.2 fun c mem ↦
      none_candidate c (mem_collectCandidates found mem)
    rw [tfmFwuInstall, found]
    dsimp only
    rw [if_pos empty]
    exact ⟨rfl, rfl⟩

/-! ## Runs -/

/-- A request, with what the bootloader answers while it is served. -/
structure Action (n : ℕ) where
  /-- The type of the message. -/
  type : MsgType
  /-- The message. -/
  msg : Msg
  /-- The answers. -/
  answers : Answers n

/-- Serve a request. -/
def serve (C : Config) (x : World n) (action : Action n) : PsaStatus × World n :=
  tfmFirmwareUpdateServiceSfn C action.answers action.type action.msg { x with calls := [] }

/-- Serve a request. -/
def step (C : Config) (x : World n) (action : Action n) : Option (World n) :=
  some (serve C x action).2

/-- The service and the bootloader after a boot. -/
structure Start (C : Config) (x : World n) : Prop where
  /-- No component takes part in an update. -/
  idle : ∀ c, (x.ctx c).inUse = false
  /-- The bootloader has taken the candidates that were pending. -/
  taken : ∀ c, x.pending c = false
  /-- The bootloader supports trials. -/
  support : ∀ c, x.trial c = true → C.supportTrialState = true

/-- What each request does. -/
structure Keeps (C : Config) (x : World n) (action : Action n) : Prop where
  /-- The states of the components follow the state model. -/
  transition : ∀ c, ((serve C x action).2.slot c).reported = (x.slot c).reported ∨
    Transition action.type (x.slot c).reported ((serve C x action).2.slot c).reported
  /-- Installations are refused while an update is not finished. -/
  refuses : action.type = .install → (∃ c, (x.slot c).Blocks) →
    (serve C x action).1 = psaErrorBadState ∧ ∀ cs, .installImage cs ∉ (serve C x action).2.calls
  /-- Candidates are installed. -/
  installs : ∀ cs, .installImage cs ∈ (serve C x action).2.calls →
    ∀ c ∈ cs, (x.slot c).reported = .candidate
  /-- Components on trial are accepted. -/
  accepts : ∀ cs, .markImageAccepted cs ∈ (serve C x action).2.calls →
    ∀ c ∈ cs, (x.slot c).reported = .trial
  /-- An acceptance leaves the other components alone. -/
  leaves : action.type = .accept → ∀ c, (x.slot c).reported ≠ .trial →
    (serve C x action).2.slot c = x.slot c
  /-- Nothing is pending for components that are ready or have failed. -/
  settles : ∀ c, ((serve C x action).2.slot c).reported = .failed ∨
      ((serve C x action).2.slot c).reported = .ready → (serve C x action).2.pending c = false

/-- An update that is not finished comes to the notice of an installation, and the bootloader is
able to take candidates back. -/
structure Careful (x : World n) (action : Action n) : Prop where
  /-- No trial is overlooked. -/
  noticed : action.type = .install → (∃ c, (x.slot c).Blocks) → Noticed action.answers x
  /-- An installation that fails leaves no candidate pending. -/
  tidied : action.type = .install → action.answers.installImage ≠ psaSuccess →
    ¬completes action.answers.installImage →
    ∀ c, (x.slot c).Recorded .candidate → action.answers.leftPending c = false
  /-- Staged images can be rejected. -/
  withdrawn : action.type = .reject → ∀ c, (x.slot c).Recorded .staged →
    action.answers.rejectStagedImage c = psaSuccess

/-- What holds of all components. -/
structure World.Inv (C : Config) (x : World n) : Prop where
  /-- Each component is valid. -/
  valid : ∀ c, (x.slot c).Valid C
  /-- Only staged components are pending. -/
  settled : ∀ c, (x.slot c).Settled

theorem Start.inv (start : Start C x) : x.Inv C := by
  refine ⟨fun c ↦ ⟨fun inUse ↦ ?_, fun inUse ↦ ?_, start.support c⟩, fun c pending ↦ ?_⟩
  · exact absurd ((start.idle c).symm.trans inUse) Bool.false_ne_true
  · exact absurd ((start.idle c).symm.trans inUse) Bool.false_ne_true
  · exact absurd ((start.taken c).symm.trans pending) Bool.false_ne_true

theorem moves_serve_action (C : Config) (x : World n) (action : Action n) :
    MovesAll C action.answers action.type x (serve C x action).2 := by
  have moves : MovesAll C action.answers action.type { x with calls := [] } (serve C x action).2 :=
    moves_serve action.type
  exact moves

theorem World.Inv.served (inv : x.Inv C) {action : Action n} (careful : Careful x action) :
    (serve C x action).2.Inv C := by
  have moves := moves_serve_action C x action
  refine ⟨fun c ↦ (moves c).valid (inv.valid c), fun c ↦ (moves c).settled (inv.settled c) ?_ ?_⟩
  · exact fun install candidate error fails ↦ careful.tidied install error fails c candidate
  · exact fun reject staged ↦ careful.withdrawn reject c staged

/-- The calls that install or accept images. -/
theorem calls_serve {action : Action n} {call : Call n} (mem : call ∈ (serve C x action).2.calls)
    (commits : call.Commits) :
    (action.type = .install ∧ ∃ cs, (∀ c ∈ cs, (x.slot c).Recorded .candidate) ∧
        call = .installImage cs) ∨
      ∃ trials, (∀ c ∈ trials, (x.slot c).reported = .trial) ∧
        call = .markImageAccepted trials := by
  have none_before {y : World n} (harmless : Harmless { x with calls := [] } y)
      (mem : call ∈ y.calls) : False := by
    cases harmless call mem commits
  rw [serve, tfmFirmwareUpdateServiceSfn.eq_def] at mem
  split at mem
  · exact (none_before harmless_start mem).elim
  · exact (none_before harmless_write mem).elim
  · exact (none_before harmless_finish mem).elim
  · next install =>
      rcases calls_install mem with mem | ⟨cs, collected, eq⟩
      · cases mem
      · have recorded (c : Fin n) (mem : c ∈ cs) :
            (World.slot { x with calls := [] } c).Recorded .candidate :=
          mem_collectCandidates collected mem
        exact .inl ⟨install, cs, recorded, eq⟩
  · exact (none_before harmless_cancel mem).elim
  · exact (none_before harmless_clean mem).elim
  · exact (none_before .refl mem).elim
  · rcases calls_accept mem with mem | accepted
    · cases mem
    · exact .inr accepted
  · exact (none_before harmless_reject mem).elim
  · exact (none_before .refl mem).elim

/-- Every careful request keeps to the state model. -/
theorem World.Inv.keeps (inv : x.Inv C) {action : Action n} (careful : Careful x action) :
    Keeps C x action := by
  have moves := moves_serve_action C x action
  have after := inv.served careful
  constructor
  case transition => exact fun c ↦ (moves c).transition (inv.valid c)
  case refuses =>
    intro install blocked
    have noticed : Noticed action.answers { x with calls := [] } := careful.noticed install blocked
    obtain ⟨status, kept⟩ := refused_of_noticed (C := C) noticed
    rw [serve, install]
    dsimp only [tfmFirmwareUpdateServiceSfn]
    rw [status, kept]
    exact ⟨rfl, fun cs mem ↦ nomatch mem⟩
  case installs =>
    intro cs mem c candidate
    rcases calls_serve mem trivial with ⟨-, candidates, recorded, eq⟩ | ⟨trials, -, eq⟩
    · cases eq
      exact Slot.reported_of_recorded (recorded c candidate)
    · cases eq
  case accepts =>
    intro cs mem c trial
    rcases calls_serve mem trivial with ⟨-, candidates, -, eq⟩ | ⟨trials, reported, eq⟩
    · cases eq
    · cases eq
      exact reported c trial
  case leaves =>
    intro accept c not_trial
    have move := moves c
    rw [accept] at move
    generalize (serve C x action).2.slot c = t at move ⊢
    generalize x.slot c = s at move not_trial ⊢
    cases move with
    | stay => rfl
    | join _ _ _ trial => exact absurd trial not_trial
    | accept _ trial => exact absurd trial not_trial
  case settles =>
    intro c reported
    by_contra pending
    have staged := after.settled c (Bool.not_eq_false _ ▸ pending)
    rw [Slot.reported_of_recorded staged] at reported
    rcases reported with eq | eq
    · cases eq
    · cases eq

/-- Every request of a run keeps to the state model, and no component that is ready or has failed is
left pending, when the requests of the run are careful. -/
theorem keeps_of_careful (C : Config) (start x : World n) (initial : Start C start)
    (reaches : Run.Reaches (step C) Careful start x) (action : Action n)
    (careful : Careful x action) : Keeps C x action := by
  have inv : x.Inv C := by
    refine reaches.invariant (I := fun x ↦ x.Inv C) initial.inv ?_
    rintro before action after inv careful ⟨⟩
    exact inv.served careful
  exact inv.keeps careful

/-- Trials are supported. -/
def sampleConfig : Config := ⟨true, 100, 64, 32, 20⟩

/-- The bootloader answers all requests, and installs and rejects at the next reboot. -/
def sampleAnswers : Answers 2 :=
  ⟨fun _ ↦ psaSuccess, psaSuccess, fun _ ↦ psaSuccess, psaSuccessReboot, fun _ ↦ false, psaSuccess,
    fun _ ↦ false, fun _ ↦ psaSuccess, fun _ ↦ psaSuccessReboot, psaSuccess⟩

/-- A message for a component. -/
def sampleMsg (component : ℕ) : Msg := ⟨sizeofComponent, 0, 0, 20, component, 0, 0⟩

/-- The image of the first component is running on trial, or none is. -/
def sampleStart (trial : Bool) : World 2 :=
  ⟨fun _ ↦ ⟨psaSuccess, .ready, false⟩, fun c ↦ trial && c == 0, fun _ ↦ false, []⟩

theorem start_sampleStart (trial : Bool) : Start sampleConfig (sampleStart trial) :=
  ⟨fun _ ↦ rfl, fun _ ↦ rfl, fun _ _ ↦ rfl⟩

/-- A component is written and installed, and rejected again. -/
def sampleRun : List (Action 2) :=
  [⟨.start, sampleMsg 1, sampleAnswers⟩, ⟨.finish, sampleMsg 1, sampleAnswers⟩,
    ⟨.install, sampleMsg 0, sampleAnswers⟩]

/-- The rejection of what is installed. -/
def sampleRejection : Action 2 :=
  ⟨.reject, { sampleMsg 0 with inSize0 := sizeofStatus }, sampleAnswers⟩

theorem careful_of_sampleAnswers {x : World 2} {type : MsgType} {msg : Msg}
    (clear : (x.slot 0).reported = .ready ∧ (x.slot 1).reported = .candidate ∨ type ≠ .install) :
    Careful x ⟨type, msg, sampleAnswers⟩ := by
  refine ⟨fun install blocked ↦ ?_, fun _ _ _ _ _ ↦ rfl, fun _ _ _ ↦ rfl⟩
  obtain ⟨ready, candidate⟩ := clear.resolve_right fun ne ↦ ne install
  rcases Fin.exists_fin_two.1 blocked with blocks | blocks
  · rw [Slot.Blocks, ready] at blocks
    exact absurd blocks (by decide)
  · rw [Slot.Blocks, candidate] at blocks
    exact absurd blocks (by decide)

/-- The staged component is rejected. -/
theorem keeps_sampleRejection :
    ∃ x, Run.exec (step sampleConfig) (sampleStart false) sampleRun = some x ∧
      (x.slot 1).reported = .staged ∧ x.pending 1 = true ∧
        Keeps sampleConfig x sampleRejection := by
  refine ⟨_, rfl, by decide, by decide,
    keeps_of_careful sampleConfig (sampleStart false) _ (start_sampleStart false) ?_ _
      (careful_of_sampleAnswers (.inr (by decide)))⟩
  refine .tail (.tail (.tail .refl ?_ rfl) ?_ rfl) ?_ rfl
  · exact careful_of_sampleAnswers (.inr (by decide))
  · exact careful_of_sampleAnswers (.inr (by decide))
  · exact careful_of_sampleAnswers (.inl (by decide))

/-- An acceptance fails, and then another component is written. -/
def overlookingRun : List (Action 2) :=
  [⟨.accept, sampleMsg 0, { sampleAnswers with markImageAccepted := -1 }⟩,
    ⟨.start, sampleMsg 1, sampleAnswers⟩, ⟨.finish, sampleMsg 1, sampleAnswers⟩]

/-- The other component is installed, although the first one is on trial. -/
theorem not_keeps : ¬∀ (n : ℕ) (C : Config) (start x : World n), Start C start →
    Run.Reaches (step C) (fun _ _ ↦ True) start x → ∀ action : Action n, Keeps C x action := by
  intro keeps
  obtain ⟨x, run, trial⟩ : ∃ x,
      Run.exec (step sampleConfig) (sampleStart true) overlookingRun = some x ∧
      (x.slot 0).reported = .trial ∧
        (serve sampleConfig x ⟨.install, sampleMsg 0, sampleAnswers⟩).1 = psaSuccessReboot :=
    ⟨_, rfl, by decide⟩
  have reaches := Run.exec_reaches run (Run.allowed_true ..)
  have refuses := (keeps 2 sampleConfig (sampleStart true) x (start_sampleStart true) reaches
    ⟨.install, sampleMsg 0, sampleAnswers⟩).refuses rfl ⟨0, .inr (.inl trial.1)⟩
  exact absurd (trial.2.symm.trans refuses.1) (by decide)

end TrustedFirmwareM.Fwu
