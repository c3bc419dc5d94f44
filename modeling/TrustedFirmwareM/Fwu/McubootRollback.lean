import TrustedFirmwareM.Fwu.McubootChecks
import Mathlib.Data.Nat.Basic

/-!
# A failure in the middle of an update

Components are marked one after another: candidates as pending, trial images as confirmed.  When a
call fails, the marks of the components before it are to be taken back.  This is done for
candidates, but not for the component whose call has failed.  For trial images the wrong slot is
written.
-/

namespace TrustedFirmwareM.Fwu.Mcuboot

variable {n : ℕ}

/-! ### Components are marked one after another -/

/-- Calls that mark components. -/
structure Marking where
  /-- The slot that is written. -/
  slot : Slot
  /-- A component is marked. -/
  Mark : Flash → ℕ → Prop
  /-- The mark is in the slot of the component. -/
  mark_congr : ∀ flash flash' component, flash' ⟨slot, component⟩ = flash ⟨slot, component⟩ →
    (Mark flash' component ↔ Mark flash component)
  /-- The call in a turn of the loop. -/
  call : ℕ → ℕ → Flash → ℤ × Flash
  /-- Only the slot of the component is written. -/
  frame : ∀ i component flash area, area ≠ ⟨slot, component⟩ →
    (call i component flash).2 area = flash area
  /-- Success marks the component. -/
  ok : ∀ i component flash, (call i component flash).1 = 0 →
    Mark (call i component flash).2 component

/-- The first call that fails is the one for `component`, when those for `handled` are done. -/
inductive FailsAt (M : Marking) : ℕ → List ℕ → Flash → List ℕ → ℕ → Flash → Prop
  /-- The call fails. -/
  | here {i component components flash} (failed : (M.call i component flash).1 ≠ 0) :
    FailsAt M i (component :: components) flash [] component (M.call i component flash).2
  /-- The call succeeds, and a later one fails. -/
  | later {i first components flash handled component after}
    (done : (M.call i first flash).1 = 0)
    (rest : FailsAt M (i + 1) components (M.call i first flash).2 handled component after) :
    FailsAt M i (first :: components) flash (first :: handled) component after

namespace FailsAt

variable {M : Marking} {i component : ℕ} {components handled : List ℕ} {flash after : Flash}

theorem split (fails : FailsAt M i components flash handled component after) :
    ∃ rest, components = handled ++ component :: rest := by
  induction fails with
  | here _ => exact ⟨_, rfl⟩
  | later _ _ induction =>
      obtain ⟨rest, rfl⟩ := induction
      exact ⟨rest, rfl⟩

theorem mem (fails : FailsAt M i components flash handled component after) :
    component ∈ components := by
  obtain ⟨rest, rfl⟩ := fails.split
  simp

theorem handled_subset (fails : FailsAt M i components flash handled component after) :
    ∀ d ∈ handled, d ∈ components := by
  obtain ⟨rest, rfl⟩ := fails.split
  intro d d_mem
  exact List.mem_append_left _ d_mem

/-- What is not called for is left as it is. -/
theorem area_eq (fails : FailsAt M i components flash handled component after) {area : Area}
    (ne : area ≠ ⟨M.slot, component⟩) (apart : ∀ d ∈ handled, area ≠ ⟨M.slot, d⟩) :
    after area = flash area := by
  induction fails with
  | here _ => exact M.frame _ _ _ _ ne
  | later _ _ induction =>
      rw [induction ne fun d d_mem ↦ apart d (List.mem_cons_of_mem _ d_mem)]
      exact M.frame _ _ _ _ (apart _ List.mem_cons_self)

/-- A mark stays when it is not the last call's. -/
theorem mark_kept (fails : FailsAt M i components flash handled component after) {d : ℕ}
    (ne : d ≠ component) (marked : M.Mark flash d) : M.Mark after d := by
  induction fails with
  | @here i component components flash _ =>
      have kept : (M.call i component flash).2 ⟨M.slot, d⟩ = flash ⟨M.slot, d⟩ :=
        M.frame i component flash _ (by simp [ne])
      exact (M.mark_congr _ _ d kept).mpr marked
  | @later i first components flash handled component after done _ induction =>
      apply induction ne
      rcases eq_or_ne d first with rfl | other
      · exact M.ok _ _ _ done
      · have kept : (M.call i first flash).2 ⟨M.slot, d⟩ = flash ⟨M.slot, d⟩ :=
          M.frame i first flash _ (by simp [other])
        exact (M.mark_congr _ _ d kept).mpr marked

/-- What has been handled is marked, but for the component of the last call. -/
theorem marked (fails : FailsAt M i components flash handled component after) :
    ∀ d ∈ handled, d ≠ component → M.Mark after d := by
  induction fails with
  | here _ => simp
  | @later i first components flash handled component after done rest induction =>
      intro d d_mem ne
      rcases List.mem_cons.mp d_mem with rfl | d_mem
      · exact rest.mark_kept ne (M.ok _ _ _ done)
      · exact induction d d_mem ne

/-- What has not been handled is marked only if it was before. -/
theorem mark_iff (fails : FailsAt M i components flash handled component after) {d : ℕ}
    (ne : d ≠ component) (fresh : d ∉ handled) : M.Mark after d ↔ M.Mark flash d := by
  apply M.mark_congr
  apply fails.area_eq
  · simp [ne]
  · intro e e_mem eq
    exact fresh ((Area.mk.inj eq).2 ▸ e_mem)

end FailsAt

/-- `boot_set_pending_multi` marks secondary slots. -/
def pendingMarking (E : Env n) : Marking where
  slot := .secondary
  Mark := Pending E.trailers
  mark_congr flash flash' component eq := by simp only [Pending, eq]
  call := E.bootSetPendingMulti
  frame := E.pending_frame
  ok := E.pending_ok

/-- `boot_set_confirmed_multi` marks primary slots. -/
def confirmedMarking (E : Env n) : Marking where
  slot := .primary
  Mark := Confirmed E.trailers
  mark_congr flash flash' component eq := by simp only [Confirmed, eq]
  call := E.bootSetConfirmedMulti
  frame := E.confirmed_frame
  ok := E.confirmed_ok

/-! ### Candidates are rejected -/

/-- The flash without the boot magic of a component. -/
def eraseMagic (T : Trailers) (flash : Flash) (component : ℕ) : Flash :=
  flash.write ⟨.secondary, component⟩
    (alignDown (bootMagicOff (T.size ⟨.secondary, component⟩)) T.bootMaxAlign)
    (List.replicate (alignUp 16 T.bootMaxAlign) T.erasedVal)

/-- A component exists, and its slot has been opened. -/
def rejectable (ctx : Ctx n) (component : ℕ) : Bool :=
  decide (component < n) && (ctx.fap component).isSome

/-- The components of a list up to the first one that cannot be rejected. -/
def rejected (ctx : Ctx n) (components : List ℕ) : List ℕ := components.takeWhile (rejectable ctx)

variable {E : Env n} {T : Trailers} {flash : Flash} {s : State n} {components : List ℕ}

theorem write_apart {area area' : Area} {off : ℕ} {bytes : List (BitVec 8)} (ne : area' ≠ area) :
    flash.write area off bytes area' = flash area' :=
  Function.update_of_ne ne _ _

theorem write_at {area : Area} {off k : ℕ} {bytes : List (BitVec 8)} (le : off ≤ k) :
    flash.write area off bytes area k = bytes[k - off]?.getD (flash area k) := by
  simp [Flash.write, le]

/-- The first byte of the magic is erased: it is in the first aligned unit. -/
theorem not_pending_eraseMagic {component : ℕ} :
    ¬Pending T (eraseMagic T flash component) component := by
  intro pending
  let off := bootMagicOff (T.size ⟨.secondary, component⟩)
  have first : eraseMagic T flash component ⟨.secondary, component⟩ off = T.bootMagic.getD 0 0 := by
    rw [← pending]
    simp [readBytes, off]
  apply T.bootMagic_ne
  rw [← first]
  have le : alignDown off T.bootMaxAlign ≤ off := Nat.div_mul_le_self _ _
  have lt : off - alignDown off T.bootMaxAlign < alignUp 16 T.bootMaxAlign := by
    have within : off < alignDown off T.bootMaxAlign + T.bootMaxAlign :=
      Nat.lt_div_mul_add T.bootMaxAlign_pos
    have unit_le : 1 * T.bootMaxAlign ≤ alignUp 16 T.bootMaxAlign := by
      apply Nat.mul_le_mul_right
      rw [Nat.le_div_iff_mul_le T.bootMaxAlign_pos]
      omega
    omega
  rw [eraseMagic, write_at le, List.getElem?_replicate, if_pos lt, Option.getD_some]

theorem pending_eraseMagic {component d : ℕ} :
    Pending T (eraseMagic T flash component) d ↔ d ≠ component ∧ Pending T flash d := by
  rcases eq_or_ne d component with rfl | ne
  · simp [not_pending_eraseMagic]
  · have kept : eraseMagic T flash component ⟨.secondary, d⟩ = flash ⟨.secondary, d⟩ :=
      write_apart (by simp [ne])
    simp [Pending, kept, ne]

theorem pending_foldl {d : ℕ} :
    Pending T (components.foldl (eraseMagic T) flash) d ↔ d ∉ components ∧ Pending T flash d := by
  induction components generalizing flash with
  | nil => simp
  | cons component components induction =>
      rw [List.foldl_cons, induction, pending_eraseMagic]
      simp only [List.mem_cons, not_or]
      tauto

theorem foldl_apart {area : Area} (apart : area.image ∉ components) :
    components.foldl (eraseMagic T) flash area = flash area := by
  induction components generalizing flash with
  | nil => rfl
  | cons component components induction =>
      simp only [List.mem_cons, not_or] at apart
      rw [List.foldl_cons, induction apart.2]
      apply write_apart
      intro eq
      exact apart.1 (congrArg Area.image eq)

theorem rejectStagedImage_of_rejectable {component : ℕ} (can : rejectable s.ctx component = true) :
    fwuBootloaderRejectStagedImage T component s =
      (.ok psaSuccess,
        { s.note (.ctx component) with flash := eraseMagic T s.flash component }) := by
  obtain ⟨lt, opened⟩ : component < n ∧ (s.ctx.fap component).isSome := by
    simpa [rejectable] using can
  obtain ⟨fap, opened⟩ := Option.isSome_iff_exists.mp opened
  obtain rfl := s.ctx.fap_eq component lt fap opened
  rw [fwuBootloaderRejectStagedImage, if_neg (not_le_of_gt lt)]
  simp only [Bind.bind, getFap, look, getState, Pure.pure, State.note, opened, eraseBootMagic,
    setFlash]
  rfl

theorem rejectStagedImage_of_not {component : ℕ} (cannot : rejectable s.ctx component = false) :
    ∃ status t, status ≠ psaSuccess ∧ t.flash = s.flash ∧
      fwuBootloaderRejectStagedImage T component s = (.ok status, t) := by
  by_cases lt : component < n
  · have opened : s.ctx.fap component = none := by simpa [rejectable, lt] using cannot
    refine ⟨psaErrorDoesNotExist, s.note (.ctx component), by decide, rfl, ?_⟩
    rw [fwuBootloaderRejectStagedImage, if_neg (not_le_of_gt lt)]
    simp only [Bind.bind, getFap, look, getState, Pure.pure, State.note, opened]
  · refine ⟨psaErrorInvalidArgument, s, by decide, rfl, ?_⟩
    rw [fwuBootloaderRejectStagedImage, if_pos (not_lt.mp lt)]
    rfl

/-- The roll-back erases the boot magic of each component that it comes to. -/
theorem rejectStagedImages_eq :
    (rejectStagedImages T components s).1 = .ok () ∧
      (rejectStagedImages T components s).2.flash =
        (rejected s.ctx components).foldl (eraseMagic T) s.flash := by
  induction components generalizing s with
  | nil => exact ⟨rfl, rfl⟩
  | cons component components induction =>
      cases can : rejectable s.ctx component with
      | true =>
          simp only [rejectStagedImages, Bind.bind, rejectStagedImage_of_rejectable can, ne_eq,
            not_true_eq_false, if_false, rejected, List.takeWhile_cons_of_pos can, List.foldl_cons]
          exact induction
      | false =>
          obtain ⟨status, t, failed, flash_eq, run⟩ := rejectStagedImage_of_not (T := T) can
          have none_rejected : rejected s.ctx (component :: components) = [] :=
            List.takeWhile_cons_of_neg (by simp [can])
          simp only [rejectStagedImages, Bind.bind, run, ne_eq, failed, not_false_eq_true, if_true,
            none_rejected]
          exact ⟨rfl, flash_eq⟩

/-! ### Candidates are marked -/

variable {candidates : List ℕ} {i : ℕ}

theorem bootSetPending_run {component : ℕ} :
    bootSetPending E i component s = (.ok (E.bootSetPendingMulti i component s.flash).1,
      (bootSetPending E i component s).2) :=
  rfl

/-- The call for a candidate fails. -/
theorem setPending_of_failed {component : ℕ}
    (failed : (E.bootSetPendingMulti i component s.flash).1 ≠ 0) :
    setPending E candidates i (component :: components) s =
      (.error psaErrorStorageFailure, (rejectStagedImages E.trailers (candidates.take i)
        (bootSetPending E i component s).2).2) := by
  rw [setPending, Fallible.bind_of_ok bootSetPending_run, if_pos failed,
    Fallible.bind_of_ok (Prod.ext rejectStagedImages_eq.1 rfl)]
  rfl

/-- The call for a candidate succeeds. -/
theorem setPending_of_done {component : ℕ}
    (done : (E.bootSetPendingMulti i component s.flash).1 = 0) :
    setPending E candidates i (component :: components) s =
      setPending E candidates (i + 1) components (bootSetPending E i component s).2 := by
  rw [setPending, Fallible.bind_of_ok bootSetPending_run, if_neg (not_not_intro done)]

/-- When a call fails, the candidates before it are rejected. -/
theorem setPending_of_failsAt {flash after : Flash} {handled : List ℕ} {component : ℕ}
    (fails : FailsAt (pendingMarking E) i components flash handled component after)
    (flash_eq : s.flash = flash) :
    (setPending E candidates i components s).1 = .error psaErrorStorageFailure ∧
      (setPending E candidates i components s).2.flash =
        (rejected s.ctx (candidates.take (i + handled.length))).foldl (eraseMagic E.trailers)
          after := by
  induction fails generalizing s with
  | here failed =>
      subst flash_eq
      rw [setPending_of_failed failed]
      exact ⟨rfl, rejectStagedImages_eq.2⟩
  | @later i first components flash handled component after done rest induction =>
      subst flash_eq
      rw [setPending_of_done done, List.length_cons, Nat.add_comm handled.length 1, ← Nat.add_assoc]
      exact induction rfl

/-- All calls succeed, or there is a first one that fails. -/
theorem setPending_cases (s : State n) :
    (setPending E candidates i components s).1 = .ok psaSuccessReboot ∨
      ∃ handled component after,
        FailsAt (pendingMarking E) i components s.flash handled component after := by
  induction components generalizing i s with
  | nil => exact .inl rfl
  | cons component components induction =>
      rcases eq_or_ne (E.bootSetPendingMulti i component s.flash).1 0 with done | failed
      · rw [setPending_of_done done]
        rcases induction (bootSetPending E i component s).2 with ok | ⟨handled, last, after, fails⟩
        · exact .inl ok
        · exact .inr ⟨component :: handled, last, after, .later done fails⟩
      · exact .inr ⟨[], component, _, .here failed⟩

/-- The slots of other components are left as they are. -/
theorem setPending_apart {area : Area} (apart : area.image ∉ components)
    (apart' : area.image ∉ candidates) :
    (setPending E candidates i components s).2.flash area = s.flash area := by
  induction components generalizing i s with
  | nil => rfl
  | cons component components induction =>
      simp only [List.mem_cons, not_or] at apart
      have called : (bootSetPending E i component s).2.flash area = s.flash area :=
        E.pending_frame _ _ _ _ fun eq ↦ apart.1 (congrArg Area.image eq)
      rcases eq_or_ne (E.bootSetPendingMulti i component s.flash).1 0 with done | failed
      · rw [setPending_of_done done, induction apart.2, called]
      · rw [setPending_of_failed failed, rejectStagedImages_eq.2, foldl_apart, called]
        intro mem
        exact apart' (List.mem_of_mem_take ((List.takeWhile_subset _) mem))

/-! ### Trial images are confirmed -/

variable {trials : List ℕ}

theorem eraseImageOk_eq {fap : Area} :
    ∃ status t, eraseImageOk T fap s = (.ok status, t) ∧
      ∀ area, area ≠ fap → t.flash area = s.flash area := by
  rw [eraseImageOk]
  split
  · exact ⟨_, _, rfl, fun _ _ ↦ rfl⟩
  · exact ⟨_, _, rfl, fun _ ne ↦ write_apart ne⟩

/-- The roll-back of trial images writes the secondary slot of one component. -/
theorem eraseImagesOk_eq {component : ℕ} (lt : component < n) :
    ∃ t, eraseImagesOk T component i s = (.ok (), t) ∧
      ∀ area, area ≠ ⟨.secondary, component⟩ → t.flash area = s.flash area := by
  induction i generalizing s with
  | zero => exact ⟨s, rfl, fun _ _ ↦ rfl⟩
  | succ i induction =>
      have opened_run : getFap component s = (.ok (s.ctx.fap component), s.note (.ctx component)) :=
        rfl
      rw [eraseImagesOk, Fallible.bind_of_ok opened_run]
      cases opened : s.ctx.fap component with
      | none => exact ⟨_, rfl, fun _ _ ↦ rfl⟩
      | some fap =>
          obtain rfl := s.ctx.fap_eq component lt fap opened
          have erase_run : ∃ status t, eraseImageOk T ⟨.secondary, component⟩
              (s.note (.ctx component)) = (.ok status, t) ∧
                ∀ area, area ≠ ⟨.secondary, component⟩ → t.flash area = s.flash area :=
            eraseImageOk_eq
          obtain ⟨status, t, run, kept⟩ := erase_run
          simp only
          rw [Fallible.bind_of_ok run]
          split
          · exact ⟨t, rfl, kept⟩
          · obtain ⟨t', run', kept'⟩ := induction (s := t)
            exact ⟨t', run', fun area ne ↦ (kept' area ne).trans (kept area ne)⟩

theorem bootSetConfirmed_run {component : ℕ} :
    bootSetConfirmed E i component s = (.ok (E.bootSetConfirmedMulti i component s.flash).1,
      (bootSetConfirmed E i component s).2) :=
  rfl

/-- The call for a trial image succeeds. -/
theorem setConfirmed_of_done {component : ℕ}
    (done : (E.bootSetConfirmedMulti i component s.flash).1 = 0) :
    setConfirmed E i (component :: components) s =
      setConfirmed E (i + 1) components (bootSetConfirmed E i component s).2 := by
  rw [setConfirmed, Fallible.bind_of_ok bootSetConfirmed_run, if_neg (not_not_intro done)]

/-- The call for a trial image fails. -/
theorem setConfirmed_of_failed {component : ℕ} (lt : component < n)
    (failed : (E.bootSetConfirmedMulti i component s.flash).1 ≠ 0) :
    (setConfirmed E i (component :: components) s).1 = .error psaErrorStorageFailure ∧
      ∀ area, area ≠ ⟨.secondary, component⟩ →
        (setConfirmed E i (component :: components) s).2.flash area =
          (E.bootSetConfirmedMulti i component s.flash).2 area := by
  obtain ⟨t, run, kept⟩ := eraseImagesOk_eq (T := E.trailers) (i := i)
    (s := (bootSetConfirmed E i component s).2) lt
  rw [setConfirmed, Fallible.bind_of_ok bootSetConfirmed_run, if_pos failed,
    Fallible.bind_of_ok run]
  exact ⟨rfl, kept⟩

/-- When a call fails, the primary slots stay as they are then. -/
theorem setConfirmed_of_failsAt {flash after : Flash} {handled : List ℕ} {component : ℕ}
    (fails : FailsAt (confirmedMarking E) i components flash handled component after)
    (lt : component < n) (flash_eq : s.flash = flash) :
    (setConfirmed E i components s).1 = .error psaErrorStorageFailure ∧
      ∀ d, (setConfirmed E i components s).2.flash ⟨.primary, d⟩ = after ⟨.primary, d⟩ := by
  induction fails generalizing s with
  | here failed =>
      subst flash_eq
      obtain ⟨result_eq, kept⟩ := setConfirmed_of_failed lt failed
      exact ⟨result_eq, fun d ↦ kept _ (by simp)⟩
  | later done rest induction =>
      subst flash_eq
      rw [setConfirmed_of_done done]
      exact induction lt rfl

/-- All calls succeed, or there is a first one that fails. -/
theorem setConfirmed_cases (s : State n) :
    (setConfirmed E i components s).1 = .ok psaSuccess ∨
      ∃ handled component after,
        FailsAt (confirmedMarking E) i components s.flash handled component after := by
  induction components generalizing i s with
  | nil => exact .inl rfl
  | cons component components induction =>
      rcases eq_or_ne (E.bootSetConfirmedMulti i component s.flash).1 0 with done | failed
      · rw [setConfirmed_of_done done]
        rcases induction (bootSetConfirmed E i component s).2 with
          ok | ⟨handled, last, after, fails⟩
        · exact .inl ok
        · exact .inr ⟨component :: handled, last, after, .later done fails⟩
      · exact .inr ⟨[], component, _, .here failed⟩

/-- The slots of other components are left as they are. -/
theorem setConfirmed_apart (lt : ∀ component ∈ components, component < n) {area : Area}
    (apart : area.image ∉ components) :
    (setConfirmed E i components s).2.flash area = s.flash area := by
  induction components generalizing i s with
  | nil => rfl
  | cons component components induction =>
      simp only [List.mem_cons, not_or] at apart
      have called : (bootSetConfirmed E i component s).2.flash area = s.flash area :=
        E.confirmed_frame _ _ _ _ fun eq ↦ apart.1 (congrArg Area.image eq)
      rcases eq_or_ne (E.bootSetConfirmedMulti i component s.flash).1 0 with done | failed
      · rw [setConfirmed_of_done done,
          induction (fun d mem ↦ lt d (List.mem_cons_of_mem component mem)) apart.2, called]
      · obtain ⟨-, kept⟩ := setConfirmed_of_failed (lt component List.mem_cons_self) failed
        exact (kept area fun eq ↦ apart.1 (congrArg Area.image eq)).trans called

/-- The slots are opened when all components exist and nothing fails. -/
theorem openTrials_ok (lt : ∀ component ∈ trials, component < n) :
    (openTrials (fun _ ↦ false) trials s).1 = .ok () := by
  induction trials generalizing s with
  | nil => rfl
  | cons component trials induction =>
      have run : openSecondary (fun _ ↦ false) component s =
        (.ok (), (openSecondary (fun _ ↦ false) component s).2) := rfl
      rw [openTrials, if_neg (not_le_of_gt (lt component List.mem_cons_self)),
        Fallible.bind_of_ok run]
      exact induction fun d mem ↦ lt d (List.mem_cons_of_mem component mem)

/-- The first slot is not opened when everything fails. -/
theorem openTrials_error {component : ℕ} :
    ∃ status, (openTrials (fun _ ↦ true) (component :: trials) s).1 = .error status := by
  rw [openTrials]
  split
  · exact ⟨_, rfl⟩
  · exact ⟨_, rfl⟩

theorem openSecondary_flash {fails : ℕ → Bool} {component : ℕ} :
    (openSecondary fails component s).2.flash = s.flash := by
  simp only [openSecondary, Bind.bind, access]
  split
  · next access_run =>
      split at access_run
      · cases (Prod.mk.inj access_run).1
      · rw [← (Prod.mk.inj access_run).2]
        rfl
  · next access_run =>
      split at access_run
      · rw [← (Prod.mk.inj access_run).2]
        rfl
      · cases (Prod.mk.inj access_run).1

/-- To open the slots is not to write to them. -/
theorem openTrials_eq {fails : ℕ → Bool} :
    (openTrials fails trials s).2.flash = s.flash ∧
      ((openTrials fails trials s).1 = .ok () → ∀ component ∈ trials, component < n) := by
  induction trials generalizing s with
  | nil => exact ⟨rfl, fun _ ↦ by simp⟩
  | cons component trials induction =>
      rw [openTrials]
      split
      · exact ⟨rfl, fun eq ↦ nomatch eq⟩
      · next lt =>
          have flash_eq : (openSecondary fails component s).2.flash = s.flash := openSecondary_flash
          rcases run : openSecondary fails component s with ⟨status | value, t⟩
          · rw [Fallible.bind_of_error run]
            rw [run] at flash_eq
            exact ⟨flash_eq, fun eq ↦ nomatch eq⟩
          · rw [Fallible.bind_of_ok run]
            rw [run] at flash_eq
            refine ⟨induction.1.trans flash_eq, fun ok ↦ ?_⟩
            simpa [not_le.mp lt] using induction.2 ok

/-! ### All or nothing -/

/-- When components cannot be installed or accepted, none is left marked, and others are left as
they are. -/
structure AllOrNothing (E : Env n) (s : State n) (candidates trials : List ℕ) : Prop where
  /-- No candidate is left pending. -/
  install : ∀ fails status,
    (fwuBootloaderInstallImage E fails (some candidates) s).1 = .error status →
      ∀ d ∈ candidates, ¬Pending E.trailers
        (fwuBootloaderInstallImage E fails (some candidates) s).2.flash d
  /-- The slots of other components are not changed. -/
  install_apart : ∀ fails area, area.image ∉ candidates →
    (fwuBootloaderInstallImage E fails (some candidates) s).2.flash area = s.flash area
  /-- No trial image is left confirmed. -/
  accept : ∀ fails status,
    (fwuBootloaderMarkImageAccepted E fails (some trials) s).1 = .error status →
      ∀ d ∈ trials, ¬Confirmed E.trailers
        (fwuBootloaderMarkImageAccepted E fails (some trials) s).2.flash d
  /-- The slots of other components are not changed. -/
  accept_apart : ∀ fails area, area.image ∉ trials →
    (fwuBootloaderMarkImageAccepted E fails (some trials) s).2.flash area = s.flash area

/-- What the roll-backs rely on. -/
structure RollsBack (E : Env n) (s : State n) (candidates trials : List ℕ) : Prop where
  /-- Where a check may fail, no candidate is pending before. -/
  checked : 1 < n → candidates ≠ [] → ∀ d ∈ candidates, ¬Pending E.trailers s.flash d
  /-- When a call for a candidate fails, the candidates that are pending then can be rejected, and
  they are among those before it. -/
  pending : InstallMet E s.flash s.ctx candidates → ∀ handled component after,
    FailsAt (pendingMarking E) 0 candidates s.flash handled component after →
      ∀ d ∈ candidates, Pending E.trailers after d → d ∈ rejected s.ctx handled
  /-- No trial image is confirmed before. -/
  opened : ∀ d ∈ trials, ¬Confirmed E.trailers s.flash d
  /-- When a call for a trial image fails, no other one has been confirmed, and it is not. -/
  confirmed : (∀ d ∈ trials, d < n) → ∀ handled component after,
    FailsAt (confirmedMarking E) 0 trials s.flash handled component after →
      (∀ d ∈ handled, d = component) ∧ ¬Confirmed E.trailers after component

variable {fails : ℕ → Bool}

theorem one_lt_of_check_error {status : PsaStatus}
    (failed : (checkInstall E fails candidates s).1 = .error status) : 1 < n := by
  rw [checkInstall] at failed
  split at failed
  · next several => exact several
  · exact nomatch failed

/-- The check fails when every access does. -/
theorem checkInstall_error {component : ℕ} (several : 1 < n) :
    ∃ status, (checkInstall E (fun _ ↦ true) (component :: components) s).1 = .error status := by
  have header_error : ∀ fap t, ∃ status t', readHeader E (fun _ ↦ true) fap t =
      (.error status, t') := by
    intro fap t
    rw [readHeader, flashAreaRead]
    split
    · exact ⟨_, _, rfl⟩
    · exact ⟨_, _, rfl⟩
  have candidate_error : ∃ status t, checkCandidate E (fun _ ↦ true) (component :: components)
      component E.dep s = (.error status, t) := by
    have opened_run : getFap component s = (.ok (s.ctx.fap component), s.note (.ctx component)) :=
      rfl
    rw [checkCandidate]
    split
    · exact ⟨_, _, rfl⟩
    · rw [Fallible.bind_of_ok opened_run]
      cases s.ctx.fap component with
      | none => exact ⟨_, _, rfl⟩
      | some fap =>
          obtain ⟨status, t, run⟩ := header_error fap (s.note (.ctx component))
          exact ⟨status, t, Fallible.bind_of_error run⟩
  obtain ⟨status, t, run⟩ := candidate_error
  have check_run : checkCandidates E (fun _ ↦ true) (component :: components)
      (component :: components) E.dep s = (.error status, t) := Fallible.bind_of_error run
  refine ⟨status, ?_⟩
  rw [checkInstall, if_pos several, Fallible.bind_of_error check_run]

theorem take_handled {M : Marking} {flash after : Flash} {handled : List ℕ} {component : ℕ}
    (failed : FailsAt M i components flash handled component after) :
    components.take (0 + handled.length) = handled := by
  obtain ⟨rest, rfl⟩ := failed.split
  rw [Nat.zero_add, List.take_left]

/-- An attempt to install candidates leaves none of them pending when it fails. -/
theorem install_of_rollsBack (rolls : RollsBack E s candidates trials) {status : PsaStatus}
    (failed : (fwuBootloaderInstallImage E fails (some candidates) s).1 = .error status) :
    ∀ d ∈ candidates, ¬Pending E.trailers
      (fwuBootloaderInstallImage E fails (some candidates) s).2.flash d := by
  obtain ⟨result, events, t, flash_eq, ctx_eq, -, check_eq, outcome, run⟩ :=
    installImage_cases E fails s candidates
  intro d d_mem
  rw [run] at failed ⊢
  cases result with
  | error status =>
      simp only [flash_eq]
      exact rolls.checked (one_lt_of_check_error check_eq) (List.ne_nil_of_mem d_mem) d d_mem
  | ok value =>
      rcases setPending_cases t with ok | ⟨handled, component, after, fails_at⟩
      · exact nomatch failed.symm.trans ok
      · obtain ⟨-, flash_eq'⟩ := setPending_of_failsAt fails_at rfl
        intro left
        simp only at left
        rw [flash_eq', take_handled fails_at, ctx_eq, pending_foldl] at left
        rw [flash_eq] at fails_at
        exact left.1 (rolls.pending (outcome.sound value rfl) _ _ _ fails_at d d_mem left.2)

/-- An attempt to accept trial images leaves none of them confirmed when it fails. -/
theorem accept_of_rollsBack (rolls : RollsBack E s candidates trials) {status : PsaStatus}
    (failed : (fwuBootloaderMarkImageAccepted E fails (some trials) s).1 = .error status) :
    ∀ d ∈ trials, ¬Confirmed E.trailers
      (fwuBootloaderMarkImageAccepted E fails (some trials) s).2.flash d := by
  intro d d_mem
  have opening : (openTrials fails trials s).2.flash = s.flash ∧
      ((openTrials fails trials s).1 = .ok () → ∀ component ∈ trials, component < n) :=
    openTrials_eq
  rcases run : openTrials fails trials s with ⟨status' | value, t⟩
  · rw [run] at opening
    rw [fwuBootloaderMarkImageAccepted, Fallible.bind_of_error run]
    have flash_eq : t.flash = s.flash := opening.1
    simp only [flash_eq]
    exact rolls.opened d d_mem
  · rw [run] at opening
    obtain ⟨flash_eq, exist⟩ := opening
    rw [fwuBootloaderMarkImageAccepted, Fallible.bind_of_ok run] at failed ⊢
    rcases setConfirmed_cases t with ok | ⟨handled, component, after, fails_at⟩
    · exact nomatch failed.symm.trans ok
    · have lt := exist rfl component fails_at.mem
      obtain ⟨-, kept⟩ := setConfirmed_of_failsAt fails_at lt rfl
      rw [flash_eq] at fails_at
      obtain ⟨alone, unmarked⟩ := rolls.confirmed (exist rfl) _ _ _ fails_at
      simp only [Confirmed, kept]
      rcases eq_or_ne d component with rfl | ne
      · exact unmarked
      · have fresh : d ∉ handled := fun handled_mem ↦ ne (alone d handled_mem)
        exact fun marked ↦ rolls.opened d d_mem ((fails_at.mark_iff ne fresh).mp marked)

theorem install_apart {area : Area} (apart : area.image ∉ candidates) :
    (fwuBootloaderInstallImage E fails (some candidates) s).2.flash area = s.flash area := by
  obtain ⟨result, events, t, flash_eq, -, -, -, -, run⟩ := installImage_cases E fails s candidates
  rw [run]
  cases result with
  | error status => exact congrFun flash_eq area
  | ok value => exact (setPending_apart apart apart).trans (congrFun flash_eq area)

theorem accept_apart {area : Area} (apart : area.image ∉ trials) :
    (fwuBootloaderMarkImageAccepted E fails (some trials) s).2.flash area = s.flash area := by
  have opening : (openTrials fails trials s).2.flash = s.flash ∧
      ((openTrials fails trials s).1 = .ok () → ∀ component ∈ trials, component < n) :=
    openTrials_eq
  rw [fwuBootloaderMarkImageAccepted]
  rcases run : openTrials fails trials s with ⟨status | value, t⟩
  · rw [run] at opening
    rw [Fallible.bind_of_error run]
    exact congrFun opening.1 area
  · rw [run] at opening
    rw [Fallible.bind_of_ok run, setConfirmed_apart (opening.2 rfl) apart]
    exact congrFun opening.1 area

/-- The check may fail, and then nothing has been changed. -/
theorem checked_of_allOrNothing (all : AllOrNothing E s candidates trials) (several : 1 < n)
    (ne : candidates ≠ []) : ∀ d ∈ candidates, ¬Pending E.trailers s.flash d := by
  intro d d_mem
  obtain ⟨component, components, rfl⟩ := List.exists_cons_of_ne_nil ne
  obtain ⟨result, events, t, flash_eq, -, -, check_eq, -, run⟩ :=
    installImage_cases E (fun _ ↦ true) s (component :: components)
  have check_failed : ∃ status,
      (checkInstall E (fun _ ↦ true) (component :: components) s).1 = .error status :=
    checkInstall_error several
  obtain ⟨status, failed⟩ := check_failed
  obtain rfl := check_eq.symm.trans failed
  have left := all.install (fun _ ↦ true) status (congrArg Prod.fst run) d d_mem
  rw [run] at left
  simpa only [flash_eq] using left

/-- The candidates that are pending when a call fails have to be among those that are rejected. -/
theorem pending_of_allOrNothing (all : AllOrNothing E s candidates trials)
    (met : InstallMet E s.flash s.ctx candidates) {handled : List ℕ} {component : ℕ} {after : Flash}
    (fails_at : FailsAt (pendingMarking E) 0 candidates s.flash handled component after) :
    ∀ d ∈ candidates, Pending E.trailers after d → d ∈ rejected s.ctx handled := by
  intro d d_mem pending
  obtain ⟨result, events, t, flash_eq, ctx_eq, -, -, outcome, run⟩ :=
    installImage_cases E (fun _ ↦ false) s candidates
  obtain rfl := outcome.complete (fun _ ↦ rfl) () met
  have rolled_back : (setPending E candidates 0 candidates t).1 = .error psaErrorStorageFailure ∧
      (setPending E candidates 0 candidates t).2.flash =
        (rejected t.ctx (candidates.take (0 + handled.length))).foldl (eraseMagic E.trailers)
          after := setPending_of_failsAt fails_at flash_eq
  obtain ⟨failed, flash_eq'⟩ := rolled_back
  have left := all.install (fun _ ↦ false) _ ((congrArg Prod.fst run).trans failed) d d_mem
  rw [run] at left
  simp only [flash_eq', take_handled fails_at, ctx_eq, pending_foldl, pending, and_true,
    not_not] at left
  exact left

/-- The slots of trial images may not be opened, and then nothing has been changed. -/
theorem opened_of_allOrNothing (all : AllOrNothing E s candidates trials) :
    ∀ d ∈ trials, ¬Confirmed E.trailers s.flash d := by
  intro d d_mem
  obtain ⟨component, components, rfl⟩ := List.exists_cons_of_ne_nil (List.ne_nil_of_mem d_mem)
  have not_opened : ∃ status,
      (openTrials (fun _ ↦ true) (component :: components) s).1 = .error status :=
    openTrials_error
  obtain ⟨status, failed⟩ := not_opened
  have flash_eq : (openTrials (fun _ ↦ true) (component :: components) s).2.flash = s.flash :=
    openTrials_eq.1
  have run : fwuBootloaderMarkImageAccepted E (fun _ ↦ true) (some (component :: components)) s =
      (.error status, (openTrials (fun _ ↦ true) (component :: components) s).2) :=
    Fallible.bind_of_error (Prod.ext failed rfl)
  have left := all.accept (fun _ ↦ true) status (congrArg Prod.fst run) d d_mem
  rw [run] at left
  simpa only [flash_eq] using left

/-- What is confirmed when a call fails stays confirmed. -/
theorem confirmed_of_allOrNothing (all : AllOrNothing E s candidates trials)
    (lt : ∀ d ∈ trials, d < n) {handled : List ℕ} {component : ℕ} {after : Flash}
    (fails_at : FailsAt (confirmedMarking E) 0 trials s.flash handled component after) :
    (∀ d ∈ handled, d = component) ∧ ¬Confirmed E.trailers after component := by
  have flash_eq : (openTrials (fun _ ↦ false) trials s).2.flash = s.flash := openTrials_eq.1
  have run : fwuBootloaderMarkImageAccepted E (fun _ ↦ false) (some trials) s =
      setConfirmed E 0 trials (openTrials (fun _ ↦ false) trials s).2 :=
    Fallible.bind_of_ok (Prod.ext (openTrials_ok lt) rfl)
  obtain ⟨failed, kept⟩ := setConfirmed_of_failsAt fails_at (lt component fails_at.mem) flash_eq
  have unmarked : ∀ d ∈ trials, ¬Confirmed E.trailers after d := by
    intro d d_mem
    have left := all.accept (fun _ ↦ false) _ ((congrArg Prod.fst run).trans failed) d d_mem
    rw [run] at left
    simpa only [Confirmed, kept] using left
  constructor
  · intro d d_mem
    apply Classical.byContradiction
    intro ne
    exact unmarked d (fails_at.handled_subset d d_mem) (fails_at.marked d d_mem ne)
  · exact unmarked component fails_at.mem

/-- Updates are all or nothing exactly where the roll-backs suffice. -/
theorem allOrNothing_iff_rollsBack (E : Env n) (s : State n) (candidates trials : List ℕ) :
    AllOrNothing E s candidates trials ↔ RollsBack E s candidates trials := by
  constructor
  · intro all
    refine ⟨checked_of_allOrNothing all, ?_, opened_of_allOrNothing all, ?_⟩
    · intro met handled component after fails_at
      exact pending_of_allOrNothing all met fails_at
    · intro lt handled component after fails_at
      exact confirmed_of_allOrNothing all lt fails_at
  · intro rolls
    refine ⟨?_, ?_, ?_, ?_⟩
    · intro fails status failed
      exact install_of_rollsBack rolls failed
    · intro fails area apart
      exact install_apart apart
    · intro fails status failed
      exact accept_of_rollsBack rolls failed
    · intro fails area apart
      exact accept_apart apart

/-- The first image can be confirmed, and the next one cannot. -/
def halfConfirmed : Env 2 where
  trailers := smallTrailers
  dependencies _ := []
  shared _ := 0
  dep := zeroDep
  dep_length := length_zeroDep
  bootSetPendingMulti := failedCall
  pending_frame := failedCall_frame .secondary
  pending_ok := failedCall_pending smallTrailers
  bootSetConfirmedMulti i component flash :=
    if i = 0 then (0, flash.write ⟨.primary, component⟩
      (bootImageOkOff 256 smallTrailers.bootMaxAlign) [1])
    else (1, flash)
  confirmed_frame i component flash area ne := by
    split
    · exact write_apart ne
    · rfl
  confirmed_ok i component flash ok := by
    split
    · simp [Confirmed, write_at, smallTrailers]
    · next later => simp [later] at ok

/-- Two images run on trial. -/
def onTrial : State 2 where
  flash _ _ := 0xff
  ctx := .closed 2
  trace := []

/-- The first image stays confirmed when the second one cannot be. -/
theorem allOrNothing_fails : ¬AllOrNothing halfConfirmed onTrial [] [0, 1] := by
  intro all
  have run : (fwuBootloaderMarkImageAccepted halfConfirmed (fun _ ↦ false) (some [0, 1])
      onTrial).1 = .error psaErrorStorageFailure := rfl
  apply all.accept _ _ run 0 (by decide)
  decide

end TrustedFirmwareM.Fwu.Mcuboot
