import TrustedFirmwareM.Its.AssetRuns

/-!
# Clients

What the clients see of each other.  The requests of the other clients, and their assets, can be
left out of any run: what is left is a run again, with the same replies.
-/

namespace TrustedFirmwareM.Its

open Run

variable {cfg : ServiceConfig} {assets assets' : Assets} {state : Option Assets}
  {clientId : ClientId} {request : Request}

/-- A client takes part in a request: it is its own, or an initialisation. -/
def Request.isOf (clientId : ClientId) : Request → Bool
  | .init _ => true
  | .set _ clientId' _ _ _ _ | .get clientId' _ _ _ | .getInfo clientId' _ | .remove clientId' _ =>
      clientId' == clientId

/-- The assets of one client. -/
def Assets.only (assets : Assets) (clientId : ClientId) : Assets := fun clientId' uid ↦
  if clientId' = clientId then assets clientId' uid else none

/-- The requests that a client takes part in. -/
def actionsOf (clientId : ClientId) (actions : List Action) : List Action :=
  actions.filter fun action ↦ action.request.isOf clientId

theorem actionsOf_cons_own {action : Action} (own : action.request.isOf clientId = true)
    (actions : List Action) :
    actionsOf clientId (action :: actions) = action :: actionsOf clientId actions :=
  List.filter_cons_of_pos own

theorem actionsOf_cons_other {action : Action} (other : action.request.isOf clientId = false)
    (actions : List Action) :
    actionsOf clientId (action :: actions) = actionsOf clientId actions :=
  List.filter_cons_of_neg (Bool.eq_false_iff.1 other)

@[simp]
theorem Assets.only_self (assets : Assets) (clientId : ClientId) (uid : Uid) :
    assets.only clientId clientId uid = assets clientId uid := if_pos rfl

theorem Assets.only_put_self (assets : Assets) (clientId : ClientId) (uid : Uid)
    (asset : Option Asset) :
    (assets.put clientId uid asset).only clientId =
      (assets.only clientId).put clientId uid asset := by
  funext clientId' uid'
  by_cases client : clientId' = clientId
  · subst client
    rw [Assets.only_self]
    by_cases same : uid' = uid
    · rw [same, Assets.put_self, Assets.put_self]
    · rw [Assets.put_other _ _ fun both ↦ same both.2, Assets.put_other _ _ fun both ↦ same both.2,
        Assets.only_self]
  · rw [Assets.put_other _ _ fun both ↦ client both.1, Assets.only, if_neg client, Assets.only,
      if_neg client]

theorem Assets.only_put_other (assets : Assets) {clientId' : ClientId} (uid : Uid)
    (asset : Option Asset) (other : clientId' ≠ clientId) :
    (assets.put clientId' uid asset).only clientId = assets.only clientId := by
  funext client uid'
  rw [Assets.only, Assets.only]
  split
  · next same => rw [Assets.put_other _ _ fun both ↦ other (both.1.symm.trans same)]
  · rfl

/-- The assets of a client decide about its requests. -/
theorem Assets.check_only (own : request.isOf clientId = true) :
    (assets.only clientId).check request = assets.check request := by
  cases request with
  | init => rfl
  | set | get | getInfo | remove =>
      obtain rfl := eq_of_beq own
      simp only [Assets.check, Assets.only_self]

theorem Assets.answer_only (own : request.isOf clientId = true) :
    (assets.only clientId).answer request = assets.answer request := by
  cases request with
  | init | set | remove => rfl
  | get | getInfo =>
      obtain rfl := eq_of_beq own
      simp only [Assets.answer, Assets.only_self]

theorem Assets.after_only (own : request.isOf clientId = true) (size : ℕ) :
    (assets.only clientId).after size request = (assets.after size request).only clientId := by
  cases request with
  | init | get | getInfo => rfl
  | set | remove =>
      obtain rfl := eq_of_beq own
      exact (Assets.only_put_self ..).symm

/-- A request leaves the assets of the other clients. -/
theorem Assets.after_only_other (other : request.isOf clientId = false) (size : ℕ) :
    (assets.after size request).only clientId = assets.only clientId := by
  cases request with
  | init => cases other
  | get | getInfo => rfl
  | set | remove => exact Assets.only_put_other _ _ _ (ne_of_beq_false other)

theorem Assets.Answers.only {result : Except Status Reply}
    (answers : assets.Answers request result assets') (own : request.isOf clientId = true) :
    (assets.only clientId).Answers request result (assets'.only clientId) := by
  cases answers with
  | served allowed =>
      rw [← Assets.answer_only own, ← Assets.after_only own]
      exact .served ((Assets.check_only own).trans allowed)
  | refused refused => exact .refused ((Assets.check_only own).trans refused)
  | noRoom allowed set status_eq =>
      exact .noRoom ((Assets.check_only own).trans allowed) set status_eq

theorem Assets.Cut.only {bufSize : ℕ} (cut : assets.Cut bufSize request assets')
    (own : request.isOf clientId = true) :
    (assets.only clientId).Cut bufSize request (assets'.only clientId) := by
  cases cut with
  | before => exact .before
  | behind some_chunk allowed =>
      rw [← Assets.after_only own]
      exact .behind some_chunk ((Assets.check_only own).trans allowed)

/-- A step of the client is one of its assets alone. -/
theorem Assets.Next.only {action : Action} (next : Assets.Next cfg (some assets) action state)
    (own : action.request.isOf clientId = true) : ∃ assets', state = some assets' ∧
      Assets.Next cfg (some (assets.only clientId)) action (some (assets'.only clientId)) := by
  cases next with
  | returned answers => exact ⟨_, rfl, .returned (answers.only own)⟩
  | lost cut => exact ⟨_, rfl, .lost (cut.only own)⟩

/-- A step of another client is none of its own. -/
theorem Assets.Next.only_other {action : Action} (next : Assets.Next cfg (some assets) action state)
    (other : action.request.isOf clientId = false) :
    ∃ assets', state = some assets' ∧ assets'.only clientId = assets.only clientId := by
  cases next with
  | returned answers =>
      cases answers with
      | served => exact ⟨_, rfl, Assets.after_only_other other _⟩
      | refused => exact ⟨_, rfl, rfl⟩
      | noRoom => exact ⟨_, rfl, rfl⟩
  | lost cut =>
      cases cut with
      | before => exact ⟨_, rfl, rfl⟩
      | behind => exact ⟨_, rfl, Assets.after_only_other other _⟩

/-- The other clients can be left out of a run. -/
theorem Assets.follows_only {actions : List Action}
    (follows : Follows (Assets.Next cfg) (some assets) actions state) (clientId : ClientId) :
    ∃ assets', state = some assets' ∧ Follows (Assets.Next cfg) (some (assets.only clientId))
      (actionsOf clientId actions) (some (assets'.only clientId)) := by
  induction actions generalizing assets with
  | nil =>
      cases follows
      exact ⟨assets, rfl, .nil _⟩
  | cons action actions ih =>
      cases follows with
      | cons first rest =>
          cases own : action.request.isOf clientId with
          | true =>
              obtain ⟨assets', rfl, first'⟩ := first.only own
              obtain ⟨assets'', rfl, rest'⟩ := ih rest
              rw [actionsOf_cons_own own]
              exact ⟨assets'', rfl, .cons first' rest'⟩
          | false =>
              obtain ⟨assets', rfl, same⟩ := first.only_other own
              obtain ⟨assets'', rfl, rest'⟩ := ih rest
              rw [actionsOf_cons_other own, ← same]
              exact ⟨assets'', rfl, rest'⟩

/-! ## Replies -/

/-- Two actions are the same request, which returns.  A set has the same result in both of them: it
may have been refused for want of room. -/
structure Action.Alike (action action' : Action) : Prop where
  /-- The request is the same. -/
  request_eq : action.request = action'.request
  /-- It returns. -/
  returned : ∃ result, action.outcome = .returned result
  /-- It returns in the other one. -/
  returned' : ∃ result, action'.outcome = .returned result
  /-- A set has the same result. -/
  set_eq : action.request.isSet = true → action.outcome = action'.outcome

/-- Apart from the room for an asset, the assets decide what a request returns. -/
theorem Assets.Answers.unique {result result' : Except Status Reply} {after after' : Assets}
    (answers : assets.Answers request result after)
    (answers' : assets.Answers request result' after')
    (set_eq : request.isSet = true → result = result') : result = result' ∧ after = after' := by
  cases answers with
  | served allowed =>
      cases answers' with
      | served => exact ⟨rfl, rfl⟩
      | refused refused =>
          rw [allowed] at refused
          cases refused
      | noRoom _ set => cases set_eq set
  | refused refused =>
      cases answers' with
      | served allowed =>
          rw [allowed] at refused
          cases refused
      | refused refused' =>
          rw [refused] at refused'
          cases refused'
          exact ⟨rfl, rfl⟩
      | noRoom allowed =>
          rw [allowed] at refused
          cases refused
  | noRoom allowed set =>
      cases answers' with
      | served => cases set_eq set
      | refused refused =>
          rw [allowed] at refused
          cases refused
      | noRoom => exact ⟨set_eq set, rfl⟩

theorem Assets.Next.unique {cfg' : ServiceConfig} {action action' : Action}
    {after after' : Option Assets}
    (next : Assets.Next cfg (some assets) action after)
    (next' : Assets.Next cfg' (some assets) action' after') (alike : action.Alike action') :
    action = action' ∧ after = after' := by
  obtain ⟨request, outcome⟩ := action
  obtain ⟨request', outcome'⟩ := action'
  obtain ⟨rfl, ⟨result, rfl⟩, ⟨result', rfl⟩, set_eq⟩ := alike
  cases next with
  | returned answers =>
      cases next' with
      | returned answers' =>
          obtain ⟨rfl, rfl⟩ := answers.unique answers' fun set ↦ Outcome.returned.inj (set_eq set)
          exact ⟨rfl, rfl⟩

theorem Assets.Next.exists_some {action : Action}
    (next : Assets.Next cfg (some assets) action state) : ∃ assets', state = some assets' := by
  cases next with
  | returned => exact ⟨_, rfl⟩
  | lost => exact ⟨_, rfl⟩

/-- Runs over the same assets are the same as long as their actions are alike. -/
theorem Assets.follows_unique {cfg' : ServiceConfig} {actions actions' : List Action}
    {after after' : Option Assets} (follows : Follows (Assets.Next cfg) (some assets) actions after)
    (follows' : Follows (Assets.Next cfg') (some assets) actions' after')
    (alike : List.Forall₂ Action.Alike actions actions') : actions = actions' ∧ after = after' := by
  induction alike generalizing assets with
  | nil =>
      cases follows
      cases follows'
      exact ⟨rfl, rfl⟩
  | cons head _ ih =>
      cases follows with
      | cons first rest =>
          cases follows' with
          | cons first' rest' =>
              obtain ⟨rfl, rfl⟩ := first.unique first' head
              obtain ⟨assets', rfl⟩ := first.exists_some
              obtain ⟨rfl, rfl⟩ := ih rest rest'
              exact ⟨rfl, rfl⟩

/-! ## Runs of the device -/

/-- Of any run, the requests of one client and its assets make a run of their own. -/
theorem exec_only {device : Device} {y : Session} {actions : List Action}
    (validated : itsFlashFsValidateConfig cfg.fs = true) (eraseVal_ne : cfg.fs.eraseVal ≠ 1)
    (some_file : 0 < cfg.fs.maxNumFiles) (has : device.HasAssets cfg (some assets))
    (exec_eq : Run.exec (Session.serve cfg) (.start device) actions = some y)
    (allowed : Allowed (Session.serve cfg) (fun x action ↦ action.request.Sound x) (.start device)
      actions) (clientId : ClientId) :
    ∃ assets', y.device.HasAssets cfg (some assets') ∧
      Follows (Assets.Next cfg) (some (assets.only clientId)) (actionsOf clientId actions)
        (some (assets'.only clientId)) := by
  obtain ⟨state', follows, has'⟩ := has.start.exec validated eraseVal_ne some_file exec_eq allowed
  obtain ⟨assets', rfl, alone⟩ := Assets.follows_only follows clientId
  exact ⟨assets', has'.device, alone⟩

/-- The power is lost while another client sets an asset. -/
theorem exec_only_small : ∃ x y : Session, ∃ assets' : Assets,
    Run.exec (Session.serve smallService) (.start x.device)
        [⟨.init false, .returned (.ok .done)⟩, ⟨setSix 1 0, .returned (.ok .done)⟩,
          ⟨setSix 2 0, .lost 9⟩] = some y ∧
      y.device.HasAssets smallService (some assets') ∧
      Follows (Assets.Next smallService) (some (Assets.only (fun _ _ ↦ none) 1))
        [⟨.init false, .returned (.ok .done)⟩, ⟨setSix 1 0, .returned (.ok .done)⟩]
        (some (assets'.only 1)) := by
  obtain ⟨x, first, has⟩ := exists_initialised
  obtain ⟨y, exec_eq, allowed⟩ := exists_laterRun first
    [⟨.init false, .returned (.ok .done)⟩, ⟨setSix 1 0, .returned (.ok .done)⟩,
      ⟨setSix 2 0, .lost 9⟩] (by decide +kernel)
  obtain ⟨assets', has', alone⟩ := exec_only smallService_validated (by decide) (by decide) has
    exec_eq allowed 1
  exact ⟨x, y, assets', exec_eq, has', alone⟩

/-- A client cannot tell what the other clients do, nor what flash there is: if it has the same
assets on two devices and makes the same requests, it gets the same replies, as long as its assets
find room on both or on neither. -/
theorem same_replies (clientId : ClientId) {cfg' : ServiceConfig} {device other : Device}
    {y y' : Session} {actions otherActions : List Action} {otherAssets : Assets}
    (validated : itsFlashFsValidateConfig cfg.fs = true)
    (validated' : itsFlashFsValidateConfig cfg'.fs = true)
    (eraseVal_ne : cfg.fs.eraseVal ≠ 1) (eraseVal_ne' : cfg'.fs.eraseVal ≠ 1)
    (some_file : 0 < cfg.fs.maxNumFiles) (some_file' : 0 < cfg'.fs.maxNumFiles)
    (has : device.HasAssets cfg (some assets)) (has' : other.HasAssets cfg' (some otherAssets))
    (same : assets.only clientId = otherAssets.only clientId)
    (exec_eq : Run.exec (Session.serve cfg) (.start device) actions = some y)
    (allowed : Allowed (Session.serve cfg) (fun x action ↦ action.request.Sound x) (.start device)
      actions)
    (exec_eq' : Run.exec (Session.serve cfg') (.start other) otherActions = some y')
    (allowed' : Allowed (Session.serve cfg') (fun x action ↦ action.request.Sound x) (.start other)
      otherActions)
    (alike : List.Forall₂ Action.Alike (actionsOf clientId actions)
      (actionsOf clientId otherActions)) :
    actionsOf clientId actions = actionsOf clientId otherActions ∧
      ∃ assets' otherAssets', y.device.HasAssets cfg (some assets') ∧
        y'.device.HasAssets cfg' (some otherAssets') ∧
        assets'.only clientId = otherAssets'.only clientId := by
  obtain ⟨assets', has₁, alone⟩ :=
    exec_only validated eraseVal_ne some_file has exec_eq allowed clientId
  obtain ⟨otherAssets', has₂, alone'⟩ :=
    exec_only validated' eraseVal_ne' some_file' has' exec_eq' allowed' clientId
  rw [same] at alone
  obtain ⟨actions_eq, after_eq⟩ := Assets.follows_unique alone alone' alike
  exact ⟨actions_eq, assets', otherAssets', has₁, has₂, Option.some.inj after_eq⟩

/-- A client reads its asset with and without another client. -/
theorem same_replies_small : ∃ x y y' : Session,
    Run.exec (Session.serve smallService) (.start x.device)
        [⟨.init false, .returned (.ok .done)⟩, ⟨setSix 1 0, .returned (.ok .done)⟩,
          ⟨setSix 2 0, .returned (.ok .done)⟩,
          ⟨.get 1 7 2 3, .returned (.ok (.data [12, 13, 14]))⟩] = some y ∧
      Run.exec (Session.serve smallService) (.start x.device)
        [⟨.init false, .returned (.ok .done)⟩, ⟨setSix 1 0, .returned (.ok .done)⟩,
          ⟨.get 1 7 2 3, .returned (.ok (.data [12, 13, 14]))⟩] = some y' ∧
      ∃ assets' otherAssets', y.device.HasAssets smallService (some assets') ∧
        y'.device.HasAssets smallService (some otherAssets') ∧
        assets'.only 1 = otherAssets'.only 1 := by
  obtain ⟨x, first, has⟩ := exists_initialised
  obtain ⟨y, exec_eq, allowed⟩ := exists_laterRun first
    [⟨.init false, .returned (.ok .done)⟩, ⟨setSix 1 0, .returned (.ok .done)⟩,
      ⟨setSix 2 0, .returned (.ok .done)⟩, ⟨.get 1 7 2 3, .returned (.ok (.data [12, 13, 14]))⟩]
    (by decide +kernel)
  obtain ⟨y', exec_eq', allowed'⟩ := exists_laterRun first
    [⟨.init false, .returned (.ok .done)⟩, ⟨setSix 1 0, .returned (.ok .done)⟩,
      ⟨.get 1 7 2 3, .returned (.ok (.data [12, 13, 14]))⟩] (by decide +kernel)
  have alike : List.Forall₂ Action.Alike
      [⟨.init false, .returned (.ok .done)⟩, ⟨setSix 1 0, .returned (.ok .done)⟩,
        ⟨.get 1 7 2 3, .returned (.ok (.data [12, 13, 14]))⟩]
      [⟨.init false, .returned (.ok .done)⟩, ⟨setSix 1 0, .returned (.ok .done)⟩,
        ⟨.get 1 7 2 3, .returned (.ok (.data [12, 13, 14]))⟩] :=
    .cons ⟨rfl, ⟨_, rfl⟩, ⟨_, rfl⟩, fun _ ↦ rfl⟩ (.cons ⟨rfl, ⟨_, rfl⟩, ⟨_, rfl⟩, fun _ ↦ rfl⟩
      (.cons ⟨rfl, ⟨_, rfl⟩, ⟨_, rfl⟩, fun _ ↦ rfl⟩ .nil))
  exact ⟨x, y, y', exec_eq, exec_eq',
    (same_replies 1 smallService_validated smallService_validated (by decide) (by decide)
      (by decide) (by decide) has has rfl exec_eq allowed exec_eq' allowed' alike).2⟩

end TrustedFirmwareM.Its
