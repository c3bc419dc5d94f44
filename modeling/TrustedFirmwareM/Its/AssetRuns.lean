import TrustedFirmwareM.Its.Assets

/-!
# Runs of the service

Requests come in any order and from any client, and the power may be lost in the middle of each.
The assets go along with the device, as long as the service is initialised again after it has
refused to replace an asset and before the next asset is changed.  So an asset stays as it is until
its client has it changed, and for good if it is written once.
-/

namespace TrustedFirmwareM.Its

open Run

variable {cfg : ServiceConfig} {files : Files cfg.fs} {ctx : Ctx} {f g : Flash} {W : ℕ → ℕ → Prop}

/-! ## Initialisation -/

theorem runs_initCtx (validated : itsFlashFsValidateConfig cfg.fs = true) :
    Runs cfg.fs W (itsFlashFsInitCtx cfg.fs) ctx f (.ok ()) .zero f :=
  (runs_ensure validated).bind (runs_modifyCtx fun _ ↦ .zero)

/-- The service starts with the files that it has had. -/
theorem Holds.init (holds : Holds cfg.fs files g)
    (validated : itsFlashFsValidateConfig cfg.fs = true)
    (eraseVal_ne : cfg.fs.eraseVal ≠ 1) (createFlashLayout : Bool) (ctx : Ctx) :
    ∃ ctx' f', Passes cfg.fs (Holds cfg.fs files)
      (tfmItsInit cfg createFlashLayout) ctx g (.ok ()) ctx'
        f' ∧ Mounted cfg.fs files ctx' f' := by
  obtain ⟨ctx', f', prepare, mounted⟩ := holds.prepare eraseVal_ne .zero
  refine ⟨ctx', f', ((runs_initCtx validated).passes_silent holds).bind
    (prepare.result.bind ?_), mounted⟩
  exact (runs_pure ()).passes_silent mounted.holds

theorem Refused.init (refused : Refused cfg.fs g)
    (validated : itsFlashFsValidateConfig cfg.fs = true) (ctx : Ctx) :
    Runs cfg.fs W (tfmItsInit cfg false) ctx g (.error .genericError) .zero g :=
  (runs_initCtx validated).bind ((refused.prepare .zero).result.bind (runs_throw .genericError))

/-- The service makes a file system of its own. -/
theorem Refused.create (refused : Refused cfg.fs g)
    (validated : itsFlashFsValidateConfig cfg.fs = true) (eraseVal_ne : cfg.fs.eraseVal ≠ 1)
    (some_file : 0 < cfg.fs.maxNumFiles) (ctx : Ctx) :
    ∃ ctx' f', Passes cfg.fs (fun h ↦ Refused cfg.fs h ∨ Holds cfg.fs (fun _ ↦ none) h)
        (tfmItsInit cfg true) ctx g (.ok ()) ctx' f' ∧ Mounted cfg.fs (fun _ ↦ none) ctx' f' := by
  obtain ⟨ctx₁, f₁, wipe, empty⟩ :=
    refused.wipeAll (validConfig_of_validate validated) some_file .zero
  obtain ⟨ctx₂, f₂, prepare, mounted⟩ := empty.prepare eraseVal_ne ctx₁
  refine ⟨ctx₂, f₂, ?_, mounted⟩
  have first : Passes cfg.fs (fun h ↦ Refused cfg.fs h ∨ Holds cfg.fs (fun _ ↦ none) h)
      (itsFlashFsPrepare cfg.fs).result .zero g (.ok (.error .genericError)) .zero g :=
    (refused.prepare .zero).result.passes_silent (.inl refused)
  exact ((runs_initCtx validated).passes_silent (.inl refused)).bind
    (first.bind (wipe.bind (prepare.mono fun _ ↦ .inr)))

/-! ## Steps -/

/-- What becomes of a request. -/
inductive Outcome
  /-- It returns. -/
  | returned (result : Except Status Reply)
  /-- The power is lost after a number of operations. -/
  | lost (operations : ℕ)

/-- A request, and what becomes of it. -/
structure Action where
  /-- The request. -/
  request : Request
  /-- What becomes of it. -/
  outcome : Outcome

/-- The service has to be initialised for the request. -/
def Request.needsMount : Request → Bool
  | .init _ => false
  | .set .. | .get .. | .getInfo .. | .remove .. => true

/-- Whether the file system is mounted after a request that has returned. -/
def Request.mounts : Request → Except Status Reply → Bool
  | .init _, result => result.isOk
  | .set .., _ | .get .., _ | .getInfo .., _ | .remove .., _ => true

variable (cfg) in
/-- What a request does to the device, if that becomes of it. -/
def Device.serve (device : Device) (action : Action) : Option Device :=
  match action.outcome with
  | .returned expected => device.run cfg.fs action.request.needsMount
      (fun result ↦ if result = expected then some (action.request.mounts result) else none)
      (action.request.program cfg) none
  | .lost operations => device.run cfg.fs action.request.needsMount (fun _ ↦ none)
      (action.request.program cfg) (some operations)

variable (cfg) in
/-- The assets in the flash of a device that is initialised. -/
def Device.assets (device : Device) : Assets := (device.files cfg.fs).assets

instance (assets : Assets) (request : Request) (result : Except Status Reply) :
    Decidable (assets.Overflows request result) :=
  match request with
  | .set _ clientId uid dataLength createFlags input => inferInstanceAs (Decidable
      (assets clientId uid ≠ none ∧ assets.check
        (.set _ clientId uid dataLength createFlags input) = .ok () ∧ result.isOk = false))
  | .init _ | .get .. | .getInfo .. | .remove .. => inferInstanceAs (Decidable False)

variable (cfg) in
/-- An asset is not replaced although this is permitted.  Its file has been marked in the scratch
metadata block then. -/
def Device.overflows (device : Device) (action : Action) : Bool :=
  match action.outcome with
  | .returned result => decide ((device.assets cfg).Overflows action.request result)
  | .lost _ => false

variable (cfg) in
/-- What a request does to a session, if that becomes of it. -/
def Session.serve (x : Session) (action : Action) : Option Session :=
  (x.device.serve cfg action).map fun device ↦
    { device
      refused := action.request.needsMount && (x.refused || x.device.overflows cfg action) }

/-- What the callers of the service see to: numbers have 32 bits, and assets are changed only if no
replacement has been refused since the service was initialised. -/
def Request.Sound (x : Session) (request : Request) : Prop :=
  match request with
  | .set _ _ _ dataLength createFlags _ =>
      dataLength < 2 ^ 32 ∧ createFlags < 2 ^ 32 ∧ x.refused = false
  | .remove .. => x.refused = false
  | .init _ | .get .. | .getInfo .. => True

variable (cfg) in
/-- What may happen to the assets.  There are none while the service cannot be initialised. -/
inductive Assets.Next : Option Assets → Action → Option Assets → Prop
  /-- A request returns. -/
  | returned {assets assets' : Assets} {request : Request} {result : Except Status Reply}
      (answers : assets.Answers request result assets') :
      Next (some assets) ⟨request, .returned result⟩ (some assets')
  /-- A request is cut off. -/
  | lost {assets assets' : Assets} {request : Request} {operations : ℕ}
      (cut : assets.Cut cfg.bufSize request assets') :
      Next (some assets) ⟨request, .lost operations⟩ (some assets')
  /-- The service cannot be initialised. -/
  | refused : Next none ⟨.init false, .returned (.error .genericError)⟩ none
  /-- The service is initialised for the first time. -/
  | created : Next none ⟨.init true, .returned (.ok .done)⟩ (some fun _ _ ↦ none)
  /-- It is not. -/
  | refusedLost {createFlashLayout : Bool} {operations : ℕ} :
      Next none ⟨.init createFlashLayout, .lost operations⟩ none
  /-- It is, but it does not return. -/
  | createdLost {operations : ℕ} :
      Next none ⟨.init true, .lost operations⟩ (some fun _ _ ↦ none)

variable (cfg) in
/-- The device has assets. -/
def Device.HasAssets (device : Device) : Option Assets → Prop
  | none => device.mounted = false ∧ Refused cfg.fs device.flash
  | some assets => ∃ files : Files cfg.fs, device.Has (some files) ∧ files.assets = assets

variable (cfg) in
/-- The device has assets.  Its scratch blocks are erased if no replacement has been refused since
the service was initialised. -/
structure Session.HasAssets (x : Session) (state : Option Assets) : Prop where
  /-- The device has assets. -/
  device : x.device.HasAssets cfg state
  /-- The scratch blocks are erased. -/
  ready : x.refused = false → x.device.mounted = true → x.device.Ready cfg.fs

variable {device device' : Device} {x y : Session} {refused : Bool} {state : Option Assets}
  {assets : Assets}

theorem Device.HasAssets.start (has : device.HasAssets cfg state) :
    (Session.start device).HasAssets cfg state :=
  ⟨has, fun known ↦ (Bool.false_ne_true known.symm).elim⟩

theorem Session.Has.hasAssets (has : x.Has (some files)) : x.HasAssets cfg (some files.assets) :=
  ⟨⟨files, has.device, rfl⟩, has.ready⟩

theorem Session.hasAssets_of_holds (unmounted : device.mounted = false)
    (holds : Holds cfg.fs files device.flash) :
    (Session.mk device refused).HasAssets cfg (some files.assets) :=
  (Session.has_of_unmounted unmounted (Device.has_of_unmounted unmounted holds)).hasAssets

theorem Session.hasAssets_of_refused (unmounted : device.mounted = false)
    (none_held : Refused cfg.fs device.flash) :
    (Session.mk device refused).HasAssets cfg none :=
  ⟨⟨unmounted, none_held⟩, fun _ mounted ↦ (Bool.false_ne_true (unmounted.symm.trans mounted)).elim⟩

/-- What becomes of a request that is known to return. -/
theorem Device.serve_cases {request : Request} {outcome : Outcome} {C : Flash → Prop}
    {result : Except Status Reply} {ctx' : Ctx} {f' : Flash}
    (step_eq : device.serve cfg ⟨request, outcome⟩ = some device')
    (pass : Passes cfg.fs C (request.program cfg) device.ctx device.flash result ctx' f') :
    (outcome = .returned result ∧ device' = ⟨ctx', request.mounts result, f'⟩) ∨
      ∃ operations, outcome = .lost operations ∧ device'.mounted = false ∧ C device'.flash := by
  cases outcome with
  | returned expected =>
      rw [Device.serve] at step_eq
      rcases Device.run_passes step_eq pass with ⟨-, flag, flag_eq, rfl⟩ | ⟨n, impossible, -⟩
      · split at flag_eq
        · next same =>
            cases flag_eq
            exact .inl ⟨congrArg Outcome.returned same.symm, rfl⟩
        · cases flag_eq
      · cases impossible
  | lost operations =>
      rw [Device.serve] at step_eq
      rcases Device.run_passes step_eq pass with ⟨impossible, -⟩ | ⟨n, -, unmounted, cut⟩
      · cases impossible
      · exact .inr ⟨operations, rfl, unmounted, cut⟩

theorem Request.mounts_of_needsMount {request : Request} (needs : request.needsMount = true)
    (result : Except Status Reply) : request.mounts result = true := by
  cases request with
  | init createFlashLayout => cases needs
  | set | get | getInfo | remove => rfl

/-- The step of a request that is served. -/
theorem Session.Has.step_serves (has : x.Has (some files)) (mounted : x.device.mounted = true)
    {request : Request} (serves : Serves cfg files request x.device.ctx x.device.flash)
    (needs : request.needsMount = true) {outcome : Outcome}
    (step_eq : x.device.serve cfg ⟨request, outcome⟩ = some device') :
    ∃ state', Assets.Next cfg (some files.assets) ⟨request, outcome⟩ state' ∧
      (Session.mk device' (x.refused || x.device.overflows cfg ⟨request, outcome⟩)).HasAssets cfg
        state' := by
  have mounts := Request.mounts_of_needsMount needs
  obtain ⟨result, ctx', f', files', pass, answers, has', kept⟩ := serves
  rcases Device.serve_cases step_eq pass with ⟨rfl, rfl⟩ | ⟨n, rfl, unmounted, files'', holds, cut⟩
  · rw [mounts]
    refine ⟨_, .returned answers, ⟨files', has', rfl⟩, fun settled _ ↦ ?_⟩
    obtain ⟨settled, fitting⟩ := Bool.or_eq_false_iff.1 settled
    have inside := has.mounted mounted settled
    have assets_eq : x.device.assets cfg = files.assets := congrArg Files.assets inside.files_eq
    rw [Device.overflows, assets_eq] at fitting
    exact kept inside.ready (of_decide_eq_false fitting)
  · exact ⟨_, .lost cut, Session.hasAssets_of_holds unmounted holds⟩

/-- The service starts again. -/
theorem Device.Has.passes_init (has : device.Has (some files))
    (validated : itsFlashFsValidateConfig cfg.fs = true) (eraseVal_ne : cfg.fs.eraseVal ≠ 1)
    (createFlashLayout : Bool) :
    ∃ ctx' f', Passes cfg.fs (Holds cfg.fs files) ((Request.init createFlashLayout).program cfg)
        device.ctx device.flash (.ok .done) ctx' f' ∧ Mounted cfg.fs files ctx' f' := by
  obtain ⟨ctx', f', init, mounted⟩ :=
    has.holds.init validated eraseVal_ne createFlashLayout device.ctx
  exact ⟨ctx', f', init.bind ((runs_pure Reply.done).passes_silent init.behind), mounted⟩

theorem Device.Has.step_init (has : device.Has (some files))
    (validated : itsFlashFsValidateConfig cfg.fs = true) (eraseVal_ne : cfg.fs.eraseVal ≠ 1)
    {createFlashLayout : Bool} {outcome : Outcome}
    (step_eq : device.serve cfg ⟨.init createFlashLayout, outcome⟩ = some device') :
    ∃ state', Assets.Next cfg (some files.assets) ⟨.init createFlashLayout, outcome⟩ state' ∧
      (Session.mk device' refused).HasAssets cfg state' := by
  obtain ⟨ctx', f', pass, mounted⟩ := has.passes_init validated eraseVal_ne createFlashLayout
  rcases Device.serve_cases step_eq pass with ⟨rfl, rfl⟩ | ⟨n, rfl, unmounted, holds⟩
  · exact ⟨_, .returned (.served rfl), mounted.session.hasAssets⟩
  · exact ⟨_, .lost .before, Session.hasAssets_of_holds unmounted holds⟩

/-- A service that does not create a file system cannot be initialised. -/
theorem Refused.step_init (none_held : Refused cfg.fs device.flash)
    (validated : itsFlashFsValidateConfig cfg.fs = true) {outcome : Outcome}
    (step_eq : device.serve cfg ⟨.init false, outcome⟩ = some device') :
    ∃ state', Assets.Next cfg none ⟨.init false, outcome⟩ state' ∧
      (Session.mk device' refused).HasAssets cfg state' := by
  have init := none_held.init (W := fun _ _ ↦ False) validated device.ctx
  have pass : Passes cfg.fs (Refused cfg.fs)
      ((Request.init false).program cfg) device.ctx device.flash
      (.error .genericError) .zero device.flash := init.bind_error.passes_silent none_held
  rcases Device.serve_cases step_eq pass with ⟨rfl, rfl⟩ | ⟨n, rfl, unmounted, still⟩
  · exact ⟨none, .refused, Session.hasAssets_of_refused rfl none_held⟩
  · exact ⟨none, .refusedLost, Session.hasAssets_of_refused unmounted still⟩

theorem Files.assets_empty : Files.assets (fun _ ↦ none : Files cfg.fs) = fun _ _ ↦ none := by
  funext clientId uid
  rw [Files.assets, Option.map_none, ite_self]

/-- The service is initialised for the first time. -/
theorem Refused.step_create (none_held : Refused cfg.fs device.flash)
    (validated : itsFlashFsValidateConfig cfg.fs = true) (eraseVal_ne : cfg.fs.eraseVal ≠ 1)
    (some_file : 0 < cfg.fs.maxNumFiles) {outcome : Outcome}
    (step_eq : device.serve cfg ⟨.init true, outcome⟩ = some device') :
    ∃ state', Assets.Next cfg none ⟨.init true, outcome⟩ state' ∧
      (Session.mk device' refused).HasAssets cfg state' := by
  obtain ⟨ctx', f', create, mounted⟩ :=
    none_held.create validated eraseVal_ne some_file device.ctx
  have pass : Passes cfg.fs (fun h ↦ Refused cfg.fs h ∨ Holds cfg.fs (fun _ ↦ none) h)
      ((Request.init true).program cfg) device.ctx device.flash (.ok .done) ctx' f' :=
    create.bind ((runs_pure Reply.done).passes_silent create.behind)
  rcases Device.serve_cases step_eq pass with ⟨rfl, rfl⟩ | ⟨n, rfl, unmounted, still | behind⟩
  · exact ⟨_, .created, Files.assets_empty ▸ mounted.session.hasAssets⟩
  · exact ⟨none, .refusedLost, Session.hasAssets_of_refused unmounted still⟩
  · exact ⟨_, .createdLost,
      Files.assets_empty ▸ Session.hasAssets_of_holds unmounted behind⟩

/-- Every request but the first one is served as the assets say. -/
theorem Session.Has.serves (has : x.Has (some files)) (mounted : x.device.mounted = true)
    {request : Request} (sound : request.Sound x) (needs : request.needsMount = true) :
    Serves cfg files request x.device.ctx x.device.flash := by
  have here := has.device
  rw [Device.Has, if_pos mounted] at here
  obtain ⟨f, inside, remains⟩ := here
  cases request with
  | init createFlashLayout => cases needs
  | set statics clientId uid dataLength createFlags input =>
      obtain ⟨length_lt, flags_lt, settled⟩ := sound
      exact (has.mounted mounted settled).serves_set statics clientId uid length_lt flags_lt input
  | get clientId uid dataOffset dataSize =>
      exact inside.serves_get remains clientId uid dataOffset dataSize
  | getInfo clientId uid => exact inside.serves_getInfo remains clientId uid
  | remove clientId uid => exact (has.mounted mounted sound).serves_remove clientId uid

/-- A step of the device is a step of the assets. -/
theorem Session.HasAssets.step (has : x.HasAssets cfg state)
    (validated : itsFlashFsValidateConfig cfg.fs = true) (eraseVal_ne : cfg.fs.eraseVal ≠ 1)
    (some_file : 0 < cfg.fs.maxNumFiles) {action : Action} (sound : action.request.Sound x)
    (step_eq : x.serve cfg action = some y) :
    ∃ state', Assets.Next cfg state action state' ∧ y.HasAssets cfg state' := by
  obtain ⟨device', device_eq, rfl⟩ := Option.map_eq_some_iff.1 step_eq
  obtain ⟨request, outcome⟩ := action
  have usable : request.needsMount = true → x.device.mounted = true := by
    cases outcome with
    | returned expected | lost operations =>
        rw [Device.serve] at device_eq
        exact Device.run_mounted device_eq
  cases needs : request.needsMount with
  | true =>
      have mounted := usable needs
      cases state with
      | none => exact (Bool.false_ne_true (has.device.1.symm.trans mounted)).elim
      | some assets =>
          obtain ⟨⟨files, here, rfl⟩, ready⟩ := has
          have has : x.Has (some files) := ⟨here, ready⟩
          exact has.step_serves mounted (has.serves mounted sound needs) needs device_eq
  | false =>
      cases request with
      | set | get | getInfo | remove => cases needs
      | init createFlashLayout =>
          cases state with
          | some assets =>
              obtain ⟨⟨files, here, rfl⟩, -⟩ := has
              exact here.step_init validated eraseVal_ne device_eq
          | none =>
              cases createFlashLayout with
              | true => exact has.device.2.step_create validated eraseVal_ne some_file device_eq
              | false => exact has.device.2.step_init validated device_eq

/-! ## Runs -/

/-- Whatever the requests are and wherever the power is lost, the assets go with the device. -/
theorem Session.HasAssets.exec (has : x.HasAssets cfg state)
    (validated : itsFlashFsValidateConfig cfg.fs = true) (eraseVal_ne : cfg.fs.eraseVal ≠ 1)
    (some_file : 0 < cfg.fs.maxNumFiles) {actions : List Action}
    (exec_eq : Run.exec (Session.serve cfg) x actions = some y)
    (allowed : Allowed (Session.serve cfg) (fun x action ↦ action.request.Sound x) x actions) :
    ∃ state', Follows (Assets.Next cfg) state actions state' ∧ y.HasAssets cfg state' :=
  exec_follows
    (fun _ _ _ _ has sound step_eq ↦
      has.step validated eraseVal_ne some_file sound step_eq) has exec_eq allowed

/-! ## What becomes of an asset -/

section

variable {clientId : ClientId} {uid : Uid} {request : Request}

/-- The request changes an asset. -/
def Request.Changes (clientId : ClientId) (uid : Uid) : Request → Prop
  | .set _ clientId' uid' _ _ _ | .remove clientId' uid' => clientId' = clientId ∧ uid' = uid
  | .init _ | .get .. | .getInfo .. => False

theorem Assets.after_other (other : ¬request.Changes clientId uid) (size : ℕ) :
    assets.after size request clientId uid = assets clientId uid := by
  cases request with
  | init | get | getInfo => rfl
  | set statics clientId' uid' dataLength createFlags input =>
      exact assets.put_other _ fun same ↦ other ⟨same.1.symm, same.2.symm⟩
  | remove clientId' uid' => exact assets.put_other _ fun same ↦ other ⟨same.1.symm, same.2.symm⟩

/-- An asset that is written once is not changed. -/
theorem Assets.not_changes_of_writeOnce {asset : Asset} (found : assets clientId uid = some asset)
    (once : asset.isWriteOnce = true) (allowed : assets.check request = .ok ()) :
    ¬request.Changes clientId uid := by
  intro changes
  cases request with
  | init | get | getInfo => exact changes
  | set statics clientId' uid' dataLength createFlags input =>
      obtain ⟨rfl, rfl⟩ := changes
      rw [Assets.check, found] at allowed
      dsimp only at allowed
      rw [if_pos once] at allowed
      split at allowed
      · cases allowed
      · split at allowed
        · cases allowed
        · cases allowed
  | remove clientId' uid' =>
      obtain ⟨rfl, rfl⟩ := changes
      rw [Assets.check, found] at allowed
      dsimp only at allowed
      rw [if_pos once] at allowed
      split at allowed
      · cases allowed
      · cases allowed

/-- What keeps an asset as it is. -/
def Request.Spares (clientId : ClientId) (uid : Uid) (asset : Option Asset)
    (request : Request) : Prop :=
  ¬request.Changes clientId uid ∨ asset.any Asset.isWriteOnce = true

theorem Assets.after_spared (spares : request.Spares clientId uid (assets clientId uid))
    (allowed : assets.check request = .ok ()) (size : ℕ) :
    assets.after size request clientId uid = assets clientId uid := by
  rcases spares with other | once
  · exact Assets.after_other other size
  · obtain ⟨asset, found, locked⟩ := (Option.any_eq_true ..).1 once
    exact Assets.after_other (Assets.not_changes_of_writeOnce found locked allowed) size

/-- A step keeps the assets that it spares. -/
theorem Assets.Next.spared {action : Action} (next : Assets.Next cfg (some assets) action state)
    (spares : action.request.Spares clientId uid (assets clientId uid)) :
    ∃ assets', state = some assets' ∧ assets' clientId uid = assets clientId uid := by
  cases next with
  | returned answers =>
      cases answers with
      | served allowed => exact ⟨_, rfl, Assets.after_spared spares allowed _⟩
      | refused => exact ⟨assets, rfl, rfl⟩
      | noRoom => exact ⟨assets, rfl, rfl⟩
  | lost cut =>
      cases cut with
      | before => exact ⟨assets, rfl, rfl⟩
      | behind some_chunk allowed => exact ⟨_, rfl, Assets.after_spared spares allowed _⟩

/-- So does a run. -/
theorem Assets.follows_spared {actions : List Action}
    (follows : Follows (Assets.Next cfg) (some assets) actions state)
    (spares : ∀ action ∈ actions, action.request.Spares clientId uid (assets clientId uid)) :
    ∃ assets', state = some assets' ∧ assets' clientId uid = assets clientId uid := by
  refine follows.invariant (I := fun state ↦ ∃ assets' : Assets, state = some assets' ∧
    assets' clientId uid = assets clientId uid) ⟨assets, rfl, rfl⟩ ?_
  rintro before action member after ⟨assets', rfl, same⟩ next
  have spared := spares action member
  rw [← same] at spared
  obtain ⟨assets'', rfl, same'⟩ := next.spared spared
  exact ⟨assets'', rfl, same'.trans same⟩

/-- What a client reads. -/
def readOf (asset : Option Asset) (dataOffset dataSize : ℕ) : Except Status Reply :=
  match asset with
  | none => .error .doesNotExist
  | some asset =>
      if dataOffset ≤ asset.data.length then
        .ok (.data ((asset.data.drop dataOffset).take dataSize))
      else .error .invalidArgument

theorem Assets.Answers.get_eq {dataOffset dataSize : ℕ} {result : Except Status Reply}
    {assets' : Assets} (valid : uid ≠ tfmItsInvalidUid)
    (answers : assets.Answers (.get clientId uid dataOffset dataSize) result assets') :
    result = readOf (assets clientId uid) dataOffset dataSize := by
  have check : assets.check (.get clientId uid dataOffset dataSize) = _ := if_neg valid
  rw [readOf.eq_def]
  cases found : assets clientId uid with
  | none =>
      rw [found] at check
      cases answers with
      | served allowed =>
          rw [check] at allowed
          cases allowed
      | refused refused =>
          rw [check] at refused
          cases refused
          rfl
      | noRoom allowed set => cases set
  | some asset =>
      rw [found] at check
      dsimp only at check ⊢
      by_cases inside : dataOffset ≤ asset.data.length
      · rw [if_pos inside] at check ⊢
        cases answers with
        | served allowed => rw [Assets.answer, found]
        | refused refused =>
            rw [check] at refused
            cases refused
        | noRoom allowed set => cases set
      · rw [if_neg inside] at check ⊢
        cases answers with
        | served allowed =>
            rw [check] at allowed
            cases allowed
        | refused refused =>
            rw [check] at refused
            cases refused
            rfl
        | noRoom allowed set => cases set

end

/-! ## A small service -/

instance (x : Session) (request : Request) : Decidable (request.Sound x) :=
  match request with
  | .set _ _ _ dataLength createFlags _ => inferInstanceAs (Decidable (dataLength < 2 ^ 32 ∧
      createFlags < 2 ^ 32 ∧ x.refused = false))
  | .remove .. => inferInstanceAs (Decidable (x.refused = false))
  | .init _ | .get .. | .getInfo .. => inferInstanceAs (Decidable True)

/-- A service with a buffer of four bytes. -/
def smallService : ServiceConfig where
  fs := smallFlash
  bufSize := 4
  bufSize_pos := by decide
  aligned := by decide
  bufSize_le := by decide

/-- The device sets an asset of six bytes. -/
def setSix (clientId : ClientId) (createFlags : ℕ) : Request :=
  .set ⟨smallFile, fun _ ↦ 0⟩ clientId 7 6 createFlags fun i ↦ UInt8.ofNat (10 + i)

theorem newDevice_hasAssets : newDevice.HasAssets smallService none :=
  ⟨rfl, refused_of_erased fun _ _ _ _ ↦ rfl⟩

theorem smallService_validated : itsFlashFsValidateConfig smallService.fs = true := by decide

/-- A run of the new device whose callers see to what they should. -/
theorem exists_smallRun (actions : List Action)
    (returns : (Run.exec (Session.serve smallService) (.start newDevice) actions).isSome = true)
    (test : allowedBy (Session.serve smallService)
      (fun x action ↦ decide (action.request.Sound x)) (.start newDevice) actions = true) :
    ∃ y, Run.exec (Session.serve smallService) (.start newDevice) actions = some y ∧
      Allowed (Session.serve smallService) (fun x action ↦ action.request.Sound x)
        (.start newDevice) actions := by
  obtain ⟨y, exec_eq⟩ := Option.isSome_iff_exists.1 returns
  exact ⟨y, exec_eq, allowed_of_decide test⟩

/-- The new device is initialised. -/
def firstInit : Action := ⟨.init true, .returned (.ok .done)⟩

/-- The device has no assets then. -/
theorem exists_initialised : ∃ x : Session,
    Run.exec (Session.serve smallService) (.start newDevice) [firstInit] = some x ∧
      x.device.HasAssets smallService (some fun _ _ ↦ none) := by
  obtain ⟨x, exec_eq, allowed⟩ :=
    exists_smallRun [firstInit] (by decide +kernel) (by decide +kernel)
  obtain ⟨state', follows, has⟩ := newDevice_hasAssets.start.exec smallService_validated (by decide)
    (by decide) exec_eq allowed
  cases follows with
  | cons first rest =>
      cases rest
      cases first with
      | created => exact ⟨x, exec_eq, has.device⟩

/-- A later run, of whose device nothing is known but its assets. -/
theorem exists_laterRun {x : Session} {earlier : List Action}
    (exec_eq : Run.exec (Session.serve smallService) (.start newDevice) earlier = some x)
    (actions : List Action)
    (test : ((Run.exec (Session.serve smallService) (.start newDevice) earlier).all fun x ↦
      (Run.exec (Session.serve smallService) (.start x.device) actions).isSome &&
        allowedBy (Session.serve smallService) (fun x action ↦ decide (action.request.Sound x))
          (.start x.device) actions) = true) :
    ∃ y, Run.exec (Session.serve smallService) (.start x.device) actions = some y ∧
      Allowed (Session.serve smallService) (fun x action ↦ action.request.Sound x)
        (.start x.device) actions := by
  obtain ⟨returns, sound⟩ := Bool.and_eq_true_iff.1 ((Option.all_eq_true ..).1 test x exec_eq)
  obtain ⟨y, exec_eq'⟩ := Option.isSome_iff_exists.1 returns
  exact ⟨y, exec_eq', allowed_of_decide sound⟩

/-! ## What a client sees -/

section

variable {clientId : ClientId} {uid : Uid} {dataOffset dataSize : ℕ} {result : Except Status Reply}
  {earlier actions : List Action} (validated : itsFlashFsValidateConfig cfg.fs = true)
  (eraseVal_ne : cfg.fs.eraseVal ≠ 1) (some_file : 0 < cfg.fs.maxNumFiles)

include validated eraseVal_ne some_file

omit validated eraseVal_ne some_file in
/-- A client reads the asset as it is, whatever happens in between, unless it has changed it. -/
theorem Assets.get_spared (follows : Follows (Assets.Next cfg) (some assets)
      (actions ++ [⟨.get clientId uid dataOffset dataSize, .returned result⟩]) state)
    (valid : uid ≠ tfmItsInvalidUid)
    (spares : ∀ action ∈ actions, action.request.Spares clientId uid (assets clientId uid)) :
    result = readOf (assets clientId uid) dataOffset dataSize := by
  obtain ⟨before, first, last⟩ := follows.append_inv
  obtain ⟨assets', rfl, same⟩ := Assets.follows_spared first spares
  cases last with
  | cons next rest =>
      cases next with
      | returned answers =>
          rw [← same]
          exact answers.get_eq valid

/-- What a client has set, it reads until it changes it.  If it is written once, it reads it for
ever. -/
theorem get_set (has : device.HasAssets cfg state) {statics : Statics} {dataLength createFlags : ℕ}
    {input : Bytes} (spares : ∀ action ∈ actions, ¬action.request.Changes clientId uid ∨
      createFlags &&& psaStorageFlagWriteOnce ≠ 0)
    (exec_eq : Run.exec (Session.serve cfg) (.start device) (earlier ++
      ⟨.set statics clientId uid dataLength createFlags input, .returned (.ok .done)⟩ ::
        (actions ++ [⟨.get clientId uid dataOffset dataSize, .returned result⟩])) = some y)
    (allowed : Allowed (Session.serve cfg) (fun x action ↦ action.request.Sound x) (.start device)
      (earlier ++ ⟨.set statics clientId uid dataLength createFlags input, .returned (.ok .done)⟩ ::
        (actions ++ [⟨.get clientId uid dataOffset dataSize, .returned result⟩]))) :
    result = if dataOffset ≤ dataLength then
        .ok (.data ((((List.range dataLength).map input).drop dataOffset).take dataSize))
      else .error .invalidArgument := by
  obtain ⟨state', follows, -⟩ := has.start.exec validated eraseVal_ne some_file exec_eq allowed
  obtain ⟨before, -, later⟩ := follows.append_inv
  cases later with
  | cons next rest =>
      cases next with
      | @returned assets assets' _ _ answers =>
          cases answers with
          | served accepted =>
              have valid : uid ≠ tfmItsInvalidUid := by
                intro invalid
                rw [Assets.check, if_pos invalid] at accepted
                cases accepted
              have found : assets.after dataLength
                  (.set statics clientId uid dataLength createFlags input) clientId uid =
                    some ⟨createFlags, (List.range dataLength).map input⟩ := assets.put_self _ _ _
              rw [Request.length] at rest
              have read := Assets.get_spared rest valid fun action member ↦ by
                rw [found]
                exact (spares action member).imp_right fun once ↦ bne_iff_ne.2 once
              rw [found] at read
              rw [read, readOf, List.length_map, List.length_range]

omit validated eraseVal_ne some_file in
/-- The power is lost while another client sets an asset of its own. -/
theorem get_set_small : ∃ y result, Run.exec (Session.serve smallService) (.start newDevice)
    ([firstInit] ++ ⟨setSix 1 1, .returned (.ok .done)⟩ ::
      ([⟨setSix 2 0, .lost 9⟩, ⟨.init false, .returned (.ok .done)⟩] ++
        [⟨.get 1 7 2 3, .returned result⟩])) = some y ∧ result = .ok (.data [12, 13, 14]) := by
  obtain ⟨y, exec_eq, allowed⟩ := exists_smallRun ([firstInit] ++
    ⟨setSix 1 1, .returned (.ok .done)⟩ ::
      ([⟨setSix 2 0, .lost 9⟩, ⟨.init false, .returned (.ok .done)⟩] ++
        [⟨.get 1 7 2 3, .returned (.ok (.data [12, 13, 14]))⟩])) (by decide +kernel)
          (by decide +kernel)
  have read := get_set smallService_validated (by decide) (by decide) newDevice_hasAssets
    (fun _ _ ↦ .inr (by decide)) exec_eq allowed
  exact ⟨y, _, exec_eq, read.trans (by decide)⟩

/-- What a client has removed does not exist until it sets it again. -/
theorem get_removed (has : device.HasAssets cfg state)
    (others : ∀ action ∈ actions, ¬action.request.Changes clientId uid)
    (exec_eq : Run.exec (Session.serve cfg) (.start device) (earlier ++
      ⟨.remove clientId uid, .returned (.ok .done)⟩ ::
        (actions ++ [⟨.get clientId uid dataOffset dataSize, .returned result⟩])) = some y)
    (allowed : Allowed (Session.serve cfg) (fun x action ↦ action.request.Sound x) (.start device)
      (earlier ++ ⟨.remove clientId uid, .returned (.ok .done)⟩ ::
        (actions ++ [⟨.get clientId uid dataOffset dataSize, .returned result⟩]))) :
    result = .error .doesNotExist := by
  obtain ⟨state', follows, -⟩ := has.start.exec validated eraseVal_ne some_file exec_eq allowed
  obtain ⟨before, -, later⟩ := follows.append_inv
  cases later with
  | cons next rest =>
      cases next with
      | @returned assets assets' _ _ answers =>
          cases answers with
          | served accepted =>
              have valid : uid ≠ tfmItsInvalidUid := by
                intro invalid
                rw [Assets.check, if_pos invalid] at accepted
                cases accepted
              have gone : assets.after 0 (.remove clientId uid) clientId uid = none :=
                assets.put_self _ _ _
              rw [Request.length] at rest
              have read := Assets.get_spared rest valid
                fun action member ↦ .inl (others action member)
              rw [gone] at read
              exact read

omit validated eraseVal_ne some_file in
theorem get_removed_small : ∃ y result, Run.exec (Session.serve smallService) (.start newDevice)
    ([firstInit, ⟨setSix 1 0, .returned (.ok .done)⟩] ++ ⟨.remove 1 7, .returned (.ok .done)⟩ ::
      ([⟨.getInfo 2 7, .returned (.error .doesNotExist)⟩] ++ [⟨.get 1 7 0 6, .returned result⟩])) =
        some y ∧ result = .error .doesNotExist := by
  obtain ⟨y, exec_eq, allowed⟩ := exists_smallRun
    ([firstInit, ⟨setSix 1 0, .returned (.ok .done)⟩] ++ ⟨.remove 1 7, .returned (.ok .done)⟩ ::
      ([⟨.getInfo 2 7, .returned (.error .doesNotExist)⟩] ++
        [⟨.get 1 7 0 6, .returned (.error .doesNotExist)⟩])) (by decide +kernel) (by decide +kernel)
  have others : ∀ action ∈ [Action.mk (.getInfo 2 7) (.returned (.error .doesNotExist))],
      ¬action.request.Changes 1 7 := by
    intro action member
    rw [List.mem_singleton.1 member]
    exact id
  exact ⟨y, _, exec_eq, get_removed smallService_validated (by decide) (by decide)
    newDevice_hasAssets others exec_eq allowed⟩

/-- An asset that is written once stays as it is for ever: every request to change it is refused. -/
theorem writeOnce_kept (has : device.HasAssets cfg (some assets)) {asset : Asset}
    (found : assets clientId uid = some asset) (once : asset.isWriteOnce = true) {request : Request}
    (changes : request.Changes clientId uid)
    (exec_eq : Run.exec (Session.serve cfg) (.start device)
      (actions ++ [⟨request, .returned result⟩]) = some y)
    (allowed : Allowed (Session.serve cfg) (fun x action ↦ action.request.Sound x) (.start device)
      (actions ++ [⟨request, .returned result⟩])) :
    (∃ status, result = .error status) ∧ ∃ assets', y.device.HasAssets cfg (some assets') ∧
      assets' clientId uid = some asset := by
  have spared : ∀ request : Request, request.Spares clientId uid (assets clientId uid) := by
    intro request
    rw [found]
    exact .inr once
  obtain ⟨state', follows, has'⟩ := has.start.exec validated eraseVal_ne some_file exec_eq allowed
  obtain ⟨before, first, last⟩ := follows.append_inv
  obtain ⟨assets', rfl, same⟩ := Assets.follows_spared first fun action _ ↦ spared action.request
  obtain ⟨assets'', rfl, same'⟩ := Assets.follows_spared last fun action _ ↦ by
    rw [same]
    exact spared action.request
  refine ⟨?_, assets'', has'.device, same'.trans (same.trans found)⟩
  cases last with
  | cons next rest =>
      cases next with
      | returned answers =>
          cases answers with
          | served accepted =>
              exact (Assets.not_changes_of_writeOnce (same.trans found) once accepted changes).elim
          | refused => exact ⟨_, rfl⟩
          | noRoom => exact ⟨_, rfl⟩

omit validated eraseVal_ne some_file in
/-- Neither can the asset be removed nor set again. -/
theorem writeOnce_kept_small : ∃ x y : Session, ∃ assets' : Assets,
    Run.exec (Session.serve smallService) (.start x.device)
      ([⟨.init false, .returned (.ok .done)⟩, ⟨.remove 1 7, .returned (.error .notPermitted)⟩] ++
        [⟨setSix 1 0, .returned (.error .notPermitted)⟩]) = some y ∧
      y.device.HasAssets smallService (some assets') ∧
      assets' 1 7 = some ⟨1, (List.range 6).map fun i ↦ UInt8.ofNat (10 + i)⟩ := by
  obtain ⟨x, exec_eq, allowed⟩ := exists_smallRun [firstInit, ⟨setSix 1 1, .returned (.ok .done)⟩]
    (by decide +kernel) (by decide +kernel)
  obtain ⟨state', follows, has⟩ := newDevice_hasAssets.start.exec smallService_validated (by decide)
    (by decide) exec_eq allowed
  obtain ⟨y, exec_eq', allowed'⟩ := exists_laterRun exec_eq
    ([⟨.init false, .returned (.ok .done)⟩, ⟨.remove 1 7, .returned (.error .notPermitted)⟩] ++
      [⟨setSix 1 0, .returned (.error .notPermitted)⟩]) (by decide +kernel)
  cases follows with
  | cons first second =>
      cases first with
      | created =>
          cases second with
          | cons next last =>
              cases last
              cases next with
              | returned answers =>
                  cases answers with
                  | served accepted =>
                      obtain ⟨-, assets', kept, found⟩ := writeOnce_kept smallService_validated
                        (by decide) (by decide) has.device (Assets.put_self _ _ _ _) (by decide)
                        (show (setSix 1 0).Changes 1 7 from ⟨rfl, rfl⟩) exec_eq' allowed'
                      exact ⟨x, y, assets', exec_eq', kept, found⟩

omit some_file in
/-- Every request returns, and the service is ready for the next one.  Only a replacement without
room leaves scratch blocks that are not erased. -/
theorem serve_returns (has : device.HasAssets cfg (some assets)) {request : Request}
    (sound : request.Sound ⟨device, false⟩)
    (usable : request.needsMount = true → device.mounted = true ∧ device.Ready cfg.fs) :
    ∃ result device' assets', device.serve cfg ⟨request, .returned result⟩ = some device' ∧
      device'.mounted = true ∧ assets.Answers request result assets' ∧
      device'.HasAssets cfg (some assets') ∧
      (¬assets.Overflows request result → device'.Ready cfg.fs) := by
  obtain ⟨files, here, rfl⟩ := has
  cases needs : request.needsMount with
  | true =>
      obtain ⟨mounted, ready⟩ := usable needs
      have session : (Session.mk device false).Has (some files) := ⟨here, fun _ _ ↦ ready⟩
      obtain ⟨result, ctx', f', files', pass, answers, has', kept⟩ :=
        session.serves mounted sound needs
      have mounts := Request.mounts_of_needsMount needs result
      refine ⟨result, ⟨ctx', true, f'⟩, files'.assets, ?_, rfl, answers,
        ⟨files', has', rfl⟩, kept ready⟩
      exact Device.run_returned (fun _ ↦ mounted) ((if_pos rfl).trans (congrArg some mounts)) pass
  | false =>
      cases request with
      | set | get | getInfo | remove => cases needs
      | init createFlashLayout =>
          obtain ⟨ctx', f', pass, mounted⟩ :=
            here.passes_init validated eraseVal_ne createFlashLayout
          refine ⟨.ok .done, ⟨ctx', true, f'⟩, files.assets, ?_, rfl, .served rfl,
            ⟨files, mounted.has, rfl⟩, fun _ ↦ mounted.ready⟩
          exact Device.run_returned (fun needs ↦ (Bool.false_ne_true needs).elim) (if_pos rfl) pass

omit validated eraseVal_ne some_file in
theorem serve_returns_small : ∃ device device' : Device, ∃ result,
    device.serve smallService ⟨setSix 1 0, .returned result⟩ = some device' ∧
      device'.mounted = true := by
  obtain ⟨x, exec_eq, has⟩ := exists_initialised
  have usable : ((Run.exec (Session.serve smallService) (.start newDevice) [firstInit]).all fun x ↦
      x.device.mounted && decide (x.device.Ready smallFlash)) = true := by decide +kernel
  obtain ⟨mounted, ready⟩ := Bool.and_eq_true_iff.1 ((Option.all_eq_true ..).1 usable x exec_eq)
  obtain ⟨result, device', assets', step_eq, mounted', -⟩ := serve_returns
    smallService_validated (by decide) has
    (show (setSix 1 0).Sound ⟨x.device, false⟩ from ⟨by decide, by decide, rfl⟩)
    fun _ ↦ ⟨mounted, of_decide_eq_true ready⟩
  exact ⟨x.device, device', result, step_eq, mounted'⟩

/-- A device whose flash is erased when it starts goes along with its assets for ever. -/
theorem exec_erased (unmounted : device.mounted = false)
    (erased : ∀ b < 2, ∀ o < 8, device.flash b o = cfg.fs.eraseVal)
    (exec_eq : Run.exec (Session.serve cfg) (.start device) actions = some y)
    (allowed : Allowed (Session.serve cfg) (fun x action ↦ action.request.Sound x) (.start device)
      actions) :
    ∃ state', Follows (Assets.Next cfg) none actions state' ∧ y.device.HasAssets cfg state' := by
  have fresh : device.HasAssets cfg none := ⟨unmounted, refused_of_erased erased⟩
  obtain ⟨state', follows, has⟩ :=
    fresh.start.exec validated eraseVal_ne some_file exec_eq allowed
  exact ⟨state', follows, has.device⟩

omit validated eraseVal_ne some_file in
/-- A replacement is refused, and the service is initialised again before an asset is removed. -/
theorem exec_erased_small : ∃ y : Session, ∃ state', y.device.HasAssets smallService state' := by
  obtain ⟨y, exec_eq, allowed⟩ := exists_smallRun [⟨.init true, .lost 3⟩, firstInit,
    ⟨setSix 1 0, .returned (.ok .done)⟩, ⟨setSix 2 0, .lost 9⟩,
    ⟨.init false, .returned (.ok .done)⟩,
    ⟨.set ⟨smallFile, fun _ ↦ 0⟩ 1 7 100 0 fun _ ↦ 5, .returned (.error .invalidArgument)⟩,
    ⟨.init false, .returned (.ok .done)⟩, ⟨.remove 1 7, .returned (.ok .done)⟩]
    (by decide +kernel) (by decide +kernel)
  obtain ⟨state', -, has⟩ := exec_erased smallService_validated (by decide) (by decide) rfl
    (fun _ _ _ _ ↦ rfl) exec_eq allowed
  exact ⟨y, state', has⟩

/-- An asset whose data fits in the buffer is set as a whole, or not at all. -/
theorem set_lost_whole (has : device.HasAssets cfg state) {statics : Statics}
    {dataLength createFlags operations : ℕ} {input : Bytes} (small : dataLength ≤ cfg.bufSize)
    (exec_eq : Run.exec (Session.serve cfg) (.start device) actions = some x)
    (allowed : Allowed (Session.serve cfg) (fun x action ↦ action.request.Sound x) (.start device)
      (actions ++ [⟨.set statics clientId uid dataLength createFlags input, .lost operations⟩]))
    (step_eq : x.serve cfg
      ⟨.set statics clientId uid dataLength createFlags input, .lost operations⟩ = some y) :
    ∃ assets, x.device.HasAssets cfg (some assets) ∧ (y.device.HasAssets cfg (some assets) ∨
      y.device.HasAssets cfg (some (assets.put clientId uid
        (some ⟨createFlags, (List.range dataLength).map input⟩)))) := by
  obtain ⟨first, sound⟩ := allowed_concat exec_eq allowed
  obtain ⟨state', -, has'⟩ := has.start.exec validated eraseVal_ne some_file exec_eq first
  obtain ⟨state'', next, has''⟩ := has'.step validated eraseVal_ne some_file sound step_eq
  cases next with
  | lost cut =>
      refine ⟨_, has'.device, ?_⟩
      cases cut with
      | before => exact .inl has''.device
      | @behind chunks some_chunk allowed =>
          have whole : min dataLength (chunks * cfg.bufSize) = dataLength :=
            Nat.min_eq_left (small.trans (Nat.le_mul_of_pos_left _ some_chunk))
          rw [Assets.after, Request.length, whole] at has''
          exact .inr has''.device

omit validated eraseVal_ne some_file in
theorem set_lost_whole_small : ∃ x y : Session, ∃ assets : Assets,
    x.device.HasAssets smallService (some assets) ∧
    (y.device.HasAssets smallService (some assets) ∨
      y.device.HasAssets smallService (some (assets.put 1 7
        (some ⟨0, (List.range 4).map fun _ ↦ 5⟩)))) := by
  obtain ⟨y, exec_eq, allowed⟩ := exists_smallRun ([firstInit] ++
    [⟨.set ⟨smallFile, fun _ ↦ 0⟩ 1 7 4 0 fun _ ↦ 5, .lost 9⟩]) (by decide +kernel)
      (by decide +kernel)
  obtain ⟨x, first, step_eq⟩ := exec_concat_eq_some exec_eq
  obtain ⟨assets, has, either⟩ := set_lost_whole smallService_validated (by decide) (by decide)
    newDevice_hasAssets (by decide) first allowed step_eq
  exact ⟨x, y, assets, has, either⟩

end

end TrustedFirmwareM.Its
