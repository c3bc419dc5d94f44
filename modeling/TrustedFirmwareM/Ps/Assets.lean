import TrustedFirmwareM.Ps.Sessions
import Mathlib.Data.Set.Card

/-!
# Protected Storage as a map

What Protected Storage is for: each client has assets under identifiers of its own.  Without faults
the service answers as this map does, over any number of requests and boots.
-/

namespace TrustedFirmwareM.Ps

open Program

variable {Tag : Type} {m : ℕ} {cfg : Config} {crypto : Crypto Tag m}

/-! ## The map -/

/-- An asset of a client. -/
structure Asset where
  /-- Its data. -/
  data : List (BitVec 8)
  /-- Its creation flags. -/
  flags : Word

/-- The asset may not be changed or removed. -/
def Asset.WriteOnce (asset : Asset) : Prop := asset.flags &&& psaStorageFlagWriteOnce ≠ 0

instance (asset : Asset) : Decidable asset.WriteOnce := inferInstanceAs (Decidable (_ ≠ _))

/-- Assets by client and identifier. -/
abbrev Assets : Type := ℤ × Uid → Option Asset

/-- Number of assets. -/
noncomputable def Assets.count (assets : Assets) : ℕ := {key | assets key ≠ none}.ncard

/-- The key of the asset that a request is about. -/
def Request.key (r : Request) : ℤ × Uid := (r.clientId, r.uid)

/-- The slice of an asset that a client reads. -/
def Asset.slice (asset : Asset) (offset size : Word) : Response :=
  if offset.toNat ≤ asset.data.length then
    .data .success ((asset.data.drop offset.toNat).take size.toNat)
  else .data .invalidArgument []

/-- What a request returns and what it leaves of the asset it is about, if there may be as many
assets as `full` says. -/
def Request.apply (r : Request) (full : Bool) (old : Option Asset) : Response × Option Asset :=
  match r, old with
  | .set _ _ _ flags data, none =>
      if full then (.status .insufficientStorage, none) else (.status .success, some ⟨data, flags⟩)
  | .set _ _ _ flags data, some old =>
      if old.WriteOnce then (.status .notPermitted, some old)
      else (.status .success, some ⟨data, flags⟩)
  | .get _ _ offset size, some old => (old.slice offset size, some old)
  | .getInfo _ _, some old => (.info .success (BitVec.ofNat 32 old.data.length) old.flags, some old)
  | .remove _ _, some old =>
      if old.WriteOnce then (.status .notPermitted, some old) else (.status .success, none)
  | r, old => (r.failure .doesNotExist, old)

/-- The map serves a request: it may hold `m` assets. -/
noncomputable def Assets.serve (cfg : Config) (m : ℕ) (assets : Assets) (r : Request) :
    Response × Assets :=
  match r.refusal cfg with
  | some err => (r.failure err, assets)
  | none =>
      let result := r.apply (decide (m ≤ assets.count)) (assets r.key)
      (result.1, Function.update assets r.key result.2)

/-- The map after some requests, latest first. -/
noncomputable def Assets.after (cfg : Config) (m : ℕ) : List Request → Assets
  | [] => fun _ ↦ none
  | r :: before => (Assets.serve cfg m (Assets.after cfg m before) r).2

/-- What the map answers to some requests, latest first. -/
noncomputable def Assets.log (cfg : Config) (m : ℕ) :
    List Request → List (Request × Option Response)
  | [] => []
  | r :: before =>
      (r, some (Assets.serve cfg m (Assets.after cfg m before) r).1) :: Assets.log cfg m before

/-- Requests that a client can make.  The data of `tfm_ps_set` has the length that the service
passes on. -/
def Request.FromClient : Request → Prop
  | .set _ _ dataLength _ asset => asset.length = dataLength.toNat
  | .get _ _ _ _ | .getInfo _ _ | .remove _ _ => True
  | .write _ _ _ _ _ => False

/-! ## Slots and the map -/

/-- The key of the asset in a slot. -/
def Slot.key (s : Slot) : ℤ × Uid := (s.clientId, s.uid)

/-- The asset in a slot. -/
def Slot.asset (s : Slot) : Asset := ⟨s.plain.data, s.plain.createFlags⟩

/-- The slots hold the assets of the map. -/
structure Shows (slots : Slots m) (assets : Assets) : Prop where
  /-- Assets that are there. -/
  used : ∀ idx s, slots idx = some s → assets s.key = some s.asset
  /-- Assets that are not there. -/
  absent : ∀ key, (∀ idx s, slots idx = some s → s.key ≠ key) → assets key = none

theorem Slots.Valid.key_inj {slots : Slots m} (valid : slots.Valid cfg) {idx idx' : Fin (m + 1)}
    {s s' : Slot} (here : slots idx = some s) (here' : slots idx' = some s')
    (same : s.key = s'.key) :
    idx = idx' := by
  injection same with clientId uid
  exact valid.unique idx idx' s s' here here' uid clientId

theorem Shows.eq_some {slots : Slots m} {assets : Assets} (shows_assets : Shows slots assets)
    {key : ℤ × Uid} : assets key ≠ none ↔ ∃ idx s, slots idx = some s ∧ s.key = key := by
  constructor
  · intro used
    by_contra lacks
    push Not at lacks
    exact used (shows_assets.absent key lacks)
  · rintro ⟨idx, s, here, rfl⟩
    rw [shows_assets.used idx s here]
    rintro ⟨⟩

/-- There are as many assets as slots in use. -/
theorem Shows.count {slots : Slots m} {assets : Assets} (shows_assets : Shows slots assets)
    (valid : slots.Valid cfg) : assets.count + slots.freeCount = m + 1 := by
  have used : assets.count = (List.finRange (m + 1)).countP fun idx ↦ (slots idx).isSome := by
    have nodup := (List.nodup_finRange (m + 1)).filter fun idx ↦ (slots idx).isSome
    rw [List.countP_eq_length_filter, ← List.toFinset_card_of_nodup nodup, ← Set.ncard_coe_finset,
      Assets.count]
    symm
    refine Set.ncard_congr (fun idx here ↦ ((slots idx).get (by simpa using here)).key) ?_ ?_ ?_
    · intro idx here
      exact shows_assets.eq_some.2 ⟨idx, _, (Option.some_get _).symm, rfl⟩
    · intro idx idx' here here' same
      exact valid.key_inj (Option.some_get _).symm (Option.some_get _).symm same
    · intro key used
      obtain ⟨idx, s, here, rfl⟩ := shows_assets.eq_some.1 used
      exact ⟨idx, by simp [here], by simp [here]⟩
  have all := List.length_eq_countP_add_countP (fun idx ↦ (slots idx).isSome)
    (l := List.finRange (m + 1))
  rw [List.length_finRange] at all
  have free : slots.freeCount =
      (List.finRange (m + 1)).countP fun idx ↦ decide ¬(slots idx).isSome = true :=
    List.countP_congr fun idx _ ↦ by simp
  rw [used, free]
  exact all.symm

/-- An object is put into a slot. -/
theorem Shows.put {slots : Slots m} {assets : Assets} (shows_assets : Shows slots assets)
    (old : Option (Fin (m + 1))) {new : Fin (m + 1)} {s : Slot}
    (only : ∀ idx s', slots idx = some s' → s'.key = s.key → old = some idx)
    (held : ∀ idx, old = some idx → ∃ s', slots idx = some s' ∧ s'.key = s.key)
    (free : slots new = none ∨ old = some new) :
    Shows (slots.put old new s) (Function.update assets s.key (some s.asset)) := by
  constructor
  case used =>
    intro idx s' here
    rcases eq_or_ne idx new with rfl | ne
    · rw [Slots.put_new] at here
      cases here
      exact Function.update_self ..
    · rcases slots.put_of_ne old s ne with ⟨-, gone⟩ | ⟨other, same⟩
      · cases here.symm.trans gone
      · have before := same.symm.trans here
        rw [Function.update_of_ne, shows_assets.used idx s' before]
        exact fun key ↦ other (only idx s' before key)
  case absent =>
    intro key lacks
    have ne : s.key ≠ key := lacks new s (Slots.put_new ..)
    rw [Function.update_of_ne ne.symm]
    refine shows_assets.absent key fun idx s' here same ↦ ?_
    rcases eq_or_ne idx new with rfl | other
    · rcases free with free | same_slot
      · cases here.symm.trans free
      · obtain ⟨s₀, here₀, key₀⟩ := held idx same_slot
        cases here.symm.trans here₀
        exact ne (key₀.symm.trans same)
    · rcases slots.put_of_ne old s other with ⟨left, -⟩ | ⟨-, stays⟩
      · obtain ⟨s₀, here₀, key₀⟩ := held idx left
        cases here.symm.trans here₀
        exact ne (key₀.symm.trans same)
      · exact lacks idx s' (stays.trans here) same

/-- An object is put into the place of another one. -/
theorem Shows.replace {slots : Slots m} {assets : Assets} (shows_assets : Shows slots assets)
    (valid : slots.Valid cfg) {idx new : Fin (m + 1)} {s s' : Slot} (here : slots idx = some s)
    (key : s'.key = s.key) (free : slots new = none ∨ idx = new) :
    Shows (slots.put (some idx) new s') (Function.update assets s.key (some s'.asset)) := by
  rw [← key]
  refine shows_assets.put _ (fun i s₀ here₀ same ↦ ?_) (fun i eq ↦ ?_)
    (free.imp_right (congrArg some))
  · rw [valid.key_inj here₀ here (same.trans key)]
  · cases eq
    exact ⟨s, here, key.symm⟩

/-- A slot is emptied. -/
theorem Shows.delete {slots : Slots m} {assets : Assets} (shows_assets : Shows slots assets)
    (valid : slots.Valid cfg) {idx : Fin (m + 1)} {s : Slot} (here : slots idx = some s) :
    Shows (Function.update slots idx none) (Function.update assets s.key none) := by
  constructor
  case used =>
    intro i s' here'
    rcases eq_or_ne i idx with rfl | ne
    · rw [Function.update_self] at here'
      cases here'
    · rw [Function.update_of_ne ne] at here'
      rw [Function.update_of_ne, shows_assets.used i s' here']
      exact fun same ↦ ne (valid.key_inj here' here same)
  case absent =>
    intro key lacks
    rcases eq_or_ne key s.key with rfl | ne
    · exact Function.update_self ..
    · rw [Function.update_of_ne ne]
      refine shows_assets.absent key fun i s' here' same ↦ ?_
      refine lacks i s' ?_ same
      rw [Function.update_of_ne, here']
      rintro rfl
      cases here.symm.trans here'
      exact ne same.symm

/-! ## Requests -/

theorem Slot.plain_switchKeys {s : Slot} :
    ((s.read cfg).switchKeys cfg s.plain).plain = s.plain := by
  rw [Slot.switchKeys]
  split <;> rfl

theorem Slot.key_switchKeys {s : Slot} (plain : Payload) :
    ((s.read cfg).switchKeys cfg plain).key = s.key := by
  rw [Slot.switchKeys]
  split <;> rfl

theorem Slot.key_store {s : Slot} (plain : Payload) : (s.store cfg plain).key = s.key := by
  rw [Slot.store]
  split
  · rfl
  · split <;> rfl

theorem Slot.plain_store {s : Slot} (plain : Payload) : (s.store cfg plain).plain = plain := by
  rw [Slot.store]
  split
  · rfl
  · split <;> rfl

/-- An object that is read stays the asset it is. -/
theorem Shows.kept {slots : Slots m} {assets : Assets} (shows_assets : Shows slots assets)
    (valid : slots.Valid cfg) {idx : Fin (m + 1)} {s s' : Slot} (here : slots idx = some s)
    (key : s'.key = s.key) (plain : s'.plain = s.plain) :
    Shows ((Effect.kept idx s s').apply slots) assets := by
  have put := shows_assets.replace valid here key (.inr rfl)
  have same : s'.asset = s.asset := by rw [Slot.asset, plain, Slot.asset]
  rw [Slots.put_self, same, ← shows_assets.used idx s here, Function.update_eq_self] at put
  exact put

theorem Slot.slice_asset {s : Slot} (valid : s.plain.Valid cfg) (offset size : Word) :
    s.asset.slice offset size = s.plain.readResponse offset size := by
  have length := valid.length
  simp only [Asset.slice, Payload.readResponse, Slot.asset, BitVec.le_def, ← length]
  rw [← List.length_drop, ← List.take_eq_take_min]
  congr

/-- The map answers a request that may not be served. -/
theorem Assets.serve_of_none {assets : Assets} {r : Request} (refusal : r.refusal cfg = none)
    {old : Option Asset} (entry : assets r.key = old) :
    assets.serve cfg m r = ((r.apply (decide (m ≤ assets.count)) old).1,
      Function.update assets r.key (r.apply (decide (m ≤ assets.count)) old).2) := by
  rw [Assets.serve, refusal, entry]

/-- The slots serve a request as the map does. -/
theorem Serves.serve {slots : Slots m} {assets : Assets} {gen : Word} {r : Request}
    {response : Response} {effect : Effect m} (serves : Serves cfg slots gen r response effect)
    (shows_assets : Shows slots assets) (valid : slots.Valid cfg) (client : r.FromClient) :
    response = (assets.serve cfg m r).1 ∧ Shows (effect.apply slots) (assets.serve cfg m r).2 := by
  have count := shows_assets.count valid
  have missing : ∀ {uid clientId}, slots.Lacks uid clientId → assets (clientId, uid) = none :=
    fun lacks ↦ shows_assets.absent _ fun idx s here same ↦
      lacks idx s here ⟨(Prod.mk.inj same).2, (Prod.mk.inj same).1⟩
  have whole : ∀ {size : Word} {asset : List (BitVec 8)}, asset.length = size.toNat →
      asset.take size.toNat = asset := fun length ↦ List.take_of_length_le length.le
  have kept : ∀ idx s, slots idx = some s →
      Shows ((Effect.kept idx s ((s.read cfg).switchKeys cfg s.plain)).apply slots) assets :=
    fun idx s here ↦ shows_assets.kept valid here (s.key_switchKeys s.plain) s.plain_switchKeys
  have unchanged : ∀ key old, assets key = old → Function.update assets key old = assets :=
    fun key old entry ↦ Function.update_eq_self_iff.2 entry.symm
  cases serves with
  | refused refusal =>
      rw [Assets.serve, refusal]
      exact ⟨rfl, shows_assets⟩
  | absent refusal other lacks =>
      have entry : assets r.key = none := missing lacks
      rw [Assets.serve_of_none refusal entry]
      cases r with
      | set => exact absurd rfl (other _ _ _ _ _)
      | write => exact client.elim
      | get | getInfo | remove => exact ⟨rfl, (unchanged _ _ entry).symm ▸ shows_assets⟩
  | @read idx s offset size here =>
      have refusal : (Request.get s.clientId s.uid offset size).refusal cfg = none :=
        if_neg (valid.uid idx s here)
      have entry := shows_assets.used idx s here
      rw [Assets.serve_of_none refusal entry]
      refine ⟨(s.slice_asset (valid.plain idx s here) offset size).symm, ?_⟩
      exact (unchanged _ _ entry).symm ▸ kept idx s here
  | @info idx s here =>
      have refusal : (Request.getInfo s.clientId s.uid).refusal cfg = none :=
        if_neg (valid.uid idx s here)
      have entry := shows_assets.used idx s here
      rw [Assets.serve_of_none refusal entry]
      refine ⟨?_, (unchanged _ _ entry).symm ▸ kept idx s here⟩
      have size : BitVec.ofNat 32 s.plain.data.length = s.plain.currentSize := by
        rw [(valid.plain idx s here).length, BitVec.ofNat_toNat, BitVec.setWidth_eq]
      exact congrArg (Response.info .success · s.plain.createFlags) size.symm
  | @unreplaceable idx s size flags asset refusal here once =>
      have entry := shows_assets.used idx s here
      have apply_eq : ∀ full, (Request.set s.clientId s.uid size flags asset).apply full
          (some s.asset) =
          (.status .notPermitted, some s.asset) := fun _ ↦ if_pos once
      rw [Assets.serve_of_none refusal entry, apply_eq]
      refine ⟨rfl, (unchanged _ _ entry).symm ▸ ?_⟩
      exact shows_assets.kept valid here rfl rfl
  | unreplaced refusal here many short => exact absurd client short.ne
  | @replaced idx new s size flags asset refusal here many enough free =>
      have entry := shows_assets.used idx s here
      have apply_eq : ∀ full, (Request.set s.clientId s.uid size flags asset).apply full
          (some s.asset) =
          (.status .success, some ⟨asset, flags⟩) := fun _ ↦ if_neg (not_not.2 many)
      rw [Assets.serve_of_none refusal entry, apply_eq, whole client]
      refine ⟨rfl, ?_⟩
      have key : ((s.read cfg).store cfg ⟨size, size, flags, asset⟩).key = s.key := Slot.key_store _
      have put := shows_assets.replace valid here key (.inl free)
      rw [Slot.asset, Slot.plain_store] at put
      exact put
  | uncreated refusal lacks short => exact absurd client short.ne
  | @full clientId uid size flags asset refusal lacks enough few =>
      have entry := missing lacks
      have is_full : decide (m ≤ assets.count) = true := decide_eq_true (by omega)
      rw [Assets.serve_of_none refusal entry, is_full]
      exact ⟨rfl, (unchanged _ _ entry).symm ▸ shows_assets⟩
  | @created new clientId uid size flags asset refusal lacks enough room free =>
      have entry := missing lacks
      have is_free : decide (m ≤ assets.count) = false := decide_eq_false (by omega)
      rw [Assets.serve_of_none refusal entry, is_free, whole client]
      refine ⟨rfl, ?_⟩
      have put := shows_assets.put none
        (s := Slot.store cfg ⟨uid, clientId, gen, 0, ⟨0, size, flags, []⟩⟩
          ⟨size, size, flags, asset⟩)
        (fun idx s here same ↦ ?_) (by rintro _ ⟨⟩) (.inl free)
      · rw [Slot.asset, Slot.plain_store, Slot.key_store] at put
        exact put
      · rw [Slot.key_store] at same
        exact absurd ⟨(Prod.mk.inj same).2, (Prod.mk.inj same).1⟩ (lacks idx s here)
  | @unchangeable r idx s kind here once =>
      rcases kind with rfl | ⟨_, _, _, rfl⟩
      · have refusal : (Request.remove s.clientId s.uid).refusal cfg = none :=
          if_neg (valid.uid idx s here)
        have entry := shows_assets.used idx s here
        have apply_eq : ∀ full, (Request.remove s.clientId s.uid).apply full (some s.asset) =
            (.status .notPermitted, some s.asset) := fun _ ↦ if_pos once
        rw [Assets.serve_of_none refusal entry, apply_eq]
        exact ⟨rfl, (unchanged _ _ entry).symm ▸ kept idx s here⟩
      · exact client.elim
  | @removed idx s here many =>
      have refusal : (Request.remove s.clientId s.uid).refusal cfg = none :=
        if_neg (valid.uid idx s here)
      have entry := shows_assets.used idx s here
      have apply_eq : ∀ full, (Request.remove s.clientId s.uid).apply full (some s.asset) =
          (.status .success, none) := fun _ ↦ if_neg (not_not.2 many)
      rw [Assets.serve_of_none refusal entry, apply_eq]
      exact ⟨rfl, shows_assets.delete valid here⟩
  | outside here => exact client.elim
  | unwritten here short => exact client.elim
  | written here free => exact client.elim

/-! ## The map over many requests -/

/-- The status of a response. -/
def Response.err : Response → Status
  | .status err | .data err _ | .info err _ _ => err

/-- A request that fails leaves its asset as it was. -/
theorem Request.apply_failed {r : Request} {full : Bool} {old : Option Asset}
    (failed : (r.apply full old).1.err ≠ .success) : (r.apply full old).2 = old := by
  cases old with
  | none =>
      cases r with
      | set =>
          rw [Request.apply] at failed ⊢
          split
          · rfl
          · next free =>
              rw [if_neg free] at failed
              exact absurd rfl failed
      | _ => rfl
  | some old =>
      cases r with
      | set | remove =>
          rw [Request.apply] at failed ⊢
          split
          · rfl
          · next many =>
              rw [if_neg many] at failed
              exact absurd rfl failed
      | _ => rfl

/-- An asset that may be written once stays. -/
theorem Request.apply_writeOnce {r : Request} {full : Bool} {asset : Asset}
    (once : asset.WriteOnce) :
    (r.apply full (some asset)).2 = some asset := by
  cases r with
  | set | remove =>
      rw [Request.apply, if_pos once]
  | _ => rfl

section

variable {assets : Assets} {r : Request}

theorem Assets.serve_other {key : ℤ × Uid} (other : key ≠ r.key) :
    (assets.serve cfg m r).2 key = assets key := by
  rw [Assets.serve]
  split
  · rfl
  · exact Function.update_of_ne other ..

theorem Assets.serve_failed (failed : (assets.serve cfg m r).1.err ≠ .success) :
    (assets.serve cfg m r).2 = assets := by
  rw [Assets.serve] at failed ⊢
  split
  · rfl
  · next refusal =>
      rw [refusal] at failed
      dsimp only
      rw [Request.apply_failed failed, Function.update_eq_self]

theorem Assets.serve_writeOnce {key : ℤ × Uid} {asset : Asset} (here : assets key = some asset)
    (once : asset.WriteOnce) : (assets.serve cfg m r).2 key = some asset := by
  rcases eq_or_ne key r.key with rfl | other
  · rw [Assets.serve]
    split
    · exact here
    · dsimp only
      rw [here, Request.apply_writeOnce once, Function.update_self]
  · rw [Assets.serve_other other, here]

/-- The answer depends on the asset of the request and on whether there is room for another one. -/
theorem Assets.serve_congr {assets' : Assets} (same : assets' r.key = assets r.key)
    (full : m ≤ assets'.count ↔ m ≤ assets.count) :
    (assets'.serve cfg m r).1 = (assets.serve cfg m r).1 := by
  simp only [Assets.serve, same, full]
  split <;> rfl

theorem Assets.after_writeOnce {later before : List Request} {key : ℤ × Uid} {asset : Asset}
    (here : Assets.after cfg m before key = some asset) (once : asset.WriteOnce) :
    Assets.after cfg m (later ++ before) key = some asset := by
  induction later with
  | nil => exact here
  | cons r later ih => exact Assets.serve_writeOnce ih once

end

/-! ## Sessions -/

section

variable [Inhabited Tag]

/-- Requests that a client can make. -/
def Event.FromClient : Event → Prop
  | .boot => True
  | .request r => r.FromClient

/-- While the system runs, the slots hold the assets of the map. -/
def ShowsLog (cfg : Config) (crypto : Crypto Tag m) (x : Session Tag m) : Prop :=
  (x.machine.ram = none ∧ x.log = [] ∧ (cfg.Sane → Unused x.machine.world)) ∨
  ∃ ram slots, x.machine.ram = some ram ∧ cfg.Sane ∧ x.machine.world.nvc 0 ≤ cfg.nvMax ∧
    Serving cfg crypto slots ram x.machine.world ∧
    Shows slots (Assets.after cfg m (x.log.map Prod.fst)) ∧
    x.log = Assets.log cfg m (x.log.map Prod.fst)

theorem ShowsLog.step {x y : Session Tag m} {event : Event} (inv : ShowsLog cfg crypto x)
    (small : cfg.nvMax < 2 ^ 32) (counts : x.CanCount cfg event) (client : event.FromClient)
    (step_eq : x.step cfg crypto event = some y) : ShowsLog cfg crypto y := by
  cases event with
  | boot =>
      rcases inv with ⟨-, empty, unused⟩ | ⟨ram, slots, run, sane, bounded, serving, shown, log⟩
      · by_cases sane : cfg.Sane
        · obtain ⟨same, bounded, ⟨ram', run', -, serving, -⟩ | ⟨stopped, unused'⟩⟩ :=
            Session.step_first_boot (unused sane) step_eq
          · refine .inr ⟨ram', _, run', sane, bounded, serving, ?_, ?_⟩
            · rw [same, empty]
              exact ⟨(by rintro _ _ ⟨⟩), fun _ _ ↦ rfl⟩
            · rw [same, empty]
              rfl
          · exact .inl ⟨stopped, same.trans empty, fun sane ↦ (unused' sane).1⟩
        · obtain ⟨same, stopped⟩ := Session.step_insane_boot sane step_eq
          exact .inl ⟨stopped, same.trans empty, fun sane' ↦ absurd sane' sane⟩
      · obtain ⟨table, stored, -⟩ := serving.stored_table
        obtain ⟨ram', run', same, serving', -, -, -, bounded'⟩ :=
          Session.step_boot stored bounded sane step_eq
        refine .inr ⟨ram', slots, run', sane, bounded', serving', ?_, ?_⟩
        · rw [same]
          exact shown
        · rw [same]
          exact log
  | request r =>
      rcases inv with ⟨stopped, -⟩ | ⟨ram, slots, run, sane, bounded, serving, shown, log⟩
      · simp only [Session.step, stopped] at step_eq
        cases step_eq
      · obtain ⟨ram', response, run', log', ⟨effect, serves, serving', -⟩, bounded'⟩ :=
          Session.step_request run serving small counts (by rintro _ _ _ _ _ rfl; exact client.elim)
            step_eq
        obtain ⟨answer, shown'⟩ := serves.serve shown serving.valid client
        refine .inr ⟨ram', effect.apply slots, run', sane, bounded', serving', ?_, ?_⟩
        · rw [log']
          exact shown'
        · rw [log', List.map_cons, Assets.log, ← log, answer]

/-- Protected Storage answers as the map does, whatever clients request and however often the system
boots, as long as nothing fails.  There are never more assets than the table has room for, no
request affects another asset than its own or succeeds in changing one that may be written once, a
failed request changes nothing, and an answer depends on no other asset. -/
theorem answersAsAssets (cfg : Config) (crypto : Crypto Tag m) (small : cfg.nvMax < 2 ^ 32)
    (x : Session Tag m) (reaches : Run.Reaches (Session.step cfg crypto)
      (fun x event ↦ x.CanCount cfg event ∧ event.FromClient) .start x) :
    x.log = Assets.log cfg m (x.log.map Prod.fst) ∧
    (Assets.after cfg m (x.log.map Prod.fst)).count ≤ m ∧
    ∀ later r before, x.log.map Prod.fst = later ++ r :: before →
      let assets := Assets.after cfg m before
      (∀ key, key ≠ r.key → (assets.serve cfg m r).2 key = assets key) ∧
      ((assets.serve cfg m r).1.err ≠ .success → (assets.serve cfg m r).2 = assets) ∧
      (∀ key asset, assets key = some asset → asset.WriteOnce →
        Assets.after cfg m (x.log.map Prod.fst) key = some asset) ∧
      ∀ assets' : Assets, assets' r.key = assets r.key → (m ≤ assets'.count ↔ m ≤ assets.count) →
        (assets'.serve cfg m r).1 = (assets.serve cfg m r).1 := by
  have inv : ShowsLog cfg crypto x :=
    reaches.invariant (.inl ⟨rfl, rfl, fun _ ↦ ⟨rfl, rfl⟩⟩)
      fun _ _ _ inv allowed ↦ inv.step small allowed.1 allowed.2
  refine ⟨?_, ?_, fun later r before split ↦ ⟨fun _ ↦ Assets.serve_other, Assets.serve_failed,
    fun key asset here once ↦ ?_, fun _ ↦ Assets.serve_congr⟩⟩
  · rcases inv with ⟨-, empty, -⟩ | ⟨ram, slots, -, -, -, -, -, log⟩
    · rw [empty]
      rfl
    · exact log
  · rcases inv with ⟨-, empty, -⟩ | ⟨ram, slots, -, -, -, serving, shown, -⟩
    · rw [empty]
      change Set.ncard {key : ℤ × Uid | (none : Option Asset) ≠ none} ≤ m
      simp
    · have count := shown.count serving.valid
      have free := serving.valid.freeCount_pos
      omega
  · rw [split, List.append_cons]
    exact Assets.after_writeOnce here once

end

/-- The storage area is created, an asset is set and another client asks for it. -/
theorem answersAsAssets_set_get :
    ∃ x : Session Code 1, Run.exec (Session.step sampleConfig sampleCrypto) .start
        [.boot, .request (.set 5 7 1 0 [9]), .request (.get 6 7 0 1)] = some x ∧
      x.log = Assets.log sampleConfig 1 (x.log.map Prod.fst) := by
  have runs : (Run.exec (Session.step sampleConfig sampleCrypto) (.start : Session Code 1)
      [.boot, .request (.set 5 7 1 0 [9]), .request (.get 6 7 0 1)]).isSome = true := by
    decide +kernel
  have counts : ((Session.start : Session Code 1).step sampleConfig sampleCrypto .boot).all (fun x ↦
      x.machine.world.nvc 0 < 100 && (x.step sampleConfig sampleCrypto
        (.request (.set 5 7 1 0 [9]))).all fun y ↦ y.machine.world.nvc 0 < 100) = true := by
    decide +kernel
  obtain ⟨x, run⟩ := Option.isSome_iff_exists.1 runs
  refine ⟨x, run, (answersAsAssets sampleConfig sampleCrypto (by decide) x (Run.exec_reaches run
    ⟨⟨trivial, trivial⟩, fun y eq ↦ ⟨⟨?_, rfl⟩, fun z eq' ↦ ⟨⟨?_, trivial⟩,
      fun _ _ ↦ trivial⟩⟩⟩)).1⟩
  · have counts := (Option.all_eq_true ..).1 counts y eq
    have room : y.machine.world.nvc 0 < 100 := of_decide_eq_true (Bool.and_eq_true_iff.1 counts).1
    exact room
  · have counts := (Option.all_eq_true ..).1 counts y eq
    have room : z.machine.world.nvc 0 < 100 :=
      of_decide_eq_true ((Option.all_eq_true ..).1 (Bool.and_eq_true_iff.1 counts).2 z eq')
    exact room

end TrustedFirmwareM.Ps
