import TrustedFirmwareM.Ps.Boots

/-!
# Sessions

The system serves requests and boots, without faults, and what it answers is kept in a log.
-/

namespace TrustedFirmwareM.Ps

open Program

variable {Tag : Type} {m : ℕ} [Inhabited Tag] {cfg : Config} {crypto : Crypto Tag m}

/-- The system and what it has answered. -/
structure Session (Tag : Type) (m : ℕ) where
  /-- The system. -/
  machine : Machine Tag m
  /-- Requests and their responses, latest first. -/
  log : List (Request × Option Response)

/-- What happens in a session. -/
inductive Event
  /-- The system is reset and boots. -/
  | boot
  /-- A request is served. -/
  | request (r : Request)

/-- One step of a session. -/
def Session.step (cfg : Config) (crypto : Crypto Tag m) (x : Session Tag m) :
    Event → Option (Session Tag m)
  | .boot =>
      let (result, w) :=
        execute cfg (tfmPsInit cfg crypto) .reset (x.machine.world.arm noFails) none
      some ⟨⟨w, running result⟩, x.log⟩
  | .request r =>
      match x.machine.ram with
      | none => none
      | some ram =>
          let (result, w) :=
            (r.serve cfg crypto ram).run (Op.handle cfg) (x.machine.world.arm noFails)
          some ⟨⟨w, result.map Prod.snd⟩, (r, result.map Prod.fst) :: x.log⟩

/-- A session with a storage area that has never been used. -/
def Session.start : Session Tag m := ⟨⟨.blank, none⟩, []⟩

/-- The counter that a request may need can count. -/
def Session.CanCount (cfg : Config) (x : Session Tag m) : Event → Prop
  | .boot => True
  | .request _ => x.machine.world.nvc 0 < cfg.nvMax

omit [Inhabited Tag] in
theorem handle_bounded (cfg : Config) (o : Op Tag m) (w : World Tag m)
    (bounded : w.nvc 0 ≤ cfg.nvMax) : (o.handle cfg w).2.nvc 0 ≤ cfg.nvMax := by
  rw [Op.handle]
  split
  · cases o with
    | mark => exact bounded
    | _ => contradiction
  · split
    · cases o <;> exact bounded
    · cases o with
      | incrementNvCounter c =>
          simp only [Op.perform]
          split
          · next room =>
              change Function.update w.nvc c (w.nvc c + 1) 0 ≤ cfg.nvMax
              rcases eq_or_ne c 0 with rfl | ne
              · rw [Function.update_self]
                exact room
              · rwa [Function.update_of_ne ne.symm]
          · exact bounded
      | removeTable | removeObject =>
          simp only [Op.perform]
          split <;> exact bounded
      | _ => exact bounded

omit [Inhabited Tag] in
theorem Serving.arm {slots : Slots m} {ram : Ram Tag m} {w : World Tag m}
    (serving : Serving cfg crypto slots ram w) (fails : Op Tag m → ℕ → Bool) :
    Serving cfg crypto slots ram (w.arm fails) :=
  serving.congr rfl rfl rfl rfl rfl rfl fun _ _ ↦ rfl

section

variable {x y : Session Tag m}

/-- A request in a session. -/
theorem Session.step_request {r : Request} {ram : Ram Tag m} {slots : Slots m}
    (run : x.machine.ram = some ram) (serving : Serving cfg crypto slots ram x.machine.world)
    (small : cfg.nvMax < 2 ^ 32) (room : x.machine.world.nvc 0 < cfg.nvMax)
    (named : ∀ clientId uid offset size asset, r = .write clientId uid offset size asset →
      uid ≠ tfmPsInvalidUid)
    (step_eq : x.step cfg crypto (.request r) = some y) :
    ∃ ram' response, y.machine.ram = some ram' ∧ y.log = (r, some response) :: x.log ∧
      Served cfg crypto slots r ram x.machine.world response ram' y.machine.world ∧
      y.machine.world.nvc 0 ≤ cfg.nvMax := by
  obtain ⟨⟨response, ram'⟩, w', eq, served, bounded⟩ :=
    (((serving.arm noFails).serve small rfl room r named).keep (handle_bounded cfg) room.le).run
  simp only [Session.step, run, eq] at step_eq
  cases step_eq
  exact ⟨ram', response, rfl, rfl, served, bounded⟩

/-- A boot in a session, with a table that is stored. -/
theorem Session.step_boot {slots : Slots m} {i : Fin 2} {table : Table Tag m}
    (stored : Stored cfg crypto slots i table x.machine.world)
    (bounded : x.machine.world.nvc 0 ≤ cfg.nvMax) (sane : cfg.Sane)
    (step_eq : x.step cfg crypto .boot = some y) :
    ∃ ram', y.machine.ram = some ram' ∧ y.log = x.log ∧
      Serving cfg crypto slots ram' y.machine.world ∧ ram'.objTable = table ∧
      y.machine.world.tables ram'.activeTable = some table ∧
      (∀ label, y.machine.world.blocksUnder label = x.machine.world.blocksUnder label) ∧
      y.machine.world.nvc 0 ≤ cfg.nvMax := by
  have stored' : Stored cfg crypto slots i table (x.machine.world.arm noFails) :=
    ⟨stored.here, stored.left, stored.tagged, stored.version, stored.iv, stored.gen, stored.gens,
      stored.holds, stored.valid⟩
  have boots : Returns (Op.handle cfg) (tfmPsInit cfg crypto) (fun err ram' w' ↦ err = .success ∧
      Serving cfg crypto slots ram' w' ∧ ram'.objTable = table ∧
      w'.tables ram'.activeTable = some table ∧
      ∀ label, w'.blocksUnder label = x.machine.world.blocksUnder label)
      .reset (x.machine.world.arm noFails) :=
    stored'.returns_boot rfl bounded sane
      fun ram' w' serving same held used ↦ ⟨rfl, serving, same, held, used⟩
  obtain ⟨⟨err, ram'⟩, w', eq, ⟨rfl, serving, same, held, used⟩, bounded'⟩ :=
    (boots.keep (handle_bounded cfg) bounded).run
  simp only [Session.step, execute, eq] at step_eq
  cases step_eq
  exact ⟨ram', rfl, rfl, serving, same, held, used, bounded'⟩

/-- The first boot in a session. -/
theorem Session.step_first_boot (unused : Unused x.machine.world)
    (step_eq : x.step cfg crypto .boot = some y) :
    y.log = x.log ∧ y.machine.world.nvc 0 ≤ cfg.nvMax ∧
      ((∃ ram', y.machine.ram = some ram' ∧ cfg.Sane ∧
        Serving cfg crypto (fun _ ↦ none) ram' y.machine.world ∧
        y.machine.world.tables ram'.activeTable = some ram'.objTable ∧
        ∀ label, y.machine.world.blocksUnder label = x.machine.world.blocksUnder label) ∨
      y.machine.ram = none ∧ (cfg.Sane → Unused y.machine.world ∧
        ∀ label, y.machine.world.blocksUnder label = x.machine.world.blocksUnder label)) := by
  have unused' : Unused (x.machine.world.arm noFails) := ⟨unused.tables, unused.nvc⟩
  have boots : Returns (Op.handle cfg) (tfmPsInit cfg crypto) (fun err ram' w' ↦
      (err = .success ∧ cfg.Sane ∧ Serving cfg crypto (fun _ ↦ none) ram' w' ∧
        w'.tables ram'.activeTable = some ram'.objTable ∧
        ∀ label, w'.blocksUnder label = x.machine.world.blocksUnder label) ∨
      err ≠ .success ∧ (cfg.Sane → Unused w' ∧
        ∀ label, w'.blocksUnder label = x.machine.world.blocksUnder label))
      .reset (x.machine.world.arm noFails) := by
    refine unused'.returns_boot rfl rfl ?_ ?_ ?_
    · exact fun sane ram' w' serving held used ↦ .inl ⟨rfl, sane, serving, held, used⟩
    · exact fun err ram' w' failure _ unused used ↦ .inr ⟨failure, fun _ ↦ ⟨unused, used⟩⟩
    · exact fun err ram' w' failure insane ↦ .inr ⟨failure, fun sane ↦ absurd sane insane⟩
  obtain ⟨⟨err, ram'⟩, w', eq, outcome, bounded'⟩ :=
    (boots.keep (handle_bounded cfg) (unused.nvc.trans_le (Nat.zero_le _))).run
  simp only [Session.step, execute, eq] at step_eq
  cases step_eq
  refine ⟨rfl, bounded', ?_⟩
  rcases outcome with ⟨rfl, sane, serving, held, used⟩ | ⟨failure, unused⟩
  · exact .inl ⟨ram', rfl, sane, serving, held, used⟩
  · refine .inr ⟨?_, unused⟩
    cases err with
    | success => exact absurd rfl failure
    | _ => rfl

/-- No boot succeeds if the check of `ps_system_prepare` fails. -/
theorem Session.step_insane_boot (insane : ¬cfg.Sane) (step_eq : x.step cfg crypto .boot = some y) :
    y.log = x.log ∧ y.machine.ram = none := by
  have prepares : ∀ (ram : Ram Tag m) w, Spec (Op.handle cfg) (fun _ ↦ True)
      (psSystemPrepare cfg crypto) (fun err _ _ ↦ err = .success → cfg.Sane) ram w := by
    intro ram w
    rw [psSystemPrepare, spec_bind]
    refine (spec_true _ ram w).mono fun err ram' w' _ _ ↦ ?_
    split
    · exact ⟨trivial, by rintro ⟨⟩⟩
    · next passed => exact ⟨trivial, fun _ ↦ passed⟩
  have boots : Spec (Op.handle cfg) (fun _ ↦ True) (tfmPsInit cfg crypto)
      (fun err _ _ ↦ err = .success → cfg.Sane) .reset (x.machine.world.arm noFails) := by
    rw [tfmPsInit, spec_bind]
    refine (prepares _ _).mono fun err ram w _ sane ↦ ?_
    split
    · rw [spec_bind]
      refine (spec_true _ ram w).mono fun err ram w _ _ ↦ ?_
      exact spec_onSuccess (fun _ ↦ prepares ram w) fun failure ↦
        ⟨trivial, fun eq ↦ absurd eq failure⟩
    · exact ⟨trivial, sane⟩
  cases step_eq
  refine ⟨rfl, ?_⟩
  rw [Option.eq_none_iff_forall_ne_some]
  intro ram run
  exact insane ((execute_spec boots none).2 _ _ (running_eq_some.1 run) rfl)

end

end TrustedFirmwareM.Ps
