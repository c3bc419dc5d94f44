import TrustedFirmwareM.Ps.Assets

/-!
# The object table of a running system

What the object table and the object files are between any two requests of a session, told without
slots: which entries are in use, what their files hold, and which table is stored.
-/

namespace TrustedFirmwareM.Ps

variable {Tag : Type} {m : ℕ} {cfg : Config} {crypto : Crypto Tag m} {ram : Ram Tag m}
  {w : World Tag m} {assets : Assets}

/-- The entry at an index is in use. -/
def Ram.InUse (ram : Ram Tag m) (idx : Fin (m + 1)) : Prop :=
  (ram.objTable.data.objDb idx).uid ≠ tfmPsInvalidUid

/-- The client and the object of an entry. -/
def Entry.key (entry : Entry Tag) : ℤ × Uid := (entry.clientId, entry.uid)

/-- The file of an entry decrypts to an asset, under the key of the entry. -/
def Entry.Opens (entry : Entry Tag) (crypto : Crypto Tag m) (fid : ℕ) (file : ObjectFile)
    (plain : Payload) : Prop :=
  crypto.decrypt ⟨entry.uid, entry.clientId, file.gen⟩ file.iv (.object fid file.gen) file.cipher
    entry.tag = some plain

/-- The object table stands for the assets of a map, and it is the one that is stored. -/
structure TableInOrder (cfg : Config) (crypto : Crypto Tag m) (ram : Ram Tag m) (w : World Tag m)
    (assets : Assets) : Prop where
  /-- No two entries in use are about the same object of the same client. -/
  distinct : ∀ idx idx', ram.InUse idx → ram.InUse idx' →
    (ram.objTable.data.objDb idx).key = (ram.objTable.data.objDb idx').key → idx = idx'
  /-- The file of an entry in use is there, and decrypts to the asset with sizes that fit. -/
  files : ∀ idx, ram.InUse idx → ∃ file plain, w.objects (psObjectFsId idx) = some file ∧
    (ram.objTable.data.objDb idx).Opens crypto (psObjectFsId idx) file plain ∧
    plain.Valid cfg ∧
    assets (ram.objTable.data.objDb idx).key = some ⟨plain.data, plain.createFlags⟩
  /-- Each asset has an entry. -/
  entries : ∀ key, assets key ≠ none → ∃ idx, ram.InUse idx ∧
    (ram.objTable.data.objDb idx).key = key
  /-- An entry is free. -/
  spare : ∃ idx, ¬ram.InUse idx
  /-- The table in memory is stored, with the tag for the first counter. -/
  stored : ∃ table : Table Tag m, w.tables ram.activeTable = some table ∧
    table.data = ram.objTable.data ∧ table.Tagged cfg crypto (w.nvc 0)
  /-- No other table is stored. -/
  single : w.tables (otherTable ram.activeTable) = none

section

variable {slots : Slots m}

theorem Serving.inUse_iff (serving : Serving cfg crypto slots ram w) {idx : Fin (m + 1)} :
    ram.InUse idx ↔ ∃ s, slots idx = some s := by
  cases here : slots idx with
  | none => simp [Ram.InUse, serving.holds.free idx here]
  | some s =>
      have entry := (serving.holds.used idx s here).uid_eq.1
      simp [Ram.InUse, entry, serving.valid.uid idx s here]

theorem SlotAt.key_eq {db : Fin (m + 1) → Entry Tag} {objects : ℕ → Option ObjectFile}
    {idx : Fin (m + 1)} {s : Slot} (at_idx : SlotAt crypto db objects idx s) :
    (db idx).key = s.key := by
  rw [Entry.key, Slot.key, at_idx.uid_eq.1, at_idx.uid_eq.2]

theorem SlotAt.opens {db : Fin (m + 1) → Entry Tag} {objects : ℕ → Option ObjectFile}
    {idx : Fin (m + 1)} {s : Slot} (at_idx : SlotAt crypto db objects idx s) :
    ∃ file, objects (psObjectFsId idx) = some file ∧
      (db idx).Opens crypto (psObjectFsId idx) file s.plain := by
  obtain ⟨iv, entry, file⟩ := at_idx
  refine ⟨_, file, ?_⟩
  rw [Entry.Opens, entry]
  exact crypto.decrypt_encrypt ..

/-- What the slots say of a running system, said of its table and its files. -/
theorem Serving.inOrder (serving : Serving cfg crypto slots ram w) (shown : Shows slots assets) :
    TableInOrder cfg crypto ram w assets where
  distinct idx idx' used used' same := by
    obtain ⟨s, here⟩ := serving.inUse_iff.1 used
    obtain ⟨s', here'⟩ := serving.inUse_iff.1 used'
    refine serving.valid.key_inj here here' ?_
    rw [← (serving.holds.used idx s here).key_eq, same, (serving.holds.used idx' s' here').key_eq]
  files idx used := by
    obtain ⟨s, here⟩ := serving.inUse_iff.1 used
    have at_idx := serving.holds.used idx s here
    obtain ⟨file, stored, opens⟩ := at_idx.opens
    refine ⟨file, s.plain, stored, opens, serving.valid.plain idx s here, ?_⟩
    rw [at_idx.key_eq, shown.used idx s here, Slot.asset]
  entries key there := by
    obtain ⟨idx, s, here, rfl⟩ := shown.eq_some.1 there
    exact ⟨idx, serving.inUse_iff.2 ⟨s, here⟩, (serving.holds.used idx s here).key_eq⟩
  spare := by
    obtain ⟨idx, free⟩ := serving.valid.free
    refine ⟨idx, fun used ↦ ?_⟩
    obtain ⟨s, here⟩ := serving.inUse_iff.1 used
    rw [free] at here
    cases here
  stored := by
    obtain ⟨table, stored, tagged, data, -, -⟩ := serving.stored
    exact ⟨table, stored, data, tagged⟩
  single := by rw [← serving.scratch, serving.left]

end

/-- Between any two requests of a session in which nothing fails, the object table stands for the
assets that the requests so far have left, and is the one that a boot finds. -/
theorem table_inOrder [Inhabited Tag] (cfg : Config) (crypto : Crypto Tag m)
    (small : cfg.nvMax < 2 ^ 32) (x : Session Tag m)
    (reaches : Run.Reaches (Session.step cfg crypto)
      (fun x event ↦ x.CanCount cfg event ∧ event.FromClient) .start x)
    (ram : Ram Tag m) (runs : x.machine.ram = some ram) :
    TableInOrder cfg crypto ram x.machine.world (Assets.after cfg m (x.log.map Prod.fst)) := by
  have inv : ShowsLog cfg crypto x :=
    reaches.invariant (.inl ⟨rfl, rfl, fun _ ↦ ⟨rfl, rfl⟩⟩)
      fun _ _ _ inv allowed ↦ inv.step small allowed.1 allowed.2
  rcases inv with ⟨stopped, -⟩ | ⟨ram', slots, runs', -, -, serving, shown, -⟩
  · rw [stopped] at runs
    cases runs
  · obtain rfl : ram' = ram := Option.some.inj (runs'.symm.trans runs)
    exact serving.inOrder shown

/-- The storage area is created, and an asset is set. -/
theorem table_inOrder_set :
    ∃ (x : Session Code 1) (ram : Ram Code 1), x.machine.ram = some ram ∧
      (ram.objTable.data.objDb 1).uid = 7 ∧ TableInOrder sampleConfig sampleCrypto ram
        x.machine.world (Assets.after sampleConfig 1 (x.log.map Prod.fst)) := by
  have runs : ((Run.exec (Session.step sampleConfig sampleCrypto) (.start : Session Code 1)
      [.boot, .request (.set 5 7 1 0 [9])]).any fun x ↦ x.machine.ram.any fun ram ↦
        (ram.objTable.data.objDb 1).uid = 7) = true := by
    decide +kernel
  have counts : ((Session.start : Session Code 1).step sampleConfig sampleCrypto .boot).all (fun x ↦
      decide (x.machine.world.nvc 0 < 100)) = true := by
    decide +kernel
  obtain ⟨x, run, held⟩ := (Option.any_eq_true ..).1 runs
  obtain ⟨ram, running, entry⟩ := (Option.any_eq_true ..).1 held
  refine ⟨x, ram, running, of_decide_eq_true entry, table_inOrder sampleConfig sampleCrypto
    (by decide) x (Run.exec_reaches run ⟨⟨trivial, trivial⟩, fun y eq ↦ ⟨⟨?_, rfl⟩,
      fun _ _ ↦ trivial⟩⟩) ram running⟩
  have room : y.machine.world.nvc 0 < 100 :=
    of_decide_eq_true ((Option.all_eq_true ..).1 counts y eq)
  exact room

end TrustedFirmwareM.Ps
