import TrustedFirmwareM.Ps.Requests

/-!
# Boots without faults

A boot finds the objects that are stored, and the first boot of a new storage area finds none.
-/

namespace TrustedFirmwareM.Ps

open Program

variable {Tag : Type} {m : ℕ} {cfg : Config} {crypto : Crypto Tag m}

/-- The storage holds the objects of some slots while the system is off. -/
structure Stored (cfg : Config) (crypto : Crypto Tag m) (slots : Slots m) (i : Fin 2)
    (table : Table Tag m) (w : World Tag m) : Prop where
  /-- The table is stored. -/
  here : w.tables i = some table
  /-- The other file is gone. -/
  left : w.tables (otherTable i) = none
  /-- The tag is the one for the first counter. -/
  tagged : table.Tagged cfg crypto (w.nvc 0)
  /-- The table has the right version. -/
  version : table.data.version = psObjectSystemVersion
  /-- Few initialisation vectors have been used. -/
  iv : table.iv.toNat ≤ 2 * w.nvc 0
  /-- The key generation of the table is small. -/
  gen : table.gen.toNat ≤ w.nvc 0
  /-- The key generations of objects are small. -/
  gens : ∀ idx s, slots idx = some s → s.gen.toNat ≤ w.nvc 0
  /-- The table and the files hold the objects. -/
  holds : Holds crypto table.data.objDb w.objects slots
  /-- The slots are as they should be. -/
  valid : slots.Valid cfg

/-- The check of `ps_system_prepare` passes. -/
def Config.Sane (cfg : Config) : Prop :=
  ¬(cfg.keyUsageLimit ≠ 0 ∧
    (cfg.keyUsageLimit < 2 * psEncryptedObjectBlocks cfg.maxAssetSize ∨
      BitVec.allOnes 32 - cfg.keyUsageLimit < psEncryptedObjectBlocks cfg.maxAssetSize))

section

variable {slots : Slots m} {ram : Ram Tag m} {w : World Tag m}

/-- What is stored while the system runs. -/
theorem Serving.stored_table (serving : Serving cfg crypto slots ram w) :
    ∃ table, Stored cfg crypto slots ram.activeTable table w ∧
      table.data = ram.objTable.data := by
  obtain ⟨table, here, tagged, data, iv, gen⟩ := serving.stored
  refine ⟨table, ⟨here, serving.scratch ▸ serving.left, tagged, ?_, iv, gen, serving.gens, ?_,
    serving.valid⟩, data⟩
  · rw [data, serving.version]
  · rw [data]
    exact serving.holds

theorem not_faulty (works : w.fails = noFails) : ¬w.Faulty := by
  rintro ⟨o, k, -, -, fails⟩
  rw [works] at fails
  cases fails

/-- The table that is stored is taken. -/
theorem Stored.returns_init {Q : Status → Ram Tag m → World Tag m → Prop} {i : Fin 2}
    {table : Table Tag m} (stored : Stored cfg crypto slots i table w) (works : w.fails = noFails)
    (bounded : w.nvc 0 ≤ cfg.nvMax)
    (after : ∀ ram' w', Serving cfg crypto slots ram' w' → ram'.objTable = table →
      w'.tables ram'.activeTable = some table →
      (∀ label, w'.blocksUnder label = w.blocksUnder label) → Q .success ram' w') :
    Returns (Op.handle cfg) (psObjectTableInit cfg crypto) Q ram w := by
  have reliable := not_faulty works
  have chosen : w.chosen cfg crypto = some (i, table) := by
    refine chooseTable_of_current stored.tagged stored.version ?_ fun nvc3 ↦ ?_
    · rw [w.readTable_ite, World.readTable_of_some stored.here]
    · rw [w.readTable_ite_other, World.readTable, stored.left]
      rintro ⟨⟩
  have held : (w.removed (otherTable i)).tables i = some table := by
    rw [← stored.here]
    exact Function.update_of_ne (otherTable_ne i).symm ..
  have spec : Spec (Op.handle cfg) (fun _ ↦ True) (psObjectTableInit cfg crypto) Q ram w := by
    refine spec_init (fun _ ↦ trivial) ?_ ?_
    · rintro err k ne (fault | none)
      · exact absurd fault reliable
      · cases chosen.symm.trans none
    · intro result0 result1 active table' read0 read1 choose
      rw [reads_eq reliable read0, reads_eq reliable read1] at choose
      cases chosen.symm.trans choose
      refine ⟨fun k fault ↦ absurd fault reliable, fun _ _ _ _ _ ↦ trivial, fun i j k fault ↦ ?_,
        fun k ↦ after _ _ ?_ rfl ?_ fun _ ↦ rfl⟩
      · exact fault.elim (fun fault ↦ absurd fault reliable) fun full ↦
          absurd bounded (Nat.not_le.2 full)
      · refine ⟨rfl, ⟨table, held, stored.tagged, rfl, stored.iv, stored.gen⟩,
          Function.update_self .., stored.version, stored.iv, stored.gen, stored.gens, stored.holds,
          stored.valid⟩
      · exact held
  exact spec.returns (total_psObjectTableInit cfg crypto)

/-- The storage area has no table, and nothing has been counted. -/
structure Unused (w : World Tag m) : Prop where
  /-- No table is stored. -/
  tables : w.tables = fun _ ↦ none
  /-- The first counter has not counted. -/
  nvc : w.nvc 0 = 0

theorem Unused.returns_init {Q : Status → Ram Tag m → World Tag m → Prop} (unused : Unused w)
    (works : w.fails = noFails)
    (after : ∀ err w', err ≠ .success → Unused w' → w'.fails = noFails →
      (∀ label, w'.blocksUnder label = w.blocksUnder label) → Q err ram w') :
    Returns (Op.handle cfg) (psObjectTableInit cfg crypto) Q ram w := by
  have reliable := not_faulty works
  have spec : Spec (Op.handle cfg) (fun _ ↦ True) (psObjectTableInit cfg crypto) Q ram w := by
    refine spec_init (fun _ ↦ trivial) ?_ ?_
    · exact fun err k ne _ ↦ after err _ ne ⟨unused.tables, unused.nvc⟩ works fun _ ↦ rfl
    · intro result0 result1 active table read0 read1 choose
      rw [reads_eq reliable read0, reads_eq reliable read1] at choose
      obtain ⟨read, -⟩ := chooseTable_eq_some choose
      rw [w.readTable_ite, World.readTable, unused.tables] at read
      cases read
  exact spec.returns (total_psObjectTableInit cfg crypto)

/-- `ps_system_prepare` without a table. -/
theorem Unused.returns_prepare {Q : Status → Ram Tag m → World Tag m → Prop} (unused : Unused w)
    (works : w.fails = noFails)
    (after : ∀ err w', err ≠ .success → Unused w' → w'.fails = noFails →
      (∀ label, w'.blocksUnder label = w.blocksUnder label) → Q err ram w') :
    Returns (Op.handle cfg) (psSystemPrepare cfg crypto) Q ram w := by
  rw [psSystemPrepare, returns_bind]
  refine unused.returns_init works fun err w' failure unused' works' used ↦ ?_
  split
  · exact after .genericError w' (by rintro ⟨⟩) unused' works' used
  · exact after err w' failure unused' works' used

/-- `ps_system_prepare` with a table that is stored. -/
theorem Stored.returns_prepare {Q : Status → Ram Tag m → World Tag m → Prop} {i : Fin 2}
    {table : Table Tag m} (stored : Stored cfg crypto slots i table w) (works : w.fails = noFails)
    (bounded : w.nvc 0 ≤ cfg.nvMax)
    (after : ∀ ram' w', Serving cfg crypto slots ram' w' → ram'.objTable = table →
      w'.tables ram'.activeTable = some table →
      (∀ label, w'.blocksUnder label = w.blocksUnder label) → cfg.Sane → Q .success ram' w')
    (insane : ∀ ram' w', ¬cfg.Sane → Q .genericError ram' w') :
    Returns (Op.handle cfg) (psSystemPrepare cfg crypto) Q ram w := by
  rw [psSystemPrepare, returns_bind]
  refine stored.returns_init works bounded fun ram' w' serving same held used ↦ ?_
  split
  · next refused => exact insane ram' w' fun sane ↦ sane refused
  · next passed => exact after ram' w' serving same held used passed

variable [Inhabited Tag]

/-- A new storage area is created. -/
theorem Unused.returns_wipeAll {Q : Status → Ram Tag m → World Tag m → Prop} (unused : Unused w)
    (works : w.fails = noFails) (zero : ram.ivBuf = .zero)
    (after : ∀ ram' w', Serving cfg crypto (fun _ ↦ none) ram' w' →
      w'.tables ram'.activeTable = some ram'.objTable → w'.nvc 0 = 1 → w'.fails = noFails →
      (∀ label, w'.blocksUnder label = w.blocksUnder label) → Q .success ram' w') :
    Returns (Op.handle cfg) (psSystemWipeAll cfg crypto) Q ram w := by
  rw [psSystemWipeAll, psObjectTableCreate, returns_bind, returns_modify]
  have room : w.nvc 0 < cfg.nvMax := by
    rw [unused.nvc]
    exact cfg.nvMax_pos
  have get : psCryptoGetIv ram.ivBuf = some ⟨1, 0⟩ := by
    rw [zero]
    rfl
  refine returns_saveTable works room get rfl fun ram' w' saved ↦ ?_
  have count : w'.nvc 0 = 1 := by rw [saved.nvc, unused.nvc]
  have left : w'.tables ram'.scratchTable = none := saved.left.trans (congrFun unused.tables _)
  have ivBuf : ram'.ivBuf.toNat = 1 := by
    rw [saved.ivBuf]
    change Iv.toNat ram.ivBuf + 1 = 1
    rw [zero]
    rfl
  have gen : ram'.objTable.gen = 0 := saved.gen
  refine after ram' w' ?_ saved.stored count (saved.fails.trans works) saved.blocksUnder
  constructor
  case scratch =>
    rw [saved.scratch, saved.active]
    rfl
  case stored =>
    refine ⟨_, saved.stored, saved.tagged, rfl, ?_, ?_⟩
    · rw [saved.tableIv, ivBuf, count]
      decide
    · rw [gen]
      exact Nat.zero_le _
  case left => exact left
  case version =>
    rw [saved.data]
  case ivBuf =>
    rw [ivBuf, count]
    decide
  case gen =>
    rw [gen]
    exact Nat.zero_le _
  case gens => rintro _ _ ⟨⟩
  case holds =>
    rw [saved.data]
    exact ⟨(by rintro _ _ ⟨⟩), fun _ _ ↦ rfl⟩
  case valid => exact ⟨(by rintro _ _ ⟨⟩), (by rintro _ _ ⟨⟩), (by rintro _ _ _ _ ⟨⟩), ⟨0, rfl⟩⟩

/-- A boot finds what is stored. -/
theorem Stored.returns_boot {Q : Status → Ram Tag m → World Tag m → Prop} {i : Fin 2}
    {table : Table Tag m} (stored : Stored cfg crypto slots i table w) (works : w.fails = noFails)
    (bounded : w.nvc 0 ≤ cfg.nvMax) (sane : cfg.Sane)
    (after : ∀ ram' w', Serving cfg crypto slots ram' w' → ram'.objTable = table →
      w'.tables ram'.activeTable = some table →
      (∀ label, w'.blocksUnder label = w.blocksUnder label) → Q .success ram' w') :
    Returns (Op.handle cfg) (tfmPsInit cfg crypto) Q ram w := by
  rw [tfmPsInit, returns_bind]
  refine stored.returns_prepare works bounded (fun ram' w' serving same held used _ ↦ ?_)
    fun _ _ insane ↦ absurd sane insane
  rw [if_neg fun failed ↦ failed.2 rfl]
  exact after ram' w' serving same held used

/-- The first boot creates the storage area, if it may. -/
theorem Unused.returns_boot {Q : Status → Ram Tag m → World Tag m → Prop} (unused : Unused w)
    (works : w.fails = noFails) (zero : ram.ivBuf = .zero)
    (created : cfg.Sane → ∀ ram' w', Serving cfg crypto (fun _ ↦ none) ram' w' →
      w'.tables ram'.activeTable = some ram'.objTable →
      (∀ label, w'.blocksUnder label = w.blocksUnder label) → Q .success ram' w')
    (refused : ∀ err ram' w', err ≠ .success → cfg.Sane → Unused w' →
      (∀ label, w'.blocksUnder label = w.blocksUnder label) → Q err ram' w')
    (insane : ∀ err ram' w', err ≠ .success → ¬cfg.Sane → Q err ram' w') :
    Returns (Op.handle cfg) (tfmPsInit cfg crypto) Q ram w := by
  rw [tfmPsInit, returns_bind]
  refine unused.returns_prepare works fun err w₁ failure unused₁ works₁ used ↦ ?_
  split
  · rw [returns_bind]
    refine unused₁.returns_wipeAll works₁ zero fun ram₂ w₂ serving₂ _ count works₂ used₂ ↦ ?_
    rw [onSuccess, if_pos rfl]
    obtain ⟨table, stored, -⟩ := serving₂.stored_table
    refine stored.returns_prepare works₂ (count.trans_le cfg.nvMax_pos)
      (fun ram₃ w₃ serving₃ same held used₃ sane ↦ ?_) fun ram₃ w₃ insane' ↦ ?_
    · exact created sane ram₃ w₃ serving₃ (same ▸ held) fun label ↦ by rw [used₃, used₂, used]
    · exact insane _ ram₃ w₃ (by rintro ⟨⟩) insane'
  · by_cases sane : cfg.Sane
    · exact refused err ram w₁ failure sane unused₁ used
    · exact insane err ram w₁ failure sane

end

end TrustedFirmwareM.Ps
