import TrustedFirmwareM.Ps.Faultless

/-!
# The storage between requests

Without faults the storage holds the objects of some slots between any two requests, and the ends of
the functions behind the requests lead there again.
-/

namespace TrustedFirmwareM.Ps

open Program

variable {Tag : Type} {m : ℕ} {cfg : Config} {crypto : Crypto Tag m}

/-! ## The storage between requests -/

/-- The storage holds the objects of some slots, and the table in memory is the one that is stored.
Each save of the table counts the first counter and uses at most two initialisation vectors and one
key generation. -/
structure Serving (cfg : Config) (crypto : Crypto Tag m) (slots : Slots m) (ram : Ram Tag m)
    (w : World Tag m) : Prop where
  /-- The two files are different. -/
  scratch : ram.scratchTable = otherTable ram.activeTable
  /-- The table is stored, up to the key generation. -/
  stored : ∃ table : Table Tag m, w.tables ram.activeTable = some table ∧
    table.Tagged cfg crypto (w.nvc 0) ∧ table.data = ram.objTable.data ∧
    table.iv.toNat ≤ 2 * w.nvc 0 ∧ table.gen.toNat ≤ w.nvc 0
  /-- The other file is gone. -/
  left : w.tables ram.scratchTable = none
  /-- The table has the right version. -/
  version : ram.objTable.data.version = psObjectSystemVersion
  /-- Few initialisation vectors have been used. -/
  ivBuf : ram.ivBuf.toNat ≤ 2 * w.nvc 0
  /-- The key generation of the table is small. -/
  gen : ram.objTable.gen.toNat ≤ w.nvc 0
  /-- The key generations of objects are small. -/
  gens : ∀ idx s, slots idx = some s → s.gen.toNat ≤ w.nvc 0
  /-- The table and the files hold the objects. -/
  holds : Holds crypto ram.objTable.data.objDb w.objects slots
  /-- The slots are as they should be. -/
  valid : slots.Valid cfg

theorem Serving.congr {slots : Slots m} {ram ram' : Ram Tag m} {w w' : World Tag m}
    (serving : Serving cfg crypto slots ram w) (objTable : ram'.objTable = ram.objTable)
    (active : ram'.activeTable = ram.activeTable) (scratch : ram'.scratchTable = ram.scratchTable)
    (ivBuf : ram'.ivBuf = ram.ivBuf) (tables : w'.tables = w.tables) (nvc : w'.nvc = w.nvc)
    (objects : ∀ idx, slots idx ≠ none →
      w'.objects (psObjectFsId idx) = w.objects (psObjectFsId idx)) :
    Serving cfg crypto slots ram' w' where
  scratch := by rw [scratch, active, serving.scratch]
  stored := by
    rw [tables, active, nvc, objTable]
    exact serving.stored
  left := by rw [tables, scratch, serving.left]
  version := by rw [objTable, serving.version]
  ivBuf := by
    rw [ivBuf, nvc]
    exact serving.ivBuf
  gen := by
    rw [objTable, nvc]
    exact serving.gen
  gens := by
    rw [nvc]
    exact serving.gens
  holds := by
    rw [objTable]
    refine ⟨fun idx s here ↦ ?_, serving.holds.free⟩
    obtain ⟨iv, entry, file⟩ := serving.holds.used idx s here
    exact ⟨iv, entry, (objects idx (by rw [here]; rintro ⟨⟩)).trans file⟩
  valid := serving.valid

/-- An initialisation vector is left. -/
theorem exists_psCryptoGetIv {iv : Iv} (small : iv.toNat + 1 < 2 ^ 96) :
    ∃ next, psCryptoGetIv iv = some next := by
  simp only [Iv.toNat] at small
  simp only [psCryptoGetIv]
  split
  · next low =>
      split
      · next high =>
          have high : iv.high.toNat = 2 ^ 32 - 1 := by bv_omega
          have low : iv.low.toNat = 2 ^ 64 - 1 := by bv_omega
          omega
      · exact ⟨_, rfl⟩
  · exact ⟨_, rfl⟩

/-! ## Putting an object into a slot -/

/-- An object leaves one slot, if it has been in one, and is put into another. -/
def Slots.put (slots : Slots m) (old : Option (Fin (m + 1))) (new : Fin (m + 1))
    (s : Slot) : Slots m :=
  Function.update (match old with
    | some old => Function.update slots old none
    | none => slots) new (some s)

theorem Slots.put_self (slots : Slots m) (idx : Fin (m + 1)) (s : Slot) :
    slots.put (some idx) idx s = Function.update slots idx (some s) :=
  Function.update_idem ..

theorem Slots.put_new (slots : Slots m) (old : Option (Fin (m + 1)))
    (new : Fin (m + 1)) (s : Slot) :
    slots.put old new s new = some s :=
  Function.update_self ..

theorem Slots.put_of_ne (slots : Slots m) (old : Option (Fin (m + 1))) {new idx : Fin (m + 1)}
    (s : Slot) (ne : idx ≠ new) :
    old = some idx ∧ slots.put old new s idx = none ∨
      old ≠ some idx ∧ slots.put old new s idx = slots idx := by
  rw [Slots.put.eq_def, Function.update_of_ne ne]
  cases old with
  | none => exact .inr ⟨(by rintro ⟨⟩), rfl⟩
  | some old =>
      rcases eq_or_ne idx old with rfl | other
      · exact .inl ⟨rfl, Function.update_self ..⟩
      · refine .inr ⟨?_, Function.update_of_ne other ..⟩
        rintro ⟨⟩
        exact other rfl

theorem Slots.Valid.put {slots : Slots m} {old : Option (Fin (m + 1))}
    {new : Fin (m + 1)} {s : Slot}
    (valid : slots.Valid cfg) (uid : s.uid ≠ tfmPsInvalidUid) (plain : s.plain.Valid cfg)
    (only : ∀ idx s', slots idx = some s' → s'.uid = s.uid → s'.clientId = s.clientId →
      old = some idx)
    (free : ∃ idx, idx ≠ new ∧ (slots idx = none ∨ old = some idx)) :
    (slots.put old new s).Valid cfg := by
  have cases : ∀ idx s', slots.put old new s idx = some s' →
      idx = new ∧ s' = s ∨ idx ≠ new ∧ old ≠ some idx ∧ slots idx = some s' := by
    intro idx s' here
    rcases eq_or_ne idx new with rfl | ne
    · rw [Slots.put_new] at here
      exact .inl ⟨rfl, (Option.some.inj here).symm⟩
    · rcases slots.put_of_ne old s ne with ⟨-, gone⟩ | ⟨other, same⟩
      · rw [gone] at here
        cases here
      · exact .inr ⟨ne, other, same ▸ here⟩
  constructor
  case uid =>
    intro idx s' here
    rcases cases idx s' here with ⟨-, rfl⟩ | ⟨-, -, before⟩
    · exact uid
    · exact valid.uid idx s' before
  case plain =>
    intro idx s' here
    rcases cases idx s' here with ⟨-, rfl⟩ | ⟨-, -, before⟩
    · exact plain
    · exact valid.plain idx s' before
  case unique =>
    intro idx idx' s₁ s₂ here here' uid_eq clientId_eq
    rcases cases idx s₁ here with ⟨rfl, rfl⟩ | ⟨-, other, before⟩
    · rcases cases idx' s₂ here' with ⟨rfl, rfl⟩ | ⟨-, other', before'⟩
      · rfl
      · exact absurd (only idx' s₂ before' uid_eq.symm clientId_eq.symm) other'
    · rcases cases idx' s₂ here' with ⟨rfl, rfl⟩ | ⟨-, -, before'⟩
      · exact absurd (only idx s₁ before uid_eq clientId_eq) other
      · exact valid.unique idx idx' s₁ s₂ before before' uid_eq clientId_eq
  case free =>
    obtain ⟨idx, ne, empty⟩ := free
    refine ⟨idx, ?_⟩
    rcases slots.put_of_ne old s ne with ⟨-, gone⟩ | ⟨other, same⟩
    · exact gone
    · exact same.trans (empty.resolve_right other)

section

variable [Inhabited Tag] {slots : Slots m} {ram : Ram Tag m} {w : World Tag m}

theorem updatedDb_new (db : Fin (m + 1) → Entry Tag) (old : Option (Fin (m + 1)))
    (new : Fin (m + 1))
    (entry : Entry Tag) : updatedDb db old new entry new = entry := by
  cases old <;> exact Function.update_self ..

theorem updatedDb_of_ne {db : Fin (m + 1) → Entry Tag} {old : Option (Fin (m + 1))}
    {new idx : Fin (m + 1)} {entry : Entry Tag} (ne : idx ≠ new) :
    updatedDb db old new entry idx = if old = some idx then .empty else db idx := by
  cases old with
  | none => exact Function.update_of_ne ne ..
  | some old =>
      rw [updatedDb, Function.update_of_ne ne]
      rcases eq_or_ne idx old with rfl | other
      · rw [Function.update_self, if_pos rfl]
      · rw [Function.update_of_ne other, if_neg]
        rintro ⟨⟩
        exact other rfl

/-- The table and the files after an object has been put into a slot. -/
theorem Holds.put {db : Fin (m + 1) → Entry Tag} {objects objects' : ℕ → Option ObjectFile}
    (holds : Holds crypto db objects slots) {old : Option (Fin (m + 1))}
    {new : Fin (m + 1)} {s : Slot}
    {entry : Entry Tag} (here : SlotAt crypto (updatedDb db old new entry) objects' new s)
    (others : ∀ idx, idx ≠ new → objects' (psObjectFsId idx) = objects (psObjectFsId idx)) :
    Holds crypto (updatedDb db old new entry) objects' (slots.put old new s) := by
  constructor
  case used =>
    intro idx s' used
    rcases eq_or_ne idx new with rfl | ne
    · rw [Slots.put_new] at used
      cases used
      exact here
    · rcases slots.put_of_ne old s ne with ⟨-, gone⟩ | ⟨other, same⟩
      · cases used.symm.trans gone
      · obtain ⟨iv, entry, file⟩ := holds.used idx s' (same.symm.trans used)
        refine ⟨iv, ?_, (others idx ne).trans file⟩
        rw [updatedDb_of_ne ne, if_neg other, entry]
  case free =>
    intro idx empty
    rcases eq_or_ne idx new with rfl | ne
    · rw [Slots.put_new] at empty
      cases empty
    · rw [updatedDb_of_ne ne]
      rcases slots.put_of_ne old s ne with ⟨left, -⟩ | ⟨other, same⟩
      · rw [if_pos left]
        rfl
      · rw [if_neg other]
        exact holds.free idx (same.symm.trans empty)

/-- The memory with another key generation of the table. -/
def Ram.withGen (ram : Ram Tag m) (gen : Word) : Ram Tag m :=
  { ram with objTable := { ram.objTable with gen := gen } }

omit [Inhabited Tag] in
/-- The table has been saved, for other slots. -/
theorem Serving.saved (serving : Serving cfg crypto slots ram w) {slots' : Slots m}
    {ram₁ ram' : Ram Tag m} {w₁ w' : World Tag m} (saved : Saved cfg crypto none ram₁ w₁ ram' w')
    (active : ram₁.activeTable = ram.activeTable) (scratch : ram₁.scratchTable = ram.scratchTable)
    (nvc : w₁.nvc = w.nvc) (ivBuf : ram₁.ivBuf.toNat ≤ ram.ivBuf.toNat + 1)
    (version : ram₁.objTable.data.version = ram.objTable.data.version)
    (tableGen : ram₁.objTable.gen = ram.objTable.gen) {gen : Word} (le : gen.toNat ≤ w.nvc 0 + 1)
    (gens : ∀ idx s, slots' idx = some s → s.gen.toNat ≤ w.nvc 0 + 1)
    (holds : Holds crypto ram₁.objTable.data.objDb w'.objects slots') (valid : slots'.Valid cfg) :
    Serving cfg crypto slots' (ram'.withGen gen) w' := by
  have count : w'.nvc 0 = w.nvc 0 + 1 := by rw [saved.nvc, nvc]
  have ivBuf' := saved.ivBuf
  have before := serving.ivBuf
  have gen_le := serving.gen
  constructor
  case scratch =>
    change ram'.scratchTable = otherTable ram'.activeTable
    rw [saved.scratch, saved.active, active, scratch, serving.scratch, otherTable_otherTable]
  case stored =>
    refine ⟨ram'.objTable, saved.stored, saved.tagged, rfl, ?_, ?_⟩
    · rw [saved.tableIv]
      omega
    · rw [saved.gen, tableGen, count]
      omega
  case left => exact saved.left
  case version =>
    change ram'.objTable.data.version = _
    rw [saved.data, version, serving.version]
  case ivBuf =>
    change ram'.ivBuf.toNat ≤ _
    omega
  case gen => exact count ▸ le
  case gens => exact count ▸ gens
  case holds =>
    change Holds crypto ram'.objTable.data.objDb _ _
    rwa [saved.data]
  case valid => exact valid

/-- The table is updated with an object that has been stored. -/
theorem Serving.returns_updateTable {Q : Status → Ram Tag m → World Tag m → Prop}
    (serving : Serving cfg crypto slots ram w) (small : cfg.nvMax < 2 ^ 32)
    (works : w.fails = noFails)
    (room : w.nvc 0 < cfg.nvMax) {ram₂ : Ram Tag m} {w₂ : World Tag m} {old : Option (Fin (m + 1))}
    {new : Fin (m + 1)} {s : Slot} {uid : Uid} {clientId : ℤ} (uid_eq : s.uid = uid)
    (clientId_eq : s.clientId = clientId) (storing : Storing (psObjectFsId new) ram w ram₂ w₂)
    (here : Sealed crypto (psObjectFsId new) s ram₂ w₂) (numBlocks : ram₂.numBlocks = s.numBlocks)
    (found : psGetObjectEntryIdx ram.objTable.data.objDb uid clientId = old)
    (gen : s.gen.toNat ≤ w.nvc 0 + 1) (valid : (slots.put old new s).Valid cfg)
    (after : ∀ ram' w', Serving cfg crypto (slots.put old new s) ram' w' →
      ram'.objTable.gen = ram.objTable.gen → w'.fails = w₂.fails → w'.objects = w₂.objects →
      (∀ label, w'.blocksUnder label = w₂.blocksUnder label) → Q .success ram' w') :
    Returns (Op.handle cfg) (psUpdateTable cfg crypto uid clientId) Q ram₂ w₂ := by
  subst uid_eq clientId_eq
  obtain ⟨table, stored, -, -, -, -⟩ := serving.stored
  have ivBuf := storing.ivBuf
  have ivBuf' := serving.ivBuf
  obtain ⟨iv, get⟩ : ∃ iv, psCryptoGetIv ram₂.ivBuf = some iv := exists_psCryptoGetIv (by omega)
  have nvc : w₂.nvc = w.nvc := storing.between.nvc
  have tableGen : ram₂.objTable.gen = ram.objTable.gen := congrArg Table.gen storing.objTable
  refine Ps.returns_updateTable (storing.between.fails.trans works) (by rwa [nvc]) get
    (by rw [storing.scratch, storing.active, serving.scratch])
    (by rw [storing.between.tables, storing.active]; exact stored) storing.fid
    fun ram' w' saved ↦ after ram' w' ?_ (saved.gen.trans tableGen)
      saved.fails saved.objects saved.blocksUnder
  rw [storing.objTable, found] at saved
  refine serving.saved saved storing.active storing.scratch nvc storing.ivBuf
    (congrArg (fun table ↦ table.data.version) storing.objTable) tableGen
    ?_ (fun idx s' used ↦ ?_) ?_ valid
  · rw [saved.gen.trans tableGen]
    exact Nat.le_succ_of_le serving.gen
  · rcases eq_or_ne idx new with rfl | ne
    · rw [Slots.put_new] at used
      cases used
      exact gen
    · rcases slots.put_of_ne old s ne with ⟨-, gone⟩ | ⟨-, same⟩
      · cases used.symm.trans gone
      · exact Nat.le_succ_of_le (serving.gens idx s' (same.symm.trans used))
  · obtain ⟨iv, tag, file⟩ := here
    rw [saved.objects]
    refine serving.holds.put ⟨iv, ?_, file⟩ fun idx ne ↦ storing.objects _ ?_
    · rw [updatedDb_new, tag, numBlocks]
    · exact fun same ↦ ne (psObjectFsId_inj.1 same)

end

/-! ## Reading an object -/

/-- The memory after an entry has been looked up. -/
def Ram.found (ram : Ram Tag m) (idx : Fin (m + 1)) : Ram Tag m :=
  { ram with
    fid := psObjectFsId idx
    object := { ram.object with tag := (ram.objTable.data.objDb idx).tag }
    numBlocks := (ram.objTable.data.objDb idx).numBlocks }

/-- The object in a slot has been read, and the memory holds `plain` instead of it. -/
structure HasRead (cfg : Config) (crypto : Crypto Tag m) (idx : Fin (m + 1)) (s : Slot)
    (plain : Payload) (ram : Ram Tag m) (w : World Tag m) (ram' : Ram Tag m) (w' : World Tag m) :
    Prop where
  /-- The memory and the storage are as before, apart from the object. -/
  storing : Storing (psObjectFsId idx) ram w ram' w'
  /-- No initialisation vector has been used. -/
  ivBuf : ram'.ivBuf = ram.ivBuf
  /-- Same object files. -/
  objects : w'.objects = w.objects
  /-- The key of the object. -/
  label : ram'.object.label = s.label
  /-- The object in memory. -/
  payload : ram'.object.payload = plain
  /-- The blocks have been counted. -/
  numBlocks : ram'.numBlocks = (s.read cfg).numBlocks
  /-- The tag of the object. -/
  here : Sealed crypto (psObjectFsId idx) s ram' w'
  /-- The object has been decrypted. -/
  blocksUnder : ∀ label, w'.blocksUnder label = w.blocksUnder label + s.blocksUnder label

section

variable {slots : Slots m} {ram : Ram Tag m} {w : World Tag m}

theorem Serving.returns_lookup {Q : Status → Ram Tag m → World Tag m → Prop}
    (serving : Serving cfg crypto slots ram w) {uid : Uid} {clientId : ℤ}
    (uid_ne : uid ≠ tfmPsInvalidUid)
    (absent : slots.Lacks uid clientId →
      psGetObjectEntryIdx ram.objTable.data.objDb uid clientId = none → Q .doesNotExist ram w)
    (found : ∀ idx s, slots idx = some s → s.uid = uid → s.clientId = clientId →
      psGetObjectEntryIdx ram.objTable.data.objDb uid clientId = some idx →
      Q .success (ram.found idx) w) :
    Returns (Op.handle cfg) (psObjectTableGetObjTblInfo uid clientId) Q ram w := by
  rw [psObjectTableGetObjTblInfo, returns_bind, returns_get]
  rcases serving.holds.find uid_ne clientId with
    ⟨idx, s, here, uid_eq, clientId_eq, eq⟩ | ⟨lacks, eq⟩
  · have found := found idx s here uid_eq clientId_eq eq
    simp only [eq]
    rw [returns_bind, returns_modify]
    exact found
  · have absent := absent lacks eq
    simp only [eq]
    exact absent

theorem Serving.returns_read {Q : Status × Word → Ram Tag m → World Tag m → Prop}
    (serving : Serving cfg crypto slots ram w) (works : w.fails = noFails)
    {idx : Fin (m + 1)} {s : Slot}
    (here : slots idx = some s)
    (after : ∀ ram' w', HasRead cfg crypto idx s s.plain ram w ram' w' →
      Q (.success, s.plain.blocks) ram' w') :
    Returns (Op.handle cfg) (readObject cfg crypto s.uid s.clientId) Q (ram.found idx) w := by
  obtain ⟨iv', entry, file⟩ := serving.holds.used idx s here
  refine returns_readObject works (serving.holds.used idx s here)
    (serving.valid.plain idx s here) rfl rfl ?_
    fun iv w' between objects used ↦
      after _ _ ⟨⟨rfl, rfl, rfl, rfl, Nat.le_succ _, between, ?_⟩, rfl,
      objects, rfl, rfl, rfl, ⟨iv', ?_, objects ▸ file⟩, used⟩
  · change (ram.objTable.data.objDb idx).numBlocks = s.numBlocks
    rw [entry]
  · exact fun _ _ ↦ by rw [objects]
  · change (ram.objTable.data.objDb idx).tag = _
    rw [entry]

/-- An object that has been read is stored again. -/
theorem HasRead.then {idx new : Fin (m + 1)} {s : Slot} {plain : Payload} {ram₁ ram₂ : Ram Tag m}
    {w₁ w₂ : World Tag m} (read : HasRead cfg crypto idx s plain ram w ram₁ w₁)
    (storing : Storing (psObjectFsId new) ram₁ w₁ ram₂ w₂) :
    Storing (psObjectFsId new) ram w ram₂ w₂ where
  objTable := storing.objTable.trans read.storing.objTable
  active := storing.active.trans read.storing.active
  scratch := storing.scratch.trans read.storing.scratch
  fid := storing.fid
  ivBuf := read.ivBuf ▸ storing.ivBuf
  between := read.storing.between.trans storing.between
  objects := fun other ne ↦ (storing.objects other ne).trans (congrFun read.objects other)

/-- The memory with another payload. -/
def Ram.withPayload (ram : Ram Tag m) (plain : Payload) : Ram Tag m :=
  { ram with object := { ram.object with payload := plain } }

theorem HasRead.withPayload {idx : Fin (m + 1)} {s : Slot} {plain : Payload} {ram₁ : Ram Tag m}
    {w₁ : World Tag m} (read : HasRead cfg crypto idx s plain ram w ram₁ w₁) (plain' : Payload) :
    HasRead cfg crypto idx s plain' ram w (ram₁.withPayload plain') w₁ where
  storing := ⟨read.storing.objTable, read.storing.active, read.storing.scratch, read.storing.fid,
    read.storing.ivBuf, read.storing.between, read.storing.objects⟩
  ivBuf := read.ivBuf
  objects := read.objects
  label := read.label
  payload := rfl
  numBlocks := read.numBlocks
  here := read.here
  blocksUnder := read.blocksUnder

end

/-! ## The next slot -/

/-- A slot holds an object of the same client, under the same key or the next one. -/
structure Slot.Next (cfg : Config) (s s' : Slot) : Prop where
  /-- Same identifier. -/
  uid : s'.uid = s.uid
  /-- Same owner. -/
  clientId : s'.clientId = s.clientId
  /-- At most one key further. -/
  gen : s'.gen.toNat ≤ s.gen.toNat + 1
  /-- The sizes fit together. -/
  plain : s'.plain.Valid cfg

theorem Slot.Next.rekey {s : Slot} {plain : Payload} (valid : plain.Valid cfg) :
    s.Next cfg (s.rekey plain) := by
  refine ⟨rfl, rfl, ?_, valid⟩
  change (s.gen + 1).toNat ≤ _
  rw [BitVec.toNat_add]
  exact Nat.mod_le _ _

theorem Slot.Next.read {s : Slot} (valid : s.plain.Valid cfg) : s.Next cfg (s.read cfg) :=
  ⟨rfl, rfl, Nat.le_succ _, valid⟩

theorem Slot.Next.switchKeys {s : Slot} {plain : Payload} (valid : s.plain.Valid cfg)
    (valid' : plain.Valid cfg) : s.Next cfg ((s.read cfg).switchKeys cfg plain) := by
  rw [Slot.switchKeys]
  split
  · have next := Slot.Next.rekey (s := s.read cfg) valid'
    exact ⟨next.uid, next.clientId, next.gen, next.plain⟩
  · exact .read valid

theorem Slot.Next.store {s : Slot} {plain : Payload} (valid : plain.Valid cfg) :
    s.Next cfg (s.store cfg plain) := by
  rw [Slot.store]
  split
  · exact ⟨rfl, rfl, Nat.le_succ _, valid⟩
  · split
    · exact .rekey valid
    · exact ⟨rfl, rfl, Nat.le_succ _, valid⟩

theorem Slot.read_of_unlimited {s : Slot} (unlimited : cfg.keyUsageLimit = 0) : s.read cfg = s := by
  rw [Slot.read, if_pos unlimited]

theorem Slot.switchKeys_of_unlimited {s : Slot} (unlimited : cfg.keyUsageLimit = 0)
    (plain : Payload) : s.switchKeys cfg plain = s :=
  if_neg fun limited ↦ limited.1 unlimited

/-- A slot after its object has been read and the request has failed. -/
def Slot.failed (cfg : Config) (s : Slot) (switchKeys : Bool) (plain : Payload) : Slot :=
  if switchKeys then (s.read cfg).switchKeys cfg plain else s.read cfg

/-! ## The end of a request -/

section

variable {slots : Slots m} {ram : Ram Tag m} {w : World Tag m}

theorem Exit.removeOldFile_of_failure (exit : Exit) {err : Status} (failure : err ≠ .success) :
    (exit.removeOldFile err : PsM Tag m Status) = pure err := by
  rw [Exit.removeOldFile]
  split
  · exact if_neg failure
  · rfl

/-- Storing an object leaves enough initialisation vectors. -/
theorem Serving.exists_iv (serving : Serving cfg crypto slots ram w) (small : cfg.nvMax < 2 ^ 32)
    (room : w.nvc 0 < cfg.nvMax) : ∃ iv, psCryptoGetIv ram.ivBuf = some iv := by
  have := serving.ivBuf
  exact exists_psCryptoGetIv (by omega)

/-- Another key is left after a small generation. -/
theorem gen_ne_allOnes {gen : Word} (le : gen.toNat ≤ w.nvc 0) (small : cfg.nvMax < 2 ^ 32)
    (room : w.nvc 0 < cfg.nvMax) : gen ≠ BitVec.allOnes 32 := by
  rintro rfl
  simp at le
  omega

theorem Serving.gen_ne {idx : Fin (m + 1)} {s : Slot} (serving : Serving cfg crypto slots ram w)
    (small : cfg.nvMax < 2 ^ 32) (room : w.nvc 0 < cfg.nvMax) (here : slots idx = some s) :
    s.gen ≠ BitVec.allOnes 32 :=
  gen_ne_allOnes (serving.gens idx s here) small room

/-- A slot whose entry is free is free. -/
theorem Serving.free_of_entry {idx : Fin (m + 1)} (serving : Serving cfg crypto slots ram w)
    (entry : (ram.objTable.data.objDb idx).uid = tfmPsInvalidUid) : slots idx = none := by
  cases here : slots idx with
  | none => rfl
  | some s =>
      have used := (serving.holds.used idx s here).uid_eq
      exact absurd (used.1.symm.trans entry) (serving.valid.uid idx s here)

/-- A kept object leaves the slots valid. -/
theorem Serving.valid_kept {idx : Fin (m + 1)} {s s' : Slot}
    (serving : Serving cfg crypto slots ram w)
    (here : slots idx = some s) (next : s.Next cfg s') :
    (slots.put (some idx) idx s').Valid cfg := by
  refine serving.valid.put ?_ next.plain (fun i s'' other uid clientId ↦ ?_) ?_
  · rw [next.uid]
    exact serving.valid.uid idx s here
  · rw [serving.valid.unique i idx s'' s other here (uid.trans next.uid)
      (clientId.trans next.clientId)]
  · obtain ⟨i, free⟩ := serving.valid.free
    refine ⟨i, ?_, .inl free⟩
    rintro rfl
    cases free.symm.trans here

/-- An object that is stored in place of another one leaves the slots valid. -/
theorem Serving.valid_moved {idx new : Fin (m + 1)} {s s' : Slot}
    (serving : Serving cfg crypto slots ram w) (here : slots idx = some s) (free : slots new = none)
    (next : s.Next cfg s') : (slots.put (some idx) new s').Valid cfg := by
  refine serving.valid.put ?_ next.plain (fun i s'' other uid clientId ↦ ?_) ⟨idx, ?_, .inr rfl⟩
  · rw [next.uid]
    exact serving.valid.uid idx s here
  · rw [serving.valid.unique i idx s'' s other here (uid.trans next.uid)
      (clientId.trans next.clientId)]
  · rintro rfl
    cases here.symm.trans free

variable [Inhabited Tag]

/-- The table is updated with an object that stays in its slot. -/
theorem Serving.returns_updateKept {Q : Status → Ram Tag m → World Tag m → Prop}
    (serving : Serving cfg crypto slots ram w) (small : cfg.nvMax < 2 ^ 32)
    (works : w.fails = noFails)
    (room : w.nvc 0 < cfg.nvMax) {idx : Fin (m + 1)} {s s' : Slot} (here : slots idx = some s)
    (found : psGetObjectEntryIdx ram.objTable.data.objDb s.uid s.clientId = some idx)
    (next : s.Next cfg s') {ram₂ : Ram Tag m} {w₂ : World Tag m}
    (storing : Storing (psObjectFsId idx) ram w ram₂ w₂)
    (sealed : Sealed crypto (psObjectFsId idx) s' ram₂ w₂)
    (numBlocks : ram₂.numBlocks = s'.numBlocks)
    (after : ∀ ram' w', Serving cfg crypto (Function.update slots idx (some s')) ram' w' →
      ram'.objTable.gen = ram.objTable.gen →
      (∀ label, w'.blocksUnder label = w₂.blocksUnder label) → Q .success ram' w') :
    Returns (Op.handle cfg) (psUpdateTable cfg crypto s.uid s.clientId) Q ram₂ w₂ := by
  have gen : s'.gen.toNat ≤ w.nvc 0 + 1 := by
    have := serving.gens idx s here
    have := next.gen
    omega
  refine serving.returns_updateTable small works room next.uid next.clientId storing sealed
    numBlocks
    found gen (serving.valid_kept here next) fun ram' w' serving' gen _ _ used ↦ ?_
  rw [Slots.put_self] at serving'
  exact after ram' w' serving' gen used

/-- The table is updated after an object has been read, if key usage is limited. -/
theorem Serving.returns_updateUsage {Q : Status → Ram Tag m → World Tag m → Prop}
    (serving : Serving cfg crypto slots ram w) (small : cfg.nvMax < 2 ^ 32)
    (works : w.fails = noFails)
    (room : w.nvc 0 < cfg.nvMax) {idx : Fin (m + 1)} {s s' : Slot} (here : slots idx = some s)
    (found : psGetObjectEntryIdx ram.objTable.data.objDb s.uid s.clientId = some idx)
    (next : s.Next cfg s') {plain : Payload} {ram₁ ram₂ : Ram Tag m} {w₁ w₂ : World Tag m}
    (read : HasRead cfg crypto idx s plain ram w ram₁ w₁)
    (storing : Storing (psObjectFsId idx) ram₁ w₁ ram₂ w₂)
    (sealed : Sealed crypto (psObjectFsId idx) s' ram₂ w₂)
    (numBlocks : ram₂.numBlocks = s'.numBlocks)
    (unlimited : cfg.keyUsageLimit = 0 → s' = s ∧ ram₂ = ram₁ ∧ w₂ = w₁) (err : Status)
    (after : ∀ ram' w', Serving cfg crypto (Function.update slots idx (some s')) ram' w' →
      ram'.objTable.gen = ram.objTable.gen →
      (∀ label, w'.blocksUnder label = w₂.blocksUnder label) → Q err ram' w') :
    Returns (Op.handle cfg) (updateUsage cfg crypto s.uid s.clientId err) Q ram₂ w₂ := by
  rw [updateUsage]
  split
  · next none =>
      obtain ⟨rfl, rfl, rfl⟩ := unlimited none
      refine after ram₂ w₂ ?_ (congrArg Table.gen read.storing.objTable) fun _ ↦ rfl
      rw [← here, Function.update_eq_self]
      exact serving.congr read.storing.objTable read.storing.active read.storing.scratch read.ivBuf
        read.storing.between.tables read.storing.between.nvc fun idx _ ↦ by rw [read.objects]
  · rw [returns_bind]
    refine serving.returns_updateKept small works room here found next (read.then storing) sealed
      numBlocks fun ram' w' serving' gen used ↦ ?_
    have same : (if err = .success then .success else err) = err := by
      split
      · next success => exact success.symm
      · rfl
    rw [same]
    exact after ram' w' serving' gen used

/-- An object is read, the keys are switched if necessary and the table is updated if key usage is
limited. -/
theorem Serving.returns_finishRead {α : Type} {Q : α → Ram Tag m → World Tag m → Prop}
    (serving : Serving cfg crypto slots ram w) (small : cfg.nvMax < 2 ^ 32)
    (works : w.fails = noFails)
    (room : w.nvc 0 < cfg.nvMax) {idx : Fin (m + 1)} {s : Slot} (here : slots idx = some s)
    (found : psGetObjectEntryIdx ram.objTable.data.objDb s.uid s.clientId = some idx)
    {ram₁ : Ram Tag m} {w₁ : World Tag m} (read : HasRead cfg crypto idx s s.plain ram w ram₁ w₁)
    (err : Status → Status) (next : Status → PsM Tag m α)
    (after : ∀ ram' w',
      Serving cfg crypto (Function.update slots idx (some ((s.read cfg).switchKeys cfg s.plain)))
        ram' w' →
      ram'.objTable.gen = ram.objTable.gen →
      (∀ label, w'.blocksUnder label = w.blocksUnder label +
        Effect.blocksUnder label (.kept idx s ((s.read cfg).switchKeys cfg s.plain))) →
      Returns (Op.handle cfg) (next (err .success)) Q ram' w') :
    Returns (Op.handle cfg) (do
      let switched ← psSwitchKeysIfNecessary cfg crypto s.plain.blocks
      let err ← updateUsage cfg crypto s.uid s.clientId (err switched)
      next err) Q ram₁ w₁ := by
  have valid := serving.valid.plain idx s here
  have ivBuf := serving.ivBuf
  obtain ⟨iv, get⟩ : ∃ iv, psCryptoGetIv ram₁.ivBuf = some iv := by
    rw [read.ivBuf]
    exact exists_psCryptoGetIv (by omega)
  have trim : ram₁.object.payload.trim = s.plain := by
    rw [read.payload, Payload.trim, ← valid.length, List.take_length]
  have works₁ : w₁.fails = noFails := read.storing.between.fails.trans works
  have gen_ne := serving.gen_ne small room here
  rw [returns_bind]
  refine returns_switchKeys (s := s.read cfg) works₁ get gen_ne read.label
    read.numBlocks trim rfl
      (read.storing.fid ▸ read.here) fun ram₂ w₂ storing sealed numBlocks used un ↦ ?_
  rw [returns_bind]
  rw [read.storing.fid] at storing sealed
  refine serving.returns_updateUsage small works room here found
    (.switchKeys valid valid) read storing
    sealed numBlocks (fun unlimited ↦ ⟨?_, un unlimited⟩) _ fun ram' w' serving' gen used' ↦
      after ram' w' serving' gen fun label ↦ ?_
  · rw [Slot.read_of_unlimited unlimited, Slot.switchKeys_of_unlimited unlimited]
  · rw [used', used, read.blocksUnder, Nat.add_assoc]
    rfl

theorem Serving.returns_clearObject {Q : Status → Ram Tag m → World Tag m → Prop} {err : Status}
    (serving : Serving cfg crypto slots ram w)
    (after : ∀ ram', Serving cfg crypto slots ram' w → ram'.objTable.gen = ram.objTable.gen →
      Q err ram' w) :
    Returns (Op.handle cfg) (do
      clearObject
      pure err) Q ram w := by
  rw [clearObject, returns_bind, returns_modify, returns_pure]
  exact after _ (serving.congr rfl rfl rfl rfl rfl rfl fun _ _ ↦ rfl) rfl

/-- The end of a request that fails for an object that has been read. -/
theorem Serving.returns_exitKept {Q : Status → Ram Tag m → World Tag m → Prop}
    (serving : Serving cfg crypto slots ram w) (small : cfg.nvMax < 2 ^ 32)
    (works : w.fails = noFails)
    (room : w.nvc 0 < cfg.nvMax) {idx : Fin (m + 1)} {s : Slot} (here : slots idx = some s)
    (found : psGetObjectEntryIdx ram.objTable.data.objDb s.uid s.clientId = some idx)
    {plain : Payload} {ram₁ : Ram Tag m} {w₁ : World Tag m}
    (read : HasRead cfg crypto idx s plain ram w ram₁ w₁) (valid' : plain.trim.Valid cfg)
    (size : plain.currentSize = s.plain.currentSize) (exit : Exit) (failure : exit.err ≠ .success)
    (blocks : exit.blocks = s.plain.blocks) (sw : Bool)
    (after : ∀ ram' w',
      Serving cfg crypto (Function.update slots idx (some (s.failed cfg sw plain.trim))) ram' w' →
      ram'.objTable.gen = ram.objTable.gen →
      (∀ label, w'.blocksUnder label = w.blocksUnder label +
        Effect.blocksUnder label (.kept idx s (s.failed cfg sw plain.trim))) →
      Q exit.err ram' w') :
    Returns (Op.handle cfg) (do
      let _ ← { exit with switchKeys := sw }.switchKeysIfNecessary cfg crypto
      let err ← exit.updateTable cfg crypto s.uid s.clientId true
      let err ← exit.removeOldFile err
      clearObject
      pure err) Q ram₁ w₁ := by
  have valid := serving.valid.plain idx s here
  have ivBuf := serving.ivBuf
  obtain ⟨iv, get⟩ : ∃ iv, psCryptoGetIv ram₁.ivBuf = some iv := by
    rw [read.ivBuf]
    exact exists_psCryptoGetIv (by omega)
  have trim : ram₁.object.payload.trim = plain.trim := by rw [read.payload]
  have works₁ : w₁.fails = noFails := read.storing.between.fails.trans works
  have gen_ne := serving.gen_ne small room here
  -- what follows the switch of keys, for the slot that it leaves
  have ends : ∀ ram₂ w₂ s₂, s.Next cfg s₂ → Storing (psObjectFsId idx) ram₁ w₁ ram₂ w₂ →
      Sealed crypto (psObjectFsId idx) s₂ ram₂ w₂ → ram₂.numBlocks = s₂.numBlocks →
      (∀ ram' w', Serving cfg crypto (Function.update slots idx (some s₂)) ram' w' →
        ram'.objTable.gen = ram.objTable.gen →
        (∀ label, w'.blocksUnder label = w₂.blocksUnder label) → Q exit.err ram' w') →
      Returns (Op.handle cfg) (do
        let err ← exit.updateTable cfg crypto s.uid s.clientId true
        let err ← exit.removeOldFile err
        clearObject
        pure err) Q ram₂ w₂ := by
    intro ram₂ w₂ s₂ next storing sealed numBlocks after
    rw [returns_bind, Exit.updateTable, if_neg failure, if_pos rfl, returns_bind]
    refine serving.returns_updateKept small works room here found next (read.then storing) sealed
      numBlocks fun ram' w' serving' gen used ↦ ?_
    rw [returns_pure, exit.removeOldFile_of_failure failure, returns_bind, returns_pure]
    exact serving'.returns_clearObject fun ram'' serving'' gen' ↦
      after ram'' w' serving'' (gen'.trans gen) used
  rw [returns_bind, Exit.switchKeysIfNecessary]
  cases sw with
  | true =>
      rw [if_pos ⟨rfl, failure⟩]
      dsimp only
      rw [blocks]
      refine returns_switchKeys (s := s.read cfg) works₁ get gen_ne read.label read.numBlocks trim
        size (read.storing.fid ▸ read.here) fun ram₂ w₂ storing sealed numBlocks used _ ↦ ?_
      rw [read.storing.fid] at storing sealed
      refine ends ram₂ w₂ _ (.switchKeys valid valid') storing sealed numBlocks
        fun ram' w' serving' gen used' ↦ after ram' w' serving' gen fun label ↦ ?_
      rw [used', used, read.blocksUnder, Nat.add_assoc]
      rfl
  | false =>
      rw [if_neg (by rintro ⟨⟨⟩, -⟩), returns_pure]
      refine ends ram₁ w₁ (s.read cfg) (.read valid) ?_ read.here read.numBlocks
        fun ram' w' serving' gen used ↦ after ram' w' serving' gen fun label ↦ ?_
      · exact ⟨rfl, rfl, rfl, read.storing.fid, Nat.le_succ _, ⟨rfl, rfl, rfl⟩, fun _ _ ↦ rfl⟩
      · have same : (s.read cfg).gen = s.gen := rfl
        rw [used, read.blocksUnder, Effect.blocksUnder, Slot.failed, if_neg Bool.false_ne_true,
          if_pos same]
        rfl

/-- The end of a request that has stored an object in a new file. -/
theorem Serving.returns_exitStored {Q : Status → Ram Tag m → World Tag m → Prop}
    (serving : Serving cfg crypto slots ram w) (small : cfg.nvMax < 2 ^ 32)
    (works : w.fails = noFails)
    (room : w.nvc 0 < cfg.nvMax) {ram₂ : Ram Tag m} {w₂ : World Tag m} (old : Option (Fin (m + 1)))
    {new : Fin (m + 1)} {s : Slot} {uid : Uid} {clientId : ℤ} (uid_eq : s.uid = uid)
    (clientId_eq : s.clientId = clientId) (storing : Storing (psObjectFsId new) ram w ram₂ w₂)
    (sealed : Sealed crypto (psObjectFsId new) s ram₂ w₂) (numBlocks : ram₂.numBlocks = s.numBlocks)
    (found : psGetObjectEntryIdx ram.objTable.data.objDb uid clientId = old)
    (gen : s.gen.toNat ≤ w.nvc 0 + 1) (valid : (slots.put old new s).Valid cfg)
    (free : slots new = none) (held : ∀ idx, old = some idx → slots idx ≠ none) (exit : Exit)
    (success : exit.err = .success) (oldFid : exit.oldFid = old.map psObjectFsId)
    (objectExists sw : Bool)
    (after : ∀ ram' w', Serving cfg crypto (slots.put old new s) ram' w' →
      ram'.objTable.gen = ram.objTable.gen →
      (∀ label, w'.blocksUnder label = w₂.blocksUnder label) → Q .success ram' w') :
    Returns (Op.handle cfg) (do
      let _ ← { exit with switchKeys := sw }.switchKeysIfNecessary cfg crypto
      let err ← exit.updateTable cfg crypto uid clientId objectExists
      let err ← exit.removeOldFile err
      clearObject
      pure err) Q ram₂ w₂ := by
  rw [returns_bind, Exit.switchKeysIfNecessary, if_neg fun failed ↦ failed.2 success, returns_pure,
    returns_bind, Exit.updateTable, if_pos success]
  refine serving.returns_updateTable small works room uid_eq clientId_eq storing sealed numBlocks
    found
    gen valid fun ram' w' serving' gen' fails objects used ↦ ?_
  rw [returns_bind, Exit.removeOldFile, oldFid]
  cases old with
  | none =>
      exact serving'.returns_clearObject fun ram'' serving'' gen'' ↦
        after ram'' w' serving'' (gen''.trans gen') used
  | some old =>
      obtain ⟨o, here⟩ := Option.ne_none_iff_exists'.1 (held old rfl)
      have ne : old ≠ new := by
        rintro rfl
        cases here.symm.trans free
      obtain ⟨iv, -, file⟩ := serving.holds.used old o here
      have stays : w'.objects (psObjectFsId old) ≠ none := by
        rw [objects, storing.objects _ fun same ↦ ne (psObjectFsId_inj.1 same), file]
        rintro ⟨⟩
      have works' : w'.fails = noFails := (fails.trans storing.between.fails).trans works
      refine returns_removeObject works' fun err w'' _ removed between objects' used' ↦ ?_
      cases removed stays
      have serving'' : Serving cfg crypto (slots.put (some old) new s) ram' w'' := by
        refine serving'.congr rfl rfl rfl rfl between.tables between.nvc fun idx used ↦ ?_
        rw [objects', Function.update_of_ne]
        rintro same
        cases psObjectFsId_inj.1 same
        rcases slots.put_of_ne (some old) s ne with ⟨-, gone⟩ | ⟨other, -⟩
        · exact used gone
        · exact other rfl
      exact serving''.returns_clearObject fun ram'' serving₃ gen'' ↦
        after ram'' w'' serving₃ (gen''.trans gen') fun label ↦ (used' label).trans (used label)

/-- The end of a request that fails without an object. -/
theorem Serving.returns_exitIdle {Q : Status → Ram Tag m → World Tag m → Prop}
    (serving : Serving cfg crypto slots ram w) (exit : Exit) (failure : exit.err ≠ .success)
    (uid : Uid) (clientId : ℤ)
    (after : ∀ ram', Serving cfg crypto slots ram' w → ram'.objTable.gen = ram.objTable.gen →
      Q exit.err ram' w) :
    Returns (Op.handle cfg) (do
      let _ ← { exit with switchKeys := false }.switchKeysIfNecessary cfg crypto
      let err ← exit.updateTable cfg crypto uid clientId false
      let err ← exit.removeOldFile err
      clearObject
      pure err) Q ram w := by
  rw [returns_bind, Exit.switchKeysIfNecessary, if_neg (by rintro ⟨⟨⟩, -⟩), returns_pure,
    returns_bind, Exit.updateTable, if_neg failure, if_neg Bool.false_ne_true, returns_pure,
    exit.removeOldFile_of_failure failure]
  exact serving.returns_clearObject after

end

end TrustedFirmwareM.Ps
