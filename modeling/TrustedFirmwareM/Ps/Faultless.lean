import TrustedFirmwareM.Ps.Slots

/-!
# Functions without faults

When no operation fails, the functions behind the requests return with known results.
-/

namespace TrustedFirmwareM.Ps

open Program

variable {Tag : Type} {m : ℕ} {cfg : Config} {crypto : Crypto Tag m}

/-- Between two saves the table files, the counters and the failures stay as they are. -/
structure World.Between (w w' : World Tag m) : Prop where
  /-- Same table files. -/
  tables : w'.tables = w.tables
  /-- Same counters. -/
  nvc : w'.nvc = w.nvc
  /-- Same failures. -/
  fails : w'.fails = w.fails

theorem World.Between.trans {w w' w'' : World Tag m} (first : w.Between w')
    (second : w'.Between w'') : w.Between w'' :=
  ⟨second.tables.trans first.tables, second.nvc.trans first.nvc, second.fails.trans first.fails⟩

/-! ## Operations -/

section

variable {ram : Ram Tag m} {w : World Tag m}

theorem returns_op {o : Op Tag m} {Q : o.Result → Ram Tag m → World Tag m → Prop}
    (external : o.isInternal = false) (works : w.fails = noFails)
    (perform : Q (o.perform cfg (w.tick (w.ops + 1))).1 ram
      (o.perform cfg (w.tick (w.ops + 1))).2) :
    Returns (Op.handle cfg) (Proc.call o) Q ram w := by
  have fails : w.fails o w.ops = false := by rw [works]; rfl
  rw [returns_call, Op.handle, external, fails]
  exact perform

theorem returns_setkey {label : Label} {Q : Status → Ram Tag m → World Tag m → Prop}
    (works : w.fails = noFails) (after : Q .success ram (w.tick (w.ops + 1))) :
    Returns (Op.handle cfg) (psCryptoSetkey label) Q ram w := returns_op rfl works after

theorem returns_destroyKeyAfter {Q : Status → Ram Tag m → World Tag m → Prop}
    (works : w.fails = noFails) (after : Q .success ram (w.tick (w.ops + 1))) :
    Returns (Op.handle cfg) destroyKeyAfter Q ram w := by
  rw [destroyKeyAfter, returns_bind]
  exact returns_op rfl works after

/-- An encryption has taken place, with its outputs. -/
theorem returns_encryptWithKey {e : Encryption Tag m} {output : Ram Tag m → Ram Tag m}
    {Q : Status → Ram Tag m → World Tag m → Prop} (works : w.fails = noFails)
    (after : ∀ w', w.Between w' → w'.objects = w.objects →
      (∀ label, w'.blocksUnder label = w.blocksUnder label + e.blocksUnder label) →
      Q .success (output ram) w') :
    Returns (Op.handle cfg) (encryptWithKey e output) Q ram w := by
  rw [encryptWithKey, returns_bind]
  refine returns_setkey works ?_
  rw [onSuccess, if_pos rfl, returns_bind, psaAeadEncrypt]
  refine returns_op rfl works ?_
  dsimp only [Op.perform]
  rw [if_neg (not_not.2 rfl), returns_bind, returns_modify]
  refine returns_destroyKeyAfter works (after _ ⟨rfl, rfl, rfl⟩ rfl fun label ↦ ?_)
  simp only [World.blocksUnder, World.tick, List.map_cons, List.sum_cons]
  omega

/-- The object in memory has been decrypted. -/
theorem returns_authAndDecrypt {ad : Ad Tag m} {plain : Payload}
    {Q : Status → Ram Tag m → World Tag m → Prop} (works : w.fails = noFails)
    (decrypted : crypto.decrypt ram.object.label ram.object.iv ad ram.object.payload
      ram.object.tag = some plain)
    (after : ∀ w', w.Between w' → w'.objects = w.objects →
      (∀ label, w'.blocksUnder label = w.blocksUnder label +
        Decryption.blocksUnder label ⟨ram.object.label, ram.object.payload⟩) →
      Q .success { ram with object := { ram.object with payload := plain } } w') :
    Returns (Op.handle cfg) (psCryptoAuthAndDecrypt crypto ad) Q ram w := by
  rw [psCryptoAuthAndDecrypt, returns_bind, returns_get, returns_bind]
  refine returns_setkey works ?_
  rw [onSuccess, if_pos rfl, returns_bind, psaAeadDecrypt]
  refine returns_op rfl works ?_
  dsimp only [Op.perform]
  rw [if_pos rfl, decrypted]
  dsimp only
  rw [returns_bind, returns_modify]
  refine returns_destroyKeyAfter works (after _ ⟨rfl, rfl, rfl⟩ rfl fun label ↦ ?_)
  simp only [World.blocksUnder, World.tick, List.map_cons, List.sum_cons]
  omega

/-- A file that may be there is removed. -/
theorem returns_removeObject {fid : ℕ} {Q : Status → Ram Tag m → World Tag m → Prop}
    (works : w.fails = noFails)
    (after : ∀ err w', err = .success ∨ err = .doesNotExist →
      (w.objects fid ≠ none → err = .success) →
      w.Between w' → w'.objects = Function.update w.objects fid none →
      (∀ label, w'.blocksUnder label = w.blocksUnder label) → Q err ram w') :
    Returns (Op.handle cfg) (psaItsRemoveObject fid) Q ram w := by
  refine returns_op rfl works ?_
  simp only [Op.perform]
  split
  · next absent =>
      refine after _ _ (.inr rfl) (fun held ↦ absurd absent held) ⟨rfl, rfl, rfl⟩ ?_ fun _ ↦ rfl
      exact (Function.update_eq_self_iff.2 absent.symm).symm
  · exact after _ _ (.inl rfl) (fun _ ↦ rfl) ⟨rfl, rfl, rfl⟩ rfl fun _ ↦ rfl

end

/-! ## Object files -/

section

variable {ram : Ram Tag m} {w : World Tag m}

/-- The memory after an object has been read. -/
def Ram.holding (ram : Ram Tag m) (object : Object Tag) (numBlocks : Word) : Ram Tag m :=
  { ram with object := object, numBlocks := numBlocks }

/-- The object in a slot is read. -/
theorem returns_readObject {Q : Status × Word → Ram Tag m → World Tag m → Prop}
    {idx : Fin (m + 1)} {s : Slot} (works : w.fails = noFails)
    (held : SlotAt crypto ram.objTable.data.objDb w.objects idx s) (valid : s.plain.Valid cfg)
    (fid : ram.fid = psObjectFsId idx)
    (tag : ram.object.tag = (ram.objTable.data.objDb idx).tag)
    (numBlocks : ram.numBlocks = s.numBlocks)
    (after : ∀ iv w', w.Between w' → w'.objects = w.objects →
      (∀ label, w'.blocksUnder label = w.blocksUnder label + s.blocksUnder label) →
      Q (.success, s.plain.blocks) (ram.holding
        ⟨ram.object.tag, s.uid, s.clientId, iv, s.gen, s.plain⟩ (s.read cfg).numBlocks) w') :
    Returns (Op.handle cfg) (readObject cfg crypto s.uid s.clientId) Q ram w := by
  obtain ⟨iv, entry, file⟩ := held
  rw [← fid] at entry file
  have length : (crypto.encrypt s.label iv (.object ram.fid s.gen) s.plain).1.data.length =
      s.plain.data.length := crypto.encrypt_length ..
  have blocks : psCryptoToBlocks (psEncryptSize (BitVec.ofNat 32 s.plain.data.length)) =
      s.plain.blocks := by
    rw [valid.length, BitVec.ofNat_toNat, BitVec.setWidth_eq]
    rfl
  have decrypted : crypto.decrypt s.label iv (.object ram.fid s.gen)
      (crypto.encrypt s.label iv (.object ram.fid s.gen) s.plain).1 ram.object.tag =
        some s.plain := by
    rw [tag, entry]
    exact crypto.decrypt_encrypt ..
  rw [readObject, returns_bind, returns_modify, returns_bind, returns_get, returns_bind,
    psEncryptedObjectRead, returns_bind]
  refine returns_op rfl works ?_
  simp only [Op.perform, World.tick, file]
  rw [returns_bind, returns_modify, returns_bind]
  refine returns_authAndDecrypt works decrypted fun w' between objects used ↦ ?_
  have used : ∀ label, w'.blocksUnder label = w.blocksUnder label + s.blocksUnder label := by
    intro label
    rw [used, Decryption.blocksUnder, length]
    rfl
  have after := after iv w' ⟨between.tables, between.nvc, between.fails⟩ objects used
  rw [returns_pure]
  dsimp only
  rw [if_pos rfl, length, blocks, returns_bind, addBlocks]
  split
  · next unlimited =>
      rw [Slot.read, if_pos unlimited, ← numBlocks] at after
      exact after
  · next limited =>
      rw [Slot.read, if_neg limited, ← numBlocks] at after
      exact after

/-- The memory after the object in it has been encrypted. -/
def Ram.sealed (ram : Ram Tag m) (crypto : Crypto Tag m) (fid : ℕ) (iv : Iv) (plain : Payload) :
    Ram Tag m :=
  let sealed := crypto.encrypt ram.object.label iv (.object fid ram.object.gen) plain
  { ram with
    ivBuf := iv
    object := { ram.object with iv := iv, tag := sealed.2, payload := sealed.1 } }

/-- The object in memory is written to a file. -/
theorem returns_encryptedObjectWrite {Q : Status → Ram Tag m → World Tag m → Prop}
    {fid : ℕ} {iv : Iv}
    {plain : Payload} (works : w.fails = noFails) (get : psCryptoGetIv ram.ivBuf = some iv)
    (plain_eq : plain = { ram.object.payload with
      data := ram.object.payload.data.take ram.object.payload.currentSize.toNat })
    (after : ∀ w', w.Between w' →
      w'.objects = Function.update w.objects fid (some ⟨iv, ram.object.gen,
        (crypto.encrypt ram.object.label iv (.object fid ram.object.gen) plain).1⟩) →
      (∀ label, w'.blocksUnder label = w.blocksUnder label +
        if ram.object.label = label then objectBlocks plain.data.length else 0) →
      Q .success (ram.sealed crypto fid iv plain) w') :
    Returns (Op.handle cfg) (psEncryptedObjectWrite crypto fid) Q ram w := by
  subst plain_eq
  rw [psEncryptedObjectWrite, returns_bind, returns_get]
  simp only [get]
  rw [returns_bind, returns_modify, returns_bind, psCryptoEncryptAndTag]
  refine returns_encryptWithKey works fun w' between objects used ↦ ?_
  rw [if_neg (not_not.2 rfl), returns_bind, returns_get]
  refine returns_op rfl (between.fails.trans works) ?_
  refine after _ ⟨between.tables, between.nvc, between.fails⟩ ?_ used
  simp only [Op.perform, World.tick, objects]

end

/-! ## The object table -/

/-- The table has been saved, and the file that is not in use holds `left`. -/
structure Saved (cfg : Config) (crypto : Crypto Tag m) (left : Option (Table Tag m))
    (ram : Ram Tag m)
    (w : World Tag m) (ram' : Ram Tag m) (w' : World Tag m) : Prop where
  /-- Same data. -/
  data : ram'.objTable.data = ram.objTable.data
  /-- Same key generation. -/
  gen : ram'.objTable.gen = ram.objTable.gen
  /-- The scratch file is active. -/
  active : ram'.activeTable = ram.scratchTable
  /-- The active file is the scratch file. -/
  scratch : ram'.scratchTable = ram.activeTable
  /-- One initialisation vector has been used. -/
  ivBuf : ram'.ivBuf.toNat = ram.ivBuf.toNat + 1
  /-- The table has been tagged with it. -/
  tableIv : ram'.objTable.iv = ram'.ivBuf
  /-- The tag is the one for the first counter. -/
  tagged : ram'.objTable.Tagged cfg crypto (w'.nvc 0)
  /-- Same object. -/
  object : ram'.object = ram.object
  /-- Same object file. -/
  fid : ram'.fid = ram.fid
  /-- The table is stored. -/
  stored : w'.tables ram'.activeTable = some ram'.objTable
  /-- The other file. -/
  left : w'.tables ram'.scratchTable = left
  /-- The first counter has counted. -/
  nvc : w'.nvc 0 = w.nvc 0 + 1
  /-- Same failures. -/
  fails : w'.fails = w.fails
  /-- Same object files. -/
  objects : w'.objects = w.objects
  /-- No object has been encrypted or decrypted. -/
  blocksUnder : ∀ label, w'.blocksUnder label = w.blocksUnder label

theorem total_encryptWithKey (e : Encryption Tag m) (output : Ram Tag m → Ram Tag m) :
    Total (encryptWithKey e output) :=
  total_bind (total_call _) fun _ ↦ total_ite
    (total_bind (total_call _) fun _ ↦ total_ite
      (total_bind (total_call _) fun _ ↦ total_pure _)
      (total_bind (total_modify _) fun _ ↦ total_bind (total_call _) fun _ ↦ total_pure _))
    (total_pure _)

theorem total_psObjectTableSaveTable : Total (psObjectTableSaveTable cfg crypto) := by
  refine total_bind (total_call _) fun _ ↦ total_ite (total_bind (total_call _) fun result ↦ ?_)
    (total_pure _)
  split
  · exact total_pure _
  · refine total_bind total_get fun _ ↦ total_bind (total_call _) fun _ ↦
      total_bind (total_bind total_get fun ram ↦ ?_) fun _ ↦ total_ite
        (total_bind (total_bind total_get fun _ ↦ total_bind (total_call _) fun _ ↦
          total_ite (total_bind (total_modify _) fun _ ↦ total_pure _) (total_pure _)) fun _ ↦
          total_ite (total_bind (total_psObjectTableAlignNvCounters _) fun _ ↦
            total_ite (total_bind (total_call _) fun _ ↦ total_pure _) (total_pure _))
            (total_pure _))
        (total_pure _)
    split
    · exact total_pure _
    · exact total_bind (total_modify _) fun _ ↦ total_encryptWithKey _ _

section

variable {ram : Ram Tag m} {w : World Tag m}

theorem not_failed {k : ℕ} {kind : Op Tag m → Prop} (works : w.fails = noFails) :
    ¬w.Failed k kind := by
  rintro ⟨o, j, -, -, -, fails⟩
  rw [works] at fails
  cases fails

theorem returns_saveTable {Q : Status → Ram Tag m → World Tag m → Prop} (works : w.fails = noFails)
    (room : w.nvc 0 < cfg.nvMax) {iv : Iv} (get : psCryptoGetIv ram.ivBuf = some iv)
    (scratch : ram.scratchTable = otherTable ram.activeTable)
    (after : ∀ ram' w', Saved cfg crypto (w.tables ram.activeTable) ram w ram' w' →
      Q .success ram' w') :
    Returns (Op.handle cfg) (psObjectTableSaveTable cfg crypto) Q ram w := by
  have spec : Spec (Op.handle cfg) (fun _ ↦ True) (psObjectTableSaveTable cfg crypto) Q ram w := by
    refine spec_saveTable (fun k ↦ ⟨trivial, fun err _ why ↦ ?_⟩)
      (fun _ k ↦ ⟨trivial, fun err _ why ↦ ?_⟩) (fun _ k ↦ ⟨trivial, fun err _ _ why ↦ ?_⟩)
      (fun _ iv get k ↦ ⟨trivial, fun err _ _ _ why ↦ ?_⟩)
      (fun _ iv get i j k _ _ ↦ ⟨trivial, fun err _ why ↦ ?_⟩)
      (fun _ iv get k ↦ ⟨trivial, fun _ ↦ ?_⟩)
    · rcases why with failed | full
      · exact absurd failed (not_failed works)
      · exact absurd full (Nat.not_le.2 room)
    · exact absurd why (not_failed works)
    · rcases why with ⟨none, -⟩ | ⟨iv, -, -, failed⟩
      · exact absurd (none.symm.trans get) (by rintro ⟨⟩)
      · exact absurd failed (not_failed works)
    · exact absurd why (not_failed works)
    · rcases why with failed | full
      · exact absurd failed (not_failed works)
      · exact absurd full (Nat.not_lt.2 room)
    · have other : ram.activeTable ≠ ram.scratchTable := by
        rw [scratch]
        exact (otherTable_ne _).symm
      refine after _ _ ⟨rfl, rfl, rfl, rfl, psCryptoGetIv_toNat get, rfl, rfl, rfl, rfl,
        Function.update_self .., Function.update_of_ne other .., rfl, rfl, rfl, fun label ↦ ?_⟩
      simp only [World.blocksUnder, World.completed, World.stored, World.authenticated, World.raise,
        World.begun, World.counted, World.tick, List.map_cons, List.sum_cons,
        Encryption.blocksUnder, Nat.zero_add]
  exact spec.returns total_psObjectTableSaveTable

theorem returns_deleteOldTable {Q : Status → Ram Tag m → World Tag m → Prop}
    (works : w.fails = noFails) {table : Table Tag m}
    (held : w.tables ram.scratchTable = some table)
    (after : ∀ w', w'.tables = Function.update w.tables ram.scratchTable none →
      w'.nvc = w.nvc → w'.fails = w.fails → w'.objects = w.objects →
      (∀ label, w'.blocksUnder label = w.blocksUnder label) → Q .success ram w') :
    Returns (Op.handle cfg) psObjectTableDeleteOldTable Q ram w := by
  rw [psObjectTableDeleteOldTable, returns_bind, returns_get]
  refine returns_op rfl works ?_
  simp only [Op.perform, World.tick, held]
  exact after _ rfl rfl rfl rfl fun _ ↦ rfl

/-- The old table has been deleted after a save. -/
theorem Saved.deleted {left : Option (Table Tag m)} {ram' : Ram Tag m} {w' w'' : World Tag m}
    (saved : Saved cfg crypto left ram w ram' w')
    (scratch : ram.scratchTable = otherTable ram.activeTable)
    (tables : w''.tables = Function.update w'.tables ram'.scratchTable none)
    (nvc : w''.nvc = w'.nvc) (fails : w''.fails = w'.fails) (objects : w''.objects = w'.objects)
    (used : ∀ label, w''.blocksUnder label = w'.blocksUnder label) :
    Saved cfg crypto none ram w ram' w'' := by
  have other : ram'.activeTable ≠ ram'.scratchTable := by
    rw [saved.active, saved.scratch, scratch]
    exact otherTable_ne _
  have nvc : w''.nvc 0 = w'.nvc 0 := by rw [nvc]
  exact {
    saved with
    tagged := nvc ▸ saved.tagged
    stored := by rw [tables, Function.update_of_ne other, saved.stored]
    left := by rw [tables, Function.update_self]
    nvc := nvc.trans saved.nvc
    fails := fails.trans saved.fails
    objects := objects.trans saved.objects
    blocksUnder := fun label ↦ (used label).trans (saved.blocksUnder label) }

/-- The old table is deleted after a save. -/
theorem Saved.returns_deleteOldTable {Q : Status → Ram Tag m → World Tag m → Prop}
    {ram' : Ram Tag m} {w' : World Tag m} {table : Table Tag m}
    (saved : Saved cfg crypto (some table) ram w ram' w') (works : w.fails = noFails)
    (scratch : ram.scratchTable = otherTable ram.activeTable)
    (after : ∀ w'', Saved cfg crypto none ram w ram' w'' → Q .success ram' w'') :
    Returns (Op.handle cfg) psObjectTableDeleteOldTable Q ram' w' :=
  Ps.returns_deleteOldTable (saved.fails.trans works) saved.left
    fun w'' tables nvc fails objects used ↦
      after w'' (saved.deleted scratch tables nvc fails objects used)

/-- The memory with other entries. -/
def Ram.withDb (ram : Ram Tag m) (db : Fin (m + 1) → Entry Tag) : Ram Tag m :=
  { ram with objTable := { ram.objTable with data := { ram.objTable.data with objDb := db } } }

variable [Inhabited Tag]

/-- The entries after `ps_update_table`. -/
def updatedDb (db : Fin (m + 1) → Entry Tag) (old : Option (Fin (m + 1))) (idx : Fin (m + 1))
    (entry : Entry Tag) : Fin (m + 1) → Entry Tag :=
  match old with
  | some old => Function.update (Function.update db old .empty) idx entry
  | none => Function.update db idx entry

/-- The table is updated with the object in memory. -/
theorem returns_updateTable {Q : Status → Ram Tag m → World Tag m → Prop} {uid : Uid} {clientId : ℤ}
    {idx : Fin (m + 1)} {iv : Iv} {table : Table Tag m} (works : w.fails = noFails)
    (room : w.nvc 0 < cfg.nvMax) (get : psCryptoGetIv ram.ivBuf = some iv)
    (scratch : ram.scratchTable = otherTable ram.activeTable)
    (stored : w.tables ram.activeTable = some table) (fid : ram.fid = psObjectFsId idx)
    (after : ∀ ram' w', Saved cfg crypto none (ram.withDb (updatedDb ram.objTable.data.objDb
        (psGetObjectEntryIdx ram.objTable.data.objDb uid clientId) idx
        ⟨ram.object.tag, ram.numBlocks, uid, clientId⟩)) w ram' w' → Q .success ram' w') :
    Returns (Op.handle cfg) (psUpdateTable cfg crypto uid clientId) Q ram w := by
  have saves : ∀ (db : Fin (m + 1) → Entry Tag) (Q' : Status → Ram Tag m → World Tag m → Prop),
      (∀ ram' w', Returns (Op.handle cfg) psObjectTableDeleteOldTable Q ram' w' →
        Q' .success ram' w') →
      (∀ ram' w', Saved cfg crypto none (ram.withDb db) w ram' w' → Q .success ram' w') →
      Returns (Op.handle cfg) (psObjectTableSaveTable cfg crypto) Q' (ram.withDb db) w := by
    intro db Q' next after
    refine returns_saveTable works room get scratch fun ram' w' saved ↦ next ram' w' ?_
    have saved : Saved cfg crypto (some table) (ram.withDb db) w ram' w' := stored ▸ saved
    exact saved.returns_deleteOldTable works scratch fun w'' saved ↦ after ram' w'' saved
  rw [psUpdateTable, psObjectTableSetObjTblInfo, returns_bind, returns_bind, returns_get,
    returns_bind, returns_modify, returns_bind]
  rw [fid, psObjectFsIdToIdx_psObjectFsId]
  cases found : psGetObjectEntryIdx ram.objTable.data.objDb uid clientId with
  | none =>
      rw [found] at after
      exact saves _ _ (fun _ _ deletes ↦ deletes) after
  | some old =>
      rw [found] at after
      exact saves _ _ (fun _ _ deletes ↦ deletes) after

end

/-! ## Storing an object -/

/-- The object that is encrypted: the data up to the current size. -/
def Payload.trim (plain : Payload) : Payload :=
  { plain with data := plain.data.take plain.currentSize.toNat }

/-- The object in memory as a slot. -/
def Ram.slot (ram : Ram Tag m) : Slot :=
  ⟨ram.object.uid, ram.object.clientId, ram.object.gen, ram.numBlocks, ram.object.payload⟩

/-- A file holds the object of a slot, and the memory has its tag. -/
def Sealed (crypto : Crypto Tag m) (fid : ℕ) (s : Slot) (ram : Ram Tag m)
    (w : World Tag m) : Prop :=
  ∃ iv, let sealed := crypto.encrypt s.label iv (.object fid s.gen) s.plain
    ram.object.tag = sealed.2 ∧ w.objects fid = some ⟨iv, s.gen, sealed.1⟩

/-- What storing an object leaves as it is. -/
structure Storing (file : ℕ) (ram : Ram Tag m) (w : World Tag m) (ram' : Ram Tag m)
    (w' : World Tag m) : Prop where
  /-- Same object table. -/
  objTable : ram'.objTable = ram.objTable
  /-- Same active file. -/
  active : ram'.activeTable = ram.activeTable
  /-- Same scratch file. -/
  scratch : ram'.scratchTable = ram.scratchTable
  /-- The object file. -/
  fid : ram'.fid = file
  /-- At most one initialisation vector is used. -/
  ivBuf : ram'.ivBuf.toNat ≤ ram.ivBuf.toNat + 1
  /-- The table is not saved. -/
  between : w.Between w'
  /-- Other object files stay as they are. -/
  objects : ∀ other, other ≠ file → w'.objects other = w.objects other

section

variable {ram : Ram Tag m} {w : World Tag m}

/-- The next key is taken. -/
theorem returns_switchKey {Q : Unit → Ram Tag m → World Tag m → Prop}
    (gen : ram.object.gen ≠ BitVec.allOnes 32)
    (after : Q () (ram.holding { ram.object with gen := ram.object.gen + 1 } 0) w) :
    Returns (Op.handle cfg) psSwitchKey Q ram w := by
  rw [psSwitchKey, returns_bind, returns_get, if_neg gen]
  exact after

/-- The object in memory is written. -/
theorem returns_write {Q : Status → Ram Tag m → World Tag m → Prop} (ram : Ram Tag m) {iv : Iv}
    {s : Slot} (works : w.fails = noFails) (get : psCryptoGetIv ram.ivBuf = some iv)
    (label : ram.object.label = s.label) (plain : ram.object.payload.trim = s.plain)
    (after : ∀ ram' w', Storing ram.fid ram w ram' w' → Sealed crypto ram.fid s ram' w' →
      ram'.numBlocks = ram.numBlocks →
      (∀ label, w'.blocksUnder label = w.blocksUnder label + s.blocksUnder label) →
      Q .success ram' w') :
    Returns (Op.handle cfg) (psEncryptedObjectWrite crypto ram.fid) Q ram w := by
  have gen : ram.object.gen = s.gen := congrArg Label.gen label
  refine returns_encryptedObjectWrite works get plain.symm fun w' between objects used ↦ ?_
  rw [label, gen] at objects
  rw [label] at used
  refine after _ _ ⟨rfl, rfl, rfl, rfl, (psCryptoGetIv_toNat get).le, between, fun other ne ↦ ?_⟩
    ⟨iv, ?_, ?_⟩ rfl used
  · rw [objects, Function.update_of_ne ne]
  · rw [← label, ← gen]
    rfl
  · rw [objects, Function.update_self]

theorem returns_addBlocks {Q : Unit → Ram Tag m → World Tag m → Prop} {blocks : Word}
    (limited : cfg.keyUsageLimit ≠ 0)
    (after : Q () (ram.holding ram.object (ram.numBlocks + blocks)) w) :
    Returns (Op.handle cfg) (addBlocks cfg blocks) Q ram w := by
  rw [addBlocks, if_neg limited]
  exact after

theorem Storing.of_holding {file : ℕ} {object : Object Tag} {numBlocks : Word} {ram' : Ram Tag m}
    {w' : World Tag m} (storing : Storing file (ram.holding object numBlocks) w ram' w') :
    Storing file ram w ram' w' :=
  ⟨storing.objTable, storing.active, storing.scratch, storing.fid, storing.ivBuf, storing.between,
    storing.objects⟩

/-- The object in memory is written, and its blocks are counted. -/
theorem returns_writeCounted {α : Type} {Q : α → Ram Tag m → World Tag m → Prop} (ram : Ram Tag m)
    {iv : Iv} (s : Slot) {blocks : Word} {next : Status → PsM Tag m α} (works : w.fails = noFails)
    (limited : cfg.keyUsageLimit ≠ 0) (get : psCryptoGetIv ram.ivBuf = some iv)
    (label : ram.object.label = s.label) (plain : ram.object.payload.trim = s.plain)
    (count : ram.numBlocks + blocks = s.numBlocks)
    (after : ∀ ram' w', Storing ram.fid ram w ram' w' → Sealed crypto ram.fid s ram' w' →
      ram'.numBlocks = s.numBlocks →
      (∀ label, w'.blocksUnder label = w.blocksUnder label + s.blocksUnder label) →
      Returns (Op.handle cfg) (next .success) Q ram' w') :
    Returns (Op.handle cfg) (do
      let err ← psEncryptedObjectWrite crypto ram.fid
      addBlocks cfg blocks
      next err) Q ram w := by
  rw [returns_bind]
  refine returns_write ram works get label plain fun ram' w' storing here numBlocks used ↦ ?_
  rw [returns_bind]
  refine returns_addBlocks limited (after _ _ ⟨storing.objTable, storing.active, storing.scratch,
    storing.fid, storing.ivBuf, storing.between, storing.objects⟩ here ?_ used)
  rw [← count, ← numBlocks]
  rfl

theorem Slot.gen_rekey_ne {s : Slot} (plain : Payload) : (s.rekey plain).gen ≠ s.gen := by
  simp only [Slot.rekey]
  bv_omega

/-- The object in memory is written under the next key, and its blocks are counted. -/
theorem returns_rekey {α : Type} {Q : α → Ram Tag m → World Tag m → Prop} {iv : Iv} {s : Slot}
    {plain : Payload} {next : Status → PsM Tag m α} (works : w.fails = noFails)
    (limited : cfg.keyUsageLimit ≠ 0) (get : psCryptoGetIv ram.ivBuf = some iv)
    (gen : s.gen ≠ BitVec.allOnes 32) (label : ram.object.label = s.label)
    (trim : ram.object.payload.trim = plain)
    (after : ∀ ram' w', Storing ram.fid ram w ram' w' →
      Sealed crypto ram.fid (s.rekey plain) ram' w' → ram'.numBlocks = (s.rekey plain).numBlocks →
      (∀ label, w'.blocksUnder label = w.blocksUnder label + (s.rekey plain).blocksUnder label) →
      Returns (Op.handle cfg) (next .success) Q ram' w') :
    Returns (Op.handle cfg) psSwitchKey (fun _ ↦ Returns (Op.handle cfg) (do
      let err ← psEncryptedObjectWrite crypto ram.fid
      addBlocks cfg plain.blocks
      next err) Q) ram w := by
  have label_eq : ram.object.label = ⟨s.uid, s.clientId, s.gen⟩ := label
  injection label_eq with uid clientId gen_eq
  refine returns_switchKey (gen_eq ▸ gen) ?_
  refine returns_writeCounted (ram.holding { ram.object with gen := ram.object.gen + 1 } 0)
    (s.rekey plain) works limited get ?_ trim (BitVec.zero_add _)
    fun ram' w' storing ↦ after ram' w' storing.of_holding
  rw [gen_eq]
  simp only [Ram.holding, Object.label, Slot.rekey, Slot.label, uid, clientId]

/-- `ps_switch_keys_if_necessary` for an object that has been read. -/
theorem returns_switchKeys {Q : Status → Ram Tag m → World Tag m → Prop} {iv : Iv} {s : Slot}
    {plain : Payload} (works : w.fails = noFails) (get : psCryptoGetIv ram.ivBuf = some iv)
    (gen : s.gen ≠ BitVec.allOnes 32) (label : ram.object.label = s.label)
    (numBlocks : ram.numBlocks = s.numBlocks) (trim : ram.object.payload.trim = plain)
    (same : plain.currentSize = s.plain.currentSize) (here : Sealed crypto ram.fid s ram w)
    (after : ∀ ram' w', Storing ram.fid ram w ram' w' →
      Sealed crypto ram.fid (s.switchKeys cfg plain) ram' w' →
      ram'.numBlocks = (s.switchKeys cfg plain).numBlocks →
      (∀ label, w'.blocksUnder label = w.blocksUnder label +
        if (s.switchKeys cfg plain).gen = s.gen then 0
        else (s.switchKeys cfg plain).blocksUnder label) →
      (cfg.keyUsageLimit = 0 → ram' = ram ∧ w' = w) → Q .success ram' w') :
    Returns (Op.handle cfg) (psSwitchKeysIfNecessary cfg crypto s.plain.blocks) Q ram w := by
  rw [psSwitchKeysIfNecessary, returns_bind, returns_get, numBlocks]
  rw [Slot.switchKeys] at after
  split
  · next above =>
      simp only [if_pos above, if_neg (Slot.gen_rekey_ne plain)] at after
      have blocks : s.plain.blocks = plain.blocks := by
        rw [Payload.blocks, Payload.blocks, same]
      rw [blocks, returns_bind]
      exact returns_rekey works above.1 get gen label trim fun ram' w' storing here count used ↦
        after ram' w' storing here count used fun unlimited ↦ absurd unlimited above.1
  · next under =>
      simp only [if_neg under] at after
      exact after ram w ⟨rfl, rfl, rfl, rfl, Nat.le_succ _, ⟨rfl, rfl, rfl⟩, fun _ _ ↦ rfl⟩ here
        numBlocks (fun _ ↦ rfl) fun _ ↦ ⟨rfl, rfl⟩

/-- `ps_store_object`. -/
theorem returns_storeObject {Q : Status × Word → Ram Tag m → World Tag m → Prop}
    {iv : Iv} {s : Slot}
    (plain : Payload) {blocks : Word} (works : w.fails = noFails)
    (get : psCryptoGetIv ram.ivBuf = some iv) (gen : s.gen ≠ BitVec.allOnes 32)
    (label : ram.object.label = s.label) (numBlocks : ram.numBlocks = s.numBlocks)
    (trim : ram.object.payload.trim = plain)
    (after : ∀ blocks' ram' w', Storing ram.fid ram w ram' w' →
      Sealed crypto ram.fid (s.store cfg plain) ram' w' →
      ram'.numBlocks = (s.store cfg plain).numBlocks →
      (∀ label, w'.blocksUnder label = w.blocksUnder label +
        (s.store cfg plain).blocksUnder label) →
      Q (.success, blocks') ram' w') :
    Returns (Op.handle cfg) (psStoreObject cfg crypto blocks) Q ram w := by
  have newBlocks : psEncryptedObjectBlocks ram.object.payload.currentSize = plain.blocks :=
    trim ▸ rfl
  rw [psStoreObject, returns_bind, returns_get]
  rw [Slot.store] at after
  split
  · next unlimited =>
      simp only [if_pos unlimited] at after
      rw [returns_bind]
      refine returns_write ram works get ?_ ?_ fun ram' w' storing here numBlocks' used ↦
        after _ ram' w' storing here (numBlocks'.trans numBlocks) used
      · exact label
      · exact trim
  · next limited =>
      simp only [if_neg limited] at after
      simp only [newBlocks]
      rw [switchKeyBeforeWrite.eq_def, returns_bind, returns_bind, returns_get, numBlocks]
      split
      · next full =>
          simp only [if_pos full] at after
          exact returns_rekey works limited get gen label trim fun ram' w' ↦ after _ ram' w'
      · next room =>
          simp only [if_neg room] at after
          rw [returns_pure]
          refine returns_writeCounted ram _ works limited get ?_ ?_ ?_ fun ram' w' ↦ after _ ram' w'
          · exact label
          · exact trim
          · exact congrArg (· + plain.blocks) numBlocks

/-- The changed object is stored in the file of a free entry. -/
theorem returns_storeInNewFile {Q : Exit → Ram Tag m → World Tag m → Prop} {iv : Iv} {s : Slot}
    (plain : Payload) {fidNum : ℕ} {oldFid : Option ℕ} {blocks size : Word}
    (works : w.fails = noFails) (get : psCryptoGetIv ram.ivBuf = some iv)
    (gen : s.gen ≠ BitVec.allOnes 32) (label : ram.object.label = s.label)
    (numBlocks : ram.numBlocks = s.numBlocks)
    (trim : Payload.trim { ram.object.payload with currentSize := size } = plain)
    (positive : fidNum ≠ 0)
    (enough : fidNum ≤ freeCount ram.objTable.data.objDb (List.finRange (m + 1)))
    (after : ∀ new blocks' ram' w', (ram.objTable.data.objDb new).uid = tfmPsInvalidUid →
      Storing (psObjectFsId new) ram w ram' w' →
      Sealed crypto (psObjectFsId new) (s.store cfg plain) ram' w' →
      ram'.numBlocks = (s.store cfg plain).numBlocks →
      (∀ label, w'.blocksUnder label = w.blocksUnder label +
        (s.store cfg plain).blocksUnder label) →
      Q ⟨.success, oldFid, blocks', true⟩ ram' w') :
    Returns (Op.handle cfg) (storeInNewFile cfg crypto fidNum oldFid blocks size) Q ram w := by
  obtain ⟨new, found, free⟩ := psTableFreeIdx_of_enough positive enough
  rw [storeInNewFile, returns_bind, psObjectTableGetFreeFid, returns_bind, returns_get]
  simp only [found]
  rw [returns_bind]
  refine returns_removeObject works fun err w₁ result _ between objects used ↦ ?_
  rw [if_neg fun failed ↦ result.elim failed.1 failed.2, returns_pure]
  dsimp only
  rw [returns_bind, returns_modify, returns_bind, modifyPayload, returns_modify, returns_bind]
  refine returns_storeObject plain (between.fails.trans works) get gen ?_ ?_ ?_
    fun blocks' ram' w' storing here count used' ↦ ?_
  · exact label
  · exact numBlocks
  · exact trim
  · refine after new blocks' ram' w' free ⟨storing.objTable, storing.active, storing.scratch,
      storing.fid, storing.ivBuf, between.trans storing.between, fun other ne ↦ ?_⟩ here count
      fun label ↦ ?_
    · rw [storing.objects other ne, objects, Function.update_of_ne ne]
    · rw [used', used]

/-- There are too few free entries for the changed object. -/
theorem returns_storeInNewFile_full {Q : Exit → Ram Tag m → World Tag m → Prop} {fidNum : ℕ}
    {oldFid : Option ℕ} {blocks size : Word}
    (few : freeCount ram.objTable.data.objDb (List.finRange (m + 1)) < fidNum)
    (after : Q ⟨.insufficientStorage, oldFid, blocks, true⟩ ram w) :
    Returns (Op.handle cfg) (storeInNewFile cfg crypto fidNum oldFid blocks size) Q ram w := by
  rw [storeInNewFile, returns_bind, psObjectTableGetFreeFid, returns_bind, returns_get,
    psTableFreeIdx_of_few few]
  exact after

end

end TrustedFirmwareM.Ps
