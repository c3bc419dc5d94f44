import TrustedFirmwareM.Ps.State
import Mathlib.Data.List.FinRange

/-!
# The object table

Saving the table under the first counter, choosing and authenticating a table when the system boots,
and the entries of the table.
-/

namespace TrustedFirmwareM.Ps

open Program

variable {Tag : Type} {m : ℕ}

/-! ## Operations -/

/-- `psa_its_get` of a table file. -/
def psaItsGetTable (i : Fin 2) : PsM Tag m (Except Status (Table Tag m)) :=
  Proc.call (Op.getTable i)

/-- `psa_its_set` of a table file. -/
def psaItsSetTable (i : Fin 2) (table : Table Tag m) : PsM Tag m Status :=
  Proc.call (Op.setTable i table)

/-- `psa_its_remove` of a table file. -/
def psaItsRemoveTable (i : Fin 2) : PsM Tag m Status := Proc.call (Op.removeTable i)

/-- `psa_its_get` of an object file. -/
def psaItsGetObject (fid : ℕ) : PsM Tag m (Except Status ObjectFile) := Proc.call (Op.getObject fid)

/-- `psa_its_set` of an object file. -/
def psaItsSetObject (fid : ℕ) (file : ObjectFile) : PsM Tag m Status :=
  Proc.call (Op.setObject fid file)

/-- `psa_its_remove` of an object file. -/
def psaItsRemoveObject (fid : ℕ) : PsM Tag m Status := Proc.call (Op.removeObject fid)

/-- `ps_read_nv_counter`; the counters are numbered from 0. -/
def psReadNvCounter (c : Fin 3) : PsM Tag m (Except Status ℕ) := Proc.call (Op.readNvCounter c)

/-- `ps_increment_nv_counter`. -/
def psIncrementNvCounter (c : Fin 3) : PsM Tag m Status := Proc.call (Op.incrementNvCounter c)

/-- `ps_crypto_setkey`. -/
def psCryptoSetkey (label : Label) : PsM Tag m Status := Proc.call (Op.setKey label)

/-- `psa_aead_encrypt`, but for its outputs. -/
def psaAeadEncrypt (encryption : Encryption Tag m) : PsM Tag m Status :=
  Proc.call (Op.encrypted encryption)

/-- `psa_aead_decrypt` of an object, but for its outputs. -/
def psaAeadDecrypt (decryption : Decryption) : PsM Tag m Status :=
  Proc.call (Op.decrypted decryption)

/-- `psa_destroy_key`. -/
def psaDestroyKey : PsM Tag m Status := Proc.call Op.destroyKey

/-- A save begins or ends. -/
def mark (save : Save Tag m) : PsM Tag m Unit := Proc.call (Op.mark save)

/-- Go on after a success, and return any other status. -/
def onSuccess (err : Status) (next : PsM Tag m Status) : PsM Tag m Status :=
  if err = .success then next else pure err

/-! ## Encryption -/

/-- Destroy the key behind outputs that have been put in place. -/
def destroyKeyAfter : PsM Tag m Status := do
  let status ← psaDestroyKey
  pure (if status = .success then .success else .genericError)

/-- Encrypt under a key that is derived for it, and put the outputs in place. -/
def encryptWithKey (encryption : Encryption Tag m) (output : Ram Tag m → Ram Tag m) :
    PsM Tag m Status := do
  let status ← psCryptoSetkey encryption.label
  onSuccess status do
    let status ← psaAeadEncrypt encryption
    if status ≠ .success then do
      let _ ← psaDestroyKey
      pure .genericError
    else do
      Proc.modify output
      destroyKeyAfter

/-- `ps_crypto_generate_auth_tag`, for the object table in memory. -/
def psCryptoGenerateAuthTag (crypto : Crypto Tag m) (label : Label) (iv : Iv) (ad : Ad Tag m) :
    PsM Tag m Status :=
  encryptWithKey ⟨label, iv, ad, none⟩ fun ram ↦
    { ram with objTable := { ram.objTable with tag := crypto.authTag label iv ad } }

/-- `ps_crypto_encrypt_and_tag`, for the object in memory. -/
def psCryptoEncryptAndTag (crypto : Crypto Tag m) (label : Label) (iv : Iv) (ad : Ad Tag m)
    (plain : Payload) : PsM Tag m Status :=
  encryptWithKey ⟨label, iv, ad, some plain⟩ fun ram ↦
    let (cipher, tag) := crypto.encrypt label iv ad plain
    { ram with object := { ram.object with tag := tag, payload := cipher } }

/-! ## Saving -/

/-- `PS_OBJECT_SYSTEM_VERSION`. -/
def psObjectSystemVersion : BitVec 8 := 1

/-- `PS_OBJ_TABLE_UID`. -/
def psObjTableUid : Uid := 0x4ee143e1df40bd00

/-- Label of the key for the object table. -/
def tableLabel (cfg : Config) (gen : Word) : Label := ⟨psObjTableUid, cfg.tfmSpPs, gen⟩

/-- Increment a counter a number of times. -/
def incrementBy (c : Fin 3) : ℕ → PsM Tag m Status
  | 0 => pure .success
  | n + 1 => do
      let err ← psIncrementNvCounter c
      onSuccess err (incrementBy c n)

/-- Align one counter with the first one. -/
def alignNvCounter (c : Fin 3) (nvc1 : ℕ) : PsM Tag m Status := do
  match ← psReadNvCounter c with
  | .error _ => pure .genericError
  | .ok value => incrementBy c (nvc1 - value)

/-- `ps_object_table_align_nv_counters`. -/
def psObjectTableAlignNvCounters (nvc1 : ℕ) : PsM Tag m Status := do
  let err ← alignNvCounter 1 nvc1
  onSuccess err (alignNvCounter 2 nvc1)

/-- `ps_object_table_nvc_generate_auth_tag`. -/
def psObjectTableNvcGenerateAuthTag (cfg : Config) (crypto : Crypto Tag m) (nvc1 : ℕ) :
    PsM Tag m Status := do
  let ram ← Proc.get
  match psCryptoGetIv ram.ivBuf with
  | none => pure .genericError
  | some iv => do
      Proc.modify fun ram ↦ { ram with ivBuf := iv, objTable := { ram.objTable with iv := iv } }
      psCryptoGenerateAuthTag crypto (tableLabel cfg ram.objTable.gen) iv
        (.table ram.objTable.data nvc1)

/-- `ps_object_table_fs_write_table`. -/
def psObjectTableFsWriteTable : PsM Tag m Status := do
  let ram ← Proc.get
  let err ← psaItsSetTable ram.scratchTable ram.objTable
  onSuccess err do
    Proc.modify fun ram ↦ { ram with
      scratchTable := ram.activeTable
      activeTable := ram.scratchTable }
    pure .success

/-- `ps_object_table_save_table`, once the first counter has been read. -/
def saveUnder (cfg : Config) (crypto : Crypto Tag m) (nvc1 : ℕ) : PsM Tag m Status := do
  let ram ← Proc.get
  mark (.saving nvc1 ram.objTable.data)
  let err ← psObjectTableNvcGenerateAuthTag cfg crypto nvc1
  onSuccess err do
    let err ← psObjectTableFsWriteTable
    onSuccess err do
      let err ← psObjectTableAlignNvCounters nvc1
      onSuccess err do
        mark (.saved nvc1 ram.objTable.data)
        pure .success

/-- `ps_object_table_save_table`, for the table in use. -/
def psObjectTableSaveTable (cfg : Config) (crypto : Crypto Tag m) : PsM Tag m Status := do
  let err ← psIncrementNvCounter 0
  onSuccess err do
    match ← psReadNvCounter 0 with
    | .error err => pure err
    | .ok nvc1 => saveUnder cfg crypto nvc1

/-! ## Choosing a table -/

/-- `ps_obj_table_state`. -/
inductive TableState
  /-- The table is invalid. -/
  | invalid
  /-- The table is valid with the value of the first counter. -/
  | nvc1Valid
  /-- The table is valid with the value of the third counter. -/
  | nvc3Valid
  deriving DecidableEq

/-- `ps_object_table_authenticate`; 0 stands for a third counter that may not be used. -/
def psObjectTableAuthenticate (cfg : Config) (crypto : Crypto Tag m) (nvc1 nvc3 : ℕ)
    (table : Table Tag m) : TableState :=
  let authentic (nvc : ℕ) : Bool :=
    crypto.authentic (tableLabel cfg table.gen) table.iv (.table table.data nvc) table.tag
  if authentic nvc1 then .nvc1Valid
  else if nvc3 = 0 then .invalid
  else if authentic nvc3 then .nvc3Valid
  else .invalid

/-- State of a table file after `ps_object_table_fs_read_table`, authentication and
`ps_object_table_validate_version`. -/
def tableState (cfg : Config) (crypto : Crypto Tag m) (nvc1 nvc3 : ℕ) :
    Except Status (Table Tag m) → TableState
  | .error _ => .invalid
  | .ok table =>
      if table.data.version ≠ psObjectSystemVersion then .invalid
      else psObjectTableAuthenticate cfg crypto nvc1 nvc3 table

/-- `ps_set_active_object_table`: the file of the active table. -/
def psSetActiveObjectTable (state0 state1 : TableState) : Option (Fin 2) :=
  if state0 = .invalid ∧ state1 = .invalid then none
  else if state0 = .invalid then some 1
  else if state1 = .invalid then some 0
  else if state1 = .nvc1Valid then some 1
  else some 0

/-- The table that `ps_object_table_init` takes, given the results of reading both files and the
counters.  The third counter is used only if it agrees with the second one. -/
def chooseTable (cfg : Config) (crypto : Crypto Tag m) (table0 table1 : Except Status (Table Tag m))
    (nvc1 nvc2 nvc3 : ℕ) : Option (Fin 2 × Table Tag m) :=
  let nvc3 := if nvc3 ≠ nvc2 then 0 else nvc3
  match psSetActiveObjectTable (tableState cfg crypto nvc1 nvc3 table0)
      (tableState cfg crypto nvc1 nvc3 table1) with
  | none => none
  | some active =>
      match if active = 0 then table0 else table1 with
      | .error _ => none
      | .ok table => some (active, table)

/-- The index of the other table file. -/
def otherTable (i : Fin 2) : Fin 2 := if i = 0 then 1 else 0

/-- `ps_object_table_init`, once a table has been chosen. -/
def takeTable (active : Fin 2) (table : Table Tag m) (nvc1 : ℕ) : PsM Tag m Status := do
  Proc.modify fun ram ↦ { ram with
    objTable := table
    activeTable := active
    scratchTable := otherTable active }
  let err ← psaItsRemoveTable (otherTable active)
  if err ≠ .success ∧ err ≠ .doesNotExist then pure err
  else do
    let err ← psObjectTableAlignNvCounters nvc1
    onSuccess err do
      Proc.modify fun ram ↦ { ram with ivBuf := ram.objTable.iv }
      pure .success

/-- `ps_object_table_init`. -/
def psObjectTableInit (cfg : Config) (crypto : Crypto Tag m) : PsM Tag m Status := do
  let table0 ← psaItsGetTable 0
  let table1 ← psaItsGetTable 1
  match ← psReadNvCounter 0 with
  | .error err => pure err
  | .ok nvc1 => do
      match ← psReadNvCounter 1 with
      | .error err => pure err
      | .ok nvc2 => do
          match ← psReadNvCounter 2 with
          | .error err => pure err
          | .ok nvc3 =>
              match chooseTable cfg crypto table0 table1 nvc1 nvc2 nvc3 with
              | none => pure .genericError
              | some (active, table) => takeTable active table nvc1

/-! ## Entries -/

/-- `PS_OBJECT_FS_ID`. -/
def psObjectFsId (idx : Fin (m + 1)) : ℕ := idx + 3

/-- `PS_OBJECT_FS_ID_TO_IDX`. -/
def psObjectFsIdToIdx (fid : ℕ) : Fin (m + 1) := Fin.ofNat (m + 1) (fid - 3)

/-- `ps_get_object_entry_idx`. -/
def psGetObjectEntryIdx (db : Fin (m + 1) → Entry Tag) (uid : Uid) (clientId : ℤ) :
    Option (Fin (m + 1)) :=
  (List.finRange (m + 1)).find? fun i ↦ (db i).uid = uid ∧ (db i).clientId = clientId

/-- The search of `ps_table_free_idx`: the number of indices still missing and the last free
one. -/
def freeIdx (db : Fin (m + 1) → Entry Tag) :
    List (Fin (m + 1)) → ℕ → Fin (m + 1) → ℕ × Fin (m + 1)
  | [], idxNum, lastFree => (idxNum, lastFree)
  | _, 0, lastFree => (0, lastFree)
  | i :: rest, idxNum + 1, lastFree =>
      if (db i).uid = tfmPsInvalidUid then freeIdx db rest idxNum i
      else freeIdx db rest (idxNum + 1) lastFree

/-- `ps_table_free_idx`. -/
def psTableFreeIdx (db : Fin (m + 1) → Entry Tag) (idxNum : ℕ) : Except Status (Fin (m + 1)) :=
  if idxNum = 0 then .error .invalidArgument
  else
    match freeIdx db (List.finRange (m + 1)) idxNum 0 with
    | (0, idx) => .ok idx
    | _ => .error .insufficientStorage

/-- Replace the entry at an index of the table in use. -/
def Ram.setEntry (ram : Ram Tag m) (idx : Fin (m + 1)) (entry : Entry Tag) : Ram Tag m :=
  { ram with objTable := { ram.objTable with data := { ram.objTable.data with
    objDb := Function.update ram.objTable.data.objDb idx entry } } }

/-- `ps_object_table_get_obj_tbl_info`. -/
def psObjectTableGetObjTblInfo (uid : Uid) (clientId : ℤ) : PsM Tag m Status := do
  let ram ← Proc.get
  match psGetObjectEntryIdx ram.objTable.data.objDb uid clientId with
  | none => pure .doesNotExist
  | some idx => do
      let entry := ram.objTable.data.objDb idx
      Proc.modify fun ram ↦ { ram with
        fid := psObjectFsId idx
        object := { ram.object with tag := entry.tag }
        numBlocks := entry.numBlocks }
      pure .success

/-- `ps_object_table_get_free_fid`. -/
def psObjectTableGetFreeFid (fidNum : ℕ) : PsM Tag m (Except Status ℕ) := do
  let ram ← Proc.get
  match psTableFreeIdx ram.objTable.data.objDb fidNum with
  | .error err => pure (.error err)
  | .ok idx => do
      let err ← psaItsRemoveObject (psObjectFsId idx)
      if err ≠ .success ∧ err ≠ .doesNotExist then pure (.error err)
      else pure (.ok (psObjectFsId idx))

/-- `ps_object_table_delete_old_table`. -/
def psObjectTableDeleteOldTable : PsM Tag m Status := do
  let ram ← Proc.get
  psaItsRemoveTable ram.scratchTable

/-- `ps_object_table_set_gen`. -/
def psObjectTableSetGen (newGen : Word) : PsM Tag m Unit := do
  let ram ← Proc.get
  if newGen ≤ ram.objTable.gen then Proc.halt
  else Proc.modify fun ram ↦ { ram with objTable := { ram.objTable with gen := newGen } }

variable [Inhabited Tag]

/-- `ps_object_table_create`. -/
def psObjectTableCreate (cfg : Config) (crypto : Crypto Tag m) : PsM Tag m Status := do
  Proc.modify fun ram ↦ { ram with
    objTable := { (Table.empty : Table Tag m) with
      data := ⟨psObjectSystemVersion, fun _ ↦ .empty⟩ }
    activeTable := 1
    scratchTable := 0 }
  psObjectTableSaveTable cfg crypto

/-- `ps_object_table_set_obj_tbl_info`, for the information in `g_obj_tbl_info`. -/
def psObjectTableSetObjTblInfo (cfg : Config) (crypto : Crypto Tag m) (uid : Uid) (clientId : ℤ) :
    PsM Tag m Status := do
  let ram ← Proc.get
  let backupIdx := psGetObjectEntryIdx ram.objTable.data.objDb uid clientId
  let backup := backupIdx.map fun idx ↦ (idx, ram.objTable.data.objDb idx)
  let idx := psObjectFsIdToIdx ram.fid
  let entry : Entry Tag := ⟨ram.object.tag, ram.numBlocks, uid, clientId⟩
  Proc.modify fun ram ↦ match backupIdx with
    | some old => (ram.setEntry old .empty).setEntry idx entry
    | none => ram.setEntry idx entry
  let err ← psObjectTableSaveTable cfg crypto
  if err = .success then pure err
  else do
    Proc.modify fun ram ↦ match backup with
      | some (old, entry) =>
          if entry.uid ≠ tfmPsInvalidUid then (ram.setEntry old entry).setEntry idx .empty
          else ram.setEntry idx .empty
      | none => ram.setEntry idx .empty
    pure err

/-- `ps_object_table_delete_object`. -/
def psObjectTableDeleteObject (cfg : Config) (crypto : Crypto Tag m) (uid : Uid) (clientId : ℤ) :
    PsM Tag m Status := do
  let ram ← Proc.get
  match psGetObjectEntryIdx ram.objTable.data.objDb uid clientId with
  | none => pure .doesNotExist
  | some idx => do
      let backup := ram.objTable.data.objDb idx
      Proc.modify fun ram ↦ ram.setEntry idx .empty
      let err ← psObjectTableSaveTable cfg crypto
      if err = .success then pure err
      else do
        Proc.modify fun ram ↦ ram.setEntry idx backup
        pure err

end TrustedFirmwareM.Ps
