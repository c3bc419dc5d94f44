import TrustedFirmwareM.Ps.ObjectTable

/-!
# The object system

Encrypted object files, and creating, writing, reading and deleting objects.  Each of the functions
ends in a common part that switches keys and updates the object table; `Exit` collects what this
part depends on.
-/

namespace TrustedFirmwareM.Ps

open Program

variable {Tag : Type} {m : ℕ} [Inhabited Tag]

/-! ## Encrypted objects -/

/-- `ps_crypto_to_blocks`. -/
def psCryptoToBlocks (inLen : Word) : Word := 1 + (inLen + 15) / 16

/-- `PS_ENCRYPT_SIZE`: the object information is encrypted with the data.  It takes 16 bytes, since
the header is aligned to 8 bytes for the object identifier in it. -/
def psEncryptSize (plaintextSize : Word) : Word := plaintextSize + 16

/-- `ps_encrypted_object_blocks`. -/
def psEncryptedObjectBlocks (size : Word) : Word := psCryptoToBlocks (psEncryptSize size)

/-- Label of the key for the object in memory. -/
def Object.label (object : Object Tag) : Label := ⟨object.uid, object.clientId, object.gen⟩

/-- `ps_crypto_auth_and_decrypt`, for the object in memory. -/
def psCryptoAuthAndDecrypt (crypto : Crypto Tag m) (ad : Ad Tag m) : PsM Tag m Status := do
  let ram ← Proc.get
  let object := ram.object
  let status ← psCryptoSetkey object.label
  onSuccess status do
    let status ← psaAeadDecrypt ⟨object.label, object.payload⟩
    match if status = .success then
        crypto.decrypt object.label object.iv ad object.payload object.tag else none with
    | none => do
        let _ ← psaDestroyKey
        pure .invalidSignature
    | some plain => do
        Proc.modify fun ram ↦ { ram with object := { ram.object with payload := plain } }
        destroyKeyAfter

/-- `ps_encrypted_object_read`: status and number of blocks decrypted, which are counted also if the
decryption fails. -/
def psEncryptedObjectRead (crypto : Crypto Tag m) (fid : ℕ) : PsM Tag m (Status × Word) := do
  match ← psaItsGetObject fid with
  | .error err => pure (err, 0)
  | .ok file => do
      Proc.modify fun ram ↦ { ram with
        object := { ram.object with iv := file.iv, gen := file.gen, payload := file.cipher } }
      let blocks := psCryptoToBlocks (psEncryptSize (BitVec.ofNat 32 file.cipher.data.length))
      let err ← psCryptoAuthAndDecrypt crypto (.object fid file.gen)
      pure (if err = .success then .success else .genericError, blocks)

/-- `ps_encrypted_object_write`. -/
def psEncryptedObjectWrite (crypto : Crypto Tag m) (fid : ℕ) : PsM Tag m Status := do
  let ram ← Proc.get
  match psCryptoGetIv ram.ivBuf with
  | none => pure .genericError
  | some iv => do
      let object := ram.object
      let plain := { object.payload with
        data := object.payload.data.take object.payload.currentSize.toNat }
      Proc.modify fun ram ↦ { ram with ivBuf := iv, object := { ram.object with iv := iv } }
      let err ← psCryptoEncryptAndTag crypto object.label iv (.object fid object.gen) plain
      if err ≠ .success then pure .genericError
      else do
        let ram ← Proc.get
        psaItsSetObject fid ⟨ram.object.iv, ram.object.gen, ram.object.payload⟩

/-! ## Keys and the table -/

/-- `ps_update_table`. -/
def psUpdateTable (cfg : Config) (crypto : Crypto Tag m) (uid : Uid) (clientId : ℤ) :
    PsM Tag m Status := do
  let err ← psObjectTableSetObjTblInfo cfg crypto uid clientId
  if err = .success then psObjectTableDeleteOldTable
  else do
    let ram ← Proc.get
    let _ ← psaItsRemoveObject ram.fid
    pure err

/-- `ps_switch_key`. -/
def psSwitchKey : PsM Tag m Unit := do
  let ram ← Proc.get
  if ram.object.gen = BitVec.allOnes 32 then Proc.halt
  else Proc.modify fun ram ↦ { ram with
    object := { ram.object with gen := ram.object.gen + 1 }
    numBlocks := 0 }

/-- Switch the key before a write that leaves too few blocks to read the object. -/
def switchKeyBeforeWrite (cfg : Config) (newBlocks : Word) : PsM Tag m Unit := do
  let ram ← Proc.get
  if cfg.keyUsageLimit - ram.numBlocks ≤ 2 * newBlocks then psSwitchKey else pure ()

/-- Count blocks of the current key, if key usage is limited. -/
def addBlocks (cfg : Config) (blocks : Word) : PsM Tag m Unit :=
  if cfg.keyUsageLimit = 0 then pure ()
  else Proc.modify fun ram ↦ { ram with numBlocks := ram.numBlocks + blocks }

/-- `ps_switch_keys_if_necessary`. -/
def psSwitchKeysIfNecessary (cfg : Config) (crypto : Crypto Tag m) (blocks : Word) :
    PsM Tag m Status := do
  let ram ← Proc.get
  if cfg.keyUsageLimit ≠ 0 ∧ cfg.keyUsageLimit < ram.numBlocks + blocks then do
    psSwitchKey
    let err ← psEncryptedObjectWrite crypto ram.fid
    addBlocks cfg blocks
    pure err
  else pure .success

/-- `ps_store_object`: status and the number of blocks of the object, if changed. -/
def psStoreObject (cfg : Config) (crypto : Crypto Tag m) (blocks : Word) :
    PsM Tag m (Status × Word) := do
  let ram ← Proc.get
  if cfg.keyUsageLimit = 0 then do
    let err ← psEncryptedObjectWrite crypto ram.fid
    pure (err, blocks)
  else do
    let newBlocks := psEncryptedObjectBlocks ram.object.payload.currentSize
    switchKeyBeforeWrite cfg newBlocks
    let err ← psEncryptedObjectWrite crypto ram.fid
    addBlocks cfg newBlocks
    pure (err, if err = .success then newBlocks else blocks)

/-- Clear `g_ps_object` before leaving a function. -/
def clearObject : PsM Tag m Unit := Proc.modify fun ram ↦ { ram with object := .empty }

/-- Read the object of an entry that has been looked up: status and number of blocks. -/
def readObject (cfg : Config) (crypto : Crypto Tag m) (uid : Uid) (clientId : ℤ) :
    PsM Tag m (Status × Word) := do
  Proc.modify fun ram ↦ { ram with object := { ram.object with uid := uid, clientId := clientId } }
  let ram ← Proc.get
  let (err, blocks) ← psEncryptedObjectRead crypto ram.fid
  addBlocks cfg blocks
  pure (err, blocks)

/-- The state in which a function reaches its common end. -/
structure Exit where
  /-- Status so far. -/
  err : Status
  /-- File of the object before the function, once a new one is needed. -/
  oldFid : Option ℕ
  /-- Blocks needed to read the object. -/
  blocks : Word
  /-- The keys may have to be switched first. -/
  switchKeys : Bool

/-- Switch the keys, if necessary, when the object has not been written. -/
def Exit.switchKeysIfNecessary (exit : Exit) (cfg : Config) (crypto : Crypto Tag m) :
    PsM Tag m Status :=
  if exit.switchKeys ∧ exit.err ≠ .success then psSwitchKeysIfNecessary cfg crypto exit.blocks
  else pure .success

/-- Update the table for an object that exists; the status of the update counts if there was no
error before. -/
def Exit.updateTable (exit : Exit) (cfg : Config) (crypto : Crypto Tag m) (uid : Uid)
    (clientId : ℤ) (objectExists : Bool) : PsM Tag m Status :=
  if exit.err = .success then psUpdateTable cfg crypto uid clientId
  else if objectExists then do
    let _ ← psUpdateTable cfg crypto uid clientId
    pure exit.err
  else pure exit.err

/-- Remove the file that has been replaced. -/
def Exit.removeOldFile (exit : Exit) (err : Status) : PsM Tag m Status :=
  match exit.oldFid with
  | some oldFid => if err = .success then psaItsRemoveObject oldFid else pure err
  | none => pure err

/-- `ps_req_mngr_read_asset_data`, for the data that the client has sent: status and what is read,
also if it is too little. -/
def psReqMngrReadAssetData (asset : List (BitVec 8)) (size : Word) : Status × List (BitVec 8) :=
  (if asset.length < size.toNat then .programmerError else .success, asset.take size.toNat)

/-- Overwrite part of a buffer. -/
def overwrite (buffer : List (BitVec 8)) (offset : ℕ) (data : List (BitVec 8)) :
    List (BitVec 8) :=
  buffer.take offset ++ data ++ buffer.drop (offset + data.length)

/-- Change the payload of `g_ps_object`. -/
def modifyPayload (f : Payload → Payload) : PsM Tag m Unit :=
  Proc.modify fun ram ↦ { ram with object := { ram.object with payload := f ram.object.payload } }

/-- Store the changed object in a new file, with its new size.  A failure keeps the old file, if
there is one. -/
def storeInNewFile (cfg : Config) (crypto : Crypto Tag m) (fidNum : ℕ) (oldFid : Option ℕ)
    (blocks size : Word) : PsM Tag m Exit := do
  match ← psObjectTableGetFreeFid fidNum with
  | .error err => pure ⟨err, oldFid, blocks, true⟩
  | .ok fid => do
      Proc.modify fun ram ↦ { ram with fid := fid }
      modifyPayload fun payload ↦ { payload with currentSize := size }
      let (err, blocks) ← psStoreObject cfg crypto blocks
      if err = .success then pure ⟨.success, oldFid, blocks, true⟩
      else do
        Proc.modify fun ram ↦ { ram with fid := oldFid.getD ram.fid }
        pure ⟨err, oldFid, blocks, true⟩

/-! ## Object operations -/

/-- `ps_init_empty_object`. -/
def psInitEmptyObject (uid : Uid) (clientId : ℤ) (createFlags size : Word) :
    PsM Tag m Unit :=
  Proc.modify fun ram ↦ { ram with
    object := { (Object.empty : Object Tag) with
      uid := uid
      clientId := clientId
      gen := ram.objTable.gen
      payload := ⟨0, size, createFlags, []⟩ }
    numBlocks := 0 }

/-- `ps_object_create`, up to its common end. -/
def createBody (cfg : Config) (crypto : Crypto Tag m) (uid : Uid) (clientId : ℤ)
    (createFlags size : Word) (asset : List (BitVec 8)) (objectExists : Bool) : PsM Tag m Exit := do
  let store (fidNum : ℕ) (oldFid : Option ℕ) (blocks : Word) : PsM Tag m Exit := do
    let read := psReqMngrReadAssetData asset size
    modifyPayload fun payload ↦ { payload with data := overwrite payload.data 0 read.2 }
    if read.1 ≠ .success then pure ⟨read.1, oldFid, blocks, true⟩
    else storeInNewFile cfg crypto fidNum oldFid blocks size
  if objectExists then do
    let (err, blocks) ← readObject cfg crypto uid clientId
    if err ≠ .success then pure ⟨err, none, blocks, false⟩
    else do
      let ram ← Proc.get
      if ram.object.payload.createFlags &&& psaStorageFlagWriteOnce ≠ 0 then
        pure ⟨.notPermitted, none, blocks, true⟩
      else do
        modifyPayload fun payload ↦ { payload with createFlags := createFlags, maxSize := size }
        store 1 (some ram.fid) blocks
  else do
    psInitEmptyObject uid clientId createFlags size
    store 2 none 0

/-- `ps_object_create`. -/
def psObjectCreate (cfg : Config) (crypto : Crypto Tag m) (uid : Uid) (clientId : ℤ)
    (createFlags size : Word) (asset : List (BitVec 8)) : PsM Tag m Status := do
  if cfg.maxAssetSize < size then pure .invalidArgument
  else do
    let found ← psObjectTableGetObjTblInfo uid clientId
    let objectExists := decide (found = .success)
    let exit ← createBody cfg crypto uid clientId createFlags size asset objectExists
    let _ ← { exit with switchKeys := exit.switchKeys && exit.oldFid.isSome }.switchKeysIfNecessary
      cfg crypto
    let err ← exit.updateTable cfg crypto uid clientId objectExists
    let err ← exit.removeOldFile err
    clearObject
    pure err

/-- `ps_utils_check_contained_in`. -/
def psUtilsCheckContainedIn (supersetSize subsetOffset subsetSize : Word) : Status :=
  if supersetSize < subsetOffset then .invalidArgument
  else if supersetSize - subsetOffset < subsetSize then .invalidArgument
  else .success

/-- `ps_object_write`, up to its common end. -/
def writeBody (cfg : Config) (crypto : Crypto Tag m) (uid : Uid) (clientId : ℤ)
    (offset size : Word) (asset : List (BitVec 8)) : PsM Tag m Exit := do
  let (err, blocks) ← readObject cfg crypto uid clientId
  if err ≠ .success then pure ⟨err, none, blocks, false⟩
  else do
    let ram ← Proc.get
    let payload := ram.object.payload
    if payload.createFlags &&& psaStorageFlagWriteOnce ≠ 0 then
      pure ⟨.notPermitted, none, blocks, true⟩
    else if payload.currentSize < offset then pure ⟨.invalidArgument, none, blocks, true⟩
    else if psUtilsCheckContainedIn payload.maxSize offset size ≠ .success then
      pure ⟨.invalidArgument, none, blocks, true⟩
    else do
      let read := psReqMngrReadAssetData asset size
      modifyPayload fun payload ↦
        { payload with data := overwrite payload.data offset.toNat read.2 }
      if read.1 ≠ .success then pure ⟨read.1, none, blocks, true⟩
      else
        storeInNewFile cfg crypto 1 (some ram.fid) blocks
          (if payload.currentSize < offset + size then offset + size else payload.currentSize)

/-- `ps_object_write`. -/
def psObjectWrite (cfg : Config) (crypto : Crypto Tag m) (uid : Uid) (clientId : ℤ)
    (offset size : Word) (asset : List (BitVec 8)) : PsM Tag m Status := do
  let found ← psObjectTableGetObjTblInfo uid clientId
  onSuccess found do
    let exit ← writeBody cfg crypto uid clientId offset size asset
    let _ ← exit.switchKeysIfNecessary cfg crypto
    let err ← exit.updateTable cfg crypto uid clientId true
    let err ← exit.removeOldFile err
    clearObject
    pure err

/-- The end of `ps_object_read` and `ps_object_get_info`: with a key usage limit the table is
updated, and the status of the update counts if there was no error before. -/
def updateUsage (cfg : Config) (crypto : Crypto Tag m) (uid : Uid) (clientId : ℤ) (err : Status) :
    PsM Tag m Status := do
  if cfg.keyUsageLimit = 0 then pure err
  else do
    let updated ← psUpdateTable cfg crypto uid clientId
    pure (if err = .success then updated else err)

/-- `ps_object_read`: status and the data read. -/
def psObjectRead (cfg : Config) (crypto : Crypto Tag m) (uid : Uid) (clientId : ℤ)
    (offset size : Word) : PsM Tag m (Status × List (BitVec 8)) := do
  let found ← psObjectTableGetObjTblInfo uid clientId
  if found ≠ .success then pure (found, [])
  else do
    let (err, blocks) ← readObject cfg crypto uid clientId
    if err ≠ .success then do
      let err ← updateUsage cfg crypto uid clientId err
      clearObject
      pure (err, [])
    else do
      let ram ← Proc.get
      let payload := ram.object.payload
      let inside := decide (offset ≤ payload.currentSize)
      let count := min size.toNat (payload.currentSize.toNat - offset.toNat)
      let data := if inside then (payload.data.drop offset.toNat).take count else []
      let switched ← psSwitchKeysIfNecessary cfg crypto blocks
      let err ← updateUsage cfg crypto uid clientId
        (if inside then switched else .invalidArgument)
      clearObject
      pure (err, data)

/-- `ps_object_get_info`: status, size and flags. -/
def psObjectGetInfo (cfg : Config) (crypto : Crypto Tag m) (uid : Uid) (clientId : ℤ) :
    PsM Tag m (Status × Word × Word) := do
  let found ← psObjectTableGetObjTblInfo uid clientId
  if found ≠ .success then pure (found, 0, 0)
  else do
    let (err, blocks) ← readObject cfg crypto uid clientId
    if err ≠ .success then do
      let err ← updateUsage cfg crypto uid clientId err
      clearObject
      pure (err, 0, 0)
    else do
      let ram ← Proc.get
      let payload := ram.object.payload
      let switched ← psSwitchKeysIfNecessary cfg crypto blocks
      let err ← updateUsage cfg crypto uid clientId switched
      clearObject
      pure (err, payload.currentSize, payload.createFlags)

/-- The key has to change if a deleted object is created again. -/
def setGenAfterDelete (cfg : Config) : PsM Tag m Unit := do
  let ram ← Proc.get
  if cfg.keyUsageLimit ≠ 0 ∧ ram.objTable.gen ≤ ram.object.gen then
    psObjectTableSetGen (ram.object.gen + 1)
  else pure ()

/-- `ps_object_delete`, from the object read to the removal of its file. -/
def deleteBody (cfg : Config) (crypto : Crypto Tag m) (uid : Uid) (clientId : ℤ) :
    PsM Tag m Status := do
  let ram ← Proc.get
  if ram.object.payload.createFlags &&& psaStorageFlagWriteOnce ≠ 0 then pure .notPermitted
  else do
    let err ← psObjectTableDeleteObject cfg crypto uid clientId
    onSuccess err do
      setGenAfterDelete cfg
      let err ← psObjectTableDeleteOldTable
      onSuccess err (psaItsRemoveObject ram.fid)

/-- The end of `ps_object_delete`: with a key usage limit the table is updated if the object has not
been deleted. -/
def updateUndeleted (cfg : Config) (crypto : Crypto Tag m) (uid : Uid) (clientId : ℤ)
    (err : Status) : PsM Tag m Status :=
  if cfg.keyUsageLimit ≠ 0 ∧ err ≠ .success then psUpdateTable cfg crypto uid clientId
  else pure .success

/-- `ps_object_delete`. -/
def psObjectDelete (cfg : Config) (crypto : Crypto Tag m) (uid : Uid) (clientId : ℤ) :
    PsM Tag m Status := do
  let found ← psObjectTableGetObjTblInfo uid clientId
  onSuccess found do
    let (err, blocks) ← readObject cfg crypto uid clientId
    if err ≠ .success then do
      let _ ← updateUndeleted cfg crypto uid clientId err
      clearObject
      pure err
    else do
      let err ← deleteBody cfg crypto uid clientId
      let _ ← (Exit.mk err none blocks true).switchKeysIfNecessary cfg crypto
      let _ ← updateUndeleted cfg crypto uid clientId err
      clearObject
      pure err

/-! ## The service -/

/-- `ps_system_prepare`. -/
def psSystemPrepare (cfg : Config) (crypto : Crypto Tag m) : PsM Tag m Status := do
  let err ← psObjectTableInit cfg crypto
  if cfg.keyUsageLimit ≠ 0 ∧
      (cfg.keyUsageLimit < 2 * psEncryptedObjectBlocks cfg.maxAssetSize ∨
        BitVec.allOnes 32 - cfg.keyUsageLimit < psEncryptedObjectBlocks cfg.maxAssetSize) then
    pure .genericError
  else pure err

/-- `ps_system_wipe_all`. -/
def psSystemWipeAll (cfg : Config) (crypto : Crypto Tag m) : PsM Tag m Status :=
  psObjectTableCreate cfg crypto

/-- `tfm_ps_init`. -/
def tfmPsInit (cfg : Config) (crypto : Crypto Tag m) : PsM Tag m Status := do
  let err ← psSystemPrepare cfg crypto
  if cfg.createFlashLayout ∧ err ≠ .success then do
    let err ← psSystemWipeAll cfg crypto
    onSuccess err (psSystemPrepare cfg crypto)
  else pure err

/-- `tfm_ps_set`. -/
def tfmPsSet (cfg : Config) (crypto : Crypto Tag m) (clientId : ℤ) (uid : Uid) (dataLength : Word)
    (createFlags : Word) (asset : List (BitVec 8)) : PsM Tag m Status :=
  if uid = tfmPsInvalidUid then pure .invalidArgument
  else if createFlags &&& ~~~7 ≠ 0 then pure .notSupported
  else psObjectCreate cfg crypto uid clientId createFlags dataLength asset

/-- `tfm_ps_get`. -/
def tfmPsGet (cfg : Config) (crypto : Crypto Tag m) (clientId : ℤ) (uid : Uid)
    (dataOffset dataSize : Word) : PsM Tag m (Status × List (BitVec 8)) :=
  if uid = tfmPsInvalidUid then pure (.invalidArgument, [])
  else psObjectRead cfg crypto uid clientId dataOffset dataSize

/-- `tfm_ps_get_info`. -/
def tfmPsGetInfo (cfg : Config) (crypto : Crypto Tag m) (clientId : ℤ) (uid : Uid) :
    PsM Tag m (Status × Word × Word) :=
  if uid = tfmPsInvalidUid then pure (.invalidArgument, 0, 0)
  else psObjectGetInfo cfg crypto uid clientId

/-- `tfm_ps_remove`. -/
def tfmPsRemove (cfg : Config) (crypto : Crypto Tag m) (clientId : ℤ) (uid : Uid) :
    PsM Tag m Status :=
  if uid = tfmPsInvalidUid then pure .invalidArgument
  else do
    let err ← psObjectDelete cfg crypto uid clientId
    pure (if err = .invalidSignature then .genericError else err)

end TrustedFirmwareM.Ps
