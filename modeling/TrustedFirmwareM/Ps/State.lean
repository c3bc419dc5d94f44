import TrustedFirmwareM.Lib.Program
import TrustedFirmwareM.Lib.Numerals
import Mathlib.Data.BitVec
import Mathlib.Data.Fin.Basic
import Mathlib.Logic.Function.Basic

/-!
# Data model of Protected Storage

Objects are encrypted files of the internal trusted storage, and an authenticated object table says
which file belongs to which object.  The table is kept in one of two files; three non-volatile
counters tie it to the latest save.  The model is the one with encryption and rollback protection.
-/

namespace TrustedFirmwareM.Ps

open Program

/-- `psa_status_t`, as far as Protected Storage uses it. -/
inductive Status
  | success
  | programmerError
  | invalidArgument
  | notPermitted
  | notSupported
  | doesNotExist
  | insufficientStorage
  | storageFailure
  | invalidSignature
  | genericError
  deriving DecidableEq

/-- A 32-bit word: a size, a flag set, a block count or a key generation. -/
abbrev Word := BitVec 32

/-- `psa_storage_uid_t`. -/
abbrev Uid := BitVec 64

/-- `TFM_PS_INVALID_UID`, the identifier of a free table entry. -/
def tfmPsInvalidUid : Uid := 0

/-- `PSA_STORAGE_FLAG_WRITE_ONCE`. -/
def psaStorageFlagWriteOnce : Word := 1

/-- Build options and platform limits. -/
structure Config where
  /-- `PS_MAX_ASSET_SIZE`. -/
  maxAssetSize : Word
  /-- `PS_AES_KEY_USAGE_LIMIT`, 0 for no limit. -/
  keyUsageLimit : Word
  /-- `PS_CREATE_FLASH_LAYOUT`. -/
  createFlashLayout : Bool
  /-- `TFM_SP_PS`, the identifier of the partition. -/
  tfmSpPs : ℤ
  /-- Largest value of a non-volatile counter. -/
  nvMax : ℕ
  /-- A counter can count. -/
  nvMax_pos : 0 < nvMax

/-! ## Initialisation vectors -/

/-- The two parts in which an initialisation vector is counted up. -/
structure Iv where
  /-- The lower 8 bytes. -/
  low : BitVec 64
  /-- The upper 4 bytes. -/
  high : BitVec 32
  deriving DecidableEq

/-- The value that an initialisation vector counts. -/
def Iv.toNat (iv : Iv) : ℕ := iv.high.toNat * 2 ^ 64 + iv.low.toNat

/-- The cleared initialisation vector. -/
def Iv.zero : Iv := ⟨0, 0⟩

/-- `ps_crypto_get_iv`: the next initialisation vector, unless all have been used. -/
def psCryptoGetIv (iv : Iv) : Option Iv :=
  let low := iv.low + 1
  if low = 0 then
    let high := iv.high + 1
    if high = 0 then none else some ⟨low, high⟩
  else some ⟨low, iv.high⟩

theorem psCryptoGetIv_toNat {iv next : Iv} (get : psCryptoGetIv iv = some next) :
    next.toNat = iv.toNat + 1 := by
  simp only [psCryptoGetIv] at get
  split at get
  · next low =>
      split at get
      · cases get
      · next high =>
          cases get
          simp only [Iv.toNat]
          bv_omega
  · next low =>
      cases get
      simp only [Iv.toNat]
      bv_omega

/-! ## Files and tables -/

variable (Tag : Type) (m : ℕ)

/-- What a key is derived from, as `fill_key_label` collects it.  The generation stays 0 without a
key usage limit. -/
structure Label where
  /-- Object identifier. -/
  uid : Uid
  /-- Owner of the object. -/
  clientId : ℤ
  /-- Key generation. -/
  gen : Word
  deriving DecidableEq

/-- The part of an object that is encrypted: `ps_object_info_t` and the data behind it. -/
structure Payload where
  /-- Current size of the data. -/
  currentSize : Word
  /-- Largest size of the data. -/
  maxSize : Word
  /-- Creation flags. -/
  createFlags : Word
  /-- Data. -/
  data : List (BitVec 8)
  deriving DecidableEq

/-- An object file: what is stored from the initialisation vector on. -/
structure ObjectFile where
  /-- Initialisation vector. -/
  iv : Iv
  /-- Key generation. -/
  gen : Word
  /-- Ciphertext, read like the plaintext it stands for. -/
  cipher : Payload
  deriving DecidableEq

/-- `ps_obj_table_entry_t`. -/
structure Entry where
  /-- Tag of the object file. -/
  tag : Tag
  /-- Blocks encrypted or decrypted with the current key. -/
  numBlocks : Word
  /-- Object identifier. -/
  uid : Uid
  /-- Owner of the object. -/
  clientId : ℤ
  deriving DecidableEq

/-- The authenticated part of `ps_obj_table_t`, with one entry more than `PS_NUM_ASSETS`. -/
structure TableData where
  /-- Object system version. -/
  version : BitVec 8
  /-- Entries. -/
  objDb : Fin (m + 1) → Entry Tag
  deriving DecidableEq

/-- `ps_obj_table_t`. -/
structure Table where
  /-- Tag of the table. -/
  tag : Tag
  /-- Initialisation vector. -/
  iv : Iv
  /-- Key generation. -/
  gen : Word
  /-- Authenticated part. -/
  data : TableData Tag m
  deriving DecidableEq

/-- Associated data of an encryption. -/
inductive Ad
  /-- `auth_data_t` of an object file. -/
  | object (fid : ℕ) (gen : Word)
  /-- `ps_crypto_assoc_data_t` of an object table. -/
  | table (data : TableData Tag m) (nvCounter : ℕ)
  deriving DecidableEq

/-- The authenticated encryption of the crypto service.  It decrypts what it has encrypted and
nothing else, and likewise for tags without a plaintext. -/
structure Crypto where
  /-- `psa_aead_encrypt` under a derived key: ciphertext and tag. -/
  encrypt : Label → Iv → Ad Tag m → Payload → Payload × Tag
  /-- `psa_aead_decrypt` under a derived key. -/
  decrypt : Label → Iv → Ad Tag m → Payload → Tag → Option Payload
  /-- `psa_aead_encrypt` without a plaintext. -/
  authTag : Label → Iv → Ad Tag m → Tag
  /-- `psa_aead_decrypt` without a ciphertext. -/
  authentic : Label → Iv → Ad Tag m → Tag → Bool
  /-- Encryption keeps the length of the data. -/
  encrypt_length : ∀ label iv ad plain,
    (encrypt label iv ad plain).1.data.length = plain.data.length
  /-- Decryption gives back what was encrypted. -/
  decrypt_encrypt : ∀ label iv ad plain,
    decrypt label iv ad (encrypt label iv ad plain).1 (encrypt label iv ad plain).2 = some plain
  /-- Nothing else decrypts with the tag of an encryption. -/
  encrypt_of_decrypt : ∀ label iv ad plain label' iv' ad' cipher plain',
    decrypt label' iv' ad' cipher (encrypt label iv ad plain).2 = some plain' →
      label' = label ∧ iv' = iv ∧ ad' = ad ∧ plain' = plain
  /-- A tag is authentic for what it was made for and for nothing else. -/
  authentic_authTag : ∀ label iv ad label' iv' ad',
    authentic label' iv' ad' (authTag label iv ad) = true ↔
      label' = label ∧ iv' = iv ∧ ad' = ad

/-! ## Storage -/

/-- One authenticated encryption. -/
structure Encryption where
  /-- What the key is derived from. -/
  label : Label
  /-- Initialisation vector. -/
  iv : Iv
  /-- Associated data. -/
  ad : Ad Tag m
  /-- Plaintext, if there is one. -/
  plain : Option Payload
  deriving DecidableEq

/-- One authenticated decryption of an object. -/
structure Decryption where
  /-- What the key is derived from. -/
  label : Label
  /-- Ciphertext. -/
  cipher : Payload
  deriving DecidableEq

/-- A save of the object table, under a value of the first counter. -/
inductive Save
  /-- The table is about to be tagged and written. -/
  | saving (nvc : ℕ) (data : TableData Tag m)
  /-- The table is written and the counters are aligned. -/
  | saved (nvc : ℕ) (data : TableData Tag m)
  deriving DecidableEq

/-- Operations that Protected Storage issues, and marks in its history. -/
inductive Op
  /-- `psa_its_get` of a table file. -/
  | getTable (i : Fin 2)
  /-- `psa_its_set` of a table file. -/
  | setTable (i : Fin 2) (table : Table Tag m)
  /-- `psa_its_remove` of a table file. -/
  | removeTable (i : Fin 2)
  /-- `psa_its_get` of an object file. -/
  | getObject (fid : ℕ)
  /-- `psa_its_set` of an object file. -/
  | setObject (fid : ℕ) (file : ObjectFile)
  /-- `psa_its_remove` of an object file. -/
  | removeObject (fid : ℕ)
  /-- `ps_read_nv_counter`. -/
  | readNvCounter (c : Fin 3)
  /-- `ps_increment_nv_counter`. -/
  | incrementNvCounter (c : Fin 3)
  /-- `ps_crypto_setkey`. -/
  | setKey (label : Label)
  /-- `psa_aead_encrypt`. -/
  | encrypted (encryption : Encryption Tag m)
  /-- `psa_aead_decrypt` of an object. -/
  | decrypted (decryption : Decryption)
  /-- `psa_destroy_key`. -/
  | destroyKey
  /-- A save begins or ends. -/
  | mark (save : Save Tag m)

variable {Tag m}

/-- Result of an operation. -/
def Op.Result : Op Tag m → Type
  | .getTable _ => Except Status (Table Tag m)
  | .getObject _ => Except Status ObjectFile
  | .readNvCounter _ => Except Status ℕ
  | .mark _ => Unit
  | .setTable _ _ | .removeTable _ | .setObject _ _ | .removeObject _ | .incrementNvCounter _
  | .setKey _ | .encrypted _ | .decrypted _ | .destroyKey => Status

/-- What is kept over a power loss, and what is remembered about it. -/
structure World (Tag : Type) (m : ℕ) where
  /-- Table files. -/
  tables : Fin 2 → Option (Table Tag m)
  /-- Object files by file identifier. -/
  objects : ℕ → Option ObjectFile
  /-- Non-volatile counters. -/
  nvc : Fin 3 → ℕ
  /-- Operations issued so far. -/
  ops : ℕ
  /-- Which operation fails, by its number. -/
  fails : Op Tag m → ℕ → Bool
  /-- Encryptions, latest first. -/
  encryptions : List (Encryption Tag m)
  /-- Decryptions of objects, latest first. -/
  decryptions : List Decryption
  /-- Saves of the table, latest first. -/
  saves : List (Save Tag m)
  /-- Contents that table files have had. -/
  written : List (Table Tag m)
  /-- The first counter has been incremented and no table file has been written since. -/
  window : Bool

/-- Result of an operation that fails. -/
def Op.failure : (o : Op Tag m) → o.Result
  | .getTable _ | .getObject _ => .error .storageFailure
  | .readNvCounter _ => .error .genericError
  | .mark _ => ()
  | .setTable _ _ | .removeTable _ | .setObject _ _ | .removeObject _ => Status.storageFailure
  | .incrementNvCounter _ | .setKey _ | .encrypted _ | .decrypted _ | .destroyKey =>
      Status.genericError

/-- An operation that does not fail. -/
def Op.perform (cfg : Config) : (o : Op Tag m) → World Tag m → o.Result × World Tag m
  | .getTable i, w => (match w.tables i with
      | none => .error .doesNotExist
      | some table => .ok table, w)
  | .setTable i table, w => (Status.success, { w with
      tables := Function.update w.tables i (some table)
      written := table :: w.written
      window := false })
  | .removeTable i, w =>
      match w.tables i with
      | none => (Status.doesNotExist, w)
      | some _ => (Status.success, { w with tables := Function.update w.tables i none })
  | .getObject fid, w => (match w.objects fid with
      | none => .error .doesNotExist
      | some file => .ok file, w)
  | .setObject fid file, w =>
      (Status.success, { w with objects := Function.update w.objects fid (some file) })
  | .removeObject fid, w =>
      match w.objects fid with
      | none => (Status.doesNotExist, w)
      | some _ => (Status.success, { w with objects := Function.update w.objects fid none })
  | .readNvCounter c, w => (.ok (w.nvc c), w)
  | .incrementNvCounter c, w =>
      if w.nvc c < cfg.nvMax then
        (Status.success, { w with
          nvc := Function.update w.nvc c (w.nvc c + 1)
          window := if c = 0 then true else w.window })
      else (Status.genericError, w)
  | .setKey _, w | .destroyKey, w => (Status.success, w)
  | .encrypted encryption, w =>
      (Status.success, { w with encryptions := encryption :: w.encryptions })
  | .decrypted decryption, w =>
      (Status.success, { w with decryptions := decryption :: w.decryptions })
  | .mark save, w => ((), { w with saves := save :: w.saves })

/-- What an operation that fails leaves.  The key has been used even if the encryption or decryption
fails. -/
def Op.attempt : Op Tag m → World Tag m → World Tag m
  | .encrypted encryption, w => { w with encryptions := encryption :: w.encryptions }
  | .decrypted decryption, w => { w with decryptions := decryption :: w.decryptions }
  | _, w => w

/-- Marks are not operations and do not fail. -/
def Op.isInternal : Op Tag m → Bool
  | .mark _ => true
  | _ => false

/-- Perform an operation, or let it fail. -/
def Op.handle (cfg : Config) (o : Op Tag m) (w : World Tag m) : o.Result × World Tag m :=
  if o.isInternal then o.perform cfg w
  else if w.fails o w.ops then (o.failure, o.attempt { w with ops := w.ops + 1 })
  else o.perform cfg { w with ops := w.ops + 1 }

/-! ## Volatile memory -/

/-- `ps_object_t` in memory. -/
structure Object (Tag : Type) where
  /-- Tag. -/
  tag : Tag
  /-- Object identifier for the key label. -/
  uid : Uid
  /-- Owner for the key label. -/
  clientId : ℤ
  /-- Initialisation vector. -/
  iv : Iv
  /-- Key generation. -/
  gen : Word
  /-- Information and data, encrypted and decrypted in place. -/
  payload : Payload

/-- Static variables of the partition. -/
structure Ram (Tag : Type) (m : ℕ) where
  /-- Object table in use. -/
  objTable : Table Tag m
  /-- Active table file. -/
  activeTable : Fin 2
  /-- Scratch table file. -/
  scratchTable : Fin 2
  /-- `ps_crypto_iv_buf`. -/
  ivBuf : Iv
  /-- `g_ps_object`. -/
  object : Object Tag
  /-- File identifier in `g_obj_tbl_info`; its tag is that of `g_ps_object`. -/
  fid : ℕ
  /-- Block count in `g_obj_tbl_info`. -/
  numBlocks : Word

/-- A Protected Storage function. -/
abbrev PsM (Tag : Type) (m : ℕ) (α : Type) : Type := Proc (Ram Tag m) (Op Tag m) Op.Result α

variable [Inhabited Tag]

/-- A cleared payload. -/
def Payload.empty : Payload := ⟨0, 0, 0, []⟩

/-- A cleared object. -/
def Object.empty : Object Tag := ⟨default, 0, 0, .zero, 0, .empty⟩

/-- A cleared table entry. -/
def Entry.empty : Entry Tag := ⟨default, 0, tfmPsInvalidUid, 0⟩

/-- A cleared table. -/
def Table.empty : Table Tag m := ⟨default, .zero, 0, 0, fun _ ↦ .empty⟩

/-- Static variables after a reset. -/
def Ram.reset : Ram Tag m := ⟨.empty, 0, 0, .zero, .empty, 0, 0⟩

end TrustedFirmwareM.Ps
