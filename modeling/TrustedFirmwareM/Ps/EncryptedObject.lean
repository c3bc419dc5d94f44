import TrustedFirmwareM.Lib.ByteMemory
import TrustedFirmwareM.Ps.ObjectSystem

/-!
# Bytes of an encrypted object

A file of an object has the initialisation vector in front of the encrypted object.  It is read into
memory as it is, and what is to be decrypted is found from its length before anything is known of
it.
-/

namespace TrustedFirmwareM.Ps.ObjectBytes

/-- A status that is not `PSA_SUCCESS`. -/
abbrev Failure : Type := {status : ℤ // status ≠ 0}

/-- `PSA_ERROR_GENERIC_ERROR`. -/
def psaErrorGenericError : Failure := ⟨-132, by decide⟩

/-- `PSA_ERROR_INVALID_SIGNATURE`. -/
def psaErrorInvalidSignature : Failure := ⟨-149, by decide⟩

/-- `PS_TAG_LEN_BYTES`. -/
def psTagLenBytes : ℕ := 16

/-- `PS_IV_LEN_BYTES`. -/
def psIvLenBytes : ℕ := 12

/-- The layout of `ps_object_t`, which depends on the compiler and on the key usage limit.  The tag
is its first member. -/
structure Layout where
  /-- Offset of `header.crypto.ref.uid`. -/
  uidOff : ℕ
  /-- Offset of `header.crypto.ref.client_id`. -/
  clientIdOff : ℕ
  /-- Offset of `header.crypto.ref.iv`. -/
  ivOff : ℕ
  /-- Offset of `header.crypto.ref.key_gen_nr`, if there is a key usage limit. -/
  keyGenOff : Option ℕ
  /-- Offset of `header.info`. -/
  infoOff : ℕ
  /-- Offset of `data`. -/
  dataOff : ℕ
  /-- Size of the object. -/
  objSize : ℕ
  /-- `PS_MAX_OBJECT_DATA_SIZE`. -/
  maxObjectDataSize : ℕ
  /-- The vector is in front of the information. -/
  iv_le : ivOff + psIvLenBytes ≤ infoOff
  /-- The information has three words. -/
  info_le : infoOff + 12 ≤ dataOff
  /-- `PS_OBJECT_BUF_SIZE` has room for the tag. -/
  data_le : dataOff + (maxObjectDataSize + psTagLenBytes) ≤ objSize
  /-- An object is not larger than memory for data. -/
  small : objSize < 2 ^ 31

variable {L : Layout}

/-- `STORED_HEADER_DATA_SIZE`. -/
def Layout.storedHeaderDataSize (L : Layout) : ℕ := L.infoOff - L.ivOff

/-- `PS_ENCRYPT_SIZE`. -/
def Layout.psEncryptSize (L : Layout) (plaintextSize : Word) : Word :=
  plaintextSize + BitVec.ofNat 32 L.dataOff - BitVec.ofNat 32 L.infoOff

/-- `PS_MAX_ENCRYPTED_OBJ_SIZE`. -/
def Layout.psMaxEncryptedObjSize (L : Layout) : ℕ := L.maxObjectDataSize + L.dataOff - L.infoOff

/-- `PS_CRYPTO_BUF_LEN`. -/
def Layout.psCryptoBufLen (L : Layout) : ℕ := L.psMaxEncryptedObjSize + psTagLenBytes

/-- The little-endian word of four bytes. -/
def wordOf (bytes : List (BitVec 8)) : Word :=
  bytes.getD 3 0 ++ bytes.getD 2 0 ++ bytes.getD 1 0 ++ bytes.getD 0 0

/-- The bytes of a word. -/
def bytesOf (word : Word) : List (BitVec 8) :=
  [word.setWidth 8, (word >>> 8).setWidth 8, (word >>> 16).setWidth 8, (word >>> 24).setWidth 8]

/-- `header.info.current_size` of an object in memory. -/
def currentSize (L : Layout) (m : ByteMemory) (obj : Word) : Word :=
  wordOf (m.read (obj + BitVec.ofNat 32 L.infoOff) 4)

/-- What `ps_encrypted_object_write` encrypts of an object in memory. -/
def plaintext (L : Layout) (m : ByteMemory) (obj : Word) : List (BitVec 8) :=
  let wrtSize := L.psEncryptSize (currentSize L m obj)
  m.read (obj + BitVec.ofNat 32 L.infoOff) wrtSize.toNat

/-- A plaintext that Protected Storage has encrypted: no object is larger than the largest one. -/
def Written (L : Layout) (plain : List (BitVec 8)) : Prop :=
  ∃ m obj, (currentSize L m obj).toNat ≤ L.maxObjectDataSize ∧ plain = plaintext L m obj

/-- The services that Protected Storage calls. -/
structure Services (L : Layout) where
  /-- Keys of the crypto service. -/
  Key : Type
  /-- The content of a file of the internal trusted storage, or the error in reading it. -/
  file : Word → Except Failure (List (BitVec 8))
  /-- `ps_crypto_setkey`. -/
  psCryptoSetkey : List (BitVec 8) → Except Failure Key
  /-- `psa_aead_decrypt`: key, nonce, additional data, ciphertext with its tag, and room for the
  plaintext. -/
  psaAeadDecrypt : Key → List (BitVec 8) → List (BitVec 8) → List (BitVec 8) → ℕ →
    Except Failure (List (BitVec 8))
  /-- `psa_destroy_key`. -/
  psaDestroyKey : Key → ℤ
  /-- The plaintext is shorter than the ciphertext by the tag. -/
  length_eq : ∀ key nonce add ciphertext outSize plain,
    psaAeadDecrypt key nonce add ciphertext outSize = .ok plain →
      plain.length + psTagLenBytes = ciphertext.length
  /-- Only what has been encrypted is decrypted. -/
  authentic : ∀ key nonce add ciphertext outSize plain,
    psaAeadDecrypt key nonce add ciphertext outSize = .ok plain → Written L plain

/-- `psa_its_get` from the start of a file: no more than the file has. -/
def psaItsGet (S : Services L) (fid dataSize : Word) : Except Failure (List (BitVec 8)) :=
  (S.file fid).map fun bytes ↦ bytes.take dataSize.toNat

/-- What has been done with the sizes that come from a file. -/
structure Sizes where
  /-- `decrypt_size`. -/
  decryptSize : Word
  /-- `*p_blocks`. -/
  blocks : Word
  /-- Where the tag has been copied. -/
  tagAddr : Word
  /-- Start and size of the ciphertext of the call of `psa_aead_decrypt`. -/
  aead : Option (Word × Word)

/-- What a read leaves behind. -/
structure Result where
  /-- The status. -/
  status : ℤ
  /-- Memory. -/
  memory : ByteMemory
  /-- The sizes, if the file could be read. -/
  sizes : Option Sizes

/-- What decryption leaves behind. -/
structure Decrypted where
  /-- The status. -/
  status : ℤ
  /-- Memory. -/
  memory : ByteMemory
  /-- `*out_len`. -/
  outLen : Word
  /-- Where the tag has been copied. -/
  tagAddr : Word
  /-- Start and size of the ciphertext of the call of `psa_aead_decrypt`. -/
  aead : Option (Word × Word)

/-- The key generation of an object, if there is a key usage limit. -/
def keyGen (L : Layout) (m : ByteMemory) (obj : Word) : List (BitVec 8) :=
  match L.keyGenOff with
  | none => []
  | some keyGenOff => m.read (obj + BitVec.ofNat 32 keyGenOff) 4

/-- `fill_key_label`. -/
def fillKeyLabel (L : Layout) (m : ByteMemory) (obj : Word) : List (BitVec 8) :=
  m.read (obj + BitVec.ofNat 32 L.clientIdOff) 4 ++ m.read (obj + BitVec.ofNat 32 L.uidOff) 8 ++
    keyGen L m obj

/-- `ps_crypto_auth_and_decrypt` of an object, in place. -/
def psCryptoAuthAndDecrypt (S : Services L) (m : ByteMemory) (obj : Word) (add : List (BitVec 8))
    (input inLen : Word) (outSize : ℕ) : Decrypted :=
  let label := fillKeyLabel L m obj
  -- copy the tag into the input buffer
  let tagAddr := input + inLen
  let m := m.write tagAddr (m.read obj psTagLenBytes)
  let inLen := inLen + BitVec.ofNat 32 psTagLenBytes
  match S.psCryptoSetkey label with
  | .error err => ⟨err.1, m, 0, tagAddr, none⟩
  | .ok key =>
      let nonce := m.read (obj + BitVec.ofNat 32 L.ivOff) psIvLenBytes
      match S.psaAeadDecrypt key nonce add (m.read input inLen.toNat) outSize with
      | .error _ => ⟨psaErrorInvalidSignature.1, m, 0, tagAddr, some (input, inLen)⟩
      | .ok plain =>
          let m := m.write input plain
          let outLen := BitVec.ofNat 32 plain.length
          if S.psaDestroyKey key ≠ 0 then
            ⟨psaErrorGenericError.1, m, outLen, tagAddr, some (input, inLen)⟩
          else ⟨0, m, outLen, tagAddr, some (input, inLen)⟩

/-- `ps_object_auth_decrypt`. -/
def psObjectAuthDecrypt (S : Services L) (m : ByteMemory) (fid curSize obj : Word) : Result :=
  let authData := bytesOf fid ++ keyGen L m obj
  let pObjData := obj + BitVec.ofNat 32 L.infoOff
  -- assume that the key is used even if the crypto operation fails
  let blocks := psCryptoToBlocks curSize
  let d := psCryptoAuthAndDecrypt S m obj authData pObjData curSize (L.objSize - L.infoOff)
  let sizes : Sizes := ⟨curSize, blocks, d.tagAddr, d.aead⟩
  if d.status ≠ 0 ∨ d.outLen ≠ curSize then ⟨psaErrorGenericError.1, d.memory, some sizes⟩
  else ⟨0, d.memory, some sizes⟩

/-- `ps_encrypted_object_read`. -/
def psEncryptedObjectRead (S : Services L) (m : ByteMemory) (fid obj : Word) : Result :=
  match psaItsGet S fid (BitVec.ofNat 32 (L.psMaxEncryptedObjSize + L.storedHeaderDataSize)) with
  | .error err => ⟨err.1, m, none⟩
  | .ok bytes =>
      let m := m.write (obj + BitVec.ofNat 32 L.ivOff) bytes
      let dataLength := BitVec.ofNat 32 bytes.length
      let decryptSize := dataLength - BitVec.ofNat 32 L.storedHeaderDataSize
      psObjectAuthDecrypt S m fid decryptSize obj

/-- A place for an object in memory. -/
structure Buffer (L : Layout) where
  /-- Its address. -/
  obj : Word
  /-- It does not wrap around. -/
  fits : obj.toNat + L.objSize ≤ 2 ^ 32

/-! ## What is asked of a read -/

/-- The sizes that come from the length of what has been read do not wrap around and stay inside the
object. -/
structure SizesInside (L : Layout) (obj : Word) (length : ℕ) (sizes : Sizes) : Prop where
  /-- `decrypt_size` is what is left of the length. -/
  decryptSize : sizes.decryptSize.toNat + L.storedHeaderDataSize = length
  /-- The blocks are those of `decrypt_size`. -/
  blocks : sizes.blocks.toNat = 1 + (sizes.decryptSize.toNat + 15) / 16
  /-- The tag is copied right behind the ciphertext. -/
  tagAddr : sizes.tagAddr.toNat = obj.toNat + L.infoOff + sizes.decryptSize.toNat
  /-- The object has room for the tag. -/
  tag_le : sizes.tagAddr.toNat + psTagLenBytes ≤ obj.toNat + L.objSize
  /-- The ciphertext and its tag fit into the buffer. -/
  aead : ∀ start size, sizes.aead = some (start, size) →
    start.toNat = obj.toNat + L.infoOff ∧ size.toNat = sizes.decryptSize.toNat + psTagLenBytes ∧
      size.toNat ≤ L.psCryptoBufLen ∧ start.toNat + size.toNat ≤ obj.toNat + L.objSize

/-- What is asked of `ps_encrypted_object_read`. -/
structure ReadSafe (S : Services L) (m : ByteMemory) (fid : Word) (b : Buffer L) : Prop where
  /-- There is an error, or the ciphertext has been authenticated. -/
  outcome : (psEncryptedObjectRead S m fid b.obj).status ≠ 0 ∨
    ∃ sizes, (psEncryptedObjectRead S m fid b.obj).sizes = some sizes ∧ sizes.aead.isSome
  /-- The sizes are inside the object. -/
  sizes : ∀ bytes, psaItsGet S fid
      (BitVec.ofNat 32 (L.psMaxEncryptedObjSize + L.storedHeaderDataSize)) = .ok bytes →
    ∃ sizes, (psEncryptedObjectRead S m fid b.obj).sizes = some sizes ∧
      SizesInside L b.obj bytes.length sizes
  /-- The size of the object agrees with that of its file and fits. -/
  currentSize : (psEncryptedObjectRead S m fid b.obj).status = 0 →
    ∃ sizes, (psEncryptedObjectRead S m fid b.obj).sizes = some sizes ∧
      (ObjectBytes.currentSize L (psEncryptedObjectRead S m fid b.obj).memory b.obj).toNat +
        (L.dataOff - L.infoOff) = sizes.decryptSize.toNat ∧
      (ObjectBytes.currentSize L (psEncryptedObjectRead S m fid b.obj).memory b.obj).toNat ≤
        L.maxObjectDataSize
  /-- Only the object is written. -/
  inside : ∀ a, L.objSize ≤ (a - b.obj).toNat → (psEncryptedObjectRead S m fid b.obj).memory a = m a

variable {S : Services L} {m : ByteMemory} {fid obj : Word} {b : Buffer L} {add : List (BitVec 8)}
  {curSize : Word}

/-! ## Decryption in place -/

/-- What decryption in place does with a ciphertext that fits. -/
structure DecryptPost (L : Layout) (m : ByteMemory) (obj : Word) (size : ℕ) (d : Decrypted) :
    Prop where
  /-- The tag is behind the ciphertext. -/
  tagAddr : d.tagAddr.toNat = obj.toNat + L.infoOff + size
  /-- The ciphertext and its tag are decrypted. -/
  aead : ∀ start len, d.aead = some (start, len) →
    start.toNat = obj.toNat + L.infoOff ∧ len.toNat = size + psTagLenBytes
  /-- Nothing is written outside of the object. -/
  inside : ∀ a, L.objSize ≤ (a - obj).toNat → d.memory a = m a
  /-- The plaintext has been authenticated. -/
  plain : d.status = 0 → d.aead.isSome ∧ ∃ plain, Written L plain ∧ plain.length = size ∧
    d.memory.read (obj + BitVec.ofNat 32 L.infoOff) size = plain

theorem psCryptoAuthAndDecrypt_post (fits : obj.toNat + L.objSize ≤ 2 ^ 32) {outSize : ℕ}
    (room : L.infoOff + (curSize.toNat + psTagLenBytes) ≤ L.objSize) :
    DecryptPost L m obj curSize.toNat
      (psCryptoAuthAndDecrypt S m obj add (obj + BitVec.ofNat 32 L.infoOff) curSize outSize) := by
  have small := L.small
  rw [psTagLenBytes] at room
  have start : (obj + BitVec.ofNat 32 L.infoOff).toNat = obj.toNat + L.infoOff := by
    bv_omega
  have tagAddr : (obj + BitVec.ofNat 32 L.infoOff + curSize).toNat =
      obj.toNat + L.infoOff + curSize.toNat := by
    bv_omega
  have inLen : (curSize + BitVec.ofNat 32 psTagLenBytes).toNat = curSize.toNat + psTagLenBytes := by
    rw [psTagLenBytes]
    bv_omega
  have tagged : ∀ a, L.objSize ≤ (a - obj).toNat →
      m.write (obj + BitVec.ofNat 32 L.infoOff + curSize) (m.read obj psTagLenBytes) a = m a := by
    intro a outside
    apply ByteMemory.write_of_le
    rw [ByteMemory.length_read, psTagLenBytes]
    bv_omega
  rw [psCryptoAuthAndDecrypt]
  dsimp only
  generalize m.write (obj + BitVec.ofNat 32 L.infoOff + curSize)
    (m.read obj psTagLenBytes) = m' at *
  cases S.psCryptoSetkey (fillKeyLabel L m obj) with
  | error err =>
      constructor
      · exact tagAddr
      · intro _ _ called
        cases called
      · exact tagged
      · intro failed
        exact absurd failed err.2
  | ok key =>
      dsimp only
      have called : ∀ a len, some (obj + BitVec.ofNat 32 L.infoOff,
          curSize + BitVec.ofNat 32 psTagLenBytes) = some (a, len) →
            a.toNat = obj.toNat + L.infoOff ∧ len.toNat = curSize.toNat + psTagLenBytes := by
        intro a len eq
        cases eq
        exact ⟨start, inLen⟩
      rw [inLen]
      cases decrypted : S.psaAeadDecrypt key (m'.read (obj + BitVec.ofNat 32 L.ivOff) psIvLenBytes)
          add (m'.read (obj + BitVec.ofNat 32 L.infoOff)
            (curSize.toNat + psTagLenBytes)) outSize with
      | error err =>
          constructor
          · exact tagAddr
          · exact called
          · exact tagged
          · intro failed
            exact absurd failed psaErrorInvalidSignature.2
      | ok plain =>
          have length := S.length_eq _ _ _ _ _ _ decrypted
          have written := S.authentic _ _ _ _ _ _ decrypted
          rw [ByteMemory.length_read] at length
          have length : plain.length = curSize.toNat := by
            omega
          have inside : ∀ a, L.objSize ≤ (a - obj).toNat →
              m'.write (obj + BitVec.ofNat 32 L.infoOff) plain a = m a := by
            intro a outside
            rw [ByteMemory.write_outside (by omega) outside, tagged a outside]
          have read : (m'.write (obj + BitVec.ofNat 32 L.infoOff) plain).read
              (obj + BitVec.ofNat 32 L.infoOff) curSize.toNat = plain := by
            rw [← length]
            exact ByteMemory.read_write_self (by omega)
          dsimp only
          split_ifs
          · constructor
            · exact tagAddr
            · exact called
            · exact inside
            · intro failed
              exact absurd failed psaErrorGenericError.2
          · constructor
            · exact tagAddr
            · exact called
            · exact inside
            · exact fun _ ↦ ⟨rfl, plain, written, length, read⟩

/-! ## Reading a file -/

theorem psaItsGet_length {dataSize : Word} {bytes : List (BitVec 8)}
    (got : psaItsGet S fid dataSize = .ok bytes) : bytes.length ≤ dataSize.toNat := by
  rw [psaItsGet] at got
  cases file : S.file fid with
  | error err =>
      rw [file] at got
      cases got
  | ok content =>
      rw [file] at got
      cases got
      exact List.length_take_le _ _

/-- The buffer that a file is read into has room for the header that is stored. -/
theorem dataSize_toNat (L : Layout) :
    (BitVec.ofNat 32 (L.psMaxEncryptedObjSize + L.storedHeaderDataSize)).toNat =
      L.psMaxEncryptedObjSize + L.storedHeaderDataSize := by
  have small := L.small
  have data_le := L.data_le
  have info_le := L.info_le
  apply Nat.mod_eq_of_lt
  rw [Layout.psMaxEncryptedObjSize, Layout.storedHeaderDataSize]
  omega

/-- The file is at least as long as the header if and only if what is read of it is. -/
theorem stored_le_iff : (∀ bytes, psaItsGet S fid
      (BitVec.ofNat 32 (L.psMaxEncryptedObjSize + L.storedHeaderDataSize)) = .ok bytes →
        L.storedHeaderDataSize ≤ bytes.length) ↔
    ∀ bytes, S.file fid = .ok bytes → L.storedHeaderDataSize ≤ bytes.length := by
  rw [psaItsGet, dataSize_toNat]
  cases S.file fid with
  | error err =>
      constructor <;> intro _ _ got <;> cases got
  | ok content =>
      constructor
      · intro read bytes got
        cases got
        have taken := read _ rfl
        rw [List.length_take] at taken
        omega
      · intro file bytes got
        cases got
        have whole := file content rfl
        rw [List.length_take]
        omega

/-- The size of an encrypted object is that of the plaintext without the information. -/
theorem currentSize_of_written {memory : ByteMemory} {plain : List (BitVec 8)} {size : ℕ}
    (written : Written L plain) (length : plain.length = size)
    (read : memory.read (obj + BitVec.ofNat 32 L.infoOff) size = plain) :
    (currentSize L memory obj).toNat + (L.dataOff - L.infoOff) = size ∧
      (currentSize L memory obj).toNat ≤ L.maxObjectDataSize := by
  obtain ⟨m', obj', le, rfl⟩ := written
  have small := L.small
  have data_le := L.data_le
  have info_le := L.info_le
  have encryptSize : (L.psEncryptSize (currentSize L m' obj')).toNat =
      (currentSize L m' obj').toNat + (L.dataOff - L.infoOff) := by
    rw [Layout.psEncryptSize]
    bv_omega
  rw [plaintext, ByteMemory.length_read, encryptSize] at length
  have first : size = 4 + (size - 4) := by
    omega
  have word : memory.read (obj + BitVec.ofNat 32 L.infoOff) 4 =
      m'.read (obj' + BitVec.ofNat 32 L.infoOff) 4 := by
    rw [plaintext, encryptSize, length, first] at read
    rw [← ByteMemory.take_read memory _ 4 (size - 4), read, ByteMemory.take_read]
  have same : currentSize L memory obj = currentSize L m' obj' := by
    rw [currentSize, word, currentSize]
  rw [same]
  exact ⟨length, le⟩

theorem psCryptoToBlocks_toNat {size : Word} (size_lt : size.toNat < 2 ^ 31) :
    (psCryptoToBlocks size).toNat = 1 + (size.toNat + 15) / 16 := by
  have one : (1 : Word).toNat = 1 := rfl
  have fifteen : (15 : Word).toNat = 15 := rfl
  have sixteen : (16 : Word).toNat = 16 := rfl
  simp only [psCryptoToBlocks, BitVec.toNat_add, BitVec.toNat_udiv, one, fifteen, sixteen]
  omega

/-- A file that could not be read is an error. -/
theorem readSafe_of_error {err : Failure} (failed : psaItsGet S fid
    (BitVec.ofNat 32 (L.psMaxEncryptedObjSize + L.storedHeaderDataSize)) = .error err) :
    ReadSafe S m fid b := by
  have result : psEncryptedObjectRead S m fid b.obj = ⟨err.1, m, none⟩ := by
    rw [psEncryptedObjectRead, failed]
  constructor
  · rw [result]
    exact Or.inl err.2
  · intro bytes got
    rw [failed] at got
    cases got
  · rw [result]
    intro success
    exact absurd success err.2
  · rw [result]
    exact fun _ _ ↦ rfl

/-- Sizes that fit are inside the object. -/
theorem sizesInside_of_post {d : Decrypted} {size length : ℕ} (post : DecryptPost L m obj size d)
    (curSize_eq : curSize.toNat = size) (length_eq : size + L.storedHeaderDataSize = length)
    (size_le : size ≤ L.psMaxEncryptedObjSize) :
    SizesInside L obj length ⟨curSize, psCryptoToBlocks curSize, d.tagAddr, d.aead⟩ := by
  have small := L.small
  have data_le := L.data_le
  have info_le := L.info_le
  have tagAddr := post.tagAddr
  subst curSize_eq
  rw [Layout.psMaxEncryptedObjSize] at size_le
  constructor
  · exact length_eq
  · exact psCryptoToBlocks_toNat (by omega)
  · exact tagAddr
  · dsimp only
    omega
  · intro start len called
    obtain ⟨start_eq, len_eq⟩ := post.aead start len called
    refine ⟨start_eq, len_eq, ?_, ?_⟩
    · rw [Layout.psCryptoBufLen, Layout.psMaxEncryptedObjSize]
      omega
    · omega

theorem readSafe_of_le {bytes : List (BitVec 8)} (got : psaItsGet S fid
      (BitVec.ofNat 32 (L.psMaxEncryptedObjSize + L.storedHeaderDataSize)) = .ok bytes)
    (le : L.storedHeaderDataSize ≤ bytes.length) : ReadSafe S m fid b := by
  have small := L.small
  have data_le := L.data_le
  have info_le := L.info_le
  have iv_le := L.iv_le
  have fits := b.fits
  have length_le := psaItsGet_length got
  rw [dataSize_toNat] at length_le
  have size : (BitVec.ofNat 32 bytes.length - BitVec.ofNat 32 L.storedHeaderDataSize).toNat =
      bytes.length - L.storedHeaderDataSize := by
    rw [Layout.psMaxEncryptedObjSize, Layout.storedHeaderDataSize] at *
    bv_omega
  have size_le : bytes.length - L.storedHeaderDataSize ≤ L.psMaxEncryptedObjSize := by
    omega
  have filled : ∀ a, L.objSize ≤ (a - b.obj).toNat →
      m.write (b.obj + BitVec.ofNat 32 L.ivOff) bytes a = m a := by
    intro a outside
    apply ByteMemory.write_outside _ outside
    rw [Layout.psMaxEncryptedObjSize, Layout.storedHeaderDataSize] at length_le
    omega
  have result : psEncryptedObjectRead S m fid b.obj =
      psObjectAuthDecrypt S (m.write (b.obj + BitVec.ofNat 32 L.ivOff) bytes) fid
        (BitVec.ofNat 32 bytes.length - BitVec.ofNat 32 L.storedHeaderDataSize) b.obj := by
    rw [psEncryptedObjectRead, got]
  generalize BitVec.ofNat 32 bytes.length - BitVec.ofNat 32 L.storedHeaderDataSize = curSize at *
  generalize m.write (b.obj + BitVec.ofNat 32 L.ivOff) bytes = m' at *
  have post : DecryptPost L m' b.obj curSize.toNat (psCryptoAuthAndDecrypt S m' b.obj
      (bytesOf fid ++ keyGen L m' b.obj) (b.obj + BitVec.ofNat 32 L.infoOff) curSize
        (L.objSize - L.infoOff)) := by
    apply psCryptoAuthAndDecrypt_post fits
    rw [Layout.psMaxEncryptedObjSize] at size_le
    omega
  rw [psObjectAuthDecrypt] at result
  generalize psCryptoAuthAndDecrypt S m' b.obj (bytesOf fid ++ keyGen L m' b.obj)
    (b.obj + BitVec.ofNat 32 L.infoOff) curSize (L.objSize - L.infoOff) = d at *
  rw [← size] at size_le
  have length_eq : curSize.toNat + L.storedHeaderDataSize = bytes.length := by
    omega
  have sizes := sizesInside_of_post post rfl length_eq size_le
  have inside : ∀ a, L.objSize ≤ (a - b.obj).toNat → d.memory a = m a := by
    intro a outside
    rw [post.inside a outside, filled a outside]
  split_ifs at result with failed
  · constructor
    · rw [result]
      exact Or.inl psaErrorGenericError.2
    · intro found got'
      rw [got] at got'
      cases got'
      rw [result]
      exact ⟨_, rfl, sizes⟩
    · rw [result]
      intro success
      exact absurd success psaErrorGenericError.2
    · rw [result]
      exact inside
  · rw [not_or, not_not, not_not] at failed
    obtain ⟨called, plain, written, length, read⟩ := post.plain failed.1
    constructor
    · rw [result]
      exact Or.inr ⟨_, rfl, called⟩
    · intro found got'
      rw [got] at got'
      cases got'
      rw [result]
      exact ⟨_, rfl, sizes⟩
    · rw [result]
      exact fun _ ↦ ⟨_, rfl, currentSize_of_written written length read⟩
    · rw [result]
      exact inside

/-- An object file is read safely if and only if it is at least as long as the header in front of
the encrypted object: nothing checks that before the header is subtracted. -/
theorem readSafe_iff_stored_le (S : Services L) (m : ByteMemory) (fid : Word) (b : Buffer L) :
    ReadSafe S m fid b ↔
      ∀ bytes, S.file fid = .ok bytes → L.storedHeaderDataSize ≤ bytes.length := by
  rw [← stored_le_iff]
  constructor
  · intro safe bytes got
    obtain ⟨sizes, -, inside⟩ := safe.sizes bytes got
    have total := inside.decryptSize
    omega
  · intro le
    cases got : psaItsGet S fid
        (BitVec.ofNat 32 (L.psMaxEncryptedObjSize + L.storedHeaderDataSize)) with
    | error err => exact readSafe_of_error got
    | ok bytes => exact readSafe_of_le got (le bytes got)

/-- The layout with a key usage limit and objects of up to 2048 bytes. -/
def sampleLayout : Layout where
  uidOff := 16
  clientIdOff := 24
  ivOff := 28
  keyGenOff := some 40
  infoOff := 48
  dataOff := 64
  objSize := 2128
  maxObjectDataSize := 2048
  iv_le := by decide
  info_le := by decide
  data_le := by decide
  small := by decide

/-- Every file is empty, and nothing is authenticated. -/
def sampleServices : Services sampleLayout where
  Key := Unit
  file := fun _ ↦ .ok []
  psCryptoSetkey := fun _ ↦ .ok ()
  psaAeadDecrypt := fun _ _ _ _ _ ↦ .error psaErrorInvalidSignature
  psaDestroyKey := fun _ ↦ 0
  length_eq := by
    intro _ _ _ _ _ _ decrypted
    cases decrypted
  authentic := by
    intro _ _ _ _ _ _ decrypted
    cases decrypted

/-- An object at the start of a memory. -/
def sampleBuffer : Buffer sampleLayout := ⟨0x30000000, by decide⟩

/-- An empty file makes 4294967292 bytes of ciphertext. -/
theorem readSafe_fails : ¬ReadSafe sampleServices (fun _ ↦ 0) 5 sampleBuffer := by
  have called : (psEncryptedObjectRead sampleServices (fun _ ↦ 0) 5 sampleBuffer.obj).sizes.bind
      Sizes.aead = some (0x30000030, 0xFFFFFFFC) := by
    decide +kernel
  intro safe
  obtain ⟨sizes, result, inside⟩ := safe.sizes [] rfl
  rw [result] at called
  have fits := (inside.aead _ _ called).2.2.1
  revert fits
  decide

end TrustedFirmwareM.Ps.ObjectBytes
