import Mathlib.Algebra.Group.Nat.Defs
import Mathlib.Data.List.DropRight
import TrustedFirmwareM.Crypto.Alloc

/-!
# The interfaces of the crypto service

Every request names a function.  The functions on multipart operations are served by one handler for
each type of operation.  The handlers find or allocate the operation, call the crypto library, and
release the operation when it is over.  The functions on keys, on asymmetric cryptography and for
random numbers have no operation.  The crypto library is a parameter, and the output vectors are not
mapped: they are written to the client when a request has succeeded.
-/

namespace TrustedFirmwareM.Crypto

/-- Bytes of a vector. -/
abbrev Bytes := List (BitVec 8)

/-- `tfm_crypto_library_key_id_t`. -/
structure KeyId where
  /-- Owner of the key. -/
  owner : ℤ
  /-- `psa_key_id_t`. -/
  keyId : ℕ
  deriving DecidableEq

/-- `struct tfm_crypto_pack_iovec`. -/
structure PackIovec where
  /-- Key. -/
  keyId : ℕ
  /-- Algorithm. -/
  alg : ℕ
  /-- Client context handle associated to a multipart operation. -/
  opHandle : ℕ
  /-- Additional data length for multipart AEAD. -/
  adLength : ℕ
  /-- Plaintext length for multipart AEAD. -/
  plaintextLength : ℕ
  /-- Nonce of a single-part AEAD function. -/
  nonce : Bytes
  /-- Length of the nonce. -/
  nonceLength : ℕ
  /-- Identifies the function. -/
  functionId : BitVec 16
  /-- Key derivation step. -/
  step : ℕ
  /-- Key derivation integer, whose low half is the key derivation capacity. -/
  value : BitVec 64

/-- The key derivation capacity, which shares its place with the integer. -/
def PackIovec.capacity (iov : PackIovec) : BitVec 32 := iov.value.setWidth 32

/-- What an output vector holds. -/
inductive Contents
  /-- Nothing has been written. -/
  | unwritten
  /-- A handle. -/
  | handle (value : ℕ)
  /-- Data of the crypto library. -/
  | data (bytes : Bytes)

/-- `psa_outvec`. -/
structure OutVec where
  /-- Length. -/
  len : ℕ
  /-- What the base points to. -/
  contents : Contents

/-- Calls of the crypto library with an operation. -/
inductive PsaCall
  | hashSetup (alg : ℕ) | hashUpdate (input : Bytes) | hashFinish (size : ℕ)
  | hashVerify (hash : Bytes) | hashAbort
  | macSignSetup (key : KeyId) (alg : ℕ) | macVerifySetup (key : KeyId) (alg : ℕ)
  | macUpdate (input : Bytes) | macSignFinish (size : ℕ) | macVerifyFinish (mac : Bytes) | macAbort
  | cipherEncryptSetup (key : KeyId) (alg : ℕ) | cipherDecryptSetup (key : KeyId) (alg : ℕ)
  | cipherGenerateIv (size : ℕ) | cipherSetIv (iv : Bytes) | cipherUpdate (input : Bytes) (size : ℕ)
  | cipherFinish (size : ℕ) | cipherAbort
  | aeadEncryptSetup (key : KeyId) (alg : ℕ) | aeadDecryptSetup (key : KeyId) (alg : ℕ)
  | aeadGenerateNonce (size : ℕ) | aeadSetNonce (nonce : Bytes)
  | aeadSetLengths (adLength plaintextLength : ℕ) | aeadUpdateAd (input : Bytes)
  | aeadUpdate (input : Bytes) (size : ℕ) | aeadFinish (ciphertextSize tagSize : ℕ)
  | aeadVerify (plaintextSize : ℕ) (tag : Bytes) | aeadAbort
  | keyDerivationSetup (alg : ℕ) | keyDerivationGetCapacity
  | keyDerivationSetCapacity (capacity : BitVec 32)
  | keyDerivationInputBytes (step : ℕ) (data : Bytes)
  | keyDerivationInputInteger (step : ℕ) (value : BitVec 64)
  | keyDerivationInputKey (step : ℕ) (key : KeyId)
  | keyDerivationKeyAgreement (step : ℕ) (key : KeyId) (peerKey : Bytes)
  | keyDerivationOutputBytes (length : ℕ)
  | keyDerivationOutputKey (owner : ℤ) (attributes : Bytes) | keyDerivationAbort

/-- Calls of the crypto library without an operation. -/
inductive PsaSinglePart
  | hashCompute (alg : ℕ) (input : Bytes) (size : ℕ) | hashCompare (alg : ℕ) (input hash : Bytes)
  | macCompute (key : KeyId) (alg : ℕ) (input : Bytes) (size : ℕ)
  | macVerify (key : KeyId) (alg : ℕ) (input mac : Bytes)
  | cipherEncrypt (key : KeyId) (alg : ℕ) (input : Bytes) (size : ℕ)
  | cipherDecrypt (key : KeyId) (alg : ℕ) (input : Bytes) (size : ℕ)
  | aeadEncrypt (key : KeyId) (alg : ℕ) (nonce : Bytes) (nonceLength : ℕ)
      (additionalData plaintext : Bytes) (size : ℕ)
  | aeadDecrypt (key : KeyId) (alg : ℕ) (nonce : Bytes) (nonceLength : ℕ)
      (additionalData ciphertext : Bytes) (size : ℕ)
  | rawKeyAgreement (alg : ℕ) (key : KeyId) (peerKey : Bytes) (size : ℕ)
  | closeKey (key : KeyId) | destroyKey (key : KeyId) | purgeKey (key : KeyId)
  | exportKey (key : KeyId) (size : ℕ) | exportPublicKey (key : KeyId) (size : ℕ)
  | signMessage (key : KeyId) (alg : ℕ) (input : Bytes) (size : ℕ)
  | verifyMessage (key : KeyId) (alg : ℕ) (input signature : Bytes)
  | signHash (key : KeyId) (alg : ℕ) (hash : Bytes) (size : ℕ)
  | verifyHash (key : KeyId) (alg : ℕ) (hash signature : Bytes)
  | asymmetricEncrypt (key : KeyId) (alg : ℕ) (input salt : Bytes) (size : ℕ)
  | asymmetricDecrypt (key : KeyId) (alg : ℕ) (input salt : Bytes) (size : ℕ)

/-- Calls of the crypto library that return the identifier of a key.  The owner of a new key is
given with its attributes. -/
inductive PsaKeyCall
  | importKey (owner : ℤ) (attributes data : Bytes)
  | openKey (key : KeyId)
  | copyKey (key : KeyId) (owner : ℤ) (attributes : Bytes)
  | generateKey (owner : ℤ) (attributes : Bytes)

/-- Calls of the crypto library that fill a buffer of any size. -/
inductive PsaFillCall
  | generateRandom (size : ℕ)
  | getKeyAttributes (key : KeyId)

/-- What a call of the crypto library returns. -/
structure Answer where
  /-- Status. -/
  status : Status
  /-- The outputs. -/
  outputs : List Bytes

/-- The crypto library, with contexts `Ctx` and a state `L` of its own. -/
structure Library (Ctx L : Type) where
  /-- A call with an operation. -/
  call : PsaCall → Ctx → L → Answer × Ctx × L
  /-- `psa_hash_clone`. -/
  hashClone : Ctx → Ctx → L → Status × Ctx × L
  /-- A call without an operation. -/
  singlePart : PsaSinglePart → L → Answer × L
  /-- A call that returns the identifier of a key. -/
  key : PsaKeyCall → L → Status × ℕ × L
  /-- A call that fills a buffer. -/
  fill : PsaFillCall → L → Status × (ℕ → BitVec 8) × L

/-- The state of the service. -/
structure Service (Ctx L : Type) (n : ℕ) where
  /-- The table of operations. -/
  operations : Operations Ctx n
  /-- The state of the crypto library. -/
  library : L

/-- The configuration of the service. -/
structure Config where
  /-- `CRYPTO_SINGLE_PART_FUNCS_DISABLED`. -/
  singlePartFuncsDisabled : Bool
  /-- `CRYPTO_IOVEC_BUFFER_SIZE`. -/
  iovecBufferSize : ℕ
  /-- `sizeof(psa_key_attributes_t) - sizeof(mbedtls_key_owner_id_t)`. -/
  keyAttributesSize : ℕ

/-- What a function does with the operation it is for. -/
inductive Step
  /-- Set up the operation that is allocated. -/
  | setup (call : PsaCall)
  /-- Use the operation. -/
  | use (valid : Bool) (call : PsaCall) (outs : List ℕ) (clears : Bool)
  /-- Finish or verify the operation, which is over on success. -/
  | finish (call : PsaCall) (outs : List ℕ)
  /-- Abort the operation. -/
  | abort (call : PsaCall)
  /-- Clone the operation. -/
  | clone
  /-- The function is unknown. -/
  | unsupported

/-- An output vector has room for a `uint32_t`. -/
def hasWord (outVec : List OutVec) : Bool := outVec.head?.any fun out ↦ 4 ≤ out.len

/-- Write a handle, or the identifier of a key, to the first output vector. -/
def putHandle (handle : ℕ) : List OutVec → List OutVec
  | [] => []
  | out :: outVec => { out with contents := .handle handle } :: outVec

/-- The size of an output vector. -/
def outSize (outVec : List OutVec) (i : ℕ) : ℕ := (outVec[i]?.map OutVec.len).getD 0

/-- The bytes of an input vector.  The vectors are those after the first. -/
def input (inVec : List Bytes) (i : ℕ) : Bytes := inVec.getD (i - 1) []

/-- Write the outputs of a call to output vectors. -/
def putOutputs (outVec : List OutVec) : List ℕ → List Bytes → List OutVec
  | i :: outs, bytes :: outputs =>
      putOutputs (outVec.modify i fun _ ↦ ⟨bytes.length, .data bytes⟩) outs outputs
  | _, _ => outVec

/-- Fill the first output vector. -/
def fillOutput (bytes : ℕ → BitVec 8) (outVec : List OutVec) : List OutVec :=
  outVec.modify 0 fun out ↦ { out with contents := .data ((List.range out.len).map bytes) }

/-- Set the lengths of output vectors to 0. -/
def clearOutputs (outVec : List OutVec) (outs : List ℕ) : List OutVec :=
  outs.foldl (fun outVec i ↦ outVec.modify i fun out ↦ { out with len := 0 }) outVec

/-- The `uint32_t` at the start of a vector. -/
def wordOf (bytes : Bytes) : ℕ := (bytes.take 4).foldr (fun byte word ↦ byte.toNat + 256 * word) 0

section

variable {Ctx L : Type} {n : ℕ}

/-- Call the crypto library with the operation of a slot. -/
def Service.call (lib : Library Ctx L) (s : Service Ctx L n) (i : Fin n) (call : PsaCall) :
    Answer × Service Ctx L n :=
  let (answer, ctx, l) := lib.call call (s.operations i).operation s.library
  (answer, ⟨Function.update s.operations i { s.operations i with operation := ctx }, l⟩)

/-- Release the operation with a handle, and ignore if the release fails. -/
def Service.release [Zero Ctx] (s : Service Ctx L n) (handle : ℕ) (caller : ℤ) : Service Ctx L n :=
  { s with operations := (tfmCryptoOperationRelease handle caller s.operations).2 }

/-- Allocate an operation and set its context up.  The operation is released if that fails. -/
def allocateOperation [Zero Ctx] (type : OperationType) (handle : ℕ) (caller : ℤ)
    (setUp : Ctx → L → Status × Ctx × L) (outVec : List OutVec) (s : Service Ctx L n) :
    Status × List OutVec × Service Ctx L n :=
  match tfmCryptoOperationAlloc type handle caller s.operations with
  | .error status => (status, putHandle handle outVec, s)
  | .ok (i, operations) =>
      let (status, ctx, l) := setUp (operations i).operation s.library
      let s := ⟨Function.update operations i { operations i with operation := ctx }, l⟩
      if status = .success then (.success, putHandle (i + 1) outVec, s)
      else (status, putHandle tfmCryptoInvalidHandle outVec, s.release (i + 1) caller)

/-- Allocate an operation and call the crypto library to set it up. -/
def setupOperation [Zero Ctx] (lib : Library Ctx L) (type : OperationType) (call : PsaCall)
    (caller : ℤ) (iov : PackIovec) (outVec : List OutVec) (s : Service Ctx L n) :
    Status × List OutVec × Service Ctx L n :=
  if !hasWord outVec then (.programmerError, outVec, s)
  else
    allocateOperation type iov.opHandle caller
      (fun ctx l ↦ let (answer, ctx, l) := lib.call call ctx l; (answer.status, ctx, l)) outVec s

/-- Clone the operation of a slot to one that is allocated. -/
def cloneOperation [Zero Ctx] (lib : Library Ctx L) (type : OperationType) (source : Fin n)
    (caller : ℤ) (inVec : List Bytes) (outVec : List OutVec) (s : Service Ctx L n) :
    Status × List OutVec × Service Ctx L n :=
  if !hasWord outVec || (input inVec 1).length < 4 then (.programmerError, outVec, s)
  else
    allocateOperation type (wordOf (input inVec 1)) caller
      (lib.hashClone (s.operations source).operation) outVec s

/-- What a function does once its operation has been found. -/
def useOperation [Zero Ctx] (lib : Library Ctx L) (type : OperationType) (i : Fin n) (caller : ℤ)
    (iov : PackIovec) (inVec : List Bytes) (outVec : List OutVec) (s : Service Ctx L n) :
    Step → Status × List OutVec × Service Ctx L n
  | .use valid call outs clears =>
      if !valid then (.programmerError, outVec, s)
      else
        let (answer, s) := s.call lib i call
        if answer.status = .success then
          (.success, putOutputs outVec outs answer.outputs, s)
        else (answer.status, if clears then clearOutputs outVec outs else outVec, s)
  | .finish call outs =>
      let (answer, s) := s.call lib i call
      if answer.status = .success then
        (.success, putHandle tfmCryptoInvalidHandle (putOutputs outVec outs answer.outputs),
          s.release iov.opHandle caller)
      else (answer.status, clearOutputs outVec outs, s)
  | .abort call =>
      let (answer, s) := s.call lib i call
      (answer.status, putHandle tfmCryptoInvalidHandle outVec, s.release iov.opHandle caller)
  | .clone => cloneOperation lib type i caller inVec outVec s
  | .setup _ | .unsupported => (.notSupported, outVec, s)

/-- `finish()`, `verify()` and `abort()` put the handle in the first output vector. -/
def Step.returnsHandle : Step → Bool
  | .finish .. | .abort _ => true
  | _ => false

/-- The function aborts its operation. -/
def Step.isAbort : Step → Bool
  | .abort _ => true
  | _ => false

/-- Find an operation, then do the step. -/
def findOperation [Zero Ctx] (lib : Library Ctx L) (type : OperationType) (step : Step) (caller : ℤ)
    (iov : PackIovec) (inVec : List Bytes) (outVec : List OutVec) (s : Service Ctx L n) :
    Status × List OutVec × Service Ctx L n :=
  if step.returnsHandle && !hasWord outVec then (.programmerError, outVec, s)
  else
    let outVec := if step.returnsHandle then putHandle iov.opHandle outVec else outVec
    match tfmCryptoOperationLookup type iov.opHandle caller s.operations with
    -- an operation that is not there may be aborted any number of times
    | .error status => (if step.isAbort then .success else status, outVec, s)
    | .ok i => useOperation lib type i caller iov inVec outVec s step

/-- The common part of the interfaces: allocate or find the operation, then do the step. -/
def multipart [Zero Ctx] (lib : Library Ctx L) (type : OperationType) (step : Step) (caller : ℤ)
    (iov : PackIovec) (inVec : List Bytes) (outVec : List OutVec) (s : Service Ctx L n) :
    Status × List OutVec × Service Ctx L n :=
  match step with
  | .setup call => setupOperation lib type call caller iov outVec s
  | step => findOperation lib type step caller iov inVec outVec s

/-- A function without an operation. -/
def singlePart (lib : Library Ctx L) (call : PsaSinglePart) (outs : List ℕ) (clears : Bool)
    (outVec : List OutVec) (s : Service Ctx L n) : Status × List OutVec × Service Ctx L n :=
  let (answer, l) := lib.singlePart call s.library
  if answer.status = .success then
    (.success, putOutputs outVec outs answer.outputs, { s with library := l })
  else
    (answer.status, if clears then clearOutputs outVec outs else outVec, { s with library := l })

end

/-- The functions on keys, in the order of `KEY_MANAGEMENT_FUNCS`. -/
inductive KeyManagementFunc
  | getKeyAttributes | openKey | closeKey | importKey | destroyKey | exportKey | exportPublicKey
  | purgeKey | copyKey | generateKey
  deriving DecidableEq

/-- The functions on hashes, in the order of `HASH_FUNCS`. -/
inductive HashFunc
  | compute | compare | setup | update | clone | finish | verify | abort
  deriving DecidableEq

/-- The functions on MACs, in the order of `MAC_FUNCS`. -/
inductive MacFunc
  | compute | verify | signSetup | verifySetup | update | signFinish | verifyFinish | abort
  deriving DecidableEq

/-- The functions on ciphers, in the order of `CIPHER_FUNCS`. -/
inductive CipherFunc
  | encrypt | decrypt | encryptSetup | decryptSetup | generateIv | setIv | update | finish | abort
  deriving DecidableEq

/-- The functions on AEAD, in the order of `AEAD_FUNCS`. -/
inductive AeadFunc
  | encrypt | decrypt | encryptSetup | decryptSetup | generateNonce | setNonce | setLengths
  | updateAd | update | finish | verify | abort
  deriving DecidableEq

/-- The functions on signatures, in the order of `ASYM_SIGN_FUNCS`. -/
inductive AsymSignFunc
  | signMessage | verifyMessage | signHash | verifyHash
  deriving DecidableEq

/-- The functions on asymmetric encryption, in the order of `ASYM_ENCRYPT_FUNCS`. -/
inductive AsymEncryptFunc
  | encrypt | decrypt
  deriving DecidableEq

/-- The functions on key derivation, in the order of `KEY_DERIVATION_FUNCS`. -/
inductive KeyDerivationFunc
  | rawKeyAgreement | setup | getCapacity | setCapacity | inputBytes | inputKey | inputInteger
  | keyAgreement | outputBytes | outputKey | abort
  deriving DecidableEq

/-- `KEY_MANAGEMENT_FUNCS`. -/
def keyManagementFuncs : List KeyManagementFunc :=
  [.getKeyAttributes, .openKey, .closeKey, .importKey, .destroyKey, .exportKey, .exportPublicKey,
    .purgeKey, .copyKey, .generateKey]

/-- `HASH_FUNCS`. -/
def hashFuncs : List HashFunc :=
  [.compute, .compare, .setup, .update, .clone, .finish, .verify, .abort]

/-- `MAC_FUNCS`. -/
def macFuncs : List MacFunc :=
  [.compute, .verify, .signSetup, .verifySetup, .update, .signFinish, .verifyFinish, .abort]

/-- `CIPHER_FUNCS`. -/
def cipherFuncs : List CipherFunc :=
  [.encrypt, .decrypt, .encryptSetup, .decryptSetup, .generateIv, .setIv, .update, .finish, .abort]

/-- `AEAD_FUNCS`. -/
def aeadFuncs : List AeadFunc :=
  [.encrypt, .decrypt, .encryptSetup, .decryptSetup, .generateNonce, .setNonce, .setLengths,
    .updateAd, .update, .finish, .verify, .abort]

/-- `ASYM_SIGN_FUNCS`. -/
def asymSignFuncs : List AsymSignFunc := [.signMessage, .verifyMessage, .signHash, .verifyHash]

/-- `ASYM_ENCRYPT_FUNCS`. -/
def asymEncryptFuncs : List AsymEncryptFunc := [.encrypt, .decrypt]

/-- `KEY_DERIVATION_FUNCS`. -/
def keyDerivationFuncs : List KeyDerivationFunc :=
  [.rawKeyAgreement, .setup, .getCapacity, .setCapacity, .inputBytes, .inputKey, .inputInteger,
    .keyAgreement, .outputBytes, .outputKey, .abort]

/-- The function that a request is for, by its group. -/
inductive FunctionId
  /-- `TFM_CRYPTO_GROUP_ID_RANDOM`. -/
  | random
  /-- `TFM_CRYPTO_GROUP_ID_KEY_MANAGEMENT`. -/
  | keyManagement (func : Option KeyManagementFunc)
  /-- `TFM_CRYPTO_GROUP_ID_HASH`. -/
  | hash (func : Option HashFunc)
  /-- `TFM_CRYPTO_GROUP_ID_MAC`. -/
  | mac (func : Option MacFunc)
  /-- `TFM_CRYPTO_GROUP_ID_CIPHER`. -/
  | cipher (func : Option CipherFunc)
  /-- `TFM_CRYPTO_GROUP_ID_AEAD`. -/
  | aead (func : Option AeadFunc)
  /-- `TFM_CRYPTO_GROUP_ID_ASYM_SIGN`. -/
  | asymSign (func : Option AsymSignFunc)
  /-- `TFM_CRYPTO_GROUP_ID_ASYM_ENCRYPT`. -/
  | asymEncrypt (func : Option AsymEncryptFunc)
  /-- `TFM_CRYPTO_GROUP_ID_KEY_DERIVATION`. -/
  | keyDerivation (func : Option KeyDerivationFunc)
  /-- Any other group. -/
  | unsupported

/-- The high byte of a function identifier is the group, the low byte counts in the group. -/
def functionIdOf (functionId : BitVec 16) : FunctionId :=
  let func := functionId.toNat % 256
  match functionId.toNat / 256 with
  | 1 => .random
  | 2 => .keyManagement keyManagementFuncs[func]?
  | 3 => .hash hashFuncs[func]?
  | 4 => .mac macFuncs[func]?
  | 5 => .cipher cipherFuncs[func]?
  | 6 => .aead aeadFuncs[func]?
  | 7 => .asymSign asymSignFuncs[func]?
  | 8 => .asymEncrypt asymEncryptFuncs[func]?
  | 9 => .keyDerivation keyDerivationFuncs[func]?
  | _ => .unsupported

/-- What a function does: it has no operation, or it does a step with one. -/
inductive Service.Function
  /-- The function is disabled. -/
  | disabled
  /-- A function without an operation. -/
  | singlePart (call : PsaSinglePart) (outs : List ℕ) (clears : Bool)
  /-- A function with an operation. -/
  | multipart (step : Step)

/-- What a function of a group without operations does. -/
inductive PlainFunction
  /-- The function is unknown. -/
  | unsupported
  /-- Its arguments are refused. -/
  | invalid
  /-- Call the crypto library. -/
  | outputs (call : PsaSinglePart) (outs : List ℕ)
  /-- Call the crypto library, and return the identifier of a key, perhaps with an error. -/
  | key (call : PsaKeyCall) (onError : Bool)
  /-- Call the crypto library, and fill the first output vector unless it is refused. -/
  | fill (call : PsaFillCall) (valid : Bool)

/-- A single-part function, which may be left out of the build. -/
def Config.singlePart (cfg : Config) (call : PsaSinglePart) (outs : List ℕ) : Service.Function :=
  if cfg.singlePartFuncsDisabled then .disabled else .singlePart call outs true

section

variable (cfg : Config) (key : KeyId) (iov : PackIovec) (inVec : List Bytes) (outVec : List OutVec)

/-- The attributes of a key are given. -/
def hasAttributes : Bool := (input inVec 1).length == cfg.keyAttributesSize

/-- What the functions on keys do. -/
def keyManagementFunction : Option KeyManagementFunc → PlainFunction
  | some .importKey =>
      if hasAttributes cfg inVec && hasWord outVec then
        .key (.importKey key.owner (input inVec 1) (input inVec 2)) true
      else .invalid
  | some .openKey => if hasWord outVec then .key (.openKey key) true else .invalid
  | some .closeKey => .outputs (.closeKey key) []
  | some .destroyKey => .outputs (.destroyKey key) []
  | some .getKeyAttributes =>
      -- the owner, an `int32_t`, is behind what the clients see of the attributes
      .fill (.getKeyAttributes key) (outVec.head?.any fun out ↦ out.len ≤ cfg.keyAttributesSize + 4)
  | some .exportKey => .outputs (.exportKey key (outSize outVec 0)) [0]
  | some .exportPublicKey => .outputs (.exportPublicKey key (outSize outVec 0)) [0]
  | some .purgeKey => .outputs (.purgeKey key) []
  | some .copyKey =>
      if hasAttributes cfg inVec && hasWord outVec then
        .key (.copyKey key key.owner (input inVec 1)) false
      else .invalid
  | some .generateKey =>
      if hasAttributes cfg inVec && hasWord outVec then
        .key (.generateKey key.owner (input inVec 1)) false
      else .invalid
  | none => .unsupported

/-- What the functions on signatures do. -/
def asymSignFunction : Option AsymSignFunc → PlainFunction
  | some .signMessage => .outputs (.signMessage key iov.alg (input inVec 1) (outSize outVec 0)) [0]
  | some .verifyMessage => .outputs (.verifyMessage key iov.alg (input inVec 1) (input inVec 2)) []
  | some .signHash => .outputs (.signHash key iov.alg (input inVec 1) (outSize outVec 0)) [0]
  | some .verifyHash => .outputs (.verifyHash key iov.alg (input inVec 1) (input inVec 2)) []
  | none => .unsupported

/-- What the functions on asymmetric encryption do. -/
def asymEncryptFunction : Option AsymEncryptFunc → PlainFunction
  | some .encrypt =>
      .outputs (.asymmetricEncrypt key iov.alg (input inVec 1) (input inVec 2)
        (outSize outVec 0)) [0]
  | some .decrypt =>
      .outputs (.asymmetricDecrypt key iov.alg (input inVec 1) (input inVec 2)
        (outSize outVec 0)) [0]
  | none => .unsupported

/-- What the functions on hashes do. -/
def hashFunction : Option HashFunc → Service.Function
  | some .compute => cfg.singlePart (.hashCompute iov.alg (input inVec 1) (outSize outVec 0)) [0]
  | some .compare => cfg.singlePart (.hashCompare iov.alg (input inVec 1) (input inVec 2)) []
  | some .setup => .multipart (.setup (.hashSetup iov.alg))
  | some .update => .multipart (.use true (.hashUpdate (input inVec 1)) [] false)
  | some .clone => .multipart .clone
  | some .finish => .multipart (.finish (.hashFinish (outSize outVec 1)) [1])
  | some .verify => .multipart (.finish (.hashVerify (input inVec 1)) [])
  | some .abort => .multipart (.abort .hashAbort)
  | none => .multipart .unsupported

/-- What the functions on MACs do. -/
def macFunction : Option MacFunc → Service.Function
  | some .compute => cfg.singlePart (.macCompute key iov.alg (input inVec 1) (outSize outVec 0)) [0]
  | some .verify => cfg.singlePart (.macVerify key iov.alg (input inVec 1) (input inVec 2)) []
  | some .signSetup => .multipart (.setup (.macSignSetup key iov.alg))
  | some .verifySetup => .multipart (.setup (.macVerifySetup key iov.alg))
  | some .update => .multipart (.use true (.macUpdate (input inVec 1)) [] false)
  | some .signFinish => .multipart (.finish (.macSignFinish (outSize outVec 1)) [1])
  | some .verifyFinish => .multipart (.finish (.macVerifyFinish (input inVec 1)) [])
  | some .abort => .multipart (.abort .macAbort)
  | none => .multipart .unsupported

/-- What the functions on ciphers do. -/
def cipherFunction : Option CipherFunc → Service.Function
  | some .encrypt =>
      cfg.singlePart (.cipherEncrypt key iov.alg (input inVec 1) (outSize outVec 0)) [0]
  | some .decrypt =>
      cfg.singlePart (.cipherDecrypt key iov.alg (input inVec 1) (outSize outVec 0)) [0]
  | some .encryptSetup => .multipart (.setup (.cipherEncryptSetup key iov.alg))
  | some .decryptSetup => .multipart (.setup (.cipherDecryptSetup key iov.alg))
  | some .generateIv => .multipart (.use true (.cipherGenerateIv (outSize outVec 0)) [0] true)
  | some .setIv => .multipart (.use true (.cipherSetIv (input inVec 1)) [] false)
  | some .update =>
      .multipart (.use true (.cipherUpdate (input inVec 1) (outSize outVec 0)) [0] true)
  | some .finish => .multipart (.finish (.cipherFinish (outSize outVec 1)) [1])
  | some .abort => .multipart (.abort .cipherAbort)
  | none => .multipart .unsupported

/-- What the functions on AEAD do. -/
def aeadFunction : Option AeadFunc → Service.Function
  | some .encrypt =>
      cfg.singlePart (.aeadEncrypt key iov.alg iov.nonce iov.nonceLength (input inVec 2)
        (input inVec 1) (outSize outVec 0)) [0]
  | some .decrypt =>
      cfg.singlePart (.aeadDecrypt key iov.alg iov.nonce iov.nonceLength (input inVec 2)
        (input inVec 1) (outSize outVec 0)) [0]
  | some .encryptSetup => .multipart (.setup (.aeadEncryptSetup key iov.alg))
  | some .decryptSetup => .multipart (.setup (.aeadDecryptSetup key iov.alg))
  | some .generateNonce => .multipart (.use true (.aeadGenerateNonce (outSize outVec 0)) [0] true)
  | some .setNonce => .multipart (.use true (.aeadSetNonce (input inVec 1)) [] false)
  | some .setLengths =>
      .multipart (.use true (.aeadSetLengths iov.adLength iov.plaintextLength) [] false)
  | some .updateAd => .multipart (.use true (.aeadUpdateAd (input inVec 1)) [] false)
  | some .update =>
      .multipart (.use true (.aeadUpdate (input inVec 1) (outSize outVec 0)) [0] true)
  | some .finish =>
      .multipart (.finish (.aeadFinish (outSize outVec 2) (outSize outVec 1)) [2, 1])
  | some .verify => .multipart (.finish (.aeadVerify (outSize outVec 1) (input inVec 1)) [1])
  | some .abort => .multipart (.abort .aeadAbort)
  | none => .multipart .unsupported

/-- What the functions on key derivation do.  There is no function that finishes an operation. -/
def keyDerivationFunction : Option KeyDerivationFunc → Service.Function
  | some .rawKeyAgreement =>
      .singlePart (.rawKeyAgreement iov.alg key (input inVec 1) (outSize outVec 0)) [0] false
  | some .setup => .multipart (.setup (.keyDerivationSetup iov.alg))
  | some .getCapacity =>
      .multipart (.use (outVec.head?.any fun out ↦ out.len = 4) .keyDerivationGetCapacity [0] false)
  | some .setCapacity =>
      .multipart (.use true (.keyDerivationSetCapacity iov.capacity) [] false)
  | some .inputBytes =>
      .multipart (.use true (.keyDerivationInputBytes iov.step (input inVec 1)) [] false)
  | some .inputInteger =>
      .multipart (.use true (.keyDerivationInputInteger iov.step iov.value) [] false)
  | some .outputBytes =>
      .multipart (.use true (.keyDerivationOutputBytes (outSize outVec 0)) [0] false)
  | some .inputKey => .multipart (.use true (.keyDerivationInputKey iov.step key) [] false)
  | some .outputKey =>
      .multipart (.use (hasWord outVec && hasAttributes cfg inVec)
        (.keyDerivationOutputKey key.owner (input inVec 1)) [0] false)
  | some .abort => .multipart (.abort .keyDerivationAbort)
  | some .keyAgreement =>
      .multipart (.use true (.keyDerivationKeyAgreement iov.step key (input inVec 1)) [] false)
  | none => .multipart .unsupported

end

section

variable {Ctx L : Type} {n : ℕ} (lib : Library Ctx L) (cfg : Config) (key : KeyId)
  (iov : PackIovec) (inVec : List Bytes) (outVec : List OutVec) (s : Service Ctx L n)

/-- Serve a function of a group without operations. -/
def PlainFunction.serve : PlainFunction → Status × List OutVec × Service Ctx L n
  | .unsupported => (.notSupported, outVec, s)
  | .invalid => (.programmerError, outVec, s)
  | .outputs call outs => Crypto.singlePart lib call outs true outVec s
  | .key call onError =>
      let (status, keyId, l) := lib.key call s.library
      (status, if status = .success || onError then putHandle keyId outVec else outVec,
        { s with library := l })
  | .fill call valid =>
      let (status, bytes, l) := lib.fill call s.library
      if valid then (status, fillOutput bytes outVec, { s with library := l })
      else (.programmerError, outVec, { s with library := l })

/-- `tfm_crypto_random_interface`. -/
def tfmCryptoRandomInterface : Status × List OutVec × Service Ctx L n :=
  (PlainFunction.fill (.generateRandom (outSize outVec 0)) true).serve lib outVec s

/-- `tfm_crypto_key_management_interface`. -/
def tfmCryptoKeyManagementInterface (func : Option KeyManagementFunc) :
    Status × List OutVec × Service Ctx L n :=
  (keyManagementFunction cfg key inVec outVec func).serve lib outVec s

/-- `tfm_crypto_asymmetric_sign_interface`. -/
def tfmCryptoAsymmetricSignInterface (func : Option AsymSignFunc) :
    Status × List OutVec × Service Ctx L n :=
  (asymSignFunction key iov inVec outVec func).serve lib outVec s

/-- `tfm_crypto_asymmetric_encrypt_interface`. -/
def tfmCryptoAsymmetricEncryptInterface (func : Option AsymEncryptFunc) :
    Status × List OutVec × Service Ctx L n :=
  (asymEncryptFunction key iov inVec outVec func).serve lib outVec s

end

section

variable {Ctx L : Type} {n : ℕ} [Zero Ctx] (lib : Library Ctx L) (cfg : Config) (key : KeyId)
  (caller : ℤ) (iov : PackIovec) (inVec : List Bytes) (outVec : List OutVec) (s : Service Ctx L n)

/-- Serve a function for a type of operation. -/
def Service.Function.serve (type : OperationType) :
    Service.Function → Status × List OutVec × Service Ctx L n
  | .disabled => (.notSupported, outVec, s)
  | .singlePart call outs clears => Crypto.singlePart lib call outs clears outVec s
  | .multipart step => Crypto.multipart lib type step caller iov inVec outVec s

/-- `tfm_crypto_hash_interface`. -/
def tfmCryptoHashInterface (func : Option HashFunc) : Status × List OutVec × Service Ctx L n :=
  (hashFunction cfg iov inVec outVec func).serve lib caller iov inVec outVec s .hash

/-- `tfm_crypto_mac_interface`. -/
def tfmCryptoMacInterface (func : Option MacFunc) : Status × List OutVec × Service Ctx L n :=
  (macFunction cfg key iov inVec outVec func).serve lib caller iov inVec outVec s .mac

/-- `tfm_crypto_cipher_interface`. -/
def tfmCryptoCipherInterface (func : Option CipherFunc) : Status × List OutVec × Service Ctx L n :=
  (cipherFunction cfg key iov inVec outVec func).serve lib caller iov inVec outVec s .cipher

/-- `tfm_crypto_aead_interface`. -/
def tfmCryptoAeadInterface (func : Option AeadFunc) : Status × List OutVec × Service Ctx L n :=
  (aeadFunction cfg key iov inVec outVec func).serve lib caller iov inVec outVec s .aead

/-- `tfm_crypto_key_derivation_interface`. -/
def tfmCryptoKeyDerivationInterface (func : Option KeyDerivationFunc) :
    Status × List OutVec × Service Ctx L n :=
  (keyDerivationFunction cfg key iov inVec outVec func).serve lib caller iov inVec outVec s
    .keyDerivation

/-- `tfm_crypto_api_dispatcher`. -/
def tfmCryptoApiDispatcher : Status × List OutVec × Service Ctx L n :=
  -- the owner of a key is the calling partition
  let encodedKey : KeyId := ⟨caller, iov.keyId⟩
  match functionIdOf iov.functionId with
  | .random => tfmCryptoRandomInterface lib outVec s
  | .keyManagement func =>
      tfmCryptoKeyManagementInterface lib cfg encodedKey inVec outVec s func
  | .hash func => tfmCryptoHashInterface lib cfg caller iov inVec outVec s func
  | .mac func => tfmCryptoMacInterface lib cfg encodedKey caller iov inVec outVec s func
  | .cipher func => tfmCryptoCipherInterface lib cfg encodedKey caller iov inVec outVec s func
  | .aead func => tfmCryptoAeadInterface lib cfg encodedKey caller iov inVec outVec s func
  | .asymSign func => tfmCryptoAsymmetricSignInterface lib encodedKey iov inVec outVec s func
  | .asymEncrypt func => tfmCryptoAsymmetricEncryptInterface lib encodedKey iov inVec outVec s func
  | .keyDerivation func =>
      tfmCryptoKeyDerivationInterface lib cfg encodedKey caller iov inVec outVec s func
  | .unsupported => (.notSupported, outVec, s)

end

/-- A request to the service. -/
structure Request where
  /-- The client. -/
  clientId : ℤ
  /-- The first input vector, if it is a whole `struct tfm_crypto_pack_iovec`. -/
  iov : Option PackIovec
  /-- The other input vectors. -/
  inVec : List Bytes
  /-- The sizes of the output vectors. -/
  outSizes : List ℕ

/-- What the service replies. -/
structure Response where
  /-- The status. -/
  status : Status
  /-- The output vectors that are written. -/
  outVec : List OutVec

/-- `ALIGN(x, TFM_CRYPTO_IOVEC_ALIGNMENT)`. -/
def align (size : ℕ) : ℕ := (size + 3) / 4 * 4

/-- `tfm_crypto_alloc_scratch`, from the index up to which the scratch is allocated. -/
def tfmCryptoAllocScratch (cfg : Config) (allocIndex requestedSize : ℕ) : Option ℕ :=
  if 2 ^ 32 - 1 - 3 < requestedSize then none
  else if cfg.iovecBufferSize - allocIndex < align requestedSize then none
  else some (allocIndex + align requestedSize)

/-- The output vectors up to the last one that is not empty. -/
def Request.outVec (r : Request) : List OutVec :=
  (r.outSizes.rdropWhile (· == 0)).map fun size ↦ ⟨size, .unwritten⟩

/-- The input vectors up to the last one that is not empty, without the first. -/
def Request.inputs (r : Request) : List Bytes := r.inVec.rdropWhile List.isEmpty

/-- `tfm_crypto_init_iovecs`: the vectors fit into the scratch. -/
def Request.fits (cfg : Config) (r : Request) : Bool :=
  ((r.inputs.map List.length ++ r.outVec.map OutVec.len).foldlM
    (tfmCryptoAllocScratch cfg) 0).isSome

/-- `tfm_crypto_call_srv`. -/
def tfmCryptoCallSrv {Ctx L : Type} {n : ℕ} [Zero Ctx] (lib : Library Ctx L) (cfg : Config)
    (s : Service Ctx L n) (r : Request) : Response × Service Ctx L n :=
  match r.iov with
  | none => (⟨.genericError, []⟩, s)
  | some iov =>
      if !r.fits cfg then (⟨.insufficientMemory, []⟩, s)
      else
        let (status, outVec, s) :=
          tfmCryptoApiDispatcher lib cfg r.clientId iov r.inputs r.outVec s
        -- the outputs are written only on success
        (⟨status, if status = .success then outVec else []⟩, s)

end TrustedFirmwareM.Crypto
