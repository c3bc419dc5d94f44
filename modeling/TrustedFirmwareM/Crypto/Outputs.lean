import TrustedFirmwareM.Crypto.Interface

/-!
# The sizes of outputs

The crypto library is told the size of each output buffer.  If it returns no more than that, the
dispatcher keeps every output vector within the size that the client gave.
-/

namespace TrustedFirmwareM.Crypto

/-- The bytes that are written to an output vector. -/
def Contents.bytes : Contents → Bytes
  | .unwritten => []
  | .handle value => (List.range 4).map fun i ↦ BitVec.ofNat 8 (value / 256 ^ i)
  | .data bytes => bytes

/-- The sizes of the output buffers of a call with an operation. -/
def PsaCall.outSizes : PsaCall → List ℕ
  | .hashFinish size | .macSignFinish size | .cipherGenerateIv size | .cipherUpdate _ size
  | .cipherFinish size | .aeadGenerateNonce size | .aeadUpdate _ size | .aeadVerify size _
  | .keyDerivationOutputBytes size => [size]
  | .aeadFinish ciphertextSize tagSize => [ciphertextSize, tagSize]
  -- a `size_t` and a `psa_key_id_t`
  | .keyDerivationGetCapacity | .keyDerivationOutputKey .. => [4]
  | _ => []

/-- The sizes of the output buffers of a call without an operation. -/
def PsaSinglePart.outSizes : PsaSinglePart → List ℕ
  | .hashCompute _ _ size | .macCompute _ _ _ size | .cipherEncrypt _ _ _ size
  | .cipherDecrypt _ _ _ size | .aeadEncrypt _ _ _ _ _ _ size | .aeadDecrypt _ _ _ _ _ _ size
  | .rawKeyAgreement _ _ _ size | .exportKey _ size | .exportPublicKey _ size
  | .signMessage _ _ _ size | .signHash _ _ _ size | .asymmetricEncrypt _ _ _ _ size
  | .asymmetricDecrypt _ _ _ _ size => [size]
  | .hashCompare .. | .macVerify .. | .closeKey _ | .destroyKey _ | .purgeKey _ | .verifyMessage ..
  | .verifyHash .. => []

/-- An output vector stays within a size. -/
structure OutVec.Fits (size : ℕ) (out : OutVec) : Prop where
  /-- The length that is reported. -/
  len_le : out.len ≤ size
  /-- The bytes that are written. -/
  bytes_le : out.contents.bytes.length ≤ size

/-- Output vectors stay within their sizes. -/
structure OutVecsFit (sizes : List ℕ) (outVec : List OutVec) : Prop where
  /-- There is a size for each vector. -/
  length : outVec.length = sizes.length
  /-- Each vector stays within its size. -/
  fits : ∀ i (out : OutVec), outVec[i]? = some out → out.Fits (sizes.getD i 0)

/-- The outputs stay within the sizes of their buffers. -/
abbrev Bounded : List Bytes → List ℕ → Prop :=
  List.Forall₂ fun output size ↦ output.length ≤ size

/-- What the documentation of the crypto library says: an output is no longer than its buffer. -/
structure Library.Bounded {Ctx L : Type} (lib : Library Ctx L) : Prop where
  /-- Calls with an operation. -/
  call : ∀ call ctx l, (lib.call call ctx l).1.status = .success →
    Crypto.Bounded (lib.call call ctx l).1.outputs call.outSizes
  /-- Calls without an operation. -/
  singlePart : ∀ call l, (lib.singlePart call l).1.status = .success →
    Crypto.Bounded (lib.singlePart call l).1.outputs call.outSizes
/-- The buffers of a call are those of output vectors. -/
abbrev Sized (sizes outs : List ℕ) : List ℕ → Prop :=
  List.Forall₂ (fun i size ↦ size ≤ sizes.getD i 0) outs

/-- The buffers that a step passes to the crypto library are output vectors. -/
def Step.Sized (sizes : List ℕ) : Step → Prop
  | .use valid call outs _ => valid = true → Crypto.Sized sizes outs call.outSizes
  | .finish call outs => Crypto.Sized sizes outs call.outSizes
  | _ => True

/-- So are those of a function without operations. -/
def PlainFunction.Sized (sizes : List ℕ) : PlainFunction → Prop
  | .unsupported | .invalid | .fill .. => True
  | .outputs call outs => Crypto.Sized sizes outs call.outSizes
  | .key .. => 4 ≤ sizes.getD 0 0

/-- The buffers that a function passes to the crypto library are output vectors. -/
def Service.Function.Sized (sizes : List ℕ) : Service.Function → Prop
  | .disabled => True
  | .singlePart call outs _ => Crypto.Sized sizes outs call.outSizes
  | .multipart step => step.Sized sizes

variable {sizes : List ℕ} {outVec : List OutVec}

theorem OutVecsFit.modify (fit : OutVecsFit sizes outVec) {i : ℕ} {f : OutVec → OutVec}
    (fits : ∀ out, outVec[i]? = some out → (f out).Fits (sizes.getD i 0)) :
    OutVecsFit sizes (outVec.modify i f) := by
  constructor
  case length => rw [List.length_modify, fit.length]
  case fits =>
    intro j out there
    rw [List.getElem?_modify] at there
    obtain ⟨out', there', rfl⟩ := Option.map_eq_some_iff.1 there
    split
    · next same =>
        subst same
        exact fits out' there'
    · exact fit.fits j out' there'

theorem putHandle_eq_modify (handle : ℕ) (outVec : List OutVec) :
    putHandle handle outVec = outVec.modify 0 fun out ↦
      { out with contents := .handle handle } := by
  cases outVec <;> rfl

theorem OutVecsFit.room (fit : OutVecsFit sizes outVec) (word : hasWord outVec = true) :
    4 ≤ sizes.getD 0 0 := by
  rw [hasWord, Option.any_eq_true] at word
  obtain ⟨first, here, long⟩ := word
  rw [List.head?_eq_getElem?] at here
  exact (of_decide_eq_true long).trans (fit.fits 0 first here).len_le

theorem OutVecsFit.putHandle (fit : OutVecsFit sizes outVec) (room : 4 ≤ sizes.getD 0 0)
    (handle : ℕ) : OutVecsFit sizes (putHandle handle outVec) := by
  rw [putHandle_eq_modify]
  apply fit.modify
  intro out there
  exact ⟨(fit.fits 0 out there).len_le, room⟩

theorem OutVecsFit.fillOutput (fit : OutVecsFit sizes outVec) (bytes : ℕ → BitVec 8) :
    OutVecsFit sizes (fillOutput bytes outVec) := by
  apply fit.modify
  intro out there
  have len_le := (fit.fits 0 out there).len_le
  refine ⟨len_le, ?_⟩
  rw [Contents.bytes, List.length_map, List.length_range]
  exact len_le

theorem OutVecsFit.clearOutputs (fit : OutVecsFit sizes outVec) (outs : List ℕ) :
    OutVecsFit sizes (clearOutputs outVec outs) := by
  induction outs generalizing outVec with
  | nil => exact fit
  | cons i outs ih =>
      apply ih
      apply fit.modify
      intro out there
      exact ⟨Nat.zero_le _, (fit.fits i out there).bytes_le⟩

theorem OutVecsFit.putOutputs (fit : OutVecsFit sizes outVec) {outs outSizes : List ℕ}
    {outputs : List Bytes} (bounded : Crypto.Bounded outputs outSizes)
    (sized : Crypto.Sized sizes outs outSizes) :
    OutVecsFit sizes (putOutputs outVec outs outputs) := by
  induction bounded generalizing outs outVec with
  | nil =>
      cases sized
      exact fit
  | cons output_le _ ih =>
      cases sized with
      | cons size_le sized =>
          apply ih _ sized
          apply fit.modify
          intro out there
          exact ⟨output_le.trans size_le, output_le.trans size_le⟩

section

variable {Ctx L : Type} {n : ℕ} [Zero Ctx] {lib : Library Ctx L} (bounded : lib.Bounded)
  (fit : OutVecsFit sizes outVec) (type : OperationType) (caller : ℤ) (iov : PackIovec)
  (inVec : List Bytes) (s : Service Ctx L n)

include fit

theorem allocateOperation_fit (room : 4 ≤ sizes.getD 0 0) (handle : ℕ)
    (setUp : Ctx → L → Status × Ctx × L) :
    OutVecsFit sizes (allocateOperation type handle caller setUp outVec s).2.1 := by
  rw [allocateOperation]
  split
  · exact fit.putHandle room handle
  · dsimp only
    split
    · exact fit.putHandle room _
    · exact fit.putHandle room _

theorem setupOperation_fit (call : PsaCall) :
    OutVecsFit sizes (setupOperation lib type call caller iov outVec s).2.1 := by
  rw [setupOperation]
  split
  · exact fit
  · next word => exact allocateOperation_fit fit type caller s (fit.room (by simpa using word)) _ _

theorem cloneOperation_fit (source : Fin n) :
    OutVecsFit sizes (cloneOperation lib type source caller inVec outVec s).2.1 := by
  rw [cloneOperation]
  split
  · exact fit
  · next refused =>
      have word : hasWord outVec = true := by
        rw [Bool.or_eq_true, not_or] at refused
        simpa using refused.1
      exact allocateOperation_fit fit type caller s (fit.room word) _ _

include bounded

theorem useOperation_fit {step : Step} (sized : step.Sized sizes)
    (room : step.returnsHandle = true → 4 ≤ sizes.getD 0 0) (i : Fin n) :
    OutVecsFit sizes (useOperation lib type i caller iov inVec outVec s step).2.1 := by
  have answer (call : PsaCall) : (s.call lib i call).1.status = .success →
      Bounded (s.call lib i call).1.outputs call.outSizes :=
    bounded.call call (s.operations i).operation s.library
  cases step with
  | setup | unsupported => exact fit
  | clone => exact cloneOperation_fit fit type caller inVec s i
  | abort => exact fit.putHandle (room rfl) _
  | use valid call outs clears =>
      rw [useOperation]
      split
      · exact fit
      next is_valid =>
      dsimp only
      split
      · next success => exact fit.putOutputs (answer call success) (sized (by simpa using is_valid))
      · dsimp only
        split
        · exact fit.clearOutputs outs
        · exact fit
  | finish call outs =>
      rw [useOperation]
      dsimp only
      split
      · next success => exact (fit.putOutputs (answer call success) sized).putHandle (room rfl) _
      · exact fit.clearOutputs outs

theorem findOperation_fit {step : Step} (sized : step.Sized sizes) :
    OutVecsFit sizes (findOperation lib type step caller iov inVec outVec s).2.1 := by
  rw [findOperation]
  split
  · exact fit
  next accepted =>
  have room (returns : step.returnsHandle = true) : 4 ≤ sizes.getD 0 0 := by
    apply fit.room
    simpa [returns] using accepted
  have found : OutVecsFit sizes
      (if step.returnsHandle then putHandle iov.opHandle outVec else outVec) := by
    split
    · next returns => exact fit.putHandle (room returns) _
    · exact fit
  dsimp only
  split
  · exact found
  · next i _ => exact useOperation_fit bounded found type caller iov inVec s sized room i

theorem multipart_fit {step : Step} (sized : step.Sized sizes) :
    OutVecsFit sizes (multipart lib type step caller iov inVec outVec s).2.1 := by
  cases step with
  | setup call => exact setupOperation_fit fit type caller iov s call
  | use | finish | abort | clone | unsupported =>
      exact findOperation_fit bounded fit type caller iov inVec s sized

omit [Zero Ctx] in
theorem singlePart_fit {call : PsaSinglePart} {outs : List ℕ}
    (sized : Crypto.Sized sizes outs call.outSizes) (clears : Bool) :
    OutVecsFit sizes (singlePart lib call outs clears outVec s).2.1 := by
  have answer := bounded.singlePart call s.library
  rw [singlePart]
  dsimp only
  split
  · next success => exact fit.putOutputs (answer success) sized
  · dsimp only
    split
    · exact fit.clearOutputs outs
    · exact fit

omit [Zero Ctx] in
theorem PlainFunction.serve_fit {function : PlainFunction} (sized : function.Sized sizes) :
    OutVecsFit sizes (function.serve lib outVec s).2.1 := by
  cases function with
  | unsupported | invalid => exact fit
  | outputs call outs => exact singlePart_fit bounded fit s sized true
  | key call onError =>
      rw [PlainFunction.serve]
      dsimp only
      split
      · exact fit.putHandle sized _
      · exact fit
  | fill call valid =>
      rw [PlainFunction.serve]
      dsimp only
      split
      · exact fit.fillOutput _
      · exact fit

theorem Service.Function.serve_fit {function : Service.Function} (sized : function.Sized sizes) :
    OutVecsFit sizes (function.serve lib caller iov inVec outVec s type).2.1 := by
  cases function with
  | disabled => exact fit
  | singlePart call outs clears => exact singlePart_fit bounded fit s sized clears
  | multipart step => exact multipart_fit bounded fit type caller iov inVec s sized

end

section

variable (cfg : Config) (key : KeyId) (iov : PackIovec) (inVec : List Bytes) (outVec : List OutVec)

/-- The sizes that the functions pass are those of the output vectors. -/
theorem outSize_le (i : ℕ) : outSize outVec i ≤ (outVec.map OutVec.len).getD i 0 := by
  simp [outSize]

theorem Config.singlePart_sized {call : PsaSinglePart} {outs : List ℕ}
    (sized : Crypto.Sized sizes outs call.outSizes) : (cfg.singlePart call outs).Sized sizes := by
  rw [Config.singlePart]
  split
  · trivial
  · exact sized

/-- A vector with room for a word has room for the identifier of a key. -/
theorem PlainFunction.key_sized (valid : Bool) (call : PsaKeyCall) (onError : Bool) :
    (if valid && hasWord outVec then PlainFunction.key call onError else .invalid).Sized
      (outVec.map OutVec.len) := by
  split
  · next both =>
      have word := (Bool.and_eq_true_iff.1 both).2
      cases outVec with
      | nil => contradiction
      | cons out outVec => simpa [PlainFunction.Sized, hasWord] using word
  · trivial

theorem keyManagementFunction_sized (func : Option KeyManagementFunc) :
    (keyManagementFunction cfg key inVec outVec func).Sized (outVec.map OutVec.len) := by
  have size := outSize_le outVec
  cases func with
  | none => trivial
  | some func =>
      cases func with
      | importKey | copyKey | generateKey => exact PlainFunction.key_sized ..
      | openKey => exact PlainFunction.key_sized outVec true ..
      | closeKey | destroyKey | purgeKey => exact .nil
      | exportKey | exportPublicKey => exact .cons (size 0) .nil
      | getKeyAttributes => trivial

theorem asymSignFunction_sized (func : Option AsymSignFunc) :
    (asymSignFunction key iov inVec outVec func).Sized (outVec.map OutVec.len) := by
  have size := outSize_le outVec
  cases func with
  | none => trivial
  | some func =>
      cases func with
      | signMessage | signHash => exact .cons (size 0) .nil
      | verifyMessage | verifyHash => exact .nil

theorem asymEncryptFunction_sized (func : Option AsymEncryptFunc) :
    (asymEncryptFunction key iov inVec outVec func).Sized (outVec.map OutVec.len) := by
  have size := outSize_le outVec
  cases func with
  | none => trivial
  | some func =>
      cases func with
      | encrypt | decrypt => exact .cons (size 0) .nil

theorem hashFunction_sized (func : Option HashFunc) :
    (hashFunction cfg iov inVec outVec func).Sized (outVec.map OutVec.len) := by
  have size := outSize_le outVec
  cases func with
  | none => trivial
  | some func =>
      cases func with
      | compute => exact cfg.singlePart_sized (.cons (size 0) .nil)
      | compare => exact cfg.singlePart_sized .nil
      | finish => exact .cons (size 1) .nil
      | update => exact fun _ ↦ .nil
      | verify => exact .nil
      | setup | clone | abort => trivial

theorem macFunction_sized (func : Option MacFunc) :
    (macFunction cfg key iov inVec outVec func).Sized (outVec.map OutVec.len) := by
  have size := outSize_le outVec
  cases func with
  | none => trivial
  | some func =>
      cases func with
      | compute => exact cfg.singlePart_sized (.cons (size 0) .nil)
      | verify => exact cfg.singlePart_sized .nil
      | signFinish => exact .cons (size 1) .nil
      | update => exact fun _ ↦ .nil
      | verifyFinish => exact .nil
      | signSetup | verifySetup | abort => trivial

theorem cipherFunction_sized (func : Option CipherFunc) :
    (cipherFunction cfg key iov inVec outVec func).Sized (outVec.map OutVec.len) := by
  have size := outSize_le outVec
  cases func with
  | none => trivial
  | some func =>
      cases func with
      | encrypt | decrypt => exact cfg.singlePart_sized (.cons (size 0) .nil)
      | generateIv | update => exact fun _ ↦ .cons (size 0) .nil
      | finish => exact .cons (size 1) .nil
      | setIv => exact fun _ ↦ .nil
      | encryptSetup | decryptSetup | abort => trivial

theorem aeadFunction_sized (func : Option AeadFunc) :
    (aeadFunction cfg key iov inVec outVec func).Sized (outVec.map OutVec.len) := by
  have size := outSize_le outVec
  cases func with
  | none => trivial
  | some func =>
      cases func with
      | encrypt | decrypt => exact cfg.singlePart_sized (.cons (size 0) .nil)
      | generateNonce | update => exact fun _ ↦ .cons (size 0) .nil
      | finish => exact .cons (size 2) (.cons (size 1) .nil)
      | verify => exact .cons (size 1) .nil
      | setNonce | setLengths | updateAd => exact fun _ ↦ .nil
      | encryptSetup | decryptSetup | abort => trivial

theorem keyDerivationFunction_sized (func : Option KeyDerivationFunc) :
    (keyDerivationFunction cfg key iov inVec outVec func).Sized (outVec.map OutVec.len) := by
  have size := outSize_le outVec
  cases func with
  | none => trivial
  | some func =>
      cases func with
      | rawKeyAgreement => exact .cons (size 0) .nil
      | outputBytes => exact fun _ ↦ .cons (size 0) .nil
      | getCapacity =>
          intro valid
          refine .cons ?_ .nil
          cases outVec with
          | nil => contradiction
          | cons out outVec => simpa using (of_decide_eq_true valid).ge
      | outputKey =>
          intro valid
          refine .cons ?_ .nil
          cases outVec with
          | nil => contradiction
          | cons out outVec => simpa [hasWord] using (Bool.and_eq_true_iff.1 valid).1
      | setCapacity | inputBytes | inputInteger | inputKey | keyAgreement => exact fun _ ↦ .nil
      | setup | abort => trivial

end

/-- The dispatcher keeps every output vector within its size. -/
theorem tfmCryptoApiDispatcher_fit {Ctx L : Type} {n : ℕ} [Zero Ctx] {lib : Library Ctx L}
    (bounded : lib.Bounded) (cfg : Config) (caller : ℤ) (iov : PackIovec) (inVec : List Bytes)
    (fit : OutVecsFit (outVec.map OutVec.len) outVec) (s : Service Ctx L n) :
    OutVecsFit (outVec.map OutVec.len)
      (tfmCryptoApiDispatcher lib cfg caller iov inVec outVec s).2.1 := by
  rw [tfmCryptoApiDispatcher]
  split
  · exact PlainFunction.serve_fit bounded fit s trivial
  · exact PlainFunction.serve_fit bounded fit s (keyManagementFunction_sized cfg _ inVec outVec _)
  · exact Service.Function.serve_fit bounded fit _ caller iov inVec s
      (hashFunction_sized cfg iov inVec outVec _)
  · exact Service.Function.serve_fit bounded fit _ caller iov inVec s
      (macFunction_sized cfg _ iov inVec outVec _)
  · exact Service.Function.serve_fit bounded fit _ caller iov inVec s
      (cipherFunction_sized cfg _ iov inVec outVec _)
  · exact Service.Function.serve_fit bounded fit _ caller iov inVec s
      (aeadFunction_sized cfg _ iov inVec outVec _)
  · exact PlainFunction.serve_fit bounded fit s (asymSignFunction_sized _ iov inVec outVec _)
  · exact PlainFunction.serve_fit bounded fit s (asymEncryptFunction_sized _ iov inVec outVec _)
  · exact Service.Function.serve_fit bounded fit _ caller iov inVec s
      (keyDerivationFunction_sized cfg _ iov inVec outVec _)
  · exact fit

end TrustedFirmwareM.Crypto
