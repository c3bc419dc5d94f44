import TrustedFirmwareM.Crypto.Interface

/-!
# The life of multipart operations

The ledger of a service is read off its requests and replies alone: an operation starts when it has
been set up or cloned, and it is over when it has been finished, verified or aborted by the client
that set it up.  The table of the service holds exactly the operations of the ledger.
-/

namespace TrustedFirmwareM.Crypto

/-- The operations that are live by what has been requested and replied: the client and the type of
each slot. -/
abbrev Ledger (n : ℕ) := Fin n → Option (ℤ × OperationType)

/-- The client and the type of the operation in a slot. -/
def Operation.holder {Ctx : Type} (operation : Operation Ctx) : Option (ℤ × OperationType) :=
  if operation.inUse then some (operation.owner, operation.type) else none

/-- The ledger that agrees with a table. -/
def ledgerOf {Ctx : Type} {n : ℕ} (operations : Operations Ctx n) : Ledger n :=
  Operation.holder ∘ operations

/-- The handle in the first output vector. -/
def grantedHandle (outVec : List OutVec) : Option ℕ :=
  outVec.head?.bind fun out ↦
    match out.contents with
    | .handle value => some value
    | _ => none

/-- The slot of an operation that a client may name with a handle. -/
def Ledger.slot {n : ℕ} (ledger : Ledger n) (caller : ℤ) (type : OperationType) (handle : ℕ) :
    Option (Fin n) :=
  (handleSlot n handle).filter fun i ↦ ledger i = some (caller, type)

/-- An operation of the ledger is over. -/
def Ledger.remove {n : ℕ} (ledger : Ledger n) (slot : Option (Fin n)) : Ledger n :=
  match slot with
  | some i => Function.update ledger i none
  | none => ledger

/-- An operation of the ledger starts. -/
def Ledger.insert {n : ℕ} (ledger : Ledger n) (caller : ℤ) (type : OperationType)
    (slot : Option (Fin n)) : Ledger n :=
  match slot with
  | some i => Function.update ledger i (some (caller, type))
  | none => ledger

/-- What a step with an operation means for the ledger. -/
def Ledger.after {n : ℕ} (ledger : Ledger n) (type : OperationType) (caller : ℤ) (iov : PackIovec)
    (outVec : List OutVec) (status : Status) (outVec' : List OutVec) : Step → Ledger n
  | .setup _ | .clone =>
      if status = .success then
        ledger.insert caller type ((grantedHandle outVec').bind (handleSlot n))
      else ledger
  | .finish .. =>
      if status = .success then ledger.remove (ledger.slot caller type iov.opHandle) else ledger
  | .abort _ =>
      if hasWord outVec then ledger.remove (ledger.slot caller type iov.opHandle) else ledger
  | .use .. | .unsupported => ledger

section

variable {Ctx L : Type} {n : ℕ}

variable [Zero Ctx]

/-- The ways in which an allocation can end. -/
inductive Allocated (type : OperationType) (handle : ℕ) (caller : ℤ)
    (setUp : Ctx → L → Status × Ctx × L) (s : Service Ctx L n) :
    Status × List OutVec × Service Ctx L n → Prop
  /-- The handle is in use. -/
  | refused {outVec : List OutVec} (invalid : handle ≠ tfmCryptoInvalidHandle) :
      Allocated type handle caller setUp s (.badState, outVec, s)
  /-- Every slot is in use. -/
  | exhausted {outVec : List OutVec} (full : ∀ i, ledgerOf s.operations i ≠ none) :
      Allocated type handle caller setUp s (.notPermitted, outVec, s)
  /-- The operation has not been set up. -/
  | failed {outVec : List OutVec} {s' : Service Ctx L n} (i : Fin n) {status : Status}
      (free : ledgerOf s.operations i = none)
      (called : (setUp (s.operations i).operation s.library).1 = status)
      (failure : status ≠ .success) (same : ledgerOf s'.operations = ledgerOf s.operations) :
      Allocated type handle caller setUp s (status, outVec, s')
  /-- The operation has been set up. -/
  | succeeded {outVec : List OutVec} {s' : Service Ctx L n} (i : Fin n)
      (valid : handle = tfmCryptoInvalidHandle) (free : ledgerOf s.operations i = none)
      (called : (setUp (s.operations i).operation s.library).1 = .success)
      (granted : grantedHandle outVec = some (i.val + 1))
      (holds : ledgerOf s'.operations =
        Function.update (ledgerOf s.operations) i (some (caller, type))) :
      Allocated type handle caller setUp s (.success, outVec, s')

omit [Zero Ctx] in
/-- What an allocation means for the ledger. -/
theorem Allocated.after {type : OperationType} {handle : ℕ} {caller : ℤ}
    {setUp : Ctx → L → Status × Ctx × L} {s : Service Ctx L n}
    {result : Status × List OutVec × Service Ctx L n}
    (allocated : Allocated type handle caller setUp s result) :
    (if result.1 = .success then
      (ledgerOf s.operations).insert caller type ((grantedHandle result.2.1).bind (handleSlot n))
    else ledgerOf s.operations) = ledgerOf result.2.2.operations := by
  cases allocated with
  | refused | exhausted => rfl
  | failed i free called failure same => exact (if_neg failure).trans same.symm
  | succeeded i valid free called granted holds =>
      dsimp only
      rw [if_pos rfl, granted, Option.bind_some, handleSlot_succ, holds]
      rfl

omit [Zero Ctx] in
/-- An allocation that succeeds takes a free slot. -/
theorem Allocated.fresh {type : OperationType} {handle : ℕ} {caller : ℤ}
    {setUp : Ctx → L → Status × Ctx × L} {s : Service Ctx L n}
    {result : Status × List OutVec × Service Ctx L n}
    (allocated : Allocated type handle caller setUp s result) (success : result.1 = .success) :
    ∃ i, ledgerOf s.operations i = none ∧ grantedHandle result.2.1 = some (i.val + 1) := by
  cases allocated with
  | refused | exhausted => cases success
  | failed i free called failure same => exact absurd success failure
  | succeeded i valid free called granted holds => exact ⟨i, free, granted⟩

variable (lib : Library Ctx L) (type : OperationType) (caller : ℤ) (iov : PackIovec)
  (inVec : List Bytes) (outVec : List OutVec) (s : Service Ctx L n)

end

/-- The step with an operation that a function does. -/
def Service.Function.step : Service.Function → Option Step
  | .multipart step => some step
  | _ => none

/-- The type of operation that a request is for, and what it does with the operation. -/
def Request.multipart (cfg : Config) (r : Request) : Option (OperationType × Step × PackIovec) :=
  match r.iov with
  | none => none
  | some iov =>
      if !r.fits cfg then none
      else
        let key : KeyId := ⟨r.clientId, iov.keyId⟩
        match functionIdOf iov.functionId with
        | .hash func => (hashFunction cfg iov r.inputs r.outVec func).step.map (.hash, ·, iov)
        | .mac func => (macFunction cfg key iov r.inputs r.outVec func).step.map (.mac, ·, iov)
        | .cipher func =>
            (cipherFunction cfg key iov r.inputs r.outVec func).step.map (.cipher, ·, iov)
        | .aead func => (aeadFunction cfg key iov r.inputs r.outVec func).step.map (.aead, ·, iov)
        | .keyDerivation func =>
            (keyDerivationFunction cfg key iov r.inputs r.outVec func).step.map
              (.keyDerivation, ·, iov)
        | .random | .keyManagement _ | .asymSign _ | .asymEncrypt _ | .unsupported => none

/-- What a request and the reply to it mean for the ledger. -/
def Ledger.observe {n : ℕ} (cfg : Config) (ledger : Ledger n) (r : Request) (reply : Response) :
    Ledger n :=
  match r.multipart cfg with
  | some (type, step, iov) =>
      ledger.after type r.clientId iov r.outVec reply.status reply.outVec step
  | none => ledger

section

variable {Ctx L : Type} {n : ℕ} [Zero Ctx]

/-- Serve requests one after the other, and keep the ledger. -/
def serveAll (lib : Library Ctx L) (cfg : Config) :
    Service Ctx L n × Ledger n → List Request → Service Ctx L n × Ledger n
  | x, [] => x
  | (s, ledger), r :: requests =>
      let (reply, s') := tfmCryptoCallSrv lib cfg s r
      serveAll lib cfg (s', ledger.observe cfg r reply) requests

omit [Zero Ctx] in
theorem singlePart_operations {lib : Library Ctx L} {call : PsaSinglePart} {outs : List ℕ}
    {clears : Bool} {outVec : List OutVec} {s : Service Ctx L n} :
    (singlePart lib call outs clears outVec s).2.2.operations = s.operations := by
  rw [Crypto.singlePart]
  dsimp only
  split <;> rfl

/-- A function without a step leaves the table. -/
theorem Service.Function.serve_of_none {lib : Library Ctx L} {caller : ℤ} {iov : PackIovec}
    {inVec : List Bytes} {outVec : List OutVec} {s : Service Ctx L n} {type : OperationType}
    {function : Service.Function} (no_step : function.step = none) :
    (function.serve lib caller iov inVec outVec s type).2.2.operations = s.operations := by
  cases function with
  | disabled => rfl
  | singlePart call outs clears => exact singlePart_operations
  | multipart step => cases no_step

end

end TrustedFirmwareM.Crypto
