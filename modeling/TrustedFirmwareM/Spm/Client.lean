import TrustedFirmwareM.Spm.Backend

/-!
# The client interface

Connecting to a service, calling it with input and output vectors and closing the connection, for
secure partitions and the TrustZone agent through `psa_connect`, `psa_call` and `psa_close`, and for
mailbox agents through their own variants.
-/

namespace TrustedFirmwareM.Spm

variable {Pt Svc : Type}

/-! ## Identity and authorisation -/

/-- `tz_ns_agent_client_id_translate`. -/
def tzNsAgentClientIdTranslate (regions : ℤ × ℤ) (clientIdIn : ℤ) : Option ℤ :=
  if 0 ≤ clientIdIn then none
  else if clientIdIn < -1 * (regions.2 - regions.1) - 1 then none
  else some (regions.2 + 1 + clientIdIn)

/-- `tfm_nspm_get_current_client_id` for the identifier of the active non-secure context; 0 is
`TFM_NS_CLIENT_INVALID_ID`. -/
def tfmNspmGetCurrentClientId (P : Platform Pt Svc) (nsId : ℤ) : ℤ :=
  (tzNsAgentClientIdTranslate P.clientIdRegions nsId).getD 0

/-- `tfm_spm_get_client_id`, given the identifier `nsId` of the active non-secure context. -/
def tfmSpmGetClientId (P : Platform Pt Svc) (caller : Pt) (nsId : ℤ) : Option ℤ :=
  let nsCaller := (P.partition caller).nsAgent
  let clientId := if nsCaller then tfmNspmGetCurrentClientId P nsId else (P.partition caller).pid
  if nsCaller = decide (clientId < 0) then some clientId else none

/-- `tfm_spm_get_service_by_sid`, with the service moved to the front of the list. -/
def tfmSpmGetServiceBySid (P : Platform Pt Svc) (s : State Pt Svc) (sid : Word) :
    Option (Svc × State Pt Svc) :=
  match s.services.find? fun σ ↦ (P.service σ).sid = sid with
  | none => none
  | some σ =>
      some (σ, { s with
        services := σ :: s.services.eraseP fun τ ↦ (P.service τ).sid = sid })

/-- `tfm_spm_check_client_version`. -/
def tfmSpmCheckClientVersion (info : ServiceLoadInfo Pt) (version : Word) : Bool :=
  match info.policy with
  | .relaxed => version ≤ info.version
  | .strict => version = info.version

/-- `tfm_spm_check_authorization`. -/
def tfmSpmCheckAuthorization (P : Platform Pt Svc) (caller : Pt) (info : ServiceLoadInfo Pt)
    (nsCaller : Bool) : Bool :=
  if nsCaller then info.nsAccessible else info.sid ∈ (P.partition caller).deps

/-! ## Handles -/

/-- `IS_STATIC_HANDLE`. -/
def isStaticHandle (handle : Word) : Bool := handle.getLsbD 30

/-- `GET_INDEX_FROM_STATIC_HANDLE`. -/
def getIndexFromStaticHandle (handle : Word) : Fin 32 := ⟨handle.toNat % 32, by omega⟩

/-- `GET_VERSION_FROM_STATIC_HANDLE`. -/
def getVersionFromStaticHandle (handle : Word) : Word := (handle >>> 8) &&& 0xFF

/-- `spm_get_idle_connection`: a new connection for a static handle, the idle connection of the
client for any other one. -/
def spmGetIdleConnection (P : Platform Pt Svc) (s : State Pt Svc) (caller : Pt) (handle : Word)
    (clientId : ℤ) : Except ℤ (ℕ × State Pt Svc) :=
  let nsCaller := (P.partition caller).nsAgent
  if handle = 0 then .error psaErrorProgrammerError
  else if isStaticHandle handle then
    match P.statelessServicesRefTbl (getIndexFromStaticHandle handle) with
    | none => .error psaErrorProgrammerError
    | some σ =>
        if ¬tfmSpmCheckAuthorization P caller (P.service σ) nsCaller then
          .error psaErrorConnectionRefused
        else if ¬tfmSpmCheckClientVersion (P.service σ) (getVersionFromStaticHandle handle) then
          .error psaErrorProgrammerError
        else
          match tfmPoolAlloc s with
          | none => .error psaErrorConnectionBusy
          | some (c, s) => .ok (c, spmInitIdleConnection P s caller c σ clientId)
  else
    match spmValidateHandle P s handle with
    | none => .error psaErrorProgrammerError
    | some c =>
        if (s.connections c).msg.clientId ≠ clientId then .error psaErrorProgrammerError
        else if (s.connections c).status ≠ .idle then .error psaErrorProgrammerError
        else if (s.connections c).service = none then .error psaErrorProgrammerError
        else .ok (c, s)

/-! ## Call parameters -/

/-- `PARAM_UNPACK_TYPE`. -/
def paramUnpackType (ctrl : Word) : ℤ := (ctrl.extractLsb' 0 16).toInt

/-- `PARAM_UNPACK_IN_LEN`. -/
def paramUnpackInLen (ctrl : Word) : ℕ := (ctrl.extractLsb' 24 3).toNat

/-- `PARAM_UNPACK_OUT_LEN`. -/
def paramUnpackOutLen (ctrl : Word) : ℕ := (ctrl.extractLsb' 16 3).toNat

/-- `PARAM_IS_NS_VEC`. -/
def paramIsNsVec (ctrl : Word) : Bool := ctrl.getLsbD 31

/-- `PARAM_IS_NS_INVEC`. -/
def paramIsNsInvec (ctrl : Word) : Bool := ctrl.getLsbD 27

/-- `PARAM_IS_NS_OUTVEC`. -/
def paramIsNsOutvec (ctrl : Word) : Bool := ctrl.getLsbD 19

/-- `PARAM_HAS_IOVEC`. -/
def paramHasIovec (ctrl : Word) : Bool := ctrl ≠ BitVec.ofInt 32 (paramUnpackType ctrl)

/-- Base address of the vector described at an index of a descriptor array. -/
def vecBase (memory : Word → BitVec 8) (descriptors : Word) (i : Fin 4) : Word :=
  loadWord memory (descriptors + BitVec.ofNat 32 (8 * i))

/-- Length of the vector described at an index of a descriptor array. -/
def vecLen (memory : Word → BitVec 8) (descriptors : Word) (i : Fin 4) : Word :=
  loadWord memory (descriptors + BitVec.ofNat 32 (8 * i + 4))

/-- The vector indexes below a count. -/
def vecIndexes (count : ℕ) : List (Fin 4) := (List.finRange 4).take count

/-- Two of the input vectors overlap. -/
def invecsOverlap (memory : Word → BitVec 8) (inptr : Word) (count : ℕ) : Bool :=
  (vecIndexes count).any fun i ↦ (vecIndexes count).any fun j ↦
    i < j &&
      !(vecBase memory inptr j + vecLen memory inptr j ≤ vecBase memory inptr i ||
        vecBase memory inptr i + vecLen memory inptr i ≤ vecBase memory inptr j)

/-- Check the input vectors one after another and enter each into the connection. -/
def associateInvecs (check : Word → Word → Bool) (memory : Word → BitVec 8) (inptr : Word) :
    List (Fin 4) → Connection Pt Svc → ℤ × Connection Pt Svc
  | [], k => (psaSuccess, k)
  | i :: rest, k =>
      if check (vecBase memory inptr i) (vecLen memory inptr i) then
        associateInvecs check memory inptr rest { k with
          msg := { k.msg with
            inSize := Function.update k.msg.inSize i (vecLen memory inptr i) }
          invecBase := Function.update k.invecBase i (vecBase memory inptr i)
          invecAccessed := Function.update k.invecAccessed i 0 }
      else (psaErrorProgrammerError, k)

/-- Check the output vectors one after another and enter each into the connection. -/
def associateOutvecs (check : Word → Word → Bool) (memory : Word → BitVec 8) (outptr : Word) :
    List (Fin 4) → Connection Pt Svc → ℤ × Connection Pt Svc
  | [], k => (psaSuccess, k)
  | i :: rest, k =>
      if check (vecBase memory outptr i) (vecLen memory outptr i) then
        associateOutvecs check memory outptr rest { k with
          msg := { k.msg with
            outSize := Function.update k.msg.outSize i (vecLen memory outptr i) }
          outvecBase := Function.update k.outvecBase i (vecBase memory outptr i)
          outvecWritten := Function.update k.outvecWritten i 0 }
      else (psaErrorProgrammerError, k)

/-- `spm_associate_call_params`.  Nothing is entered for a control word without vectors, and a
failure leaves what was entered before it. -/
def spmAssociateCallParams (P : Platform Pt Svc) (memory : Word → BitVec 8) (caller : Pt)
    (k : Connection Pt Svc) (ctrl inptr outptr : Word) : ℤ × Connection Pt Svc :=
  let inNum := paramUnpackInLen ctrl
  let outNum := paramUnpackOutLen ctrl
  let type := paramUnpackType ctrl
  if type < 0 then (psaErrorProgrammerError, k)
  else
    let k := { k with msg := { k.msg with type := type } }
    if ¬paramHasIovec ctrl then (psaSuccess, k)
    else if psaMaxIovec < inNum + outNum then (psaErrorProgrammerError, k)
    else
      let nsVec := paramIsNsVec ctrl
      let size (count : ℕ) : Word := BitVec.ofNat 32 (8 * count)
      if ¬P.memoryCheck caller inptr (size inNum) ⟨false, nsVec⟩ then (psaErrorProgrammerError, k)
      else if ¬P.memoryCheck caller outptr (size outNum) ⟨true, nsVec⟩ then
        (psaErrorProgrammerError, k)
      else if invecsOverlap memory inptr inNum then (psaErrorProgrammerError, k)
      else
        let k := { k with msg := { k.msg with inSize := fun _ ↦ 0, outSize := fun _ ↦ 0 } }
        let inCheck base len := P.memoryCheck caller base len ⟨false, nsVec || paramIsNsInvec ctrl⟩
        let (status, k) := associateInvecs inCheck memory inptr (vecIndexes inNum) k
        if status ≠ psaSuccess then (status, k)
        else
          -- the input attribute carries over when the output vectors are marked as well
          let nsOut := (nsVec || paramIsNsInvec ctrl) && (nsVec || paramIsNsOutvec ctrl)
          let outCheck base len := P.memoryCheck caller base len ⟨true, nsOut⟩
          let (status, k) := associateOutvecs outCheck memory outptr (vecIndexes outNum) k
          if status ≠ psaSuccess then (status, k)
          else (psaSuccess, { k with callerOutvec := outptr })

/-! ## Requests -/

variable [DecidableEq Pt]

/-- Queue the prepared request of a chunk. -/
def sendRequest (P : Platform Pt Svc) (s : State Pt Svc) (c : ℕ) : Option (Outcome Pt Svc) := do
  let (ret, s) ← backendMessaging P s c
  some ⟨ret, .sent c, s⟩

/-- The common part of `tfm_spm_client_psa_call` and `tfm_spm_agent_psa_call`; the latter also
enters the private data of its client. -/
def callClientIdAssociated (P : Platform Pt Svc) (s : State Pt Svc) (caller : Pt) (clientId : ℤ)
    (handle ctrl inptr outptr : Word) (clientData : Option Word) : Option (Outcome Pt Svc) :=
  match spmGetIdleConnection P s caller handle clientId with
  | .error status => some ⟨status, .quiet, s⟩
  | .ok (c, s) =>
      let (status, k) :=
        spmAssociateCallParams P s.memory caller (s.connections c) ctrl inptr outptr
      let s := s.setConnection c k
      if status ≠ psaSuccess then
        some ⟨status, .quiet, if isStaticHandle handle then tfmPoolFree P s c else s⟩
      else
        sendRequest P
          (s.setConnection c { k with clientData := clientData.getD k.clientData }) c

/-- `tfm_spm_client_psa_call`. -/
def tfmSpmClientPsaCall (P : Platform Pt Svc) (s : State Pt Svc) (caller : Pt) (nsId : ℤ)
    (handle ctrl inptr outptr : Word) : Option (Outcome Pt Svc) := do
  let clientId ← tfmSpmGetClientId P caller nsId
  callClientIdAssociated P s caller clientId handle ctrl inptr outptr none

/-- `spm_psa_connect_client_id_associated`, up to the allocated connection. -/
def spmPsaConnectClientIdAssociated (P : Platform Pt Svc) (s : State Pt Svc) (caller : Pt)
    (sid version : Word) (clientId : ℤ) : Except ℤ ℕ × State Pt Svc :=
  match tfmSpmGetServiceBySid P s sid with
  | none => (.error psaErrorConnectionRefused, s)
  | some (σ, s) =>
      if (P.service σ).stateless then (.error psaErrorProgrammerError, s)
      else if ¬tfmSpmCheckAuthorization P caller (P.service σ) (clientId < 0) then
        (.error psaErrorConnectionRefused, s)
      else if ¬tfmSpmCheckClientVersion (P.service σ) version then
        (.error psaErrorConnectionRefused, s)
      else
        match tfmPoolAlloc s with
        | none => (.error psaErrorConnectionBusy, s)
        | some (c, s) =>
            let s := spmInitIdleConnection P s caller c σ clientId
            let k := s.connections c
            (.ok c, s.setConnection c { k with msg := { k.msg with type := psaIpcConnect } })

/-- The common part of `tfm_spm_client_psa_connect` and `tfm_spm_agent_psa_connect`. -/
def connectClientIdAssociated (P : Platform Pt Svc) (s : State Pt Svc) (caller : Pt)
    (sid version : Word) (clientId : ℤ) (clientData : Word) : Option (Outcome Pt Svc) :=
  match spmPsaConnectClientIdAssociated P s caller sid version clientId with
  | (.error status, s) => some ⟨status, .quiet, s⟩
  | (.ok c, s) =>
      sendRequest P (s.setConnection c { s.connections c with clientData := clientData }) c

/-- `tfm_spm_client_psa_connect`. -/
def tfmSpmClientPsaConnect (P : Platform Pt Svc) (s : State Pt Svc) (caller : Pt) (nsId : ℤ)
    (sid version : Word) : Option (Outcome Pt Svc) := do
  let clientId ← tfmSpmGetClientId P caller nsId
  connectClientIdAssociated P s caller sid version clientId 0

/-- `spm_psa_close_client_id_associated`. -/
def spmPsaCloseClientIdAssociated (P : Platform Pt Svc) (s : State Pt Svc) (caller : Pt)
    (handle : Word) (clientId : ℤ) : Option (Outcome Pt Svc) :=
  if handle = 0 then some ⟨psaSuccess, .quiet, s⟩
  else if isStaticHandle handle then some ⟨psaErrorProgrammerError, .quiet, s⟩
  else
    match spmGetIdleConnection P s caller handle clientId with
    | .error status => some ⟨status, .quiet, s⟩
    | .ok (c, s) =>
        let k := s.connections c
        sendRequest P
          (s.setConnection c { k with msg := { k.msg with type := psaIpcDisconnect } }) c

/-- `tfm_spm_client_psa_close`. -/
def tfmSpmClientPsaClose (P : Platform Pt Svc) (s : State Pt Svc) (caller : Pt) (nsId : ℤ)
    (handle : Word) : Option (Outcome Pt Svc) := do
  let clientId ← tfmSpmGetClientId P caller nsId
  spmPsaCloseClientIdAssociated P s caller handle clientId

/-! ## Mailbox agents -/

/-- The client identifier in a `client_params_t` of the caller. -/
def paramsClientId (memory : Word → BitVec 8) (params : Word) : ℤ :=
  (loadWord memory params).toInt

/-- `tfm_spm_agent_psa_call`. -/
def tfmSpmAgentPsaCall (P : Platform Pt Svc) (s : State Pt Svc) (caller : Pt)
    (handle control params clientData : Word) : Option (Outcome Pt Svc) :=
  if ¬P.memoryCheck caller params 12 ⟨false, false⟩ then
    some ⟨psaErrorProgrammerError, .quiet, s⟩
  else
    callClientIdAssociated P s caller (paramsClientId s.memory params) handle control
      (loadWord s.memory (params + 4)) (loadWord s.memory (params + 8)) (some clientData)

/-- `tfm_spm_agent_psa_connect`. -/
def tfmSpmAgentPsaConnect (P : Platform Pt Svc) (s : State Pt Svc) (caller : Pt)
    (sid version : Word) (nsClientId : ℤ) (clientData : Word) : Option (Outcome Pt Svc) :=
  if ¬(P.partition caller).nsAgentMailbox ∨ 0 ≤ nsClientId then none
  else connectClientIdAssociated P s caller sid version nsClientId clientData

/-- `tfm_spm_agent_psa_close`. -/
def tfmSpmAgentPsaClose (P : Platform Pt Svc) (s : State Pt Svc) (caller : Pt) (handle : Word)
    (nsClientId : ℤ) : Option (Outcome Pt Svc) :=
  if ¬(P.partition caller).nsAgentMailbox ∨ 0 ≤ nsClientId then none
  else spmPsaCloseClientIdAssociated P s caller handle nsClientId

end TrustedFirmwareM.Spm
