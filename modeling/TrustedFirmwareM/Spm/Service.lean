import TrustedFirmwareM.Spm.Client

/-!
# The service interface

Waiting for signals, receiving messages, access to the vectors of a message and the reply to it,
together with the collection of asynchronous replies by mailbox agents.
-/

namespace TrustedFirmwareM.Spm

open LinkedList

variable {Pt Svc : Type}

/-- `spm_msg_handle_to_connection`: the handle stands for an allocated connection to a service of
the calling partition. -/
def spmMsgHandleToConnection (P : Platform Pt Svc) (s : State Pt Svc) (caller : Pt)
    (handle : Word) : Option ℕ := do
  let c ← spmValidateHandle P s handle
  let σ ← (s.connections c).service
  if (P.partition caller).pid = (P.partition (P.service σ).partition).pid then some c else none

/-! ## Vectors -/

/-- Position of an input vector in the mapping status. -/
def invecIdx (i : Fin 4) : ℕ := i

/-- Position of an output vector in the mapping status. -/
def outvecIdx (i : Fin 4) : ℕ := i + 4

/-- `IOVEC_IS_MAPPED`. -/
def iovecIsMapped (k : Connection Pt Svc) (idx : ℕ) : Bool := k.iovecStatus.getLsbD (4 * idx)

/-- `IOVEC_IS_UNMAPPED`. -/
def iovecIsUnmapped (k : Connection Pt Svc) (idx : ℕ) : Bool := k.iovecStatus.getLsbD (4 * idx + 1)

/-- `IOVEC_IS_ACCESSED`. -/
def iovecIsAccessed (k : Connection Pt Svc) (idx : ℕ) : Bool := k.iovecStatus.getLsbD (4 * idx + 2)

/-- Set one bit of the mapping status: 0 for mapped, 1 for unmapped and 2 for accessed. -/
def setIovec (k : Connection Pt Svc) (idx bit : ℕ) : Connection Pt Svc :=
  { k with iovecStatus := k.iovecStatus ||| ((1 : Word) <<< (4 * idx + bit)) }

/-- A vector index below `PSA_MAX_IOVEC`. -/
def vecIndex (idx : Word) : Option (Fin 4) :=
  if h : idx.toNat < 4 then some ⟨idx.toNat, h⟩ else none

/-- The message of a handle and an index into its vectors, checked as every vector function
checks them. -/
def requestVector (P : Platform Pt Svc) (s : State Pt Svc) (caller : Pt) (handle idx : Word) :
    Option (ℕ × Fin 4) := do
  let c ← spmMsgHandleToConnection P s caller handle
  let i ← vecIndex idx
  if (s.connections c).msg.type < psaIpcCall then none else some (c, i)

/-- `tfm_spm_partition_psa_read`. -/
def tfmSpmPartitionPsaRead (P : Platform Pt Svc) (s : State Pt Svc) (caller : Pt)
    (handle idx buffer numBytes : Word) : Option (Outcome Pt Svc) := do
  let (c, i) ← requestVector P s caller handle idx
  if iovecIsMapped (s.connections c) (invecIdx i) then none
  else
    let k := setIovec (s.connections c) (invecIdx i) 2
    let remaining := k.msg.inSize i - k.invecAccessed i
    if remaining = 0 then some ⟨0, .quiet, s.setConnection c k⟩
    else if ¬P.memoryCheck caller buffer numBytes ⟨true, false⟩ then none
    else
      let bytes := if numBytes < remaining then numBytes else remaining
      some ⟨bytes.toInt, .quiet,
        { s.setConnection c { k with
            invecAccessed := Function.update k.invecAccessed i (k.invecAccessed i + bytes) } with
          memory := spmMemcpy s.memory buffer (k.invecBase i + k.invecAccessed i) bytes }⟩

/-- `tfm_spm_partition_psa_skip`. -/
def tfmSpmPartitionPsaSkip (P : Platform Pt Svc) (s : State Pt Svc) (caller : Pt)
    (handle idx numBytes : Word) : Option (Outcome Pt Svc) := do
  let (c, i) ← requestVector P s caller handle idx
  if iovecIsMapped (s.connections c) (invecIdx i) then none
  else
    let k := setIovec (s.connections c) (invecIdx i) 2
    let remaining := k.msg.inSize i - k.invecAccessed i
    if remaining = 0 then some ⟨0, .quiet, s.setConnection c k⟩
    else
      let bytes := if remaining < numBytes then remaining else numBytes
      some ⟨bytes.toInt, .quiet, s.setConnection c { k with
        invecAccessed := Function.update k.invecAccessed i (k.invecAccessed i + bytes) }⟩

/-- `tfm_spm_partition_psa_write`. -/
def tfmSpmPartitionPsaWrite (P : Platform Pt Svc) (s : State Pt Svc) (caller : Pt)
    (handle idx buffer numBytes : Word) : Option (Outcome Pt Svc) := do
  let (c, i) ← requestVector P s caller handle idx
  let k := s.connections c
  if k.msg.outSize i - k.outvecWritten i < numBytes then none
  else if iovecIsMapped k (outvecIdx i) then none
  else if ¬P.memoryCheck caller buffer numBytes ⟨false, false⟩ then none
  else
    let k := setIovec k (outvecIdx i) 2
    some ⟨psaSuccess, .quiet,
      { s.setConnection c { k with
          outvecWritten := Function.update k.outvecWritten i (k.outvecWritten i + numBytes) } with
        memory := spmMemcpy s.memory (k.outvecBase i + k.outvecWritten i) buffer numBytes }⟩

/-- The message of a handle and a vector index, for a service that may map its vectors. -/
def mappableVector (P : Platform Pt Svc) (s : State Pt Svc) (caller : Pt) (handle idx : Word) :
    Option (ℕ × Fin 4 × ServiceLoadInfo Pt) := do
  let (c, i) ← requestVector P s caller handle idx
  let σ ← (s.connections c).service
  if (P.service σ).mmIovec then some (c, i, P.service σ) else none

/-- `tfm_spm_partition_psa_map_invec`. -/
def tfmSpmPartitionPsaMapInvec (P : Platform Pt Svc) (s : State Pt Svc) (caller : Pt)
    (handle idx : Word) : Option (Outcome Pt Svc) := do
  let (c, i, service) ← mappableVector P s caller handle idx
  let k := s.connections c
  if k.msg.inSize i = 0 then none
  else if iovecIsMapped k (invecIdx i) then none
  else if iovecIsAccessed k (invecIdx i) then none
  else if ¬P.memoryCheck service.partition (k.invecBase i) (k.msg.inSize i) ⟨false, false⟩ then none
  else some ⟨(k.invecBase i).toInt, .quiet, s.setConnection c (setIovec k (invecIdx i) 0)⟩

/-- `tfm_spm_partition_psa_unmap_invec`. -/
def tfmSpmPartitionPsaUnmapInvec (P : Platform Pt Svc) (s : State Pt Svc) (caller : Pt)
    (handle idx : Word) : Option (Outcome Pt Svc) := do
  let (c, i, _) ← mappableVector P s caller handle idx
  let k := s.connections c
  if ¬iovecIsMapped k (invecIdx i) then none
  else if iovecIsUnmapped k (invecIdx i) then none
  else some ⟨0, .quiet, s.setConnection c (setIovec k (invecIdx i) 1)⟩

/-- `tfm_spm_partition_psa_map_outvec`. -/
def tfmSpmPartitionPsaMapOutvec (P : Platform Pt Svc) (s : State Pt Svc) (caller : Pt)
    (handle idx : Word) : Option (Outcome Pt Svc) := do
  let (c, i, service) ← mappableVector P s caller handle idx
  let k := s.connections c
  if k.msg.outSize i = 0 then none
  else if iovecIsMapped k (outvecIdx i) then none
  else if iovecIsAccessed k (outvecIdx i) then none
  else if ¬P.memoryCheck service.partition (k.outvecBase i) (k.msg.outSize i)
    ⟨true, false⟩ then none
  else some ⟨(k.outvecBase i).toInt, .quiet, s.setConnection c (setIovec k (outvecIdx i) 0)⟩

/-- `tfm_spm_partition_psa_unmap_outvec`. -/
def tfmSpmPartitionPsaUnmapOutvec (P : Platform Pt Svc) (s : State Pt Svc) (caller : Pt)
    (handle idx len : Word) : Option (Outcome Pt Svc) := do
  let (c, i, _) ← mappableVector P s caller handle idx
  let k := s.connections c
  if k.msg.outSize i < len then none
  else if ¬iovecIsMapped k (outvecIdx i) then none
  else if iovecIsUnmapped k (outvecIdx i) then none
  else
    let k := setIovec k (outvecIdx i) 1
    some ⟨0, .quiet, s.setConnection c { k with
      outvecWritten := Function.update k.outvecWritten i len }⟩

/-- `tfm_spm_partition_psa_set_rhandle`. -/
def tfmSpmPartitionPsaSetRhandle (P : Platform Pt Svc) (s : State Pt Svc) (caller : Pt)
    (handle rhandle : Word) : Option (Outcome Pt Svc) := do
  let c ← spmMsgHandleToConnection P s caller handle
  let k := s.connections c
  let σ ← k.service
  if (P.service σ).stateless then none
  else some ⟨psaSuccess, .quiet,
    s.setConnection c { k with msg := { k.msg with rhandle := rhandle } }⟩

/-! ## Signals and messages -/

variable [DecidableEq Pt]

/-- `tfm_spm_partition_psa_wait`. -/
def tfmSpmPartitionPsaWait (P : Platform Pt Svc) (s : State Pt Svc) (caller : Pt)
    (signalMask timeout : Word) : Option (Outcome Pt Svc) :=
  if P.signalsAllowed caller ≠ 0 ∧ P.signalsAllowed caller &&& signalMask = 0 then none
  else if timeout &&& psaBlock = psaBlock then
    let (signal, s) := backendWaitSignals s caller signalMask
    some ⟨if signal = 0 then statusNeedSchedule else signal.toInt, .quiet, s⟩
  else some ⟨((s.partitions caller).signalsAsserted &&& signalMask).toInt, .quiet, s⟩

/-- `IS_ONLY_ONE_BIT_IN_UINT32`. -/
def isOnlyOneBit (signal : Word) : Bool := signal ≠ 0 && signal &&& (signal - 1) = 0

/-- Take the oldest asynchronous reply out of the list of an agent, and clear the reply signal when
it was the last one. -/
def takeAsyncReply (P : Platform Pt Svc) (s : State Pt Svc) (p : Pt) :
    Option (ℕ × State Pt Svc) := do
  let handles ← messageList P s p
  match splitLast (fun _ ↦ true) handles with
  | none => none
  | some (before, c, _) =>
      let s' := removeHandle s p before c
      some (c, if before = [] then clearSignals s' p asyncMsgReply else s')

/-- `tfm_spm_partition_psa_get`. -/
def tfmSpmPartitionPsaGet (P : Platform Pt Svc) (s : State Pt Svc) (caller : Pt)
    (signal msg : Word) : Option (Outcome Pt Svc) :=
  if ¬isOnlyOneBit signal then none
  else if ¬P.memoryCheck caller msg 48 ⟨true, false⟩ then none
  else if (s.partitions caller).signalsAsserted &&& signal = 0 then none
  else
    let deliver (ret : ℤ) (c : ℕ) (s : State Pt Svc) : Outcome Pt Svc :=
      let body := (s.connections c).msg
      ⟨ret, .delivered c body, { s with memory := storeWords s.memory msg body.words }⟩
    if signal = asyncMsgReply then do
      let (c, s) ← takeAsyncReply P s caller
      some (deliver (s.connections c).replyValue c s)
    else do
      let (found, s) ← spmGetHandleBySignal P s caller signal
      match found with
      | none => some ⟨psaErrorDoesNotExist, .quiet, s⟩
      | some c => some (deliver psaSuccess c s)

/-! ## Replies -/

/-- `update_caller_outvec_len`. -/
def updateCallerOutvecLen (memory : Word → BitVec 8) (k : Connection Pt Svc) : Word → BitVec 8 :=
  (List.finRange 4).foldl (fun memory i ↦
    if k.msg.outSize i = 0 then memory
    else
      storeWord memory (k.callerOutvec + BitVec.ofNat 32 (8 * i + 4)) (k.outvecWritten i)) memory

/-- Output vectors that are still mapped report that nothing was written. -/
def dropMapped (k : Connection Pt Svc) : Connection Pt Svc :=
  { k with outvecWritten := fun i ↦
      if iovecIsMapped k (outvecIdx i) ∧ ¬iovecIsUnmapped k (outvecIdx i) then 0
      else k.outvecWritten i }

/-- The part of `psa_reply` that depends on the type of the message: the value for the client and
the state with the connection marked to be freed where the type asks for it. -/
def replyValueOf (P : Platform Pt Svc) (s : State Pt Svc) (c : ℕ) (σ : Svc) (handle : Word)
    (status : ℤ) : Option (ℤ × State Pt Svc) :=
  let k := s.connections c
  let toFree := s.setConnection c { k with status := .toFree }
  if k.msg.type = psaIpcConnect then
    if status = psaSuccess then some (handle.toInt, s)
    else if status = psaErrorConnectionRefused then some (psaErrorConnectionRefused, toFree)
    else if status = psaErrorConnectionBusy then some (psaErrorConnectionBusy, s)
    else none
  else if k.msg.type = psaIpcDisconnect then some (psaSuccess, toFree)
  else if psaIpcCall ≤ k.msg.type then
    let k := dropMapped k
    let s := { s.setConnection c k with memory := updateCallerOutvecLen s.memory k }
    some (status,
      if (P.service σ).stateless then s.setConnection c { k with status := .toFree } else s)
  else none

/-- `tfm_spm_partition_psa_reply`. -/
def tfmSpmPartitionPsaReply (P : Platform Pt Svc) (s : State Pt Svc) (caller : Pt) (handle : Word)
    (status : ℤ) : Option (Outcome Pt Svc) := do
  let c ← spmMsgHandleToConnection P s caller handle
  let σ ← (s.connections c).service
  let (ret, s') ← replyValueOf P s c σ handle status
  if ret = psaErrorProgrammerError ∧ ¬(s.connections c).msg.clientId < 0 then none
  else do
    let (ret, s') ← backendReplying P s' c ret
    if tfmSpmIsRpcMsg (s'.connections c) then some ⟨ret, .replied c status, s'⟩
    else some ⟨ret, .replied c status, releaseConnection P s' c⟩

/-- `tfm_rpc_client_call_reply`: an agent collects the oldest asynchronous reply, passes it on to
the mailbox and releases the connection that the message points to. -/
def tfmRpcClientCallReply (P : Platform Pt Svc) (s : State Pt Svc) (caller : Pt) (msg : Word) :
    Option (Outcome Pt Svc) := do
  let outcome ← tfmSpmPartitionPsaGet P s caller asyncMsgReply msg
  match outcome.effect with
  | .delivered _ body => do
      let c ← P.chunkAt body.rhandle
      some ⟨outcome.result, .collected c, releaseConnection P outcome.state c⟩
  | _ => none

/-! ## Doorbell -/

/-- `tfm_spm_partition_psa_notify`. -/
def tfmSpmPartitionPsaNotify (P : Platform Pt Svc) (s : State Pt Svc) (partitionId : ℤ) :
    Option (Outcome Pt Svc) := do
  let p ← P.partitionList.find? fun p ↦ (P.partition p).pid = partitionId
  let (ret, s) := backendAssertSignal s p psaDoorbell
  some ⟨ret, .quiet, s⟩

/-- `tfm_spm_partition_psa_clear`. -/
def tfmSpmPartitionPsaClear (s : State Pt Svc) (caller : Pt) : Option (Outcome Pt Svc) :=
  if (s.partitions caller).signalsAsserted &&& psaDoorbell = 0 then none
  else some ⟨psaSuccess, .quiet, clearSignals s caller psaDoorbell⟩

end TrustedFirmwareM.Spm
