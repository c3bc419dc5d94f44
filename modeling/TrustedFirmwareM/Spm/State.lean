import TrustedFirmwareM.Lib.Numerals
import Mathlib.Data.BitVec
import Mathlib.Data.Fintype.Basic
import Mathlib.Logic.Function.Basic

/-!
# Data model of the secure partition manager

The load information of partitions and services, the connection pool and the run-time records of
the IPC backend.  Addresses, sizes, signals and handles are 32-bit words; status codes and client
identifiers are the signed integers they denote.
-/

namespace TrustedFirmwareM.Spm

/-- A 32-bit machine word: an address, a size, a signal set or a handle. -/
abbrev Word := BitVec 32

/-! ## Constants -/

/-- Largest number of input and output vectors of a call, `PSA_MAX_IOVEC`. -/
def psaMaxIovec : ℕ := 4

/-- Signal of a reply to an earlier request, `ASYNC_MSG_REPLY`. -/
def asyncMsgReply : Word := 0x4

/-- Doorbell signal, `PSA_DOORBELL`. -/
def psaDoorbell : Word := 0x8

/-- The blocking bit of a `psa_wait` timeout, `PSA_BLOCK`. -/
def psaBlock : Word := 0x80000000

/-- Value of the magic word of an allocated chunk, `POOL_MAGIC_ALLOCATED`. -/
def poolMagicAllocated : Word := 0xF0F0CCAA

/-- Message type of a connection request, `PSA_IPC_CONNECT`. -/
def psaIpcConnect : ℤ := -1

/-- Message type of a disconnection, `PSA_IPC_DISCONNECT`. -/
def psaIpcDisconnect : ℤ := -2

/-- Smallest message type of a request message, `PSA_IPC_CALL`. -/
def psaIpcCall : ℤ := 0

/-- `PSA_SUCCESS`. -/
def psaSuccess : ℤ := 0

/-- `PSA_ERROR_PROGRAMMER_ERROR`. -/
def psaErrorProgrammerError : ℤ := -129

/-- `PSA_ERROR_CONNECTION_REFUSED`. -/
def psaErrorConnectionRefused : ℤ := -130

/-- `PSA_ERROR_CONNECTION_BUSY`. -/
def psaErrorConnectionBusy : ℤ := -131

/-- `PSA_ERROR_DOES_NOT_EXIST`. -/
def psaErrorDoesNotExist : ℤ := -140

/-- Internal status asking for a thread switch, `STATUS_NEED_SCHEDULE`. -/
def statusNeedSchedule : ℤ := -254

/-- Access rights asked of `tfm_hal_memory_check`. -/
structure Access where
  /-- Write access is needed besides read access, `TFM_HAL_ACCESS_WRITABLE`. -/
  writable : Bool
  /-- The memory has to be non-secure, `TFM_HAL_ACCESS_NS`. -/
  ns : Bool
  deriving DecidableEq

/-! ## Load information -/

/-- The fields of `partition_load_info_t` that message passing reads. -/
structure PartitionLoadInfo where
  /-- Partition identifier. -/
  pid : ℤ
  /-- The partition is the TrustZone non-secure agent. -/
  nsAgentTz : Bool
  /-- The partition is a mailbox non-secure agent. -/
  nsAgentMailbox : Bool
  /-- Identifiers of the services that the partition depends on. -/
  deps : List Word
  /-- First client identifier of a non-secure agent. -/
  clientIdBase : ℤ
  /-- Last client identifier of a non-secure agent. -/
  clientIdLimit : ℤ

/-- Version policy of a service. -/
inductive VersionPolicy
  /-- Any client version up to the version of the service. -/
  | relaxed
  /-- Exactly the version of the service. -/
  | strict
  deriving DecidableEq

/-- The fields of `service_load_info_t` and `service_t` that message passing reads. -/
structure ServiceLoadInfo (Pt : Type) where
  /-- Service identifier. -/
  sid : Word
  /-- Signal raised in the owner for a queued message. -/
  signal : Word
  /-- Version of the service. -/
  version : Word
  /-- Version policy. -/
  policy : VersionPolicy
  /-- Non-secure clients may use the service. -/
  nsAccessible : Bool
  /-- The service is called through a static handle. -/
  stateless : Bool
  /-- The service may map its vectors. -/
  mmIovec : Bool
  /-- The partition that provides the service. -/
  partition : Pt

/-- `IS_NS_AGENT`. -/
def PartitionLoadInfo.nsAgent (info : PartitionLoadInfo) : Bool :=
  info.nsAgentTz || info.nsAgentMailbox

/-- The client identifiers that a partition may present: a secure partition presents its own
identifier, a non-secure agent the negative identifiers of its range. -/
def PartitionLoadInfo.Owns (info : PartitionLoadInfo) (clientId : ℤ) : Prop :=
  if info.nsAgent then
    clientId < 0 ∧ info.clientIdBase ≤ clientId ∧ clientId ≤ info.clientIdLimit
  else clientId = info.pid

instance (info : PartitionLoadInfo) (clientId : ℤ) : Decidable (info.Owns clientId) :=
  inferInstanceAs (Decidable (if info.nsAgent then
    clientId < 0 ∧ info.clientIdBase ≤ clientId ∧ clientId ≤ info.clientIdLimit
  else clientId = info.pid))

/-! ## Run-time records -/

/-- `TFM_HANDLE_STATUS_*`. -/
inductive HandleStatus
  /-- Handle created. -/
  | idle
  /-- Handle in use. -/
  | active
  /-- Free the handle. -/
  | toFree
  deriving DecidableEq

/-- `psa_msg_t`. -/
structure Msg where
  /-- Message type. -/
  type : ℤ
  /-- Message handle. -/
  handle : Word
  /-- Identifier of the sender. -/
  clientId : ℤ
  /-- Reverse handle. -/
  rhandle : Word
  /-- Size of each client input vector. -/
  inSize : Fin 4 → Word
  /-- Size of each client output vector. -/
  outSize : Fin 4 → Word

/-- `connection_t`. -/
structure Connection (Pt Svc : Type) where
  /-- Status of the handle. -/
  status : HandleStatus
  /-- Caller partition. -/
  pClient : Option Pt
  /-- Service that the connection is made to. -/
  service : Option Svc
  /-- Message body. -/
  msg : Msg
  /-- Base addresses of the client input vectors. -/
  invecBase : Fin 4 → Word
  /-- Number of bytes read or skipped in each input vector. -/
  invecAccessed : Fin 4 → Word
  /-- Base addresses of the client output vectors. -/
  outvecBase : Fin 4 → Word
  /-- Number of bytes written to each output vector. -/
  outvecWritten : Fin 4 → Word
  /-- Address of the client's output vector descriptors. -/
  callerOutvec : Word
  /-- Private data of a mailbox client. -/
  clientData : Word
  /-- Mapping status of the vectors. -/
  iovecStatus : Word
  /-- Link to the next handle of a partition's list. -/
  pHandles : Option ℕ
  /-- Result of an asynchronous operation. -/
  replyValue : ℤ

/-- Everything that is fixed once the partitions have been loaded. -/
structure Platform (Pt Svc : Type) where
  /-- Load information of a partition. -/
  partition : Pt → PartitionLoadInfo
  /-- Load information of a service. -/
  service : Svc → ServiceLoadInfo Pt
  /-- The partition list, in list order. -/
  partitionList : List Pt
  /-- The service list after loading. -/
  serviceList : List Svc
  /-- `stateless_services_ref_tbl`. -/
  statelessServicesRefTbl : Fin 32 → Option Svc
  /-- `client_id_regions`: first and last identifier of the TrustZone agent. -/
  clientIdRegions : ℤ × ℤ
  /-- `tfm_hal_memory_check` in the boundary of a partition. -/
  memoryCheck : Pt → Word → Word → Access → Bool
  /-- Signals of the interrupts of a partition. -/
  irqSignals : Pt → Word
  /-- Address of the connection pool. -/
  poolBase : Word
  /-- Size of `connection_t`. -/
  chunksz : ℕ
  /-- `CONFIG_TFM_CONN_HANDLE_MAX_NUM`. -/
  connHandleMaxNum : ℕ
  /-- Contents of a chunk after it has been freed: kept in release builds, overwritten in debug
  builds. -/
  scrub : Connection Pt Svc → Connection Pt Svc
  /-- The word that follows the pool in memory, where the magic of one more chunk would be. -/
  trailer : Word
  /-- The loader refuses negative partition identifiers. -/
  pid_nonneg : ∀ p, 0 ≤ (partition p).pid
  /-- Partition identifiers are generated without repetition. -/
  pid_injective : ∀ p q, (partition p).pid = (partition q).pid → p = q
  /-- The loader refuses overlapping client identifier ranges of non-secure agents. -/
  ranges_disjoint : ∀ p q, p ≠ q → (partition p).nsAgent → (partition q).nsAgent →
    (partition q).clientIdLimit < (partition p).clientIdBase ∨
      (partition p).clientIdLimit < (partition q).clientIdBase
  /-- The TrustZone agent registers its range when it is initialised. -/
  regions_registered : ∀ p, (partition p).nsAgentTz →
    clientIdRegions = ((partition p).clientIdBase, (partition p).clientIdLimit)
  /-- Service signals are generated apart from the reserved signals. -/
  signal_reserved : ∀ σ, (service σ).signal &&& (asyncMsgReply ||| psaDoorbell) = 0
  /-- Interrupt signals are generated apart from the reply signal. -/
  irq_reserved : ∀ p, irqSignals p &&& asyncMsgReply = 0
  /-- The loader enters only stateless services into their table. -/
  table_stateless : ∀ i σ, statelessServicesRefTbl i = some σ → (service σ).stateless
  /-- Partitions that use the agent interface provide no services. -/
  mailbox_no_service : ∀ σ, ¬(partition (service σ).partition).nsAgentMailbox
  /-- Connections have a size. -/
  chunksz_pos : 0 < chunksz
  /-- The pool does not wrap around the address space. -/
  pool_fits : poolBase.toNat + 12 + (connHandleMaxNum + 1) * (chunksz + 8) < 2 ^ 32
  /-- Handles stay below the static handle indicator. -/
  handle_fits : (12 + (connHandleMaxNum + 1) * (chunksz + 8)) * 8 < 2 ^ 30

/-- `partition_t`, without the load information. -/
structure Partition where
  /-- Signals that the partition waits for; a partition with none is running or ready. -/
  signalsWaiting : Word
  /-- Signals asserted in the partition. -/
  signalsAsserted : Word
  /-- Return value of the request that the partition waits for. -/
  replyValue : ℤ
  /-- First handle of the list of messages, or of asynchronous replies. -/
  pHandles : Option ℕ

/-- The state of the secure partition manager.  Chunks are numbered from 0 and connections are the
contents of chunks; chunk `connHandleMaxNum` is the memory that follows the pool. -/
structure State (Pt Svc : Type) where
  /-- Memory of the partitions and of the non-secure world. -/
  memory : Word → BitVec 8
  /-- First free chunk of the pool. -/
  poolNext : Option ℕ
  /-- Link from one free chunk to the next. -/
  chunkNext : ℕ → Option ℕ
  /-- Magic word of each chunk. -/
  magic : ℕ → Word
  /-- Contents of each chunk. -/
  connections : ℕ → Connection Pt Svc
  /-- `loop_index` of the handle conversion. -/
  loopIndex : ℕ
  /-- Run-time record of each partition. -/
  partitions : Pt → Partition
  /-- The service list in its current order. -/
  services : List Svc

variable {Pt Svc : Type}

/-- A cleared message body. -/
def Msg.zero : Msg where
  type := 0
  handle := 0
  clientId := 0
  rhandle := 0
  inSize := fun _ ↦ 0
  outSize := fun _ ↦ 0

/-- A cleared chunk. -/
def Connection.zero : Connection Pt Svc where
  status := .idle
  pClient := none
  service := none
  msg := .zero
  invecBase := fun _ ↦ 0
  invecAccessed := fun _ ↦ 0
  outvecBase := fun _ ↦ 0
  outvecWritten := fun _ ↦ 0
  callerOutvec := 0
  clientData := 0
  iovecStatus := 0
  pHandles := none
  replyValue := 0

/-- Replace the contents of one chunk. -/
def State.setConnection (s : State Pt Svc) (c : ℕ) (connection : Connection Pt Svc) :
    State Pt Svc :=
  { s with connections := Function.update s.connections c connection }

/-- Replace the record of one partition. -/
def State.setPartition [DecidableEq Pt] (s : State Pt Svc) (p : Pt) (partition : Partition) :
    State Pt Svc :=
  { s with partitions := Function.update s.partitions p partition }

section simp

variable (s : State Pt Svc) (c : ℕ) (k : Connection Pt Svc)

@[simp] theorem setConnection_memory : (s.setConnection c k).memory = s.memory := rfl
@[simp] theorem setConnection_poolNext : (s.setConnection c k).poolNext = s.poolNext := rfl
@[simp] theorem setConnection_chunkNext : (s.setConnection c k).chunkNext = s.chunkNext := rfl
@[simp] theorem setConnection_magic : (s.setConnection c k).magic = s.magic := rfl
@[simp] theorem setConnection_loopIndex : (s.setConnection c k).loopIndex = s.loopIndex := rfl
@[simp] theorem setConnection_partitions :
    (s.setConnection c k).partitions = s.partitions := rfl
@[simp] theorem setConnection_services : (s.setConnection c k).services = s.services := rfl
@[simp] theorem setConnection_connections :
    (s.setConnection c k).connections = Function.update s.connections c k := rfl

variable [DecidableEq Pt] (p : Pt) (r : Partition)

@[simp] theorem setPartition_memory : (s.setPartition p r).memory = s.memory := rfl
@[simp] theorem setPartition_poolNext : (s.setPartition p r).poolNext = s.poolNext := rfl
@[simp] theorem setPartition_chunkNext : (s.setPartition p r).chunkNext = s.chunkNext := rfl
@[simp] theorem setPartition_magic : (s.setPartition p r).magic = s.magic := rfl
@[simp] theorem setPartition_loopIndex : (s.setPartition p r).loopIndex = s.loopIndex := rfl
@[simp] theorem setPartition_services : (s.setPartition p r).services = s.services := rfl
@[simp] theorem setPartition_connections :
    (s.setPartition p r).connections = s.connections := rfl
@[simp] theorem setPartition_partitions :
    (s.setPartition p r).partitions = Function.update s.partitions p r := rfl

end simp

/-! ## Memory -/

/-- The little-endian word stored at an address. -/
def loadWord (memory : Word → BitVec 8) (address : Word) : Word :=
  memory (address + 3) ++ memory (address + 2) ++ memory (address + 1) ++ memory address

/-- Store a word at an address in little-endian order. -/
def storeWord (memory : Word → BitVec 8) (address value : Word) : Word → BitVec 8 :=
  Function.update (Function.update (Function.update (Function.update memory
    address (value.extractLsb' 0 8)) (address + 1) (value.extractLsb' 8 8))
    (address + 2) (value.extractLsb' 16 8)) (address + 3) (value.extractLsb' 24 8)

/-- Store consecutive words. -/
def storeWords (memory : Word → BitVec 8) : Word → List Word → Word → BitVec 8
  | _, [] => memory
  | address, value :: values =>
      storeWords (storeWord memory address value) (address + 4) values

/-- `spm_memcpy` between disjoint or equal ranges. -/
def spmMemcpy (memory : Word → BitVec 8) (destination source size : Word) : Word → BitVec 8 :=
  fun address ↦
    if address - destination < size then memory (source + (address - destination))
    else memory address

/-- The memory image of a message body. -/
def Msg.words (msg : Msg) : List Word :=
  [BitVec.ofInt 32 msg.type, msg.handle, BitVec.ofInt 32 msg.clientId, msg.rhandle,
    msg.inSize 0, msg.inSize 1, msg.inSize 2, msg.inSize 3,
    msg.outSize 0, msg.outSize 1, msg.outSize 2, msg.outSize 3]

/-! ## Identifiers -/

theorem Platform.owns_unique (P : Platform Pt Svc) {p q : Pt} {clientId : ℤ}
    (left : (P.partition p).Owns clientId) (right : (P.partition q).Owns clientId) : p = q := by
  by_contra p_ne_q
  have p_pid := P.pid_nonneg p
  have q_pid := P.pid_nonneg q
  simp only [PartitionLoadInfo.Owns] at left right
  split at left <;> split at right
  · next p_agent q_agent =>
      have apart := P.ranges_disjoint p q p_ne_q p_agent q_agent
      omega
  · omega
  · omega
  · exact p_ne_q (P.pid_injective p q (left.symm.trans right))

/-- The signals that a partition may wait for, as its initialisation sets them. -/
def Platform.signalsAllowed (P : Platform Pt Svc) [DecidableEq Pt] (p : Pt) : Word :=
  if (P.partition p).nsAgentTz then P.irqSignals p
  else
    ((P.serviceList.filter fun σ ↦ (P.service σ).partition = p).foldl
        (fun signals σ ↦ signals ||| (P.service σ).signal) (P.irqSignals p ||| psaDoorbell)) |||
      (if (P.partition p).nsAgentMailbox then asyncMsgReply else 0)

end TrustedFirmwareM.Spm
