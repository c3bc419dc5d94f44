import TrustedFirmwareM.Lib.Run
import TrustedFirmwareM.Spm.Service

/-!
# The secure partition manager as a transition system

Interface calls of running partitions, the scheduler's query, interrupts and memory writes happen in
any order.  A ledger beside the state records what clients and services can tell from the outside:
which requests were made, to whom they were handed, and how often each was replied to.
-/

namespace TrustedFirmwareM.Spm

variable {Pt Svc : Type}

/-- An interface call.  `nsId` is the client identifier of the active non-secure context. -/
inductive Api
  /-- `psa_connect`. -/
  | connect (nsId : ℤ) (sid version : Word)
  /-- `psa_call`. -/
  | call (nsId : ℤ) (handle ctrl inptr outptr : Word)
  /-- `psa_close`. -/
  | close (nsId : ℤ) (handle : Word)
  /-- `agent_psa_call`. -/
  | agentCall (handle control params clientData : Word)
  /-- `agent_psa_connect`. -/
  | agentConnect (sid version : Word) (nsClientId : ℤ) (clientData : Word)
  /-- `agent_psa_close`. -/
  | agentClose (handle : Word) (nsClientId : ℤ)
  /-- `psa_wait`. -/
  | wait (signalMask timeout : Word)
  /-- `psa_get`. -/
  | get (signal msg : Word)
  /-- `psa_set_rhandle`. -/
  | setRhandle (handle rhandle : Word)
  /-- `psa_read`. -/
  | read (handle idx buffer numBytes : Word)
  /-- `psa_skip`. -/
  | skip (handle idx numBytes : Word)
  /-- `psa_write`. -/
  | write (handle idx buffer numBytes : Word)
  /-- `psa_map_invec`. -/
  | mapInvec (handle idx : Word)
  /-- `psa_unmap_invec`. -/
  | unmapInvec (handle idx : Word)
  /-- `psa_map_outvec`. -/
  | mapOutvec (handle idx : Word)
  /-- `psa_unmap_outvec`. -/
  | unmapOutvec (handle idx len : Word)
  /-- `psa_reply`. -/
  | reply (handle : Word) (status : ℤ)
  /-- `psa_notify`. -/
  | notify (partitionId : ℤ)
  /-- `psa_clear`. -/
  | clear
  /-- `tfm_rpc_client_call_reply`, with the place of its local message. -/
  | rpcClientCallReply (msg : Word)

/-- One step of the system. -/
inductive Action (Pt : Type)
  /-- A running partition calls the interface. -/
  | api (caller : Pt) (call : Api)
  /-- The scheduler queries the thread of a partition. -/
  | schedule (p : Pt)
  /-- An interrupt asserts a signal of a partition. -/
  | irq (p : Pt) (signal : Word)
  /-- Memory outside the manager changes. -/
  | store (address : Word) (value : BitVec 8)

/-- The message handle that an interface call presents, if it is a call on a message. -/
def Api.msgHandle : Api → Option Word
  | .setRhandle handle _ | .read handle _ _ _ | .skip handle _ _ | .write handle _ _ _
  | .mapInvec handle _ | .unmapInvec handle _ | .mapOutvec handle _ | .unmapOutvec handle _ _
  | .reply handle _ => some handle
  | _ => none

/-- `backend_abi_leaving_spm`: a programmer error panics a secure caller. -/
def backendAbiLeavingSpm (P : Platform Pt Svc) (caller : Pt) (outcome : Outcome Pt Svc) :
    Option (Effect × State Pt Svc) :=
  if (outcome.result = psaErrorProgrammerError ∨ outcome.result = psaErrorConnectionRefused) ∧
      ¬(P.partition caller).nsAgent then none
  else some (outcome.effect, outcome.state)

variable [DecidableEq Pt]

/-- The function behind an interface call. -/
def Api.run (P : Platform Pt Svc) (s : State Pt Svc) (caller : Pt) :
    Api → Option (Outcome Pt Svc)
  | .connect nsId sid version => tfmSpmClientPsaConnect P s caller nsId sid version
  | .call nsId handle ctrl inptr outptr =>
      tfmSpmClientPsaCall P s caller nsId handle ctrl inptr outptr
  | .close nsId handle => tfmSpmClientPsaClose P s caller nsId handle
  | .agentCall handle control params clientData =>
      tfmSpmAgentPsaCall P s caller handle control params clientData
  | .agentConnect sid version nsClientId clientData =>
      tfmSpmAgentPsaConnect P s caller sid version nsClientId clientData
  | .agentClose handle nsClientId => tfmSpmAgentPsaClose P s caller handle nsClientId
  | .wait signalMask timeout => tfmSpmPartitionPsaWait P s caller signalMask timeout
  | .get signal msg => tfmSpmPartitionPsaGet P s caller signal msg
  | .setRhandle handle rhandle => tfmSpmPartitionPsaSetRhandle P s caller handle rhandle
  | .read handle idx buffer numBytes => tfmSpmPartitionPsaRead P s caller handle idx buffer numBytes
  | .skip handle idx numBytes => tfmSpmPartitionPsaSkip P s caller handle idx numBytes
  | .write handle idx buffer numBytes =>
      tfmSpmPartitionPsaWrite P s caller handle idx buffer numBytes
  | .mapInvec handle idx => tfmSpmPartitionPsaMapInvec P s caller handle idx
  | .unmapInvec handle idx => tfmSpmPartitionPsaUnmapInvec P s caller handle idx
  | .mapOutvec handle idx => tfmSpmPartitionPsaMapOutvec P s caller handle idx
  | .unmapOutvec handle idx len => tfmSpmPartitionPsaUnmapOutvec P s caller handle idx len
  | .reply handle status => tfmSpmPartitionPsaReply P s caller handle status
  | .notify partitionId => tfmSpmPartitionPsaNotify P s partitionId
  | .clear => tfmSpmPartitionPsaClear s caller
  | .rpcClientCallReply msg => tfmRpcClientCallReply P s caller msg

/-- One step: its meaning and the state after it, unless it panics or cannot happen. -/
def step (P : Platform Pt Svc) (s : State Pt Svc) : Action Pt → Option (Effect × State Pt Svc)
  | .api caller call =>
      if (s.partitions caller).signalsWaiting ≠ 0 then none
      else (call.run P s caller).bind (backendAbiLeavingSpm P caller)
  | .schedule p => (queryState P s p).map fun (value, s) ↦ (.returned value, s)
  | .irq p signal =>
      if signal &&& ~~~P.irqSignals p = 0 then
        some (.quiet, (backendAssertSignal s p signal).2)
      else none
  | .store address value =>
      some (.quiet, { s with memory := Function.update s.memory address value })

/-! ## The ledger -/

/-- How far a request has come. -/
inductive Phase (Pt : Type)
  /-- Queued at the partition of its service. -/
  | queued
  /-- Handed to a partition under a message handle. -/
  | delivered (receiver : Pt) (handle : Word)
  /-- Replied to; the reply is queued for the agent that made the request. -/
  | replyQueued
  /-- Replied to. -/
  | replied
  deriving DecidableEq

/-- What clients and services can tell of a run.  Requests are numbered in the order in which they
are made. -/
structure Ledger (Pt : Type) where
  /-- Number of requests made. -/
  sent : ℕ
  /-- The latest request made on a chunk. -/
  onChunk : ℕ → ℕ
  /-- The chunk that a request was made on. -/
  chunk : ℕ → ℕ
  /-- How far each request has come. -/
  phase : ℕ → Phase Pt
  /-- Number of replies to each request. -/
  replies : ℕ → ℕ
  /-- Lengths of the input vectors that the client gave with a request. -/
  inLen : ℕ → Fin 4 → Word
  /-- Lengths of the output vectors that the client gave with a request. -/
  outLen : ℕ → Fin 4 → Word
  /-- The request that a blocked client waits for. -/
  waitingFor : Pt → Option ℕ
  /-- A client has been given the handle of the connection on a chunk and has not closed it. -/
  held : ℕ → Bool

/-- The ledger before any request. -/
def Ledger.empty : Ledger Pt where
  sent := 0
  onChunk := fun _ ↦ 0
  chunk := fun _ ↦ 0
  phase := fun _ ↦ .replied
  replies := fun _ ↦ 0
  inLen := fun _ _ ↦ 0
  outLen := fun _ _ ↦ 0
  waitingFor := fun _ ↦ none
  held := fun _ ↦ false

/-- Length of the vector that a caller describes at an index, 0 from the count on. -/
def callerLen (memory : Word → BitVec 8) (descriptors : Word) (count : ℕ) (i : Fin 4) : Word :=
  if i.val < count then vecLen memory descriptors i else 0

/-- Handle, control word and descriptor arrays of a call. -/
def Api.callParams (memory : Word → BitVec 8) : Api → Option (Word × Word × Word × Word)
  | .call _ handle ctrl inptr outptr => some (handle, ctrl, inptr, outptr)
  | .agentCall handle control params _ =>
      some (handle, control, loadWord memory (params + 4), loadWord memory (params + 8))
  | _ => none

/-- Input vector lengths that a caller gives with an interface call. -/
def Api.inLen (memory : Word → BitVec 8) (call : Api) : Fin 4 → Word :=
  match call.callParams memory with
  | some (_, ctrl, inptr, _) => callerLen memory inptr (paramUnpackInLen ctrl)
  | none => fun _ ↦ 0

/-- Output vector lengths that a caller gives with an interface call. -/
def Api.outLen (memory : Word → BitVec 8) (call : Api) : Fin 4 → Word :=
  match call.callParams memory with
  | some (_, ctrl, _, outptr) => callerLen memory outptr (paramUnpackOutLen ctrl)
  | none => fun _ ↦ 0

/-- Enter a new request on a chunk; a client that is not an agent waits for it. -/
def Ledger.send (L : Ledger Pt) (caller : Pt) (c : ℕ) (rpc : Bool) (inLen outLen : Fin 4 → Word) :
    Ledger Pt :=
  { L with
    sent := L.sent + 1
    onChunk := Function.update L.onChunk c L.sent
    chunk := Function.update L.chunk L.sent c
    phase := Function.update L.phase L.sent .queued
    inLen := Function.update L.inLen L.sent inLen
    outLen := Function.update L.outLen L.sent outLen
    waitingFor := if rpc then L.waitingFor else Function.update L.waitingFor caller (some L.sent) }

/-- Enter that the request on a chunk was handed to a partition. -/
def Ledger.deliver (L : Ledger Pt) (receiver : Pt) (c : ℕ) (handle : Word) : Ledger Pt :=
  { L with phase := Function.update L.phase (L.onChunk c) (.delivered receiver handle) }

/-- Enter a reply to the request on a chunk.  A connection is granted by the successful reply to a
connection request and ends with the reply to its disconnection. -/
def Ledger.reply (L : Ledger Pt) (c : ℕ) (rpc : Bool) (type status : ℤ) : Ledger Pt :=
  { L with
    phase := Function.update L.phase (L.onChunk c) (if rpc then .replyQueued else .replied)
    replies := Function.update L.replies (L.onChunk c) (L.replies (L.onChunk c) + 1)
    held := Function.update L.held c
      (if type = psaIpcConnect then status = psaSuccess
      else if type = psaIpcDisconnect then false
      else L.held c) }

/-- Enter that the queued reply on a chunk was collected. -/
def Ledger.collect (L : Ledger Pt) (c : ℕ) : Ledger Pt :=
  { L with phase := Function.update L.phase (L.onChunk c) .replied }

/-- Enter that a partition waits no more. -/
def Ledger.wake (L : Ledger Pt) (p : Pt) : Ledger Pt :=
  { L with waitingFor := Function.update L.waitingFor p none }

/-- Enter one step in the ledger. -/
def Ledger.observe (s s' : State Pt Svc) (L : Ledger Pt) : Action Pt → Effect → Ledger Pt
  | .api caller call, .sent c =>
      L.send caller c (tfmSpmIsRpcMsg (s'.connections c)) (call.inLen s.memory)
        (call.outLen s.memory)
  | .api caller _, .delivered c msg => L.deliver caller c msg.handle
  | .api _ _, .replied c status =>
      L.reply c (tfmSpmIsRpcMsg (s.connections c)) (s.connections c).msg.type status
  | .api _ _, .collected c => L.collect c
  | .schedule p, .returned _ => L.wake p
  | _, _ => L

/-- A step of the system together with its ledger. -/
def tracedStep (P : Platform Pt Svc) (x : State Pt Svc × Ledger Pt) (a : Action Pt) :
    Option (State Pt Svc × Ledger Pt) :=
  (step P x.1 a).map fun (effect, s') ↦ (s', x.2.observe x.1 s' a effect)

/-! ## The start -/

/-- The state after `tfm_spm_init`.  The pool starts cleared, with every chunk linked in front of
the one before it; `behind` is the memory that follows the pool. -/
def initialState (P : Platform Pt Svc) (memory : Word → BitVec 8) (behind : Connection Pt Svc) :
    State Pt Svc where
  memory := memory
  poolNext := if P.connHandleMaxNum = 0 then none else some (P.connHandleMaxNum - 1)
  chunkNext := fun c ↦ if c = 0 then none else some (c - 1)
  magic := fun c ↦ if c < P.connHandleMaxNum then 0 else P.trailer
  connections := fun c ↦ if c < P.connHandleMaxNum then .zero else behind
  loopIndex := 0
  partitions := fun _ ↦ ⟨0, 0, 0, none⟩
  services := P.serviceList

/-- States reached by runs whose steps satisfy a condition. -/
def Reached (P : Platform Pt Svc) (guard : State Pt Svc × Ledger Pt → Action Pt → Prop)
    (x : State Pt Svc × Ledger Pt) : Prop :=
  ∃ memory behind, Run.Reaches (tracedStep P) guard (initialState P memory behind, .empty) x

theorem tracedStep_eq_some {P : Platform Pt Svc} {x y : State Pt Svc × Ledger Pt} {a : Action Pt} :
    tracedStep P x a = some y ↔
      ∃ effect, step P x.1 a = some (effect, y.1) ∧ y.2 = x.2.observe x.1 y.1 a effect := by
  simp only [tracedStep, Option.map_eq_some_iff, Prod.exists]
  constructor
  · rintro ⟨effect, s', step_eq, rfl⟩
    exact ⟨effect, step_eq, rfl⟩
  · rintro ⟨effect, step_eq, ledger_eq⟩
    exact ⟨effect, y.1, step_eq, by rw [← ledger_eq]⟩

/-- An accepted interface call is made by a running partition; its outcome leaves the manager. -/
theorem step_api_eq_some {P : Platform Pt Svc} {s s' : State Pt Svc} {caller : Pt} {call : Api}
    {effect : Effect} (step_eq : step P s (.api caller call) = some (effect, s')) :
    (s.partitions caller).signalsWaiting = 0 ∧
      ∃ result, call.run P s caller = some ⟨result, effect, s'⟩ := by
  rw [step] at step_eq
  split at step_eq
  · cases step_eq
  · next running =>
      refine ⟨by simpa using running, ?_⟩
      rw [Option.bind_eq_some_iff] at step_eq
      obtain ⟨outcome, run_eq, leave⟩ := step_eq
      rw [backendAbiLeavingSpm] at leave
      split at leave
      · cases leave
      · cases leave
        exact ⟨outcome.result, run_eq⟩

/-! ## A small platform -/

/-- A platform with one client, the partition `false`, and two services of the partition `true`: one
for connections, and one that is stateless. -/
def samplePlatform : Platform Bool Bool where
  partition := fun p ↦ {
    pid := if p then 2 else 1
    nsAgentTz := false
    nsAgentMailbox := false
    deps := if p then [] else [0x100, 0x200]
    clientIdBase := 0
    clientIdLimit := 0 }
  service := fun σ ↦ {
    sid := if σ then 0x200 else 0x100
    signal := if σ then 0x20 else 0x10
    version := 1
    policy := .relaxed
    nsAccessible := false
    stateless := σ
    mmIovec := false
    partition := true }
  partitionList := [false, true]
  serviceList := [false, true]
  statelessServicesRefTbl := fun i ↦ if i = 0 then some true else none
  clientIdRegions := (0, 0)
  memoryCheck := fun _ _ _ _ ↦ true
  irqSignals := fun _ ↦ 0
  poolBase := 0x1000
  chunksz := 100
  connHandleMaxNum := 2
  scrub := id
  trailer := 0
  pid_nonneg := by decide
  pid_injective := by decide
  ranges_disjoint := by decide
  regions_registered := by decide
  signal_reserved := by decide
  irq_reserved := by decide
  table_stateless := by decide
  mailbox_no_service := by decide
  chunksz_pos := Nat.succ_pos _
  pool_fits := by decide
  handle_fits := by decide

/-- A platform whose only client is a mailbox agent, the partition `false`, which owns the client
identifiers from -10 to -1; the services are those of the small platform. -/
def agentPlatform : Platform Bool Bool :=
  { samplePlatform with
    partition := fun p ↦ {
      pid := if p then 2 else 1
      nsAgentTz := false
      nsAgentMailbox := !p
      deps := []
      clientIdBase := -10
      clientIdLimit := -1 }
    service := fun σ ↦ { samplePlatform.service σ with nsAccessible := true }
    pid_nonneg := by decide
    pid_injective := by decide
    ranges_disjoint := by decide
    regions_registered := by decide
    signal_reserved := by decide
    table_stateless := by decide
    mailbox_no_service := by decide }

/-- A memory that holds the client identifier -1 at one place and zeros elsewhere. -/
def agentMemory (address : Word) : BitVec 8 := if address - 0x3000 < 4 then 0xFF else 0

/-- Run the small platform from a memory that holds zeros. -/
def sampleRun (actions : List (Action Bool)) : Option (State Bool Bool × Ledger Bool) :=
  Run.exec (tracedStep samplePlatform)
    (initialState samplePlatform (fun _ ↦ 0) .zero, .empty) actions

/-- A run of the small platform reaches a state under the guards that its actions satisfy. -/
theorem reached_of_sampleRun {guard : State Bool Bool × Ledger Bool → Action Bool → Prop}
    {actions : List (Action Bool)} {x : State Bool Bool × Ledger Bool}
    (run : sampleRun actions = some x)
    (allowed : Run.Allowed (tracedStep samplePlatform) guard
      (initialState samplePlatform (fun _ ↦ 0) .zero, .empty) actions) :
    Reached samplePlatform guard x :=
  ⟨_, _, Run.exec_reaches run allowed⟩

end TrustedFirmwareM.Spm
