import TrustedFirmwareM.Spm.Pool

/-!
# The IPC backend

Signals, the message list of a partition, the hand-over of requests and replies, and the query that
the scheduler makes before it runs a thread.  `none` stands for a panic, or for a traversal of a
message list that never ends.
-/

namespace TrustedFirmwareM.Spm

open LinkedList

variable {Pt Svc : Type}

/-- What a step means to the client and the service of a request. -/
inductive Effect
  /-- Nothing but local bookkeeping. -/
  | quiet
  /-- The request on a chunk was queued at its service. -/
  | sent (c : ℕ)
  /-- The message of a chunk was handed to a partition. -/
  | delivered (c : ℕ) (msg : Msg)
  /-- The request on a chunk was replied to with a status. -/
  | replied (c : ℕ) (status : ℤ)
  /-- The queued reply of a chunk was collected by its agent. -/
  | collected (c : ℕ)
  /-- A value was returned to a thread that had been waiting. -/
  | returned (value : ℤ)

/-- The chunk whose request was replied to. -/
def Effect.repliedChunk : Effect → Option ℕ
  | .replied c _ => some c
  | _ => none

theorem Effect.repliedChunk_eq_some {effect : Effect} {c : ℕ} :
    effect.repliedChunk = some c ↔ ∃ status, effect = .replied c status := by
  cases effect <;> simp [repliedChunk]

/-- A message that passes a test was handed to a partition. -/
def Effect.delivers (test : ℕ → Msg → Bool) : Effect → Bool
  | .delivered c msg => test c msg
  | _ => false

/-- Result of an interface function. -/
structure Outcome (Pt Svc : Type) where
  /-- Returned status, size, signal set or address. -/
  result : ℤ
  /-- Meaning of the step. -/
  effect : Effect
  /-- State after the call. -/
  state : State Pt Svc

/-- `tfm_spm_is_rpc_msg`. -/
def tfmSpmIsRpcMsg (k : Connection Pt Svc) : Bool :=
  k.clientData ≠ 0 && k.msg.clientId < 0

/-- The link from one handle of a message list to the next. -/
def State.link (s : State Pt Svc) (c : ℕ) : Option ℕ := (s.connections c).pHandles

/-- `spm_init_idle_connection`. -/
def spmInitIdleConnection (P : Platform Pt Svc) (s : State Pt Svc) (caller : Pt) (c : ℕ) (σ : Svc)
    (clientId : ℤ) : State Pt Svc :=
  let (handle, s) := connectionToHandle P s c
  s.setConnection c { s.connections c with
    msg := { Msg.zero with clientId := clientId, handle := handle }
    service := some σ
    pClient := some caller
    status := .idle
    iovecStatus := 0
    clientData := 0 }

/-- Free a connection marked for it and set any other one idle, as done after a reply. -/
def releaseConnection (P : Platform Pt Svc) (s : State Pt Svc) (c : ℕ) : State Pt Svc :=
  if (s.connections c).status = .toFree then tfmPoolFree P s c
  else s.setConnection c { s.connections c with status := .idle }

variable [DecidableEq Pt]

@[simp] theorem setPartition_link (s : State Pt Svc) (p : Pt) (r : Partition) :
    (s.setPartition p r).link = s.link := rfl

/-- `backend_assert_signal`. -/
def backendAssertSignal (s : State Pt Svc) (p : Pt) (signal : Word) : ℤ × State Pt Svc :=
  let asserted := (s.partitions p).signalsAsserted ||| signal
  (if asserted &&& (s.partitions p).signalsWaiting ≠ 0 then statusNeedSchedule else psaSuccess,
    s.setPartition p { s.partitions p with signalsAsserted := asserted })

/-- `backend_wait_signals`. -/
def backendWaitSignals (s : State Pt Svc) (p : Pt) (signals : Word) : Word × State Pt Svc :=
  let ret := (s.partitions p).signalsAsserted &&& signals
  (ret,
    if ret = 0 then s.setPartition p { s.partitions p with signalsWaiting := signals } else s)

/-- Insert a handle at the front of the list of a partition. -/
def insertHandle (s : State Pt Svc) (p : Pt) (c : ℕ) : State Pt Svc :=
  (s.setConnection c { s.connections c with pHandles := (s.partitions p).pHandles }).setPartition p
    { s.partitions p with pHandles := some c }

/-- Take a handle, found behind the handles `before`, out of the list of a partition. -/
def removeHandle (s : State Pt Svc) (p : Pt) (before : List ℕ) (c : ℕ) : State Pt Svc :=
  match before.getLast? with
  | none => s.setPartition p { s.partitions p with pHandles := s.link c }
  | some holder => s.setConnection holder { s.connections holder with pHandles := s.link c }

/-- The handles in the list of a partition, if the list ends. -/
def messageList (P : Platform Pt Svc) (s : State Pt Svc) (p : Pt) : Option (List ℕ) :=
  walk s.link (P.connHandleMaxNum + 1) (s.partitions p).pHandles

/-- Clear signals of a partition. -/
def clearSignals (s : State Pt Svc) (p : Pt) (signals : Word) : State Pt Svc :=
  s.setPartition p
    { s.partitions p with signalsAsserted := (s.partitions p).signalsAsserted &&& ~~~signals }

/-- The service of a connection raises a given signal. -/
def raises (P : Platform Pt Svc) (s : State Pt Svc) (signal : Word) (c : ℕ) : Bool :=
  (s.connections c).service.any fun σ ↦ (P.service σ).signal = signal

/-- `spm_get_handle_by_signal`: take the oldest message of a signal out of the list, and clear the
signal when it was the only one. -/
def spmGetHandleBySignal (P : Platform Pt Svc) (s : State Pt Svc) (p : Pt) (signal : Word) :
    Option (Option ℕ × State Pt Svc) := do
  let handles ← messageList P s p
  match splitLast (raises P s signal) handles with
  | none => some (none, s)
  | some (before, c, _) =>
      let s' := removeHandle s p before c
      some (some c, if before.any (raises P s signal) then s' else clearSignals s' p signal)

/-- `backend_messaging`. -/
def backendMessaging (P : Platform Pt Svc) (s : State Pt Svc) (c : ℕ) :
    Option (ℤ × State Pt Svc) := do
  match (s.connections c).service with
  | none => some (psaErrorProgrammerError, s)
  | some σ =>
      let owner := (P.service σ).partition
      let (ret, s) := backendAssertSignal (insertHandle s owner c) owner (P.service σ).signal
      let (ret, s) ←
        if tfmSpmIsRpcMsg (s.connections c) then some (psaSuccess, s)
        else do
          let client ← (s.connections c).pClient
          let (signal, s) := backendWaitSignals s client asyncMsgReply
          some (if signal = 0 then statusNeedSchedule else ret, s)
      some (ret, s.setConnection c { s.connections c with status := .active })

/-- `backend_replying`. -/
def backendReplying (P : Platform Pt Svc) (s : State Pt Svc) (c : ℕ) (status : ℤ) :
    Option (ℤ × State Pt Svc) := do
  let client ← (s.connections c).pClient
  if tfmSpmIsRpcMsg (s.connections c) then
    let s := s.setConnection c { s.connections c with
      replyValue := status
      msg := { (s.connections c).msg with rhandle := P.chunkAddress c } }
    some (backendAssertSignal (insertHandle s client c) client asyncMsgReply)
  else
    let s := s.setPartition client { s.partitions client with replyValue := status }
    some (backendAssertSignal s client asyncMsgReply)

/-- `query_state`: the value that a waiting thread returns with, if it may run. -/
def queryState (P : Platform Pt Svc) (s : State Pt Svc) (p : Pt) : Option (ℤ × State Pt Svc) :=
  let r := s.partitions p
  let signals := r.signalsWaiting &&& r.signalsAsserted
  if signals = 0 then none
  else if signals = asyncMsgReply ∧ P.signalsAllowed p &&& asyncMsgReply ≠ asyncMsgReply then
    some (r.replyValue, s.setPartition p { r with
      signalsAsserted := r.signalsAsserted &&& ~~~asyncMsgReply
      signalsWaiting := 0 })
  else some (signals.toInt, s.setPartition p { r with signalsWaiting := 0 })

end TrustedFirmwareM.Spm
