import TrustedFirmwareM.Spm.Requests

/-!
# Deliveries and replies

The functions that take a message out of a list, reply to it and collect an asynchronous reply,
described by their effect on the pool, on the message lists and on the signals of the partitions.
-/

namespace TrustedFirmwareM.Spm

open LinkedList

variable {Pt Svc : Type} [DecidableEq Pt]

/-! ## Deliveries -/

/-- A handle was taken out of the list of a partition; the signal may have been cleared there. -/
structure TakeMove (s s' : State Pt Svc) (p : Pt) (signal : Word) : Prop where
  /-- Magic words. -/
  magic : s'.magic = s.magic
  /-- Head of the free list. -/
  poolNext : s'.poolNext = s.poolNext
  /-- Links of the free list. -/
  chunkNext : s'.chunkNext = s.chunkNext
  /-- Connections change in their links only. -/
  connections : ∀ d, ∃ link, s'.connections d = { s.connections d with pHandles := link }
  /-- Nobody waits for anything else. -/
  waiting : ∀ q, (s'.partitions q).signalsWaiting = (s.partitions q).signalsWaiting
  /-- Only the signal may be cleared. -/
  asserted : ∀ q, (s'.partitions q).signalsAsserted = (s.partitions q).signalsAsserted ∨
    q = p ∧ (s'.partitions q).signalsAsserted = (s.partitions q).signalsAsserted &&& ~~~signal

/-- The handles that `psa_get` looks for: every reply for the reply signal, otherwise the messages
of services that raise the signal. -/
def sought (P : Platform Pt Svc) (s : State Pt Svc) (signal : Word) (c : ℕ) : Bool :=
  signal = asyncMsgReply || raises P s signal c

/-- The handle taken out of a list is the oldest one sought, and the signal is kept just if another
one is left. -/
structure OldestTaken (P : Platform Pt Svc) (s s' : State Pt Svc) (p : Pt) (signal : Word)
    (before : List ℕ) (c : ℕ) (after : List ℕ) : Prop where
  /-- The signal was asserted. -/
  raised : (s.partitions p).signalsAsserted &&& signal ≠ 0
  /-- The handle is sought. -/
  found : sought P s signal c = true
  /-- No older one is. -/
  oldest : ∀ d ∈ after, sought P s signal d = false
  /-- The signal is kept just if a younger one is left. -/
  asserted : (s'.partitions p).signalsAsserted = if before.any (sought P s signal) then
    (s.partitions p).signalsAsserted else (s.partitions p).signalsAsserted &&& ~~~signal
  /-- Nobody else's signals change. -/
  asserted_other : ∀ q, q ≠ p →
    (s'.partitions q).signalsAsserted = (s.partitions q).signalsAsserted

theorem asserted_removeHandle (s : State Pt Svc) (p : Pt) (before : List ℕ) (c : ℕ) (signal : Word)
    (keep : Bool) (q : Pt) :
    ((if keep then removeHandle s p before c
      else clearSignals (removeHandle s p before c) p signal).partitions q).signalsAsserted =
    if q = p ∧ keep = false then (s.partitions q).signalsAsserted &&& ~~~signal
    else (s.partitions q).signalsAsserted := by
  obtain ⟨-, -, -, signals⟩ := removeHandle_frame s p before c
  cases keep with
  | true => simp [signals]
  | false =>
      by_cases q_eq : q = p
      · subst q_eq
        simp [clearSignals, signals]
      · simp [clearSignals, q_eq, signals]

theorem oldestTaken_of_keep {P : Platform Pt Svc} {s : State Pt Svc} {p : Pt} {signal : Word}
    {before after : List ℕ} {c : ℕ} {keep : Bool}
    (raised : (s.partitions p).signalsAsserted &&& signal ≠ 0)
    (found : sought P s signal c = true) (oldest : ∀ d ∈ after, sought P s signal d = false)
    (keep_eq : keep = before.any (sought P s signal)) :
    OldestTaken P s (if keep then removeHandle s p before c
      else clearSignals (removeHandle s p before c) p signal) p signal before c after := by
  refine ⟨raised, found, oldest, ?_, fun q q_ne ↦ ?_⟩
  · refine (asserted_removeHandle s p before c signal keep p).trans ?_
    rw [keep_eq]
    cases before.any (sought P s signal) <;> simp
  · refine (asserted_removeHandle s p before c signal keep q).trans ?_
    simp [q_ne]

theorem takeMove_removeHandle (s : State Pt Svc) (p : Pt) (before : List ℕ) (c : ℕ) (signal : Word)
    (keep : Bool) :
    TakeMove s (if keep then removeHandle s p before c
      else clearSignals (removeHandle s p before c) p signal) p signal := by
  obtain ⟨magic, poolNext, chunkNext, signals⟩ := removeHandle_frame s p before c
  cases keep with
  | true =>
      exact ⟨magic, poolNext, chunkNext, removeHandle_connections s p before c,
        fun q ↦ (signals q).1, fun q ↦ .inl (signals q).2⟩
  | false =>
      refine ⟨magic, poolNext, chunkNext, removeHandle_connections s p before c, fun q ↦ ?_,
        fun q ↦ ?_⟩
      · by_cases q_eq : q = p
        · subst q_eq
          simp [clearSignals, signals]
        · simp [clearSignals, q_eq, signals]
      · by_cases q_eq : q = p
        · subst q_eq
          simp [clearSignals, signals]
        · simp [clearSignals, q_eq, signals]

theorem Lists.clearSignals {s : State Pt Svc} {lists : Pt → List ℕ} (chains : Lists s lists)
    (p : Pt) (signal : Word) : Lists (clearSignals s p signal) lists := by
  refine chains.congr (fun q ↦ ?_) fun _ _ _ ↦ rfl
  by_cases q_eq : q = p
  · subst q_eq
    simp [Spm.clearSignals]
  · simp [Spm.clearSignals, q_eq]

/-- `psa_get` leaves everything as it is, or takes one message out of the caller's list: the oldest
of the signal, or the oldest reply. -/
theorem get_cases {P : Platform Pt Svc} {s : State Pt Svc} {lists : Pt → List ℕ} {caller : Pt}
    {signal msg : Word} {outcome : Outcome Pt Svc} (chains : Lists s lists)
    (disjoint : ∀ p q c, c ∈ lists p → c ∈ lists q → p = q)
    (bounded : ∀ p, ∀ c ∈ lists p, c < P.connHandleMaxNum)
    (run : tfmSpmPartitionPsaGet P s caller signal msg = some outcome) :
    outcome.effect = .quiet ∧ outcome.state = s ∨
      ∃ before c after, lists caller = before ++ c :: after ∧
        outcome.effect = .delivered c (s.connections c).msg ∧
        Lists outcome.state (Function.update lists caller (before ++ after)) ∧
        TakeMove s outcome.state caller signal ∧
        OldestTaken P s outcome.state caller signal before c after ∧
        (signal = asyncMsgReply → outcome.result = (s.connections c).replyValue) := by
  rw [tfmSpmPartitionPsaGet] at run
  have list_eq := chains.messageList_eq (P := P) (p := caller) (bounded caller)
  split at run
  · cases run
  split at run
  · cases run
  split at run
  · cases run
  next raised =>
  dsimp only at run
  -- delivering stores the message and leaves lists and signals alone
  have stored : ∀ {s' : State Pt Svc} {lists' : Pt → List ℕ} {before after : List ℕ} {c : ℕ}
      (memory : Word → BitVec 8), Lists s' lists' → TakeMove s s' caller signal →
      OldestTaken P s s' caller signal before c after →
      Lists { s' with memory := memory } lists' ∧
        TakeMove s { s' with memory := memory } caller signal ∧
        OldestTaken P s { s' with memory := memory } caller signal before c after :=
    fun _ chains' take oldest ↦ ⟨chains', ⟨take.magic, take.poolNext, take.chunkNext,
      take.connections, take.waiting, take.asserted⟩, ⟨oldest.raised, oldest.found,
      oldest.oldest, oldest.asserted, oldest.asserted_other⟩⟩
  split at run
  · next async =>
      simp only [takeAsyncReply, list_eq, Option.bind_eq_bind, Option.bind_some,
        Option.bind_eq_some_iff, Prod.exists] at run
      obtain ⟨c, s', taken, run⟩ := run
      split at taken
      · cases taken
      next before c' after split =>
      cases taken
      cases run
      obtain ⟨list_split, -, oldest⟩ := splitLast_eq_some split
      have removed := chains.removeHandle disjoint list_split
      have take := takeMove_removeHandle s caller before c signal (decide ¬before = [])
      have every : ∀ d, sought P s signal d = true := fun d ↦ by simp [sought, async]
      have keep : (decide ¬before = []) = before.any (sought P s signal) := by
        cases before <;> simp [every]
      have taken : OldestTaken P s _ caller signal before c after :=
        oldestTaken_of_keep raised (every c)
          (fun d member ↦ absurd (oldest d member) (by simp)) keep
      rw [← async]
      simp only [decide_not, Bool.not_eq_true', decide_eq_false_iff_not, ite_not] at take taken
      have chains' : Lists (if before = [] then
          Spm.clearSignals (removeHandle s caller before c) caller signal
          else removeHandle s caller before c)
            (Function.update lists caller (before ++ after)) := by
        split
        · exact removed.clearSignals caller signal
        · exact removed
      obtain ⟨chains'', take', taken'⟩ := stored _ chains' take taken
      obtain ⟨link, connection⟩ := take.connections c
      refine .inr ⟨before, c, after, list_split, ?_, chains'', take', taken', fun _ ↦ ?_⟩ <;>
        simp only [connection]
  · next not_async =>
      simp only [spmGetHandleBySignal, list_eq, Option.bind_eq_bind, Option.bind_some,
        Option.bind_eq_some_iff, Prod.exists] at run
      obtain ⟨found, s', taken, run⟩ := run
      split at taken
      · cases taken
        cases run
        exact .inl ⟨rfl, rfl⟩
      next before c after split =>
      cases taken
      cases run
      obtain ⟨list_split, raises_c, oldest⟩ := splitLast_eq_some split
      have same : sought P s signal = raises P s signal := by
        funext d
        simp [sought, not_async]
      have taken : OldestTaken P s _ caller signal before c after := oldestTaken_of_keep
        raised (by rw [same, raises_c]) (by rwa [same]) (congrArg before.any same.symm)
      have removed := chains.removeHandle disjoint list_split
      have take := takeMove_removeHandle s caller before c signal (before.any (raises P s signal))
      have chains' : Lists (if before.any (raises P s signal) then removeHandle s caller before c
          else Spm.clearSignals (removeHandle s caller before c) caller signal)
          (Function.update lists caller (before ++ after)) := by
        split
        · exact removed
        · exact removed.clearSignals caller signal
      obtain ⟨chains'', take', taken'⟩ := stored _ chains' take taken
      refine .inr ⟨before, c, after, list_split, ?_, chains'', take', taken', fun async ↦
        absurd async not_async⟩
      obtain ⟨link, connection⟩ := take.connections c
      simp only [connection]

/-! ## Replies -/

omit [DecidableEq Pt] in
theorem spmMsgHandleToConnection_eq_some {P : Platform Pt Svc} {s : State Pt Svc} {caller : Pt}
    {handle : Word} {c : ℕ} :
    spmMsgHandleToConnection P s caller handle = some c ↔
      P.chunkOfHandle handle = some c ∧ s.Allocated c ∧
        ∃ σ, (s.connections c).service = some σ ∧ (P.service σ).partition = caller := by
  simp only [spmMsgHandleToConnection, Option.bind_eq_bind, Option.bind_eq_some_iff,
    spmValidateHandle_eq_some, State.Allocated]
  constructor
  · rintro ⟨d, ⟨chunk, allocated⟩, σ, service, rest⟩
    split at rest
    · next pid =>
        cases rest
        exact ⟨chunk, allocated, σ, service, (P.pid_injective _ _ pid).symm⟩
    · cases rest
  · rintro ⟨chunk, allocated, σ, service, rfl⟩
    exact ⟨c, ⟨chunk, allocated⟩, σ, service, by simp⟩

/-- The reply ends the connection: a refused connection request, a disconnection, or the call of a
stateless service. -/
def replyEnds (P : Platform Pt Svc) (type : ℤ) (σ : Svc) (status : ℤ) : Bool :=
  if type = psaIpcConnect then status = psaErrorConnectionRefused
  else if type = psaIpcDisconnect then true
  else (P.service σ).stateless

omit [DecidableEq Pt] in
/-- The part of a reply that depends on the type changes the status and the output counters. -/
theorem replyValueOf_spec {P : Platform Pt Svc} {s s₁ : State Pt Svc} {c : ℕ} {σ : Svc}
    {handle : Word} {status ret : ℤ} (run : replyValueOf P s c σ handle status = some (ret, s₁)) :
    (∃ written memory, s₁ = { s.setConnection c { s.connections c with
        status := if replyEnds P (s.connections c).msg.type σ status then .toFree
          else (s.connections c).status
        outvecWritten := written } with memory := memory }) ∧
      ((s.connections c).msg.type = psaIpcConnect → status = psaSuccess ∨
        status = psaErrorConnectionRefused ∨ status = psaErrorConnectionBusy) := by
  have unchanged : s = { s.setConnection c { s.connections c with
      status := (s.connections c).status
      outvecWritten := (s.connections c).outvecWritten } with memory := s.memory } := by
    simp [State.setConnection]
  dsimp only [replyValueOf] at run
  split at run
  · next connect =>
      split at run
      · next success =>
          cases run
          refine ⟨⟨(s.connections c).outvecWritten, s.memory, ?_⟩, fun _ ↦ .inl success⟩
          rw [replyEnds, if_pos connect, success]
          exact unchanged
      split at run
      · next refused =>
          cases run
          refine ⟨⟨(s.connections c).outvecWritten, s.memory, ?_⟩, fun _ ↦ .inr (.inl refused)⟩
          rw [replyEnds, if_pos connect, refused]
          rfl
      split at run
      · next busy =>
          cases run
          refine ⟨⟨(s.connections c).outvecWritten, s.memory, ?_⟩, fun _ ↦ .inr (.inr busy)⟩
          rw [replyEnds, if_pos connect, busy]
          exact unchanged
      · cases run
  next not_connect =>
  split at run
  · next disconnect =>
      cases run
      refine ⟨⟨(s.connections c).outvecWritten, s.memory, ?_⟩, fun connect ↦
        absurd connect not_connect⟩
      rw [replyEnds, if_neg not_connect, if_pos disconnect]
      rfl
  next not_disconnect =>
  split at run
  · next call =>
      cases run
      refine ⟨⟨(dropMapped (s.connections c)).outvecWritten,
        updateCallerOutvecLen s.memory (dropMapped (s.connections c)), ?_⟩, fun connect ↦
        absurd connect not_connect⟩
      rw [replyEnds, if_neg not_connect, if_neg not_disconnect]
      cases (P.service σ).stateless <;> simp [State.setConnection, dropMapped]
  · cases run

/-- The connection on a chunk is freed, or set idle. -/
structure Released (P : Platform Pt Svc) (s s' : State Pt Svc) (c : ℕ) (ends : Bool) : Prop where
  /-- The pool stays sound. -/
  pool : PoolInv P s'
  /-- The chunk is allocated just if the connection goes on. -/
  allocated : s'.Allocated c ↔ ends = false
  /-- No other chunk is allocated or freed. -/
  magic_other : ∀ d, d ≠ c → s'.magic d = s.magic d
  /-- No other connection changes. -/
  connections_other : ∀ d, d ≠ c → s'.connections d = s.connections d
  /-- A connection that goes on is idle and otherwise unchanged. -/
  connection : ends = false → s'.connections c = { s.connections c with status := .idle }
  /-- Partitions do not change. -/
  partitions : s'.partitions = s.partitions

omit [DecidableEq Pt] in
theorem released_releaseConnection {P : Platform Pt Svc} {s : State Pt Svc} {c : ℕ}
    (pool : PoolInv P s) (allocated : s.Allocated c) :
    Released P s (releaseConnection P s c) c (decide ((s.connections c).status = .toFree)) := by
  rw [releaseConnection]
  split
  · next ends =>
      refine ⟨tfmPoolFree_poolInv pool allocated, ?_, ?_, ?_, ?_, rfl⟩
      · simp only [State.Allocated, tfmPoolFree, Function.update_self, ends, decide_true,
          Bool.true_eq_false, iff_false]
        decide
      · intro d d_ne
        simp [tfmPoolFree, d_ne]
      · intro d d_ne
        simp [tfmPoolFree, d_ne]
      · intro goes_on
        simp [ends] at goes_on
  · next goes_on =>
      refine ⟨pool.congr rfl rfl rfl, ?_, fun _ _ ↦ rfl, ?_, ?_, rfl⟩
      · simp only [goes_on, decide_false, iff_true]
        exact allocated
      · intro d d_ne
        simp [d_ne]
      · intro _
        simp

/-- A reply to a client that waits for it: the client has the reply signal and the connection is
released. -/
structure ReplyMove (P : Platform Pt Svc) (s s' : State Pt Svc) (c : ℕ) (client : Pt)
    (ends : Bool) : Prop where
  /-- The pool stays sound. -/
  pool : PoolInv P s'
  /-- The chunk is allocated just if the connection goes on. -/
  allocated : s'.Allocated c ↔ ends = false
  /-- No other chunk is allocated or freed. -/
  magic_other : ∀ d, d ≠ c → s'.magic d = s.magic d
  /-- No other connection changes. -/
  connections_other : ∀ d, d ≠ c → s'.connections d = s.connections d
  /-- A connection that goes on is idle and keeps its identity. -/
  connection : ends = false → ∃ written,
    s'.connections c = { s.connections c with status := .idle, outvecWritten := written }
  /-- No list changes. -/
  heads : ∀ p, (s'.partitions p).pHandles = (s.partitions p).pHandles
  /-- The client has the reply signal. -/
  asserted : ∀ p, (s'.partitions p).signalsAsserted =
    if p = client then (s.partitions p).signalsAsserted ||| asyncMsgReply
    else (s.partitions p).signalsAsserted
  /-- Nobody waits for anything else. -/
  waiting : ∀ p, (s'.partitions p).signalsWaiting = (s.partitions p).signalsWaiting
  /-- Return values of other partitions stay. -/
  replyValue : ∀ p, p ≠ client → (s'.partitions p).replyValue = (s.partitions p).replyValue

/-- A reply to an agent: the connection is queued at the agent, pointing to itself. -/
structure RpcReplyMove (P : Platform Pt Svc) (s s' : State Pt Svc) (c : ℕ) (client : Pt)
    (ends : Bool) : Prop where
  /-- Magic words. -/
  magic : s'.magic = s.magic
  /-- Head of the free list. -/
  poolNext : s'.poolNext = s.poolNext
  /-- Links of the free list. -/
  chunkNext : s'.chunkNext = s.chunkNext
  /-- The connection keeps its identity, is marked to be freed if it ends, and points to itself. -/
  connection : ∃ written replyValue, s'.connections c = { s.connections c with
    status := if ends then .toFree else (s.connections c).status
    outvecWritten := written
    replyValue := replyValue
    msg := { (s.connections c).msg with rhandle := P.chunkAddress c }
    pHandles := (s.partitions client).pHandles }
  /-- No other connection changes. -/
  other : ∀ d, d ≠ c → s'.connections d = s.connections d
  /-- The agent's list starts with the chunk. -/
  heads : ∀ p, (s'.partitions p).pHandles =
    if p = client then some c else (s.partitions p).pHandles
  /-- The agent has the reply signal. -/
  asserted : ∀ p, (s'.partitions p).signalsAsserted =
    if p = client then (s.partitions p).signalsAsserted ||| asyncMsgReply
    else (s.partitions p).signalsAsserted
  /-- Nobody waits for anything else. -/
  waiting : ∀ p, (s'.partitions p).signalsWaiting = (s.partitions p).signalsWaiting
  /-- Return values of partitions stay. -/
  replyValue : ∀ p, (s'.partitions p).replyValue = (s.partitions p).replyValue

/-- What `psa_reply` does with the message of its handle. -/
theorem reply_cases {P : Platform Pt Svc} {s : State Pt Svc} {caller : Pt} {handle : Word}
    {status : ℤ} {outcome : Outcome Pt Svc} (pool : PoolInv P s)
    (run : tfmSpmPartitionPsaReply P s caller handle status = some outcome) :
    ∃ c σ client, spmMsgHandleToConnection P s caller handle = some c ∧
      (s.connections c).service = some σ ∧ (s.connections c).pClient = some client ∧
      outcome.effect = .replied c status ∧
      ((s.connections c).msg.type = psaIpcConnect → status = psaSuccess ∨
        status = psaErrorConnectionRefused ∨ status = psaErrorConnectionBusy) ∧
      (tfmSpmIsRpcMsg (s.connections c) = true ∧ RpcReplyMove P s outcome.state c client
          (replyEnds P (s.connections c).msg.type σ status) ∨
        tfmSpmIsRpcMsg (s.connections c) = false ∧
          ((s.connections c).status ≠ .toFree → ReplyMove P s outcome.state c client
            (replyEnds P (s.connections c).msg.type σ status))) := by
  simp only [tfmSpmPartitionPsaReply, Option.bind_eq_bind, Option.bind_eq_some_iff,
    Prod.exists] at run
  obtain ⟨c, connection, σ, service, ret, s₁, value, run⟩ := run
  obtain ⟨-, allocated, -⟩ := spmMsgHandleToConnection_eq_some.1 connection
  obtain ⟨⟨written, memory, rfl⟩, statuses⟩ := replyValueOf_spec value
  generalize ends_eq : replyEnds P (s.connections c).msg.type σ status = ends at run
  split at run
  · cases run
  simp only [Option.bind_eq_some_iff, Prod.exists, backendReplying, Option.bind_eq_bind] at run
  obtain ⟨ret', s₂, ⟨client, client_eq, replying⟩, run⟩ := run
  have client_eq' : (s.connections c).pClient = some client := by simpa using client_eq
  refine ⟨c, σ, client, connection, service, client_eq', ?_⟩
  rw [ends_eq]
  have rpc_eq : tfmSpmIsRpcMsg (({ s.setConnection c { s.connections c with
      status := if ends = true then .toFree else (s.connections c).status
      outvecWritten := written } with memory := memory } : State Pt Svc).connections c) =
      tfmSpmIsRpcMsg (s.connections c) := by
    simp [tfmSpmIsRpcMsg]
  rw [rpc_eq] at replying
  cases rpc : tfmSpmIsRpcMsg (s.connections c) with
  | true =>
      simp only [rpc, if_true, Option.some.injEq] at replying
      generalize marked_eq : (State.setConnection _ c _ : State Pt Svc) = marked at replying
      have posted := posted_insertHandle marked client c asyncMsgReply
      rw [replying] at posted
      dsimp only at posted
      have marked_connection : marked.connections c = { s.connections c with
          status := if ends = true then .toFree else (s.connections c).status
          outvecWritten := written
          replyValue := ret
          msg := { (s.connections c).msg with rhandle := P.chunkAddress c } } := by
        rw [← marked_eq]
        simp
      have marked_other : ∀ d, d ≠ c → marked.connections d = s.connections d := by
        intro d d_ne
        rw [← marked_eq]
        simp [d_ne]
      have marked_partitions : marked.partitions = s.partitions := by
        rw [← marked_eq]
        rfl
      have frame : marked.magic = s.magic ∧ marked.poolNext = s.poolNext ∧
          marked.chunkNext = s.chunkNext := by
        rw [← marked_eq]
        exact ⟨rfl, rfl, rfl⟩
      have still_rpc : tfmSpmIsRpcMsg (s₂.connections c) = true := by
        rw [posted.connection, marked_connection, ← rpc]
        rfl
      rw [if_pos still_rpc] at run
      cases run
      refine ⟨rfl, statuses, .inl ⟨rfl, posted.magic.trans frame.1,
        posted.poolNext.trans frame.2.1, posted.chunkNext.trans frame.2.2,
        ⟨written, ret, ?_⟩, ?_, ?_, ?_, ?_, ?_⟩⟩
      · dsimp only
        rw [posted.connection, marked_connection, marked_partitions]
      · intro d d_ne
        exact (posted.other d d_ne).trans (marked_other d d_ne)
      · intro p
        rw [← marked_partitions]
        exact posted.heads p
      · intro p
        rw [← marked_partitions]
        exact posted.asserted p
      · intro p
        rw [← marked_partitions]
        exact posted.waiting p
      · intro p
        rw [← marked_partitions]
        exact posted.replyValue p
  | false =>
      simp only [rpc, Bool.false_eq_true, if_false, Option.some.injEq] at replying
      have s₂_eq : s₂ = (backendAssertSignal _ client asyncMsgReply).2 :=
        (congrArg Prod.snd replying).symm
      have not_rpc : tfmSpmIsRpcMsg (s₂.connections c) = false := by
        rw [s₂_eq, ← rpc]
        simp [backendAssertSignal, tfmSpmIsRpcMsg]
      rw [not_rpc] at run
      simp only [Bool.false_eq_true, if_false, Option.some.injEq] at run
      cases run
      refine ⟨rfl, statuses, .inr ⟨rfl, fun not_toFree ↦ ?_⟩⟩
      have s₂_connection : s₂.connections c = { s.connections c with
          status := if ends = true then .toFree else (s.connections c).status
          outvecWritten := written } := by
        rw [s₂_eq]
        simp [backendAssertSignal]
      have s₂_allocated : s₂.Allocated c := by
        rw [s₂_eq]
        exact allocated
      have s₂_pool : PoolInv P s₂ := by
        rw [s₂_eq]
        exact pool.congr rfl rfl rfl
      have released := released_releaseConnection s₂_pool s₂_allocated
      have ends_iff : decide ((s₂.connections c).status = .toFree) = ends := by
        rw [s₂_connection]
        cases ends <;> simp [not_toFree]
      rw [ends_iff] at released
      refine ⟨released.pool, released.allocated, ?_, ?_, ?_, ?_, ?_, ?_, ?_⟩
      · intro d d_ne
        rw [released.magic_other d d_ne, s₂_eq]
        rfl
      · intro d d_ne
        rw [released.connections_other d d_ne, s₂_eq]
        simp [backendAssertSignal, d_ne]
      · intro goes_on
        refine ⟨written, ?_⟩
        rw [released.connection goes_on, s₂_connection]
      all_goals
        intro p
        rw [released.partitions, s₂_eq]
      · by_cases p_eq : p = client
        · subst p_eq
          simp [backendAssertSignal]
        · simp [backendAssertSignal, p_eq]
      · by_cases p_eq : p = client
        · subst p_eq
          simp [backendAssertSignal]
        · simp [backendAssertSignal, p_eq]
      · by_cases p_eq : p = client
        · subst p_eq
          simp [backendAssertSignal]
        · simp [backendAssertSignal, p_eq]
      · intro p_ne
        simp [backendAssertSignal, p_ne]

/-- `tfm_rpc_client_call_reply` takes the oldest reply out of the agent's list and releases the
connection that it points to. -/
theorem rpcClientCallReply_cases {P : Platform Pt Svc} {s : State Pt Svc} {lists : Pt → List ℕ}
    {caller : Pt} {msg : Word} {outcome : Outcome Pt Svc} (chains : Lists s lists)
    (disjoint : ∀ p q c, c ∈ lists p → c ∈ lists q → p = q)
    (bounded : ∀ p, ∀ c ∈ lists p, c < P.connHandleMaxNum)
    (run : tfmRpcClientCallReply P s caller msg = some outcome) :
    ∃ before c after d s₁, lists caller = before ++ c :: after ∧
      P.chunkAt (s.connections c).msg.rhandle = some d ∧
      Lists s₁ (Function.update lists caller (before ++ after)) ∧
      TakeMove s s₁ caller asyncMsgReply ∧
      OldestTaken P s s₁ caller asyncMsgReply before c after ∧
      outcome.effect = .collected d ∧ outcome.state = releaseConnection P s₁ d ∧
      outcome.result = (s.connections c).replyValue := by
  simp only [tfmRpcClientCallReply, Option.bind_eq_bind, Option.bind_eq_some_iff] at run
  obtain ⟨taken, get, run⟩ := run
  rcases get_cases chains disjoint bounded get with
    ⟨quiet, -⟩ | ⟨before, c, after, list_eq, delivered, chains', take, oldest, result⟩
  · rw [quiet] at run
    cases run
  · rw [delivered] at run
    simp only [Option.bind_eq_some_iff] at run
    obtain ⟨d, pointer, run⟩ := run
    cases run
    exact ⟨before, c, after, d, taken.state, list_eq, pointer, chains', take, oldest, rfl, rfl,
      result rfl⟩

end TrustedFirmwareM.Spm
