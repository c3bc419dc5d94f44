import TrustedFirmwareM.Spm.Moves

/-!
# Requests

The message lists of the partitions and the functions that queue a request at its service, described
by their effect on the pool, on the lists and on the signals of the partitions.
-/

namespace TrustedFirmwareM.Spm

open LinkedList

variable {Pt Svc : Type}

/-! ## Message lists -/

/-- The message list of every partition. -/
def Lists (s : State Pt Svc) (lists : Pt → List ℕ) : Prop :=
  ∀ p, Chain s.link (s.partitions p).pHandles (lists p)

theorem Lists.congr {s s' : State Pt Svc} {lists : Pt → List ℕ} (chains : Lists s lists)
    (heads : ∀ p, (s'.partitions p).pHandles = (s.partitions p).pHandles)
    (links : ∀ p, ∀ c ∈ lists p, s'.link c = s.link c) : Lists s' lists := by
  intro p
  rw [heads]
  exact (chains p).congr (links p)

/-- A handle in no list may be put at the front of one. -/
theorem Lists.insertHandle [DecidableEq Pt] {s : State Pt Svc} {lists : Pt → List ℕ}
    (chains : Lists s lists) (p : Pt) {c : ℕ} (fresh : ∀ q, c ∉ lists q) :
    Lists (insertHandle s p c) (Function.update lists p (c :: lists p)) := by
  have link : (Spm.insertHandle s p c).link =
      Function.update s.link c (s.partitions p).pHandles := by
    funext d
    by_cases d_eq : d = c
    · subst d_eq
      simp [Spm.insertHandle, State.link]
    · simp [Spm.insertHandle, State.link, d_eq]
  intro q
  rw [link]
  by_cases q_eq : q = p
  · subst q_eq
    simp only [Spm.insertHandle, setPartition_partitions, Function.update_self]
    exact (chains q).push (fresh q)
  · simp only [Spm.insertHandle, setPartition_partitions, setConnection_partitions,
      Function.update_of_ne q_eq]
    refine (chains q).congr fun d member ↦ Function.update_of_ne ?_ _ _
    rintro rfl
    exact fresh q member

/-- A handle may be taken out of the list it is in. -/
theorem Lists.removeHandle [DecidableEq Pt] {s : State Pt Svc} {lists : Pt → List ℕ}
    (chains : Lists s lists) (disjoint : ∀ p q c, c ∈ lists p → c ∈ lists q → p = q) {p : Pt}
    {before after : List ℕ} {c : ℕ} (list_eq : lists p = before ++ c :: after) :
    Lists (removeHandle s p before c) (Function.update lists p (before ++ after)) := by
  have chain := chains p
  rw [list_eq] at chain
  have removed := chain.unlink
  rw [unlink] at removed
  rw [Spm.removeHandle]
  cases last : before.getLast? with
  | none =>
      rw [last] at removed
      intro q
      by_cases q_eq : q = p
      · subst q_eq
        simpa using removed
      · simp only [setPartition_partitions, Function.update_of_ne q_eq]
        exact chains q
  | some holder =>
      rw [last] at removed
      have holder_mem : holder ∈ lists p := by
        rw [list_eq]
        exact List.mem_append_left _ (List.mem_of_getLast? last)
      have link : (s.setConnection holder { s.connections holder with
          pHandles := s.link c }).link = Function.update s.link holder (s.link c) := by
        funext d
        by_cases d_eq : d = holder
        · subst d_eq
          simp [State.link]
        · simp [State.link, d_eq]
      intro q
      simp only [link, setConnection_partitions]
      by_cases q_eq : q = p
      · subst q_eq
        simpa using removed
      · simp only [Function.update_of_ne q_eq]
        refine (chains q).congr fun d member ↦ Function.update_of_ne ?_ _ _
        rintro rfl
        exact q_eq (disjoint q p d member holder_mem)

/-- Removal changes links only. -/
theorem removeHandle_connections [DecidableEq Pt] (s : State Pt Svc) (p : Pt) (before : List ℕ)
    (c d : ℕ) : ∃ link, (removeHandle s p before c).connections d =
      { s.connections d with pHandles := link } := by
  rw [removeHandle]
  split
  · exact ⟨_, rfl⟩
  · next holder _ =>
      by_cases d_eq : d = holder
      · subst d_eq
        exact ⟨s.link c, by simp⟩
      · exact ⟨_, by simp [d_eq]; rfl⟩

theorem removeHandle_frame [DecidableEq Pt] (s : State Pt Svc) (p : Pt) (before : List ℕ) (c : ℕ) :
    (removeHandle s p before c).magic = s.magic ∧
      (removeHandle s p before c).poolNext = s.poolNext ∧
      (removeHandle s p before c).chunkNext = s.chunkNext ∧
      ∀ q, ((removeHandle s p before c).partitions q).signalsWaiting =
          (s.partitions q).signalsWaiting ∧
        ((removeHandle s p before c).partitions q).signalsAsserted =
          (s.partitions q).signalsAsserted := by
  rw [removeHandle]
  split
  · refine ⟨rfl, rfl, rfl, fun q ↦ ?_⟩
    by_cases q_eq : q = p
    · subst q_eq
      simp
    · simp [q_eq]
  · exact ⟨rfl, rfl, rfl, fun q ↦ ⟨rfl, rfl⟩⟩

/-- The traversal of a list of allocated chunks ends. -/
theorem Lists.messageList_eq {P : Platform Pt Svc} {s : State Pt Svc} {lists : Pt → List ℕ}
    (chains : Lists s lists) {p : Pt} (bounded : ∀ c ∈ lists p, c < P.connHandleMaxNum) :
    messageList P s p = some (lists p) := by
  refine (chains p).walk_eq ?_
  have subset : lists p ⊆ List.range P.connHandleMaxNum :=
    fun c member ↦ List.mem_range.2 (bounded c member)
  have length_le := ((chains p).nodup.subperm subset).length_le
  rw [List.length_range] at length_le
  omega

/-! ## Connections for a request -/

/-- A step that moves no request: it may change idle connections and chunks that are not
allocated. -/
structure Quiet (P : Platform Pt Svc) (s s' : State Pt Svc) : Prop where
  /-- The pool stays sound. -/
  pool : PoolInv P s'
  /-- The same chunks are allocated. -/
  allocated : ∀ c, s'.Allocated c ↔ s.Allocated c
  /-- No partition changes. -/
  partitions : s'.partitions = s.partitions
  /-- Connections keep their identity. -/
  identity : ∀ c, s.Allocated c → SameIdentity (s.connections c) (s'.connections c)
  /-- Connections in use do not change. -/
  busy : ∀ c, s.Allocated c → (s.connections c).status ≠ .idle →
    s'.connections c = s.connections c
  /-- Connections keep their reverse handles. -/
  rhandle : ∀ c, s.Allocated c → (s'.connections c).msg.rhandle = (s.connections c).msg.rhandle

theorem Quiet.refl {P : Platform Pt Svc} {s : State Pt Svc} (pool : PoolInv P s) : Quiet P s s :=
  ⟨pool, fun _ ↦ .rfl, rfl, fun c _ ↦ .refl (s.connections c), fun _ _ _ ↦ rfl, fun _ _ ↦ rfl⟩

/-- Reordering the service list moves no request. -/
theorem Quiet.of_services {P : Platform Pt Svc} {s : State Pt Svc} (pool : PoolInv P s)
    (services : List Svc) : Quiet P s { s with services := services } :=
  ⟨pool.congr rfl rfl rfl, fun _ ↦ .rfl, rfl, fun c _ ↦ .refl (s.connections c), fun _ _ _ ↦ rfl,
    fun _ _ ↦ rfl⟩

/-- The contents of a chunk that has just been allocated for a client. -/
structure FreshConnection (P : Platform Pt Svc) (caller : Pt) (s s₀ : State Pt Svc) (c : ℕ) :
    Prop where
  /-- The chunk was the first free one. -/
  first_free : s.poolNext = some c
  /-- The chunk was not allocated. -/
  not_allocated : ¬s.Allocated c
  /-- Client of the connection. -/
  pClient : (s₀.connections c).pClient = some caller
  /-- No private data yet. -/
  clientData : (s₀.connections c).clientData = 0
  /-- The handle stands for the chunk. -/
  handle : P.chunkOfHandle (s₀.connections c).msg.handle = some c
  /-- No reverse handle yet. -/
  rhandle : (s₀.connections c).msg.rhandle = 0
  /-- Input vector lengths are cleared. -/
  inSize : (s₀.connections c).msg.inSize = fun _ ↦ 0
  /-- Output vector lengths are cleared. -/
  outSize : (s₀.connections c).msg.outSize = fun _ ↦ 0
  /-- The mapping status is cleared. -/
  iovecStatus : (s₀.connections c).iovecStatus = 0
  /-- The input counters are those of the previous use of the chunk. -/
  accessed : (s₀.connections c).invecAccessed = (s.connections c).invecAccessed
  /-- The output counters are those of the previous use of the chunk. -/
  written : (s₀.connections c).outvecWritten = (s.connections c).outvecWritten

/-- An idle connection of a client on a chunk, newly allocated or made earlier. -/
structure Acquired (P : Platform Pt Svc) (caller : Pt) (clientId : ℤ) (s s₀ : State Pt Svc)
    (c : ℕ) : Prop where
  /-- The pool stays sound. -/
  pool : PoolInv P s₀
  /-- No partition changes. -/
  partitions : s₀.partitions = s.partitions
  /-- Memory does not change. -/
  memory : s₀.memory = s.memory
  /-- The chunk is allocated. -/
  allocated : s₀.Allocated c
  /-- No other chunk is allocated or freed. -/
  magic_other : ∀ d, d ≠ c → s₀.magic d = s.magic d
  /-- No other connection changes. -/
  connections_other : ∀ d, d ≠ c → s₀.connections d = s.connections d
  /-- The connection is idle. -/
  status : (s₀.connections c).status = .idle
  /-- The connection belongs to the client. -/
  client_id : (s₀.connections c).msg.clientId = clientId
  /-- The connection is new, or it is one that existed. -/
  origin : FreshConnection P caller s s₀ c ∨ s.Allocated c ∧ s₀.connections c = s.connections c

/-- Allocation and initialisation give an idle connection of the caller. -/
theorem acquired_of_alloc {P : Platform Pt Svc} {s s₁ : State Pt Svc} {c : ℕ} (pool : PoolInv P s)
    (alloc : tfmPoolAlloc s = some (c, s₁)) (caller : Pt) (σ : Svc) (clientId : ℤ) :
    Acquired P caller clientId s (spmInitIdleConnection P s₁ caller c σ clientId) c ∧
      ((spmInitIdleConnection P s₁ caller c σ clientId).connections c).service = some σ ∧
      FreshConnection P caller s (spmInitIdleConnection P s₁ caller c σ clientId) c := by
  have first : s.poolNext = some c := by
    rw [tfmPoolAlloc] at alloc
    split at alloc
    · cases alloc
    · next head =>
        cases alloc
        exact head
  obtain ⟨c_lt, c_free, pool₁, magic, connections, partitions, memory, -, -⟩ :=
    tfmPoolAlloc_spec pool alloc
  have handle := chunkOfHandle_connectionToHandle P s₁ c_lt.le
  have fresh : FreshConnection P caller s (spmInitIdleConnection P s₁ caller c σ clientId) c := by
    refine ⟨first, c_free, ?_, ?_, ?_, ?_, ?_, ?_, ?_, ?_, ?_⟩ <;>
      simp only [spmInitIdleConnection, setConnection_connections, Function.update_self]
    · exact handle
    · rfl
    · rfl
    · rfl
    · simp only [connectionToHandle, connections]
    · simp only [connectionToHandle, connections]
  refine ⟨⟨?_, partitions, memory, ?_, ?_, ?_, ?_, ?_, .inl fresh⟩, ?_, fresh⟩
  · exact pool₁.congr rfl rfl rfl
  · show s₁.magic c = poolMagicAllocated
    rw [magic, Function.update_self]
  · intro d d_ne
    show s₁.magic d = s.magic d
    rw [magic, Function.update_of_ne d_ne]
  · intro d d_ne
    simp only [spmInitIdleConnection, setConnection_connections, Function.update_of_ne d_ne]
    exact congrFun connections d
  · simp [spmInitIdleConnection]
  · simp [spmInitIdleConnection]
  · simp [spmInitIdleConnection]

/-- What `spm_get_idle_connection` hands out. -/
theorem spmGetIdleConnection_ok {P : Platform Pt Svc} {s s₀ : State Pt Svc} {caller : Pt}
    {handle : Word} {clientId : ℤ} {c : ℕ} (pool : PoolInv P s)
    (ok : spmGetIdleConnection P s caller handle clientId = .ok (c, s₀)) :
    Acquired P caller clientId s s₀ c ∧
      ∃ σ, (s₀.connections c).service = some σ ∧
        (isStaticHandle handle = true ∧ (P.service σ).stateless = true ∧
            FreshConnection P caller s s₀ c ∨
          isStaticHandle handle = false ∧ P.chunkOfHandle handle = some c ∧ s.Allocated c ∧
            s₀ = s) := by
  simp only [spmGetIdleConnection] at ok
  split at ok
  · cases ok
  split at ok
  · next static =>
      split at ok
      · cases ok
      · next σ table =>
          split at ok
          · cases ok
          split at ok
          · cases ok
          split at ok
          · cases ok
          · next alloc =>
              cases ok
              obtain ⟨acquired, service, fresh⟩ := acquired_of_alloc pool alloc caller σ clientId
              exact ⟨acquired, σ, service, .inl ⟨static, P.table_stateless _ _ table, fresh⟩⟩
  · next dynamic =>
      rw [Bool.not_eq_true] at dynamic
      split at ok
      · cases ok
      · next d valid =>
          obtain ⟨chunk, allocated⟩ := (spmValidateHandle_eq_some P).1 valid
          split at ok
          · cases ok
          next same_client =>
          split at ok
          · cases ok
          next is_idle =>
          split at ok
          · cases ok
          next has_service =>
          rw [not_not] at same_client is_idle
          obtain ⟨σ, service⟩ := Option.ne_none_iff_exists'.1 has_service
          cases ok
          exact ⟨⟨pool, rfl, rfl, allocated, fun _ _ ↦ rfl, fun _ _ ↦ rfl, is_idle, same_client,
            .inr ⟨allocated, rfl⟩⟩, σ, service, .inr ⟨dynamic, chunk, allocated, rfl⟩⟩

/-! ## Sending -/

variable [DecidableEq Pt]

/-- A handle was put in front of the list of a partition and a signal asserted there. -/
structure Posted (s s' : State Pt Svc) (p : Pt) (c : ℕ) (signal : Word) : Prop where
  /-- Magic words. -/
  magic : s'.magic = s.magic
  /-- Head of the free list. -/
  poolNext : s'.poolNext = s.poolNext
  /-- Links of the free list. -/
  chunkNext : s'.chunkNext = s.chunkNext
  /-- The connection is linked in front. -/
  connection : s'.connections c =
    { s.connections c with pHandles := (s.partitions p).pHandles }
  /-- No other connection changes. -/
  other : ∀ d, d ≠ c → s'.connections d = s.connections d
  /-- The list starts with the chunk. -/
  heads : ∀ q, (s'.partitions q).pHandles = if q = p then some c else (s.partitions q).pHandles
  /-- The signal is asserted. -/
  asserted : ∀ q, (s'.partitions q).signalsAsserted =
    if q = p then (s.partitions q).signalsAsserted ||| signal else (s.partitions q).signalsAsserted
  /-- Nobody waits for anything else. -/
  waiting : ∀ q, (s'.partitions q).signalsWaiting = (s.partitions q).signalsWaiting
  /-- Return values stay. -/
  replyValue : ∀ q, (s'.partitions q).replyValue = (s.partitions q).replyValue

theorem posted_insertHandle (s : State Pt Svc) (p : Pt) (c : ℕ) (signal : Word) :
    Posted s (backendAssertSignal (insertHandle s p c) p signal).2 p c signal := by
  refine ⟨rfl, rfl, rfl, ?_, ?_, ?_, ?_, ?_, ?_⟩
  · simp [backendAssertSignal, insertHandle]
  · intro d d_ne
    simp [backendAssertSignal, insertHandle, d_ne]
  all_goals
    intro q
    by_cases q_eq : q = p
    · subst q_eq
      simp [backendAssertSignal, insertHandle]
    · simp [backendAssertSignal, insertHandle, q_eq]

/-- Posting a handle that is in no list puts it in front of the list it is posted to. -/
theorem Lists.posted {s s' : State Pt Svc} {lists : Pt → List ℕ} {p : Pt} {c : ℕ} {signal : Word}
    (chains : Lists s lists) (posted : Posted s s' p c signal) (fresh : ∀ q, c ∉ lists q) :
    Lists s' (Function.update lists p (c :: lists p)) := by
  refine (chains.insertHandle p fresh).congr ?_ ?_
  · intro q
    rw [posted.heads]
    by_cases q_eq : q = p
    · subst q_eq
      simp [Spm.insertHandle]
    · simp [Spm.insertHandle, q_eq]
  · intro q d _
    by_cases d_eq : d = c
    · subst d_eq
      simp [State.link, posted.connection, Spm.insertHandle]
    · simp [State.link, posted.other d d_eq, Spm.insertHandle, d_eq]

/-- What `backend_messaging` does with the connection on a chunk to a service: it is posted to the
owner of the service and activated, and a client that is no agent waits for the reply unless one is
there already. -/
structure Messaged (P : Platform Pt Svc) (s s' : State Pt Svc) (c : ℕ) (σ : Svc) : Prop where
  /-- Magic words. -/
  magic : s'.magic = s.magic
  /-- Head of the free list. -/
  poolNext : s'.poolNext = s.poolNext
  /-- Links of the free list. -/
  chunkNext : s'.chunkNext = s.chunkNext
  /-- The connection is linked and active. -/
  connection : s'.connections c = { s.connections c with
    pHandles := (s.partitions (P.service σ).partition).pHandles, status := .active }
  /-- No other connection changes. -/
  other : ∀ d, d ≠ c → s'.connections d = s.connections d
  /-- The owner's list starts with the chunk. -/
  heads : ∀ p, (s'.partitions p).pHandles =
    if p = (P.service σ).partition then some c else (s.partitions p).pHandles
  /-- The owner has the signal of the service. -/
  asserted : ∀ p, (s'.partitions p).signalsAsserted =
    if p = (P.service σ).partition then (s.partitions p).signalsAsserted ||| (P.service σ).signal
    else (s.partitions p).signalsAsserted
  /-- The client waits. -/
  waiting : ∀ p, (s'.partitions p).signalsWaiting =
    if tfmSpmIsRpcMsg (s.connections c) = false ∧ (s.connections c).pClient = some p ∧
        (s'.partitions p).signalsAsserted &&& asyncMsgReply = 0 then asyncMsgReply
    else (s.partitions p).signalsWaiting

theorem backendMessaging_spec {P : Platform Pt Svc} {s s' : State Pt Svc} {c : ℕ} {σ : Svc}
    {ret : ℤ} (service : (s.connections c).service = some σ)
    (run : backendMessaging P s c = some (ret, s')) : Messaged P s s' c σ := by
  simp only [backendMessaging, service] at run
  have posted := posted_insertHandle s (P.service σ).partition c (P.service σ).signal
  generalize (backendAssertSignal (insertHandle s (P.service σ).partition c)
    (P.service σ).partition (P.service σ).signal) = result at run posted
  obtain ⟨ret₁, s₁⟩ := result
  dsimp only at run posted
  have rpc_eq : tfmSpmIsRpcMsg (s₁.connections c) = tfmSpmIsRpcMsg (s.connections c) := by
    rw [posted.connection]
    rfl
  rw [rpc_eq] at run
  cases rpc : tfmSpmIsRpcMsg (s.connections c) with
  | true =>
      simp only [rpc, if_true, Option.bind_eq_bind, Option.bind_some, Option.some.injEq,
        Prod.mk.injEq] at run
      obtain ⟨-, rfl⟩ := run
      refine ⟨posted.magic, posted.poolNext, posted.chunkNext, ?_, ?_, posted.heads,
        posted.asserted, ?_⟩
      · simp [posted.connection]
      · intro d d_ne
        simp [d_ne, posted.other d d_ne]
      · intro p
        simp [rpc, posted.waiting]
  | false =>
      simp only [rpc, Bool.false_eq_true, if_false, Option.bind_eq_bind, Option.bind_eq_some_iff,
        Option.some.injEq, Prod.exists, Prod.mk.injEq] at run
      obtain ⟨client, client_eq, ret₂, s₂, ⟨-, rfl⟩, -, rfl⟩ := run
      rw [posted.connection] at client_eq
      change (s.connections c).pClient = some client at client_eq
      -- blocking the client touches nothing but what it waits for
      dsimp only [backendWaitSignals]
      split
      · next clear =>
          refine ⟨posted.magic, posted.poolNext, posted.chunkNext, by simp [posted.connection], ?_,
            ?_, ?_, ?_⟩
          · intro d d_ne
            simp [d_ne, posted.other d d_ne]
          · intro p
            rw [← posted.heads]
            by_cases p_eq : p = client
            · subst p_eq
              simp
            · simp [p_eq]
          · intro p
            rw [← posted.asserted]
            by_cases p_eq : p = client
            · subst p_eq
              simp
            · simp [p_eq]
          · intro p
            by_cases p_eq : p = client
            · subst p_eq
              simp [rpc, client_eq, clear]
            · simp [client_eq, p_eq, Ne.symm p_eq, posted.waiting]
      · next raised =>
          refine ⟨posted.magic, posted.poolNext, posted.chunkNext, by simp [posted.connection], ?_,
            posted.heads, posted.asserted, ?_⟩
          · intro d d_ne
            simp [d_ne, posted.other d d_ne]
          · intro p
            by_cases p_eq : p = client
            · subst p_eq
              exact (posted.waiting p).trans (if_neg fun condition ↦ raised condition.2.2).symm
            · simp [client_eq, Ne.symm p_eq, posted.waiting]

/-- A request of a client was queued on a chunk for a service.  `data` is the private data entered
with the request. -/
structure SendMove (P : Platform Pt Svc) (caller : Pt) (clientId : ℤ) (data : Option Word)
    (s s' : State Pt Svc) (c : ℕ) (σ : Svc) : Prop where
  /-- The pool stays sound. -/
  pool : PoolInv P s'
  /-- The chunk is allocated. -/
  allocated : s'.Allocated c
  /-- No other chunk is allocated or freed. -/
  magic_other : ∀ d, d ≠ c → s'.magic d = s.magic d
  /-- No other connection changes. -/
  connections_other : ∀ d, d ≠ c → s'.connections d = s.connections d
  /-- The connection is active. -/
  status : (s'.connections c).status = .active
  /-- The connection is to the service. -/
  service : (s'.connections c).service = some σ
  /-- The connection carries the client identifier. -/
  client_id : (s'.connections c).msg.clientId = clientId
  /-- A chunk that was free is the client's. -/
  fresh : ¬s.Allocated c → (s'.connections c).pClient = some caller ∧
    P.chunkOfHandle (s'.connections c).msg.handle = some c ∧
    (s'.connections c).clientData = data.getD 0
  /-- A chunk that was allocated held an idle connection of the client. -/
  reused : s.Allocated c → (s.connections c).status = .idle ∧
    (s.connections c).msg.clientId = clientId ∧ (s.connections c).service = some σ ∧
    (s'.connections c).pClient = (s.connections c).pClient ∧
    (s'.connections c).msg.handle = (s.connections c).msg.handle ∧
    (s'.connections c).clientData = data.getD (s.connections c).clientData
  /-- A new connection has no reverse handle. -/
  fresh_rhandle : ¬s.Allocated c → (s'.connections c).msg.rhandle = 0
  /-- An existing connection keeps its reverse handle. -/
  reused_rhandle : s.Allocated c →
    (s'.connections c).msg.rhandle = (s.connections c).msg.rhandle
  /-- The connection is linked in front of the owner's list. -/
  link : (s'.connections c).pHandles = (s.partitions (P.service σ).partition).pHandles
  /-- The owner's list starts with the chunk. -/
  heads : ∀ p, (s'.partitions p).pHandles =
    if p = (P.service σ).partition then some c else (s.partitions p).pHandles
  /-- The owner has the signal of the service. -/
  asserted : ∀ p, (s'.partitions p).signalsAsserted =
    if p = (P.service σ).partition then (s.partitions p).signalsAsserted ||| (P.service σ).signal
    else (s.partitions p).signalsAsserted
  /-- A client that is no agent waits for the reply, unless one is there already. -/
  waiting : ∀ p, (s'.partitions p).signalsWaiting =
    if tfmSpmIsRpcMsg (s'.connections c) = false ∧ (s'.connections c).pClient = some p ∧
        (s'.partitions p).signalsAsserted &&& asyncMsgReply = 0 then asyncMsgReply
    else (s.partitions p).signalsWaiting

/-- Sending on an acquired connection whose message has been filled in. -/
theorem Acquired.send {P : Platform Pt Svc} {caller : Pt} {clientId : ℤ} {s s₀ s' : State Pt Svc}
    {c : ℕ} {σ : Svc} {k : Connection Pt Svc} {data : Option Word}
    (acquired : Acquired P caller clientId s s₀ c)
    (service : (s₀.connections c).service = some σ) (same : SameIdentity (s₀.connections c) k)
    (rhandle : k.msg.rhandle = (s₀.connections c).msg.rhandle)
    (messaged : Messaged P
      (s₀.setConnection c { k with clientData := data.getD k.clientData }) s' c σ) :
    SendMove P caller clientId data s s' c σ := by
  have connection := messaged.connection
  simp only [setConnection_connections, Function.update_self, setConnection_partitions,
    acquired.partitions] at connection
  have rpc : tfmSpmIsRpcMsg ((s₀.setConnection c
      { k with clientData := data.getD k.clientData }).connections c) =
      tfmSpmIsRpcMsg (s'.connections c) := by
    rw [connection]
    simp [tfmSpmIsRpcMsg]
  have client : ((s₀.setConnection c
      { k with clientData := data.getD k.clientData }).connections c).pClient =
      (s'.connections c).pClient := by
    rw [connection]
    simp
  have waiting := messaged.waiting
  simp only [rpc, client, setConnection_partitions, acquired.partitions] at waiting
  refine ⟨?_, ?_, ?_, ?_, ?_, ?_, ?_, ?_, ?_, ?_, ?_, ?_, ?_, ?_, waiting⟩
  · exact acquired.pool.congr messaged.poolNext messaged.chunkNext messaged.magic
  · rw [State.Allocated, messaged.magic]
    exact acquired.allocated
  · intro d d_ne
    rw [messaged.magic]
    exact acquired.magic_other d d_ne
  · intro d d_ne
    rw [messaged.other d d_ne, setConnection_connections, Function.update_of_ne d_ne]
    exact acquired.connections_other d d_ne
  · rw [connection]
  · rw [connection]
    exact same.service.trans service
  · rw [connection]
    exact same.clientId.trans acquired.client_id
  · intro not_allocated
    rw [connection]
    rcases acquired.origin with fresh | ⟨allocated, -⟩
    · refine ⟨same.pClient.trans fresh.pClient, ?_, ?_⟩
      · rw [← fresh.handle, ← same.handle]
      · rw [← fresh.clientData, ← same.clientData]
    · exact absurd allocated not_allocated
  · intro allocated
    rcases acquired.origin with fresh | ⟨-, unchanged⟩
    · exact absurd allocated fresh.not_allocated
    · rw [connection, ← unchanged]
      exact ⟨acquired.status, acquired.client_id, service, same.pClient, same.handle, by
        rw [← same.clientData]⟩
  · intro not_allocated
    rw [connection]
    rcases acquired.origin with fresh | ⟨allocated, -⟩
    · exact rhandle.trans fresh.rhandle
    · exact absurd allocated not_allocated
  · intro allocated
    rcases acquired.origin with fresh | ⟨-, unchanged⟩
    · exact absurd allocated fresh.not_allocated
    · rw [connection, ← unchanged]
      exact rhandle
  · rw [connection]
  · intro p
    rw [messaged.heads]
    simp [acquired.partitions]
  · intro p
    rw [messaged.asserted]
    simp [acquired.partitions]

/-- What a request sent by `psa_call` or `agent_psa_call` looks like. -/
structure CallMove (P : Platform Pt Svc) (caller : Pt) (clientId : ℤ) (data : Option Word)
    (handle ctrl inptr outptr : Word) (s s' : State Pt Svc) (c : ℕ) (σ : Svc) : Prop where
  /-- The request is queued. -/
  send : SendMove P caller clientId data s s' c σ
  /-- The chunk is a new one for a static handle, and the one of the handle otherwise. -/
  origin : isStaticHandle handle = true ∧ (P.service σ).stateless = true ∧
      s.poolNext = some c ∧ ¬s.Allocated c ∨
    isStaticHandle handle = false ∧ P.chunkOfHandle handle = some c ∧ s.Allocated c
  /-- The vectors are entered into the cleared message of a new connection, or over what an existing
  connection holds. -/
  associated : ∃ k, Associated s.memory ctrl inptr outptr k (s'.connections c) ∧
    k.invecAccessed = (s.connections c).invecAccessed ∧
    k.outvecWritten = (s.connections c).outvecWritten ∧
    (¬s.Allocated c → k.iovecStatus = 0 ∧ k.msg.inSize = (fun _ ↦ 0) ∧
      k.msg.outSize = fun _ ↦ 0) ∧
    (s.Allocated c → k = s.connections c)

/-- A call moves no request, or queues one. -/
theorem call_cases {P : Platform Pt Svc} {s : State Pt Svc} {caller : Pt} {clientId : ℤ}
    {handle ctrl inptr outptr : Word} {data : Option Word} {outcome : Outcome Pt Svc}
    (pool : PoolInv P s)
    (run : callClientIdAssociated P s caller clientId handle ctrl inptr outptr data =
      some outcome) :
    outcome.effect = .quiet ∧ Quiet P s outcome.state ∨
      ∃ c σ, outcome.effect = .sent c ∧
        CallMove P caller clientId data handle ctrl inptr outptr s outcome.state c σ := by
  rw [callClientIdAssociated] at run
  split at run
  · cases run
    exact .inl ⟨rfl, .refl pool⟩
  next c s₀ ok =>
  obtain ⟨acquired, σ, service, origin⟩ := spmGetIdleConnection_ok pool ok
  dsimp only at run
  generalize params : spmAssociateCallParams P s₀.memory caller (s₀.connections c) ctrl inptr
    outptr = result at run
  obtain ⟨status, k⟩ := result
  obtain ⟨same, rhandle, entered⟩ := spmAssociateCallParams_spec params
  dsimp only at run
  split at run
  · next failed =>
      cases run
      refine .inl ⟨rfl, ?_⟩
      rcases origin with ⟨static, -, fresh⟩ | ⟨dynamic, -, allocated, rfl⟩
      · -- the chunk that was allocated for the call is freed again
        simp only [static, if_true]
        have magic : ∀ d, (tfmPoolFree P (s₀.setConnection c k) c).Allocated d ↔
            s.Allocated d := by
          intro d
          by_cases d_eq : d = c
          · subst d_eq
            simp only [State.Allocated, tfmPoolFree, Function.update_self]
            exact ⟨fun zero ↦ absurd zero (by decide), fun allocated ↦
              absurd allocated fresh.not_allocated⟩
          · simp only [State.Allocated, tfmPoolFree, Function.update_of_ne d_eq,
              setConnection_magic, acquired.magic_other d d_eq]
        have connections : ∀ d, s.Allocated d →
            (tfmPoolFree P (s₀.setConnection c k) c).connections d = s.connections d := by
          intro d allocated
          have d_ne : d ≠ c := by
            rintro rfl
            exact fresh.not_allocated allocated
          simp only [tfmPoolFree, Function.update_of_ne d_ne, setConnection_connections]
          exact acquired.connections_other d d_ne
        refine ⟨tfmPoolFree_poolInv (acquired.pool.congr rfl rfl rfl) acquired.allocated, magic,
          acquired.partitions, ?_, fun d allocated _ ↦ connections d allocated,
          fun d allocated ↦ by rw [connections d allocated]⟩
        intro d allocated
        rw [connections d allocated]
        exact .refl _
      · simp only [dynamic, Bool.false_eq_true, if_false]
        refine ⟨pool.congr rfl rfl rfl, fun _ ↦ .rfl, rfl, ?_, ?_, ?_⟩
        · intro d _
          by_cases d_eq : d = c
          · subst d_eq
            simpa using same
          · simpa [d_eq] using SameIdentity.refl _
        · intro d _ not_idle
          have d_ne : d ≠ c := by
            rintro rfl
            exact not_idle acquired.status
          simp [d_ne]
        · intro d _
          by_cases d_eq : d = c
          · subst d_eq
            simpa using rhandle
          · simp [d_eq]
  · next success =>
      rw [not_not] at success
      have associated := entered success
      simp only [sendRequest, Option.bind_eq_bind, Option.bind_eq_some_iff, Prod.exists] at run
      obtain ⟨ret, s', messaging, run⟩ := run
      cases run
      have messaged := backendMessaging_spec (σ := σ) (by simpa using same.service.trans service)
        messaging
      rw [show (s₀.setConnection c k).setConnection c
          { k with clientData := data.getD k.clientData } =
          s₀.setConnection c { k with clientData := data.getD k.clientData } by
        simp [State.setConnection]] at messaged
      have send := acquired.send service same rhandle messaged
      have connection := messaged.connection
      simp only [setConnection_connections, Function.update_self] at connection
      refine .inr ⟨c, σ, rfl, send, ?_, s₀.connections c, ?_, ?_⟩
      · rcases origin with ⟨static, stateless, fresh⟩ | ⟨dynamic, chunk, allocated, -⟩
        · exact .inl ⟨static, stateless, fresh.first_free, fresh.not_allocated⟩
        · exact .inr ⟨dynamic, chunk, allocated⟩
      · dsimp only
        rw [connection, ← acquired.memory]
        exact ⟨associated.type_nonneg, associated.counts, associated.inSize, associated.outSize,
          associated.accessed, associated.written, associated.iovecStatus,
          associated.callerOutvec⟩
      · rcases acquired.origin with fresh | ⟨allocated, unchanged⟩
        · exact ⟨fresh.accessed, fresh.written,
            fun _ ↦ ⟨fresh.iovecStatus, fresh.inSize, fresh.outSize⟩,
            fun allocated ↦ absurd allocated fresh.not_allocated⟩
        · rw [unchanged]
          exact ⟨rfl, rfl, fun free ↦ absurd allocated free, fun _ ↦ rfl⟩

/-- A connection request moves no request, or queues one on a new chunk. -/
theorem connect_cases {P : Platform Pt Svc} {s : State Pt Svc} {caller : Pt} {clientId : ℤ}
    {sid version clientData : Word} {outcome : Outcome Pt Svc} (pool : PoolInv P s)
    (run : connectClientIdAssociated P s caller sid version clientId clientData =
      some outcome) :
    outcome.effect = .quiet ∧ Quiet P s outcome.state ∨
      ∃ c σ, outcome.effect = .sent c ∧
        SendMove P caller clientId (some clientData) s outcome.state c σ ∧ ¬s.Allocated c ∧
        (P.service σ).stateless = false ∧
        (outcome.state.connections c).msg.type = psaIpcConnect := by
  simp only [connectClientIdAssociated, spmPsaConnectClientIdAssociated,
    tfmSpmGetServiceBySid] at run
  split at run
  · next failed =>
      cases run
      refine .inl ⟨rfl, ?_⟩
      split at failed
      · cases failed
        exact .refl pool
      · next found =>
          split at found
          · cases found
          · cases found
            repeat' split at failed
            all_goals cases failed
            all_goals exact .of_services pool _
  · next c s₁ ok =>
      split at ok
      · cases ok
      next σ s₂ found =>
      split at found
      · cases found
      cases found
      split at ok
      · cases ok
      next not_stateless =>
      split at ok
      · cases ok
      split at ok
      · cases ok
      split at ok
      · cases ok
      next alloc =>
      cases ok
      generalize services_eq : (σ :: s.services.eraseP fun τ ↦
        decide ((P.service τ).sid = sid)) = services at alloc
      obtain ⟨acquired, service, fresh⟩ :=
        acquired_of_alloc (s := { s with services := services }) (pool.congr rfl rfl rfl) alloc
          caller σ clientId
      simp only [sendRequest, Option.bind_eq_bind, Option.bind_eq_some_iff, Prod.exists] at run
      obtain ⟨ret, s', messaging, run⟩ := run
      cases run
      generalize spmInitIdleConnection P _ caller c σ clientId =
        s₀ at acquired service fresh messaging
      have messaged := backendMessaging_spec (σ := σ) (by simpa using service) messaging
      have collapse : ∀ k k' : Connection Pt Svc,
          (s₀.setConnection c k).setConnection c k' = s₀.setConnection c k' := by
        intro k k'
        simp [State.setConnection]
      rw [collapse] at messaged
      have connection := messaged.connection
      simp only [setConnection_connections, Function.update_self] at connection
      have send : SendMove P caller clientId (some clientData) { s with services := services } s' c
          σ := acquired.send
        (k := { s₀.connections c with
          msg := { (s₀.connections c).msg with type := psaIpcConnect } }) service
        ⟨rfl, rfl, rfl, rfl, rfl, rfl, rfl⟩ rfl (by simpa using messaged)
      refine .inr ⟨c, σ, rfl, ?_, fresh.not_allocated, by simpa using not_stateless, ?_⟩
      · exact ⟨send.pool, send.allocated, send.magic_other, send.connections_other, send.status,
          send.service, send.client_id, send.fresh, send.reused, send.fresh_rhandle,
          send.reused_rhandle, send.link, send.heads, send.asserted, send.waiting⟩
      · show (s'.connections c).msg.type = psaIpcConnect
        rw [connection]

/-- Closing moves no request, or queues a disconnection on an existing connection. -/
theorem close_cases {P : Platform Pt Svc} {s : State Pt Svc} {caller : Pt} {clientId : ℤ}
    {handle : Word} {outcome : Outcome Pt Svc} (pool : PoolInv P s)
    (run : spmPsaCloseClientIdAssociated P s caller handle clientId = some outcome) :
    outcome.effect = .quiet ∧ Quiet P s outcome.state ∨
      ∃ c σ, outcome.effect = .sent c ∧ SendMove P caller clientId none s outcome.state c σ ∧
        s.Allocated c ∧ (outcome.state.connections c).msg.type = psaIpcDisconnect := by
  simp only [spmPsaCloseClientIdAssociated] at run
  split at run
  · cases run
    exact .inl ⟨rfl, .refl pool⟩
  split at run
  · cases run
    exact .inl ⟨rfl, .refl pool⟩
  next dynamic =>
  split at run
  · cases run
    exact .inl ⟨rfl, .refl pool⟩
  next c s₀ ok =>
  obtain ⟨acquired, σ, service, origin⟩ := spmGetIdleConnection_ok pool ok
  rcases origin with ⟨static, -⟩ | ⟨-, -, allocated, rfl⟩
  · exact absurd static dynamic
  simp only [sendRequest, Option.bind_eq_bind, Option.bind_eq_some_iff, Prod.exists] at run
  obtain ⟨ret, s', messaging, run⟩ := run
  cases run
  have messaged := backendMessaging_spec (σ := σ) (by simpa using service) messaging
  have connection := messaged.connection
  simp only [setConnection_connections, Function.update_self] at connection
  have send : SendMove P caller clientId none s₀ s' c σ := acquired.send
    (k := { s₀.connections c with
      msg := { (s₀.connections c).msg with type := psaIpcDisconnect } }) service
    ⟨rfl, rfl, rfl, rfl, rfl, rfl, rfl⟩ rfl messaged
  refine .inr ⟨c, σ, rfl, send, allocated, ?_⟩
  show (s'.connections c).msg.type = psaIpcDisconnect
  rw [connection]

end TrustedFirmwareM.Spm
