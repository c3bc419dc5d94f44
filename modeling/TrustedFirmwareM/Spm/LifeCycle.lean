import TrustedFirmwareM.Spm.Replies

/-!
# The life cycle of a request

A chunk is free, or it carries a request that is queued at its service, handed to it, replied to and
queued for its agent, or done with.  `LifeInv` ties the ledger's account of these phases to the
connection records, the message lists and the signals; every kind of step is shown to preserve it.
-/

namespace TrustedFirmwareM.Spm

open LinkedList

variable {Pt Svc : Type}

/-- How far the latest request on a chunk has come. -/
def Ledger.phaseOf (L : Ledger Pt) (c : ℕ) : Phase Pt := L.phase (L.onChunk c)

/-- The request still waits for its reply. -/
def Phase.Pending : Phase Pt → Prop
  | .queued | .delivered _ _ => True
  | .replyQueued | .replied => False

instance : DecidablePred (Phase.Pending : Phase Pt → Prop)
  | .queued | .delivered _ _ => isTrue trivial
  | .replyQueued | .replied => isFalse id

/-- A client is blocked on a request, and no reply signal has been raised. -/
structure Blocked (s : State Pt Svc) (L : Ledger Pt) (q : Pt) (r : ℕ) : Prop where
  /-- The client waits for the reply signal only. -/
  waiting : (s.partitions q).signalsWaiting = asyncMsgReply
  /-- The signal is not there. -/
  clear : (s.partitions q).signalsAsserted &&& asyncMsgReply = 0
  /-- The client waits for this request. -/
  waitingFor : L.waitingFor q = some r

/-- The partition in whose list a chunk has to be. -/
def listOf (P : Platform Pt Svc) (s : State Pt Svc) (L : Ledger Pt) (c : ℕ) : Option Pt :=
  match L.phaseOf c with
  | .queued => (s.connections c).service.map fun σ ↦ (P.service σ).partition
  | .replyQueued => (s.connections c).pClient
  | .delivered _ _ | .replied => none

/-- What the phase of a request says about the connection record on its chunk. -/
def RecordOf (P : Platform Pt Svc) (k : Connection Pt Svc) (c : ℕ) : Phase Pt → Prop
  | .queued => k.status = .active
  | .delivered p handle => k.status = .active ∧
      (∃ σ, k.service = some σ ∧ (P.service σ).partition = p) ∧ k.msg.handle = handle
  | .replyQueued => tfmSpmIsRpcMsg k = true ∧ k.status ≠ .idle ∧ k.msg.rhandle = P.chunkAddress c
  | .replied => k.status = .idle

/-- The invariant of one allocated chunk. -/
structure ChunkInv (P : Platform Pt Svc) (s : State Pt Svc) (L : Ledger Pt) (c : ℕ) : Prop where
  /-- The connection is to a service. -/
  service : ∃ σ, (s.connections c).service = some σ
  /-- The client presents one of its identifiers, is an agent just for agent requests, and is
  blocked while a request of another kind is pending. -/
  client : ∃ q, (s.connections c).pClient = some q ∧
    (P.partition q).Owns (s.connections c).msg.clientId ∧
    tfmSpmIsRpcMsg (s.connections c) = (P.partition q).nsAgentMailbox ∧
    ((L.phaseOf c).Pending → tfmSpmIsRpcMsg (s.connections c) = false →
      Blocked s L q (L.onChunk c))
  /-- The message handle stands for the chunk. -/
  handle : P.chunkOfHandle (s.connections c).msg.handle = some c
  /-- The request on the chunk has been made. -/
  request_lt : L.onChunk c < L.sent
  /-- The record agrees with the phase. -/
  record : RecordOf P (s.connections c) c (L.phaseOf c)

/-- The invariant of the life cycle. -/
structure LifeInv (P : Platform Pt Svc) (s : State Pt Svc) (L : Ledger Pt) : Prop where
  /-- The pool is sound. -/
  pool : PoolInv P s
  /-- Every allocated chunk is. -/
  chunk : ∀ c, s.Allocated c → ChunkInv P s L c
  /-- Different chunks carry different requests. -/
  distinct : ∀ c d, s.Allocated c → s.Allocated d → L.onChunk c = L.onChunk d → c = d
  /-- The lists hold exactly the chunks that have to be in them. -/
  lists : ∃ lists : Pt → List ℕ, Lists s lists ∧
    ∀ p c, c ∈ lists p ↔ s.Allocated c ∧ listOf P s L c = some p
  /-- The reply signal of a partition that is no agent is raised only while it waits for it. -/
  async : ∀ p, (P.partition p).nsAgentMailbox = false →
    (s.partitions p).signalsAsserted &&& asyncMsgReply ≠ 0 →
    (s.partitions p).signalsWaiting = asyncMsgReply
  /-- A request that is no longer pending was replied to once, any other one never. -/
  replies_pending : ∀ r, r < L.sent → (L.phase r).Pending → L.replies r = 0
  /-- A request that is no longer pending was replied to once. -/
  replies_done : ∀ r, r < L.sent → ¬(L.phase r).Pending → L.replies r = 1
  /-- A request that has not been made has no reply. -/
  replies_unsent : ∀ r, L.sent ≤ r → L.replies r = 0

/-! ## Consequences -/

theorem LifeInv.disjoint {P : Platform Pt Svc} {s : State Pt Svc} {L : Ledger Pt}
    {lists : Pt → List ℕ}
    (mem_lists : ∀ p c, c ∈ lists p ↔ s.Allocated c ∧ listOf P s L c = some p) (p q : Pt) (c : ℕ)
    (in_p : c ∈ lists p) (in_q : c ∈ lists q) : p = q := by
  have p_eq := ((mem_lists p c).1 in_p).2
  have q_eq := ((mem_lists q c).1 in_q).2
  rw [p_eq] at q_eq
  exact Option.some.inj q_eq

theorem LifeInv.bounded {P : Platform Pt Svc} {s : State Pt Svc} {L : Ledger Pt}
    {lists : Pt → List ℕ} (pool : PoolInv P s)
    (mem_lists : ∀ p c, c ∈ lists p ↔ s.Allocated c ∧ listOf P s L c = some p) (p : Pt) :
    ∀ c ∈ lists p, c < P.connHandleMaxNum :=
  fun c member ↦ pool.allocated_lt c ((mem_lists p c).1 member).1

/-- An idle connection has no request under way. -/
theorem ChunkInv.phase_of_idle {P : Platform Pt Svc} {s : State Pt Svc} {L : Ledger Pt} {c : ℕ}
    (inv : ChunkInv P s L c) (idle : (s.connections c).status = .idle) :
    L.phaseOf c = .replied := by
  have record := inv.record
  cases phase : L.phaseOf c with
  | queued =>
      rw [phase] at record
      simp [RecordOf, idle] at record
  | delivered p handle =>
      rw [phase] at record
      simp [RecordOf, idle] at record
  | replyQueued =>
      rw [phase] at record
      simp [RecordOf, idle] at record
  | replied => rfl

/-- A connection with a request under way is in use. -/
theorem RecordOf.busy {P : Platform Pt Svc} {k : Connection Pt Svc} {c : ℕ} {phase : Phase Pt}
    (record : RecordOf P k c phase) (under_way : phase ≠ .replied) : k.status ≠ .idle := by
  intro idle
  cases phase with
  | queued => simp [RecordOf, idle] at record
  | delivered p handle => simp [RecordOf, idle] at record
  | replyQueued => simp [RecordOf, idle] at record
  | replied => exact under_way rfl

/-! ## Congruence -/

theorem Blocked.congr {s s' : State Pt Svc} {L L' : Ledger Pt} {q : Pt} {r : ℕ}
    (blocked : Blocked s L q r)
    (waiting : (s'.partitions q).signalsWaiting = (s.partitions q).signalsWaiting)
    (asserted : (s'.partitions q).signalsAsserted &&& asyncMsgReply =
      (s.partitions q).signalsAsserted &&& asyncMsgReply)
    (waitingFor : L'.waitingFor q = L.waitingFor q) : Blocked s' L' q r :=
  ⟨waiting.trans blocked.waiting, asserted.trans blocked.clear,
    waitingFor.trans blocked.waitingFor⟩

/-- The fields of a connection that a phase speaks about. -/
structure SameRecord (k k' : Connection Pt Svc) (phase : Phase Pt) : Prop where
  /-- Everything but the links. -/
  identity : ∃ link, SameIdentity { k with pHandles := link } k'
  /-- The reverse handle of a queued reply. -/
  rhandle : phase = .replyQueued → k'.msg.rhandle = k.msg.rhandle

theorem SameRecord.of_identity {k k' : Connection Pt Svc} {phase : Phase Pt}
    (same : SameIdentity k k') (rhandle : phase = .replyQueued → k'.msg.rhandle = k.msg.rhandle) :
    SameRecord k k' phase :=
  ⟨⟨k.pHandles, same.status, same.pClient, same.service, same.handle, same.clientId,
    same.clientData, same.pHandles⟩, rhandle⟩

theorem SameRecord.of_eq {k k' : Connection Pt Svc} {phase : Phase Pt} (same : k' = k) :
    SameRecord k k' phase := by
  subst same
  exact .of_identity (.refl k') fun _ ↦ rfl

theorem SameRecord.isRpcMsg {k k' : Connection Pt Svc} {phase : Phase Pt}
    (same : SameRecord k k' phase) : tfmSpmIsRpcMsg k' = tfmSpmIsRpcMsg k := by
  obtain ⟨link, identity⟩ := same.identity
  simp only [tfmSpmIsRpcMsg, identity.clientId, identity.clientData]

theorem SameRecord.recordOf {P : Platform Pt Svc} {k k' : Connection Pt Svc} {c : ℕ}
    {phase : Phase Pt} (same : SameRecord k k' phase) (record : RecordOf P k c phase) :
    RecordOf P k' c phase := by
  obtain ⟨link, identity⟩ := same.identity
  cases phase with
  | queued => exact identity.status.trans record
  | delivered p handle =>
      obtain ⟨status, ⟨σ, service, owner⟩, handle_eq⟩ := record
      exact ⟨identity.status.trans status, ⟨σ, identity.service.trans service, owner⟩,
        identity.handle.trans handle_eq⟩
  | replyQueued =>
      obtain ⟨rpc, status, rhandle⟩ := record
      refine ⟨same.isRpcMsg.trans rpc, ?_, (same.rhandle rfl).trans rhandle⟩
      rw [identity.status]
      exact status
  | replied => exact identity.status.trans record

theorem SameRecord.listOf {P : Platform Pt Svc} {s s' : State Pt Svc} {L L' : Ledger Pt} {c : ℕ}
    (same : SameRecord (s.connections c) (s'.connections c) (L.phaseOf c))
    (phase : L'.phaseOf c = L.phaseOf c) : listOf P s' L' c = listOf P s L c := by
  obtain ⟨link, identity⟩ := same.identity
  simp only [Spm.listOf, phase, identity.service, identity.pClient]

theorem ChunkInv.congr {P : Platform Pt Svc} {s s' : State Pt Svc} {L L' : Ledger Pt} {c : ℕ}
    (inv : ChunkInv P s L c)
    (same : SameRecord (s.connections c) (s'.connections c) (L.phaseOf c))
    (onChunk : L'.onChunk c = L.onChunk c) (phase : L'.phaseOf c = L.phaseOf c)
    (sent : L.sent ≤ L'.sent)
    (blocked : ∀ q, (s.connections c).pClient = some q →
      tfmSpmIsRpcMsg (s.connections c) = false → (L.phaseOf c).Pending →
      Blocked s L q (L.onChunk c) → Blocked s' L' q (L.onChunk c)) :
    ChunkInv P s' L' c := by
  obtain ⟨link, identity⟩ := same.identity
  obtain ⟨q, client, owns, rpc, waits⟩ := inv.client
  refine ⟨?_, ⟨q, ?_, ?_, ?_, ?_⟩, ?_, ?_, ?_⟩
  · rw [identity.service]
    exact inv.service
  · rw [identity.pClient]
    exact client
  · rw [identity.clientId]
    exact owns
  · rw [same.isRpcMsg]
    exact rpc
  · rw [phase, same.isRpcMsg, onChunk]
    intro pending not_rpc
    exact blocked q client not_rpc pending (waits pending not_rpc)
  · rw [identity.handle]
    exact inv.handle
  · rw [onChunk]
    exact inv.request_lt.trans_le sent
  · rw [phase]
    exact same.recordOf inv.record

/-! ## Steps that move no request -/

/-- A step that keeps the records, the lists and the phases, and wakes no blocked client, preserves
the invariant. -/
theorem LifeInv.frame {P : Platform Pt Svc} {s s' : State Pt Svc} {L L' : Ledger Pt}
    (inv : LifeInv P s L) (pool : PoolInv P s')
    (allocated : ∀ c, s'.Allocated c ↔ s.Allocated c)
    (same : ∀ c, s.Allocated c → SameIdentity (s.connections c) (s'.connections c))
    (rhandle : ∀ c, s.Allocated c → L.phaseOf c = .replyQueued →
      (s'.connections c).msg.rhandle = (s.connections c).msg.rhandle)
    (heads : ∀ p, (s'.partitions p).pHandles = (s.partitions p).pHandles)
    (blocked : ∀ q r, Blocked s L q r → Blocked s' L' q r)
    (async : ∀ p, (P.partition p).nsAgentMailbox = false →
      (s'.partitions p).signalsAsserted &&& asyncMsgReply ≠ 0 →
      (s'.partitions p).signalsWaiting = asyncMsgReply)
    (sent : L'.sent = L.sent) (onChunk : L'.onChunk = L.onChunk) (phase : L'.phase = L.phase)
    (replies : L'.replies = L.replies) : LifeInv P s' L' := by
  have phaseOf : ∀ c, L'.phaseOf c = L.phaseOf c := by
    intro c
    rw [Ledger.phaseOf, onChunk, phase]
    rfl
  have record : ∀ c, s.Allocated c →
      SameRecord (s.connections c) (s'.connections c) (L.phaseOf c) :=
    fun c here ↦ .of_identity (same c here) (rhandle c here)
  refine ⟨pool, ?_, ?_, ?_, async, ?_, ?_, ?_⟩
  · intro c here
    rw [allocated] at here
    exact (inv.chunk c here).congr (record c here) (congrFun onChunk c) (phaseOf c) sent.ge
      fun q _ _ _ ↦ blocked q _
  · intro c d c_here d_here
    rw [onChunk]
    exact inv.distinct c d ((allocated c).1 c_here) ((allocated d).1 d_here)
  · obtain ⟨lists, chains, mem_lists⟩ := inv.lists
    refine ⟨lists, chains.congr heads ?_, ?_⟩
    · intro p c member
      exact (same c ((mem_lists p c).1 member).1).pHandles
    · intro p c
      rw [mem_lists, allocated]
      constructor
      · rintro ⟨here, list_eq⟩
        exact ⟨here, ((record c here).listOf (phaseOf c)).trans list_eq⟩
      · rintro ⟨here, list_eq⟩
        exact ⟨here, ((record c here).listOf (phaseOf c)).symm.trans list_eq⟩
  · rw [sent, phase, replies]
    exact inv.replies_pending
  · rw [sent, phase, replies]
    exact inv.replies_done
  · rw [sent, replies]
    exact inv.replies_unsent

theorem LifeInv.quiet {P : Platform Pt Svc} {s s' : State Pt Svc} {L : Ledger Pt}
    (inv : LifeInv P s L) (quiet : Quiet P s s') : LifeInv P s' L := by
  refine inv.frame quiet.pool quiet.allocated quiet.identity ?_ ?_ ?_ ?_ rfl rfl rfl rfl
  · intro c here phase
    have record := (inv.chunk c here).record
    rw [phase] at record
    rw [quiet.busy c here record.2.1]
  · intro p
    rw [quiet.partitions]
  · intro q r blocked
    refine blocked.congr ?_ ?_ rfl <;> rw [quiet.partitions]
  · rw [quiet.partitions]
    exact inv.async

theorem LifeInv.message {P : Platform Pt Svc} {s s' : State Pt Svc} {L : Ledger Pt} {c : ℕ}
    {rhandle : Word} (inv : LifeInv P s L) (move : MessageMove s c rhandle s')
    (phase : L.phaseOf c ≠ .replyQueued) :
    LifeInv P s' L := by
  have identity := move.identity
  obtain ⟨k, memory, rfl⟩ := move.state
  simp only [setConnection_connections, Function.update_self] at identity
  refine inv.frame (inv.pool.congr rfl rfl rfl) (fun _ ↦ .rfl) ?_ ?_ (fun _ ↦ rfl)
    (fun _ _ blocked ↦ blocked.congr rfl rfl rfl) inv.async rfl rfl rfl rfl
  · intro d _
    by_cases d_eq : d = c
    · subst d_eq
      simpa using identity
    · simpa [d_eq] using SameIdentity.refl _
  · intro d _ d_phase
    have d_ne : d ≠ c := by
      rintro rfl
      exact phase d_phase
    simp [d_ne]

/-- A change of signals that neither raises the reply signal nor disturbs a blocked client. -/
theorem LifeInv.signals {P : Platform Pt Svc} {s s' : State Pt Svc} {L L' : Ledger Pt}
    (inv : LifeInv P s L) (pool : PoolInv P s') (magic : s'.magic = s.magic)
    (connections : s'.connections = s.connections)
    (heads : ∀ p, (s'.partitions p).pHandles = (s.partitions p).pHandles)
    (blocked : ∀ q r, Blocked s L q r → Blocked s' L' q r)
    (async : ∀ p, (P.partition p).nsAgentMailbox = false →
      (s'.partitions p).signalsAsserted &&& asyncMsgReply ≠ 0 →
      (s'.partitions p).signalsWaiting = asyncMsgReply)
    (sent : L'.sent = L.sent) (onChunk : L'.onChunk = L.onChunk) (phase : L'.phase = L.phase)
    (replies : L'.replies = L.replies) : LifeInv P s' L' := by
  refine inv.frame pool ?_ ?_ ?_ heads blocked async sent onChunk phase replies
  · intro c
    rw [State.Allocated, magic]
    rfl
  · intro c _
    rw [connections]
    exact .refl _
  · intro c _ _
    rw [connections]

/-! ## Signals -/

/-- Raising signals leaves the others alone. -/
theorem or_and_of_disjoint {a signal other : Word} (disjoint : signal &&& other = 0) :
    (a ||| signal) &&& other = a &&& other := by
  rw [BitVec.and_or_distrib_right, disjoint]
  exact BitVec.or_zero

/-- Clearing signals leaves the others alone. -/
theorem and_not_and_of_disjoint {a signal other : Word} (disjoint : other &&& signal = 0) :
    (a &&& ~~~signal) &&& other = a &&& other := by
  have kept : ~~~signal &&& other = other := by
    calc ~~~signal &&& other = (~~~signal &&& other) ||| (other &&& signal) := by
          rw [disjoint]
          exact BitVec.or_zero.symm
      _ = other &&& (~~~signal ||| signal) := by
          rw [BitVec.and_comm, ← BitVec.and_or_distrib_left]
      _ = other := by
          rw [BitVec.or_comm, BitVec.or_not_self, BitVec.and_allOnes]
  rw [BitVec.and_assoc, kept]

theorem or_and_async {a signal : Word} (reserved : signal &&& asyncMsgReply = 0) :
    (a ||| signal) &&& asyncMsgReply = a &&& asyncMsgReply :=
  or_and_of_disjoint reserved

theorem and_and_async_eq_zero {a mask : Word} (clear : a &&& asyncMsgReply = 0) :
    (a &&& mask) &&& asyncMsgReply = 0 := by
  rw [BitVec.and_assoc, BitVec.and_comm mask, ← BitVec.and_assoc, clear]
  exact BitVec.zero_and

theorem Platform.signal_and_async (P : Platform Pt Svc) (σ : Svc) :
    (P.service σ).signal &&& asyncMsgReply = 0 := by
  have reserved := P.signal_reserved σ
  rw [show asyncMsgReply = (asyncMsgReply ||| psaDoorbell) &&& asyncMsgReply by decide,
    ← BitVec.and_assoc, reserved]
  exact BitVec.zero_and

theorem Platform.signal_and_doorbell (P : Platform Pt Svc) (σ : Svc) :
    (P.service σ).signal &&& psaDoorbell = 0 := by
  have reserved := P.signal_reserved σ
  rw [show psaDoorbell = (asyncMsgReply ||| psaDoorbell) &&& psaDoorbell by decide,
    ← BitVec.and_assoc, reserved]
  exact BitVec.zero_and

/-- The reply signal is a single bit. -/
theorem and_async_eq {signals : Word} (raised : signals &&& asyncMsgReply ≠ 0) :
    asyncMsgReply &&& signals = asyncMsgReply := by
  have bit : asyncMsgReply = BitVec.twoPow 32 2 := by decide
  rw [bit, BitVec.and_twoPow] at raised
  rw [bit, BitVec.and_comm, BitVec.and_twoPow]
  split at raised
  · next set => rw [if_pos set]
  · exact absurd rfl raised

/-- Only an agent may wait for the reply signal. -/
theorem Platform.signalsAllowed_async [DecidableEq Pt] (P : Platform Pt Svc) {p : Pt}
    (not_agent : (P.partition p).nsAgentMailbox = false) :
    P.signalsAllowed p &&& asyncMsgReply = 0 := by
  have collected : ∀ (services : List Svc) (signals : Word), signals &&& asyncMsgReply = 0 →
      (services.foldl (fun signals σ ↦ signals ||| (P.service σ).signal) signals) &&&
        asyncMsgReply = 0 := by
    intro services
    induction services with
    | nil => exact fun _ clear ↦ clear
    | cons σ services ih =>
        intro signals clear
        exact ih _ ((or_and_async (P.signal_and_async σ)).trans clear)
  rw [signalsAllowed]
  split
  · exact P.irq_reserved p
  · rw [not_agent, if_neg (by simp), show (0 : Word) = 0#32 from rfl, BitVec.or_zero]
    refine collected _ _ ?_
    exact (or_and_async (by decide)).trans (P.irq_reserved p)

/-- A mailbox agent may wait for the reply signal. -/
theorem Platform.signalsAllowed_agent [DecidableEq Pt] (P : Platform Pt Svc) {p : Pt}
    (agent : (P.partition p).nsAgentMailbox = true) (not_tz : (P.partition p).nsAgentTz = false) :
    P.signalsAllowed p &&& asyncMsgReply = asyncMsgReply := by
  rw [signalsAllowed, not_tz, agent, if_neg (by simp), if_pos rfl, BitVec.and_comm]
  apply BitVec.eq_of_getLsbD_eq
  intro i _
  simp only [BitVec.getLsbD_and, BitVec.getLsbD_or]
  cases asyncMsgReply.getLsbD i <;> simp

/-! ## Steps that move a request -/

/-- The invariant after the phase of one chunk's request has changed: it is enough to look at that
chunk, at its place in the lists and at the signals. -/
theorem LifeInv.advance {P : Platform Pt Svc} {s s' : State Pt Svc} {L L' : Ledger Pt} {c : ℕ}
    {lists lists' : Pt → List ℕ} (inv : LifeInv P s L)
    (mem_lists : ∀ p c, c ∈ lists p ↔ s.Allocated c ∧ listOf P s L c = some p)
    (pool : PoolInv P s') (here : s.Allocated c)
    (chunk : s'.Allocated c → ChunkInv P s' L' c)
    (magic_other : ∀ d, d ≠ c → s'.magic d = s.magic d)
    (same_other : ∀ d, d ≠ c → s.Allocated d →
      SameRecord (s.connections d) (s'.connections d) (L.phaseOf d))
    (blocked : ∀ d q, d ≠ c → s.Allocated d → (s.connections d).pClient = some q →
      tfmSpmIsRpcMsg (s.connections d) = false → (L.phaseOf d).Pending →
      Blocked s L q (L.onChunk d) → Blocked s' L' q (L.onChunk d))
    (chains : Lists s' lists') (lists_other : ∀ p d, d ≠ c → (d ∈ lists' p ↔ d ∈ lists p))
    (lists_c : ∀ p, c ∈ lists' p ↔ s'.Allocated c ∧ listOf P s' L' c = some p)
    (async : ∀ p, (P.partition p).nsAgentMailbox = false →
      (s'.partitions p).signalsAsserted &&& asyncMsgReply ≠ 0 →
      (s'.partitions p).signalsWaiting = asyncMsgReply)
    (sent : L'.sent = L.sent) (onChunk : L'.onChunk = L.onChunk)
    (phase : ∀ r, r ≠ L.onChunk c → L'.phase r = L.phase r)
    (replies : ∀ r, r ≠ L.onChunk c → L'.replies r = L.replies r)
    (replied : L'.replies (L.onChunk c) = if (L'.phaseOf c).Pending then 0 else 1) :
    LifeInv P s' L' := by
  have other_phase : ∀ d, d ≠ c → s.Allocated d → L'.phaseOf d = L.phaseOf d := by
    intro d d_ne d_here
    rw [Ledger.phaseOf, onChunk]
    exact phase _ fun equal ↦ d_ne (inv.distinct d c d_here here equal)
  have allocated_other : ∀ d, d ≠ c → (s'.Allocated d ↔ s.Allocated d) := by
    intro d d_ne
    rw [State.Allocated, magic_other d d_ne]
    rfl
  have allocated : ∀ d, s'.Allocated d → s.Allocated d := by
    intro d d_here
    by_cases d_eq : d = c
    · subst d_eq
      exact here
    · exact (allocated_other d d_eq).1 d_here
  have phaseOf_c : L'.phase (L.onChunk c) = L'.phaseOf c := by
    rw [Ledger.phaseOf, onChunk]
  refine ⟨pool, ?_, ?_, ⟨lists', chains, ?_⟩, async, ?_, ?_, ?_⟩
  · intro d d_here
    by_cases d_eq : d = c
    · subst d_eq
      exact chunk d_here
    · exact (inv.chunk d (allocated d d_here)).congr (same_other d d_eq (allocated d d_here))
        (congrFun onChunk d) (other_phase d d_eq (allocated d d_here)) sent.ge
        fun q ↦ blocked d q d_eq (allocated d d_here)
  · intro d e d_here e_here
    rw [onChunk]
    exact inv.distinct d e (allocated d d_here) (allocated e e_here)
  · intro p d
    by_cases d_eq : d = c
    · subst d_eq
      exact lists_c p
    · rw [lists_other p d d_eq, mem_lists, allocated_other d d_eq]
      refine and_congr_right fun d_here ↦ ?_
      rw [(same_other d d_eq d_here).listOf (other_phase d d_eq d_here)]
  · intro r r_lt pending
    rw [sent] at r_lt
    by_cases r_eq : r = L.onChunk c
    · rw [r_eq, phaseOf_c] at pending
      rw [r_eq, replied, if_pos pending]
    · rw [phase r r_eq] at pending
      rw [replies r r_eq]
      exact inv.replies_pending r r_lt pending
  · intro r r_lt done
    rw [sent] at r_lt
    by_cases r_eq : r = L.onChunk c
    · rw [r_eq, phaseOf_c] at done
      rw [r_eq, replied, if_neg done]
    · rw [phase r r_eq] at done
      rw [replies r r_eq]
      exact inv.replies_done r r_lt done
  · intro r r_ge
    rw [sent] at r_ge
    have r_ne : r ≠ L.onChunk c := by
      have := (inv.chunk c here).request_lt
      omega
    rw [replies r r_ne]
    exact inv.replies_unsent r r_ge

/-- Taking a handle out of a list keeps the records. -/
theorem TakeMove.sameRecord {s s' : State Pt Svc} {p : Pt} {signal : Word}
    (take : TakeMove s s' p signal) (d : ℕ) (phase : Phase Pt) :
    SameRecord (s.connections d) (s'.connections d) phase := by
  obtain ⟨link, connection⟩ := take.connections d
  rw [connection]
  exact ⟨⟨link, .refl _⟩, fun _ ↦ rfl⟩

/-- Taking a handle out of a list raises no signal. -/
theorem TakeMove.clear {s s' : State Pt Svc} {p q : Pt} {signal : Word}
    (take : TakeMove s s' p signal)
    (clear : (s.partitions q).signalsAsserted &&& asyncMsgReply = 0) :
    (s'.partitions q).signalsAsserted &&& asyncMsgReply = 0 := by
  rcases take.asserted q with unchanged | ⟨-, cleared⟩
  · rw [unchanged]
    exact clear
  · rw [cleared]
    exact and_and_async_eq_zero clear

variable [DecidableEq Pt]

/-- Membership after one handle has been taken out of its list. -/
theorem mem_removed {lists : Pt → List ℕ} {p : Pt} {before after : List ℕ} {c : ℕ}
    (disjoint : ∀ p q c, c ∈ lists p → c ∈ lists q → p = q)
    (list_eq : lists p = before ++ c :: after) (nodup : (lists p).Nodup) (q : Pt) :
    c ∉ Function.update lists p (before ++ after) q ∧
      ∀ d, d ≠ c → (d ∈ Function.update lists p (before ++ after) q ↔ d ∈ lists q) := by
  by_cases q_eq : q = p
  · subst q_eq
    rw [Function.update_self, list_eq]
    rw [list_eq] at nodup
    refine ⟨(List.nodup_middle.1 nodup).notMem, fun d d_ne ↦ ?_⟩
    simp [d_ne]
  · rw [Function.update_of_ne q_eq]
    refine ⟨fun member ↦ q_eq (disjoint q p c member ?_), fun _ _ ↦ .rfl⟩
    simp [list_eq]

/-- Membership after one handle has been put in front of a list. -/
theorem mem_pushed {lists : Pt → List ℕ} {p : Pt} {c : ℕ} (fresh : ∀ q, c ∉ lists q) (q : Pt) :
    (c ∈ Function.update lists p (c :: lists p) q ↔ p = q) ∧
      ∀ d, d ≠ c → (d ∈ Function.update lists p (c :: lists p) q ↔ d ∈ lists q) := by
  by_cases q_eq : q = p
  · subst q_eq
    rw [Function.update_self]
    exact ⟨by simp, fun d d_ne ↦ by simp [d_ne]⟩
  · rw [Function.update_of_ne q_eq]
    exact ⟨by simp [fresh q, Ne.symm q_eq], fun _ _ ↦ .rfl⟩

omit [DecidableEq Pt] in
/-- The list of a partition that is no agent holds queued requests only. -/
theorem LifeInv.queued_of_listed {P : Platform Pt Svc} {s : State Pt Svc} {L : Ledger Pt} {c : ℕ}
    {p : Pt} (inv : LifeInv P s L) (here : s.Allocated c) (listed : listOf P s L c = some p)
    (not_agent : (P.partition p).nsAgentMailbox = false) : L.phaseOf c = .queued := by
  have record := (inv.chunk c here).record
  obtain ⟨q, client, -, rpc, -⟩ := (inv.chunk c here).client
  rw [listOf] at listed
  cases phase : L.phaseOf c with
  | queued => rfl
  | delivered _ _ =>
      rw [phase] at listed
      cases listed
  | replyQueued =>
      rw [phase] at listed record
      rw [client] at listed
      cases listed
      rw [record.1, not_agent] at rpc
      cases rpc
  | replied =>
      rw [phase] at listed
      cases listed

/-- A request is delivered. -/
theorem LifeInv.deliver {P : Platform Pt Svc} {s s' : State Pt Svc} {L : Ledger Pt}
    {lists : Pt → List ℕ} {p : Pt} {before after : List ℕ} {c : ℕ} {signal : Word}
    (inv : LifeInv P s L) (chains : Lists s lists)
    (mem_lists : ∀ p c, c ∈ lists p ↔ s.Allocated c ∧ listOf P s L c = some p)
    (list_eq : lists p = before ++ c :: after)
    (chains' : Lists s' (Function.update lists p (before ++ after)))
    (take : TakeMove s s' p signal) (not_agent : (P.partition p).nsAgentMailbox = false) :
    LifeInv P s' (L.deliver p c (s.connections c).msg.handle) := by
  have member : c ∈ lists p := by simp [list_eq]
  obtain ⟨here, list_c⟩ := (mem_lists p c).1 member
  have inv_c := inv.chunk c here
  obtain ⟨q, client, owns, rpc, waits⟩ := inv_c.client
  obtain ⟨σ, service⟩ := inv_c.service
  have queued := inv.queued_of_listed here list_c not_agent
  have owner : (P.service σ).partition = p := by
    rw [listOf, queued, service] at list_c
    exact Option.some.inj list_c
  have pending : (L.phaseOf c).Pending := by
    rw [queued]
    trivial
  have still_blocked : ∀ q r, Blocked s L q r →
      Blocked s' (L.deliver p c (s.connections c).msg.handle) q r := fun q r blocked ↦
    ⟨(take.waiting q).trans blocked.waiting, take.clear blocked.clear, blocked.waitingFor⟩
  have phase_c : (L.deliver p c (s.connections c).msg.handle).phaseOf c =
      .delivered p (s.connections c).msg.handle := by
    simp [Ledger.phaseOf, Ledger.deliver]
  have removed := mem_removed (LifeInv.disjoint mem_lists) list_eq (chains p).nodup
  refine inv.advance (c := c) mem_lists (inv.pool.congr take.poolNext take.chunkNext take.magic)
    here ?_ (fun d _ ↦ by rw [take.magic]) (fun d _ _ ↦ take.sameRecord d _)
    (fun _ q _ _ _ _ _ ↦ still_blocked q _) chains' (fun q ↦ (removed q).2) ?_ ?_ rfl rfl ?_
    (fun _ _ ↦ rfl) ?_
  · intro _
    obtain ⟨link, connection⟩ := take.connections c
    have record := inv_c.record
    rw [queued] at record
    refine ⟨?_, ⟨q, ?_, ?_, ?_, ?_⟩, ?_, inv_c.request_lt, ?_⟩
    · rw [connection]
      exact ⟨σ, service⟩
    · rw [connection]
      exact client
    · rw [connection]
      exact owns
    · rw [connection]
      exact rpc
    · rw [connection]
      intro _ not_rpc
      exact still_blocked q _ (waits pending not_rpc)
    · rw [connection]
      exact inv_c.handle
    · rw [phase_c, connection]
      exact ⟨record, ⟨σ, service, owner⟩, rfl⟩
  · intro q
    rw [listOf, phase_c]
    simpa using (removed q).1
  · intro q not_agent' raised
    rw [take.waiting]
    exact inv.async q not_agent' fun clear ↦ raised (take.clear clear)
  · intro r r_ne
    simp [Ledger.deliver, r_ne]
  · rw [phase_c, if_pos (show (Phase.delivered p _).Pending from trivial)]
    exact inv.replies_pending _ inv_c.request_lt pending

/-- A client that waits for its request is replied to. -/
theorem LifeInv.reply {P : Platform Pt Svc} {s s' : State Pt Svc} {L : Ledger Pt} {c : ℕ} {p : Pt}
    {handle : Word} {client : Pt} {ends : Bool} {type status : ℤ} (inv : LifeInv P s L)
    (here : s.Allocated c) (delivered : L.phaseOf c = .delivered p handle)
    (client_eq : (s.connections c).pClient = some client)
    (not_rpc : tfmSpmIsRpcMsg (s.connections c) = false) (move : ReplyMove P s s' c client ends) :
    LifeInv P s' (L.reply c false type status) := by
  have inv_c := inv.chunk c here
  have pending : (L.phaseOf c).Pending := by
    rw [delivered]
    trivial
  have blocked_client : Blocked s L client (L.onChunk c) := by
    obtain ⟨q, q_eq, -, -, waits⟩ := inv_c.client
    rw [client_eq] at q_eq
    cases q_eq
    exact waits pending not_rpc
  have phase_c : (L.reply c false type status).phaseOf c = .replied := by
    simp [Ledger.phaseOf, Ledger.reply]
  have not_listed : ∀ q, listOf P s L c ≠ some q := by
    intro q
    rw [listOf, delivered]
    simp
  obtain ⟨lists, chains, mem_lists⟩ := inv.lists
  have c_fresh : ∀ q, c ∉ lists q := fun q member ↦ not_listed q ((mem_lists q c).1 member).2
  have link_other : ∀ q, ∀ d ∈ lists q, s'.link d = s.link d := by
    intro q d member
    have d_ne : d ≠ c := by
      rintro rfl
      exact c_fresh q member
    rw [State.link, move.connections_other d d_ne]
    rfl
  refine inv.advance (c := c) mem_lists move.pool here ?_ move.magic_other
    (fun d d_ne _ ↦ .of_eq (move.connections_other d d_ne)) ?_ (chains.congr move.heads link_other)
    (fun _ _ _ ↦ .rfl) ?_ ?_ rfl rfl ?_ ?_ ?_
  · intro still
    obtain ⟨written, connection⟩ := move.connection (move.allocated.1 still)
    obtain ⟨q, q_eq, owns, rpc, -⟩ := inv_c.client
    refine ⟨?_, ⟨q, ?_, ?_, ?_, ?_⟩, ?_, inv_c.request_lt, ?_⟩
    · rw [connection]
      exact inv_c.service
    · rw [connection]
      exact q_eq
    · rw [connection]
      exact owns
    · rw [connection]
      exact rpc
    · rw [phase_c]
      exact False.elim
    · rw [connection]
      exact inv_c.handle
    · rw [phase_c, connection]
      rfl
  · intro d q d_ne d_here _ _ _ blocked
    -- another blocked client waits for another request
    have q_ne : q ≠ client := by
      rintro rfl
      have equal := blocked.waitingFor.symm.trans blocked_client.waitingFor
      exact d_ne (inv.distinct d c d_here here (Option.some.inj equal))
    refine blocked.congr (move.waiting q) ?_ rfl
    rw [move.asserted, if_neg q_ne]
  · intro q
    rw [listOf, phase_c]
    simpa using c_fresh q
  · intro q not_agent raised
    rw [move.waiting]
    by_cases q_eq : q = client
    · rw [q_eq]
      exact blocked_client.waiting
    · rw [move.asserted, if_neg q_eq] at raised
      exact inv.async q not_agent raised
  · intro r r_ne
    simp [Ledger.reply, r_ne]
  · intro r r_ne
    simp [Ledger.reply, r_ne]
  · rw [phase_c, if_neg (by exact id)]
    have before := inv.replies_pending _ inv_c.request_lt pending
    simp [Ledger.reply, before]

/-- A reply to an agent puts the handle in front of the agent's list. -/
theorem RpcReplyMove.lists {P : Platform Pt Svc} {s s' : State Pt Svc} {lists : Pt → List ℕ}
    {c : ℕ} {client : Pt} {ends : Bool} (move : RpcReplyMove P s s' c client ends)
    (chains : Lists s lists) (fresh : ∀ q, c ∉ lists q) :
    Lists s' (Function.update lists client (c :: lists client)) := by
  obtain ⟨written, replyValue, connection⟩ := move.connection
  refine (chains.insertHandle client fresh).congr ?_ ?_
  · intro q
    rw [move.heads]
    by_cases q_eq : q = client
    · subst q_eq
      simp [Spm.insertHandle]
    · simp [Spm.insertHandle, q_eq]
  · intro q d _
    by_cases d_eq : d = c
    · subst d_eq
      simp [State.link, connection, Spm.insertHandle]
    · simp [State.link, move.other d d_eq, Spm.insertHandle, d_eq]

omit [DecidableEq Pt] in
/-- A message that was handed over is in no list. -/
theorem fresh_of_delivered {P : Platform Pt Svc} {s : State Pt Svc} {L : Ledger Pt}
    {lists : Pt → List ℕ} {c : ℕ} {p : Pt} {handle : Word}
    (mem_lists : ∀ p c, c ∈ lists p ↔ s.Allocated c ∧ listOf P s L c = some p)
    (delivered : L.phaseOf c = .delivered p handle) (q : Pt) : c ∉ lists q := by
  intro member
  have list_c := ((mem_lists q c).1 member).2
  rw [listOf, delivered] at list_c
  cases list_c

/-- An agent is replied to. -/
theorem LifeInv.rpcReply {P : Platform Pt Svc} {s s' : State Pt Svc} {L : Ledger Pt} {c : ℕ}
    {p : Pt} {handle : Word} {client : Pt} {ends : Bool} {type status : ℤ} (inv : LifeInv P s L)
    (here : s.Allocated c) (delivered : L.phaseOf c = .delivered p handle)
    (client_eq : (s.connections c).pClient = some client)
    (is_rpc : tfmSpmIsRpcMsg (s.connections c) = true)
    (move : RpcReplyMove P s s' c client ends) : LifeInv P s' (L.reply c true type status) := by
  have inv_c := inv.chunk c here
  have pending : (L.phaseOf c).Pending := by
    rw [delivered]
    trivial
  have agent : (P.partition client).nsAgentMailbox = true := by
    obtain ⟨q, q_eq, -, rpc, -⟩ := inv_c.client
    rw [client_eq] at q_eq
    cases q_eq
    exact rpc.symm.trans is_rpc
  have phase_c : (L.reply c true type status).phaseOf c = .replyQueued := by
    simp [Ledger.phaseOf, Ledger.reply]
  obtain ⟨lists, chains, mem_lists⟩ := inv.lists
  have c_fresh := fresh_of_delivered mem_lists delivered
  obtain ⟨written, replyValue, connection⟩ := move.connection
  have chains' := move.lists chains c_fresh
  have pushed := mem_pushed (p := client) c_fresh
  have status_active : (s.connections c).status = .active := by
    have record := inv_c.record
    rw [delivered] at record
    exact record.1
  refine inv.advance (c := c) mem_lists
    (inv.pool.congr move.poolNext move.chunkNext move.magic) here ?_ (fun d _ ↦ by rw [move.magic])
    (fun d d_ne _ ↦ .of_eq (move.other d d_ne)) ?_ chains' (fun q ↦ (pushed q).2) ?_ ?_ rfl rfl ?_
    ?_ ?_
  · intro _
    obtain ⟨q, q_eq, owns, rpc, -⟩ := inv_c.client
    refine ⟨?_, ⟨q, ?_, ?_, ?_, ?_⟩, ?_, inv_c.request_lt, ?_⟩
    · rw [connection]
      exact inv_c.service
    · rw [connection]
      exact q_eq
    · rw [connection]
      exact owns
    · rw [connection]
      exact rpc
    · rw [phase_c]
      exact False.elim
    · rw [connection]
      exact inv_c.handle
    · rw [phase_c, connection]
      refine ⟨is_rpc, ?_, rfl⟩
      rw [status_active]
      cases ends <;> simp
  · intro d q d_ne d_here d_client d_not_rpc d_pending blocked
    have q_ne : q ≠ client := by
      rintro rfl
      obtain ⟨q', q'_eq, -, rpc, -⟩ := (inv.chunk d d_here).client
      rw [d_client] at q'_eq
      cases q'_eq
      rw [d_not_rpc, agent] at rpc
      cases rpc
    refine blocked.congr (move.waiting q) ?_ rfl
    rw [move.asserted, if_neg q_ne]
  · intro q
    have listed : listOf P s' (L.reply c true type status) c = some client := by
      rw [listOf, phase_c, connection]
      exact client_eq
    have still : s'.Allocated c := by
      rw [State.Allocated, move.magic]
      exact here
    rw [(pushed q).1, listed]
    simp [still]
  · intro q not_agent raised
    rw [move.waiting]
    have q_ne : q ≠ client := by
      rintro rfl
      rw [agent] at not_agent
      cases not_agent
    rw [move.asserted, if_neg q_ne] at raised
    exact inv.async q not_agent raised
  · intro r r_ne
    simp [Ledger.reply, r_ne]
  · intro r r_ne
    simp [Ledger.reply, r_ne]
  · rw [phase_c, if_neg (by exact id)]
    have before := inv.replies_pending _ inv_c.request_lt pending
    simp [Ledger.reply, before]

/-- A queued reply is collected and its connection released. -/
theorem LifeInv.collect {P : Platform Pt Svc} {s s₁ : State Pt Svc} {L : Ledger Pt}
    {lists : Pt → List ℕ} {p : Pt} {before after : List ℕ} {c : ℕ} (inv : LifeInv P s L)
    (chains : Lists s lists)
    (mem_lists : ∀ p c, c ∈ lists p ↔ s.Allocated c ∧ listOf P s L c = some p)
    (list_eq : lists p = before ++ c :: after)
    (chains₁ : Lists s₁ (Function.update lists p (before ++ after)))
    (take : TakeMove s s₁ p asyncMsgReply) (queued : L.phaseOf c = .replyQueued) :
    LifeInv P (releaseConnection P s₁ c) (L.collect c) := by
  have member : c ∈ lists p := by simp [list_eq]
  obtain ⟨here, -⟩ := (mem_lists p c).1 member
  have inv_c := inv.chunk c here
  have here₁ : s₁.Allocated c := by
    rw [State.Allocated, take.magic]
    exact here
  have released := released_releaseConnection
    (inv.pool.congr take.poolNext take.chunkNext take.magic) here₁
  generalize releaseConnection P s₁ c = s' at released
  generalize decide ((s₁.connections c).status = .toFree) = ends at released
  have phase_c : (L.collect c).phaseOf c = .replied := by
    simp [Ledger.phaseOf, Ledger.collect]
  have removed := mem_removed (LifeInv.disjoint mem_lists) list_eq (chains p).nodup
  have still_blocked : ∀ q r, Blocked s L q r → Blocked s' (L.collect c) q r := by
    intro q r blocked
    refine ⟨?_, ?_, blocked.waitingFor⟩
    · rw [released.partitions, take.waiting]
      exact blocked.waiting
    · rw [released.partitions]
      exact take.clear blocked.clear
  have link_other : ∀ q, ∀ d ∈ Function.update lists p (before ++ after) q,
      s'.link d = s₁.link d := by
    intro q d d_member
    have d_ne : d ≠ c := by
      rintro rfl
      exact (removed q).1 d_member
    rw [State.link, released.connections_other d d_ne]
    rfl
  refine inv.advance (c := c) mem_lists released.pool here ?_ ?_ ?_
    (fun _ q _ _ _ _ _ ↦ still_blocked q _)
    (chains₁.congr (fun q ↦ by rw [released.partitions]) link_other) (fun q ↦ (removed q).2) ?_ ?_
    rfl rfl ?_ (fun _ _ ↦ rfl) ?_
  · intro still
    have connection := released.connection (released.allocated.1 still)
    obtain ⟨link, connection₁⟩ := take.connections c
    rw [connection₁] at connection
    obtain ⟨q, q_eq, owns, rpc, -⟩ := inv_c.client
    refine ⟨?_, ⟨q, ?_, ?_, ?_, ?_⟩, ?_, inv_c.request_lt, ?_⟩
    · rw [connection]
      exact inv_c.service
    · rw [connection]
      exact q_eq
    · rw [connection]
      exact owns
    · rw [connection]
      exact rpc
    · rw [phase_c]
      exact False.elim
    · rw [connection]
      exact inv_c.handle
    · rw [phase_c, connection]
      rfl
  · intro d d_ne
    rw [released.magic_other d d_ne, take.magic]
  · intro d d_ne _
    rw [released.connections_other d d_ne]
    exact take.sameRecord d _
  · intro q
    rw [listOf, phase_c]
    simpa using (removed q).1
  · intro q not_agent raised
    rw [released.partitions] at raised ⊢
    rw [take.waiting]
    exact inv.async q not_agent fun clear ↦ raised (take.clear clear)
  · intro r r_ne
    simp [Ledger.collect, r_ne]
  · rw [phase_c, if_neg (by exact id)]
    exact inv.replies_done _ inv_c.request_lt (by
      have done : ¬(L.phaseOf c).Pending := by
        rw [queued]
        exact id
      exact done)

/-- The client of a queued request is its caller. -/
theorem SendMove.pClient_eq {P : Platform Pt Svc} {caller : Pt} {clientId : ℤ} {data : Option Word}
    {s s' : State Pt Svc} {L : Ledger Pt} {c : ℕ} {σ : Svc} (inv : LifeInv P s L)
    (move : SendMove P caller clientId data s s' c σ) (owns : (P.partition caller).Owns clientId) :
    (s'.connections c).pClient = some caller := by
  by_cases allocated : s.Allocated c
  · obtain ⟨-, client_id, -, client, -, -⟩ := move.reused allocated
    obtain ⟨q, q_eq, q_owns, -, -⟩ := (inv.chunk c allocated).client
    rw [client_id] at q_owns
    rw [client, q_eq, P.owns_unique q_owns owns]
  · exact (move.fresh allocated).1

/-- The chunk of a new request was free, or idle, so it is in no list. -/
theorem SendMove.not_listed {P : Platform Pt Svc} {caller : Pt} {clientId : ℤ} {data : Option Word}
    {s s' : State Pt Svc} {L : Ledger Pt} {lists : Pt → List ℕ} {c : ℕ} {σ : Svc}
    (inv : LifeInv P s L) (move : SendMove P caller clientId data s s' c σ)
    (mem_lists : ∀ p c, c ∈ lists p ↔ s.Allocated c ∧ listOf P s L c = some p) (q : Pt) :
    c ∉ lists q := by
  intro member
  obtain ⟨allocated, list_c⟩ := (mem_lists q c).1 member
  have phase := (inv.chunk c allocated).phase_of_idle (move.reused allocated).1
  rw [listOf, phase] at list_c
  cases list_c

/-- A request puts its handle in front of the owner's list. -/
theorem SendMove.lists {P : Platform Pt Svc} {caller : Pt} {clientId : ℤ} {data : Option Word}
    {s s' : State Pt Svc} {lists : Pt → List ℕ} {c : ℕ} {σ : Svc}
    (move : SendMove P caller clientId data s s' c σ) (chains : Lists s lists)
    (fresh : ∀ q, c ∉ lists q) :
    Lists s' (Function.update lists (P.service σ).partition
      (c :: lists (P.service σ).partition)) := by
  refine (chains.insertHandle (P.service σ).partition fresh).congr ?_ ?_
  · intro q
    rw [move.heads]
    by_cases q_eq : q = (P.service σ).partition
    · subst q_eq
      simp [Spm.insertHandle]
    · simp [Spm.insertHandle, q_eq]
  · intro q d _
    by_cases d_eq : d = c
    · subst d_eq
      simp [State.link, move.link, Spm.insertHandle]
    · simp [State.link, move.connections_other d d_eq, Spm.insertHandle, d_eq]

/-- A request is queued. -/
theorem LifeInv.send {P : Platform Pt Svc} {caller : Pt} {clientId : ℤ} {data : Option Word}
    {s s' : State Pt Svc} {L : Ledger Pt} {c : ℕ} {σ : Svc} {inLen outLen : Fin 4 → Word}
    (inv : LifeInv P s L) (running : (s.partitions caller).signalsWaiting = 0)
    (owns : (P.partition caller).Owns clientId)
    (rpc : tfmSpmIsRpcMsg (s'.connections c) = (P.partition caller).nsAgentMailbox)
    (move : SendMove P caller clientId data s s' c σ) :
    LifeInv P s' (L.send caller c (tfmSpmIsRpcMsg (s'.connections c)) inLen outLen) := by
  obtain ⟨lists, chains, mem_lists⟩ := inv.lists
  have client := move.pClient_eq inv owns
  have signal := P.signal_and_async σ
  have async_zero : asyncMsgReply ≠ 0 := by decide
  have c_fresh := move.not_listed inv mem_lists
  have asserted_async : ∀ q, (s'.partitions q).signalsAsserted &&& asyncMsgReply =
      (s.partitions q).signalsAsserted &&& asyncMsgReply := by
    intro q
    rw [move.asserted]
    split
    · exact or_and_async signal
    · rfl
  have waiting_other : ∀ q, q ≠ caller →
      (s'.partitions q).signalsWaiting = (s.partitions q).signalsWaiting := by
    intro q q_ne
    rw [move.waiting, client, if_neg]
    rintro ⟨-, equal, -⟩
    exact q_ne (Option.some.inj equal).symm
  have waitingFor_other : ∀ q, q ≠ caller →
      (L.send caller c (tfmSpmIsRpcMsg (s'.connections c)) inLen outLen).waitingFor q =
        L.waitingFor q := by
    intro q q_ne
    simp only [Ledger.send]
    split
    · rfl
    · simp [q_ne]
  have not_caller : ∀ q r, Blocked s L q r → q ≠ caller := by
    rintro q r blocked rfl
    exact async_zero (blocked.waiting.symm.trans running)
  have phase_c : (L.send caller c (tfmSpmIsRpcMsg (s'.connections c)) inLen outLen).phaseOf c =
      .queued := by
    simp [Ledger.phaseOf, Ledger.send]
  have allocated_other : ∀ d, d ≠ c → (s'.Allocated d ↔ s.Allocated d) := by
    intro d d_ne
    rw [State.Allocated, move.magic_other d d_ne]
    rfl
  have onChunk_other : ∀ d, d ≠ c →
      (L.send caller c (tfmSpmIsRpcMsg (s'.connections c)) inLen outLen).onChunk d =
        L.onChunk d := by
    intro d d_ne
    simp [Ledger.send, d_ne]
  have phase_other : ∀ d, d ≠ c → s.Allocated d →
      (L.send caller c (tfmSpmIsRpcMsg (s'.connections c)) inLen outLen).phaseOf d =
        L.phaseOf d := by
    intro d d_ne d_here
    have request_ne : L.onChunk d ≠ L.sent := (inv.chunk d d_here).request_lt.ne
    rw [Ledger.phaseOf, onChunk_other d d_ne]
    simp [Ledger.send, request_ne, Ledger.phaseOf]
  have same_other : ∀ d, d ≠ c → SameRecord (s.connections d) (s'.connections d) (L.phaseOf d) :=
    fun d d_ne ↦ .of_eq (move.connections_other d d_ne)
  refine ⟨move.pool, ?_, ?_, ?_, ?_, ?_, ?_, ?_⟩
  · intro d d_here
    by_cases d_eq : d = c
    · subst d_eq
      refine ⟨⟨σ, move.service⟩, ⟨caller, client, ?_, rpc, ?_⟩, ?_, ?_, ?_⟩
      · rw [move.client_id]
        exact owns
      · -- a client that is no agent had no reply signal, so it blocks now
        intro _ not_rpc
        have not_agent := rpc.symm.trans not_rpc
        have clear : (s.partitions caller).signalsAsserted &&& asyncMsgReply = 0 := by
          by_contra raised
          exact async_zero ((inv.async caller not_agent raised).symm.trans running)
        refine ⟨?_, (asserted_async caller).trans clear, ?_⟩
        · rw [move.waiting, if_pos ⟨not_rpc, client, (asserted_async caller).trans clear⟩]
        · simp [Ledger.send, not_rpc]
      · by_cases allocated : s.Allocated d
        · rw [(move.reused allocated).2.2.2.2.1]
          exact (inv.chunk d allocated).handle
        · exact (move.fresh allocated).2.1
      · simp [Ledger.send]
      · rw [phase_c]
        exact move.status
    · have d_before := (allocated_other d d_eq).1 d_here
      refine (inv.chunk d d_before).congr (same_other d d_eq) (onChunk_other d d_eq)
        (phase_other d d_eq d_before) (Nat.le_succ _) ?_
      intro q _ _ _ blocked
      have q_ne := not_caller q _ blocked
      exact blocked.congr (waiting_other q q_ne) (asserted_async q) (waitingFor_other q q_ne)
  · intro d e d_here e_here
    by_cases d_eq : d = c <;> by_cases e_eq : e = c
    · intro _
      rw [d_eq, e_eq]
    · have e_lt := (inv.chunk e ((allocated_other e e_eq).1 e_here)).request_lt
      subst d_eq
      rw [onChunk_other e e_eq]
      simp only [Ledger.send, Function.update_self]
      omega
    · have d_lt := (inv.chunk d ((allocated_other d d_eq).1 d_here)).request_lt
      subst e_eq
      rw [onChunk_other d d_eq]
      simp only [Ledger.send, Function.update_self]
      omega
    · rw [onChunk_other d d_eq, onChunk_other e e_eq]
      exact inv.distinct d e ((allocated_other d d_eq).1 d_here)
        ((allocated_other e e_eq).1 e_here)
  · have pushed := mem_pushed (p := (P.service σ).partition) c_fresh
    refine ⟨_, move.lists chains c_fresh, fun q d ↦ ?_⟩
    by_cases d_eq : d = c
    · subst d_eq
      rw [(pushed q).1, listOf, phase_c]
      simp [move.service, move.allocated]
    · rw [(pushed q).2 d d_eq, mem_lists, allocated_other d d_eq]
      refine and_congr_right fun d_here ↦ ?_
      rw [(same_other d d_eq).listOf (phase_other d d_eq d_here)]
  · intro q not_agent raised
    rw [asserted_async] at raised
    have waits := inv.async q not_agent raised
    have q_ne : q ≠ caller := by
      rintro rfl
      exact async_zero (waits.symm.trans running)
    rw [waiting_other q q_ne]
    exact waits
  · intro r r_lt pending
    by_cases r_eq : r = L.sent
    · rw [r_eq]
      exact inv.replies_unsent _ le_rfl
    · simp only [Ledger.send, Function.update_of_ne r_eq] at r_lt pending
      exact inv.replies_pending r (by omega) pending
  · intro r r_lt done
    by_cases r_eq : r = L.sent
    · rw [r_eq] at done
      simp [Ledger.send, Phase.Pending] at done
    · simp only [Ledger.send, Function.update_of_ne r_eq] at r_lt done
      exact inv.replies_done r (by omega) done
  · intro r r_ge
    simp only [Ledger.send] at r_ge
    exact inv.replies_unsent r (by omega)

end TrustedFirmwareM.Spm
