import TrustedFirmwareM.Spm.LifeCycle

/-!
# Disciplined runs

The check behind a message handle sees only the pool and the owner of the service.  A disciplined
partition presents a message handle only for a connection that is active and in no list, which are
facts of the manager's own state; and mailbox agents keep to the agent interface.  Under this
discipline every step is one of a few moves, and the life cycle invariant holds in every run.
-/

namespace TrustedFirmwareM.Spm

open LinkedList

variable {Pt Svc : Type}

/-- The handle is the message handle of an active connection that is linked in no list. -/
def Served (P : Platform Pt Svc) (s : State Pt Svc) (handle : Word) : Prop :=
  ∃ c, P.chunkOfHandle handle = some c ∧ (s.connections c).msg.handle = handle ∧
    (s.connections c).status = .active ∧ ∀ p, c ∉ (messageList P s p).getD []

instance [Fintype Pt] (P : Platform Pt Svc) (s : State Pt Svc) (handle : Word) :
    Decidable (Served P s handle) :=
  inferInstanceAs (Decidable (∃ c ∈ P.chunkOfHandle handle, (s.connections c).msg.handle = handle ∧
    (s.connections c).status = .active ∧ ∀ p, c ∉ (messageList P s p).getD []))

/-- The reverse handle that an interface call sets. -/
def Api.rhandle : Api → Option Word
  | .setRhandle _ rhandle => some rhandle
  | _ => none

/-- The discipline of an interface call. -/
def Api.Disciplined (P : Platform Pt Svc) (s : State Pt Svc) (caller : Pt) : Api → Prop
  | .connect _ _ _ | .call _ _ _ _ _ | .close _ _ | .get _ _ =>
      (P.partition caller).nsAgentMailbox = false
  | .agentCall _ _ params clientData => (P.partition caller).nsAgentMailbox = true ∧
      (P.partition caller).Owns (paramsClientId s.memory params) ∧ clientData ≠ 0
  | .agentConnect _ _ nsClientId clientData =>
      (P.partition caller).Owns nsClientId ∧ clientData ≠ 0
  | .agentClose _ nsClientId => (P.partition caller).Owns nsClientId
  | .rpcClientCallReply _ => (P.partition caller).nsAgentMailbox = true
  | .wait _ _ | .notify _ | .clear => True
  | .setRhandle handle _ | .read handle _ _ _ | .skip handle _ _ | .write handle _ _ _
  | .mapInvec handle _ | .unmapInvec handle _ | .mapOutvec handle _ | .unmapOutvec handle _ _
  | .reply handle _ => Served P s handle

instance [Fintype Pt] (P : Platform Pt Svc) (s : State Pt Svc) (caller : Pt) (call : Api) :
    Decidable (call.Disciplined P s caller) := by
  cases call <;> unfold Api.Disciplined <;> infer_instance

/-- The discipline of a step. -/
def Disciplined (P : Platform Pt Svc) (s : State Pt Svc) : Action Pt → Prop
  | .api caller call => call.Disciplined P s caller
  | _ => True

instance [Fintype Pt] (P : Platform Pt Svc) (s : State Pt Svc) (a : Action Pt) :
    Decidable (Disciplined P s a) := by
  cases a <;> unfold Disciplined <;> infer_instance

theorem Api.Disciplined.served {P : Platform Pt Svc} {s : State Pt Svc} {caller : Pt} {call : Api}
    {handle : Word} (disciplined : call.Disciplined P s caller)
    (msgHandle : call.msgHandle = some handle) : Served P s handle := by
  cases call <;> cases msgHandle <;> exact disciplined

/-- A message handle that passes the check for a served connection is that of a message handed to
the caller and not yet replied to. -/
theorem LifeInv.delivered_of_served {P : Platform Pt Svc} {s : State Pt Svc} {L : Ledger Pt}
    {caller : Pt} {handle : Word} {c : ℕ} (inv : LifeInv P s L) (served : Served P s handle)
    (accepted : spmMsgHandleToConnection P s caller handle = some c) :
    s.Allocated c ∧ L.phaseOf c = .delivered caller handle := by
  obtain ⟨d, d_chunk, handle_eq, active, unlinked⟩ := served
  obtain ⟨chunk, here, σ, service, owner⟩ := spmMsgHandleToConnection_eq_some.1 accepted
  rw [chunk] at d_chunk
  cases d_chunk
  refine ⟨here, ?_⟩
  obtain ⟨lists, chains, mem_lists⟩ := inv.lists
  have not_listed : ∀ p, listOf P s L c ≠ some p := by
    intro p listed
    have list_eq := chains.messageList_eq (P := P) (p := p)
      (LifeInv.bounded inv.pool mem_lists p)
    refine unlinked p ?_
    rw [list_eq]
    exact (mem_lists p c).2 ⟨here, listed⟩
  have record := (inv.chunk c here).record
  cases phase : L.phaseOf c with
  | queued =>
      refine absurd ?_ (not_listed (P.service σ).partition)
      rw [listOf, phase, service]
      rfl
  | delivered p h =>
      rw [phase] at record
      obtain ⟨-, ⟨τ, τ_eq, τ_owner⟩, h_eq⟩ := record
      rw [service] at τ_eq
      cases τ_eq
      rw [← τ_owner, owner, ← h_eq, handle_eq]
  | replyQueued =>
      obtain ⟨q, client, -⟩ := (inv.chunk c here).client
      refine absurd ?_ (not_listed q)
      rw [listOf, phase, client]
  | replied =>
      rw [phase] at record
      rw [RecordOf, active] at record
      cases record

variable [DecidableEq Pt]

/-- The signals that a partition waits for after a step that moves no request: `psa_wait` may block
its caller, and the scheduler wakes a partition up. -/
def waitingAfter (s : State Pt Svc) (p : Pt) : Action Pt → Word
  | .api caller (.wait signalMask timeout) =>
      if p = caller ∧ timeout &&& psaBlock = psaBlock ∧
          (s.partitions caller).signalsAsserted &&& signalMask = 0 then signalMask
      else (s.partitions p).signalsWaiting
  | .schedule q => if p = q then 0 else (s.partitions p).signalsWaiting
  | _ => (s.partitions p).signalsWaiting

/-- What a disciplined step does, with its meaning and the ledger after it. -/
inductive Move (P : Platform Pt Svc) (s : State Pt Svc) (L : Ledger Pt) (s' : State Pt Svc) :
    Action Pt → Effect → Ledger Pt → Prop
  /-- No request moves and no connection in use changes. -/
  | quiet {a : Action Pt} (quiet : Quiet P s s')
      (waiting : ∀ p, waitingAfter s p a = (s.partitions p).signalsWaiting) :
      Move P s L s' a .quiet L
  /-- A service works on a message that was handed to it. -/
  | message {caller : Pt} {call : Api} {c : ℕ} {handle rhandle : Word}
      (msgHandle : call.msgHandle = some handle)
      (accepted : spmMsgHandleToConnection P s caller handle = some c) (here : s.Allocated c)
      (delivered : L.phaseOf c = .delivered caller handle) (move : MessageMove s c rhandle s')
      (rhandle_eq : rhandle = call.rhandle.getD (s.connections c).msg.rhandle) :
      Move P s L s' (.api caller call) .quiet L
  /-- Signals change, or a value is returned to a waiting partition. -/
  | signals {a : Action Pt} {effect : Effect} {L' : Ledger Pt}
      (meaning : effect = .quiet ∨ ∃ p value, a = .schedule p ∧ effect = .returned value)
      (waiting : ∀ p, (s'.partitions p).signalsWaiting = waitingAfter s p a)
      (services : ∀ σ, P.irqSignals (P.service σ).partition &&& (P.service σ).signal = 0 →
        (s'.partitions (P.service σ).partition).signalsAsserted &&& (P.service σ).signal =
          (s.partitions (P.service σ).partition).signalsAsserted &&& (P.service σ).signal)
      (agents : ∀ p, (P.partition p).nsAgentMailbox = true → (P.partition p).nsAgentTz = false →
        (s'.partitions p).signalsAsserted &&& asyncMsgReply =
          (s.partitions p).signalsAsserted &&& asyncMsgReply)
      (pool : PoolInv P s') (magic : s'.magic = s.magic)
      (connections : s'.connections = s.connections)
      (heads : ∀ p, (s'.partitions p).pHandles = (s.partitions p).pHandles)
      (blocked : ∀ q r, Blocked s L q r → Blocked s' L' q r)
      (async : ∀ p, (P.partition p).nsAgentMailbox = false →
        (s'.partitions p).signalsAsserted &&& asyncMsgReply ≠ 0 →
        (s'.partitions p).signalsWaiting = asyncMsgReply)
      (ledger : ∃ waitingFor, L' = { L with waitingFor := waitingFor }) : Move P s L s' a effect L'
  /-- A request is queued: a call, a connection request on a new chunk, or a disconnection. -/
  | send {caller : Pt} {call : Api} {clientId : ℤ} {data : Option Word} {c : ℕ} {σ : Svc}
      (running : (s.partitions caller).signalsWaiting = 0)
      (owns : (P.partition caller).Owns clientId)
      (rpc : tfmSpmIsRpcMsg (s'.connections c) = (P.partition caller).nsAgentMailbox)
      (move : SendMove P caller clientId data s s' c σ)
      (kind : (∃ handle ctrl inptr outptr,
          call.callParams s.memory = some (handle, ctrl, inptr, outptr) ∧
          CallMove P caller clientId data handle ctrl inptr outptr s s' c σ) ∨
        (¬s.Allocated c ∧ (P.service σ).stateless = false ∧
          (s'.connections c).msg.type = psaIpcConnect) ∨
        (s.Allocated c ∧ (s'.connections c).msg.type = psaIpcDisconnect)) :
      Move P s L s' (.api caller call) (.sent c)
        (L.send caller c (tfmSpmIsRpcMsg (s'.connections c))
        (call.inLen s.memory) (call.outLen s.memory))
  /-- A queued message is handed to a partition. -/
  | deliver {p : Pt} {lists : Pt → List ℕ} {before after : List ℕ} {c : ℕ} {signal msg : Word}
      (chains : Lists s lists)
      (mem_lists : ∀ p c, c ∈ lists p ↔ s.Allocated c ∧ listOf P s L c = some p)
      (list_eq : lists p = before ++ c :: after)
      (chains' : Lists s' (Function.update lists p (before ++ after)))
      (take : TakeMove s s' p signal) (not_agent : (P.partition p).nsAgentMailbox = false)
      (oldest : OldestTaken P s s' p signal before c after)
      (not_reply : signal ≠ asyncMsgReply) :
      Move P s L s' (.api p (.get signal msg)) (.delivered c (s.connections c).msg)
        (L.deliver p c (s.connections c).msg.handle)
  /-- A message is replied to, for a client that waits for it or for an agent. -/
  | reply {caller : Pt} {c : ℕ} {handle : Word} {client : Pt} {σ : Svc} {status : ℤ}
      (here : s.Allocated c) (delivered : L.phaseOf c = .delivered caller handle)
      (accepted : spmMsgHandleToConnection P s caller handle = some c)
      (service : (s.connections c).service = some σ)
      (client_eq : (s.connections c).pClient = some client)
      (statuses : (s.connections c).msg.type = psaIpcConnect → status = psaSuccess ∨
        status = psaErrorConnectionRefused ∨ status = psaErrorConnectionBusy)
      (move : tfmSpmIsRpcMsg (s.connections c) = true ∧ RpcReplyMove P s s' c client
          (replyEnds P (s.connections c).msg.type σ status) ∨
        tfmSpmIsRpcMsg (s.connections c) = false ∧ ReplyMove P s s' c client
          (replyEnds P (s.connections c).msg.type σ status)) :
      Move P s L s' (.api caller (.reply handle status)) (.replied c status)
        (L.reply c (tfmSpmIsRpcMsg (s.connections c)) (s.connections c).msg.type status)
  /-- An agent collects a queued reply. -/
  | collect {p : Pt} {msg : Word} {s₁ : State Pt Svc} {lists : Pt → List ℕ}
      {before after : List ℕ} {c : ℕ} (chains : Lists s lists)
      (mem_lists : ∀ p c, c ∈ lists p ↔ s.Allocated c ∧ listOf P s L c = some p)
      (list_eq : lists p = before ++ c :: after)
      (chains₁ : Lists s₁ (Function.update lists p (before ++ after)))
      (take : TakeMove s s₁ p asyncMsgReply) (queued : L.phaseOf c = .replyQueued)
      (oldest : OldestTaken P s s₁ p asyncMsgReply before c after)
      (state : s' = releaseConnection P s₁ c) :
      Move P s L s' (.api p (.rpcClientCallReply msg)) (.collected c) (L.collect c)

/-- Every move preserves the life cycle invariant. -/
theorem LifeInv.move {P : Platform Pt Svc} {s s' : State Pt Svc} {L L' : Ledger Pt}
    {a : Action Pt} {effect : Effect} (inv : LifeInv P s L) (move : Move P s L s' a effect L') :
    LifeInv P s' L' := by
  cases move with
  | quiet quiet => exact inv.quiet quiet
  | message _ _ _ delivered move =>
      refine inv.message move ?_
      rw [delivered]
      simp
  | signals _ _ _ _ pool magic connections heads blocked async ledger =>
      obtain ⟨waitingFor, rfl⟩ := ledger
      exact inv.signals pool magic connections heads blocked async rfl rfl rfl rfl
  | send running owns rpc move _ => exact inv.send running owns rpc move
  | deliver chains mem_lists list_eq chains' take not_agent _ _ =>
      exact inv.deliver chains mem_lists list_eq chains' take not_agent
  | reply here delivered _ _ client_eq _ move =>
      rcases move with ⟨rpc, move⟩ | ⟨not_rpc, move⟩
      · rw [rpc]
        exact inv.rpcReply here delivered client_eq rpc move
      · rw [not_rpc]
        exact inv.reply here delivered client_eq not_rpc move
  | collect chains mem_lists list_eq chains₁ take queued _ state =>
      rw [state]
      exact inv.collect chains mem_lists list_eq chains₁ take queued

/-- A delivered message is that of a queued request to a service of the receiver. -/
theorem Move.of_delivered {P : Platform Pt Svc} {s s' : State Pt Svc} {L L' : Ledger Pt}
    {a : Action Pt} {c : ℕ} {body : Msg} (life : LifeInv P s L)
    (move : Move P s L s' a (.delivered c body) L') :
    s.Allocated c ∧ L.phaseOf c = .queued ∧ body = (s.connections c).msg := by
  cases move with
  | signals meaning =>
      rcases meaning with impossible | ⟨_, _, -, impossible⟩ <;> cases impossible
  | @deliver p _ _ _ _ _ _ _ mem_lists list_eq _ _ not_agent _ _ =>
      obtain ⟨here, list_c⟩ := (mem_lists p c).1 (by simp [list_eq])
      exact ⟨here, life.queued_of_listed here list_c not_agent, rfl⟩

/-! ## Chunks that a step leaves alone -/

/-- A step leaves the request on a chunk and its connection alone, up to list links. -/
structure Kept (s : State Pt Svc) (L : Ledger Pt) (s' : State Pt Svc) (L' : Ledger Pt) (d : ℕ) :
    Prop where
  /-- The chunk stays allocated, or free. -/
  allocated : s'.Allocated d ↔ s.Allocated d
  /-- Its handle stays held, or not. -/
  held : L'.held d = L.held d
  /-- It carries the same request. -/
  onChunk : L'.onChunk d = L.onChunk d
  /-- The request has come as far. -/
  phase : s.Allocated d → L'.phaseOf d = L.phaseOf d
  /-- The request has the same vectors. -/
  inLen : s.Allocated d → L'.inLen (L.onChunk d) = L.inLen (L.onChunk d)
  /-- The request has the same vectors. -/
  outLen : s.Allocated d → L'.outLen (L.onChunk d) = L.outLen (L.onChunk d)
  /-- The connection has the same service. -/
  service : s.Allocated d → (s'.connections d).service = (s.connections d).service
  /-- A connection in use does not change but for its link. -/
  busy : s.Allocated d → (s.connections d).status ≠ .idle →
    ∃ link, s'.connections d = { s.connections d with pHandles := link }

omit [DecidableEq Pt] in
/-- A step that leaves the ledger alone, except for who waits for what. -/
theorem Kept.of_ledger {s s' : State Pt Svc} {L : Ledger Pt} {waitingFor : Pt → Option ℕ} {d : ℕ}
    (allocated : s'.Allocated d ↔ s.Allocated d)
    (service : s.Allocated d → (s'.connections d).service = (s.connections d).service)
    (busy : s.Allocated d → (s.connections d).status ≠ .idle →
      ∃ link, s'.connections d = { s.connections d with pHandles := link }) :
    Kept s L s' { L with waitingFor := waitingFor } d :=
  ⟨allocated, rfl, rfl, fun _ ↦ rfl, fun _ ↦ rfl, fun _ ↦ rfl, service, busy⟩

omit [DecidableEq Pt] in
theorem Kept.of_quiet {P : Platform Pt Svc} {s s' : State Pt Svc} (L : Ledger Pt)
    (quiet : Quiet P s s') (d : ℕ) : Kept s L s' L d :=
  .of_ledger (quiet.allocated d) (fun here ↦ (quiet.identity d here).service)
    fun here used ↦ ⟨(s.connections d).pHandles, quiet.busy d here used⟩

omit [DecidableEq Pt] in
theorem Kept.of_signals {s s' : State Pt Svc} {L L' : Ledger Pt} (magic : s'.magic = s.magic)
    (connections : s'.connections = s.connections)
    (ledger : ∃ waitingFor, L' = { L with waitingFor := waitingFor }) (d : ℕ) :
    Kept s L s' L' d := by
  obtain ⟨waitingFor, rfl⟩ := ledger
  refine .of_ledger ?_ (fun _ ↦ by rw [connections]) fun _ _ ↦
    ⟨(s.connections d).pHandles, by rw [connections]⟩
  rw [State.Allocated, magic]
  rfl

omit [DecidableEq Pt] in
theorem Kept.of_message {s s' : State Pt Svc} {c d : ℕ} {rhandle : Word} (L : Ledger Pt)
    (d_ne : d ≠ c) (move : MessageMove s c rhandle s') : Kept s L s' L d := by
  obtain ⟨k, memory, rfl⟩ := move.state
  refine .of_ledger .rfl (fun _ ↦ ?_) fun _ _ ↦ ⟨(s.connections d).pHandles, ?_⟩ <;> simp [d_ne]

omit [DecidableEq Pt] in
/-- A step that changes the phase of the request on another chunk. -/
theorem Kept.of_phase {P : Platform Pt Svc} {s s' : State Pt Svc} {L L' : Ledger Pt} {c d : ℕ}
    {phase : Phase Pt} (inv : LifeInv P s L) (here : s.Allocated c) (d_ne : d ≠ c)
    (allocated : s'.Allocated d ↔ s.Allocated d)
    (connection : ∃ link, s'.connections d = { s.connections d with pHandles := link })
    (onChunk : L'.onChunk = L.onChunk) (inLen : L'.inLen = L.inLen) (outLen : L'.outLen = L.outLen)
    (held : L'.held d = L.held d)
    (phase_eq : L'.phase = Function.update L.phase (L.onChunk c) phase) : Kept s L s' L' d := by
  obtain ⟨link, connection⟩ := connection
  refine ⟨allocated, held, congrFun onChunk d, ?_, ?_, ?_, ?_, fun _ _ ↦ ⟨link, connection⟩⟩
  · intro d_here
    rw [Ledger.phaseOf, onChunk, phase_eq, Function.update_of_ne]
    · rfl
    · exact fun same ↦ d_ne (inv.distinct d c d_here here same)
  · intro _
    rw [inLen]
  · intro _
    rw [outLen]
  · intro _
    rw [connection]

theorem Kept.of_send {P : Platform Pt Svc} {s s' : State Pt Svc} {L : Ledger Pt} {caller : Pt}
    {clientId : ℤ} {data : Option Word} {c d : ℕ} {σ : Svc} {rpc : Bool}
    {inLen outLen : Fin 4 → Word} (inv : LifeInv P s L) (d_ne : d ≠ c)
    (move : SendMove P caller clientId data s s' c σ) :
    Kept s L s' (L.send caller c rpc inLen outLen) d := by
  have onChunk : (L.send caller c rpc inLen outLen).onChunk d = L.onChunk d :=
    Function.update_of_ne d_ne ..
  have older : s.Allocated d → L.onChunk d ≠ L.sent :=
    fun here ↦ (inv.chunk d here).request_lt.ne
  refine ⟨?_, rfl, onChunk, ?_, ?_, ?_, ?_, ?_⟩
  · rw [State.Allocated, move.magic_other d d_ne]
    rfl
  · intro here
    rw [Ledger.phaseOf, onChunk]
    exact Function.update_of_ne (older here) ..
  · intro here
    exact Function.update_of_ne (older here) ..
  · intro here
    exact Function.update_of_ne (older here) ..
  · intro _
    rw [move.connections_other d d_ne]
  · intro _ _
    exact ⟨(s.connections d).pHandles, move.connections_other d d_ne⟩

omit [DecidableEq Pt] in
theorem Kept.of_take {P : Platform Pt Svc} {s s' : State Pt Svc} {L : Ledger Pt} {p receiver : Pt}
    {signal handle : Word} {c d : ℕ} (inv : LifeInv P s L) (here : s.Allocated c) (d_ne : d ≠ c)
    (take : TakeMove s s' p signal) : Kept s L s' (L.deliver receiver c handle) d := by
  refine .of_phase inv here d_ne ?_ (take.connections d) rfl rfl rfl rfl rfl
  rw [State.Allocated, take.magic]
  rfl

theorem Kept.of_reply {P : Platform Pt Svc} {s s' : State Pt Svc} {L : Ledger Pt} {c d : ℕ}
    {client : Pt} {ends rpc : Bool} {type status : ℤ} (inv : LifeInv P s L) (here : s.Allocated c)
    (d_ne : d ≠ c)
    (move : RpcReplyMove P s s' c client ends ∨ ReplyMove P s s' c client ends) :
    Kept s L s' (L.reply c rpc type status) d := by
  have other : s'.magic d = s.magic d ∧ s'.connections d = s.connections d := by
    rcases move with move | move
    · exact ⟨congrFun move.magic d, move.other d d_ne⟩
    · exact ⟨move.magic_other d d_ne, move.connections_other d d_ne⟩
  refine .of_phase inv here d_ne ?_ ⟨(s.connections d).pHandles, other.2⟩ rfl rfl rfl
    (Function.update_of_ne d_ne ..) rfl
  rw [State.Allocated, other.1]
  rfl

omit [DecidableEq Pt] in
theorem Kept.of_collect {P : Platform Pt Svc} {s s₁ : State Pt Svc} {L : Ledger Pt} {p : Pt}
    {c d : ℕ} {ends : Bool} {s' : State Pt Svc} (inv : LifeInv P s L) (here : s.Allocated c)
    (d_ne : d ≠ c) (take : TakeMove s s₁ p asyncMsgReply) (released : Released P s₁ s' c ends) :
    Kept s L s' (L.collect c) d := by
  refine .of_phase inv here d_ne ?_ ?_ rfl rfl rfl rfl rfl
  · rw [State.Allocated, released.magic_other d d_ne, take.magic]
    rfl
  · rw [released.connections_other d d_ne]
    exact take.connections d

/-! ## Classifying steps -/

omit [DecidableEq Pt] in
/-- The client interface presents identifiers that the caller owns. -/
theorem tfmSpmGetClientId_owns {P : Platform Pt Svc} {caller : Pt} {nsId clientId : ℤ}
    (not_agent : (P.partition caller).nsAgentMailbox = false)
    (run : tfmSpmGetClientId P caller nsId = some clientId) :
    (P.partition caller).Owns clientId := by
  cases agent : (P.partition caller).nsAgent with
  | false =>
      simp only [tfmSpmGetClientId, agent, Bool.false_eq_true, if_false,
        Option.ite_none_right_eq_some] at run
      obtain ⟨-, pid⟩ := run
      simpa [PartitionLoadInfo.Owns, agent] using (Option.some.inj pid).symm
  | true =>
      have tz : (P.partition caller).nsAgentTz = true := by
        simpa [PartitionLoadInfo.nsAgent, not_agent] using agent
      simp only [tfmSpmGetClientId, agent, if_true, tfmNspmGetCurrentClientId,
        P.regions_registered caller tz, Option.ite_none_right_eq_some, Option.some.injEq] at run
      obtain ⟨sign, rfl⟩ := run
      have negative := of_decide_eq_true sign.symm
      rw [tzNsAgentClientIdTranslate] at negative ⊢
      simp only [PartitionLoadInfo.Owns, agent, if_true]
      split at negative
      · simp at negative
      next nsId_lt =>
      split at negative
      · simp at negative
      next nsId_ge =>
      rw [if_neg nsId_lt, if_neg nsId_ge]
      simp only [Option.getD_some] at negative nsId_ge ⊢
      omega

/-- A request without private data of its own is an agent request just if the caller is an agent. -/
theorem SendMove.isRpcMsg_of_none {P : Platform Pt Svc} {caller : Pt} {clientId : ℤ}
    {s s' : State Pt Svc} {L : Ledger Pt} {c : ℕ} {σ : Svc} (inv : LifeInv P s L)
    (owns : (P.partition caller).Owns clientId)
    (move : SendMove P caller clientId none s s' c σ)
    (origin : s.Allocated c ∨ (P.partition caller).nsAgentMailbox = false) :
    tfmSpmIsRpcMsg (s'.connections c) = (P.partition caller).nsAgentMailbox := by
  by_cases allocated : s.Allocated c
  · obtain ⟨-, client_id, -, -, -, data⟩ := move.reused allocated
    obtain ⟨q, -, q_owns, rpc, -⟩ := (inv.chunk c allocated).client
    rw [client_id] at q_owns
    rw [← P.owns_unique q_owns owns, ← rpc, tfmSpmIsRpcMsg, tfmSpmIsRpcMsg, move.client_id,
      client_id, data]
    rfl
  · have data := (move.fresh allocated).2.2
    rw [origin.resolve_left allocated, tfmSpmIsRpcMsg, data]
    rfl

/-- A request with private data is an agent request just if there is data and the identifier is
non-secure. -/
theorem SendMove.isRpcMsg_of_some {P : Platform Pt Svc} {caller : Pt} {clientId : ℤ} {data : Word}
    {s s' : State Pt Svc} {c : ℕ} {σ : Svc}
    (move : SendMove P caller clientId (some data) s s' c σ) :
    tfmSpmIsRpcMsg (s'.connections c) = (data ≠ 0 && clientId < 0) := by
  have entered : (s'.connections c).clientData = data := by
    by_cases allocated : s.Allocated c
    · exact (move.reused allocated).2.2.2.2.2
    · exact (move.fresh allocated).2.2
  rw [tfmSpmIsRpcMsg, entered, move.client_id]

omit [DecidableEq Pt] in
theorem owns_neg {info : PartitionLoadInfo} {clientId : ℤ} (agent : info.nsAgentMailbox = true)
    (owns : info.Owns clientId) : clientId < 0 := by
  simp only [PartitionLoadInfo.Owns, PartitionLoadInfo.nsAgent, agent, Bool.or_true,
    if_true] at owns
  exact owns.1

theorem move_of_call {P : Platform Pt Svc} {s : State Pt Svc} {L : Ledger Pt} {caller : Pt}
    {call : Api} {clientId : ℤ} {data : Option Word} {handle ctrl inptr outptr : Word}
    {outcome : Outcome Pt Svc} (inv : LifeInv P s L)
    (running : (s.partitions caller).signalsWaiting = 0)
    (owns : (P.partition caller).Owns clientId)
    (not_wait : ∀ p, waitingAfter s p (.api caller call) = (s.partitions p).signalsWaiting)
    (params : call.callParams s.memory = some (handle, ctrl, inptr, outptr))
    (data_eq : data = none ∧ (P.partition caller).nsAgentMailbox = false ∨
      ∃ word, data = some word ∧ word ≠ 0 ∧ (P.partition caller).nsAgentMailbox = true)
    (run : callClientIdAssociated P s caller clientId handle ctrl inptr outptr data =
      some outcome) :
    Move P s L outcome.state (.api caller call) outcome.effect
      (L.observe s outcome.state (.api caller call) outcome.effect) := by
  rcases call_cases inv.pool run with ⟨effect, quiet⟩ | ⟨c, σ, effect, move⟩
  · rw [effect]
    exact .quiet quiet not_wait
  · rw [effect]
    refine .send running owns ?_ move.send (.inl ⟨handle, ctrl, inptr, outptr, params, move⟩)
    rcases data_eq with ⟨rfl, not_agent⟩ | ⟨word, rfl, word_ne, agent⟩
    · exact move.send.isRpcMsg_of_none inv owns (.inr not_agent)
    · rw [move.send.isRpcMsg_of_some, agent]
      simpa using ⟨word_ne, owns_neg agent owns⟩

theorem move_of_connect {P : Platform Pt Svc} {s : State Pt Svc} {L : Ledger Pt} {caller : Pt}
    {call : Api} {clientId : ℤ} {sid version clientData : Word} {outcome : Outcome Pt Svc}
    (inv : LifeInv P s L) (running : (s.partitions caller).signalsWaiting = 0)
    (owns : (P.partition caller).Owns clientId)
    (not_wait : ∀ p, waitingAfter s p (.api caller call) = (s.partitions p).signalsWaiting)
    (data_eq : (clientData ≠ 0 ∧ clientId < 0) ↔ (P.partition caller).nsAgentMailbox = true)
    (run : connectClientIdAssociated P s caller sid version clientId clientData =
      some outcome) :
    Move P s L outcome.state (.api caller call) outcome.effect
      (L.observe s outcome.state (.api caller call) outcome.effect) := by
  rcases connect_cases inv.pool run with
    ⟨effect, quiet⟩ | ⟨c, σ, effect, move, free, not_stateless, type⟩
  · rw [effect]
    exact .quiet quiet not_wait
  · rw [effect]
    refine .send running owns ?_ move (.inr (.inl ⟨free, not_stateless, type⟩))
    rw [move.isRpcMsg_of_some]
    cases agent : (P.partition caller).nsAgentMailbox with
    | true => simpa using data_eq.2 agent
    | false =>
        rw [agent] at data_eq
        simpa using data_eq

theorem move_of_close {P : Platform Pt Svc} {s : State Pt Svc} {L : Ledger Pt} {caller : Pt}
    {call : Api} {clientId : ℤ} {handle : Word} {outcome : Outcome Pt Svc} (inv : LifeInv P s L)
    (running : (s.partitions caller).signalsWaiting = 0)
    (owns : (P.partition caller).Owns clientId)
    (not_wait : ∀ p, waitingAfter s p (.api caller call) = (s.partitions p).signalsWaiting)
    (run : spmPsaCloseClientIdAssociated P s caller handle clientId = some outcome) :
    Move P s L outcome.state (.api caller call) outcome.effect
      (L.observe s outcome.state (.api caller call) outcome.effect) := by
  rcases close_cases inv.pool run with ⟨effect, quiet⟩ | ⟨c, σ, effect, move, allocated, type⟩
  · rw [effect]
    exact .quiet quiet not_wait
  · rw [effect]
    exact .send running owns (move.isRpcMsg_of_none inv owns (.inl allocated)) move
      (.inr (.inr ⟨allocated, type⟩))

/-- A change of one partition's signals that keeps its list and raises no reply signal. -/
theorem move_of_setPartition {P : Platform Pt Svc} {s : State Pt Svc} {L L' : Ledger Pt}
    {a : Action Pt} {effect : Effect} (inv : LifeInv P s L) (p : Pt) (r : Partition)
    (head : r.pHandles = (s.partitions p).pHandles)
    (clear : (s.partitions p).signalsAsserted &&& asyncMsgReply = 0 →
      r.signalsAsserted &&& asyncMsgReply = 0)
    (waiting : r.signalsWaiting = (s.partitions p).signalsWaiting ∨
      ((P.partition p).nsAgentMailbox = false → r.signalsAsserted &&& asyncMsgReply = 0) ∧
        ∀ n, ¬Blocked s L p n)
    (waitingFor : ∀ q n, Blocked s L q n → L'.waitingFor q = L.waitingFor q)
    (ledger : ∃ waitingFor, L' = { L with waitingFor := waitingFor })
    (meaning : effect = .quiet ∨ ∃ p value, a = .schedule p ∧ effect = .returned value)
    (after : ∀ q, waitingAfter s q a =
      if q = p then r.signalsWaiting else (s.partitions q).signalsWaiting)
    (services : ∀ σ, (P.service σ).partition = p →
      P.irqSignals p &&& (P.service σ).signal = 0 →
      r.signalsAsserted &&& (P.service σ).signal =
        (s.partitions p).signalsAsserted &&& (P.service σ).signal)
    (agents : (P.partition p).nsAgentMailbox = true → (P.partition p).nsAgentTz = false →
      r.signalsAsserted &&& asyncMsgReply = (s.partitions p).signalsAsserted &&& asyncMsgReply) :
    Move P s L (s.setPartition p r) a effect L' := by
  refine .signals meaning ?_ ?_ ?_ (inv.pool.congr rfl rfl rfl) rfl rfl ?_ ?_ ?_ ledger
  · intro q
    rw [after, setPartition_partitions]
    by_cases q_eq : q = p
    · subst q_eq
      simp
    · simp [q_eq]
  · intro σ apart
    by_cases owner : (P.service σ).partition = p
    · rw [owner] at apart ⊢
      simpa using services σ owner apart
    · simp [owner]
  · intro q agent not_tz
    by_cases q_eq : q = p
    · subst q_eq
      simpa using agents agent not_tz
    · simp [q_eq]
  · intro q
    by_cases q_eq : q = p
    · subst q_eq
      simpa using head
    · simp [q_eq]
  · intro q n blocked
    by_cases q_eq : q = p
    · subst q_eq
      rcases waiting with same | ⟨-, not_blocked⟩
      · refine ⟨?_, ?_, (waitingFor q n blocked).trans blocked.waitingFor⟩
        · simpa using same.trans blocked.waiting
        · simpa using clear blocked.clear
      · exact absurd blocked (not_blocked n)
    · refine blocked.congr ?_ ?_ (waitingFor q n blocked) <;> simp [q_eq]
  · intro q not_agent
    by_cases q_eq : q = p
    · subst q_eq
      simp only [setPartition_partitions, Function.update_self]
      intro raised
      rcases waiting with same | ⟨none_raised, -⟩
      · rw [same]
        exact inv.async q not_agent fun zero ↦ raised (clear zero)
      · exact absurd (none_raised not_agent) raised
    · simpa [q_eq] using inv.async q not_agent

omit [DecidableEq Pt] in
/-- A running partition is not blocked. -/
theorem not_blocked_of_running {s : State Pt Svc} {L : Ledger Pt} {p : Pt}
    (running : (s.partitions p).signalsWaiting = 0) (n : ℕ) : ¬Blocked s L p n :=
  fun blocked ↦ absurd (blocked.waiting.symm.trans running) (by decide)

theorem move_of_assert {P : Platform Pt Svc} {s : State Pt Svc} {L : Ledger Pt} {a : Action Pt}
    (inv : LifeInv P s L) (p : Pt) {signal : Word} (reserved : signal &&& asyncMsgReply = 0)
    (apart : ∀ σ, (P.service σ).partition = p → P.irqSignals p &&& (P.service σ).signal = 0 →
      signal &&& (P.service σ).signal = 0)
    (not_wait : ∀ q, waitingAfter s q a = (s.partitions q).signalsWaiting) :
    Move P s L (backendAssertSignal s p signal).2 a .quiet L := by
  refine move_of_setPartition inv p _ rfl ?_ (.inl rfl) (fun _ _ _ ↦ rfl) ⟨_, rfl⟩ (.inl rfl) ?_
    ?_ ?_
  · intro clear
    rw [← clear]
    exact or_and_async reserved
  · intro q
    rw [not_wait]
    split
    · next q_eq => rw [q_eq]
    · rfl
  · intro σ owner irq_apart
    exact or_and_of_disjoint (apart σ owner irq_apart)
  · intro _ _
    exact or_and_async reserved

/-- A vector function or `psa_set_rhandle` works on a message that was handed to its caller. -/
theorem move_of_message {P : Platform Pt Svc} {s : State Pt Svc} {L : Ledger Pt} {caller : Pt}
    {handle : Word} {outcome : Outcome Pt Svc} (inv : LifeInv P s L) (call : Api)
    (served : Served P s handle) (msgHandle : call.msgHandle = some handle)
    (spec : outcome.effect = .quiet ∧ ∃ c, spmMsgHandleToConnection P s caller handle = some c ∧
      MessageMove s c (call.rhandle.getD (s.connections c).msg.rhandle) outcome.state) :
    Move P s L outcome.state (.api caller call) outcome.effect
      (L.observe s outcome.state (.api caller call) outcome.effect) := by
  obtain ⟨effect, c, accepted, move⟩ := spec
  obtain ⟨here, delivered⟩ := inv.delivered_of_served served accepted
  rw [effect]
  exact .message msgHandle accepted here delivered move rfl

theorem move_of_get {P : Platform Pt Svc} {s : State Pt Svc} {L : Ledger Pt} {caller : Pt}
    {signal msg : Word} {outcome : Outcome Pt Svc} (inv : LifeInv P s L)
    (running : (s.partitions caller).signalsWaiting = 0)
    (not_agent : (P.partition caller).nsAgentMailbox = false)
    (run : tfmSpmPartitionPsaGet P s caller signal msg = some outcome) :
    Move P s L outcome.state (.api caller (.get signal msg)) outcome.effect
      (L.observe s outcome.state (.api caller (.get signal msg)) outcome.effect) := by
  obtain ⟨lists, chains, mem_lists⟩ := inv.lists
  rcases get_cases chains (LifeInv.disjoint mem_lists) (LifeInv.bounded inv.pool mem_lists) run with
    ⟨effect, state⟩ | ⟨before, c, after, list_eq, effect, chains', take, oldest, -⟩
  · rw [effect, state]
    exact .quiet (.refl inv.pool) fun _ ↦ rfl
  · rw [effect]
    refine .deliver chains mem_lists list_eq chains' take not_agent oldest ?_
    -- a partition that is no agent has a reply signal only while it waits for it
    rintro rfl
    exact absurd ((inv.async caller not_agent oldest.raised).symm.trans running) (by decide)

theorem move_of_reply {P : Platform Pt Svc} {s : State Pt Svc} {L : Ledger Pt} {caller : Pt}
    {handle : Word} {status : ℤ} {outcome : Outcome Pt Svc} (inv : LifeInv P s L)
    (served : Served P s handle)
    (run : tfmSpmPartitionPsaReply P s caller handle status = some outcome) :
    Move P s L outcome.state (.api caller (.reply handle status)) outcome.effect
      (L.observe s outcome.state (.api caller (.reply handle status)) outcome.effect) := by
  obtain ⟨c, σ, client, accepted, service, client_eq, effect, statuses, move⟩ :=
    reply_cases inv.pool run
  obtain ⟨here, delivered⟩ := inv.delivered_of_served served accepted
  have active : (s.connections c).status = .active := by
    have record := (inv.chunk c here).record
    rw [delivered] at record
    exact record.1
  rw [effect]
  refine .reply here delivered accepted service client_eq statuses (move.imp_right ?_)
  rintro ⟨not_rpc, move⟩
  exact ⟨not_rpc, move (by simp [active])⟩

omit [DecidableEq Pt] in
/-- An agent owns no service, so its list holds queued replies only, and each points to itself. -/
theorem LifeInv.replyQueued_of_listed {P : Platform Pt Svc} {s : State Pt Svc} {L : Ledger Pt}
    {p : Pt} {c : ℕ} (inv : LifeInv P s L) (agent : (P.partition p).nsAgentMailbox = true)
    (here : s.Allocated c) (list_c : listOf P s L c = some p) :
    L.phaseOf c = .replyQueued ∧ P.chunkAt (s.connections c).msg.rhandle = some c := by
  have inv_c := inv.chunk c here
  have queued : L.phaseOf c = .replyQueued := by
    rw [listOf] at list_c
    cases phase : L.phaseOf c with
    | queued =>
        obtain ⟨σ, service⟩ := inv_c.service
        rw [phase, service] at list_c
        have owner : (P.service σ).partition = p := Option.some.inj list_c
        have no_service := P.mailbox_no_service σ
        rw [owner, agent] at no_service
        exact absurd rfl no_service
    | delivered _ _ =>
        rw [phase] at list_c
        cases list_c
    | replyQueued => rfl
    | replied =>
        rw [phase] at list_c
        cases list_c
  refine ⟨queued, ?_⟩
  have record := inv_c.record
  rw [queued] at record
  rw [record.2.2, P.chunkAt_chunkAddress (inv.pool.allocated_lt c here).le]

theorem move_of_collect {P : Platform Pt Svc} {s : State Pt Svc} {L : Ledger Pt} {caller : Pt}
    {msg : Word} {outcome : Outcome Pt Svc} (inv : LifeInv P s L)
    (agent : (P.partition caller).nsAgentMailbox = true)
    (run : tfmRpcClientCallReply P s caller msg = some outcome) :
    Move P s L outcome.state (.api caller (.rpcClientCallReply msg)) outcome.effect
      (L.observe s outcome.state (.api caller (.rpcClientCallReply msg)) outcome.effect) := by
  obtain ⟨lists, chains, mem_lists⟩ := inv.lists
  obtain ⟨before, c, after, d, s₁, list_eq, pointer, chains₁, take, oldest, effect, state, -⟩ :=
    rpcClientCallReply_cases chains (LifeInv.disjoint mem_lists)
      (LifeInv.bounded inv.pool mem_lists) run
  obtain ⟨here, list_c⟩ := (mem_lists caller c).1 (by simp [list_eq])
  obtain ⟨queued, own⟩ := inv.replyQueued_of_listed agent here list_c
  rw [own] at pointer
  cases pointer
  rw [effect]
  exact .collect chains mem_lists list_eq chains₁ take queued oldest state

theorem move_of_wait {P : Platform Pt Svc} {s : State Pt Svc} {L : Ledger Pt} {caller : Pt}
    {mask timeout : Word} {outcome : Outcome Pt Svc} (inv : LifeInv P s L)
    (running : (s.partitions caller).signalsWaiting = 0)
    (run : tfmSpmPartitionPsaWait P s caller mask timeout = some outcome) :
    Move P s L outcome.state (.api caller (.wait mask timeout)) outcome.effect
      (L.observe s outcome.state (.api caller (.wait mask timeout)) outcome.effect) := by
  rw [tfmSpmPartitionPsaWait] at run
  split at run
  · cases run
  split at run
  · next blocking =>
      cases run
      dsimp only
      split
      · next nothing =>
          refine move_of_setPartition inv caller _ rfl id (.inr ⟨fun not_agent ↦ ?_, ?_⟩)
            (fun _ _ _ ↦ rfl) ⟨_, rfl⟩ (.inl rfl) ?_ (fun _ _ _ ↦ rfl) fun _ _ ↦ rfl
          · by_contra raised
            exact absurd ((inv.async caller not_agent raised).symm.trans running) (by decide)
          · exact not_blocked_of_running running
          · intro q
            simp [waitingAfter, blocking, nothing]
      · next something =>
          refine .quiet (.refl inv.pool) fun p ↦ ?_
          rw [waitingAfter, if_neg fun condition ↦ something condition.2.2]
  · next polling =>
      cases run
      refine .quiet (.refl inv.pool) fun p ↦ ?_
      rw [waitingAfter, if_neg fun condition ↦ polling condition.2.1]

/-- The scheduler's query returns a value to a partition that is not blocked on a request. -/
theorem move_of_schedule {P : Platform Pt Svc} {s s' : State Pt Svc} {L : Ledger Pt} {p : Pt}
    {value : ℤ} (inv : LifeInv P s L) (query : queryState P s p = some (value, s')) :
    Move P s L s' (.schedule p) (.returned value) (L.wake p) := by
  have not_blocked : ∀ n, ¬Blocked s L p n := by
    intro n blocked
    rw [queryState, blocked.waiting, BitVec.and_comm, blocked.clear] at query
    simp at query
  have woken : ∀ q n, Blocked s L q n → (L.wake p).waitingFor q = L.waitingFor q := by
    intro q n blocked
    have q_ne : q ≠ p := by
      rintro rfl
      exact not_blocked n blocked
    simp [Ledger.wake, q_ne]
  rw [queryState] at query
  split at query
  · cases query
  next some_signal =>
  split at query
  · next reply =>
      cases query
      refine move_of_setPartition inv p _ rfl and_and_async_eq_zero (.inr ⟨fun _ ↦ ?_, not_blocked⟩)
        woken ⟨_, rfl⟩ (.inr ⟨p, _, rfl, rfl⟩) (fun _ ↦ rfl) ?_ ?_
      · rw [BitVec.and_assoc, show ~~~asyncMsgReply &&& asyncMsgReply = 0 by decide]
        exact BitVec.and_zero
      · intro σ _ _
        exact and_not_and_of_disjoint (P.signal_and_async σ)
      · intro agent not_tz
        exact absurd (P.signalsAllowed_agent agent not_tz) reply.2
  next not_reply =>
  cases query
  refine move_of_setPartition inv p _ rfl id (.inr ⟨fun not_agent ↦ ?_, not_blocked⟩) woken ⟨_, rfl⟩
    (.inr ⟨p, _, rfl, rfl⟩) (fun _ ↦ rfl) (fun _ _ _ ↦ rfl) fun _ _ ↦ rfl
  -- a raised reply signal would have been what the partition waits for
  by_contra raised
  refine not_reply ⟨?_, ?_⟩
  · rw [inv.async p not_agent raised]
    exact and_async_eq raised
  · intro allowed
    rw [P.signalsAllowed_async not_agent] at allowed
    exact absurd allowed (by decide)

/-- Every disciplined step is a move. -/
theorem move_of_step {P : Platform Pt Svc} {s s' : State Pt Svc} {L : Ledger Pt} {a : Action Pt}
    {effect : Effect} (inv : LifeInv P s L) (disciplined : Disciplined P s a)
    (step_eq : step P s a = some (effect, s')) :
      Move P s L s' a effect (L.observe s s' a effect) := by
  cases a with
  | schedule p =>
      simp only [step, Option.map_eq_some_iff, Prod.exists] at step_eq
      obtain ⟨value, s₁, query, result⟩ := step_eq
      cases result
      exact move_of_schedule inv query
  | irq p signal =>
      rw [step] at step_eq
      split at step_eq
      · next allowed =>
          cases step_eq
          -- the signal lies inside the interrupt signals of the partition
          have inside : signal = signal &&& P.irqSignals p := by
            rw [← BitVec.and_allOnes (x := signal), ← BitVec.or_not_self (x := P.irqSignals p),
              BitVec.and_or_distrib_left, allowed]
            simp [BitVec.and_assoc]
          refine move_of_assert inv p ?_ ?_ fun _ ↦ rfl
          · rw [inside, BitVec.and_assoc, P.irq_reserved]
            exact BitVec.and_zero
          · intro σ _ apart
            rw [inside, BitVec.and_assoc, apart]
            exact BitVec.and_zero
      · cases step_eq
  | store address value =>
      cases step_eq
      exact .quiet ⟨inv.pool.congr rfl rfl rfl, fun _ ↦ .rfl, rfl, fun c _ ↦ .refl _,
        fun _ _ _ ↦ rfl, fun _ _ ↦ rfl⟩ fun _ ↦ rfl
  | api caller call =>
      obtain ⟨running, result, run⟩ := step_api_eq_some step_eq
      cases call with
      | connect nsId sid version =>
          simp only [Api.run, tfmSpmClientPsaConnect, Option.bind_eq_bind,
            Option.bind_eq_some_iff] at run
          obtain ⟨clientId, client_id, run⟩ := run
          refine move_of_connect inv running (tfmSpmGetClientId_owns disciplined client_id)
            (fun _ ↦ rfl) ?_ run
          have not_agent : (P.partition caller).nsAgentMailbox = false := disciplined
          simp [not_agent]
      | call nsId handle ctrl inptr outptr =>
          simp only [Api.run, tfmSpmClientPsaCall, Option.bind_eq_bind,
            Option.bind_eq_some_iff] at run
          obtain ⟨clientId, client_id, run⟩ := run
          exact move_of_call inv running (tfmSpmGetClientId_owns disciplined client_id)
            (fun _ ↦ rfl) rfl (.inl ⟨rfl, disciplined⟩) run
      | close nsId handle =>
          simp only [Api.run, tfmSpmClientPsaClose, Option.bind_eq_bind,
            Option.bind_eq_some_iff] at run
          obtain ⟨clientId, client_id, run⟩ := run
          exact move_of_close inv running (tfmSpmGetClientId_owns disciplined client_id)
            (fun _ ↦ rfl) run
      | agentCall handle control params clientData =>
          obtain ⟨agent, owns, data⟩ := disciplined
          simp only [Api.run, tfmSpmAgentPsaCall] at run
          split at run
          · cases run
            exact .quiet (.refl inv.pool) fun _ ↦ rfl
          · exact move_of_call inv running owns (fun _ ↦ rfl) rfl
              (.inr ⟨clientData, rfl, data, agent⟩) run
      | agentConnect sid version nsClientId clientData =>
          obtain ⟨owns, data⟩ := disciplined
          simp only [Api.run, tfmSpmAgentPsaConnect] at run
          split at run
          · cases run
          · next agent =>
              rw [not_or, not_not, not_le] at agent
              exact move_of_connect inv running owns (fun _ ↦ rfl)
                ⟨fun _ ↦ agent.1, fun _ ↦ ⟨data, agent.2⟩⟩ run
      | agentClose handle nsClientId =>
          simp only [Api.run, tfmSpmAgentPsaClose] at run
          split at run
          · cases run
          · exact move_of_close inv running disciplined (fun _ ↦ rfl) run
      | wait signalMask timeout => exact move_of_wait inv running run
      | get signal msg => exact move_of_get inv running disciplined run
      | setRhandle handle rhandle =>
          exact move_of_message inv (.setRhandle handle rhandle) disciplined rfl
            (psaSetRhandle_spec run)
      | read handle idx buffer numBytes =>
          exact move_of_message inv (.read handle idx buffer numBytes) disciplined rfl
            (psaRead_spec run)
      | skip handle idx numBytes =>
          exact move_of_message inv (.skip handle idx numBytes) disciplined rfl
            (psaSkip_spec run)
      | write handle idx buffer numBytes =>
          exact move_of_message inv (.write handle idx buffer numBytes) disciplined rfl
            (psaWrite_spec run)
      | mapInvec handle idx =>
          exact move_of_message inv (.mapInvec handle idx) disciplined rfl (psaMapInvec_spec run)
      | unmapInvec handle idx =>
          exact move_of_message inv (.unmapInvec handle idx) disciplined rfl
            (psaUnmapInvec_spec run)
      | mapOutvec handle idx =>
          exact move_of_message inv (.mapOutvec handle idx) disciplined rfl (psaMapOutvec_spec run)
      | unmapOutvec handle idx len =>
          exact move_of_message inv (.unmapOutvec handle idx len) disciplined rfl
            (psaUnmapOutvec_spec run)
      | reply handle status => exact move_of_reply inv disciplined run
      | notify partitionId =>
          simp only [Api.run, tfmSpmPartitionPsaNotify, Option.bind_eq_bind,
            Option.bind_eq_some_iff] at run
          obtain ⟨p, -, run⟩ := run
          cases run
          refine move_of_assert inv p (by decide) (fun σ _ _ ↦ ?_) fun _ ↦ rfl
          rw [BitVec.and_comm]
          exact P.signal_and_doorbell σ
      | clear =>
          simp only [Api.run, tfmSpmPartitionPsaClear] at run
          split at run
          · cases run
          · cases run
            refine move_of_setPartition inv caller _ rfl and_and_async_eq_zero (.inl rfl)
              (fun _ _ _ ↦ rfl) ⟨_, rfl⟩ (.inl rfl) (fun q ↦ ?_) ?_ ?_
            · split
              · next q_eq => rw [q_eq]; rfl
              · rfl
            · intro σ _ _
              exact and_not_and_of_disjoint (P.signal_and_doorbell σ)
            · intro _ _
              exact and_not_and_of_disjoint (by decide)
      | rpcClientCallReply msg => exact move_of_collect inv disciplined run

/-! ## Runs -/

omit [DecidableEq Pt] in
/-- The free list of the cleared pool. -/
theorem initial_chain (count : ℕ) :
    Chain (fun c ↦ if c = 0 then none else some (c - 1))
      (if count = 0 then none else some (count - 1)) (List.range count).reverse := by
  induction count with
  | zero => exact .nil
  | succ count ih =>
      rw [List.range_succ, List.reverse_append]
      simpa using Chain.cons ih

omit [DecidableEq Pt] in
theorem not_allocated_initial {P : Platform Pt Svc} (trailer : P.trailer ≠ poolMagicAllocated)
    (memory : Word → BitVec 8) (behind : Connection Pt Svc) (c : ℕ) :
    ¬(initialState P memory behind).Allocated c := by
  intro allocated
  simp only [State.Allocated, initialState] at allocated
  split at allocated
  · exact absurd allocated (by decide)
  · exact trailer allocated

omit [DecidableEq Pt] in
theorem lifeInv_initial {P : Platform Pt Svc} (trailer : P.trailer ≠ poolMagicAllocated)
    (memory : Word → BitVec 8) (behind : Connection Pt Svc) :
    LifeInv P (initialState P memory behind) .empty := by
  have nothing := not_allocated_initial trailer memory behind
  refine ⟨⟨⟨_, initial_chain P.connHandleMaxNum, fun c ↦ ?_⟩, fun c allocated ↦
    absurd allocated (nothing c)⟩, fun c allocated ↦ absurd allocated (nothing c),
    fun c _ allocated ↦ absurd allocated (nothing c), ⟨fun _ ↦ [], fun _ ↦ .nil, ?_⟩, ?_, ?_, ?_,
    fun _ _ ↦ rfl⟩
  · simp only [List.mem_reverse, List.mem_range, ne_eq, iff_self_and]
    intro _
    exact nothing c
  · intro p c
    simp [nothing c]
  · intro p _ raised
    exact absurd BitVec.zero_and raised
  · intro r r_lt
    exact absurd r_lt (Nat.not_lt_zero r)
  · intro r r_lt
    exact absurd r_lt (Nat.not_lt_zero r)

/-- The life cycle invariant holds in every disciplined run. -/
theorem lifeInv_of_reached {P : Platform Pt Svc} (trailer : P.trailer ≠ poolMagicAllocated)
    {guard : State Pt Svc × Ledger Pt → Action Pt → Prop}
    (disciplined : ∀ x a, guard x a → Disciplined P x.1 a) {x : State Pt Svc × Ledger Pt}
    (reached : Reached P guard x) : LifeInv P x.1 x.2 := by
  obtain ⟨memory, behind, reaches⟩ := reached
  refine reaches.invariant (I := fun x ↦ LifeInv P x.1 x.2)
    (lifeInv_initial trailer memory behind) ?_
  intro before a after inv allowed step_eq
  obtain ⟨effect, step_eq, ledger⟩ := tracedStep_eq_some.1 step_eq
  rw [ledger]
  exact inv.move (move_of_step inv (disciplined before a allowed) step_eq)

end TrustedFirmwareM.Spm
