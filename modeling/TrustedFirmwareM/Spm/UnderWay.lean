import TrustedFirmwareM.Spm.Identity

/-!
# Requests of an agent that are under way

Between the moment an agent's request is queued and the moment the agent collects its reply, the
chunk of the request is allocated, belongs to the agent and is not idle.  Steps of others change
neither this set of chunks nor what the agent needs to know to pass the reply on.
-/

namespace TrustedFirmwareM.Spm

open LinkedList

variable {Pt Svc : Type}

/-- A request of an agent is under way on a chunk. -/
def State.UnderWay (s : State Pt Svc) (agent : Pt) (c : ℕ) : Prop :=
  s.Allocated c ∧ (s.connections c).pClient = some agent ∧ (s.connections c).status ≠ .idle

/-- Two connection records hold the same request of an agent. -/
structure SameRequest (k k' : Connection Pt Svc) : Prop where
  /-- Private data of the agent. -/
  clientData : k'.clientData = k.clientData
  /-- Address of the output vectors. -/
  callerOutvec : k'.callerOutvec = k.callerOutvec
  /-- Message type. -/
  type : k'.msg.type = k.msg.type
  /-- Output vector lengths. -/
  outSize : k'.msg.outSize = k.msg.outSize

theorem SameRequest.refl (k : Connection Pt Svc) : SameRequest k k := ⟨rfl, rfl, rfl, rfl⟩

/-- A step leaves the requests of an agent under way. -/
structure AgentFrame (s s' : State Pt Svc) (agent : Pt) (effect : Effect) (d : ℕ) : Prop where
  /-- The same requests are under way. -/
  underWay : s'.UnderWay agent d ↔ s.UnderWay agent d
  /-- They are the same requests. -/
  same : s.UnderWay agent d → SameRequest (s.connections d) (s'.connections d)
  /-- Only a reply changes their results. -/
  replyValue : s.UnderWay agent d → (∀ status, effect ≠ .replied d status) →
    (s'.connections d).replyValue = (s.connections d).replyValue

/-- A chunk whose connection changes only its link. -/
theorem AgentFrame.of_link {s s' : State Pt Svc} {agent : Pt} {effect : Effect} {d : ℕ}
    (allocated : s'.Allocated d ↔ s.Allocated d)
    (link : ∃ link, s'.connections d = { s.connections d with pHandles := link }) :
    AgentFrame s s' agent effect d := by
  obtain ⟨link, connection⟩ := link
  refine ⟨?_, fun _ ↦ ?_, fun _ _ ↦ ?_⟩
  · rw [State.UnderWay, State.UnderWay, connection, allocated]
  · rw [connection]
    exact ⟨rfl, rfl, rfl, rfl⟩
  · rw [connection]

/-- A chunk that belongs to another client before and after a step, or is not in use. -/
theorem AgentFrame.of_other {s s' : State Pt Svc} {agent : Pt} {effect : Effect} {d : ℕ}
    (before : ¬s.UnderWay agent d) (after : ¬s'.UnderWay agent d) :
    AgentFrame s s' agent effect d :=
  ⟨⟨fun here ↦ absurd here after, fun here ↦ absurd here before⟩, fun here ↦ absurd here before,
    fun here ↦ absurd here before⟩

theorem Quiet.agentFrame {P : Platform Pt Svc} {s s' : State Pt Svc} (quiet : Quiet P s s')
    (agent : Pt) (effect : Effect) (d : ℕ) : AgentFrame s s' agent effect d := by
  have unchanged : s.UnderWay agent d → s'.connections d = s.connections d :=
    fun here ↦ quiet.busy d here.1 here.2.2
  refine ⟨⟨fun here' ↦ ?_, fun here ↦ ?_⟩, fun here ↦ ?_, fun here _ ↦ ?_⟩
  · have here := (quiet.allocated d).1 here'.1
    have same := quiet.identity d here
    exact ⟨here, same.pClient ▸ here'.2.1, same.status ▸ here'.2.2⟩
  · refine ⟨(quiet.allocated d).2 here.1, ?_⟩
    rw [unchanged here]
    exact here.2
  · rw [unchanged here]
    exact .refl _
  · rw [unchanged here]

/-- A queued reply is collected by the client of its connection. -/
theorem LifeInv.client_of_replyQueued {P : Platform Pt Svc} {s : State Pt Svc} {L : Ledger Pt}
    {p : Pt} {c : ℕ} (list_c : listOf P s L c = some p) (queued : L.phaseOf c = .replyQueued) :
    (s.connections c).pClient = some p := by
  rwa [listOf, queued] at list_c

/-- A reply to a message of an agent is queued for the agent. -/
theorem LifeInv.isRpcMsg_of_agent {P : Platform Pt Svc} {s : State Pt Svc} {L : Ledger Pt}
    {agent : Pt} {c : ℕ} (life : LifeInv P s L)
    (mailbox : (P.partition agent).nsAgentMailbox = true) (here : s.Allocated c)
    (client : (s.connections c).pClient = some agent) :
    tfmSpmIsRpcMsg (s.connections c) = true := by
  obtain ⟨q, client_eq, -, rpc, -⟩ := (life.chunk c here).client
  rw [client] at client_eq
  cases client_eq
  rw [rpc, mailbox]

variable [DecidableEq Pt]

/-- A reply queued for the agent leaves its request under way. -/
theorem RpcReplyMove.agentFrame {P : Platform Pt Svc} {s s' : State Pt Svc} {agent client : Pt}
    {c : ℕ} {ends : Bool} {status : ℤ} (move : RpcReplyMove P s s' c client ends)
    (active : (s.connections c).status = .active) (d : ℕ) :
    AgentFrame s s' agent (.replied c status) d := by
  have allocated : s'.Allocated d ↔ s.Allocated d := by rw [State.Allocated, move.magic]; rfl
  by_cases d_eq : d = c
  · subst d_eq
    obtain ⟨written, replyValue, connection⟩ := move.connection
    refine ⟨?_, fun _ ↦ ?_, fun _ other ↦ absurd rfl (other status)⟩
    · rw [State.UnderWay, State.UnderWay, allocated, connection, active]
      cases ends <;> simp
    · rw [connection]
      exact ⟨rfl, rfl, rfl, rfl⟩
  · exact .of_link allocated ⟨(s.connections d).pHandles, move.other d d_eq⟩

/-- A step that does not send or collect a request of an agent leaves its requests under way. -/
theorem Move.agentFrame {P : Platform Pt Svc} {s s' : State Pt Svc} {L L' : Ledger Pt}
    {a : Action Pt} {effect : Effect} {agent : Pt}
    (mailbox : (P.partition agent).nsAgentMailbox = true) (life : LifeInv P s L)
    (move : Move P s L s' a effect L')
    (not_sent : ∀ call c, a = .api agent call → effect ≠ .sent c)
    (not_collected : ∀ call c, a = .api agent call → effect ≠ .collected c) (d : ℕ) :
    AgentFrame s s' agent effect d := by
  cases move with
  | quiet quiet _ => exact quiet.agentFrame agent .quiet d
  | @message _ _ c _ _ _ _ _ _ move _ =>
      obtain ⟨k, memory, state⟩ := move.state
      by_cases d_eq : d = c
      · subst d_eq
        have same := move.identity
        refine ⟨?_, fun _ ↦ ⟨same.clientData, move.callerOutvec, move.type, move.outSize⟩, ?_⟩
        · rw [State.UnderWay, State.UnderWay, same.pClient, same.status, state]
          rfl
        · intro _ _
          exact move.replyValue
      · rw [state]
        exact .of_link .rfl ⟨(s.connections d).pHandles, by simp [d_eq]⟩
  | signals _ _ _ _ _ magic connections =>
      refine .of_link ?_ ⟨(s.connections d).pHandles, by rw [connections]⟩
      rw [State.Allocated, magic]
      rfl
  | @send caller call _ _ c _ _ owns _ move _ =>
      by_cases d_eq : d = c
      · subst d_eq
        refine .of_other ?_ ?_
        · exact fun here ↦ here.2.2 (move.reused here.1).1
        · intro here
          have client := move.pClient_eq life owns
          rw [here.2.1] at client
          cases client
          exact not_sent call d rfl rfl
      · refine .of_link ?_ ⟨(s.connections d).pHandles, move.connections_other d d_eq⟩
        rw [State.Allocated, move.magic_other d d_eq]
        rfl
  | deliver _ _ _ _ take _ _ _ =>
      refine .of_link ?_ (take.connections d)
      rw [State.Allocated, take.magic]
      rfl
  | @reply _ c _ _ _ _ here delivered _ _ _ _ move =>
      have active : (s.connections c).status = .active := by
        have record := (life.chunk c here).record
        rw [delivered] at record
        exact record.1
      rcases move with ⟨-, move⟩ | ⟨not_rpc, move⟩
      · exact move.agentFrame active d
      · by_cases d_eq : d = c
        · subst d_eq
          have other : (s.connections d).pClient ≠ some agent := by
            intro client
            rw [life.isRpcMsg_of_agent mailbox here client] at not_rpc
            cases not_rpc
          refine .of_other (fun here ↦ other here.2.1) fun here' ↦ ?_
          obtain ⟨written, connection⟩ := move.connection (move.allocated.1 here'.1)
          refine other ?_
          rw [← here'.2.1, connection]
        · refine .of_link ?_ ⟨(s.connections d).pHandles, move.connections_other d d_eq⟩
          rw [State.Allocated, move.magic_other d d_eq]
          rfl
  | @collect p _ s₁ _ _ _ c _ mem_lists list_eq _ take queued _ state =>
      obtain ⟨link, connection⟩ := take.connections d
      obtain ⟨here, list_c⟩ := (mem_lists p c).1 (by simp [list_eq])
      have client := LifeInv.client_of_replyQueued list_c queued
      by_cases d_eq : d = c
      · subst d_eq
        have other : (s.connections d).pClient ≠ some agent := by
          intro is_agent
          rw [client] at is_agent
          cases is_agent
          exact not_collected _ d rfl rfl
        refine .of_other (fun here ↦ other here.2.1) fun here' ↦ other ?_
        rw [← here'.2.1, state, releaseConnection]
        split
        · next freed =>
            have still := here'.1
            rw [state, releaseConnection, if_pos freed] at still
            simp only [State.Allocated, tfmPoolFree, Function.update_self] at still
            exact absurd still (by decide)
        · simp [connection]
      · rw [state, releaseConnection]
        split
        · refine .of_link ?_ ⟨link, by simp [tfmPoolFree, d_eq, connection]⟩
          simp [State.Allocated, tfmPoolFree, d_eq, take.magic]
        · refine .of_link ?_ ⟨link, by simp [d_eq, connection]⟩
          simp [State.Allocated, take.magic]

/-- The request that an agent sends is a new one under way. -/
theorem SendMove.underWay {P : Platform Pt Svc} {s s' : State Pt Svc} {L : Ledger Pt} {agent : Pt}
    {clientId : ℤ} {data : Option Word} {c : ℕ} {σ : Svc} (life : LifeInv P s L)
    (owns : (P.partition agent).Owns clientId) (move : SendMove P agent clientId data s s' c σ) :
    ¬s.UnderWay agent c ∧ s'.UnderWay agent c ∧
      ∀ d, d ≠ c → ∀ effect, AgentFrame s s' agent effect d := by
  refine ⟨fun here ↦ here.2.2 (move.reused here.1).1, ⟨move.allocated, ?_, ?_⟩, ?_⟩
  · exact move.pClient_eq life owns
  · rw [move.status]
    simp
  · intro d d_ne effect
    refine .of_link ?_ ⟨(s.connections d).pHandles, move.connections_other d d_ne⟩
    rw [State.Allocated, move.magic_other d d_ne]
    rfl

/-- The request whose reply an agent collects is no longer under way. -/
theorem Move.of_collected {P : Platform Pt Svc} {s s' : State Pt Svc} {L L' : Ledger Pt}
    {agent : Pt} {msg : Word} {c : ℕ} (life : LifeInv P s L)
    (move : Move P s L s' (.api agent (.rpcClientCallReply msg)) (.collected c) L') :
    s.UnderWay agent c ∧ L.phaseOf c = .replyQueued ∧ ¬s'.UnderWay agent c ∧
      ∀ d, d ≠ c → ∀ effect, AgentFrame s s' agent effect d := by
  cases move with
  | signals meaning =>
      rcases meaning with impossible | ⟨_, _, -, impossible⟩ <;> cases impossible
  | @collect _ _ s₁ _ _ _ _ _ mem_lists list_eq _ take queued _ state =>
      obtain ⟨here, list_c⟩ := (mem_lists agent c).1 (by simp [list_eq])
      have client := LifeInv.client_of_replyQueued list_c queued
      have record := (life.chunk c here).record
      rw [queued] at record
      refine ⟨⟨here, client, record.2.1⟩, queued, ?_, ?_⟩
      · rintro ⟨here', -, in_use⟩
        rw [state, releaseConnection] at here' in_use
        split at here'
        · simp only [State.Allocated, tfmPoolFree, Function.update_self] at here'
          exact absurd here' (by decide)
        · next not_free =>
            rw [if_neg not_free] at in_use
            simp at in_use
      · intro d d_ne effect
        obtain ⟨link, connection⟩ := take.connections d
        rw [state, releaseConnection]
        split
        · refine .of_link ?_ ⟨link, by simp [tfmPoolFree, d_ne, connection]⟩
          simp [State.Allocated, tfmPoolFree, d_ne, take.magic]
        · refine .of_link ?_ ⟨link, by simp [d_ne, connection]⟩
          simp [State.Allocated, take.magic]

/-! ## Replies that wait for the agent -/

/-- The reply to a request of an agent is in the agent's list. -/
def State.ReplyWaits (P : Platform Pt Svc) (s : State Pt Svc) (agent : Pt) (c : ℕ) : Prop :=
  c ∈ (messageList P s agent).getD []

omit [DecidableEq Pt] in
theorem LifeInv.replyWaits_iff {P : Platform Pt Svc} {s : State Pt Svc} {L : Ledger Pt} {agent : Pt}
    {c : ℕ} (life : LifeInv P s L) (mailbox : (P.partition agent).nsAgentMailbox = true) :
    s.ReplyWaits P agent c ↔
      s.Allocated c ∧ (s.connections c).pClient = some agent ∧ L.phaseOf c = .replyQueued := by
  obtain ⟨lists, chains, mem_lists⟩ := life.lists
  rw [State.ReplyWaits, chains.messageList_eq (LifeInv.bounded life.pool mem_lists agent),
    Option.getD_some, mem_lists]
  constructor
  · rintro ⟨here, list_c⟩
    obtain ⟨queued, -⟩ := life.replyQueued_of_listed mailbox here list_c
    exact ⟨here, LifeInv.client_of_replyQueued list_c queued, queued⟩
  · rintro ⟨here, client, queued⟩
    rw [listOf, queued]
    exact ⟨here, client⟩

omit [DecidableEq Pt] in
theorem LifeInv.underWay_of_replyWaits {P : Platform Pt Svc} {s : State Pt Svc} {L : Ledger Pt}
    {agent : Pt} {c : ℕ} (life : LifeInv P s L)
    (mailbox : (P.partition agent).nsAgentMailbox = true) (waits : s.ReplyWaits P agent c) :
    s.UnderWay agent c := by
  obtain ⟨here, client, queued⟩ := (life.replyWaits_iff mailbox).1 waits
  have record := (life.chunk c here).record
  rw [queued] at record
  exact ⟨here, client, record.2.1⟩

/-- The reply to a request that has just been sent does not wait. -/
theorem Move.not_replyWaits_of_sent {P : Platform Pt Svc} {s s' : State Pt Svc} {L L' : Ledger Pt}
    {a : Action Pt} {agent : Pt} {c : ℕ} (life : LifeInv P s L)
    (mailbox : (P.partition agent).nsAgentMailbox = true) (move : Move P s L s' a (.sent c) L') :
    ¬s'.ReplyWaits P agent c := by
  intro waits
  obtain ⟨-, -, queued⟩ := ((life.move move).replyWaits_iff mailbox).1 waits
  cases move with
  | signals meaning =>
      rcases meaning with impossible | ⟨_, _, -, impossible⟩ <;> cases impossible
  | send => simp [Ledger.phaseOf, Ledger.send] at queued

/-- A reply that waits after a step waited before, unless the step is that reply. -/
theorem Move.replyQueued {P : Platform Pt Svc} {s s' : State Pt Svc} {L L' : Ledger Pt}
    {a : Action Pt} {effect : Effect} {c : ℕ} (life : LifeInv P s L) (here : s.Allocated c)
    (move : Move P s L s' a effect L') (queued : L'.phaseOf c = .replyQueued) :
    L.phaseOf c = .replyQueued ∨ ∃ status, effect = .replied c status := by
  -- a step that enters a new phase for the request on one chunk
  have other : ∀ d phase, s.Allocated d →
      L'.phaseOf c = Function.update L.phase (L.onChunk d) phase (L.onChunk c) →
      phase ≠ .replyQueued → L.phaseOf c = .replyQueued := by
    intro d phase d_here phase_eq not_queued
    by_cases c_eq : c = d
    · subst c_eq
      rw [queued, Function.update_self] at phase_eq
      exact absurd phase_eq.symm not_queued
    · have request_ne : L.onChunk c ≠ L.onChunk d := fun same ↦
        c_eq (life.distinct c d here d_here same)
      rw [queued, Function.update_of_ne request_ne] at phase_eq
      exact phase_eq.symm
  cases move with
  | quiet | message => exact .inl queued
  | signals _ _ _ _ _ _ _ _ _ _ ledger =>
      obtain ⟨waitingFor, rfl⟩ := ledger
      exact .inl queued
  | @send caller call _ _ d _ _ _ _ _ _ =>
      by_cases c_eq : c = d
      · subst c_eq
        simp [Ledger.phaseOf, Ledger.send] at queued
      · have request_ne : L.onChunk c ≠ L.sent := (life.chunk c here).request_lt.ne
        simp only [Ledger.phaseOf, Ledger.send, Function.update_of_ne c_eq,
          Function.update_of_ne request_ne] at queued
        exact .inl queued
  | @deliver p lists before after d _ _ _ mem_lists list_eq _ _ _ _ _ =>
      obtain ⟨d_here, -⟩ := (mem_lists p d).1 (by simp [list_eq])
      exact .inl (other d _ d_here rfl (by simp))
  | @reply _ d _ _ _ status d_here _ _ _ _ _ _ =>
      by_cases c_eq : c = d
      · subst c_eq
        exact .inr ⟨status, rfl⟩
      · have request_ne : L.onChunk c ≠ L.onChunk d := fun same ↦
          c_eq (life.distinct c d here d_here same)
        simp only [Ledger.phaseOf, Ledger.reply, Function.update_of_ne request_ne] at queued
        exact .inl queued
  | @collect p _ _ lists before after d _ mem_lists list_eq _ _ _ _ _ =>
      obtain ⟨d_here, -⟩ := (mem_lists p d).1 (by simp [list_eq])
      exact .inl (other d _ d_here rfl (by simp))

theorem Move.replyWaits {P : Platform Pt Svc} {s s' : State Pt Svc} {L L' : Ledger Pt}
    {a : Action Pt} {effect : Effect} {agent : Pt} {c : ℕ} (life : LifeInv P s L)
    (mailbox : (P.partition agent).nsAgentMailbox = true) (move : Move P s L s' a effect L')
    (frame : AgentFrame s s' agent effect c) (waits : s'.ReplyWaits P agent c) :
    s.ReplyWaits P agent c ∨ ∃ status, effect = .replied c status := by
  have life' := life.move move
  obtain ⟨-, -, queued⟩ := (life'.replyWaits_iff mailbox).1 waits
  have here := frame.underWay.1 (life'.underWay_of_replyWaits mailbox waits)
  rcases move.replyQueued life here.1 queued with before | replied
  · exact .inl ((life.replyWaits_iff mailbox).2 ⟨here.1, here.2.1, before⟩)
  · exact .inr replied

end TrustedFirmwareM.Spm
