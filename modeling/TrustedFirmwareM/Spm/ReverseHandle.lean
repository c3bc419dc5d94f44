import TrustedFirmwareM.Spm.Discipline

/-!
# Reverse handles

A service may attach a value to a connection, and every later message of the connection should carry
it.  The reply to a request of a mailbox client is queued at the agent with its reverse handle
replaced by the address of the connection, and nothing puts the value of the service back.
-/

namespace TrustedFirmwareM.Spm

open LinkedList

variable {Pt Svc : Type} [DecidableEq Pt]

/-- The value that the service set last on the connection of each chunk, 0 for a new connection. -/
def noteRhandle (P : Platform Pt Svc) (s s' : State Pt Svc) (note : ℕ → Word) :
    Action Pt → ℕ → Word
  | .api caller (.setRhandle handle rhandle), c =>
      if spmMsgHandleToConnection P s caller handle = some c then rhandle else note c
  | _, c =>
      if s.magic c ≠ poolMagicAllocated ∧ s'.magic c = poolMagicAllocated then 0 else note c

/-- A step of the system together with its ledger and the values set by services. -/
def notedStep (P : Platform Pt Svc) (x : (State Pt Svc × Ledger Pt) × (ℕ → Word))
    (a : Action Pt) : Option ((State Pt Svc × Ledger Pt) × (ℕ → Word)) :=
  (tracedStep P x.1 a).map fun y ↦ (y, noteRhandle P x.1.1 y.1 x.2 a)

/-- States reached by runs whose steps satisfy a condition, with the values set by services. -/
def NotedReached (P : Platform Pt Svc) (guard : State Pt Svc → Action Pt → Prop)
    (x : (State Pt Svc × Ledger Pt) × (ℕ → Word)) : Prop :=
  ∃ memory behind, Run.Reaches (notedStep P) (fun x a ↦ guard x.1.1 a)
    ((initialState P memory behind, .empty), fun _ ↦ 0) x

/-- A message handed to a service carries the value that the service set last on its connection. -/
def RhandlePersists (P : Platform Pt Svc) (x : (State Pt Svc × Ledger Pt) × (ℕ → Word))
    (a : Action Pt) : Prop :=
  ∀ caller signal msg c body s', a = .api caller (.get signal msg) → signal ≠ asyncMsgReply →
    step P x.1.1 a = some (.delivered c body, s') → body.rhandle = x.2 c

/-- The step is disciplined, and it does not reply to a mailbox client on a connection that goes
on. -/
def KeepsRhandle (P : Platform Pt Svc) (s : State Pt Svc) (a : Action Pt) : Prop :=
  Disciplined P s a ∧ ∀ caller handle status c σ, a = .api caller (.reply handle status) →
    P.chunkOfHandle handle = some c → (s.connections c).service = some σ →
    tfmSpmIsRpcMsg (s.connections c) = true →
    replyEnds P (s.connections c).msg.type σ status = true

/-! ## The invariant -/

omit [DecidableEq Pt] in
/-- What is known of an allocated chunk: a queued reply ends its connection, and any other
connection carries the value of its service. -/
structure RhandleOf (s : State Pt Svc) (L : Ledger Pt) (c : ℕ) (value : Word) : Prop where
  /-- Connections with a queued reply are about to be freed. -/
  ends : L.phaseOf c = .replyQueued → (s.connections c).status = .toFree
  /-- Other connections carry the value. -/
  value : L.phaseOf c ≠ .replyQueued → (s.connections c).msg.rhandle = value

/-- Every allocated chunk is in order. -/
def RhandleInv (s : State Pt Svc) (L : Ledger Pt) (note : ℕ → Word) : Prop :=
  ∀ c, s.Allocated c → RhandleOf s L c (note c)

omit [DecidableEq Pt] in
theorem RhandleOf.congr {s s' : State Pt Svc} {L L' : Ledger Pt} {c : ℕ} {value : Word}
    (old : RhandleOf s L c value) (phase : L'.phaseOf c = L.phaseOf c)
    (connection : ∃ link, s'.connections c = { s.connections c with pHandles := link }) :
    RhandleOf s' L' c value := by
  obtain ⟨link, connection⟩ := connection
  refine ⟨?_, ?_⟩
  · rw [phase, connection]
    exact old.ends
  · rw [phase, connection]
    exact old.value

omit [DecidableEq Pt] in
/-- Setting a reverse handle. -/
theorem RhandleInv.set {P : Platform Pt Svc} {s s' : State Pt Svc} {L : Ledger Pt}
    {note : ℕ → Word} {caller : Pt} {handle rhandle : Word} {c : ℕ} (inv : RhandleInv s L note)
    (accepted : spmMsgHandleToConnection P s caller handle = some c)
    (delivered : L.phaseOf c = .delivered caller handle) (move : MessageMove s c rhandle s') :
    RhandleInv s' L (noteRhandle P s s' note (.api caller (.setRhandle handle rhandle))) := by
  have rhandle_eq := move.rhandle_eq
  obtain ⟨k, memory, rfl⟩ := move.state
  intro d here
  by_cases d_eq : d = c
  · subst d_eq
    refine ⟨fun queued ↦ ?_, fun _ ↦ ?_⟩
    · rw [delivered] at queued
      cases queued
    · rw [rhandle_eq, noteRhandle, if_pos accepted]
  · have same : noteRhandle P s { s.setConnection c k with memory := memory } note
        (.api caller (.setRhandle handle rhandle)) d = note d := by
      rw [noteRhandle, if_neg]
      rw [accepted]
      exact fun found ↦ d_eq (Option.some.inj found).symm
    rw [same]
    refine (inv d here).congr rfl ⟨(s.connections d).pHandles, ?_⟩
    simp [d_eq]

omit [DecidableEq Pt] in
/-- The values after a step that sets none. -/
theorem noteRhandle_eq {P : Platform Pt Svc} {s s' : State Pt Svc} {note : ℕ → Word}
    {a : Action Pt}
    (not_set : ∀ caller handle rhandle, a ≠ .api caller (.setRhandle handle rhandle))
    (c : ℕ) : noteRhandle P s s' note a c =
      if s.magic c ≠ poolMagicAllocated ∧ s'.magic c = poolMagicAllocated then 0 else note c := by
  unfold noteRhandle
  split
  · exact absurd rfl (not_set _ _ _)
  · rfl

omit [DecidableEq Pt] in
/-- A chunk that stays allocated keeps its value in a step that sets none. -/
theorem noteRhandle_of_allocated {P : Platform Pt Svc} {s s' : State Pt Svc} {note : ℕ → Word}
    {a : Action Pt}
    (not_set : ∀ caller handle rhandle, a ≠ .api caller (.setRhandle handle rhandle))
    {c : ℕ} (here : s.Allocated c) : noteRhandle P s s' note a c = note c := by
  rw [noteRhandle_eq not_set, if_neg fun condition ↦ condition.1 here]

omit [DecidableEq Pt] in
/-- A step that leaves all chunks but one alone keeps them in order. -/
theorem RhandleInv.of_kept {P : Platform Pt Svc} {s s' : State Pt Svc} {L L' : Ledger Pt}
    {note : ℕ → Word} {a : Action Pt} {c : ℕ} (inv : RhandleInv s L note)
    (not_set : ∀ caller handle rhandle, a ≠ .api caller (.setRhandle handle rhandle))
    (kept : ∀ d, d ≠ c → Kept s L s' L' d)
    (connections : ∀ d, d ≠ c → s.Allocated d →
      ∃ link, s'.connections d = { s.connections d with pHandles := link })
    (changed : s'.Allocated c → RhandleOf s' L' c (noteRhandle P s s' note a c)) :
    RhandleInv s' L' (noteRhandle P s s' note a) := by
  intro d here
  by_cases d_eq : d = c
  · subst d_eq
    exact changed here
  · have here' := (kept d d_eq).allocated.1 here
    rw [noteRhandle_of_allocated not_set here']
    exact (inv d here').congr ((kept d d_eq).phase here') (connections d d_eq here')

/-- Every other move keeps the chunks in order. -/
theorem RhandleInv.move {P : Platform Pt Svc} {s s' : State Pt Svc} {L L' : Ledger Pt}
    {note : ℕ → Word} {a : Action Pt} {effect : Effect} (life : LifeInv P s L)
    (inv : RhandleInv s L note) (keeps : KeepsRhandle P s a)
    (not_set : ∀ caller handle rhandle, a ≠ .api caller (.setRhandle handle rhandle))
    (move : Move P s L s' a effect L') : RhandleInv s' L' (noteRhandle P s s' note a) := by
  cases move with
  | quiet quiet _ =>
      intro d here
      have here' := (quiet.allocated d).1 here
      rw [noteRhandle_of_allocated not_set here']
      refine ⟨fun queued ↦ ?_, fun not_queued ↦ ?_⟩
      · rw [(quiet.identity d here').status]
        exact (inv d here').ends queued
      · rw [quiet.rhandle d here']
        exact (inv d here').value not_queued
  | @message caller call c handle rhandle msgHandle accepted here delivered move rhandle_eq =>
      have value : rhandle = (s.connections c).msg.rhandle := by
        rw [rhandle_eq]
        cases call <;> first | rfl | exact absurd rfl (not_set _ _ _)
      refine inv.of_kept (c := c) not_set (fun d d_ne ↦ .of_message L d_ne move) ?_ fun here' ↦ ?_
      · intro d d_ne _
        obtain ⟨k, memory, rfl⟩ := move.state
        exact ⟨(s.connections d).pHandles, by simp [d_ne]⟩
      · rw [noteRhandle_of_allocated not_set here]
        refine ⟨fun queued ↦ ?_, fun not_queued ↦ ?_⟩
        · rw [delivered] at queued
          cases queued
        · rw [move.rhandle_eq, value]
          exact (inv c here).value not_queued
  | signals _ _ _ _ _ magic connections _ _ _ ledger =>
      intro d here
      have kept := Kept.of_signals magic connections ledger d
      have here' := kept.allocated.1 here
      rw [noteRhandle_of_allocated not_set here']
      exact (inv d here').congr (kept.phase here') ⟨(s.connections d).pHandles, by rw [connections]⟩
  | @send caller call clientId data c σ _ _ _ move _ =>
      refine inv.of_kept (c := c) not_set (fun d d_ne ↦ .of_send life d_ne move) ?_ fun _ ↦ ?_
      · intro d d_ne _
        exact ⟨(s.connections d).pHandles, move.connections_other d d_ne⟩
      · have queued : (L.send caller c (tfmSpmIsRpcMsg (s'.connections c)) (call.inLen s.memory)
            (call.outLen s.memory)).phaseOf c = .queued := by
          simp [Ledger.phaseOf, Ledger.send]
        refine ⟨fun reply ↦ ?_, fun _ ↦ ?_⟩
        · rw [queued] at reply
          cases reply
        · by_cases here : s.Allocated c
          · have idle := (life.chunk c here).phase_of_idle (move.reused here).1
            rw [noteRhandle_of_allocated not_set here, move.reused_rhandle here]
            refine (inv c here).value ?_
            rw [idle]
            simp
          · rw [noteRhandle_eq not_set, if_pos ⟨here, move.allocated⟩]
            exact move.fresh_rhandle here
  | @deliver p lists before after c signal msg _ mem_lists list_eq _ take not_agent _ _ =>
      obtain ⟨here, list_c⟩ := (mem_lists p c).1 (by simp [list_eq])
      have queued := life.queued_of_listed here list_c not_agent
      refine inv.of_kept (c := c) not_set (fun d d_ne ↦ .of_take life here d_ne take)
        (fun d _ _ ↦ take.connections d) fun _ ↦ ?_
      rw [noteRhandle_of_allocated not_set here]
      obtain ⟨link, connection⟩ := take.connections c
      refine ⟨fun reply ↦ ?_, fun _ ↦ ?_⟩
      · simp [Ledger.phaseOf, Ledger.deliver] at reply
      · rw [connection]
        refine (inv c here).value ?_
        rw [queued]
        simp
  | @reply caller c handle client σ status here delivered accepted service _ _ move =>
      refine inv.of_kept (c := c) not_set
        (fun d d_ne ↦ .of_reply life here d_ne (move.imp And.right And.right)) ?_ fun here' ↦ ?_
      · intro d d_ne _
        refine ⟨(s.connections d).pHandles, ?_⟩
        rcases move with ⟨-, move⟩ | ⟨-, move⟩
        · exact move.other d d_ne
        · exact move.connections_other d d_ne
      rw [noteRhandle_of_allocated not_set here]
      rcases move with ⟨rpc, move⟩ | ⟨not_rpc, move⟩
      · have ends := keeps.2 caller handle status c σ rfl
          (spmMsgHandleToConnection_eq_some.1 accepted).1 service rpc
        obtain ⟨written, replyValue, connection⟩ := move.connection
        refine ⟨fun _ ↦ ?_, fun not_queued ↦ ?_⟩
        · rw [connection, ends, if_pos rfl]
        · simp [Ledger.phaseOf, Ledger.reply, rpc] at not_queued
      · obtain ⟨written, connection⟩ := move.connection (move.allocated.1 here')
        refine ⟨fun queued ↦ ?_, fun _ ↦ ?_⟩
        · simp [Ledger.phaseOf, Ledger.reply, not_rpc] at queued
        · rw [connection]
          refine (inv c here).value ?_
          rw [delivered]
          simp
  | @collect p msg s₁ lists before after c _ mem_lists list_eq _ take queued _ state =>
      obtain ⟨here, -⟩ := (mem_lists p c).1 (by simp [list_eq])
      have here₁ : s₁.Allocated c := by
        rw [State.Allocated, take.magic]
        exact here
      have released := released_releaseConnection
        (life.pool.congr take.poolNext take.chunkNext take.magic) here₁
      obtain ⟨link, connection⟩ := take.connections c
      rw [state]
      refine inv.of_kept (c := c) not_set (fun d d_ne ↦ .of_collect life here d_ne take released) ?_
        fun here' ↦ ?_
      · intro d d_ne _
        rw [released.connections_other d d_ne]
        exact take.connections d
      · -- the reply that was queued had ended the connection
        have goes_on := released.allocated.1 here'
        rw [connection, (inv c here).ends queued] at goes_on
        simp at goes_on

/-! ## Runs -/

theorem notedStep_eq_some {P : Platform Pt Svc} {x y : (State Pt Svc × Ledger Pt) × (ℕ → Word)}
    {a : Action Pt} (step_eq : notedStep P x a = some y) :
    tracedStep P x.1 a = some y.1 ∧ y.2 = noteRhandle P x.1.1 y.1.1 x.2 a := by
  rw [notedStep, Option.map_eq_some_iff] at step_eq
  obtain ⟨z, step_eq, rfl⟩ := step_eq
  exact ⟨step_eq, rfl⟩

theorem NotedReached.reached {P : Platform Pt Svc} {guard : State Pt Svc → Action Pt → Prop}
    {x : (State Pt Svc × Ledger Pt) × (ℕ → Word)} (reached : NotedReached P guard x) :
    Reached P (fun x a ↦ guard x.1 a) x.1 := by
  obtain ⟨memory, behind, reaches⟩ := reached
  exact ⟨memory, behind, reaches.map Prod.fst (fun _ _ _ step_eq ↦ (notedStep_eq_some step_eq).1)
    fun _ _ allowed ↦ allowed⟩

theorem RhandleInv.step {P : Platform Pt Svc} {x y : (State Pt Svc × Ledger Pt) × (ℕ → Word)}
    {a : Action Pt} (life : LifeInv P x.1.1 x.1.2) (inv : RhandleInv x.1.1 x.1.2 x.2)
    (keeps : KeepsRhandle P x.1.1 a) (step_eq : notedStep P x a = some y) :
    RhandleInv y.1.1 y.1.2 y.2 := by
  obtain ⟨traced, note⟩ := notedStep_eq_some step_eq
  obtain ⟨effect, step_eq, ledger⟩ := tracedStep_eq_some.1 traced
  rw [note, ledger]
  by_cases set : ∃ caller handle rhandle, a = .api caller (.setRhandle handle rhandle)
  · obtain ⟨caller, handle, rhandle, rfl⟩ := set
    obtain ⟨-, result, run⟩ := step_api_eq_some step_eq
    obtain ⟨quiet, c, accepted, move⟩ := psaSetRhandle_spec run
    obtain ⟨-, delivered⟩ := life.delivered_of_served keeps.1 accepted
    simp only at quiet
    rw [quiet]
    exact inv.set accepted delivered move
  · push Not at set
    exact inv.move life keeps set (move_of_step life keeps.1 step_eq)

theorem rhandleInv_of_reached {P : Platform Pt Svc} (trailer : P.trailer ≠ poolMagicAllocated)
    {x : (State Pt Svc × Ledger Pt) × (ℕ → Word)} (reached : NotedReached P (KeepsRhandle P) x) :
    LifeInv P x.1.1 x.1.2 ∧ RhandleInv x.1.1 x.1.2 x.2 := by
  obtain ⟨memory, behind, reaches⟩ := reached
  refine reaches.invariant (I := fun x ↦ LifeInv P x.1.1 x.1.2 ∧ RhandleInv x.1.1 x.1.2 x.2)
    ⟨lifeInv_initial trailer memory behind, fun c here ↦
      absurd here (not_allocated_initial trailer memory behind c)⟩ ?_
  intro before a after inv keeps step_eq
  refine ⟨?_, inv.2.step inv.1 keeps step_eq⟩
  obtain ⟨effect, step_eq, ledger⟩ := tracedStep_eq_some.1 (notedStep_eq_some step_eq).1
  rw [ledger]
  exact inv.1.move (move_of_step inv.1 keeps.1 step_eq)

/-- In every run without replies to mailbox clients on connections that go on, messages carry the
reverse handles of their services. -/
theorem rhandlePersists_of_keeps (P : Platform Pt Svc) (trailer : P.trailer ≠ poolMagicAllocated)
    (x : (State Pt Svc × Ledger Pt) × (ℕ → Word)) (a : Action Pt)
    (reached : NotedReached P (KeepsRhandle P) x) (keeps : KeepsRhandle P x.1.1 a) :
    RhandlePersists P x a := by
  rintro caller signal msg c body s' rfl - step_eq
  obtain ⟨life, inv⟩ := rhandleInv_of_reached trailer reached
  obtain ⟨here, queued, rfl⟩ := (move_of_step life keeps.1 step_eq).of_delivered life
  refine (inv c here).value ?_
  rw [queued]
  simp

/-- A mailbox client connects, the service sets a reverse handle and grants the connection, and the
next message of the connection carries an address of the pool. -/
theorem not_rhandlePersists :
    ¬∀ x a, NotedReached agentPlatform (fun _ _ ↦ True) x → RhandlePersists agentPlatform x a := by
  intro persists
  have overwritten : (Run.exec (notedStep agentPlatform)
      ((initialState agentPlatform agentMemory .zero, .empty), fun _ ↦ 0)
      [.api false (.agentConnect 0x100 1 (-1) 5), .api true (.get 0x10 0x2000),
        .api true (.setRhandle 0x402 7), .api true (.reply 0x402 0),
        .api false (.rpcClientCallReply 0x2000), .api false (.agentCall 0x402 0 0x3000 5)]).any
      (fun x ↦ x.2 1 = 7 ∧ (step agentPlatform x.1.1 (.api true (.get 0x10 0x2000))).any
        fun y ↦ y.1.delivers fun c body ↦ c = 1 ∧ body.rhandle = 0x1080) = true := by
    decide +kernel
  obtain ⟨x, run, holds⟩ := (Option.any_eq_true ..).1 overwritten
  obtain ⟨set, got⟩ := of_decide_eq_true holds
  obtain ⟨⟨effect, s'⟩, step_eq, delivered⟩ := (Option.any_eq_true ..).1 got
  have reached : NotedReached agentPlatform (fun _ _ ↦ True) x :=
    ⟨_, _, Run.exec_reaches run (Run.allowed_true ..)⟩
  cases effect with
  | delivered c body =>
      obtain ⟨rfl, rhandle⟩ := of_decide_eq_true delivered
      have value := persists x _ reached true 0x10 0x2000 1 body s' rfl (by decide) step_eq
      rw [set, rhandle] at value
      exact absurd value (by decide)
  | _ => cases delivered

/-- The first message of a secure client. -/
theorem rhandlePersists_first_message :
    ∃ x, NotedReached samplePlatform (KeepsRhandle samplePlatform) x ∧
      KeepsRhandle samplePlatform x.1.1 (.api true (.get 0x10 0x2000)) ∧
      (step samplePlatform x.1.1 (.api true (.get 0x10 0x2000))).isSome ∧
      RhandlePersists samplePlatform x (.api true (.get 0x10 0x2000)) := by
  have sent : (Run.exec (notedStep samplePlatform)
      ((initialState samplePlatform (fun _ ↦ 0) .zero, .empty), fun _ ↦ 0)
      [.api false (.connect 0 0x100 1)]).any
      (fun x ↦ (step samplePlatform x.1.1 (.api true (.get 0x10 0x2000))).isSome) = true := by
    decide +kernel
  obtain ⟨x, run, delivers⟩ := (Option.any_eq_true ..).1 sent
  have reached : NotedReached samplePlatform (KeepsRhandle samplePlatform) x :=
    ⟨_, _, Run.exec_reaches run ⟨⟨rfl, nofun⟩, fun _ _ ↦ trivial⟩⟩
  have keeps : KeepsRhandle samplePlatform x.1.1 (.api true (.get 0x10 0x2000)) := ⟨rfl, nofun⟩
  exact ⟨x, reached, keeps, delivers,
    rhandlePersists_of_keeps samplePlatform (by decide) x _ reached keeps⟩

end TrustedFirmwareM.Spm
