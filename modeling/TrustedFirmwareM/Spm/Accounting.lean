import TrustedFirmwareM.Spm.Discipline

/-!
# Connection accounting

An allocated chunk is accounted for by a client that holds the handle of its connection or by a
request under way.  The one exception is a connection request that the service answers with
`PSA_ERROR_CONNECTION_BUSY`: the client gets no handle, yet the connection is kept.
-/

namespace TrustedFirmwareM.Spm

open LinkedList

variable {Pt Svc : Type}

/-- Every allocated chunk has its connection held or a request under way, and conversely; and the
message and reply lists hold allocated chunks only. -/
structure Accounted (P : Platform Pt Svc) (s : State Pt Svc) (L : Ledger Pt) : Prop where
  /-- The allocated chunks are those of held connections and of requests under way. -/
  allocated_iff : ∀ c, s.Allocated c ↔
    L.held c = true ∨ ∃ r, r < L.sent ∧ L.chunk r = c ∧ L.phase r ≠ .replied
  /-- Every list ends, and only allocated chunks are in it. -/
  listed : ∀ p, ∃ handles, messageList P s p = some handles ∧ ∀ c ∈ handles, s.Allocated c

/-- Who holds the connection on a chunk, by the phase of its request. -/
def AccountOf (P : Platform Pt Svc) (k : Connection Pt Svc) (held : Bool) : Phase Pt → Prop
  | .queued | .delivered _ _ => ∀ σ, k.service = some σ →
      if k.msg.type = psaIpcConnect then held = false ∧ (P.service σ).stateless = false
      else (k.msg.type = psaIpcDisconnect → held = true) ∧ held = !(P.service σ).stateless
  | .replyQueued => held = !decide (k.status = .toFree)
  | .replied => held = true

/-- The invariant behind the accounting. -/
structure AccountInv (P : Platform Pt Svc) (s : State Pt Svc) (L : Ledger Pt) : Prop where
  /-- Only connections to services that are not stateless are held. -/
  stateful : ∀ c σ, s.Allocated c → (s.connections c).service = some σ → L.held c = true →
    (P.service σ).stateless = false
  /-- Allocated chunks are held as their phase says. -/
  account : ∀ c, s.Allocated c → AccountOf P (s.connections c) (L.held c) (L.phaseOf c)
  /-- Free chunks are not held. -/
  free : ∀ c, ¬s.Allocated c → L.held c = false
  /-- The request on an allocated chunk was made on it. -/
  chunk : ∀ c, s.Allocated c → L.chunk (L.onChunk c) = c
  /-- A request under way is the latest one on an allocated chunk. -/
  request : ∀ r, r < L.sent → L.phase r ≠ .replied →
    s.Allocated (L.chunk r) ∧ L.onChunk (L.chunk r) = r

/-- The accounting follows from the two invariants. -/
theorem AccountInv.accounted {P : Platform Pt Svc} {s : State Pt Svc} {L : Ledger Pt}
    (life : LifeInv P s L) (inv : AccountInv P s L) : Accounted P s L := by
  refine ⟨fun c ↦ ⟨fun here ↦ ?_, ?_⟩, fun p ↦ ?_⟩
  · by_cases done : L.phaseOf c = .replied
    · have account := inv.account c here
      rw [done] at account
      exact .inl account
    · exact .inr ⟨L.onChunk c, (life.chunk c here).request_lt, inv.chunk c here, done⟩
  · rintro (held | ⟨r, r_lt, rfl, under_way⟩)
    · by_contra not_here
      rw [inv.free c not_here] at held
      cases held
    · exact (inv.request r r_lt under_way).1
  · obtain ⟨lists, chains, mem_lists⟩ := life.lists
    refine ⟨lists p, chains.messageList_eq (LifeInv.bounded life.pool mem_lists p), ?_⟩
    intro c member
    exact ((mem_lists p c).1 member).1

/-! ## Preservation -/

/-- A chunk that a step leaves alone stays accounted for. -/
theorem AccountInv.kept {P : Platform Pt Svc} {s s' : State Pt Svc} {L L' : Ledger Pt} {d : ℕ}
    (life : LifeInv P s L) (inv : AccountInv P s L) (kept : Kept s L s' L' d) :
    (∀ σ, s'.Allocated d → (s'.connections d).service = some σ → L'.held d = true →
        (P.service σ).stateless = false) ∧
      (s'.Allocated d → AccountOf P (s'.connections d) (L'.held d) (L'.phaseOf d)) ∧
      (¬s'.Allocated d → L'.held d = false) := by
  rw [kept.allocated, kept.held]
  refine ⟨?_, ?_, inv.free d⟩
  · intro σ here service held
    rw [kept.service here] at service
    exact inv.stateful d σ here service held
  · intro here
    have account := inv.account d here
    rw [kept.phase here]
    by_cases done : L.phaseOf d = .replied
    · rw [done] at account ⊢
      exact account
    · obtain ⟨link, connection⟩ := kept.busy here ((life.chunk d here).record.busy done)
      rw [connection]
      cases phase : L.phaseOf d <;> rw [phase] at account <;> exact account

/-- A step on one chunk keeps the accounting if it does so there. -/
theorem AccountInv.of_kept {P : Platform Pt Svc} {s s' : State Pt Svc} {L L' : Ledger Pt} {c : ℕ}
    (life : LifeInv P s L) (inv : AccountInv P s L)
    (kept : ∀ d, d ≠ c → Kept s L s' L' d)
    (stateful : ∀ σ, s'.Allocated c → (s'.connections c).service = some σ → L'.held c = true →
      (P.service σ).stateless = false)
    (account : s'.Allocated c → AccountOf P (s'.connections c) (L'.held c) (L'.phaseOf c))
    (free : ¬s'.Allocated c → L'.held c = false)
    (chunk : ∀ d, s'.Allocated d → L'.chunk (L'.onChunk d) = d)
    (request : ∀ r, r < L'.sent → L'.phase r ≠ .replied →
      s'.Allocated (L'.chunk r) ∧ L'.onChunk (L'.chunk r) = r) : AccountInv P s' L' := by
  refine ⟨fun d σ ↦ ?_, fun d ↦ ?_, fun d ↦ ?_, chunk, request⟩
  all_goals by_cases d_eq : d = c
  · subst d_eq
    exact stateful σ
  · exact (inv.kept life (kept d d_eq)).1 σ
  · subst d_eq
    exact account
  · exact (inv.kept life (kept d d_eq)).2.1
  · subst d_eq
    exact free
  · exact (inv.kept life (kept d d_eq)).2.2

/-- A step that leaves every chunk and all requests alone. -/
theorem AccountInv.of_all_kept {P : Platform Pt Svc} {s s' : State Pt Svc} {L L' : Ledger Pt}
    (life : LifeInv P s L) (inv : AccountInv P s L) (kept : ∀ d, Kept s L s' L' d)
    (ledger : ∃ waitingFor, L' = { L with waitingFor := waitingFor }) : AccountInv P s' L' := by
  obtain ⟨waitingFor, rfl⟩ := ledger
  refine ⟨fun d σ ↦ (inv.kept life (kept d)).1 σ, fun d ↦ (inv.kept life (kept d)).2.1,
    fun d ↦ (inv.kept life (kept d)).2.2, ?_, ?_⟩
  · intro d here
    exact inv.chunk d ((kept d).allocated.1 here)
  · intro r r_lt under_way
    obtain ⟨here, latest⟩ := inv.request r r_lt under_way
    exact ⟨(kept _).allocated.2 here, latest⟩

/-- Requests under way after a step that moved the request of one chunk on. -/
theorem AccountInv.request_of_phase {P : Platform Pt Svc} {s s' : State Pt Svc} {L L' : Ledger Pt}
    {c : ℕ} {phase : Phase Pt} (inv : AccountInv P s L) (here : s.Allocated c)
    (kept : ∀ d, d ≠ c → Kept s L s' L' d) (sent : L'.sent = L.sent)
    (onChunk : L'.onChunk = L.onChunk) (chunk : L'.chunk = L.chunk)
    (phase_eq : L'.phase = Function.update L.phase (L.onChunk c) phase)
    (under_way : phase ≠ .replied → s'.Allocated c) (r : ℕ) (r_lt : r < L'.sent)
    (not_done : L'.phase r ≠ .replied) :
    s'.Allocated (L'.chunk r) ∧ L'.onChunk (L'.chunk r) = r := by
  rw [onChunk, chunk]
  rw [phase_eq] at not_done
  by_cases r_eq : r = L.onChunk c
  · subst r_eq
    rw [Function.update_self] at not_done
    rw [inv.chunk c here]
    exact ⟨under_way not_done, rfl⟩
  · rw [Function.update_of_ne r_eq] at not_done
    obtain ⟨r_here, latest⟩ := inv.request r (sent ▸ r_lt) not_done
    have other : L.chunk r ≠ c := by
      intro same
      rw [same] at latest
      exact r_eq latest.symm
    exact ⟨(kept _ other).allocated.2 r_here, latest⟩

theorem AccountInv.message {P : Platform Pt Svc} {s s' : State Pt Svc} {L : Ledger Pt} {c : ℕ}
    {caller : Pt} {handle : Word} (life : LifeInv P s L) (inv : AccountInv P s L)
    (here : s.Allocated c) (delivered : L.phaseOf c = .delivered caller handle)
    {rhandle : Word} (move : MessageMove s c rhandle s') : AccountInv P s' L := by
  have account := inv.account c here
  have service := move.identity.service
  have type := move.type
  obtain ⟨k, memory, state⟩ := move.state
  have magic : s'.magic = s.magic := by
    rw [state]
    rfl
  have allocated : ∀ d, s'.Allocated d ↔ s.Allocated d := by
    intro d
    rw [State.Allocated, magic]
    rfl
  refine inv.of_kept life (fun d d_ne ↦ .of_message L d_ne move) ?_ ?_ ?_ ?_ ?_
  · intro σ _
    rw [service]
    exact inv.stateful c σ here
  · intro _
    rw [delivered] at account ⊢
    intro σ
    rw [service, type]
    exact account σ
  · intro freed
    exact absurd ((allocated c).2 here) freed
  · intro d d_here
    exact inv.chunk d ((allocated d).1 d_here)
  · intro r r_lt under_way
    rw [allocated]
    exact inv.request r r_lt under_way

variable [DecidableEq Pt]

omit [DecidableEq Pt] in
theorem AccountInv.deliver {P : Platform Pt Svc} {s s' : State Pt Svc} {L : Ledger Pt} {c : ℕ}
    {p receiver : Pt} {signal handle : Word} (life : LifeInv P s L) (inv : AccountInv P s L)
    (here : s.Allocated c) (queued : L.phaseOf c = .queued) (take : TakeMove s s' p signal) :
    AccountInv P s' (L.deliver receiver c handle) := by
  have allocated : ∀ d, s'.Allocated d ↔ s.Allocated d := by
    intro d
    rw [State.Allocated, take.magic]
    rfl
  have kept : ∀ d, d ≠ c → Kept s L s' (L.deliver receiver c handle) d :=
    fun d d_ne ↦ .of_take life here d_ne take
  obtain ⟨link, connection⟩ := take.connections c
  refine inv.of_kept life kept ?_ ?_ ?_ ?_ ?_
  · intro σ _
    rw [connection]
    exact inv.stateful c σ here
  · intro _
    have account := inv.account c here
    rw [queued] at account
    have phase : (L.deliver receiver c handle).phaseOf c = .delivered receiver handle :=
      Function.update_self ..
    rw [phase, connection]
    exact account
  · intro freed
    exact absurd ((allocated c).2 here) freed
  · intro d d_here
    exact inv.chunk d ((allocated d).1 d_here)
  · exact inv.request_of_phase here kept rfl rfl rfl rfl fun _ ↦ (allocated c).2 here

omit [DecidableEq Pt] in
/-- A reply other than busy to a connection request ends the connection or leaves it held. -/
theorem AccountInv.held_reply {P : Platform Pt Svc} {s : State Pt Svc} {L : Ledger Pt} {c : ℕ}
    {caller : Pt} {handle : Word} {σ : Svc} {status : ℤ} (rpc : Bool) (inv : AccountInv P s L)
    (here : s.Allocated c) (delivered : L.phaseOf c = .delivered caller handle)
    (service : (s.connections c).service = some σ)
    (statuses : (s.connections c).msg.type = psaIpcConnect → status = psaSuccess ∨
      status = psaErrorConnectionRefused) :
    ((L.reply c rpc (s.connections c).msg.type status).held c =
        !replyEnds P (s.connections c).msg.type σ status) ∧
      ((L.reply c rpc (s.connections c).msg.type status).held c = true →
        (P.service σ).stateless = false) := by
  have account := inv.account c here
  rw [delivered] at account
  have account := account σ service
  simp only [Ledger.reply, Function.update_self, replyEnds]
  split at account
  · next connect =>
      rw [if_pos connect, if_pos connect]
      refine ⟨?_, fun _ ↦ account.2⟩
      rcases statuses connect with rfl | rfl <;> decide
  · next not_connect =>
      rw [if_neg not_connect, if_neg not_connect]
      split
      · simp
      · rw [account.2]
        simp

theorem AccountInv.reply {P : Platform Pt Svc} {s s' : State Pt Svc} {L : Ledger Pt} {c : ℕ}
    {caller client : Pt} {handle : Word} {σ : Svc} {status : ℤ} (life : LifeInv P s L)
    (inv : AccountInv P s L) (here : s.Allocated c)
    (delivered : L.phaseOf c = .delivered caller handle)
    (service : (s.connections c).service = some σ)
    (statuses : (s.connections c).msg.type = psaIpcConnect → status = psaSuccess ∨
      status = psaErrorConnectionRefused)
    (move : ReplyMove P s s' c client (replyEnds P (s.connections c).msg.type σ status)) :
    AccountInv P s' (L.reply c false (s.connections c).msg.type status) := by
  obtain ⟨held, stateful⟩ := inv.held_reply false here delivered service statuses
  have kept : ∀ d, d ≠ c → Kept s L s' (L.reply c false (s.connections c).msg.type status) d :=
    fun d d_ne ↦ .of_reply life here d_ne (.inr move)
  refine inv.of_kept life kept ?_ ?_ ?_ ?_ ?_
  · intro τ here' τ_service is_held
    obtain ⟨written, connection⟩ := move.connection (move.allocated.1 here')
    rw [connection] at τ_service
    cases service.symm.trans τ_service
    exact stateful is_held
  · intro here'
    have phase : (L.reply c false (s.connections c).msg.type status).phaseOf c = .replied :=
      Function.update_self ..
    rw [phase]
    show _ = true
    rw [held, move.allocated.1 here']
    rfl
  · intro freed
    rw [move.allocated, Bool.not_eq_false] at freed
    rw [held, freed]
    rfl
  · intro d d_here
    refine inv.chunk d ?_
    by_cases d_eq : d = c
    · rw [d_eq]
      exact here
    · exact (kept d d_eq).allocated.1 d_here
  · exact inv.request_of_phase here kept rfl rfl rfl rfl fun under_way ↦ absurd rfl under_way

theorem AccountInv.rpcReply {P : Platform Pt Svc} {s s' : State Pt Svc} {L : Ledger Pt} {c : ℕ}
    {caller client : Pt} {handle : Word} {σ : Svc} {status : ℤ} (life : LifeInv P s L)
    (inv : AccountInv P s L) (here : s.Allocated c)
    (delivered : L.phaseOf c = .delivered caller handle)
    (service : (s.connections c).service = some σ)
    (statuses : (s.connections c).msg.type = psaIpcConnect → status = psaSuccess ∨
      status = psaErrorConnectionRefused)
    (move : RpcReplyMove P s s' c client (replyEnds P (s.connections c).msg.type σ status)) :
    AccountInv P s' (L.reply c true (s.connections c).msg.type status) := by
  obtain ⟨held, stateful⟩ := inv.held_reply true here delivered service statuses
  have kept : ∀ d, d ≠ c → Kept s L s' (L.reply c true (s.connections c).msg.type status) d :=
    fun d d_ne ↦ .of_reply life here d_ne (.inl move)
  have allocated : ∀ d, s'.Allocated d ↔ s.Allocated d := by
    intro d
    rw [State.Allocated, move.magic]
    rfl
  have active : (s.connections c).status = .active := by
    have record := (life.chunk c here).record
    rw [delivered] at record
    exact record.1
  obtain ⟨written, replyValue, connection⟩ := move.connection
  refine inv.of_kept life kept ?_ ?_ ?_ ?_ ?_
  · intro τ _ τ_service is_held
    rw [connection] at τ_service
    cases service.symm.trans τ_service
    exact stateful is_held
  · intro _
    have phase : (L.reply c true (s.connections c).msg.type status).phaseOf c = .replyQueued :=
      Function.update_self ..
    rw [phase, connection, held]
    cases replyEnds P (s.connections c).msg.type σ status <;> simp [AccountOf, active]
  · intro freed
    exact absurd ((allocated c).2 here) freed
  · intro d d_here
    exact inv.chunk d ((allocated d).1 d_here)
  · exact inv.request_of_phase here kept rfl rfl rfl rfl fun _ ↦ (allocated c).2 here

omit [DecidableEq Pt] in
theorem AccountInv.collect {P : Platform Pt Svc} {s s₁ : State Pt Svc} {L : Ledger Pt} {c : ℕ}
    {p : Pt} (life : LifeInv P s L) (inv : AccountInv P s L) (here : s.Allocated c)
    (queued : L.phaseOf c = .replyQueued) (take : TakeMove s s₁ p asyncMsgReply) :
    AccountInv P (releaseConnection P s₁ c) (L.collect c) := by
  have here₁ : s₁.Allocated c := by
    rw [State.Allocated, take.magic]
    exact here
  have released := released_releaseConnection
    (life.pool.congr take.poolNext take.chunkNext take.magic) here₁
  have kept := fun d (d_ne : d ≠ c) ↦ Kept.of_collect life here d_ne take released
  obtain ⟨link, connection⟩ := take.connections c
  have status : (s₁.connections c).status = (s.connections c).status := by rw [connection]
  have account := inv.account c here
  rw [queued, AccountOf, ← status] at account
  refine inv.of_kept life kept ?_ ?_ ?_ ?_ ?_
  · intro σ here' service
    rw [released.connection (released.allocated.1 here'), connection] at service
    exact inv.stateful c σ here service
  · intro here'
    have phase : (L.collect c).phaseOf c = .replied := Function.update_self ..
    rw [phase]
    show L.held c = true
    rw [account, released.allocated.1 here']
    rfl
  · intro freed
    rw [released.allocated, Bool.not_eq_false] at freed
    show L.held c = false
    rw [account, freed]
    rfl
  · intro d d_here
    refine inv.chunk d ?_
    by_cases d_eq : d = c
    · rw [d_eq]
      exact here
    · exact (kept d d_eq).allocated.1 d_here
  · exact inv.request_of_phase here kept rfl rfl rfl rfl fun under_way ↦ absurd rfl under_way

/-- What a new request has to say about who holds its connection. -/
theorem AccountInv.send {P : Platform Pt Svc} {s s' : State Pt Svc} {L : Ledger Pt} {caller : Pt}
    {clientId : ℤ} {data : Option Word} {c : ℕ} {σ : Svc} {rpc : Bool} {inLen outLen : Fin 4 → Word}
    (life : LifeInv P s L) (inv : AccountInv P s L)
    (move : SendMove P caller clientId data s s' c σ)
    (kind : if (s'.connections c).msg.type = psaIpcConnect then
        ¬s.Allocated c ∧ (P.service σ).stateless = false
      else ((s'.connections c).msg.type = psaIpcDisconnect → s.Allocated c) ∧
        (¬s.Allocated c → (P.service σ).stateless = true)) :
    AccountInv P s' (L.send caller c rpc inLen outLen) := by
  have kept : ∀ d, d ≠ c → Kept s L s' (L.send caller c rpc inLen outLen) d :=
    fun d d_ne ↦ .of_send life d_ne move
  -- an existing connection was idle, so nothing is under way on it and its client holds it
  have idle : s.Allocated c → L.phaseOf c = .replied :=
    fun here ↦ (life.chunk c here).phase_of_idle (move.reused here).1
  have held : s.Allocated c → L.held c = true ∧ (P.service σ).stateless = false := by
    intro here
    have account := inv.account c here
    rw [idle here] at account
    exact ⟨account, inv.stateful c σ here (move.reused here).2.2.1 account⟩
  refine inv.of_kept life kept ?_ ?_ ?_ ?_ ?_
  · intro τ _ service is_held
    cases move.service.symm.trans service
    by_cases here : s.Allocated c
    · exact (held here).2
    · have free : L.held c = true := is_held
      rw [inv.free c here] at free
      cases free
  · intro _
    have phase : (L.send caller c rpc inLen outLen).phaseOf c = .queued := by
      simp [Ledger.phaseOf, Ledger.send]
    rw [phase]
    intro τ service
    cases move.service.symm.trans service
    show if _ then L.held c = false ∧ _ else (_ → L.held c = true) ∧ L.held c = _
    split at kind
    · next connect =>
        rw [if_pos connect]
        exact ⟨inv.free c kind.1, kind.2⟩
    · next not_connect =>
        rw [if_neg not_connect]
        refine ⟨fun disconnect ↦ (held (kind.1 disconnect)).1, ?_⟩
        by_cases here : s.Allocated c
        · rw [(held here).1, (held here).2]
          rfl
        · rw [inv.free c here, kind.2 here]
          rfl
  · intro freed
    exact absurd move.allocated freed
  · intro d d_here
    by_cases d_eq : d = c
    · subst d_eq
      simp [Ledger.send]
    · have d_here := (kept d d_eq).allocated.1 d_here
      have older : L.onChunk d ≠ L.sent := (life.chunk d d_here).request_lt.ne
      simpa [Ledger.send, d_eq, older] using inv.chunk d d_here
  · intro r r_lt under_way
    by_cases r_eq : r = L.sent
    · subst r_eq
      simpa [Ledger.send] using move.allocated
    · have r_lt : r < L.sent := lt_of_le_of_ne (Nat.lt_succ_iff.1 r_lt) r_eq
      simp only [Ledger.send, Function.update_of_ne r_eq] at under_way ⊢
      obtain ⟨here, latest⟩ := inv.request r r_lt under_way
      have other : L.chunk r ≠ c := by
        intro same
        rw [same] at here latest
        refine under_way ?_
        rw [← latest]
        exact idle here
      rw [Function.update_of_ne other]
      exact ⟨(kept _ other).allocated.2 here, latest⟩

/-! ## Runs -/

/-- A disciplined step that does not answer a connection request with
`PSA_ERROR_CONNECTION_BUSY`. -/
def Accountable (P : Platform Pt Svc) (s : State Pt Svc) (a : Action Pt) : Prop :=
  Disciplined P s a ∧ ∀ caller handle c, a = .api caller (.reply handle psaErrorConnectionBusy) →
    P.chunkOfHandle handle = some c → (s.connections c).msg.type ≠ psaIpcConnect

/-- The status that a step replies with. -/
def Action.replyStatus : Action Pt → Option ℤ
  | .api _ (.reply _ status) => some status
  | _ => none

omit [DecidableEq Pt] in
/-- A disciplined step is accountable unless it replies with `PSA_ERROR_CONNECTION_BUSY`. -/
theorem Accountable.of_replyStatus {P : Platform Pt Svc} {s : State Pt Svc} {a : Action Pt}
    (disciplined : Disciplined P s a) (status : a.replyStatus ≠ some psaErrorConnectionBusy) :
    Accountable P s a := by
  refine ⟨disciplined, fun caller handle c eq _ ↦ ?_⟩
  rw [eq] at status
  exact absurd rfl status

/-- Every move of an accountable step keeps the accounting. -/
theorem AccountInv.move {P : Platform Pt Svc} {s s' : State Pt Svc} {L L' : Ledger Pt}
    {a : Action Pt} (life : LifeInv P s L) (inv : AccountInv P s L)
    (accountable : Accountable P s a) {effect : Effect}
    (move : Move P s L s' a effect L') : AccountInv P s' L' := by
  cases move with
  | quiet quiet _ => exact inv.of_all_kept life (.of_quiet L quiet) ⟨L.waitingFor, rfl⟩
  | message _ _ here delivered move _ => exact inv.message life here delivered move
  | signals _ _ _ _ pool magic connections _ _ _ ledger =>
      exact inv.of_all_kept life (.of_signals magic connections ledger) ledger
  | send _ _ _ move kind =>
      refine inv.send life move ?_
      rcases kind with ⟨handle, ctrl, inptr, outptr, -, call⟩ | ⟨free, stateful, type⟩ |
        ⟨here, type⟩
      · obtain ⟨k, associated, -⟩ := call.associated
        have type := associated.type_nonneg
        simp only [psaIpcCall] at type
        rw [if_neg (by simp only [psaIpcConnect]; omega)]
        refine ⟨?_, ?_⟩
        · simp only [psaIpcDisconnect]
          omega
        · intro free
          rcases call.origin with ⟨-, stateless, -⟩ | ⟨-, -, here⟩
          · exact stateless
          · exact absurd here free
      · rw [if_pos type]
        exact ⟨free, stateful⟩
      · rw [type, if_neg (by decide)]
        exact ⟨fun _ ↦ here, fun free ↦ absurd here free⟩
  | @deliver p lists before after c signal msg _ mem_lists list_eq _ take not_agent _ _ =>
      obtain ⟨here, list_c⟩ := (mem_lists p c).1 (by simp [list_eq])
      exact inv.deliver life here (life.queued_of_listed here list_c not_agent) take
  | reply here delivered accepted service client_eq statuses move =>
      have answered : (s.connections _).msg.type = psaIpcConnect → _ := fun connect ↦
        (statuses connect).imp_right fun others ↦ others.resolve_right fun busy ↦
          accountable.2 _ _ _ (by rw [busy]) (spmMsgHandleToConnection_eq_some.1 accepted).1 connect
      rcases move with ⟨rpc, move⟩ | ⟨not_rpc, move⟩
      · rw [rpc]
        exact inv.rpcReply life here delivered service answered move
      · rw [not_rpc]
        exact inv.reply life here delivered service answered move
  | @collect p msg s₁ lists before after c _ mem_lists list_eq _ take queued _ state =>
      rw [state]
      exact inv.collect life ((mem_lists p c).1 (by simp [list_eq])).1 queued take

omit [DecidableEq Pt] in
theorem accountInv_initial {P : Platform Pt Svc} (trailer : P.trailer ≠ poolMagicAllocated)
    (memory : Word → BitVec 8) (behind : Connection Pt Svc) :
    AccountInv P (initialState P memory behind) .empty := by
  have nothing := not_allocated_initial trailer memory behind
  exact ⟨fun c _ here ↦ absurd here (nothing c), fun c here ↦ absurd here (nothing c),
    fun _ _ ↦ rfl, fun c here ↦ absurd here (nothing c), fun r r_lt ↦
    absurd r_lt (Nat.not_lt_zero r)⟩

/-- In every run in which partitions are disciplined and no connection request is answered with
`PSA_ERROR_CONNECTION_BUSY`, the pool is accounted for. -/
theorem accounted_of_accountable (P : Platform Pt Svc) (trailer : P.trailer ≠ poolMagicAllocated)
    (x : State Pt Svc × Ledger Pt) (reached : Reached P (fun x a ↦ Accountable P x.1 a) x) :
    Accounted P x.1 x.2 := by
  have life := lifeInv_of_reached trailer (fun _ _ accountable ↦ accountable.1) reached
  refine AccountInv.accounted life ?_
  obtain ⟨memory, behind, reaches⟩ := reached
  refine (reaches.invariant (I := fun x ↦ LifeInv P x.1 x.2 ∧ AccountInv P x.1 x.2)
    ⟨lifeInv_initial trailer memory behind, accountInv_initial trailer memory behind⟩ ?_).2
  rintro before a after ⟨life, inv⟩ accountable step_eq
  obtain ⟨effect, step_eq, ledger⟩ := tracedStep_eq_some.1 step_eq
  have move := move_of_step life accountable.1 step_eq
  rw [ledger]
  exact ⟨life.move move, inv.move life accountable move⟩

/-- A service answers a connection request with `PSA_ERROR_CONNECTION_BUSY`: nobody holds the
connection and nothing is under way, but its chunk stays allocated. -/
theorem not_accounted :
    ¬∀ x, Reached samplePlatform (fun _ _ ↦ True) x → Accounted samplePlatform x.1 x.2 := by
  intro accounted
  have busy : (sampleRun [.api false (.connect 0 0x100 1), .api true (.get 0x10 0x2000),
      .api true (.reply 0x402 psaErrorConnectionBusy)]).any
      (fun x ↦ x.1.magic 1 = poolMagicAllocated ∧ x.2.held 1 = false ∧ x.2.sent = 1 ∧
        x.2.phase 0 = .replied) = true := by
    decide +kernel
  obtain ⟨x, run, busy⟩ := (Option.any_eq_true ..).1 busy
  obtain ⟨allocated, not_held, sent, done⟩ := of_decide_eq_true busy
  rcases ((accounted x (reached_of_sampleRun run (Run.allowed_true ..))).allocated_iff 1).1
    allocated with held | ⟨r, r_lt, -, under_way⟩
  · rw [not_held] at held
    cases held
  · rw [sent, Nat.lt_one_iff] at r_lt
    rw [r_lt] at under_way
    exact under_way done

/-- A service refuses a connection, and the chunk is free again. -/
theorem accounted_refused_connection :
    ∃ x, sampleRun [.api false (.connect 0 0x100 1), .api true (.get 0x10 0x2000),
        .api true (.reply 0x402 psaErrorConnectionRefused)] = some x ∧
      ¬x.1.Allocated 1 ∧ Accounted samplePlatform x.1 x.2 := by
  have refused : (sampleRun [.api false (.connect 0 0x100 1), .api true (.get 0x10 0x2000),
      .api true (.reply 0x402 psaErrorConnectionRefused)]).any
      (fun x ↦ x.1.magic 1 ≠ poolMagicAllocated) = true := by
    decide +kernel
  have sound : ∀ (x : State Bool Bool × Ledger Bool) (a : Action Bool),
      decide (Disciplined samplePlatform x.1 a ∧
        a.replyStatus ≠ some psaErrorConnectionBusy) = true → Accountable samplePlatform x.1 a := by
    intro x a test
    obtain ⟨disciplined, status⟩ := of_decide_eq_true test
    exact .of_replyStatus disciplined status
  obtain ⟨x, run, free⟩ := (Option.any_eq_true ..).1 refused
  have not_allocated : x.1.magic 1 ≠ poolMagicAllocated := of_decide_eq_true free
  exact ⟨x, run, not_allocated, accounted_of_accountable samplePlatform (by decide) x
    (reached_of_sampleRun run (Run.allowed_of_allowedBy sound (by decide +kernel)))⟩

end TrustedFirmwareM.Spm
