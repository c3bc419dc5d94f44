import TrustedFirmwareM.Spm.Discipline

/-!
# Vectors of a request

The message of a call should describe its vectors and nothing of an earlier call.  The counters, the
mapping status and the lengths of a connection are reset in different places, and not all of them
for every call: what remains is what an earlier use of the chunk has left beyond the vectors of the
call.
-/

namespace TrustedFirmwareM.Spm

variable {Pt Svc : Type}

/-- A message describes the vectors of a request, and none of them has been used. -/
structure FreshVectors (L : Ledger Pt) (k : Connection Pt Svc) (body : Msg) (r : ℕ) : Prop where
  /-- Input vector lengths are those that the caller gave, and 0 beyond its vectors. -/
  inSize : ∀ i, body.inSize i = L.inLen r i
  /-- Output vector lengths are those that the caller gave, and 0 beyond its vectors. -/
  outSize : ∀ i, body.outSize i = L.outLen r i
  /-- Nothing has been read. -/
  accessed : ∀ i, k.invecAccessed i = 0
  /-- Nothing has been written. -/
  written : ∀ i, k.outvecWritten i = 0
  /-- Nothing has been mapped or accessed. -/
  iovecStatus : k.iovecStatus = 0

/-- What fresh vector state asks of one step. -/
structure VectorSafe (x : State Pt Svc × Ledger Pt) (a : Action Pt) (effect : Effect)
    (s' : State Pt Svc) : Prop where
  /-- A request message delivered by `psa_get` describes the call that produced it. -/
  delivered : ∀ caller signal msg c body, a = .api caller (.get signal msg) →
    effect = .delivered c body → psaIpcCall ≤ body.type →
    FreshVectors x.2 (s'.connections c) body (x.2.onChunk c)
  /-- The vectors of a request that is being served are used within their lengths. -/
  bounds : ∀ c caller handle, x.1.Allocated c → x.2.phaseOf c = .delivered caller handle →
    psaIpcCall ≤ (x.1.connections c).msg.type → VectorBounds (x.1.connections c)

/-- Vector state of a connection, by the phase of its request. -/
def VectorsOf (L : Ledger Pt) (k : Connection Pt Svc) (r : ℕ) : Phase Pt → Prop
  | .queued => FreshVectors L k k.msg r
  | .delivered _ _ => VectorBounds k
  | .replyQueued | .replied => True

/-- The invariant behind the vectors. -/
def VectorInv (s : State Pt Svc) (L : Ledger Pt) : Prop :=
  ∀ c, s.Allocated c → psaIpcCall ≤ (s.connections c).msg.type →
    VectorsOf L (s.connections c) (L.onChunk c) (L.phaseOf c)

/-! ## Preservation -/

theorem FreshVectors.bounds {L : Ledger Pt} {k : Connection Pt Svc} {r : ℕ}
    (fresh : FreshVectors L k k.msg r) : VectorBounds k := by
  refine ⟨fun i ↦ ?_, fun i ↦ ?_⟩
  · rw [fresh.accessed]
    bv_omega
  · rw [fresh.written]
    bv_omega

theorem VectorInv.kept {P : Platform Pt Svc} {s s' : State Pt Svc} {L L' : Ledger Pt} {d : ℕ}
    (life : LifeInv P s L) (inv : VectorInv s L) (kept : Kept s L s' L' d) (here' : s'.Allocated d)
    (type : psaIpcCall ≤ (s'.connections d).msg.type) :
    VectorsOf L' (s'.connections d) (L'.onChunk d) (L'.phaseOf d) := by
  have here := kept.allocated.1 here'
  rw [kept.phase here, kept.onChunk]
  by_cases done : L.phaseOf d = .replied
  · rw [done]
    trivial
  · obtain ⟨link, connection⟩ := kept.busy here ((life.chunk d here).record.busy done)
    rw [connection] at type ⊢
    have vectors := inv d here type
    cases phase : L.phaseOf d with
    | queued =>
        rw [phase] at vectors
        refine ⟨?_, ?_, vectors.accessed, vectors.written, vectors.iovecStatus⟩
        · rw [kept.inLen here]
          exact vectors.inSize
        · rw [kept.outLen here]
          exact vectors.outSize
    | delivered p handle =>
        rw [phase] at vectors
        exact ⟨vectors.accessed_le, vectors.written_le⟩
    | replyQueued => trivial
    | replied => trivial

/-- A step on one chunk keeps the vectors in order if it does so there. -/
theorem VectorInv.of_kept {P : Platform Pt Svc} {s s' : State Pt Svc} {L L' : Ledger Pt} {c : ℕ}
    (life : LifeInv P s L) (inv : VectorInv s L) (kept : ∀ d, d ≠ c → Kept s L s' L' d)
    (vectors : s'.Allocated c → psaIpcCall ≤ (s'.connections c).msg.type →
      VectorsOf L' (s'.connections c) (L'.onChunk c) (L'.phaseOf c)) : VectorInv s' L' := by
  intro d here type
  by_cases d_eq : d = c
  · subst d_eq
    exact vectors here type
  · exact inv.kept life (kept d d_eq) here type

theorem VectorInv.message {P : Platform Pt Svc} {s s' : State Pt Svc} {L : Ledger Pt} {c : ℕ}
    {caller : Pt} {handle : Word} (life : LifeInv P s L) (inv : VectorInv s L)
    (here : s.Allocated c) (delivered : L.phaseOf c = .delivered caller handle)
    {rhandle : Word} (move : MessageMove s c rhandle s') : VectorInv s' L := by
  refine inv.of_kept life (fun d d_ne ↦ .of_message L d_ne move) ?_
  intro _ type
  rw [move.type] at type
  have vectors := inv c here type
  rw [delivered] at vectors ⊢
  exact move.bounds vectors

theorem VectorInv.deliver {P : Platform Pt Svc} {s s' : State Pt Svc} {L : Ledger Pt} {c : ℕ}
    {p receiver : Pt} {signal handle : Word} (life : LifeInv P s L) (inv : VectorInv s L)
    (here : s.Allocated c) (queued : L.phaseOf c = .queued) (take : TakeMove s s' p signal) :
    VectorInv s' (L.deliver receiver c handle) := by
  refine inv.of_kept life (fun d d_ne ↦ .of_take life here d_ne take) ?_
  obtain ⟨link, connection⟩ := take.connections c
  intro _ type
  have phase : (L.deliver receiver c handle).phaseOf c = .delivered receiver handle :=
    Function.update_self ..
  rw [connection] at type
  have vectors := inv c here type
  rw [queued] at vectors
  rw [phase, connection]
  exact ⟨vectors.bounds.accessed_le, vectors.bounds.written_le⟩

/-- A request that has been replied to says nothing about its vectors. -/
theorem vectorsOf_reply (L L' : Ledger Pt) (k : Connection Pt Svc) (r c : ℕ) (rpc : Bool)
    (type status : ℤ) : VectorsOf L' k r ((L.reply c rpc type status).phaseOf c) := by
  have phase : (L.reply c rpc type status).phaseOf c = if rpc then .replyQueued else .replied :=
    Function.update_self ..
  rw [phase]
  cases rpc <;> trivial

/-! ## Calls -/

/-- The connection that a call works on has nothing left of an earlier use where the call does not
reset it. -/
structure CleanCall (s : State Pt Svc) (handle ctrl : Word) (c : ℕ) : Prop where
  /-- Input counters beyond the vectors of the call. -/
  accessed : ∀ i : Fin 4, paramUnpackInLen ctrl ≤ i → (s.connections c).invecAccessed i = 0
  /-- Output counters beyond the vectors of the call. -/
  written : ∀ i : Fin 4, paramUnpackOutLen ctrl ≤ i → (s.connections c).outvecWritten i = 0
  /-- The mapping status of an existing connection. -/
  iovecStatus : isStaticHandle handle = false → (s.connections c).iovecStatus = 0
  /-- Input lengths of an existing connection that is called without vectors. -/
  inSize : isStaticHandle handle = false → paramHasIovec ctrl = false →
    ∀ i, (s.connections c).msg.inSize i = 0
  /-- Output lengths of an existing connection that is called without vectors. -/
  outSize : isStaticHandle handle = false → paramHasIovec ctrl = false →
    ∀ i, (s.connections c).msg.outSize i = 0

/-- A disciplined step whose calls work on clean connections: the first free chunk for a static
handle, the chunk of the handle otherwise. -/
def Tidy (P : Platform Pt Svc) (s : State Pt Svc) (a : Action Pt) : Prop :=
  Disciplined P s a ∧ ∀ caller call handle ctrl inptr outptr c, a = .api caller call →
    call.callParams s.memory = some (handle, ctrl, inptr, outptr) →
    (if isStaticHandle handle then s.poolNext = some c else P.chunkOfHandle handle = some c) →
    CleanCall s handle ctrl c

variable [DecidableEq Pt]

/-- A call on a clean connection is queued with fresh vectors. -/
theorem VectorInv.call {P : Platform Pt Svc} {s s' : State Pt Svc} {L : Ledger Pt} {caller : Pt}
    {call : Api} {clientId : ℤ} {data : Option Word} {handle ctrl inptr outptr : Word} {c : ℕ}
    {σ : Svc} {rpc : Bool} (life : LifeInv P s L) (inv : VectorInv s L)
    (params : call.callParams s.memory = some (handle, ctrl, inptr, outptr))
    (move : CallMove P caller clientId data handle ctrl inptr outptr s s' c σ)
    (clean : CleanCall s handle ctrl c) :
    VectorInv s' (L.send caller c rpc (call.inLen s.memory) (call.outLen s.memory)) := by
  refine inv.of_kept life (fun d d_ne ↦ .of_send life d_ne move.send) ?_
  intro _ _
  obtain ⟨k, associated, accessed, written, fresh, reused⟩ := move.associated
  have phase : (L.send caller c rpc (call.inLen s.memory) (call.outLen s.memory)).phaseOf c =
      .queued := by
    simp [Ledger.phaseOf, Ledger.send]
  -- a new connection is cleared, an existing one is clean
  have left : k.iovecStatus = 0 ∧ (paramHasIovec ctrl = false →
      ∀ i, k.msg.inSize i = 0 ∧ k.msg.outSize i = 0) := by
    rcases move.origin with ⟨-, -, -, free⟩ | ⟨dynamic, -, here⟩
    · obtain ⟨iovecStatus, inSize, outSize⟩ := fresh free
      exact ⟨iovecStatus, fun _ i ↦ ⟨congrFun inSize i, congrFun outSize i⟩⟩
    · rw [reused here]
      exact ⟨clean.iovecStatus dynamic, fun no_iovec i ↦
        ⟨clean.inSize dynamic no_iovec i, clean.outSize dynamic no_iovec i⟩⟩
  rw [phase]
  refine ⟨fun i ↦ ?_, fun i ↦ ?_, fun i ↦ ?_, fun i ↦ ?_, associated.iovecStatus.trans left.1⟩
  · simp only [Ledger.send, Function.update_self, Api.inLen, params]
    rw [associated.inSize]
    split
    · rfl
    · next no_iovec =>
        rw [Bool.not_eq_true] at no_iovec
        rw [callerLen, (associated.counts no_iovec).1, if_neg (Nat.not_lt_zero _)]
        exact (left.2 no_iovec i).1
  · simp only [Ledger.send, Function.update_self, Api.outLen, params]
    rw [associated.outSize]
    split
    · rfl
    · next no_iovec =>
        rw [Bool.not_eq_true] at no_iovec
        rw [callerLen, (associated.counts no_iovec).2, if_neg (Nat.not_lt_zero _)]
        exact (left.2 no_iovec i).2
  · rw [associated.accessed]
    split
    · rfl
    · next beyond =>
        rw [accessed]
        exact clean.accessed i (not_lt.1 beyond)
  · rw [associated.written]
    split
    · rfl
    · next beyond =>
        rw [written]
        exact clean.written i (not_lt.1 beyond)

/-! ## Runs -/

/-- Every move of a tidy step keeps the vectors in order. -/
theorem VectorInv.move {P : Platform Pt Svc} {s s' : State Pt Svc} {L L' : Ledger Pt}
    {a : Action Pt} (life : LifeInv P s L) (inv : VectorInv s L) (tidy : Tidy P s a)
    {effect : Effect} (move : Move P s L s' a effect L') : VectorInv s' L' := by
  cases move with
  | quiet quiet _ => exact fun d here type ↦ inv.kept life (.of_quiet L quiet d) here type
  | message _ _ here delivered move _ => exact inv.message life here delivered move
  | signals _ _ _ _ pool magic connections _ _ _ ledger =>
      intro d here type
      refine inv.kept life (.of_signals magic connections ledger d) here type
  | send _ _ _ move kind =>
      rcases kind with ⟨handle, ctrl, inptr, outptr, params, call⟩ | ⟨-, -, type⟩ | ⟨-, type⟩
      · refine inv.call life params call (tidy.2 _ _ _ _ _ _ _ rfl params ?_)
        rcases call.origin with ⟨static, -, first, -⟩ | ⟨dynamic, chunk, -⟩
        · simpa [static] using first
        · simpa [dynamic] using chunk
      all_goals
        refine inv.of_kept life (fun d d_ne ↦ .of_send life d_ne move) fun _ call ↦ ?_
        rw [type] at call
        exact absurd call (by decide)
  | @deliver p lists before after c signal msg _ mem_lists list_eq _ take not_agent _ _ =>
      obtain ⟨here, list_c⟩ := (mem_lists p c).1 (by simp [list_eq])
      exact inv.deliver life here (life.queued_of_listed here list_c not_agent) take
  | reply here _ _ _ _ _ move =>
      refine inv.of_kept life (fun d d_ne ↦ .of_reply life here d_ne (move.imp And.right And.right))
        fun _ _ ↦ vectorsOf_reply ..
  | @collect p msg s₁ lists before after c _ mem_lists list_eq _ take _ _ state =>
      obtain ⟨here, -⟩ := (mem_lists p c).1 (by simp [list_eq])
      have here₁ : s₁.Allocated c := by
        rw [State.Allocated, take.magic]
        exact here
      have released := released_releaseConnection
        (life.pool.congr take.poolNext take.chunkNext take.magic) here₁
      rw [state]
      refine inv.of_kept life (fun d d_ne ↦ .of_collect life here d_ne take released) fun _ _ ↦ ?_
      have phase : (L.collect c).phaseOf c = .replied := Function.update_self ..
      rw [phase]
      trivial

/-- In every tidy run, delivered messages describe their calls and vectors are used within their
lengths. -/
theorem vectorSafe_of_tidy (P : Platform Pt Svc) (trailer : P.trailer ≠ poolMagicAllocated)
    (x : State Pt Svc × Ledger Pt) (a : Action Pt) (effect : Effect) (s' : State Pt Svc)
    (reached : Reached P (fun x a ↦ Tidy P x.1 a) x) (tidy : Tidy P x.1 a)
    (step_eq : step P x.1 a = some (effect, s')) : VectorSafe x a effect s' := by
  have life := lifeInv_of_reached trailer (fun _ _ tidy ↦ tidy.1) reached
  have inv : VectorInv x.1 x.2 := by
    obtain ⟨memory, behind, reaches⟩ := reached
    refine (reaches.invariant (I := fun x ↦ LifeInv P x.1 x.2 ∧ VectorInv x.1 x.2)
      ⟨lifeInv_initial trailer memory behind, fun c here ↦
        absurd here (not_allocated_initial trailer memory behind c)⟩ ?_).2
    rintro before a after ⟨life, inv⟩ tidy step_eq
    obtain ⟨effect, step_eq, ledger⟩ := tracedStep_eq_some.1 step_eq
    have move := move_of_step life tidy.1 step_eq
    rw [ledger]
    exact ⟨life.move move, inv.move life tidy move⟩
  refine ⟨?_, ?_⟩
  · rintro caller signal msg c body rfl rfl type
    obtain ⟨-, result, run⟩ := step_api_eq_some step_eq
    obtain ⟨lists, chains, mem_lists⟩ := life.lists
    rcases get_cases chains (LifeInv.disjoint mem_lists) (LifeInv.bounded life.pool mem_lists) run
      with ⟨effect, -⟩ | ⟨before, d, after, list_eq, effect, -, take, -⟩
    · cases effect
    · cases effect
      obtain ⟨here, list_c⟩ := (mem_lists caller c).1 (by simp [list_eq])
      have fresh := inv c here type
      rw [life.queued_of_listed here list_c tidy.1] at fresh
      obtain ⟨link, connection⟩ := take.connections c
      simp only at connection
      rw [connection]
      exact ⟨fresh.inSize, fresh.outSize, fresh.accessed, fresh.written, fresh.iovecStatus⟩
  · intro c caller handle here delivered type
    have bounds := inv c here type
    rw [delivered] at bounds
    exact bounds

/-- A call with two input vectors is followed by one with a single vector on the same connection:
the message of the second call comes with four bytes of a vector it does not have already read. -/
theorem not_vectorSafe :
    ¬∀ x a effect s', Reached samplePlatform (fun _ _ ↦ True) x →
      step samplePlatform x.1 a = some (effect, s') → VectorSafe x a effect s' := by
  intro safe
  have stale : (sampleRun [.api false (.connect 0 0x100 1), .api true (.get 0x10 0x2000),
      .api true (.reply 0x402 0), .schedule false, .store 0x300C 4,
      .api false (.call 0 0x402 0x02000000 0x3000 0), .api true (.get 0x10 0x2000),
      .api true (.read 0x402 1 0x4000 4), .api true (.reply 0x402 0), .schedule false,
      .api false (.call 0 0x402 0x01000000 0x3000 0)]).any
      (fun x ↦ (step samplePlatform x.1 (.api true (.get 0x10 0x2000))).any
        fun y ↦ y.1.delivers fun c body ↦
          psaIpcCall ≤ body.type ∧ (y.2.connections c).invecAccessed 1 = 4) = true := by
    decide +kernel
  obtain ⟨x, run, stale⟩ := (Option.any_eq_true ..).1 stale
  obtain ⟨⟨effect, s'⟩, step_eq, stale⟩ := (Option.any_eq_true ..).1 stale
  have safe := safe x _ effect s' (reached_of_sampleRun run (Run.allowed_true ..)) step_eq
  cases effect with
  | delivered c body =>
      obtain ⟨type, accessed⟩ := of_decide_eq_true stale
      rw [(safe.delivered _ _ _ c body rfl rfl type).accessed 1] at accessed
      exact absurd accessed (by decide)
  | quiet => cases stale
  | sent => cases stale
  | replied => cases stale
  | collected => cases stale
  | returned => cases stale

/-- The first message of a stateless call with two input vectors. -/
theorem vectorSafe_first_call :
    ∃ x effect s', sampleRun [.store 0x300C 4,
        .api false (.call 0 0x40000100 0x02000000 0x3000 0)] = some x ∧
      step samplePlatform x.1 (.api true (.get 0x20 0x2000)) = some (effect, s') ∧
      VectorSafe x (.api true (.get 0x20 0x2000)) effect s' := by
  have delivered : (sampleRun [.store 0x300C 4,
      .api false (.call 0 0x40000100 0x02000000 0x3000 0)]).any
      (fun x ↦ (step samplePlatform x.1 (.api true (.get 0x20 0x2000))).isSome) = true := by
    decide +kernel
  obtain ⟨x, run, delivered⟩ := (Option.any_eq_true ..).1 delivered
  obtain ⟨⟨effect, s'⟩, step_eq⟩ := Option.isSome_iff_exists.1 delivered
  refine ⟨x, effect, s', run, step_eq, vectorSafe_of_tidy samplePlatform (by decide) x _ effect s'
    (reached_of_sampleRun run ?_) ⟨rfl, ?_⟩ step_eq⟩
  · refine ⟨⟨trivial, fun _ _ _ _ _ _ _ api ↦ by cases api⟩, fun after stored ↦ ?_⟩
    cases stored
    refine ⟨⟨rfl, ?_⟩, fun _ _ ↦ trivial⟩
    rintro caller call handle ctrl inptr outptr c ⟨⟩ ⟨⟩ first
    have c_eq : some 1 = some c := first
    cases c_eq
    exact ⟨fun _ _ ↦ rfl, fun _ _ ↦ rfl, fun _ ↦ rfl, fun _ _ _ ↦ rfl, fun _ _ _ ↦ rfl⟩
  · rintro caller call handle ctrl inptr outptr c ⟨⟩ ⟨⟩

end TrustedFirmwareM.Spm
