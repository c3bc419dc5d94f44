import TrustedFirmwareM.Spm.Discipline

/-!
# Message handles

A message handle should be accepted only for a message that was handed to the calling partition and
that it has not replied to.  The manager checks less: it looks at the pool and at the owner of the
service, so a handle stays usable after the reply as long as the connection goes on.
-/

namespace TrustedFirmwareM.Spm

variable {Pt Svc : Type} [DecidableEq Pt]

/-- What the life cycle of message handles asks of one step. -/
structure MessageHandleSafe (P : Platform Pt Svc) (x : State Pt Svc × Ledger Pt) (a : Action Pt)
    (y : State Pt Svc × Ledger Pt) : Prop where
  /-- An accepted message handle is that of a request handed to the caller under this handle and
  not yet replied to. -/
  accepted : ∀ caller call handle, a = .api caller call → call.msgHandle = some handle →
    ∃ c, P.chunkOfHandle handle = some c ∧ x.2.onChunk c < x.2.sent ∧
      x.2.phase (x.2.onChunk c) = .delivered caller handle
  /-- Every request made so far has no reply while it is pending, and exactly one afterwards. -/
  one_reply : ∀ r, r < y.2.sent → y.2.replies r = if (y.2.phase r).Pending then 0 else 1
  /-- A reply that signals a client, or sets its return value, is the reply to a pending request of
  that client, and a client that is no agent waits for that request. -/
  awaited : ∀ caller handle status, a = .api caller (.reply handle status) → ∀ q,
    (y.1.partitions q).replyValue ≠ (x.1.partitions q).replyValue ∨
      (y.1.partitions q).signalsAsserted ≠ (x.1.partitions q).signalsAsserted →
    ∃ c, (x.1.connections c).pClient = some q ∧ (x.2.phaseOf c).Pending ∧
      y.2.replies (x.2.onChunk c) = x.2.replies (x.2.onChunk c) + 1 ∧
      ((P.partition q).nsAgentMailbox = false → x.2.waitingFor q = some (x.2.onChunk c))

/-- A message function resolves its handle before anything else. -/
theorem accepted_of_run {P : Platform Pt Svc} {s : State Pt Svc} {caller : Pt} {call : Api}
    {handle : Word} {outcome : Outcome Pt Svc} (msgHandle : call.msgHandle = some handle)
    (run : call.run P s caller = some outcome) :
    ∃ c, spmMsgHandleToConnection P s caller handle = some c := by
  cases call <;> cases msgHandle
  case setRhandle => exact ⟨_, (psaSetRhandle_spec run).2.choose_spec.1⟩
  case read => exact ⟨_, (psaRead_spec run).2.choose_spec.1⟩
  case skip => exact ⟨_, (psaSkip_spec run).2.choose_spec.1⟩
  case write => exact ⟨_, (psaWrite_spec run).2.choose_spec.1⟩
  case mapInvec => exact ⟨_, (psaMapInvec_spec run).2.choose_spec.1⟩
  case unmapInvec => exact ⟨_, (psaUnmapInvec_spec run).2.choose_spec.1⟩
  case mapOutvec => exact ⟨_, (psaMapOutvec_spec run).2.choose_spec.1⟩
  case unmapOutvec => exact ⟨_, (psaUnmapOutvec_spec run).2.choose_spec.1⟩
  case reply status =>
      simp only [Api.run, tfmSpmPartitionPsaReply, Option.bind_eq_bind,
        Option.bind_eq_some_iff] at run
      obtain ⟨c, accepted, -⟩ := run
      exact ⟨c, accepted⟩

/-- A reply reaches the client of its request and nobody else. -/
theorem Move.awaited {P : Platform Pt Svc} {s s' : State Pt Svc} {L L' : Ledger Pt} {caller : Pt}
    {handle : Word} {status : ℤ} (inv : LifeInv P s L) (served : Served P s handle)
    (step_eq : step P s (.api caller (.reply handle status)) = some (effect, s'))
    (ledger : L' = L.observe s s' (.api caller (.reply handle status)) effect) (q : Pt)
    (changed : (s'.partitions q).replyValue ≠ (s.partitions q).replyValue ∨
      (s'.partitions q).signalsAsserted ≠ (s.partitions q).signalsAsserted) :
    ∃ c, (s.connections c).pClient = some q ∧ (L.phaseOf c).Pending ∧
      L'.replies (L.onChunk c) = L.replies (L.onChunk c) + 1 ∧
      ((P.partition q).nsAgentMailbox = false → L.waitingFor q = some (L.onChunk c)) := by
  obtain ⟨-, result, run⟩ := step_api_eq_some step_eq
  obtain ⟨c, σ, client, accepted, service, client_eq, effect_eq, -, move⟩ :=
    reply_cases inv.pool run
  obtain ⟨here, delivered⟩ := inv.delivered_of_served served accepted
  have pending : (L.phaseOf c).Pending := by
    rw [delivered]
    trivial
  have active : (s.connections c).status ≠ .toFree := by
    have record := (inv.chunk c here).record
    rw [delivered] at record
    rw [record.1]
    simp
  have q_eq : q = client := by
    by_contra q_ne
    rcases move with ⟨-, move⟩ | ⟨-, move⟩
    · refine changed.elim (fun value ↦ value (move.replyValue q)) fun asserted ↦ asserted ?_
      rw [move.asserted, if_neg q_ne]
    · have move := move active
      refine changed.elim (fun value ↦ value (move.replyValue q q_ne)) fun asserted ↦ asserted ?_
      rw [move.asserted, if_neg q_ne]
  subst q_eq
  refine ⟨c, client_eq, pending, ?_, fun not_agent ↦ ?_⟩
  · simp only at effect_eq
    rw [ledger, effect_eq]
    simp [Ledger.observe, Ledger.reply]
  · obtain ⟨q', q'_eq, -, rpc, waits⟩ := (inv.chunk c here).client
    rw [client_eq] at q'_eq
    cases q'_eq
    exact (waits pending (rpc.trans not_agent)).waitingFor

/-- In every run of disciplined steps, message handles follow their life cycle. -/
theorem messageHandleSafe_of_disciplined (P : Platform Pt Svc)
    (trailer : P.trailer ≠ poolMagicAllocated) (x y : State Pt Svc × Ledger Pt) (a : Action Pt)
    (reached : Reached P (fun x a ↦ Disciplined P x.1 a) x) (disciplined : Disciplined P x.1 a)
    (step_eq : tracedStep P x a = some y) : MessageHandleSafe P x a y := by
  have inv := lifeInv_of_reached trailer (fun _ _ allowed ↦ allowed) reached
  obtain ⟨effect, step_eq, ledger⟩ := tracedStep_eq_some.1 step_eq
  have inv' : LifeInv P y.1 y.2 := by
    rw [ledger]
    exact inv.move (move_of_step inv disciplined step_eq)
  refine ⟨?_, ?_, ?_⟩
  · rintro caller call handle rfl msgHandle
    obtain ⟨-, result, run⟩ := step_api_eq_some step_eq
    obtain ⟨c, accepted⟩ := accepted_of_run msgHandle run
    obtain ⟨here, delivered⟩ :=
      inv.delivered_of_served (Api.Disciplined.served disciplined msgHandle) accepted
    exact ⟨c, (spmMsgHandleToConnection_eq_some.1 accepted).1, (inv.chunk c here).request_lt,
      delivered⟩
  · intro r r_lt
    split
    · next pending => exact inv'.replies_pending r r_lt pending
    · next done => exact inv'.replies_done r r_lt done
  · rintro caller handle status rfl q changed
    exact Move.awaited inv disciplined step_eq ledger q changed

/-- A connection is granted, and the reply that granted it is then given once more: the handle is
still accepted, and the connection request has two replies. -/
theorem not_messageHandleSafe :
    ¬∀ x a y, Reached samplePlatform (fun _ _ ↦ True) x → tracedStep samplePlatform x a = some y →
      MessageHandleSafe samplePlatform x a y := by
  intro safe
  have twice : (sampleRun ([.api false (.connect 0 0x100 1), .api true (.get 0x10 0x2000),
      .api true (.reply 0x402 0), .schedule false] ++ [.api true (.reply 0x402 0)])).any
      (fun y ↦ y.2.sent = 1 ∧ y.2.replies 0 = 2) = true := by
    decide +kernel
  obtain ⟨y, run, replies⟩ := (Option.any_eq_true ..).1 twice
  obtain ⟨x, run, step_eq⟩ := Run.exec_concat_eq_some run
  obtain ⟨sent, replies⟩ := of_decide_eq_true replies
  have one := (safe x _ y (reached_of_sampleRun run (Run.allowed_true ..)) step_eq).one_reply 0
    (by omega)
  rw [replies] at one
  split at one <;> cases one

/-- The first reply of that run, to a message that is being served. -/
theorem messageHandleSafe_first_reply :
    ∃ x y, sampleRun [.api false (.connect 0 0x100 1), .api true (.get 0x10 0x2000)] = some x ∧
      Served samplePlatform x.1 0x402 ∧
      tracedStep samplePlatform x (.api true (.reply 0x402 0)) = some y ∧
      MessageHandleSafe samplePlatform x (.api true (.reply 0x402 0)) y := by
  have served : (sampleRun ([.api false (.connect 0 0x100 1), .api true (.get 0x10 0x2000)] ++
      [.api true (.reply 0x402 0)])).isSome = true ∧
      (sampleRun [.api false (.connect 0 0x100 1), .api true (.get 0x10 0x2000)]).all
        (fun x ↦ Served samplePlatform x.1 0x402) = true := by
    decide +kernel
  obtain ⟨y, run⟩ := Option.isSome_iff_exists.1 served.1
  obtain ⟨x, run, step_eq⟩ := Run.exec_concat_eq_some run
  have serving : Served samplePlatform x.1 0x402 := by
    have holds := served.2
    rw [sampleRun, run] at holds
    exact of_decide_eq_true holds
  refine ⟨x, y, run, serving, step_eq, messageHandleSafe_of_disciplined samplePlatform (by decide)
    x y _ (reached_of_sampleRun run ?_) serving step_eq⟩
  exact ⟨rfl, fun _ _ ↦ ⟨rfl, fun _ _ ↦ trivial⟩⟩

end TrustedFirmwareM.Spm
