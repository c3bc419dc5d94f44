import TrustedFirmwareM.Spm.UnderWay

/-!
# Results of the agent interface

The status that a request of an agent returns tells the agent whether a reply will follow: success
means that the request was queued, and any other status that nothing was.  The one exception is the
null handle, which closes nothing and succeeds.  None of the calls changes the memory.
-/

namespace TrustedFirmwareM.Spm

variable {Pt Svc : Type}

/-- `spm_get_idle_connection` fails with an error, and leaves the memory alone. -/
theorem spmGetIdleConnection_error {P : Platform Pt Svc} {s : State Pt Svc} {caller : Pt}
    {handle : Word} {clientId status : ℤ}
    (run : spmGetIdleConnection P s caller handle clientId = .error status) :
    status ≠ psaSuccess := by
  rintro rfl
  dsimp only [spmGetIdleConnection] at run
  repeat' split at run
  all_goals cases run

variable [DecidableEq Pt]

/-- Queueing a request of an agent succeeds, and leaves the memory alone. -/
theorem backendMessaging_result {P : Platform Pt Svc} {s s' : State Pt Svc} {c : ℕ} {ret : ℤ}
    (run : backendMessaging P s c = some (ret, s')) :
    s'.memory = s.memory ∧ ((s'.connections c).service ≠ none →
      tfmSpmIsRpcMsg (s'.connections c) = true → ret = psaSuccess) := by
  cases service : (s.connections c).service with
  | none =>
      simp only [backendMessaging, service, Option.some.injEq, Prod.mk.injEq] at run
      obtain ⟨-, rfl⟩ := run
      exact ⟨rfl, fun some_service ↦ absurd service some_service⟩
  | some σ =>
      have rpc_eq : tfmSpmIsRpcMsg (s'.connections c) = tfmSpmIsRpcMsg (s.connections c) := by
        rw [(backendMessaging_spec service run).connection]
        rfl
      have inserted : tfmSpmIsRpcMsg ((backendAssertSignal
          (insertHandle s (P.service σ).partition c) (P.service σ).partition
          (P.service σ).signal).2.connections c) = tfmSpmIsRpcMsg (s.connections c) := by
        simp [backendAssertSignal, insertHandle, tfmSpmIsRpcMsg]
      simp only [backendMessaging, service, inserted] at run
      rw [rpc_eq]
      cases rpc : tfmSpmIsRpcMsg (s.connections c) with
      | true =>
          simp only [rpc, if_true, Option.bind_eq_bind, Option.bind_some, Option.some.injEq,
            Prod.mk.injEq] at run
          obtain ⟨rfl, rfl⟩ := run
          exact ⟨rfl, fun _ _ ↦ rfl⟩
      | false =>
          simp only [rpc, Bool.false_eq_true, if_false, Option.bind_eq_bind,
            Option.bind_eq_some_iff, Option.some.injEq, Prod.exists, Prod.mk.injEq] at run
          obtain ⟨client, -, ret₂, s₂, ⟨-, rfl⟩, -, rfl⟩ := run
          refine ⟨?_, fun _ impossible ↦ by cases impossible⟩
          dsimp only [backendWaitSignals]
          split <;> rfl

/-- What the status of a request says. -/
structure Status (s : State Pt Svc) (outcome : Outcome Pt Svc) : Prop where
  /-- The memory does not change. -/
  memory : outcome.state.memory = s.memory
  /-- A request that was not queued has failed. -/
  failed : outcome.effect = .quiet → outcome.result ≠ psaSuccess
  /-- A queued request of an agent has succeeded. -/
  queued : ∀ c, outcome.effect = .sent c → (outcome.state.connections c).service ≠ none →
    tfmSpmIsRpcMsg (outcome.state.connections c) = true → outcome.result = psaSuccess

omit [DecidableEq Pt] in
theorem Status.of_error {s : State Pt Svc} {s' : State Pt Svc} {status : ℤ}
    (memory : s'.memory = s.memory) (error : status ≠ psaSuccess) :
    Status s ⟨status, .quiet, s'⟩ :=
  ⟨memory, fun _ ↦ error, fun _ impossible ↦ by cases impossible⟩

theorem Status.of_send {P : Platform Pt Svc} {s s₀ : State Pt Svc} {c : ℕ}
    {outcome : Outcome Pt Svc} (memory : s₀.memory = s.memory)
    (run : sendRequest P s₀ c = some outcome) : Status s outcome := by
  simp only [sendRequest, Option.bind_eq_bind, Option.bind_eq_some_iff, Prod.exists] at run
  obtain ⟨ret, s', messaging, run⟩ := run
  cases run
  obtain ⟨memory', success⟩ := backendMessaging_result messaging
  refine ⟨memory'.trans memory, ?_, ?_⟩
  · intro impossible
    cases impossible
  · intro d effect
    cases effect
    exact success

theorem call_status {P : Platform Pt Svc} {s : State Pt Svc} {caller : Pt} {clientId : ℤ}
    {handle ctrl inptr outptr : Word} {data : Option Word} {outcome : Outcome Pt Svc}
    (pool : PoolInv P s)
    (run : callClientIdAssociated P s caller clientId handle ctrl inptr outptr data =
      some outcome) : Status s outcome := by
  rw [callClientIdAssociated] at run
  split at run
  · next error =>
      cases run
      exact .of_error rfl (spmGetIdleConnection_error error)
  · next c s₀ ok =>
      have memory := (spmGetIdleConnection_ok pool ok).1.memory
      dsimp only at run
      split at run
      · next failed =>
          cases run
          refine .of_error ?_ failed
          split <;> exact memory
      · refine .of_send ?_ run
        exact memory

theorem connect_status {P : Platform Pt Svc} {s : State Pt Svc} {caller : Pt} {clientId : ℤ}
    {sid version clientData : Word} {outcome : Outcome Pt Svc}
    (run : connectClientIdAssociated P s caller sid version clientId clientData =
      some outcome) : Status s outcome := by
  simp only [connectClientIdAssociated] at run
  generalize connect : spmPsaConnectClientIdAssociated P s caller sid version clientId = result
    at run
  simp only [spmPsaConnectClientIdAssociated, tfmSpmGetServiceBySid] at connect
  split at connect
  · cases connect
    cases run
    exact .of_error rfl (by decide)
  next found =>
  split at found
  · cases found
  cases found
  split at connect
  · cases connect
    cases run
    exact .of_error rfl (by decide)
  split at connect
  · cases connect
    cases run
    exact .of_error rfl (by decide)
  split at connect
  · cases connect
    cases run
    exact .of_error rfl (by decide)
  split at connect
  · cases connect
    cases run
    exact .of_error rfl (by decide)
  next c s₁ alloc =>
  cases connect
  refine .of_send ?_ run
  rw [tfmPoolAlloc] at alloc
  split at alloc
  · cases alloc
  · cases alloc
    rfl

theorem close_status {P : Platform Pt Svc} {s : State Pt Svc} {caller : Pt} {clientId : ℤ}
    {handle : Word} {outcome : Outcome Pt Svc} (pool : PoolInv P s) (not_null : handle ≠ 0)
    (run : spmPsaCloseClientIdAssociated P s caller handle clientId = some outcome) :
    Status s outcome := by
  rw [spmPsaCloseClientIdAssociated, if_neg not_null] at run
  split at run
  · cases run
    exact .of_error rfl (by decide)
  split at run
  · next error =>
      cases run
      exact .of_error rfl (spmGetIdleConnection_error error)
  · next c s₀ ok =>
      refine .of_send ?_ run
      exact (spmGetIdleConnection_ok pool ok).1.memory

omit [DecidableEq Pt] in
theorem releaseConnection_memory (P : Platform Pt Svc) (s : State Pt Svc) (c : ℕ) :
    (releaseConnection P s c).memory = s.memory := by
  rw [releaseConnection]
  split <;> rfl

theorem removeHandle_memory (s : State Pt Svc) (p : Pt) (before : List ℕ) (c : ℕ) :
    (removeHandle s p before c).memory = s.memory := by
  rw [removeHandle]
  split <;> rfl

/-- `psa_get` stores at most one message. -/
theorem psaGet_memory {P : Platform Pt Svc} {s : State Pt Svc} {caller : Pt} {signal msg : Word}
    {outcome : Outcome Pt Svc} (run : tfmSpmPartitionPsaGet P s caller signal msg = some outcome) :
    outcome.state.memory = s.memory ∨
      ∃ body : Msg, outcome.state.memory = storeWords s.memory msg body.words := by
  rw [tfmSpmPartitionPsaGet] at run
  split at run
  · cases run
  split at run
  · cases run
  split at run
  · cases run
  dsimp only at run
  split at run
  · simp only [takeAsyncReply, Option.bind_eq_bind, Option.bind_eq_some_iff, Prod.exists] at run
    obtain ⟨c, s₁, ⟨handles, -, taken⟩, run⟩ := run
    have memory : s₁.memory = s.memory := by
      split at taken
      · cases taken
      · cases taken
        split <;> exact removeHandle_memory ..
    cases run
    exact .inr ⟨(s₁.connections c).msg, by rw [← memory]⟩
  · simp only [spmGetHandleBySignal, Option.bind_eq_bind, Option.bind_eq_some_iff,
      Prod.exists] at run
    obtain ⟨found, s₁, ⟨handles, -, taken⟩, run⟩ := run
    have memory : s₁.memory = s.memory := by
      split at taken
      · cases taken
        rfl
      · cases taken
        split <;> exact removeHandle_memory ..
    cases found with
    | none =>
        cases run
        exact .inl memory
    | some c =>
        cases run
        exact .inr ⟨(s₁.connections c).msg, by rw [← memory]⟩

theorem rpcClientCallReply_memory {P : Platform Pt Svc} {s : State Pt Svc} {caller : Pt}
    {msg : Word} {outcome : Outcome Pt Svc}
    (run : tfmRpcClientCallReply P s caller msg = some outcome) :
    outcome.state.memory = s.memory ∨
      ∃ body : Msg, outcome.state.memory = storeWords s.memory msg body.words := by
  simp only [tfmRpcClientCallReply, Option.bind_eq_bind, Option.bind_eq_some_iff] at run
  obtain ⟨taken, get, run⟩ := run
  split at run
  · simp only [Option.bind_eq_some_iff] at run
    obtain ⟨d, -, run⟩ := run
    cases run
    rw [releaseConnection_memory]
    exact psaGet_memory get
  · cases run

omit [DecidableEq Pt] in
theorem replyValueOf_memory {P : Platform Pt Svc} {s s' : State Pt Svc} {c : ℕ} {σ : Svc}
    {handle : Word} {status ret : ℤ}
    (run : replyValueOf P s c σ handle status = some (ret, s')) :
    s'.memory = if psaIpcCall ≤ (s.connections c).msg.type then
      updateCallerOutvecLen s.memory (dropMapped (s.connections c)) else s.memory := by
  dsimp only [replyValueOf] at run
  split at run
  · next connect =>
      rw [connect, if_neg (by decide)]
      repeat' split at run
      all_goals
        cases run
        try rfl
  split at run
  · next disconnect =>
      rw [disconnect, if_neg (by decide)]
      cases run
      rfl
  split at run
  · next call =>
      rw [if_pos call]
      cases run
      split <;> rfl
  · cases run

/-- The only memory that `psa_reply` writes are the output vector lengths of a call. -/
theorem psaReply_memory {P : Platform Pt Svc} {s : State Pt Svc} {caller : Pt} {handle : Word}
    {status replied : ℤ} {outcome : Outcome Pt Svc} {c : ℕ}
    (run : tfmSpmPartitionPsaReply P s caller handle status = some outcome)
    (effect : outcome.effect = .replied c replied) :
    outcome.state.memory = if psaIpcCall ≤ (s.connections c).msg.type then
      updateCallerOutvecLen s.memory (dropMapped (s.connections c)) else s.memory := by
  simp only [tfmSpmPartitionPsaReply, Option.bind_eq_bind, Option.bind_eq_some_iff,
    Prod.exists] at run
  obtain ⟨d, -, σ, -, ret, s₁, value, run⟩ := run
  split at run
  · cases run
  simp only [backendReplying, Option.bind_eq_bind, Option.bind_eq_some_iff, Prod.exists] at run
  obtain ⟨ret', s₂, ⟨client, -, replying⟩, run⟩ := run
  have memory : s₂.memory = s₁.memory := by
    split at replying <;> cases replying <;> rfl
  split at run
  · cases run
    cases effect
    exact memory.trans (replyValueOf_memory value)
  · cases run
    cases effect
    exact (releaseConnection_memory ..).trans (memory.trans (replyValueOf_memory value))

/-- A collected reply carries the result that was entered on its chunk. -/
theorem collect_result {P : Platform Pt Svc} {s : State Pt Svc} {L : Ledger Pt} {agent : Pt}
    {msg : Word} {outcome : Outcome Pt Svc} (life : LifeInv P s L)
    (mailbox : (P.partition agent).nsAgentMailbox = true)
    (run : tfmRpcClientCallReply P s agent msg = some outcome) :
    ∃ c, outcome.effect = .collected c ∧ outcome.result = (s.connections c).replyValue := by
  obtain ⟨lists, chains, mem_lists⟩ := life.lists
  obtain ⟨before, c, after, d, s₁, list_eq, pointer, -, -, -, effect, -, result⟩ :=
    rpcClientCallReply_cases chains (LifeInv.disjoint mem_lists)
      (LifeInv.bounded life.pool mem_lists) run
  obtain ⟨here, list_c⟩ := (mem_lists agent c).1 (by simp [list_eq])
  obtain ⟨-, own⟩ := life.replyQueued_of_listed mailbox here list_c
  rw [own] at pointer
  cases pointer
  exact ⟨c, effect, result⟩

end TrustedFirmwareM.Spm
