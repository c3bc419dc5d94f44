import TrustedFirmwareM.Spm.Discipline

/-!
# Client identifiers

A message should show its service who sent it.  The ordinary client interface computes the
identifier from the caller, but the agent interface takes it as an argument: the call checks neither
that the caller is an agent nor the identifier, and connecting and closing check its sign but not
its range.
-/

namespace TrustedFirmwareM.Spm

open LinkedList

variable {Pt Svc : Type} [DecidableEq Pt]

/-- Enter who made the latest request on each chunk. -/
def noteSender (sender : ℕ → Option Pt) : Action Pt → Effect → ℕ → Option Pt
  | .api caller _, .sent c => Function.update sender c (some caller)
  | _, _ => sender

/-- A step of the system together with its ledger and the senders of requests. -/
def signedStep (P : Platform Pt Svc) (x : (State Pt Svc × Ledger Pt) × (ℕ → Option Pt))
    (a : Action Pt) : Option ((State Pt Svc × Ledger Pt) × (ℕ → Option Pt)) :=
  (step P x.1.1 a).map fun (effect, s') ↦
    ((s', x.1.2.observe x.1.1 s' a effect), noteSender x.2 a effect)

/-- States reached by runs whose steps satisfy a condition, with the senders of requests. -/
def SignedReached (P : Platform Pt Svc) (guard : State Pt Svc → Action Pt → Prop)
    (x : (State Pt Svc × Ledger Pt) × (ℕ → Option Pt)) : Prop :=
  ∃ memory behind, Run.Reaches (signedStep P) (fun x a ↦ guard x.1.1 a)
    ((initialState P memory behind, .empty), fun _ ↦ none) x

/-- What is asked of the client identifiers in one step. -/
structure IdentitySafe (P : Platform Pt Svc) (x : (State Pt Svc × Ledger Pt) × (ℕ → Option Pt))
    (a : Action Pt) (effect : Effect) (s' : State Pt Svc) : Prop where
  /-- A message handed to a service shows an identifier that its sender owns: its own partition
  identifier, or for an agent a negative one of its range. -/
  delivered : ∀ caller signal msg c body, a = .api caller (.get signal msg) →
    signal ≠ asyncMsgReply → effect = .delivered c body →
    ∃ q, x.2 c = some q ∧ (P.partition q).Owns body.clientId
  /-- A request is made under an identifier that the caller owns. -/
  sent : ∀ caller call c, a = .api caller call → effect = .sent c →
    (P.partition caller).Owns (s'.connections c).msg.clientId
  /-- An existing connection is used or closed by its own client only, under the identifier that it
  was made with. -/
  used : ∀ caller call c, a = .api caller call → effect = .sent c → x.1.1.Allocated c →
    (x.1.1.connections c).pClient = some caller ∧
      (s'.connections c).msg.clientId = (x.1.1.connections c).msg.clientId

/-! ## The invariant -/

/-- A chunk that stays allocated keeps its client. -/
theorem Move.pClient {P : Platform Pt Svc} {s s' : State Pt Svc} {L L' : Ledger Pt} {a : Action Pt}
    {effect : Effect} (move : Move P s L s' a effect L') {d : ℕ} (here : s.Allocated d)
    (here' : s'.Allocated d) : (s'.connections d).pClient = (s.connections d).pClient := by
  cases move with
  | quiet quiet _ => exact (quiet.identity d here).pClient
  | @message _ _ c _ _ _ _ _ _ move _ =>
      by_cases d_eq : d = c
      · subst d_eq
        exact move.identity.pClient
      · obtain ⟨k, memory, rfl⟩ := move.state
        simp [d_eq]
  | signals _ _ _ _ _ _ connections => rw [connections]
  | @send _ _ _ _ c _ _ _ _ move _ =>
      by_cases d_eq : d = c
      · subst d_eq
        exact (move.reused here).2.2.2.1
      · rw [move.connections_other d d_eq]
  | deliver _ _ _ _ take _ _ _ =>
      obtain ⟨link, connection⟩ := take.connections d
      rw [connection]
  | @reply _ c _ _ _ _ _ _ _ _ _ _ move =>
      rcases move with ⟨-, move⟩ | ⟨-, move⟩
      · by_cases d_eq : d = c
        · subst d_eq
          obtain ⟨written, replyValue, connection⟩ := move.connection
          rw [connection]
        · rw [move.other d d_eq]
      · by_cases d_eq : d = c
        · subst d_eq
          obtain ⟨written, connection⟩ := move.connection (move.allocated.1 here')
          rw [connection]
        · rw [move.connections_other d d_eq]
  | @collect _ _ s₁ _ _ _ c _ mem_lists list_eq _ take _ _ state =>
      obtain ⟨link, connection⟩ := take.connections d
      rw [state, releaseConnection]
      split
      · next freed =>
          rw [state, releaseConnection, if_pos freed] at here'
          by_cases d_eq : d = c
          · subst d_eq
            simp only [State.Allocated, tfmPoolFree, Function.update_self] at here'
            exact absurd here' (by decide)
          · simp [tfmPoolFree, d_eq, connection]
      · by_cases d_eq : d = c
        · subst d_eq
          simp [connection]
        · simp [d_eq, connection]

/-- Only a request allocates a chunk. -/
theorem Move.allocated_before {P : Platform Pt Svc} {s s' : State Pt Svc} {L L' : Ledger Pt}
    {a : Action Pt} {effect : Effect} (move : Move P s L s' a effect L') {d : ℕ}
    (here' : s'.Allocated d) : s.Allocated d ∨ effect = .sent d := by
  cases move with
  | quiet quiet _ => exact .inl ((quiet.allocated d).1 here')
  | message _ _ _ _ move _ =>
      obtain ⟨k, memory, rfl⟩ := move.state
      exact .inl here'
  | signals _ _ _ _ _ magic =>
      rw [State.Allocated, magic] at here'
      exact .inl here'
  | @send _ _ _ _ c _ _ _ _ move _ =>
      by_cases d_eq : d = c
      · exact .inr (by rw [d_eq])
      · rw [State.Allocated, move.magic_other d d_eq] at here'
        exact .inl here'
  | deliver _ _ _ _ take _ _ _ =>
      rw [State.Allocated, take.magic] at here'
      exact .inl here'
  | @reply _ c _ _ _ _ here _ _ _ _ _ move =>
      rcases move with ⟨-, move⟩ | ⟨-, move⟩
      · rw [State.Allocated, move.magic] at here'
        exact .inl here'
      · by_cases d_eq : d = c
        · exact .inl (by rwa [d_eq])
        · rw [State.Allocated, move.magic_other d d_eq] at here'
          exact .inl here'
  | @collect p _ s₁ _ _ _ c _ mem_lists list_eq _ take _ _ state =>
      refine .inl ?_
      by_cases d_eq : d = c
      · rw [d_eq]
        exact ((mem_lists p c).1 (by simp [list_eq])).1
      · rw [state, releaseConnection] at here'
        split at here'
        · simpa [State.Allocated, tfmPoolFree, d_eq, take.magic] using here'
        · simpa [State.Allocated, take.magic] using here'

/-- A request is made by the client of its connection, under an identifier that the client owns. -/
theorem Move.of_sent {P : Platform Pt Svc} {s s' : State Pt Svc} {L L' : Ledger Pt} {a : Action Pt}
    {c : ℕ} (life : LifeInv P s L) (move : Move P s L s' a (.sent c) L') :
    ∃ caller call, a = .api caller call ∧ (s'.connections c).pClient = some caller ∧
      (P.partition caller).Owns (s'.connections c).msg.clientId ∧
      (s.Allocated c → (s'.connections c).msg.clientId = (s.connections c).msg.clientId) := by
  cases move with
  | signals meaning =>
      rcases meaning with impossible | ⟨_, _, -, impossible⟩ <;> cases impossible
  | @send caller call _ _ _ _ _ owns _ move _ =>
      refine ⟨caller, call, rfl, move.pClient_eq life owns, ?_, fun here ↦ ?_⟩
      · rw [move.client_id]
        exact owns
      · rw [move.client_id, (move.reused here).2.1]

/-- The latest request on a chunk was made by the client of its connection. -/
def SenderInv (s : State Pt Svc) (sender : ℕ → Option Pt) : Prop :=
  ∀ c, s.Allocated c → sender c = (s.connections c).pClient

omit [DecidableEq Pt] in
theorem noteSender_of_ne {sender : ℕ → Option Pt} {a : Action Pt} {effect : Effect} {c : ℕ}
    (not_sent : effect ≠ .sent c) : noteSender sender a effect c = sender c := by
  unfold noteSender
  split
  · next d =>
      rw [Function.update_of_ne]
      rintro rfl
      exact not_sent rfl
  · rfl

theorem SenderInv.move {P : Platform Pt Svc} {s s' : State Pt Svc} {L L' : Ledger Pt}
    {a : Action Pt} {effect : Effect} {sender : ℕ → Option Pt} (life : LifeInv P s L)
    (inv : SenderInv s sender) (move : Move P s L s' a effect L') :
    SenderInv s' (noteSender sender a effect) := by
  intro c here'
  by_cases sent : effect = .sent c
  · subst sent
    obtain ⟨caller, call, rfl, client, -⟩ := move.of_sent life
    rw [client]
    exact Function.update_self ..
  · have here := (move.allocated_before here').resolve_right sent
    rw [noteSender_of_ne sent, move.pClient here here']
    exact inv c here

/-! ## Runs -/

theorem signedStep_eq_some {P : Platform Pt Svc}
    {x y : (State Pt Svc × Ledger Pt) × (ℕ → Option Pt)}
    {a : Action Pt} (step_eq : signedStep P x a = some y) :
    ∃ effect, step P x.1.1 a = some (effect, y.1.1) ∧
      y.1.2 = x.1.2.observe x.1.1 y.1.1 a effect ∧ y.2 = noteSender x.2 a effect := by
  simp only [signedStep, Option.map_eq_some_iff, Prod.exists] at step_eq
  obtain ⟨effect, s', step_eq, rfl⟩ := step_eq
  exact ⟨effect, step_eq, rfl, rfl⟩

theorem senderInv_of_reached {P : Platform Pt Svc} (trailer : P.trailer ≠ poolMagicAllocated)
    {x : (State Pt Svc × Ledger Pt) × (ℕ → Option Pt)}
    (reached : SignedReached P (Disciplined P) x) :
    LifeInv P x.1.1 x.1.2 ∧ SenderInv x.1.1 x.2 := by
  obtain ⟨memory, behind, reaches⟩ := reached
  refine reaches.invariant (I := fun x ↦ LifeInv P x.1.1 x.1.2 ∧ SenderInv x.1.1 x.2)
    ⟨lifeInv_initial trailer memory behind, fun c here ↦
      absurd here (not_allocated_initial trailer memory behind c)⟩ ?_
  intro before a after inv disciplined step_eq
  obtain ⟨effect, step_eq, ledger, senders⟩ := signedStep_eq_some step_eq
  have move := move_of_step inv.1 disciplined step_eq
  rw [ledger, senders]
  exact ⟨inv.1.move move, inv.2.move inv.1 move⟩

/-- In every disciplined run, client identifiers are those of the senders. -/
theorem identitySafe_of_disciplined (P : Platform Pt Svc)
    (trailer : P.trailer ≠ poolMagicAllocated) (x : (State Pt Svc × Ledger Pt) × (ℕ → Option Pt))
    (a : Action Pt) (effect : Effect) (s' : State Pt Svc)
    (reached : SignedReached P (Disciplined P) x) (disciplined : Disciplined P x.1.1 a)
    (step_eq : step P x.1.1 a = some (effect, s')) : IdentitySafe P x a effect s' := by
  obtain ⟨life, inv⟩ := senderInv_of_reached trailer reached
  have move := move_of_step life disciplined step_eq
  refine ⟨?_, ?_, ?_⟩
  · rintro caller signal msg c body - - rfl
    obtain ⟨here, -, rfl⟩ := move.of_delivered life
    obtain ⟨q, client, owns, -⟩ := (life.chunk c here).client
    exact ⟨q, (inv c here).trans client, owns⟩
  · rintro caller call c rfl rfl
    obtain ⟨_, _, same, -, owns, -⟩ := move.of_sent life
    cases same
    exact owns
  · rintro caller call c rfl rfl here
    obtain ⟨_, _, same, client, -, client_id⟩ := move.of_sent life
    cases same
    refine ⟨?_, client_id here⟩
    rw [← client]
    have here' : s'.Allocated c := by
      cases move with
      | signals meaning =>
          rcases meaning with impossible | ⟨_, _, -, impossible⟩ <;> cases impossible
      | send _ _ _ move _ => exact move.allocated
    exact (move.pClient here here').symm

/-- A partition that is no agent calls a stateless service through the agent interface, under the
identifier -1. -/
theorem not_identitySafe :
    ¬∀ x a effect s', SignedReached samplePlatform (fun _ _ ↦ True) x →
      step samplePlatform x.1.1 a = some (effect, s') →
      IdentitySafe samplePlatform x a effect s' := by
  intro safe
  have forged : (Run.exec (signedStep samplePlatform)
      ((initialState samplePlatform agentMemory .zero, .empty), fun _ ↦ none)
      [.api false (.agentCall 0x40000100 0 0x3000 0)]).any
      (fun x ↦ x.2 1 = some false ∧ (step samplePlatform x.1.1 (.api true (.get 0x20 0x2000))).any
        fun y ↦ y.1.delivers fun c body ↦ c = 1 ∧ body.clientId = -1) = true := by
    decide +kernel
  obtain ⟨x, run, holds⟩ := (Option.any_eq_true ..).1 forged
  obtain ⟨sender, got⟩ := of_decide_eq_true holds
  obtain ⟨⟨effect, s'⟩, step_eq, delivered⟩ := (Option.any_eq_true ..).1 got
  have reached : SignedReached samplePlatform (fun _ _ ↦ True) x :=
    ⟨_, _, Run.exec_reaches run (Run.allowed_true ..)⟩
  cases effect with
  | delivered c body =>
      obtain ⟨rfl, client_id⟩ := of_decide_eq_true delivered
      obtain ⟨q, q_eq, owns⟩ :=
        (safe x _ _ s' reached step_eq).delivered true 0x20 0x2000 1 body rfl
        (by decide) rfl
      rw [sender] at q_eq
      cases q_eq
      rw [client_id] at owns
      exact absurd owns (by decide)
  | _ => cases delivered

/-- The first message of a secure client. -/
theorem identitySafe_first_message :
    ∃ x effect s', SignedReached samplePlatform (Disciplined samplePlatform) x ∧
      step samplePlatform x.1.1 (.api true (.get 0x10 0x2000)) = some (effect, s') ∧
      IdentitySafe samplePlatform x (.api true (.get 0x10 0x2000)) effect s' := by
  have sent : (Run.exec (signedStep samplePlatform)
      ((initialState samplePlatform (fun _ ↦ 0) .zero, .empty), fun _ ↦ none)
      [.api false (.connect 0 0x100 1)]).any
      (fun x ↦ (step samplePlatform x.1.1 (.api true (.get 0x10 0x2000))).isSome) = true := by
    decide +kernel
  obtain ⟨x, run, delivers⟩ := (Option.any_eq_true ..).1 sent
  obtain ⟨⟨effect, s'⟩, step_eq⟩ := Option.isSome_iff_exists.1 delivers
  have reached : SignedReached samplePlatform (Disciplined samplePlatform) x :=
    ⟨_, _, Run.exec_reaches run ⟨rfl, fun _ _ ↦ trivial⟩⟩
  exact ⟨x, effect, s', reached, step_eq,
    identitySafe_of_disciplined samplePlatform (by decide) x _ effect s' reached rfl step_eq⟩

end TrustedFirmwareM.Spm
