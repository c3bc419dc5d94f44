import TrustedFirmwareM.Mailbox.NsSteps

/-!
# Steps of the secure side

The agent moves a pending slot to the manager, or answers it; a collected reply answers the slot of
its request.  A step of the manager moves no slot, and a service that replies to one request leaves
the vectors of the others alone.
-/

namespace TrustedFirmwareM.Mailbox

open Spm

variable {Pt Svc T : Type} [DecidableEq Pt]

/-! ## The loop -/

omit [DecidableEq Pt] in
/-- A step of the agent that moves only its loop and the signals. -/
theorem SystemInv.of_signals {cfg : Config Pt Svc} {s s' : System Pt Svc T} {X : Traffic}
    (inv : SystemInv cfg (s, X)) (spm : s'.spe.spm = s.spe.spm)
    (emptySlots : s'.spe.emptySlots = s.spe.emptySlots) (queue : s'.spe.queue = s.spe.queue)
    (inUse : s'.spe.inUse = s.spe.inUse) (slots : s'.spe.shared.slots = s.spe.shared.slots)
    (ns : s'.ns = s.ns)
    (loop : ∀ loop k, s'.spe.loop = some loop → loop.pendSlots.getLsbD k = true → s'.pends k = true)
    (signals : ∀ k, k < cfg.nsSlotCount → SignalFrame s s' k) : SystemInv cfg (s', X) := by
  refine ⟨inv.slots.of_spm spm emptySlots queue, ?_, loop, fun k k_lt ↦ ?_, inv.beyond,
    inv.unfinished⟩
  · dsimp only
    rw [ns]
    exact inv.ns
  · refine (inv.phase k k_lt).congr (.of_record ⟨spm, emptySlots, inUse, congrFun slots k⟩
      (signals k k_lt) ?_ rfl rfl rfl)
    rw [ns]
    exact fun _ _ _ _ ↦ .rfl

omit [DecidableEq Pt] in
theorem Spe.not_passed {s : Spe Pt Svc} {k : ℕ} (no_loop : s.loop = none) : ¬s.Passed k := by
  rintro ⟨loop, loop_eq, -⟩
  rw [no_loop] at loop_eq
  cases loop_eq

omit [DecidableEq Pt] in
/-- The agent enters its loop. -/
theorem SystemInv.entered {cfg : Config Pt Svc} {s : System Pt Svc T} {X : Traffic}
    (inv : SystemInv cfg (s, X)) (no_loop : s.spe.loop = none) :
    SystemInv cfg ({ s with spe := { s.spe with
      loop := some ⟨0, s.spe.shared.pendSlots, 0⟩ } }, X) := by
  refine inv.of_signals rfl rfl rfl rfl rfl rfl ?_ fun k _ ↦ .of_eq ?_ rfl ?_
  · rintro loop k ⟨⟩ set
    exact set
  · simp [System.signals, Spe.answering, no_loop]
  · constructor
    · rintro ⟨loop, ⟨⟩, -, impossible⟩
      exact absurd impossible (Nat.not_lt_zero k)
    · exact fun passed ↦ absurd passed (Spe.not_passed no_loop)

omit [DecidableEq Pt] in
/-- The loop passes a slot over. -/
theorem SystemInv.skipped {cfg : Config Pt Svc} {s : System Pt Svc T} {X : Traffic}
    (inv : SystemInv cfg (s, X)) {loop : Loop} (loop_eq : s.spe.loop = some loop)
    (idx_lt : loop.idx < cfg.nsSlotCount) (clear : loop.pendSlots &&& slotBit loop.idx = 0) :
    SystemInv cfg ({ s with spe := { s.spe with
      loop := some { loop with idx := loop.idx + 1 } } }, X) := by
  rw [and_slotBit_eq_zero (SystemInv.lt_word idx_lt)] at clear
  refine inv.of_signals rfl rfl rfl rfl rfl rfl ?_ fun k _ ↦ .of_eq ?_ rfl ?_
  · rintro _ k ⟨⟩ set
    exact inv.loop loop k loop_eq set
  · simp [System.signals, Spe.answering, loop_eq]
  · constructor
    · rintro ⟨_, ⟨⟩, set, k_lt⟩
      refine ⟨loop, loop_eq, set, ?_⟩
      have k_ne : k ≠ loop.idx := by
        rintro rfl
        simp only [clear, Bool.false_eq_true] at set
      dsimp only at k_lt
      omega
    · rintro ⟨_, here, set, k_lt⟩
      rw [loop_eq] at here
      cases here
      exact ⟨_, rfl, set, by dsimp only; omega⟩

omit [DecidableEq Pt] in
/-- The agent leaves its loop: the slots that it has passed are no longer pending, and those that it
has answered are replied. -/
theorem SystemInv.left {cfg : Config Pt Svc} {s : System Pt Svc T} {X : Traffic}
    (inv : SystemInv cfg (s, X)) {loop : Loop} (loop_eq : s.spe.loop = some loop)
    (done : cfg.nsSlotCount ≤ loop.idx) :
    SystemInv cfg ({ s with spe := { s.spe with
      loop := none
      shared := { s.spe.shared with
        pendSlots := s.spe.shared.pendSlots &&& ~~~loop.pendSlots
        repliedSlots := s.spe.shared.repliedSlots ||| loop.replySlots } } }, X) := by
  generalize s'_eq : ({ s with spe := { s.spe with
    loop := none
    shared := { s.spe.shared with
      pendSlots := s.spe.shared.pendSlots &&& ~~~loop.pendSlots
      repliedSlots := s.spe.shared.repliedSlots ||| loop.replySlots } } } : System Pt Svc T) = s'
  have no_loop : s'.spe.loop = none := s'_eq ▸ rfl
  have answering : ∀ k, s.spe.answering k = loop.replySlots.getLsbD k := by
    intro k
    rw [Spe.answering, loop_eq]
    rfl
  have signals : ∀ k, s'.signals k = (false,
      s.spe.shared.repliedSlots.getLsbD k || s.spe.answering k, s.ns.isWoken k) := by
    intro k
    rw [answering, ← s'_eq]
    simp [System.signals, Spe.answering]
  have pends : ∀ k, k < cfg.nsSlotCount →
      s'.pends k = (s.pends k && !loop.pendSlots.getLsbD k) := by
    intro k k_lt
    rw [← s'_eq]
    simp [System.pends, SystemInv.lt_word k_lt]
  have passed : ∀ k, k < cfg.nsSlotCount → loop.pendSlots.getLsbD k = true → s.spe.Passed k :=
    fun k k_lt set ↦ ⟨loop, loop_eq, set, by omega⟩
  have not_pending : ∀ k, k < cfg.nsSlotCount → (s.pends k = true → s.spe.Passed k) →
      ¬s'.pends k = true := by
    intro k k_lt before after
    rw [pends k k_lt, Bool.and_eq_true, Bool.not_eq_true'] at after
    obtain ⟨_, here, set, -⟩ := before after.1
    rw [loop_eq] at here
    cases here
    rw [set] at after
    cases after.2
  refine inv.of_signals (s'_eq ▸ rfl) (s'_eq ▸ rfl) (s'_eq ▸ rfl) (s'_eq ▸ rfl) (s'_eq ▸ rfl)
    (s'_eq ▸ rfl) ?_ fun k k_lt ↦ ⟨?_, ?_, ?_, ?_, ?_, ?_⟩
  · intro _ k impossible
    rw [no_loop] at impossible
    cases impossible
  · rw [System.NoSignal, System.NoSignal, signals]
    simp only [System.signals, Prod.mk.injEq, Bool.or_eq_false_iff, true_and]
    rintro ⟨no_answer, no_reply, no_wake⟩
    exact ⟨⟨no_reply, no_answer⟩, no_wake⟩
  · rw [System.OneSignal, System.OneSignal, signals]
    simp only [System.signals, Prod.mk.injEq]
    rintro (⟨answer, reply, wake⟩ | ⟨answer, reply, wake⟩ | ⟨answer, reply, wake⟩) <;>
      simp [answer, reply, wake]
  · intro clear
    rw [pends k k_lt, clear]
    rfl
  · intro pending ahead
    refine ⟨?_, Spe.not_passed no_loop⟩
    rw [pends k k_lt, pending]
    simpa using fun set ↦ ahead (passed k k_lt set)
  · exact fun before after ↦ absurd after (not_pending k k_lt before)
  · exact fun before after ↦ absurd after (not_pending k k_lt fun pending ↦ (before pending).1)

/-! ## One slot at a time -/

/-- A step of the agent works on one slot, and on the request of one chunk. -/
structure OnlySlot (cfg : Config Pt Svc) (s s' : Spe Pt Svc) (idx : ℕ) (moved : Option ℕ) :
    Prop where
  /-- The pending slots stay. -/
  pendSlots : s'.shared.pendSlots = s.shared.pendSlots
  /-- No other slot is replied. -/
  repliedSlots : ∀ k, k ≠ idx →
    s'.shared.repliedSlots.getLsbD k = s.shared.repliedSlots.getLsbD k
  /-- The other slots stay. -/
  slots : ∀ k, k ≠ idx → s'.shared.slots k = s.shared.slots k
  /-- The other records stay free, or not. -/
  empty : ∀ k, k ≠ idx → (s'.Empty k ↔ s.Empty k)
  /-- The other vectors stay in use, or not. -/
  inUse : ∀ k, k ≠ idx → s'.inUse k = s.inUse k
  /-- The other vectors stay. -/
  vectors : ∀ k, k < cfg.numSlots → k ≠ idx → ∀ m, m < 64 →
    s'.spm.memory (cfg.vectorsAddress k + BitVec.ofNat 32 m) =
      s.spm.memory (cfg.vectorsAddress k + BitVec.ofNat 32 m)
  /-- The other requests stay under way. -/
  frame : ∀ e, moved ≠ some e → AgentFrame s.spm s'.spm cfg.agent .quiet e
  /-- No other reply waits. -/
  waits : ∀ e, s'.spm.ReplyWaits cfg.platform cfg.agent e →
    s.spm.ReplyWaits cfg.platform cfg.agent e

/-- The entries of the journal for earlier requests stay. -/
structure Extends (J J' : Journal) (moved : Option ℕ) : Prop where
  /-- Requests stay taken. -/
  count : J.count ≤ J'.count
  /-- The messages stay. -/
  asked : ∀ n, n < J.count → J'.asked n = J.asked n
  /-- The slots stay. -/
  slot : ∀ n, n < J.count → J'.slot n = J.slot n
  /-- The results stay. -/
  result : ∀ n, n < J.count → J'.result n = J.result n
  /-- The requests on other chunks stay. -/
  onChunk : ∀ e, moved ≠ some e → J'.onChunk e = J.onChunk e

omit [DecidableEq Pt] in
/-- The other slots stay in their phases. -/
theorem OnlySlot.sameSlot {cfg : Config Pt Svc} {s : System Pt Svc T} {s' : Spe Pt Svc}
    {X X' : Traffic} {idx k : ℕ} {moved : Option ℕ} (only : OnlySlot cfg s.spe s' idx moved)
    (extends_ : Extends X.journal X'.journal moved) (k_lt : k < cfg.nsSlotCount) (k_ne : k ≠ idx)
    (passed : s'.Passed k ↔ s.spe.Passed k) (answering : s'.answering k = s.spe.answering k)
    (received : X'.received k = X.received k) (number : X'.number k = X.number k)
    (other : ∀ n c, Awaiting cfg s.spe X.journal k n c → moved ≠ some c) :
    SameSlot cfg (s, X) ({ s with spe := s' }, X') k := by
  refine ⟨.of_eq ?_ ?_ passed, fun _ _ _ _ ↦ .rfl, received, number, fun unused ↦ ⟨?_, ?_⟩, ?_, ?_,
    extends_.count, extends_.asked, extends_.slot, ?_, ?_⟩
  · simp only [System.signals, answering, only.repliedSlots k k_ne]
  · simp only [System.pends, only.pendSlots]
  · exact (only.empty k k_ne).2 unused.empty
  · exact (only.inUse k k_ne).trans unused.inUse
  · simp only [copiedMsg, only.slots k k_ne]
  · exact congrArg NsSlot.reply (only.slots k k_ne)
  · intro n r _ taken _ _ result
    exact (extends_.result n taken).trans result
  · intro n c taken awaiting
    have not_moved := other n c awaiting
    exact awaiting.congr (only.frame c not_moved) (by simp) (only.inUse k k_ne)
      (only.vectors k (lt_of_lt_of_le k_lt cfg.nsSlotCount_le) k_ne) (only.waits c)
      (extends_.onChunk c not_moved) (extends_.slot n taken) (extends_.result n taken)

omit [DecidableEq Pt] in
/-- A step of the agent that moves one slot to its next phase. -/
theorem SystemInv.of_onlySlot {cfg : Config Pt Svc} {s : System Pt Svc T} {s' : Spe Pt Svc}
    {X X' : Traffic} {idx : ℕ} {moved : Option ℕ} (inv : SystemInv cfg (s, X))
    (only : OnlySlot cfg s.spe s' idx moved) (extends_ : Extends X.journal X'.journal moved)
    (slots : SlotInv cfg s' X'.journal)
    (loop : ∀ loop k, s'.loop = some loop → loop.pendSlots.getLsbD k = true → s.pends k = true)
    (passed : ∀ k, k ≠ idx → (s'.Passed k ↔ s.spe.Passed k))
    (answering : ∀ k, k ≠ idx → s'.answering k = s.spe.answering k)
    (received : ∀ k, k ≠ idx → X'.received k = X.received k)
    (number : ∀ k, k ≠ idx → X'.number k = X.number k)
    (other : ∀ k, k ≠ idx → ∀ n c, Awaiting cfg s.spe X.journal k n c → moved ≠ some c)
    (idx_lt : idx < cfg.nsSlotCount) (phase : Phase cfg { s with spe := s' } X' idx)
    (unfinished : ∀ n, X'.journal.count ≤ n → X'.journal.result n = none) :
    SystemInv cfg ({ s with spe := s' }, X') := by
  refine ⟨slots, inv.ns, fun loop' k loop_eq set ↦ ?_, fun k k_lt ↦ ?_, fun k beyond ↦ ?_,
    unfinished⟩
  · simp only [System.pends, only.pendSlots]
    exact loop loop' k loop_eq set
  · by_cases k_eq : k = idx
    · rw [k_eq]
      exact phase
    · exact (inv.phase k k_lt).congr (only.sameSlot extends_ k_lt k_eq (passed k k_eq)
        (answering k k_eq) (received k k_eq) (number k k_eq) (other k k_eq))
  · exact (received k (by omega)).trans (inv.beyond k beyond)

/-! ## Taking a message -/

omit [DecidableEq Pt] in
/-- Dispatching the message of a slot. -/
theorem Dispatches.onlySlot {cfg : Config Pt Svc} {s : Spe Pt Svc} {msg : MailboxMsg} {idx : ℕ}
    {d : Dispatched Pt Svc} (dispatches : Dispatches cfg (takenState cfg s idx) msg idx d) :
    OnlySlot cfg s d.state idx d.sent := by
  refine ⟨?_, fun k _ ↦ ?_, fun k _ ↦ ?_, fun k k_ne ↦ ?_, dispatches.inUse_other,
    dispatches.vectors_other, fun e other ↦ ?_, dispatches.waits⟩
  · rw [dispatches.shared]
    rfl
  · rw [dispatches.shared]
    rfl
  · rw [dispatches.shared]
    rfl
  · rw [Spe.Empty, dispatches.emptySlots]
    exact (takenState_records cfg s k_ne).1
  · rcases dispatches.cases with ⟨-, -, frame⟩ | ⟨c, sent, -, new⟩
    · exact frame e .quiet
    · exact new.others e (fun same ↦ other (by rw [sent, same])) .quiet

omit [DecidableEq Pt] in
/-- Writing the reply for the record of a slot. -/
theorem OnlySlot.replied {cfg : Config Pt Svc} {s s₁ s' : Spe Pt Svc} {idx : ℕ}
    {moved : Option ℕ} {result : ℤ} {w : Written} (only : OnlySlot cfg s s₁ idx moved)
    (replied : Replied cfg s₁ idx result s' w) (slot : w.slot = idx) :
    OnlySlot cfg s s' idx moved := by
  refine ⟨replied.pendSlots.trans only.pendSlots, fun k k_ne ↦ ?_, fun k k_ne ↦ ?_,
    fun k k_ne ↦ ?_, fun k k_ne ↦ ?_, ?_, ?_, ?_⟩
  · rw [replied.repliedSlots]
    exact only.repliedSlots k k_ne
  · rw [replied.slots, slot, Function.update_of_ne k_ne]
    exact only.slots k k_ne
  · exact (replied.records k_ne).1.trans (only.empty k k_ne)
  · rw [replied.inUse, Function.update_of_ne k_ne]
    exact only.inUse k k_ne
  · rw [replied.spm]
    exact only.vectors
  · rw [replied.spm]
    exact only.frame
  · rw [replied.spm]
    exact only.waits

theorem Journal.observe_taken (cfg : Config Pt Svc) (s s' : Spe Pt Svc) (J : Journal) (idx : ℕ)
    (msg : MailboxMsg) (sent : Option ℕ) (answer : Option ℤ) (written : Option Written) :
    Extends J (J.observe cfg s s' (.taken idx msg sent answer written)) sent := by
  refine ⟨Nat.le_succ _, fun n n_lt ↦ ?_, fun n n_lt ↦ ?_, fun n n_lt ↦ ?_, fun e other ↦ ?_⟩
  · exact Function.update_of_ne n_lt.ne ..
  · exact Function.update_of_ne n_lt.ne ..
  · cases answer with
    | none => rfl
    | some value => exact Function.update_of_ne n_lt.ne ..
  · cases sent with
    | none => rfl
    | some c => exact Function.update_of_ne (fun same ↦ other (by rw [same])) ..

omit [DecidableEq Pt] in
/-- A request that has been handed to the manager waits there. -/
theorem NewRequest.awaiting {cfg : Config Pt Svc} {s : Spe Pt Svc} {msg : MailboxMsg} {idx c n : ℕ}
    {d : Dispatched Pt Svc} {J : Journal} (managed : Managed cfg s.spm)
    (dispatches : Dispatches cfg s msg idx d)
    (new : NewRequest cfg s.spm d.state.spm msg idx c) (posted : Posted cfg msg)
    (unused : s.inUse idx = false) (onChunk : J.onChunk c = some n) (slot : J.slot n = idx)
    (unfinished : J.result n = none) : Awaiting cfg d.state J idx n c := by
  have knows := new.vectors
  have holds := dispatches.vectors
  refine ⟨new.after, onChunk, slot, ?_, ?_, ?_, ?_, ?_⟩
  · cases request : msg.request with
    | call params =>
        rw [request] at knows holds
        rw [(holds (posted.copied params request)).1, decide_eq_true knows.1]
    | _ =>
        rw [request] at knows holds
        have not_call : ¬psaIpcCall ≤ (d.state.spm.connections c).msg.type := not_le.2 knows
        rw [decide_eq_false not_call, ← unused]
        exact holds
  · intro call
    cases request : msg.request with
    | call params =>
        rw [request] at knows
        exact knows.2.1
    | _ =>
        rw [request] at knows
        exact absurd call (not_le.2 knows)
  · intro call i empty
    cases request : msg.request with
    | call params =>
        rw [request] at knows holds
        rw [(holds (posted.copied params request)).2 i, ← knows.2.2 i, empty]
    | _ =>
        rw [request] at knows
        exact absurd call (not_le.2 knows)
  · intro r result
    rw [unfinished] at result
    cases result
  · intro waits
    obtain ⟨L, life⟩ := managed
    exact absurd (life.underWay_of_replyWaits cfg.agent_mailbox (dispatches.waits c waits))
      new.before

omit [DecidableEq Pt] in
/-- The slot that the loop looks at is pending. -/
theorem SystemInv.pending {cfg : Config Pt Svc} {s : System Pt Svc T} {X : Traffic}
    (inv : SystemInv cfg (s, X)) {loop : Loop} (loop_eq : s.spe.loop = some loop)
    (idx_lt : loop.idx < cfg.nsSlotCount) (set : loop.pendSlots &&& slotBit loop.idx ≠ 0) :
    ∃ t, Pending cfg s X loop.idx t (copiedMsg cfg s.spe loop.idx) := by
  rw [getLsbD_of_and_slotBit _ (SystemInv.lt_word idx_lt)] at set
  have pends := inv.loop loop loop.idx loop_eq set
  have ahead : ¬s.spe.Passed loop.idx := by
    rintro ⟨_, here, -, passed⟩
    rw [loop_eq] at here
    cases here
    exact absurd passed (lt_irrefl _)
  cases inv.phase loop.idx idx_lt with
  | free free =>
      have clear := free.clear
      dsimp only at pends clear
      rw [pends] at clear
      cases clear
  | @pending t msg pending =>
      have copied := pending.copied
      dsimp only at copied
      rw [copied]
      exact ⟨t, pending⟩
  | served served => exact absurd (served.passed pends) ahead
  | answered answered => exact absurd (answered.passed pends).1 ahead

omit [DecidableEq Pt] in
theorem SystemInv.unused {cfg : Config Pt Svc} {s : System Pt Svc T} {X : Traffic}
    (inv : SystemInv cfg (s, X)) {loop : Loop} (loop_eq : s.spe.loop = some loop)
    (idx_lt : loop.idx < cfg.nsSlotCount) (set : loop.pendSlots &&& slotBit loop.idx ≠ 0) :
    Unused s.spe loop.idx := by
  obtain ⟨t, pending⟩ := inv.pending loop_eq idx_lt set
  exact pending.unused

omit [DecidableEq Pt] in
/-- The loop after it has looked at a slot. -/
theorem passed_next {s s' : Spe Pt Svc} {loop : Loop} {replySlots : Word} {k : ℕ}
    (loop_eq : s.loop = some loop)
    (loop_eq' : s'.loop = some ⟨loop.idx + 1, loop.pendSlots, replySlots⟩) (k_ne : k ≠ loop.idx) :
    s'.Passed k ↔ s.Passed k := by
  simp only [Spe.Passed, loop_eq, loop_eq', Option.some.injEq, exists_eq_left']
  constructor
  · rintro ⟨set, k_lt⟩
    exact ⟨set, by omega⟩
  · rintro ⟨set, k_lt⟩
    exact ⟨set, by omega⟩

omit [DecidableEq Pt] in
/-- The immediate answer to a request of the client interface. -/
theorem Dispatches.outVecLen {cfg : Config Pt Svc} {s : Spe Pt Svc} {msg : MailboxMsg} {idx : ℕ}
    {d : Dispatched Pt Svc} (dispatches : Dispatches cfg s msg idx d) (posted : Posted cfg msg)
    (unused : s.inUse idx = false) :
    (if d.state.inUse idx then some (d.state.outVecLen cfg idx) else none) =
      msg.request.outVecLen := by
  have holds := dispatches.vectors
  cases request : msg.request with
  | call params =>
      rw [request] at holds
      obtain ⟨in_use, lens⟩ := holds (posted.copied params request)
      rw [if_pos in_use, Request.outVecLen]
      exact congrArg some (funext lens)
  | _ =>
      rw [request] at holds
      have not_used : d.state.inUse idx = false := by
        rw [← unused]
        exact holds
      rw [not_used]
      rfl

/-- The agent takes the message of a slot. -/
theorem SystemInv.taken {cfg : Config Pt Svc} {s : System Pt Svc T} {s' s₁ : Spe Pt Svc}
    {X : Traffic} {loop : Loop} {replySlots : Word} {event : Event} (inv : SystemInv cfg (s, X))
    (loop_eq : s.spe.loop = some loop) (idx_lt : loop.idx < cfg.nsSlotCount)
    (set : loop.pendSlots &&& slotBit loop.idx ≠ 0)
    (not_null : (copiedMsg cfg s.spe loop.idx).request ≠ .close 0)
    (taken : Taken cfg s.spe loop.idx loop.replySlots s₁ replySlots event)
    (s'_eq : s' = { s₁ with loop := some ⟨loop.idx + 1, loop.pendSlots, replySlots⟩ })
    (slots : SlotInv cfg s' (X.journal.observe cfg s.spe s' event)) :
    SystemInv cfg ({ s with spe := s' }, X.observe cfg s.spe s' event) := by
  obtain ⟨t, pending⟩ := inv.pending loop_eq idx_lt set
  have bit := (getLsbD_of_and_slotBit _ (SystemInv.lt_word idx_lt)).1 set
  generalize msg_eq : copiedMsg cfg s.spe loop.idx = msg at pending not_null taken
  have loop' : s'.loop = some ⟨loop.idx + 1, loop.pendSlots, replySlots⟩ := s'_eq ▸ rfl
  have answering : ∀ k, s'.answering k = replySlots.getLsbD k := by
    intro k
    rw [Spe.answering, loop']
    rfl
  have answering_before : ∀ k, s.spe.answering k = loop.replySlots.getLsbD k := by
    intro k
    rw [Spe.answering, loop_eq]
    rfl
  have passed : s'.Passed loop.idx := ⟨_, loop', bit, Nat.lt_succ_self _⟩
  have no_signal := pending.signal
  simp only [System.NoSignal, System.signals, Prod.mk.injEq] at no_signal
  have loop_pends : ∀ loop' k, s'.loop = some loop' → loop'.pendSlots.getLsbD k = true →
      s.pends k = true := by
    intro _ k here set'
    rw [loop'] at here
    cases here
    exact inv.loop loop k loop_eq set'
  have managed : Managed cfg (takenState cfg s.spe loop.idx).spm := inv.slots.managed
  cases taken with
  | dropped request =>
      rw [msg_eq] at request
      exact absurd request pending.posted.known
  | @waiting d dispatches answer =>
      rw [msg_eq] at dispatches slots ⊢
      rcases dispatches.cases with ⟨-, null, -⟩ | ⟨c, sent, -, new⟩
      · exact absurd (null answer) not_null
      rw [sent] at slots ⊢
      have extends_ := X.journal.observe_taken cfg s.spe s' loop.idx msg (some c) none none
      have only : OnlySlot cfg s.spe s' loop.idx (some c) := by
        have base := dispatches.onlySlot
        rw [sent] at base
        rw [s'_eq]
        exact ⟨base.pendSlots, base.repliedSlots, base.slots, base.empty, base.inUse, base.vectors,
          base.frame, base.waits⟩
      refine inv.of_onlySlot only extends_ slots loop_pends
        (fun k k_ne ↦ passed_next loop_eq loop' k_ne)
        (fun k _ ↦ (answering k).trans (answering_before k).symm) (fun _ _ ↦ rfl)
        (fun k k_ne ↦ Function.update_of_ne k_ne ..) ?_ idx_lt ?_ ?_
      · rintro k - n e awaiting ⟨⟩
        exact new.before awaiting.here
      · refine .served (t := t) (c := c) ⟨pending.thread, fun _ ↦ passed, ?_, pending.received,
          Function.update_self .., Nat.lt_succ_self _, Function.update_self .., ?_⟩
        · have replied : s'.shared.repliedSlots = s.spe.shared.repliedSlots := by
            rw [s'_eq]
            exact congrArg Shared.repliedSlots dispatches.shared
          simp only [System.NoSignal, System.signals, answering, ← answering_before, replied,
            no_signal]
        · have awaiting := new.awaiting (n := X.journal.count)
            (J := X.journal.observe cfg s.spe s' (.taken loop.idx msg (some c) none none)) managed
            dispatches pending.posted pending.unused.inUse (Function.update_self ..)
            (Function.update_self ..) (inv.unfinished _ le_rfl)
          exact awaiting.of_spm (s'_eq ▸ rfl) (s'_eq ▸ rfl)
      · intro n n_le
        exact inv.unfinished n (le_trans (Nat.le_succ _) n_le)
  | @answered d psaRet _ w dispatches answer replied =>
      rw [msg_eq] at dispatches slots ⊢
      have not_sent : d.sent = none := by
        rcases dispatches.cases with ⟨not_sent, -⟩ | ⟨_, -, no_answer, -⟩
        · exact not_sent
        · rw [answer] at no_answer
          cases no_answer
      rw [not_sent] at slots ⊢
      have slot : w.slot = loop.idx := by
        rw [replied.slot, dispatches.queue, takenState_queue_self]
      have extends_ := X.journal.observe_taken cfg s.spe s' loop.idx msg none (some psaRet) (some w)
      have only : OnlySlot cfg s.spe s' loop.idx none := by
        have base := dispatches.onlySlot.replied replied slot
        rw [not_sent] at base
        rw [s'_eq]
        exact ⟨base.pendSlots, base.repliedSlots, base.slots, base.empty, base.inUse, base.vectors,
          base.frame, base.waits⟩
      refine inv.of_onlySlot only extends_ slots loop_pends
        (fun k k_ne ↦ passed_next loop_eq loop' k_ne) (fun k k_ne ↦ ?_) (fun k k_ne ↦ ?_)
        (fun k k_ne ↦ Function.update_of_ne k_ne ..) ?_ idx_lt ?_ ?_
      · rw [answering, answering_before, getLsbD_or_slotBit (SystemInv.lt_word idx_lt)]
        simp [k_ne]
      · exact Function.update_of_ne (by rw [slot]; exact k_ne) ..
      · rintro k - n e - ⟨⟩
      · have answers : s'.answering loop.idx = true := by
          rw [answering, getLsbD_or_slotBit (SystemInv.lt_word idx_lt)]
          simp
        have not_replied : s'.shared.repliedSlots.getLsbD loop.idx = false := by
          rw [s'_eq, ← no_signal.2.1]
          exact congrArg (fun word : Word ↦ word.getLsbD loop.idx)
            (replied.repliedSlots.trans (congrArg Shared.repliedSlots dispatches.shared))
        refine .answered (t := t) (w := w) ⟨.of_waiting pending.thread, fun _ ↦ .inl ?_, ?_,
          fun _ ↦ ⟨passed, answers⟩, ?_, Function.update_self .., Nat.lt_succ_self _,
          ⟨Function.update_self .., Function.update_self .., ⟨psaRet, msg.request.outVecLen⟩,
            Function.update_self .., replied.returnVal, ?_⟩, ⟨?_, ?_⟩, ?_, ?_⟩
        · simp only [System.signals, answers, not_replied, no_signal]
        · exact fun not_waiting ↦ absurd pending.thread not_waiting
        · have before := pending.received
          simp only [Traffic.observe, Traffic.write, slot, Function.update_self, before,
            List.nil_append]
        · rw [replied.outVecLen]
          exact dispatches.outVecLen pending.posted pending.unused.inUse
        · simp only [s'_eq, Spe.Empty, replied.emptySlots]
          rw [getLsbD_or_slotBit (SystemInv.lt_word idx_lt)]
          simp
        · simp only [s'_eq, replied.inUse, Function.update_self]
        · simp only [s'_eq, replied.slots, slot, Function.update_self]
          refine ⟨replied.returnVal.symm, fun lens copied ↦ ?_⟩
          rw [copied]
          rfl
        · intro reply impossible
          have waiting := pending.thread
          dsimp only at waiting impossible
          rw [waiting] at impossible
          cases impossible
      · intro n n_le
        have n_ne : n ≠ X.journal.count := by
          have bound : X.journal.count + 1 ≤ n := n_le
          omega
        exact (Function.update_of_ne n_ne ..).trans
          (inv.unfinished n (le_trans (Nat.le_succ _) n_le))

/-! ## Collecting a reply -/

omit [DecidableEq Pt] in
/-- A request under way is that of its slot. -/
theorem SystemInv.served_of_underWay {cfg : Config Pt Svc} {s : System Pt Svc T} {X : Traffic}
    (inv : SystemInv cfg (s, X)) {c : ℕ} (here : s.spe.spm.UnderWay cfg.agent c) :
    ∃ n t msg, Carried cfg s.spe X.journal c n ∧
      Served cfg s X (X.journal.slot n) t msg n c := by
  obtain ⟨n, carried⟩ := inv.slots.carried c here
  cases inv.phase (X.journal.slot n) carried.slot_lt with
  | free free => exact absurd free.unused.empty carried.in_use
  | pending pending => exact absurd pending.unused.empty carried.in_use
  | answered answered => exact absurd answered.unused.empty carried.in_use
  | @served t msg m d served =>
      have awaiting := served.awaiting
      obtain ⟨m', carried'⟩ := inv.slots.carried d awaiting.here
      have same := carried'.onChunk
      rw [awaiting.onChunk] at same
      cases same
      cases inv.slots.slot_injective here awaiting.here carried carried' awaiting.slot.symm
      have same := carried.onChunk
      rw [awaiting.onChunk] at same
      cases same
      exact ⟨_, t, msg, carried, served⟩

omit [DecidableEq Pt] in
/-- Different slots wait for the requests of different chunks. -/
theorem Awaiting.chunk_ne {cfg : Config Pt Svc} {s : Spe Pt Svc} {J : Journal} {j k m n c d : ℕ}
    (first : Awaiting cfg s J j m c) (second : Awaiting cfg s J k n d) (k_ne : k ≠ j) : c ≠ d := by
  rintro rfl
  have same := first.onChunk
  rw [second.onChunk] at same
  cases same
  exact k_ne (second.slot.symm.trans first.slot)

theorem SystemInv.collected {cfg : Config Pt Svc} {s : System Pt Svc T} {s' : Spe Pt Svc}
    {X : Traffic} {c : ℕ} {written : Option Written} {spm : State Pt Svc}
    (inv : SystemInv cfg (s, X)) (collected : Collected cfg s.spe c written s' spm) :
    SystemInv cfg ({ s with spe := s' }, X.observe cfg s.spe s' (.collected c written)) := by
  obtain ⟨n, s₁, w, carried, rfl, replied, s'_eq⟩ := inv.slots.collected_written collected
  obtain ⟨m, t, msg, carried', served⟩ := inv.served_of_underWay collected.before
  have same := carried.onChunk
  rw [carried'.onChunk] at same
  cases same
  dsimp only at carried replied s'_eq
  generalize k_eq : X.journal.slot n = idx at served replied s'_eq
  have idx_lt : idx < cfg.nsSlotCount := k_eq ▸ carried.slot_lt
  have idx_lt' := SystemInv.lt_word idx_lt
  have slot : w.slot = idx := replied.slot.trans (by rw [← k_eq]; exact carried.ns)
  have no_loop : s'.loop = none := by
    rw [s'_eq]
    exact replied.loop.trans collected.loop
  have replied_slots : s'.shared.repliedSlots = s.spe.shared.repliedSlots ||| slotBit idx := by
    rw [s'_eq]
    simp only [replied.repliedSlots]
  have no_signal := served.signal
  simp only [System.NoSignal, System.signals, Prod.mk.injEq] at no_signal
  have only : OnlySlot cfg s.spe s' idx (some c) := by
    refine ⟨?_, fun k k_ne ↦ ?_, fun k k_ne ↦ ?_, fun k k_ne ↦ ?_, fun k k_ne ↦ ?_,
      fun k k_lt k_ne ↦ ?_, fun e other ↦ ?_, fun e waits ↦ collected.waits e ?_⟩
    · rw [s'_eq]
      exact replied.pendSlots
    · rw [replied_slots, getLsbD_or_slotBit idx_lt']
      simp [k_ne]
    · rw [s'_eq]
      simp only [replied.slots, slot, Function.update_of_ne k_ne]
    · rw [s'_eq]
      exact (replied.records k_ne).1
    · rw [s'_eq]
      simp only [replied.inUse, Function.update_of_ne k_ne]
    · rw [s'_eq]
      simp only [replied.spm]
      exact collected.vectors k k_lt
    · rw [s'_eq]
      simp only [replied.spm]
      exact collected.others e (fun same ↦ other (by rw [same])) .quiet
    · rw [s'_eq] at waits
      simp only [replied.spm] at waits
      exact waits
  have slots : SlotInv cfg s' X.journal := inv.slots.collected collected
  refine inv.of_onlySlot only ⟨le_rfl, fun _ _ ↦ rfl, fun _ _ ↦ rfl, fun _ _ ↦ rfl, fun _ _ ↦ rfl⟩
    slots ?_ ?_ ?_ (fun k k_ne ↦ ?_) (fun _ _ ↦ rfl) ?_ idx_lt ?_ inv.unfinished
  · intro loop k impossible
    rw [no_loop] at impossible
    cases impossible
  · exact fun k _ ↦ iff_of_false (Spe.not_passed no_loop) (Spe.not_passed collected.loop)
  · intro k _
    rw [Spe.answering, Spe.answering, no_loop, collected.loop]
  · exact Function.update_of_ne (by rw [slot]; exact k_ne) ..
  · rintro k k_ne n e awaiting ⟨⟩
    exact served.awaiting.chunk_ne awaiting k_ne rfl
  · obtain ⟨r, result⟩ := Option.ne_none_iff_exists'.1 (served.awaiting.waits collected.waited)
    obtain ⟨value, lens⟩ := served.awaiting.result r result
    have no_answer : s'.answering idx = false := by
      rw [Spe.answering, no_loop]
      rfl
    have reply : s'.shared.repliedSlots.getLsbD idx = true := by
      rw [replied_slots, getLsbD_or_slotBit idx_lt']
      simp
    have written_lens : w.outVecLen = r.outVecLen := by
      rw [replied.outVecLen, lens, served.awaiting.inUse]
      simp only [decide_eq_true_eq]
      split
      · refine congrArg some (funext fun i ↦ ?_)
        exact vecLen_congr (collected.vectors idx (lt_of_lt_of_le idx_lt cfg.nsSlotCount_le)) i
      · rfl
    refine .answered (t := t) (w := w) ⟨.of_waiting served.thread,
      fun _ ↦ .inr (.inl ?_), ?_, ?_, ?_,
      served.number, served.taken, ⟨k_eq, served.asked, r, result, ?_, written_lens⟩, ⟨?_, ?_⟩, ?_,
      ?_⟩
    · simp only [System.signals, no_answer, reply, no_signal]
    · exact fun not_waiting ↦ absurd served.thread not_waiting
    · intro pends
      refine absurd (served.passed ?_) (Spe.not_passed collected.loop)
      rw [← pends]
      simp only [System.pends, only.pendSlots]
    · have before := served.received
      simp only [Traffic.observe, Traffic.write, slot, Function.update_self, before,
        List.nil_append]
    · rw [replied.returnVal, value]
    · simp only [s'_eq, Spe.Empty, replied.emptySlots]
      rw [getLsbD_or_slotBit idx_lt']
      simp
    · simp only [s'_eq, replied.inUse, Function.update_self]
    · simp only [s'_eq, replied.slots, slot, Function.update_self]
      refine ⟨replied.returnVal.symm, fun lens' copied ↦ ?_⟩
      rw [copied]
      rfl
    · intro reply' impossible
      have waiting := served.thread
      dsimp only at waiting impossible
      rw [waiting] at impossible
      cases impossible

/-! ## Steps of the manager -/

/-- A reply comes from `psa_reply` for a request that its service works on. -/
theorem replied_step {cfg : Config Pt Svc} {s s' : State Pt Svc} {a : Spm.Action Pt} {c : ℕ}
    {status : ℤ} (managed : Managed cfg s) (disciplined : Disciplined cfg.platform s a)
    (step_eq : Spm.step cfg.platform s a = some (.replied c status, s')) :
    ((s.connections c).pClient = some cfg.agent → s.UnderWay cfg.agent c) ∧
      s'.memory = if psaIpcCall ≤ (s.connections c).msg.type then
        updateCallerOutvecLen s.memory (dropMapped (s.connections c)) else s.memory := by
  obtain ⟨L, life⟩ := managed
  have move := move_of_step life disciplined step_eq
  generalize L.observe s s' a (.replied c status) = L' at move
  cases move with
  | signals meaning =>
      rcases meaning with impossible | ⟨_, _, -, impossible⟩ <;> cases impossible
  | reply here delivered _ _ _ _ _ =>
      have record := (life.chunk c here).record
      rw [delivered] at record
      refine ⟨fun client ↦ ⟨here, client, ?_⟩, ?_⟩
      · rw [record.1]
        simp
      · obtain ⟨-, result, run⟩ := step_api_eq_some step_eq
        exact psaReply_memory run rfl

/-- A waiting reply to a request waited before, unless the step is that reply. -/
theorem foreign_waits {cfg : Config Pt Svc} {s s' : State Pt Svc} {a : Spm.Action Pt}
    {effect : Effect} (managed : Managed cfg s) (disciplined : Disciplined cfg.platform s a)
    (step_eq : Spm.step cfg.platform s a = some (effect, s')) {c : ℕ}
    (frame : AgentFrame s s' cfg.agent effect c)
    (waits : s'.ReplyWaits cfg.platform cfg.agent c) :
    s.ReplyWaits cfg.platform cfg.agent c ∨ ∃ status, effect = .replied c status := by
  obtain ⟨L, life⟩ := managed
  exact (move_of_step life disciplined step_eq).replyWaits life cfg.agent_mailbox frame waits

omit [DecidableEq Pt] in
/-- A reply leaves the vectors of other slots alone. -/
theorem Awaiting.vectors_apart {cfg : Config Pt Svc} {s : Spe Pt Svc} {J : Journal} {j k n c : ℕ}
    {memory : Word → BitVec 8} (awaiting : Awaiting cfg s J j n c) (j_lt : j < cfg.numSlots)
    (k_lt : k < cfg.numSlots) (k_ne : k ≠ j)
    (memory_eq : memory = if psaIpcCall ≤ (s.spm.connections c).msg.type then
      updateCallerOutvecLen s.spm.memory (dropMapped (s.spm.connections c)) else s.spm.memory)
    {m : ℕ} (m_lt : m < 64) :
    memory (cfg.vectorsAddress k + BitVec.ofNat 32 m) =
      s.spm.memory (cfg.vectorsAddress k + BitVec.ofNat 32 m) := by
  rw [memory_eq]
  split
  · next call =>
      refine updateCallerOutvecLen_apart fun n' n'_lt ↦ ?_
      have address : (dropMapped (s.spm.connections c)).callerOutvec =
          cfg.vectorsAddress j + BitVec.ofNat 32 32 := awaiting.callerOutvec call
      rw [address, add_add_ofNat]
      exact cfg.vectors_apart k j k_lt j_lt k_ne m (32 + n') m_lt (by omega)
  · rfl

omit [DecidableEq Pt] in
/-- The service has replied to a request. -/
theorem Awaiting.replied {cfg : Config Pt Svc} {s : Spe Pt Svc} {spm : State Pt Svc}
    {J J' : Journal} {k n c : ℕ} {status : ℤ} (awaiting : Awaiting cfg s J k n c)
    (frame : AgentFrame s.spm spm cfg.agent (.replied c status) c)
    (memory : spm.memory = if psaIpcCall ≤ (s.spm.connections c).msg.type then
      updateCallerOutvecLen s.spm.memory (dropMapped (s.spm.connections c)) else s.spm.memory)
    (onChunk : J'.onChunk = J.onChunk) (slot : J'.slot = J.slot)
    (result : J'.result n = some (serviceResult s.spm spm c)) :
    Awaiting cfg { s with spm := spm } J' k n c := by
  have same := frame.same awaiting.here
  have lens : psaIpcCall ≤ (s.spm.connections c).msg.type → ∀ i,
      Spe.outVecLen cfg { s with spm := spm } k i =
        if (s.spm.connections c).msg.outSize i = 0 then 0
        else (dropMapped (s.spm.connections c)).outvecWritten i := by
    intro call i
    have address : (dropMapped (s.spm.connections c)).callerOutvec = cfg.outVecAddress k :=
      awaiting.callerOutvec call
    have stored := vecLen_updateCallerOutvecLen s.spm.memory (dropMapped (s.spm.connections c)) i
    rw [address] at stored
    simp only [Spe.outVecLen, memory, if_pos call]
    rw [stored]
    by_cases empty : (s.spm.connections c).msg.outSize i = 0
    · have zero := awaiting.emptyVec call i empty
      rw [if_pos empty, if_pos (show (dropMapped _).msg.outSize i = 0 from empty)]
      exact zero
    · rw [if_neg empty, if_neg (show ¬(dropMapped _).msg.outSize i = 0 from empty)]
  refine ⟨frame.underWay.2 awaiting.here, ?_, ?_, ?_, ?_, ?_, ?_, ?_⟩
  · rw [onChunk]
    exact awaiting.onChunk
  · rw [slot]
    exact awaiting.slot
  · dsimp only
    rw [same.type]
    exact awaiting.inUse
  · dsimp only
    rw [same.type, same.callerOutvec]
    exact awaiting.callerOutvec
  · dsimp only
    rw [same.type, same.outSize]
    intro call i empty
    rw [lens call, if_pos empty]
  · intro r found
    rw [result] at found
    cases found
    refine ⟨rfl, ?_⟩
    dsimp only
    rw [same.type, serviceResult]
    dsimp only
    split
    · next call => exact congrArg some (funext fun i ↦ (lens call i).symm)
    · rfl
  · intro _
    rw [result]
    simp

/-- What a step of the manager enters in the journal. -/
theorem observe_spm_frame (cfg : Config Pt Svc) (s s' : Spe Pt Svc) (J : Journal)
    (effect : Effect) :
    (J.observe cfg s s' (.spm effect)).count = J.count ∧
      (J.observe cfg s s' (.spm effect)).asked = J.asked ∧
      (J.observe cfg s s' (.spm effect)).slot = J.slot ∧
      (J.observe cfg s s' (.spm effect)).onChunk = J.onChunk := by
  cases effect with
  | replied c status =>
      simp only [Journal.observe]
      split
      · split <;> exact ⟨rfl, rfl, rfl, rfl⟩
      · exact ⟨rfl, rfl, rfl, rfl⟩
  | _ => exact ⟨rfl, rfl, rfl, rfl⟩

/-- A reply changes the result of its own request only. -/
theorem observe_spm_result {cfg : Config Pt Svc} {s s' : Spe Pt Svc} {J : Journal} {effect : Effect}
    {n : ℕ} (other : ∀ c status, effect = .replied c status →
      (s.spm.connections c).pClient = some cfg.agent → J.onChunk c ≠ some n) :
    (J.observe cfg s s' (.spm effect)).result n = J.result n := by
  cases effect with
  | replied c status =>
      simp only [Journal.observe]
      split
      · next client =>
          split
          · next m onChunk =>
              have n_ne : n ≠ m := by
                rintro rfl
                exact other c status rfl client onChunk
              exact Function.update_of_ne n_ne ..
          · rfl
      · rfl
  | _ => rfl

/-- A step of the manager moves no slot to another phase. -/
theorem SystemInv.spm {cfg : Config Pt Svc} {s : System Pt Svc T} {X : Traffic}
    {a : Spm.Action Pt} {effect : Effect} {spm : State Pt Svc} (inv : SystemInv cfg (s, X))
    (is_foreign : foreign cfg a = true) (disciplined : Disciplined cfg.platform s.spe.spm a)
    (isolated : Isolated cfg s.spe.spm a)
    (step_eq : Spm.step cfg.platform s.spe.spm a = some (effect, spm))
    (slots : SlotInv cfg { s.spe with spm := spm }
      (X.journal.observe cfg s.spe { s.spe with spm := spm } (.spm effect))) :
    SystemInv cfg ({ s with spe := { s.spe with spm := spm } },
      X.observe cfg s.spe { s.spe with spm := spm } (.spm effect)) := by
  have managed : Managed cfg s.spe.spm := inv.slots.managed
  obtain ⟨-, frame⟩ := foreign_frame managed is_foreign disciplined step_eq
  obtain ⟨count, asked, slot, onChunk⟩ :=
    observe_spm_frame cfg s.spe { s.spe with spm := spm } X.journal effect
  generalize journal_eq : X.journal.observe cfg s.spe { s.spe with spm := spm } (.spm effect) = J'
    at count asked slot onChunk slots
  -- the chunk of a reply to the agent is under way, so its request is known
  have replied : ∀ d status, effect = .replied d status →
      (s.spe.spm.connections d).pClient = some cfg.agent → s.spe.spm.UnderWay cfg.agent d ∧
        spm.memory = if psaIpcCall ≤ (s.spe.spm.connections d).msg.type then
          updateCallerOutvecLen s.spe.spm.memory (dropMapped (s.spe.spm.connections d))
          else s.spe.spm.memory := by
    rintro d status rfl client
    obtain ⟨here, memory⟩ := replied_step managed disciplined step_eq
    exact ⟨here client, memory⟩
  have result : ∀ n, (∀ d status, effect = .replied d status → s.spe.spm.UnderWay cfg.agent d →
      X.journal.onChunk d ≠ some n) → J'.result n = X.journal.result n := by
    intro n other
    rw [← journal_eq]
    exact observe_spm_result fun d status effect_eq client ↦
      other d status effect_eq (replied d status effect_eq client).1
  refine ⟨?_, inv.ns, inv.loop, fun k k_lt ↦ ?_, inv.beyond, fun n n_le ↦ ?_⟩
  · dsimp only [Traffic.observe]
    rw [journal_eq]
    exact slots
  · have k_lt' := lt_of_lt_of_le k_lt cfg.nsSlotCount_le
    dsimp only [Traffic.observe]
    rw [journal_eq]
    have same : SameSlot cfg (s, X)
        ({ s with spe := { s.spe with spm := spm } }, { X with journal := J' }) k := by
      refine ⟨.of_eq rfl rfl .rfl, fun _ _ _ _ ↦ .rfl, rfl, rfl,
        fun unused ↦ ⟨unused.empty, unused.inUse⟩, rfl, rfl, count.ge, fun n _ ↦ congrFun asked n,
        fun n _ ↦ congrFun slot n, ?_, ?_⟩
      · intro n r _ _ slot_eq unused found
        refine (result n fun d _ _ here onChunk_d ↦ ?_).trans found
        obtain ⟨m, carried⟩ := inv.slots.carried d here
        have same := carried.onChunk
        dsimp only at same slot_eq
        rw [onChunk_d] at same
        cases same
        have in_use := carried.in_use
        dsimp only at in_use
        rw [slot_eq] at in_use
        exact in_use unused.empty
      · intro n c _ awaiting
        have client : (s.spe.spm.connections c).pClient = some cfg.agent := awaiting.here.2.1
        have slot_c : ∀ d, s.spe.spm.UnderWay cfg.agent d → d ≠ c →
            ∃ j m, j < cfg.numSlots ∧ k ≠ j ∧ Awaiting cfg s.spe X.journal j m d := by
          intro d d_here d_ne
          obtain ⟨m, t, msg, carried, served⟩ := inv.served_of_underWay d_here
          obtain ⟨n', carried_c⟩ := inv.slots.carried c awaiting.here
          have same := carried_c.onChunk
          dsimp only at same
          rw [awaiting.onChunk] at same
          cases same
          refine ⟨X.journal.slot m, m, lt_of_lt_of_le carried.slot_lt cfg.nsSlotCount_le, ?_,
            served.awaiting⟩
          intro k_eq
          exact d_ne (inv.slots.slot_injective d_here awaiting.here carried carried_c
            (k_eq.symm.trans awaiting.slot.symm))
        by_cases own : ∃ status, effect = .replied c status
        · obtain ⟨status, rfl⟩ := own
          refine awaiting.replied (frame c) (replied c status rfl client).2 onChunk slot ?_
          rw [← journal_eq]
          have onChunk_c := awaiting.onChunk
          dsimp only at onChunk_c
          simp only [Journal.observe, if_pos client, onChunk_c, Function.update_self]
        · have other : ∀ status, effect ≠ .replied c status := fun status same ↦ own ⟨status, same⟩
          refine awaiting.congr (frame c) other rfl ?_ ?_ (congrFun onChunk c) (congrFun slot n) ?_
          · rcases isolated effect spm step_eq with ⟨d, status, effect_eq, d_client⟩ | same
            · intro m m_lt
              obtain ⟨d_here, memory⟩ := replied d status effect_eq d_client
              obtain ⟨j, n', j_lt, k_ne, d_awaiting⟩ :=
                slot_c d d_here (by rintro rfl; exact other status effect_eq)
              exact d_awaiting.vectors_apart j_lt k_lt' k_ne memory m_lt
            · exact same k k_lt'
          · intro waits
            rcases foreign_waits managed disciplined step_eq
              (frame c) waits with before | impossible
            · exact before
            · exact absurd impossible own
          · refine result n fun d status effect_eq d_here onChunk_d ↦ ?_
            obtain ⟨j, m, -, k_ne, d_awaiting⟩ :=
              slot_c d d_here (by rintro rfl; exact other status effect_eq)
            have same := d_awaiting.onChunk
            rw [onChunk_d] at same
            cases same
            exact k_ne (awaiting.slot.symm.trans d_awaiting.slot)
    exact (inv.phase k k_lt).congr same
  · dsimp only [Traffic.observe] at n_le ⊢
    rw [journal_eq] at n_le ⊢
    rw [count] at n_le
    refine (result n fun d _ _ here onChunk_d ↦ ?_).trans (inv.unfinished n n_le)
    obtain ⟨m, carried⟩ := inv.slots.carried d here
    have same := carried.onChunk
    dsimp only at same
    rw [onChunk_d] at same
    cases same
    exact absurd carried.taken (by dsimp only; omega)

end TrustedFirmwareM.Mailbox
