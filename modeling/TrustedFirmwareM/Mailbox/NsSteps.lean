import TrustedFirmwareM.Mailbox.Phases

/-!
# Steps of the non-secure side

Every step of a thread and of the interrupt handler moves one slot to its next phase, or only moves
a signal on.
-/

namespace TrustedFirmwareM.Mailbox

open Spm

variable {Pt Svc T : Type}

/-- What holds of the threads and the empty slots. -/
structure NsInv (cfg : Config Pt Svc) (ns : Ns T) : Prop where
  /-- Threads own slots that there are. -/
  slot_lt : ∀ t k, (ns.threads t).slot = some k → k < cfg.nsSlotCount
  /-- No slot has two owners. -/
  exclusive : ∀ t u k, (ns.threads t).slot = some k → (ns.threads u).slot = some k → t = u
  /-- An empty slot has no owner. -/
  empty : ∀ k, k < cfg.nsSlotCount → ns.emptySlots.getLsbD k = true →
    ∀ t, (ns.threads t).slot ≠ some k
  /-- A message about to be sent is one of the client interface. -/
  posted : ∀ t k msg, ns.threads t = .filling k msg → Posted cfg msg

/-- The invariant of the system. -/
structure SystemInv (cfg : Config Pt Svc) (x : System Pt Svc T × Traffic) : Prop where
  /-- The slot records are in order. -/
  slots : SlotInv cfg x.1.spe x.2.journal
  /-- The threads are in order. -/
  ns : NsInv cfg x.1.ns
  /-- The slots of the loop are still pending. -/
  loop : ∀ loop k, x.1.spe.loop = some loop → loop.pendSlots.getLsbD k = true → x.1.pends k = true
  /-- Every slot is in a phase. -/
  phase : ∀ k, k < cfg.nsSlotCount → Phase cfg x.1 x.2 k
  /-- There are no replies to other slots. -/
  beyond : ∀ k, cfg.nsSlotCount ≤ k → x.2.received k = []
  /-- Requests that have not been taken have no result. -/
  unfinished : ∀ n, x.2.journal.count ≤ n → x.2.journal.result n = none

theorem Thread.Sent.slot {thread : Thread} {k : ℕ} {msg : MailboxMsg} (sent : thread.Sent k msg) :
    thread.slot = some k := by
  rcases sent with rfl | rfl | ⟨reply, rfl⟩ <;> rfl

theorem Thread.Sent.msg_eq {thread : Thread} {k : ℕ} {msg msg' : MailboxMsg}
    (sent : thread.Sent k msg) (sent' : thread.Sent k msg') : msg' = msg := by
  rcases sent with rfl | rfl | ⟨reply, rfl⟩ <;>
    rcases sent' with same | same | ⟨_, same⟩ <;> cases same <;> rfl

/-- The owner of a slot in a phase. -/
theorem NsInv.owner {cfg : Config Pt Svc} {ns : Ns T} (inv : NsInv cfg ns) {t u : T} {k : ℕ}
    {msg : MailboxMsg} (sent : (ns.threads t).Sent k msg) (owner : (ns.threads u).slot = some k) :
    t = u :=
  inv.exclusive t u k sent.slot owner

/-! ## Slots that a thread does not own -/

/-- The parts of the secure side that the phase of a slot depends on, apart from the signals. -/
structure SameRecord (s s' : Spe Pt Svc) (k : ℕ) : Prop where
  /-- The manager. -/
  spm : s'.spm = s.spm
  /-- The free records. -/
  emptySlots : s'.emptySlots = s.emptySlots
  /-- The use of the vectors. -/
  inUse : s'.inUse = s.inUse
  /-- The message and the reply of the slot. -/
  slot : s'.shared.slots k = s.shared.slots k

theorem SameRecord.rfl {s : Spe Pt Svc} {k : ℕ} : SameRecord s s k :=
  ⟨Eq.refl _, Eq.refl _, Eq.refl _, Eq.refl _⟩

theorem Awaiting.of_spm {cfg : Config Pt Svc} {s s' : Spe Pt Svc} {J : Journal} {k n c : ℕ}
    (awaiting : Awaiting cfg s J k n c) (spm : s'.spm = s.spm) (inUse : s'.inUse = s.inUse) :
    Awaiting cfg s' J k n c := by
  obtain ⟨here, onChunk, slot, inUse_eq, callerOutvec, emptyVec, result, waits⟩ := awaiting
  have lens : s'.outVecLen cfg k = s.outVecLen cfg k := by
    funext i
    rw [Spe.outVecLen, Spe.outVecLen, spm]
  refine ⟨?_, onChunk, slot, ?_, ?_, ?_, ?_, ?_⟩
  · rw [spm]
    exact here
  · rw [spm, inUse]
    exact inUse_eq
  · rw [spm]
    exact callerOutvec
  · rw [spm, lens]
    exact emptyVec
  · rw [spm, lens]
    exact result
  · rw [spm]
    exact waits

/-- A step that keeps the record, the threads and the traffic of a slot. -/
theorem SameSlot.of_record {cfg : Config Pt Svc} {s s' : System Pt Svc T} {X X' : Traffic} {k : ℕ}
    (record : SameRecord s.spe s'.spe k) (signals : SignalFrame s s' k)
    (threads : ∀ t thread msg, thread.Sent k msg →
      (s'.ns.threads t = thread ↔ s.ns.threads t = thread))
    (received : X'.received k = X.received k) (number : X'.number k = X.number k)
    (journal : X'.journal = X.journal) : SameSlot cfg (s, X) (s', X') k := by
  refine ⟨signals, threads, received, number, fun unused ↦ ⟨?_, ?_⟩, ?_, ?_, ?_, ?_, ?_, ?_, ?_⟩
  · dsimp only
    rw [Spe.Empty, record.emptySlots]
    exact unused.empty
  · dsimp only
    rw [record.inUse]
    exact unused.inUse
  · simp only [copiedMsg, record.slot]
  · exact congrArg NsSlot.reply record.slot
  · exact journal ▸ le_rfl
  · intro n _
    dsimp only
    rw [journal]
  · intro n _
    dsimp only
    rw [journal]
  · intro n r _ _ _ _ result
    dsimp only
    rw [journal]
    exact result
  · intro n c _ awaiting
    dsimp only
    rw [journal]
    exact awaiting.of_spm record.spm record.inUse

variable [DecidableEq T]

/-- A thread that moves within another slot, or within none. -/
theorem sent_setThread {threads : T → Thread} {t : T} {after : Thread} {k : ℕ}
    (before : ∀ msg, ¬(threads t).Sent k msg) (now : ∀ msg, ¬after.Sent k msg) (u : T)
    (thread : Thread) (msg : MailboxMsg) (sent : thread.Sent k msg) :
    Function.update threads t after u = thread ↔ threads u = thread := by
  by_cases u_eq : u = t
  · subst u_eq
    rw [Function.update_self]
    constructor
    · rintro rfl
      exact absurd sent (now msg)
    · rintro rfl
      exact absurd sent (before msg)
  · rw [Function.update_of_ne u_eq]

theorem not_sent_of_slot {thread : Thread} {k j : ℕ} (slot : thread.slot = some j) (k_ne : k ≠ j)
    (msg : MailboxMsg) : ¬thread.Sent k msg := by
  intro sent
  rw [sent.slot] at slot
  exact k_ne (Option.some.inj slot)

/-- The threads after one of them has moved within its slot. -/
theorem NsInv.move {cfg : Config Pt Svc} {ns : Ns T} (inv : NsInv cfg ns) {t : T}
    {thread : Thread} {isWoken : ℕ → Bool} (slot : thread.slot = (ns.threads t).slot)
    (posted : ∀ k msg, thread = .filling k msg → Posted cfg msg) :
    NsInv cfg ({ ns with isWoken := isWoken }.setThread t thread) := by
  have slots : ∀ u, (Function.update ns.threads t thread u).slot = (ns.threads u).slot := by
    intro u
    by_cases u_eq : u = t
    · subst u_eq
      rw [Function.update_self, slot]
    · rw [Function.update_of_ne u_eq]
  refine ⟨fun u k owner ↦ ?_, fun u v k owner owner' ↦ ?_, fun k k_lt empty u owner ↦ ?_,
    fun u k msg filling ↦ ?_⟩
  · exact inv.slot_lt u k ((slots u).symm.trans owner)
  · exact inv.exclusive u v k ((slots u).symm.trans owner) ((slots v).symm.trans owner')
  · exact inv.empty k k_lt empty u ((slots u).symm.trans owner)
  · by_cases u_eq : u = t
    · subst u_eq
      exact posted k msg ((Function.update_self ..).symm.trans filling)
    · exact inv.posted u k msg ((Function.update_of_ne u_eq ..).symm.trans filling)

/-! ## Acquiring a slot -/

theorem ClientCall.posted {cfg : Config Pt Svc} {call : ClientCall} {request : Request}
    {clientId : ℤ} (sends : call.request = some request) :
    Posted cfg ⟨request, if cfg.manageNsid then clientId else -1⟩ := by
  refine ⟨?_, ?_, ?_⟩
  · rintro rfl
    cases call with
    | psaCall params =>
        simp only [ClientCall.request] at sends
        split at sends <;> cases sends
    | _ => cases sends
  · rintro params rfl
    cases call with
    | psaCall params' =>
        simp only [ClientCall.request] at sends
        split at sends
        · cases sends
        · next fits =>
            cases sends
            simp only [not_or, not_lt] at fits
            exact fits.2.2
    | _ => cases sends
  · intro shared
    simp [shared]

theorem acquireEmptySlot_spec {cfg : Config Pt Svc} {emptySlots emptySlots' : Word} {idx : ℕ}
    (acquired : acquireEmptySlot cfg emptySlots = some (idx, emptySlots')) :
    idx < cfg.nsSlotCount ∧ emptySlots.getLsbD idx = true ∧
      emptySlots' = emptySlots &&& ~~~slotBit idx := by
  rw [acquireEmptySlot] at acquired
  split at acquired
  · cases acquired
  · simp only [Option.map_eq_some_iff, Prod.mk.injEq] at acquired
    obtain ⟨found, find, rfl, rfl⟩ := acquired
    have member := List.mem_range.1 (List.mem_of_find?_eq_some find)
    have set := List.find?_some find
    have idx_lt : found < 32 := by
      have slots := cfg.nsSlotCount_le
      have words := cfg.numSlots_le
      omega
    refine ⟨member, ?_, rfl⟩
    by_contra clear
    rw [Bool.not_eq_true] at clear
    simp [(and_slotBit_eq_zero idx_lt).2 clear] at set

/-- A thread acquires an empty slot. -/
theorem NsInv.acquire {cfg : Config Pt Svc} {ns : Ns T} (inv : NsInv cfg ns) {t : T} {idx : ℕ}
    {msg : MailboxMsg} {emptySlots : Word}
    (acquired : acquireEmptySlot cfg ns.emptySlots = some (idx, emptySlots))
    (posted : Posted cfg msg) :
    NsInv cfg ({ ns with emptySlots := emptySlots }.setThread t (.filling idx msg)) := by
  obtain ⟨idx_lt, was_empty, rfl⟩ := acquireEmptySlot_spec acquired
  have unowned := inv.empty idx idx_lt was_empty
  have self : Function.update ns.threads t (.filling idx msg) t = .filling idx msg :=
    Function.update_self ..
  have other : ∀ u, u ≠ t → Function.update ns.threads t (.filling idx msg) u = ns.threads u :=
    fun u u_ne ↦ Function.update_of_ne u_ne ..
  refine ⟨fun u k owner ↦ ?_, fun u v k owner owner' ↦ ?_, fun k k_lt empty u owner ↦ ?_,
    fun u k msg' filling ↦ ?_⟩
  · by_cases u_eq : u = t
    · simp only [Ns.setThread, u_eq, self, Thread.slot, Option.some.injEq] at owner
      omega
    · simp only [Ns.setThread, other u u_eq] at owner
      exact inv.slot_lt u k owner
  · by_cases u_eq : u = t
    · by_cases v_eq : v = t
      · rw [u_eq, v_eq]
      · simp only [Ns.setThread, u_eq, self, Thread.slot, Option.some.injEq] at owner
        simp only [Ns.setThread, other v v_eq, ← owner] at owner'
        exact absurd owner' (unowned v)
    · by_cases v_eq : v = t
      · simp only [Ns.setThread, v_eq, self, Thread.slot, Option.some.injEq] at owner'
        simp only [Ns.setThread, other u u_eq, ← owner'] at owner
        exact absurd owner (unowned u)
      · simp only [Ns.setThread, other u u_eq] at owner
        simp only [Ns.setThread, other v v_eq] at owner'
        exact inv.exclusive u v k owner owner'
  · simp only [Ns.setThread, getLsbD_and_not_slotBit, Bool.and_eq_true, Bool.not_eq_true',
      decide_eq_false_iff_not] at empty
    by_cases u_eq : u = t
    · simp only [Ns.setThread, u_eq, self, Thread.slot, Option.some.injEq] at owner
      exact empty.2 owner.symm
    · simp only [Ns.setThread, other u u_eq] at owner
      exact inv.empty k k_lt empty.1 u owner
  · by_cases u_eq : u = t
    · simp only [Ns.setThread, u_eq, self, Thread.filling.injEq] at filling
      rw [← filling.2]
      exact posted
    · simp only [Ns.setThread, other u u_eq] at filling
      exact inv.posted u k msg' filling

/-- A thread gives its slot back. -/
theorem NsInv.release {cfg : Config Pt Svc} {ns : Ns T} (inv : NsInv cfg ns) {t : T} {idx : ℕ}
    {isWoken : ℕ → Bool} (owner : (ns.threads t).slot = some idx) :
    NsInv cfg (⟨setQueueSlotEmpty cfg ns.emptySlots idx, isWoken,
      Function.update ns.threads t .idle⟩ : Ns T) := by
  have idx_lt := inv.slot_lt t idx owner
  have idx_lt' : idx < 32 := lt_of_lt_of_le (lt_of_lt_of_le idx_lt cfg.nsSlotCount_le)
    cfg.numSlots_le
  have other : ∀ u k, (Function.update ns.threads t .idle u).slot = some k →
      u ≠ t ∧ (ns.threads u).slot = some k := by
    intro u k owner'
    by_cases u_eq : u = t
    · rw [u_eq, Function.update_self] at owner'
      cases owner'
    · rw [Function.update_of_ne u_eq] at owner'
      exact ⟨u_eq, owner'⟩
  refine ⟨fun u k owner' ↦ ?_, fun u v k owner' owner'' ↦ ?_, fun k k_lt empty u owner' ↦ ?_,
    fun u k msg filling ↦ ?_⟩
  · exact inv.slot_lt u k (other u k owner').2
  · exact inv.exclusive u v k (other u k owner').2 (other v k owner'').2
  · obtain ⟨u_ne, owned⟩ := other u k owner'
    simp only [setQueueSlotEmpty, if_pos idx_lt, getLsbD_or_slotBit idx_lt', Bool.or_eq_true,
      decide_eq_true_eq] at empty
    rcases empty with empty | rfl
    · exact inv.empty k k_lt empty u owned
    · exact u_ne (inv.exclusive u t k owned owner)
  · obtain ⟨-, slot⟩ := other u k (by dsimp only at filling; rw [filling]; rfl)
    by_cases u_eq : u = t
    · simp only [u_eq, Function.update_self] at filling
      cases filling
    · simp only [Function.update_of_ne u_eq] at filling
      exact inv.posted u k msg filling

/-! ## Steps -/

omit [DecidableEq T] in
/-- The slot records do not depend on the shared memory. -/
theorem SlotInv.of_spm {cfg : Config Pt Svc} {s s' : Spe Pt Svc} {J : Journal}
    (inv : SlotInv cfg s J) (spm : s'.spm = s.spm) (emptySlots : s'.emptySlots = s.emptySlots)
    (queue : s'.queue = s.queue) : SlotInv cfg s' J := by
  have frame : ∀ c, AgentFrame s.spm s'.spm cfg.agent .quiet c := by
    intro c
    rw [spm]
    exact (Quiet.refl inv.managed.pool).agentFrame cfg.agent .quiet c
  refine inv.congr ?_ frame emptySlots queue
  rw [spm]
  exact inv.managed

/-- Acquiring a slot moves no slot to another phase. -/
theorem SystemInv.acquire {cfg : Config Pt Svc} {s : System Pt Svc T} {X : Traffic}
    (inv : SystemInv cfg (s, X)) {t : T} {idx : ℕ} {msg : MailboxMsg} {emptySlots : Word}
    (idle : s.ns.threads t = .idle)
    (acquired : acquireEmptySlot cfg s.ns.emptySlots = some (idx, emptySlots))
    (posted : Posted cfg msg) :
    SystemInv cfg ({ s with
      ns := { s.ns with emptySlots := emptySlots }.setThread t (.filling idx msg) }, X) := by
  refine ⟨inv.slots, inv.ns.acquire acquired posted, inv.loop, fun k k_lt ↦ ?_, inv.beyond,
    inv.unfinished⟩
  refine (inv.phase k k_lt).congr (.of_record .rfl (.of_eq rfl rfl .rfl) ?_ rfl rfl rfl)
  refine sent_setThread (fun msg' sent ↦ ?_) (fun msg' sent ↦ ?_)
  · rw [idle] at sent
    rcases sent with impossible | impossible | ⟨_, impossible⟩ <;> cases impossible
  · rcases sent with impossible | impossible | ⟨_, impossible⟩ <;> cases impossible

omit [DecidableEq T] in
theorem SystemInv.lt_word {cfg : Config Pt Svc} {k : ℕ} (k_lt : k < cfg.nsSlotCount) : k < 32 :=
  lt_of_lt_of_le (lt_of_lt_of_le k_lt cfg.nsSlotCount_le) cfg.numSlots_le

/-- A message that is sent in a slot is pending. -/
theorem SystemInv.send {cfg : Config Pt Svc} {s : System Pt Svc T} {X : Traffic}
    (inv : SystemInv cfg (s, X)) {t : T} {idx : ℕ} {msg : MailboxMsg}
    (filling : s.ns.threads t = .filling idx msg) :
    SystemInv cfg ({ s.setShared (mailboxTxClientReq cfg s.spe.shared idx msg) with
      ns := s.ns.setThread t (.waiting idx msg) }, X) := by
  have owner : (s.ns.threads t).slot = some idx := by rw [filling]; rfl
  have idx_lt := inv.ns.slot_lt t idx owner
  generalize s'_eq : { s.setShared (mailboxTxClientReq cfg s.spe.shared idx msg) with
    ns := s.ns.setThread t (.waiting idx msg) } = s'
  have pends : ∀ k, s'.pends k = (s.pends k || decide (k = idx)) := by
    intro k
    rw [← s'_eq]
    simp only [System.pends, System.setShared, mailboxTxClientReq, if_pos idx_lt]
    exact getLsbD_or_slotBit (SystemInv.lt_word idx_lt)
  have free : Free s X idx := by
    have not_sent : ∀ u msg', ¬(s.ns.threads u).Sent idx msg' := by
      intro u msg' sent
      have same := inv.ns.owner sent owner
      rw [same, filling] at sent
      rcases sent with impossible | impossible | ⟨_, impossible⟩ <;> cases impossible
    cases inv.phase idx idx_lt with
    | free free => exact free
    | pending pending => exact absurd (.of_waiting pending.thread) (not_sent _ _)
    | served served => exact absurd (.of_waiting served.thread) (not_sent _ _)
    | answered answered => exact absurd answered.thread (not_sent _ _)
  refine ⟨?_, ?_, fun loop k loop_eq set ↦ ?_, fun k k_lt ↦ ?_, inv.beyond, inv.unfinished⟩
  · refine inv.slots.of_spm ?_ ?_ ?_ <;> exact s'_eq ▸ rfl
  · rw [← s'_eq]
    exact inv.ns.move (by rw [owner]; rfl) (fun _ _ impossible ↦ by cases impossible)
  · rw [pends, inv.loop loop k (by rw [← loop_eq, ← s'_eq]; rfl) set]
    rfl
  · by_cases k_eq : k = idx
    · subst k_eq
      have thread : s'.ns.threads t = .waiting k msg := by
        rw [← s'_eq]
        exact Function.update_self ..
      have posted := inv.ns.posted t k msg filling
      refine .pending ⟨thread, posted, ?_, ?_, ?_, ?_, free.received, free.number, ?_⟩
      · rw [← s'_eq]
        simp only [copiedMsg, System.setShared, mailboxTxClientReq, Function.update_self]
        split
        · rfl
        · next shared =>
            have id := posted.clientId (by simpa using shared)
            rw [← id]
      · rw [pends]
        simp
      · rintro ⟨loop, loop_eq, set, -⟩
        have clear := free.clear
        rw [inv.loop loop k (by rw [← loop_eq, ← s'_eq]; rfl) set] at clear
        cases clear
      · have same : s'.signals k = s.signals k := by
          rw [← s'_eq]
          rfl
        rw [System.NoSignal, same]
        exact free.signal
      · refine ⟨?_, ?_⟩
        · exact s'_eq ▸ free.unused.empty
        · exact s'_eq ▸ free.unused.inUse
    · refine (inv.phase k k_lt).congr (.of_record ⟨?_, ?_, ?_, ?_⟩ (.of_eq ?_ ?_ ?_) ?_ rfl rfl rfl)
      · exact s'_eq ▸ rfl
      · exact s'_eq ▸ rfl
      · exact s'_eq ▸ rfl
      · rw [← s'_eq]
        exact Function.update_of_ne k_eq ..
      · exact s'_eq ▸ rfl
      · rw [pends]
        simp [k_eq]
      · exact s'_eq ▸ .rfl
      · rw [← s'_eq]
        exact sent_setThread (not_sent_of_slot owner k_eq) (not_sent_of_slot rfl k_eq)

omit [DecidableEq T] in
theorem getLsbD_of_and_slotBit (mask : Word) {k : ℕ} (k_lt : k < 32) :
    mask &&& slotBit k ≠ 0 ↔ mask.getLsbD k = true := by
  rw [ne_eq, and_slotBit_eq_zero k_lt, Bool.not_eq_false]

omit [DecidableEq T] in
/-- The interrupt handler moves the signals of replied slots to their threads. -/
theorem SystemInv.wake {cfg : Config Pt Svc} {s : System Pt Svc T} {X : Traffic}
    (inv : SystemInv cfg (s, X)) : SystemInv cfg (tfmNsMailboxWakeReplyOwnerIsr cfg s, X) := by
  generalize s'_eq : tfmNsMailboxWakeReplyOwnerIsr cfg s = s'
  have signals : ∀ k, k < cfg.nsSlotCount → s'.signals k =
      (s.spe.answering k, false, s.spe.shared.repliedSlots.getLsbD k || s.ns.isWoken k) := by
    intro k k_lt
    have bit := getLsbD_of_and_slotBit s.spe.shared.repliedSlots (SystemInv.lt_word k_lt)
    rw [← s'_eq]
    simp only [System.signals, tfmNsMailboxWakeReplyOwnerIsr, System.setShared, k_lt, true_and, bit,
      Prod.mk.injEq, true_and]
    refine ⟨rfl, ?_⟩
    cases s.spe.shared.repliedSlots.getLsbD k <;> simp
  have same : s'.ns.threads = s.ns.threads ∧ s'.ns.emptySlots = s.ns.emptySlots := by
    rw [← s'_eq]
    exact ⟨rfl, rfl⟩
  have pends : ∀ k, s'.pends k = s.pends k := fun k ↦ s'_eq ▸ rfl
  have passed : ∀ k, s'.spe.Passed k ↔ s.spe.Passed k := fun k ↦ s'_eq ▸ .rfl
  refine ⟨?_, ?_, ?_, fun k k_lt ↦ ?_, inv.beyond, inv.unfinished⟩
  · refine inv.slots.of_spm ?_ ?_ ?_ <;> exact s'_eq ▸ rfl
  · obtain ⟨slot_lt, exclusive, empty, posted⟩ := inv.ns
    refine ⟨?_, ?_, ?_, ?_⟩ <;> dsimp only <;> rw [same.1]
    · exact slot_lt
    · exact exclusive
    · rw [same.2]
      exact empty
    · exact posted
  · intro loop k loop_eq set
    rw [pends]
    exact inv.loop loop k (by rw [← loop_eq, ← s'_eq]; rfl) set
  · have answering : s'.spe.answering k = s.spe.answering k := congrArg Prod.fst (signals k k_lt)
    refine (inv.phase k k_lt).congr (.of_record ⟨?_, ?_, ?_, ?_⟩ ⟨?_, ?_, ?_, ?_, ?_, ?_⟩ ?_ rfl rfl
      rfl)
    · exact s'_eq ▸ rfl
    · exact s'_eq ▸ rfl
    · exact s'_eq ▸ rfl
    · exact s'_eq ▸ rfl
    · rw [System.NoSignal, System.NoSignal, signals k k_lt]
      simp only [System.signals, Prod.mk.injEq, Bool.or_eq_false_iff, true_and]
      rintro ⟨no_answer, no_reply, no_wake⟩
      exact ⟨no_answer, no_reply, no_wake⟩
    · rw [System.OneSignal, System.OneSignal, signals k k_lt]
      simp only [System.signals, Prod.mk.injEq]
      rintro (⟨answer, reply, wake⟩ | ⟨answer, reply, wake⟩ | ⟨answer, reply, wake⟩) <;>
        simp [answer, reply, wake]
    · rw [pends]
      exact id
    · rw [pends, passed]
      exact fun pends ahead ↦ ⟨pends, ahead⟩
    · rw [pends, passed]
      exact id
    · rw [pends, passed, answering]
      exact id
    · rw [same.1]
      exact fun _ _ _ _ ↦ .rfl

omit [DecidableEq T] in
/-- A slot whose thread has a signal on its way, or has seen it, is answered. -/
theorem SystemInv.answered {cfg : Config Pt Svc} {s : System Pt Svc T} {X : Traffic}
    (inv : SystemInv cfg (s, X)) {t : T} {idx : ℕ} {msg : MailboxMsg}
    (sent : (s.ns.threads t).Sent idx msg)
    (signal : s.ns.threads t = .waiting idx msg → ¬s.NoSignal idx) :
    ∃ n w, Answered s X idx t msg n w := by
  have idx_lt := inv.ns.slot_lt t idx sent.slot
  cases inv.phase idx idx_lt with
  | free free => exact absurd sent (free.unsent t msg)
  | @pending u msg' pending =>
      cases inv.ns.owner sent (by dsimp only; rw [pending.thread]; rfl)
      have waiting := pending.thread
      dsimp only at waiting
      rw [waiting] at sent
      rcases sent with same | impossible | ⟨_, impossible⟩
      · exact absurd pending.signal (signal (waiting.trans same))
      · cases impossible
      · cases impossible
  | @served u msg' n c served =>
      cases inv.ns.owner sent (by dsimp only; rw [served.thread]; rfl)
      have waiting := served.thread
      dsimp only at waiting
      rw [waiting] at sent
      rcases sent with same | impossible | ⟨_, impossible⟩
      · exact absurd served.signal (signal (waiting.trans same))
      · cases impossible
      · cases impossible
  | @answered u msg' n w answered =>
      cases inv.ns.owner sent answered.thread.slot
      exact ⟨n, w, sent.msg_eq answered.thread ▸ answered⟩

/-- A thread moves on within an answered slot. -/
theorem SystemInv.advance {cfg : Config Pt Svc} {s : System Pt Svc T} {X : Traffic}
    (inv : SystemInv cfg (s, X)) {t : T} {idx n : ℕ} {msg : MailboxMsg} {w : Written}
    {thread : Thread} {isWoken : ℕ → Bool} (answered : Answered s X idx t msg n w)
    (sent : thread.Sent idx msg) (not_waiting : thread ≠ .waiting idx msg)
    (woken : ∀ k, k ≠ idx → isWoken k = s.ns.isWoken k)
    (signal : s.spe.answering idx = false ∧ s.spe.shared.repliedSlots.getLsbD idx = false ∧
      isWoken idx = false)
    (copied : ∀ reply, thread = .received idx msg reply → w.CopiedTo reply) :
    SystemInv cfg ({ s with ns := { s.ns with isWoken := isWoken }.setThread t thread }, X) := by
  have owner := answered.thread.slot
  refine ⟨inv.slots, ?_, inv.loop, fun k k_lt ↦ ?_, inv.beyond, inv.unfinished⟩
  · refine inv.ns.move (sent.slot.trans owner.symm) ?_
    rintro k msg' rfl
    rcases sent with impossible | impossible | ⟨_, impossible⟩ <;> cases impossible
  · by_cases k_eq : k = idx
    · subst k_eq
      have now : Function.update s.ns.threads t thread t = thread := Function.update_self ..
      refine .answered (t := t) (w := w) ⟨?_, ?_, ?_, ?_, answered.received, answered.number,
        answered.taken, answered.answers, answered.unused, answered.reply, ?_⟩
      · simp only [Ns.setThread, now]
        exact sent
      · simp only [Ns.setThread, now]
        exact fun waiting ↦ absurd waiting not_waiting
      · intro _
        simp only [System.NoSignal, System.signals, Ns.setThread, signal]
      · exact answered.passed
      · simp only [Ns.setThread, now]
        exact copied
    · refine (inv.phase k k_lt).congr (.of_record .rfl (.of_eq ?_ rfl .rfl) ?_ rfl rfl rfl)
      · simp only [System.signals, Ns.setThread, woken k k_eq]
      · exact sent_setThread (not_sent_of_slot owner k_eq) (not_sent_of_slot sent.slot k_eq)

/-- A thread sees the reply signal. -/
theorem SystemInv.signal {cfg : Config Pt Svc} {s : System Pt Svc T} {X : Traffic}
    (inv : SystemInv cfg (s, X)) {t : T} {idx : ℕ} {msg : MailboxMsg}
    (waiting : s.ns.threads t = .waiting idx msg) (idx_lt : idx < cfg.nsSlotCount)
    (woken : s.ns.isWoken idx = true) :
    SystemInv cfg ({ s with
      ns := { s.ns with isWoken := clearQueueSlotWoken cfg s.ns.isWoken idx }.setThread t
        (.signalled idx msg) }, X) := by
  obtain ⟨n, w, answered⟩ := inv.answered (.of_waiting waiting) fun _ none ↦ by
    simp [System.NoSignal, System.signals, woken] at none
  rw [clearQueueSlotWoken, if_pos idx_lt]
  refine inv.advance answered (.inr (.inl rfl)) (by simp) ?_ ?_ (fun _ impossible ↦ by
    cases impossible)
  · exact fun k k_ne ↦ Function.update_of_ne k_ne ..
  · rcases answered.oneSignal waiting with one | one | one <;>
      simp only [System.signals, Prod.mk.injEq, woken] at one
    · exact absurd one.2.2 (by decide)
    · exact absurd one.2.2 (by decide)
    · exact ⟨one.1, one.2.1, Function.update_self ..⟩

/-- A thread copies the reply. -/
theorem SystemInv.receive {cfg : Config Pt Svc} {s : System Pt Svc T} {X : Traffic}
    (inv : SystemInv cfg (s, X)) {t : T} {idx : ℕ} {msg : MailboxMsg}
    (signalled : s.ns.threads t = .signalled idx msg) :
    SystemInv cfg ({ s with
      ns := s.ns.setThread t (.received idx msg (s.spe.shared.slots idx).reply) }, X) := by
  obtain ⟨n, w, answered⟩ := inv.answered (.inr (.inl signalled)) fun impossible ↦ by
    rw [signalled] at impossible
    cases impossible
  have none := answered.noSignal (by rw [signalled]; simp)
  simp only [System.NoSignal, System.signals, Prod.mk.injEq] at none
  refine inv.advance answered (.inr (.inr ⟨_, rfl⟩)) (by simp) (fun _ _ ↦ rfl) none ?_
  rintro reply ⟨⟩
  exact answered.reply

/-- A thread gives its slot back. -/
theorem SystemInv.release {cfg : Config Pt Svc} {s : System Pt Svc T} {X : Traffic}
    (inv : SystemInv cfg (s, X)) {t : T} {idx : ℕ} {msg : MailboxMsg} {reply : Reply}
    (received : s.ns.threads t = .received idx msg reply) :
    SystemInv cfg ({ s with
      ns := {
        emptySlots := setQueueSlotEmpty cfg s.ns.emptySlots idx
        isWoken := clearQueueSlotWoken cfg s.ns.isWoken idx
        threads := Function.update s.ns.threads t .idle } }, X.release (some idx)) := by
  have sent : (s.ns.threads t).Sent idx msg := .inr (.inr ⟨reply, received⟩)
  have idx_lt := inv.ns.slot_lt t idx sent.slot
  obtain ⟨n, w, answered⟩ := inv.answered sent fun impossible ↦ by
    rw [received] at impossible
    cases impossible
  have none := answered.noSignal (by rw [received]; simp)
  simp only [System.NoSignal, System.signals, Prod.mk.injEq] at none
  rw [clearQueueSlotWoken, if_pos idx_lt]
  have not_sent : ∀ k msg', ¬Thread.idle.Sent k msg' := by
    intro k msg' sent
    rcases sent with impossible | impossible | ⟨_, impossible⟩ <;> cases impossible
  refine ⟨inv.slots, inv.ns.release sent.slot, inv.loop, fun k k_lt ↦ ?_, fun k beyond ↦ ?_,
    inv.unfinished⟩
  · by_cases k_eq : k = idx
    · subst k_eq
      refine .free ⟨fun u msg' sent' ↦ ?_, ?_, ?_, Function.update_self .., Function.update_self ..,
        ⟨answered.unused.empty, answered.unused.inUse⟩⟩
      · by_cases u_eq : u = t
        · simp only [u_eq, Function.update_self] at sent'
          exact not_sent k msg' sent'
        · simp only [Function.update_of_ne u_eq] at sent'
          exact u_eq (inv.ns.owner sent' sent.slot)
      · rw [← Bool.not_eq_true]
        intro pends
        have answering := (answered.passed pends).2
        rw [none.1] at answering
        cases answering
      · simp only [System.NoSignal, System.signals, Function.update_self, Prod.mk.injEq, and_true]
        exact ⟨none.1, none.2.1⟩
    · refine (inv.phase k k_lt).congr (.of_record .rfl (.of_eq ?_ rfl .rfl) ?_ ?_ ?_ rfl)
      · simp only [System.signals, Function.update_of_ne k_eq]
      · exact sent_setThread (not_sent_of_slot sent.slot k_eq) (not_sent k)
      · exact Function.update_of_ne k_eq ..
      · exact Function.update_of_ne k_eq ..
  · have k_ne : k ≠ idx := by omega
    exact (Function.update_of_ne k_ne ..).trans (inv.beyond k beyond)

/-- Every step of the non-secure side. -/
theorem SystemInv.nsStep {cfg : Config Pt Svc} {s s' : System Pt Svc T} {X : Traffic}
    {a : NsAction T} {released : Option ℕ} (inv : SystemInv cfg (s, X))
    (run : Mailbox.nsStep cfg s a = some (s', released)) :
      SystemInv cfg (s', X.release released) := by
  cases a with
  | acquire t call clientId =>
      simp only [Mailbox.nsStep] at run
      split at run
      · next idle sends acquired =>
          cases run
          exact inv.acquire idle acquired (ClientCall.posted sends)
      · cases run
  | send t =>
      simp only [Mailbox.nsStep] at run
      split at run
      · next filling =>
          cases run
          exact inv.send filling
      · cases run
  | wakeReplyOwner =>
      cases run
      exact inv.wake
  | waitReplySignal t =>
      simp only [Mailbox.nsStep] at run
      split at run
      · next waiting =>
          split at run
          · next woken =>
              cases run
              exact inv.signal waiting woken.1 woken.2
          · cases run
      · cases run
  | rxClientReply t =>
      simp only [Mailbox.nsStep] at run
      split at run
      · next signalled =>
          cases run
          exact inv.receive signalled
      · cases run
  | setQueueSlotEmpty t =>
      simp only [Mailbox.nsStep] at run
      split at run
      · next received =>
          cases run
          exact inv.release received
      · cases run

end TrustedFirmwareM.Mailbox
