import TrustedFirmwareM.Mailbox.Dispatch

/-!
# What the agent does in one step

Taking a pending slot, writing a reply and collecting a queued reply, described by what they leave
alone and by the slot that they write.
-/

namespace TrustedFirmwareM.Mailbox

open Spm

variable {Pt Svc : Type}

/-! ## Replies -/

/-- A sequence of steps stays within bounds if each of them does. -/
theorem bind_in_bounds {α β : Type} {x : Except Stop α} {f : α → Except Stop β}
    (first : x ≠ .error .outOfBounds) (then_ : ∀ a, f a ≠ .error .outOfBounds) :
    x >>= f ≠ .error .outOfBounds := by
  cases x with
  | error stop =>
      intro impossible
      cases impossible
      exact first rfl
  | ok a => exact then_ a

/-- A reply was written for the record of a slot, which is then free. -/
structure Replied (cfg : Config Pt Svc) (s : Spe Pt Svc) (idx : ℕ) (result : ℤ) (s' : Spe Pt Svc)
    (w : Written) : Prop where
  /-- The record is one of the queue. -/
  idx_lt : idx < cfg.numSlots
  /-- The reply goes to the non-secure slot of the record. -/
  slot : w.slot = (s.queue idx).nsSlotIdx
  /-- The reply carries the result. -/
  returnVal : w.returnVal = result
  /-- The reply carries the output vector lengths of the slot. -/
  outVecLen : w.outVecLen = if s.inUse idx then some (s.outVecLen cfg idx) else none
  /-- The manager stays. -/
  spm : s'.spm = s.spm
  /-- The record is cleared. -/
  queue : s'.queue = Function.update s.queue idx .zero
  /-- The record is free. -/
  emptySlots : s'.emptySlots = s.emptySlots ||| slotBit idx
  /-- The vectors are no longer in use. -/
  inUse : s'.inUse = Function.update s.inUse idx false
  /-- The loop stays. -/
  loop : s'.loop = s.loop
  /-- The pending slots stay. -/
  pendSlots : s'.shared.pendSlots = s.shared.pendSlots
  /-- The replied slots stay. -/
  repliedSlots : s'.shared.repliedSlots = s.shared.repliedSlots
  /-- Only the reply of the slot changes. -/
  slots : s'.shared.slots = Function.update s.shared.slots w.slot
    { s.shared.slots w.slot with
      reply := ⟨result, w.outVecLen.getD (s.shared.slots w.slot).reply.outVecLen⟩ }

theorem mailboxDirectReply_spec {cfg : Config Pt Svc} {s s' : Spe Pt Svc} {idx : ℕ} {result : ℤ}
    {w : Written} (run : mailboxDirectReply cfg s idx result = .ok (s', w)) :
    Replied cfg s idx result s' w := by
  rw [mailboxDirectReply] at run
  split at run
  · cases run
  next idx_lt =>
  rw [not_le] at idx_lt
  dsimp only at run
  split at run
  · cases run
  · rw [checkIndex, if_pos idx_lt] at run
    cases run
    refine ⟨idx_lt, rfl, rfl, rfl, ?_, ?_, ?_, ?_, ?_, ?_, ?_, ?_⟩ <;>
      simp only [mailboxCleanQueueSlot, setSpeQueueEmptyStatus, if_pos idx_lt]

theorem mailboxDirectReply_in_bounds (cfg : Config Pt Svc) (s : Spe Pt Svc) (idx : ℕ) (result : ℤ) :
    mailboxDirectReply cfg s idx result ≠ .error .outOfBounds := by
  rw [mailboxDirectReply]
  split
  · simp
  next idx_lt =>
  rw [not_le] at idx_lt
  dsimp only
  split
  · simp
  · rw [checkIndex, if_pos idx_lt]
    exact fun impossible ↦ by cases impossible

/-! ## Taking a slot -/

/-- The state in which the message of a slot is dispatched. -/
def takenState (cfg : Config Pt Svc) (s : Spe Pt Svc) (idx : ℕ) : Spe Pt Svc :=
  { s with
    emptySlots := s.emptySlots &&& ~~~slotBit idx
    queue := Function.update s.queue idx ⟨copiedMsg cfg s idx, idx, getSpeMailboxMsgHandle idx⟩ }

theorem takenState_records (cfg : Config Pt Svc) (s : Spe Pt Svc) {idx k : ℕ} (k_ne : k ≠ idx) :
    ((takenState cfg s idx).Empty k ↔ s.Empty k) ∧
      (takenState cfg s idx).queue k = s.queue k := by
  constructor
  · rw [Spe.Empty, Spe.Empty, takenState, getLsbD_and_not_slotBit]
    simp [k_ne]
  · exact Function.update_of_ne k_ne ..

theorem takenState_in_use {cfg : Config Pt Svc} {s : Spe Pt Svc} {idx : ℕ} :
    ¬(takenState cfg s idx).Empty idx := by
  rw [Spe.Empty, takenState, getLsbD_and_not_slotBit]
  simp

theorem takenState_queue_self {cfg : Config Pt Svc} {s : Spe Pt Svc} {idx : ℕ} :
    (takenState cfg s idx).queue idx =
      ⟨copiedMsg cfg s idx, idx, getSpeMailboxMsgHandle idx⟩ :=
  Function.update_self ..

variable [DecidableEq Pt]

/-- How the message of a slot is taken. -/
inductive Taken (cfg : Config Pt Svc) (s : Spe Pt Svc) (idx : ℕ) (replySlots : Word) :
    Spe Pt Svc → Word → Event → Prop
  /-- A message of an unknown type is dropped. -/
  | dropped (request : (copiedMsg cfg s idx).request = .unknown) :
      Taken cfg s idx replySlots (mailboxCleanQueueSlot cfg (takenState cfg s idx) idx) replySlots
        (.taken idx (copiedMsg cfg s idx) none none none)
  /-- A message waits for its reply. -/
  | waiting {d : Dispatched Pt Svc}
      (dispatches : Dispatches cfg (takenState cfg s idx) (copiedMsg cfg s idx) idx d)
      (answer : d.answer = none) :
      Taken cfg s idx replySlots d.state replySlots
        (.taken idx (copiedMsg cfg s idx) d.sent none none)
  /-- A message is answered. -/
  | answered {d : Dispatched Pt Svc} {psaRet : ℤ} {s' : Spe Pt Svc} {w : Written}
      (dispatches : Dispatches cfg (takenState cfg s idx) (copiedMsg cfg s idx) idx d)
      (answer : d.answer = some psaRet) (replied : Replied cfg d.state idx psaRet s' w) :
      Taken cfg s idx replySlots s' (replySlots ||| slotBit idx)
        (.taken idx (copiedMsg cfg s idx) d.sent (some psaRet) (some w))

theorem dispatchRequest_none {cfg : Config Pt Svc} {s : Spe Pt Svc} {msg : MailboxMsg} {idx : ℕ}
    (run : dispatchRequest cfg s msg idx = .ok none) : msg.request = .unknown := by
  rw [dispatchRequest] at run
  split at run
  · cases run
  · cases run
  · simp only [localCopyVects] at run
    split at run
    · cases run
    · rw [checkIndex] at run
      split at run
      · split at run
        · cases run
        · obtain ⟨_, -, impossible⟩ := map_eq_ok run
          cases impossible
      · cases run
  · split at run
    · cases run
    · obtain ⟨_, -, impossible⟩ := map_eq_ok run
      cases impossible
  · split at run
    · cases run
    · obtain ⟨_, -, impossible⟩ := map_eq_ok run
      cases impossible
  · assumption

theorem takeSlot_eq {cfg : Config Pt Svc} {s : Spe Pt Svc} {idx : ℕ} {replySlots : Word}
    (idx_lt : idx < cfg.numSlots) :
    takeSlot cfg s idx replySlots =
      tfmMailboxDispatch cfg (takenState cfg s idx) (copiedMsg cfg s idx) idx replySlots := by
  rw [takeSlot, checkIndex, if_pos idx_lt, clearSpeQueueEmptyStatus, if_pos idx_lt]
  rfl

theorem takeSlot_cases {cfg : Config Pt Svc} {s s' : Spe Pt Svc} {idx : ℕ}
    {replySlots replySlots' : Word} {event : Event} (idx_lt : idx < cfg.numSlots)
    (managed : Managed cfg s.spm)
    (run : takeSlot cfg s idx replySlots = .ok (s', replySlots', event)) :
    Taken cfg s idx replySlots s' replySlots' event := by
  rw [takeSlot_eq idx_lt, tfmMailboxDispatch] at run
  have managed' : Managed cfg (takenState cfg s idx).spm := managed
  generalize dispatch : dispatchRequest cfg (takenState cfg s idx) (copiedMsg cfg s idx) idx =
    result at run
  cases result with
  | error stop => cases run
  | ok option =>
      cases option with
      | none =>
          cases run
          exact .dropped (dispatchRequest_none dispatch)
      | some d =>
          have dispatches := dispatchRequest_spec idx_lt managed' dispatch
          simp only [bind, Except.bind] at run
          split at run
          · next answer =>
              cases run
              exact .waiting dispatches answer
          · next psaRet answer =>
              generalize reply : mailboxDirectReply cfg d.state idx psaRet = result at run
              cases result with
              | error stop => cases run
              | ok pair =>
                  cases run
                  exact .answered dispatches answer (mailboxDirectReply_spec reply)

theorem agentApi_in_bounds (cfg : Config Pt Svc) (s : Spe Pt Svc) (call : Api) :
    agentApi cfg s call ≠ .error .outOfBounds := by
  rw [agentApi]
  split
  · simp
  · cases call.run cfg.platform s.spm cfg.agent <;> simp [orRefused]

theorem dispatchCall_in_bounds (cfg : Config Pt Svc) (s : Spe Pt Svc) (call : Api) :
    some <$> dispatchCall cfg s call ≠ .error .outOfBounds := by
  rw [map_eq_pure_bind, dispatchCall]
  refine bind_in_bounds (bind_in_bounds (agentApi_in_bounds cfg s call) fun outcome ↦ ?_)
    fun d ↦ ?_
  · exact fun impossible ↦ by cases impossible
  · exact fun impossible ↦ by cases impossible

theorem dispatchRequest_in_bounds {cfg : Config Pt Svc} {s : Spe Pt Svc} {msg : MailboxMsg}
    {idx : ℕ} (idx_lt : idx < cfg.numSlots) :
    dispatchRequest cfg s msg idx ≠ .error .outOfBounds := by
  rw [dispatchRequest]
  split
  · simp
  · simp
  · refine bind_in_bounds ?_ fun copied ↦ ?_
    · rw [localCopyVects]
      split
      · simp
      · rw [checkIndex, if_pos idx_lt]
        exact fun impossible ↦ by cases impossible
    · split
      · simp
      · split
        · simp
        · exact dispatchCall_in_bounds _ _ _
  · split
    · simp
    · exact dispatchCall_in_bounds _ _ _
  · split
    · simp
    · exact dispatchCall_in_bounds _ _ _
  · simp

theorem takeSlot_in_bounds {cfg : Config Pt Svc} {s : Spe Pt Svc} {idx : ℕ} {replySlots : Word}
    (idx_lt : idx < cfg.numSlots) : takeSlot cfg s idx replySlots ≠ .error .outOfBounds := by
  rw [takeSlot_eq idx_lt, tfmMailboxDispatch]
  refine bind_in_bounds (dispatchRequest_in_bounds idx_lt) fun option ↦ ?_
  split
  · simp
  split
  · simp
  · refine bind_in_bounds (mailboxDirectReply_in_bounds cfg _ idx _) fun pair ↦ ?_
    exact fun impossible ↦ by cases impossible

theorem handleMsgNext_in_bounds (cfg : Config Pt Svc) (s : Spe Pt Svc) :
    handleMsgNext cfg s ≠ .error .outOfBounds := by
  rw [handleMsgNext]
  split
  · simp
  split
  · simp
  next idx_lt =>
  rw [not_le] at idx_lt
  split
  · simp
  · refine bind_in_bounds (takeSlot_in_bounds (lt_of_lt_of_le idx_lt cfg.nsSlotCount_le))
      fun triple ↦ ?_
    exact fun impossible ↦ by cases impossible

/-! ## Collecting a reply -/

/-- The queued reply on a chunk was collected: its request is no longer under way, and the result is
passed to the mailbox with the private data of the connection. -/
structure Collected (cfg : Config Pt Svc) (s : Spe Pt Svc) (c : ℕ) (written : Option Written)
    (s' : Spe Pt Svc) (spm : State Pt Svc) : Prop where
  /-- The agent is not in its loop. -/
  loop : s.loop = none
  /-- The manager is in order. -/
  managed : Managed cfg spm
  /-- The request was under way. -/
  before : s.spm.UnderWay cfg.agent c
  /-- The request is no longer under way. -/
  after : ¬spm.UnderWay cfg.agent c
  /-- No other request of the agent changes. -/
  others : ∀ d, d ≠ c → ∀ effect, AgentFrame s.spm spm cfg.agent effect d
  /-- Its reply waited. -/
  waited : s.spm.ReplyWaits cfg.platform cfg.agent c
  /-- No other reply waits. -/
  waits : ∀ d, spm.ReplyWaits cfg.platform cfg.agent d →
    s.spm.ReplyWaits cfg.platform cfg.agent d
  /-- The vectors stay. -/
  vectors : ∀ k, k < cfg.numSlots → ∀ n, n < 64 →
    spm.memory (cfg.vectorsAddress k + BitVec.ofNat 32 n) =
      s.spm.memory (cfg.vectorsAddress k + BitVec.ofNat 32 n)
  /-- The result is passed to the mailbox. -/
  reply : mailboxReply cfg { s with spm := spm } (s.spm.connections c).clientData
    (s.spm.connections c).replyValue = .ok (s', written)

theorem Msg.length_words (msg : Spm.Msg) : msg.words.length = 12 := rfl

theorem collectReply_cases {cfg : Config Pt Svc} {s s' : Spe Pt Svc} {event : Event}
    (managed : Managed cfg s.spm) (run : collectReply cfg s = .ok (s', event)) :
    ∃ c written spm, event = .collected c written ∧ Collected cfg s c written s' spm := by
  rw [collectReply] at run
  split at run
  · cases run
  next loop =>
  generalize api : agentApi cfg s (.rpcClientCallReply cfg.msgAddress) = result at run
  cases result with
  | error stop => cases run
  | ok outcome =>
      have moved := managed.api api cfg.agent_mailbox
      have managed' := moved.managed
      obtain ⟨api_run, -⟩ := agentApi_ok api
      obtain ⟨L, L', life, move⟩ := moved
      obtain ⟨c, effect, value⟩ := collect_result life cfg.agent_mailbox api_run
      rw [effect] at move
      obtain ⟨before, queued, after, others⟩ := move.of_collected life
      have waits : ∀ d, outcome.state.ReplyWaits cfg.platform cfg.agent d →
          s.spm.ReplyWaits cfg.platform cfg.agent d := by
        intro d waits
        by_cases d_eq : d = c
        · subst d_eq
          exact absurd ((life.move move).underWay_of_replyWaits cfg.agent_mailbox waits) after
        · rcases move.replyWaits life cfg.agent_mailbox (others d d_eq _) waits with
            waited | ⟨_, impossible⟩
          · exact waited
          · cases impossible
      simp only [bind, Except.bind, effect] at run
      generalize reply : mailboxReply cfg { s with spm := outcome.state }
        (s.spm.connections c).clientData outcome.result = result at run
      cases result with
      | error stop => cases run
      | ok pair =>
          cases run
          rw [value] at reply
          refine ⟨c, pair.2, outcome.state, rfl, loop, managed', before, after, others,
            (life.replyWaits_iff cfg.agent_mailbox).2 ⟨before.1, before.2.1, queued⟩, waits, ?_,
            reply⟩
          intro k k_lt n n_lt
          rcases rpcClientCallReply_memory api_run with memory | ⟨body, memory⟩
          · rw [memory]
          · rw [memory]
            refine storeWords_of_apart fun m m_lt ↦ ?_
            rw [Msg.length_words] at m_lt
            exact cfg.msg_apart k k_lt n m n_lt (by omega)

omit [DecidableEq Pt] in
theorem loadMsgHandle_of_record {cfg : Config Pt Svc} {s : Spe Pt Svc} {k : ℕ}
    (k_lt : k < cfg.numSlots) :
    loadMsgHandle cfg s (cfg.msgHandleAddress k) = (s.queue k).msgHandle := by
  have found : (List.range cfg.numSlots).find?
      (fun j ↦ cfg.msgHandleAddress j = cfg.msgHandleAddress k) = some k := by
    rw [List.find?_range_eq_some]
    refine ⟨by simp, List.mem_range.2 k_lt, fun j j_lt ↦ ?_⟩
    have ne : cfg.msgHandleAddress j ≠ cfg.msgHandleAddress k := fun same ↦
      absurd (cfg.msgHandleAddress_injective j k (by omega) k_lt same) (by omega)
    simpa using ne
  rw [loadMsgHandle, found]

theorem getSpeMailboxMsgIdx_handle {k : ℕ} (k_lt : k < 32) :
    getSpeMailboxMsgHandle k ≠ 0 ∧ getSpeMailboxMsgIdx (getSpeMailboxMsgHandle k) = k := by
  have value : (getSpeMailboxMsgHandle k).toNat = k + 1 := by
    rw [getSpeMailboxMsgHandle, BitVec.toNat_ofNat]
    omega
  constructor
  · intro zero
    rw [zero] at value
    simp at value
  · rw [getSpeMailboxMsgIdx]
    have minus : (getSpeMailboxMsgHandle k - 1).toNat = k := by
      rw [BitVec.toNat_sub, value]
      simp
      omega
    rw [minus]
    omega

omit [DecidableEq Pt] in
/-- A reply for a record in use whose message handle is its own is written for that record. -/
theorem mailboxReply_of_record {cfg : Config Pt Svc} {s s' : Spe Pt Svc} {k : ℕ} {ret : ℤ}
    {written : Option Written} (k_lt : k < cfg.numSlots) (in_use : ¬s.Empty k)
    (handle : (s.queue k).msgHandle = getSpeMailboxMsgHandle k)
    (run : mailboxReply cfg s (cfg.msgHandleAddress k) ret = .ok (s', written)) :
    ∃ s₁ w, written = some w ∧ Replied cfg s k ret s₁ w ∧
      s' = { s₁ with shared := { s₁.shared with
        repliedSlots := s₁.shared.repliedSlots ||| slotBit k } } := by
  have k_lt' : k < 32 := lt_of_lt_of_le k_lt cfg.numSlots_le
  obtain ⟨not_null, idx⟩ := getSpeMailboxMsgIdx_handle k_lt'
  rw [mailboxReply, if_neg (cfg.msgHandleAddress_ne_zero k k_lt), loadMsgHandle_of_record k_lt,
    handle, tfmMailboxReplyMsg] at run
  simp only [if_neg not_null, idx] at run
  have not_empty : getSpeQueueEmptyStatus cfg s k = false := by
    rw [Spe.Empty, Bool.not_eq_true] at in_use
    simp [getSpeQueueEmptyStatus, k_lt, (and_slotBit_eq_zero k_lt').2 in_use]
  rw [if_neg (by simp [not_empty])] at run
  generalize reply : mailboxDirectReply cfg s k ret = result at run
  cases result with
  | error stop => cases run
  | ok pair =>
      cases run
      exact ⟨pair.1, pair.2, rfl, mailboxDirectReply_spec reply, rfl⟩

omit [DecidableEq Pt] in
theorem tfmMailboxReplyMsg_in_bounds (cfg : Config Pt Svc) (s : Spe Pt Svc) (handle : Word)
    (reply : ℤ) : tfmMailboxReplyMsg cfg s handle reply ≠ .error .outOfBounds := by
  rw [tfmMailboxReplyMsg]
  generalize (if handle = 0 then 0 else getSpeMailboxMsgIdx handle) = idx
  dsimp only
  split
  · simp
  · refine bind_in_bounds (mailboxDirectReply_in_bounds cfg s idx reply) fun pair ↦ ?_
    exact fun impossible ↦ by cases impossible

theorem collectReply_in_bounds (cfg : Config Pt Svc) (s : Spe Pt Svc) :
    collectReply cfg s ≠ .error .outOfBounds := by
  rw [collectReply]
  split
  · simp
  refine bind_in_bounds (agentApi_in_bounds cfg s _) fun outcome ↦ ?_
  split
  · refine bind_in_bounds (tfmMailboxReplyMsg_in_bounds cfg _ _ _) fun pair ↦ ?_
    exact fun impossible ↦ by cases impossible
  · simp

/-! ## Steps -/

/-- What a step does. -/
inductive Stepped (cfg : Config Pt Svc) (s : Spe Pt Svc) : Action Pt → Spe Pt Svc → Event → Prop
  /-- The non-secure core changes the shared memory. -/
  | ns (shared : Shared) : Stepped cfg s (.ns shared) { s with shared := shared } .quiet
  /-- No slot is pending. -/
  | idle (loop : s.loop = none) (pending : s.shared.pendSlots = 0) :
      Stepped cfg s .handleBegin s .quiet
  /-- The agent enters its loop. -/
  | entered (loop : s.loop = none) (pending : s.shared.pendSlots ≠ 0) :
      Stepped cfg s .handleBegin { s with loop := some ⟨0, s.shared.pendSlots, 0⟩ } .quiet
  /-- The loop passes a slot over. -/
  | skipped {loop : Loop} (loop_eq : s.loop = some loop) (idx_lt : loop.idx < cfg.nsSlotCount)
      (clear : loop.pendSlots &&& slotBit loop.idx = 0) :
      Stepped cfg s .handleNext { s with loop := some { loop with idx := loop.idx + 1 } } .quiet
  /-- The loop takes the message of a slot. -/
  | taken {loop : Loop} {s₁ : Spe Pt Svc} {replySlots : Word} {event : Event}
      (loop_eq : s.loop = some loop) (idx_lt : loop.idx < cfg.nsSlotCount)
      (pending : loop.pendSlots &&& slotBit loop.idx ≠ 0)
      (taken : Taken cfg s loop.idx loop.replySlots s₁ replySlots event) :
      Stepped cfg s .handleNext
        { s₁ with loop := some ⟨loop.idx + 1, loop.pendSlots, replySlots⟩ } event
  /-- The agent leaves its loop. -/
  | left {loop : Loop} (loop_eq : s.loop = some loop) (done : cfg.nsSlotCount ≤ loop.idx) :
      Stepped cfg s .handleEnd { s with
        loop := none
        shared := { s.shared with
          pendSlots := s.shared.pendSlots &&& ~~~loop.pendSlots
          repliedSlots := s.shared.repliedSlots ||| loop.replySlots } } .quiet
  /-- The agent collects a reply. -/
  | collected {c : ℕ} {written : Option Written} {s' : Spe Pt Svc} {spm : State Pt Svc}
      (collected : Collected cfg s c written s' spm) :
      Stepped cfg s .collect s' (.collected c written)
  /-- The manager makes a step. -/
  | spm {a : Spm.Action Pt} {effect : Effect} {spm : State Pt Svc}
      (is_foreign : foreign cfg a = true)
      (step_eq : Spm.step cfg.platform s.spm a = some (effect, spm)) :
      Stepped cfg s (.spm a) { s with spm := spm } (.spm effect)

theorem step_cases {cfg : Config Pt Svc} {s s' : Spe Pt Svc} {a : Action Pt} {event : Event}
    (managed : Managed cfg s.spm) (run : step cfg s a = .ok (s', event)) :
    Stepped cfg s a s' event := by
  cases a with
  | ns shared =>
      cases run
      exact .ns shared
  | handleBegin =>
      simp only [step, handleMsgBegin] at run
      split at run
      · cases run
      next loop =>
      split at run
      · next pending =>
          cases run
          exact .idle loop pending
      · next pending =>
          cases run
          exact .entered loop pending
  | handleNext =>
      simp only [step, handleMsgNext] at run
      split at run
      · cases run
      next loop loop_eq =>
      split at run
      · cases run
      next idx_lt =>
      rw [not_le] at idx_lt
      split at run
      · next clear =>
          cases run
          exact .skipped loop_eq idx_lt clear
      · next pending =>
          generalize take : takeSlot cfg s loop.idx loop.replySlots = result at run
          cases result with
          | error stop => cases run
          | ok triple =>
              cases run
              have idx_lt' := lt_of_lt_of_le idx_lt cfg.nsSlotCount_le
              exact .taken loop_eq idx_lt pending (takeSlot_cases idx_lt' managed take)
  | handleEnd =>
      simp only [step, handleMsgEnd] at run
      split at run
      · cases run
      next loop loop_eq =>
      split at run
      · cases run
      · next done =>
          cases run
          exact .left loop_eq (not_lt.1 done)
  | collect =>
      obtain ⟨c, written, spm, rfl, collected⟩ := collectReply_cases managed run
      exact .collected collected
  | spm a =>
      rw [step] at run
      split at run
      · next is_foreign =>
          generalize move : Spm.step cfg.platform s.spm a = result at run
          cases result with
          | none => cases run
          | some pair =>
              cases run
              exact .spm is_foreign move
      · cases run

/-- No step leaves the bounds of the queue. -/
theorem step_in_bounds (cfg : Config Pt Svc) (s : Spe Pt Svc) (a : Action Pt) :
    step cfg s a ≠ .error .outOfBounds := by
  cases a with
  | ns shared => simp [step]
  | handleBegin =>
      rw [step, handleMsgBegin]
      split
      · simp
      · split <;> simp
  | handleNext => exact handleMsgNext_in_bounds cfg s
  | handleEnd =>
      rw [step, handleMsgEnd]
      split
      · simp
      · split <;> simp
  | collect => exact collectReply_in_bounds cfg s
  | spm a =>
      rw [step]
      split
      · refine bind_in_bounds ?_ fun pair ↦ ?_
        · cases Spm.step cfg.platform s.spm a <;> simp [orRefused]
        · exact fun impossible ↦ by cases impossible
      · simp

end TrustedFirmwareM.Mailbox
