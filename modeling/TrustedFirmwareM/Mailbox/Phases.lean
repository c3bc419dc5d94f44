import TrustedFirmwareM.Mailbox.Ns

/-!
# The phases of a slot

A slot of the non-secure side is free, its message is pending, its request is under way at the
manager, or it is answered.  The phase is read off both sides: the thread that owns the slot, the
pending bit, the signal on its way back to the thread, and the record of the secure side.
-/

namespace TrustedFirmwareM.Mailbox

open Spm

variable {Pt Svc T : Type}

/-! ## Signals -/

/-- The loop over the pending slots has passed a slot that was pending. -/
def Spe.Passed (s : Spe Pt Svc) (k : ℕ) : Prop :=
  ∃ loop, s.loop = some loop ∧ loop.pendSlots.getLsbD k = true ∧ k < loop.idx

/-- The loop over the pending slots has answered a slot at once. -/
def Spe.answering (s : Spe Pt Svc) (k : ℕ) : Bool :=
  s.loop.any fun loop ↦ loop.replySlots.getLsbD k

/-- The three places of the reply signal of a slot. -/
def System.signals (s : System Pt Svc T) (k : ℕ) : Bool × Bool × Bool :=
  (s.spe.answering k, s.spe.shared.repliedSlots.getLsbD k, s.ns.isWoken k)

/-- No reply signal is on its way. -/
def System.NoSignal (s : System Pt Svc T) (k : ℕ) : Prop := s.signals k = (false, false, false)

/-- The reply signal is at one place. -/
def System.OneSignal (s : System Pt Svc T) (k : ℕ) : Prop :=
  s.signals k = (true, false, false) ∨ s.signals k = (false, true, false) ∨
    s.signals k = (false, false, true)

/-- The slot is pending. -/
def System.pends (s : System Pt Svc T) (k : ℕ) : Bool := s.spe.shared.pendSlots.getLsbD k

/-! ## Phases -/

/-- The message of a thread is one that the client interface sends. -/
structure Posted (cfg : Config Pt Svc) (msg : MailboxMsg) : Prop where
  /-- The call type is known. -/
  known : msg.request ≠ .unknown
  /-- There are not too many vectors. -/
  copied : ∀ params, msg.request = .call params → params.Copied
  /-- The client identifier is the one that the secure side uses. -/
  clientId : cfg.manageNsid = false → msg.clientId = -1

/-- The record of a slot is free on the secure side. -/
structure Unused (s : Spe Pt Svc) (k : ℕ) : Prop where
  /-- The record. -/
  empty : s.Empty k
  /-- The vectors. -/
  inUse : s.inUse k = false

/-- Nothing has been sent in a slot. -/
structure Free (s : System Pt Svc T) (X : Traffic) (k : ℕ) : Prop where
  /-- No thread waits. -/
  unsent : ∀ t msg, ¬(s.ns.threads t).Sent k msg
  /-- The slot is not pending. -/
  clear : s.pends k = false
  /-- There is no signal. -/
  signal : s.NoSignal k
  /-- There is no reply. -/
  received : X.received k = []
  /-- There is no request. -/
  number : X.number k = none
  /-- The secure side does not use its record. -/
  unused : Unused s.spe k

/-- The message of a slot is pending. -/
structure Pending (cfg : Config Pt Svc) (s : System Pt Svc T) (X : Traffic) (k : ℕ) (t : T)
    (msg : MailboxMsg) : Prop where
  /-- The thread waits. -/
  thread : s.ns.threads t = .waiting k msg
  /-- The message is one of the client interface. -/
  posted : Posted cfg msg
  /-- The agent will copy the message. -/
  copied : copiedMsg cfg s.spe k = msg
  /-- The slot is pending. -/
  pends : s.pends k = true
  /-- The agent has not looked at it. -/
  ahead : ¬s.spe.Passed k
  /-- There is no signal. -/
  signal : s.NoSignal k
  /-- There is no reply. -/
  received : X.received k = []
  /-- There is no request. -/
  number : X.number k = none
  /-- The secure side does not use its record. -/
  unused : Unused s.spe k

/-- A request waits for the reply to it at the manager. -/
structure Awaiting (cfg : Config Pt Svc) (s : Spe Pt Svc) (J : Journal) (k n c : ℕ) : Prop where
  /-- The request is under way. -/
  here : s.spm.UnderWay cfg.agent c
  /-- It is the request on the chunk. -/
  onChunk : J.onChunk c = some n
  /-- It comes from the slot. -/
  slot : J.slot n = k
  /-- The vectors are in use for a call. -/
  inUse : s.inUse k = decide (psaIpcCall ≤ (s.spm.connections c).msg.type)
  /-- The manager knows the vectors of a call. -/
  callerOutvec : psaIpcCall ≤ (s.spm.connections c).msg.type →
    (s.spm.connections c).callerOutvec = cfg.outVecAddress k
  /-- Vectors that the manager takes for empty are. -/
  emptyVec : psaIpcCall ≤ (s.spm.connections c).msg.type →
    ∀ i, (s.spm.connections c).msg.outSize i = 0 → s.outVecLen cfg k i = 0
  /-- Once the service has replied, the result is what the agent will collect. -/
  result : ∀ r, J.result n = some r → r.value = (s.spm.connections c).replyValue ∧
    r.outVecLen = if psaIpcCall ≤ (s.spm.connections c).msg.type then some (s.outVecLen cfg k)
      else none
  /-- A reply that waits is one of the service. -/
  waits : s.spm.ReplyWaits cfg.platform cfg.agent c → J.result n ≠ none

/-- The request of a slot is under way at the manager. -/
structure Served (cfg : Config Pt Svc) (s : System Pt Svc T) (X : Traffic) (k : ℕ) (t : T)
    (msg : MailboxMsg) (n c : ℕ) : Prop where
  /-- The thread waits. -/
  thread : s.ns.threads t = .waiting k msg
  /-- A slot that is still pending has been passed. -/
  passed : s.pends k = true → s.spe.Passed k
  /-- There is no signal. -/
  signal : s.NoSignal k
  /-- There is no reply. -/
  received : X.received k = []
  /-- The request. -/
  number : X.number k = some n
  /-- The request has been taken. -/
  taken : n < X.journal.count
  /-- The request asked for the message. -/
  asked : X.journal.asked n = msg
  /-- The request is under way. -/
  awaiting : Awaiting cfg s.spe X.journal k n c

/-- The request of a slot is answered. -/
structure Answered (s : System Pt Svc T) (X : Traffic) (k : ℕ) (t : T) (msg : MailboxMsg) (n : ℕ)
    (w : Written) : Prop where
  /-- The thread has not given the slot back. -/
  thread : (s.ns.threads t).Sent k msg
  /-- The signal is on its way while the thread waits. -/
  oneSignal : s.ns.threads t = .waiting k msg → s.OneSignal k
  /-- The signal has been used when the thread has seen it. -/
  noSignal : s.ns.threads t ≠ .waiting k msg → s.NoSignal k
  /-- A slot that is still pending was answered by the loop. -/
  passed : s.pends k = true → s.spe.Passed k ∧ s.spe.answering k = true
  /-- The reply. -/
  received : X.received k = [w]
  /-- The request. -/
  number : X.number k = some n
  /-- The request has been taken. -/
  taken : n < X.journal.count
  /-- The reply is the one to the request. -/
  answers : Answers X.journal k msg n w
  /-- The secure side does not use its record. -/
  unused : Unused s.spe k
  /-- The slot holds the reply. -/
  reply : w.CopiedTo (s.spe.shared.slots k).reply
  /-- The thread leaves with the reply. -/
  copied : ∀ reply, s.ns.threads t = .received k msg reply → w.CopiedTo reply

/-- The phase of a slot. -/
inductive Phase (cfg : Config Pt Svc) (s : System Pt Svc T) (X : Traffic) (k : ℕ) : Prop
  /-- Nothing has been sent. -/
  | free (free : Free s X k)
  /-- The message is pending. -/
  | pending {t : T} {msg : MailboxMsg} (pending : Pending cfg s X k t msg)
  /-- The request is under way. -/
  | served {t : T} {msg : MailboxMsg} {n c : ℕ} (served : Served cfg s X k t msg n c)
  /-- The request is answered. -/
  | answered {t : T} {msg : MailboxMsg} {n : ℕ} {w : Written}
      (answered : Answered s X k t msg n w)

/-! ## Frames -/

/-- The signals of a slot move on, and nothing else happens to it. -/
structure SignalFrame (s s' : System Pt Svc T) (k : ℕ) : Prop where
  /-- No signal appears. -/
  noSignal : s.NoSignal k → s'.NoSignal k
  /-- No signal is lost. -/
  oneSignal : s.OneSignal k → s'.OneSignal k
  /-- A slot does not become pending. -/
  clear : s.pends k = false → s'.pends k = false
  /-- A pending slot stays so until the agent looks at it. -/
  ahead : s.pends k = true → ¬s.spe.Passed k → s'.pends k = true ∧ ¬s'.spe.Passed k
  /-- A pending slot that was passed stays so, or is no longer pending. -/
  passed : (s.pends k = true → s.spe.Passed k) → s'.pends k = true → s'.spe.Passed k
  /-- So does one that was answered. -/
  answering : (s.pends k = true → s.spe.Passed k ∧ s.spe.answering k = true) →
    s'.pends k = true → s'.spe.Passed k ∧ s'.spe.answering k = true

/-- Nothing that the phase of a slot depends on changes. -/
structure SameSlot (cfg : Config Pt Svc) (x x' : System Pt Svc T × Traffic) (k : ℕ) : Prop where
  /-- The signals move on. -/
  signals : SignalFrame x.1 x'.1 k
  /-- The same threads wait. -/
  threads : ∀ t thread msg, thread.Sent k msg →
    (x'.1.ns.threads t = thread ↔ x.1.ns.threads t = thread)
  /-- The replies stay. -/
  received : x'.2.received k = x.2.received k
  /-- The request stays. -/
  number : x'.2.number k = x.2.number k
  /-- An unused record stays unused. -/
  unused : Unused x.1.spe k → Unused x'.1.spe k
  /-- The message stays. -/
  copied : copiedMsg cfg x'.1.spe k = copiedMsg cfg x.1.spe k
  /-- The reply stays. -/
  reply : (x'.1.spe.shared.slots k).reply = (x.1.spe.shared.slots k).reply
  /-- Requests stay taken. -/
  count : x.2.journal.count ≤ x'.2.journal.count
  /-- The messages of requests stay. -/
  asked : ∀ n, n < x.2.journal.count → x'.2.journal.asked n = x.2.journal.asked n
  /-- The slots of requests stay. -/
  slot : ∀ n, n < x.2.journal.count → x'.2.journal.slot n = x.2.journal.slot n
  /-- The result of an answered request stays. -/
  result : ∀ n r, x.2.number k = some n → n < x.2.journal.count → x.2.journal.slot n = k →
    Unused x.1.spe k → x.2.journal.result n = some r → x'.2.journal.result n = some r
  /-- A request under way stays so. -/
  awaiting : ∀ n c, n < x.2.journal.count → Awaiting cfg x.1.spe x.2.journal k n c →
    Awaiting cfg x'.1.spe x'.2.journal k n c

theorem Thread.Sent.of_waiting {thread : Thread} {k : ℕ} {msg : MailboxMsg}
    (waiting : thread = .waiting k msg) : thread.Sent k msg :=
  .inl waiting

theorem SameSlot.sent {cfg : Config Pt Svc} {x x' : System Pt Svc T × Traffic} {k : ℕ}
    (same : SameSlot cfg x x' k) (t : T) (msg : MailboxMsg) :
    (x'.1.ns.threads t).Sent k msg ↔ (x.1.ns.threads t).Sent k msg := by
  constructor
  · intro sent
    rw [(same.threads t _ msg sent).1 rfl]
    exact sent
  · intro sent
    rw [(same.threads t _ msg sent).2 rfl]
    exact sent

/-- The phase of a slot stays when nothing it depends on changes. -/
theorem Phase.congr {cfg : Config Pt Svc} {x x' : System Pt Svc T × Traffic} {k : ℕ}
    (phase : Phase cfg x.1 x.2 k) (same : SameSlot cfg x x' k) : Phase cfg x'.1 x'.2 k := by
  cases phase with
  | free free =>
      refine .free ⟨fun t msg sent ↦ free.unsent t msg ((same.sent t msg).1 sent),
        same.signals.clear free.clear, same.signals.noSignal free.signal,
        same.received.trans free.received, same.number.trans free.number, same.unused free.unused⟩
  | @pending t msg pending =>
      obtain ⟨pends, ahead⟩ := same.signals.ahead pending.pends pending.ahead
      exact .pending ⟨(same.threads t _ msg (.of_waiting rfl)).2 pending.thread, pending.posted,
        same.copied.trans pending.copied, pends, ahead, same.signals.noSignal pending.signal,
        same.received.trans pending.received, same.number.trans pending.number,
        same.unused pending.unused⟩
  | @served t msg n c served =>
      exact .served ⟨(same.threads t _ msg (.of_waiting rfl)).2 served.thread,
        same.signals.passed served.passed, same.signals.noSignal served.signal,
        same.received.trans served.received, same.number.trans served.number,
        lt_of_lt_of_le served.taken same.count, (same.asked n served.taken).trans served.asked,
        same.awaiting n c served.taken served.awaiting⟩
  | @answered t msg n w answered =>
      obtain ⟨slot, asked, r, result, value, lens⟩ := answered.answers
      have waiting := same.threads t _ msg (.of_waiting rfl)
      refine .answered ⟨(same.sent t msg).2 answered.thread, ?_, ?_,
        same.signals.answering answered.passed, same.received.trans answered.received,
        same.number.trans answered.number, lt_of_lt_of_le answered.taken same.count,
        ⟨(same.slot n answered.taken).trans slot, (same.asked n answered.taken).trans asked, r,
          same.result n r answered.number answered.taken slot answered.unused result, value, lens⟩,
        same.unused answered.unused, ?_, ?_⟩
      · intro thread
        exact same.signals.oneSignal (answered.oneSignal (waiting.1 thread))
      · intro thread
        exact same.signals.noSignal (answered.noSignal fun before ↦ thread (waiting.2 before))
      · rw [same.reply]
        exact answered.reply
      · intro reply thread
        exact answered.copied reply ((same.threads t _ msg (.inr (.inr ⟨reply, rfl⟩))).1 thread)

theorem SignalFrame.of_eq {s s' : System Pt Svc T} {k : ℕ} (signals : s'.signals k = s.signals k)
    (pends : s'.pends k = s.pends k) (passed : s'.spe.Passed k ↔ s.spe.Passed k) :
    SignalFrame s s' k := by
  have answering : s'.spe.answering k = s.spe.answering k := congrArg Prod.fst signals
  refine ⟨?_, ?_, ?_, ?_, ?_, ?_⟩
  · rw [System.NoSignal, System.NoSignal, signals]
    exact id
  · rw [System.OneSignal, System.OneSignal, signals]
    exact id
  · rw [pends]
    exact id
  · rw [pends, passed]
    exact fun pends ahead ↦ ⟨pends, ahead⟩
  · rw [pends, passed]
    exact id
  · rw [pends, passed, answering]
    exact id

/-- A request under way whose connection, vectors and entries stay. -/
theorem Awaiting.congr {cfg : Config Pt Svc} {s s' : Spe Pt Svc} {J J' : Journal} {k n c : ℕ}
    {effect : Effect} (awaiting : Awaiting cfg s J k n c)
    (frame : AgentFrame s.spm s'.spm cfg.agent effect c)
    (quiet : ∀ status, effect ≠ .replied c status) (inUse : s'.inUse k = s.inUse k)
    (vectors : ∀ m, m < 64 → s'.spm.memory (cfg.vectorsAddress k + BitVec.ofNat 32 m) =
      s.spm.memory (cfg.vectorsAddress k + BitVec.ofNat 32 m))
    (waits : s'.spm.ReplyWaits cfg.platform cfg.agent c →
      s.spm.ReplyWaits cfg.platform cfg.agent c)
    (onChunk : J'.onChunk c = J.onChunk c) (slot : J'.slot n = J.slot n)
    (result : J'.result n = J.result n) : Awaiting cfg s' J' k n c := by
  have same := frame.same awaiting.here
  have lens : s'.outVecLen cfg k = s.outVecLen cfg k := funext fun i ↦ vecLen_congr vectors i
  refine ⟨frame.underWay.2 awaiting.here, onChunk.trans awaiting.onChunk, slot.trans awaiting.slot,
    ?_, ?_, ?_, ?_, ?_⟩
  · rw [inUse, same.type]
    exact awaiting.inUse
  · rw [same.type, same.callerOutvec]
    exact awaiting.callerOutvec
  · rw [same.type, same.outSize, lens]
    exact awaiting.emptyVec
  · rw [result, same.type, frame.replyValue awaiting.here quiet, lens]
    exact awaiting.result
  · rw [result]
    exact fun waits' ↦ awaiting.waits (waits waits')

end TrustedFirmwareM.Mailbox
