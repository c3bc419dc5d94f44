import TrustedFirmwareM.Mailbox.Robustness

/-!
# The non-secure side of the mailbox

Threads of the non-secure core share the slots.  A thread that makes a client call acquires an empty
slot, places its message there and waits until the interrupt handler tells it that the slot was
replied to; then it copies the reply and gives the slot back.  The shared memory changes in no other
way.

The threads, the interrupt handler and the secure side take their steps in any order.  A waiting
thread may look at its flag at any time, so that nothing depends on how the operating system wakes
it.
-/

namespace TrustedFirmwareM.Mailbox

open Spm

variable {Pt Svc T : Type}

/-! ## Client calls -/

/-- A call of the client interface by a non-secure thread. -/
inductive ClientCall
  /-- `psa_framework_version`. -/
  | psaFrameworkVersion
  /-- `psa_version`. -/
  | psaVersion (sid : Word)
  /-- `psa_connect`. -/
  | psaConnect (sid version : Word)
  /-- `psa_call`. -/
  | psaCall (params : CallParams)
  /-- `psa_close`. -/
  | psaClose (handle : Word)

/-- The request that a client call sends.  `psa_call` refuses too many vectors by itself. -/
def ClientCall.request : ClientCall → Option Request
  | .psaFrameworkVersion => some .frameworkVersion
  | .psaVersion sid => some (.version sid)
  | .psaConnect sid version => some (.connect sid version)
  | .psaCall params =>
      if psaMaxIovec < params.inLen.toNat ∨ psaMaxIovec < params.outLen.toNat ∨
          psaMaxIovec < params.inLen.toNat + params.outLen.toNat then none
      else some (.call params)
  | .psaClose handle => some (.close handle)

/-! ## State -/

/-- How far a thread is in `tfm_ns_mailbox_client_call`. -/
inductive Thread
  /-- Outside. -/
  | idle
  /-- It has acquired a slot, and is about to send a message. -/
  | filling (idx : ℕ) (msg : MailboxMsg)
  /-- It has sent a message and waits for the reply. -/
  | waiting (idx : ℕ) (msg : MailboxMsg)
  /-- It has seen the reply signal. -/
  | signalled (idx : ℕ) (msg : MailboxMsg)
  /-- It has copied the reply, and is about to give the slot back. -/
  | received (idx : ℕ) (msg : MailboxMsg) (reply : Reply)

/-- The slot of a thread. -/
def Thread.slot : Thread → Option ℕ
  | .idle => none
  | .filling idx _ | .waiting idx _ | .signalled idx _ | .received idx _ _ => some idx

/-- A thread waits for the reply to the message in a slot. -/
def Thread.waitsFor (idx : ℕ) : Thread → Bool
  | .waiting i _ => i == idx
  | _ => false

theorem Thread.waitsFor_iff {thread : Thread} {idx : ℕ} :
    thread.waitsFor idx = true ↔ ∃ msg, thread = .waiting idx msg := by
  cases thread with
  | waiting i msg => simp [waitsFor]
  | _ => simp [waitsFor]

/-- A thread has sent a message in a slot, which it has not given back yet. -/
def Thread.Sent (thread : Thread) (idx : ℕ) (msg : MailboxMsg) : Prop :=
  thread = .waiting idx msg ∨ thread = .signalled idx msg ∨
    ∃ reply, thread = .received idx msg reply

/-- The non-secure side of the mailbox. -/
structure Ns (T : Type) where
  /-- Slots that are not in use, `empty_slots`. -/
  emptySlots : Word
  /-- The owner of a slot should be woken up, `is_woken`. -/
  isWoken : ℕ → Bool
  /-- The threads. -/
  threads : T → Thread

/-- Both sides of the mailbox. -/
structure System (Pt Svc T : Type) where
  /-- The secure side, and the shared memory. -/
  spe : Spe Pt Svc
  /-- The non-secure side. -/
  ns : Ns T

/-- Replace the shared memory. -/
def System.setShared (s : System Pt Svc T) (shared : Shared) : System Pt Svc T :=
  { s with spe := { s.spe with shared := shared } }

/-! ## Steps of the non-secure side -/

/-- `acquire_empty_slot`: the slot and the empty slots afterwards. -/
def acquireEmptySlot (cfg : Config Pt Svc) (emptySlots : Word) : Option (ℕ × Word) :=
  if emptySlots = 0 then none
  else
    ((List.range cfg.nsSlotCount).find? fun idx ↦ emptySlots &&& slotBit idx ≠ 0).map fun idx ↦
      (idx, emptySlots &&& ~~~slotBit idx)

/-- `mailbox_tx_client_req` after a slot was acquired: the message is placed there and the slot is
set pending. -/
def mailboxTxClientReq (cfg : Config Pt Svc) (shared : Shared) (idx : ℕ) (msg : MailboxMsg) :
    Shared :=
  { shared with
    slots := Function.update shared.slots idx { shared.slots idx with msg := msg }
    pendSlots :=
      if idx < cfg.nsSlotCount then shared.pendSlots ||| slotBit idx else shared.pendSlots }

/-- `tfm_ns_mailbox_wake_reply_owner_isr`. -/
def tfmNsMailboxWakeReplyOwnerIsr (cfg : Config Pt Svc) (s : System Pt Svc T) : System Pt Svc T :=
  let repliedStatus := s.spe.shared.repliedSlots
  let s := s.setShared { s.spe.shared with repliedSlots := 0 }
  { s with ns := { s.ns with
    isWoken := fun idx ↦
      if idx < cfg.nsSlotCount ∧ repliedStatus &&& slotBit idx ≠ 0 then true
      else s.ns.isWoken idx } }

/-- `clear_queue_slot_woken`. -/
def clearQueueSlotWoken (cfg : Config Pt Svc) (isWoken : ℕ → Bool) (idx : ℕ) : ℕ → Bool :=
  if idx < cfg.nsSlotCount then Function.update isWoken idx false else isWoken

/-- `set_queue_slot_empty`. -/
def setQueueSlotEmpty (cfg : Config Pt Svc) (emptySlots : Word) (idx : ℕ) : Word :=
  if idx < cfg.nsSlotCount then emptySlots ||| slotBit idx else emptySlots

variable [DecidableEq T]

/-- Move a thread. -/
def Ns.setThread (ns : Ns T) (t : T) (thread : Thread) : Ns T :=
  { ns with threads := Function.update ns.threads t thread }

/-- One step of the non-secure side. -/
inductive NsAction (T : Type)
  /-- A thread makes a client call and acquires a slot. -/
  | acquire (t : T) (call : ClientCall) (clientId : ℤ)
  /-- A thread sends its message. -/
  | send (t : T)
  /-- The interrupt handler runs. -/
  | wakeReplyOwner
  /-- A thread sees the reply signal, in `mailbox_wait_reply_signal`. -/
  | waitReplySignal (t : T)
  /-- A thread copies the reply, in `mailbox_rx_client_reply`. -/
  | rxClientReply (t : T)
  /-- A thread gives its slot back, in `mailbox_rx_client_reply`. -/
  | setQueueSlotEmpty (t : T)

/-- One step of the non-secure side, with the slot that is given back.  Without `TFM_NS_MANAGE_NSID`
all clients share one identifier. -/
def nsStep (cfg : Config Pt Svc) (s : System Pt Svc T) :
    NsAction T → Option (System Pt Svc T × Option ℕ)
  | .acquire t call clientId =>
      match s.ns.threads t, call.request, acquireEmptySlot cfg s.ns.emptySlots with
      | .idle, some request, some (idx, emptySlots) =>
          let msg : MailboxMsg := ⟨request, if cfg.manageNsid then clientId else -1⟩
          some ({ s with
            ns := { s.ns with emptySlots := emptySlots }.setThread t (.filling idx msg) }, none)
      | _, _, _ => none
  | .send t =>
      match s.ns.threads t with
      | .filling idx msg =>
          let s := s.setShared (mailboxTxClientReq cfg s.spe.shared idx msg)
          some ({ s with ns := s.ns.setThread t (.waiting idx msg) }, none)
      | _ => none
  | .wakeReplyOwner => some (tfmNsMailboxWakeReplyOwnerIsr cfg s, none)
  | .waitReplySignal t =>
      match s.ns.threads t with
      | .waiting idx msg =>
          if idx < cfg.nsSlotCount ∧ s.ns.isWoken idx = true then
            some ({ s with
              ns := { s.ns with isWoken := clearQueueSlotWoken cfg s.ns.isWoken idx }.setThread t
                (.signalled idx msg) }, none)
          else none
      | _ => none
  | .rxClientReply t =>
      match s.ns.threads t with
      | .signalled idx msg =>
          let reply := (s.spe.shared.slots idx).reply
          some ({ s with ns := s.ns.setThread t (.received idx msg reply) }, none)
      | _ => none
  | .setQueueSlotEmpty t =>
      match s.ns.threads t with
      | .received idx _ _ =>
          some ({ s with
            ns := {
              emptySlots := setQueueSlotEmpty cfg s.ns.emptySlots idx
              isWoken := clearQueueSlotWoken cfg s.ns.isWoken idx
              threads := Function.update s.ns.threads t .idle } }, some idx)
      | _ => none

/-! ## Traffic -/

/-- What has been sent and replied. -/
structure Traffic where
  /-- The journal of the secure side. -/
  journal : Journal
  /-- Number of the request that the secure side took from a slot for its present owner. -/
  number : ℕ → Option ℕ
  /-- The replies written to a slot since it was last given back. -/
  received : ℕ → List Written

/-- Enter a written reply. -/
def Traffic.write (X : Traffic) : Option Written → Traffic
  | some w => { X with received := Function.update X.received w.slot (X.received w.slot ++ [w]) }
  | none => X

/-- Enter that a slot was given back. -/
def Traffic.release (X : Traffic) : Option ℕ → Traffic
  | some idx => { X with
      number := Function.update X.number idx none
      received := Function.update X.received idx [] }
  | none => X

variable [DecidableEq Pt]

/-- Enter one step of the secure side. -/
def Traffic.observe (cfg : Config Pt Svc) (s s' : Spe Pt Svc) (X : Traffic) (event : Event) :
    Traffic :=
  let X' := { X with journal := X.journal.observe cfg s s' event }
  match event with
  | .taken idx _ _ _ written =>
      { X'.write written with number := Function.update X.number idx (some X.journal.count) }
  | .collected _ written => X'.write written
  | _ => X'

/-- One step of the system. -/
inductive SystemAction (Pt T : Type)
  /-- A step of the non-secure side. -/
  | ns (a : NsAction T)
  /-- A step of the secure side. -/
  | spe (a : Action Pt)

/-- A step of the system together with its traffic.  The non-secure side has steps of its own. -/
def systemStep (cfg : Config Pt Svc) (x : System Pt Svc T × Traffic) :
    SystemAction Pt T → Option (System Pt Svc T × Traffic)
  | .ns a => (nsStep cfg x.1 a).map fun (s, released) ↦ (s, x.2.release released)
  | .spe (.ns _) => none
  | .spe a =>
      match step cfg x.1.spe a with
      | .ok (spe, event) => some ({ x.1 with spe := spe }, x.2.observe cfg x.1.spe spe event)
      | .error _ => none

/-- The system after `tfm_ns_mailbox_init` and `tfm_mailbox_init`. -/
def initialSystem (cfg : Config Pt Svc) (spm : State Pt Svc) (slots : ℕ → NsSlot) :
    System Pt Svc T where
  spe := initialSpe cfg spm ⟨0, 0, slots⟩
  ns := ⟨BitVec.ofNat 32 (2 ^ cfg.nsSlotCount - 1), fun _ ↦ false, fun _ ↦ .idle⟩

/-- States reached by runs whose steps satisfy a condition. -/
def SystemReached (cfg : Config Pt Svc) (guard : System Pt Svc T → SystemAction Pt T → Prop)
    (x : System Pt Svc T × Traffic) : Prop :=
  ∃ memory behind slots, Run.Reaches (systemStep cfg) (fun x ↦ guard x.1)
    (initialSystem cfg (initialState cfg.platform memory behind) slots,
      ⟨.empty, fun _ ↦ none, fun _ ↦ []⟩) x

/-! ## The property -/

/-- The request in a slot is not lost: it is pending, or under way at the manager. -/
def Awaited (cfg : Config Pt Svc) (x : System Pt Svc T × Traffic) (k : ℕ) : Prop :=
  x.2.number k = none ∧ x.1.spe.shared.pendSlots.getLsbD k = true ∨
    ∃ n c, x.2.number k = some n ∧ x.1.spe.spm.UnderWay cfg.agent c ∧
      x.2.journal.onChunk c = some n

/-- A reply is the one to a request, which asked for a message in a slot. -/
def Answers (J : Journal) (k : ℕ) (msg : MailboxMsg) (n : ℕ) (w : Written) : Prop :=
  J.slot n = k ∧ J.asked n = msg ∧
    ∃ r, J.result n = some r ∧ w.returnVal = r.value ∧ w.outVecLen = r.outVecLen

/-- The copy of a reply. -/
def Written.CopiedTo (w : Written) (reply : Reply) : Prop :=
  reply.returnVal = w.returnVal ∧ ∀ lens, w.outVecLen = some lens → reply.outVecLen = lens

/-- Requests and replies agree. -/
structure Agreement (cfg : Config Pt Svc) (x : System Pt Svc T × Traffic) : Prop where
  /-- No slot has two owners. -/
  exclusive : ∀ t u k, (x.1.ns.threads t).slot = some k → (x.1.ns.threads u).slot = some k → t = u
  /-- No reply is written to a slot without a request. -/
  unoccupied : ∀ k, (∀ t msg, ¬(x.1.ns.threads t).Sent k msg) → x.2.received k = []
  /-- A request in a slot has one reply, which is its own, or it waits for it. -/
  occupied : ∀ t k msg, (x.1.ns.threads t).Sent k msg →
    x.2.received k = [] ∧ Awaited cfg x k ∨
      ∃ n w, x.2.number k = some n ∧ x.2.received k = [w] ∧ Answers x.2.journal k msg n w
  /-- A thread leaves with that reply. -/
  received : ∀ t k msg reply, x.1.ns.threads t = .received k msg reply →
    ∃ w, x.2.received k = [w] ∧ w.CopiedTo reply

/-! ## The condition -/

/-- Nobody but the agent writes the vectors of the mailbox, other than by a reply to one of the
agent's messages. -/
def Isolated (cfg : Config Pt Svc) (s : State Pt Svc) (a : Spm.Action Pt) : Prop :=
  ∀ effect s', Spm.step cfg.platform s a = some (effect, s') →
    (∃ c status, effect = .replied c status ∧ (s.connections c).pClient = some cfg.agent) ∨
      ∀ k, k < cfg.numSlots → ∀ m, m < 64 →
        s'.memory (cfg.vectorsAddress k + BitVec.ofNat 32 m) =
          s.memory (cfg.vectorsAddress k + BitVec.ofNat 32 m)

omit [DecidableEq T] in
theorem isolated_iff (cfg : Config Pt Svc) (s : State Pt Svc) (a : Spm.Action Pt) :
    Isolated cfg s a ↔ ∀ next ∈ Spm.step cfg.platform s a,
      (∃ c ∈ next.1.repliedChunk, (s.connections c).pClient = some cfg.agent) ∨
        ∀ k, k < cfg.numSlots → ∀ m, m < 64 →
          next.2.memory (cfg.vectorsAddress k + BitVec.ofNat 32 m) =
            s.memory (cfg.vectorsAddress k + BitVec.ofNat 32 m) := by
  constructor
  · intro isolated next step_eq
    refine (isolated next.1 next.2 step_eq).imp_left ?_
    rintro ⟨c, status, effect, client⟩
    exact ⟨c, Spm.Effect.repliedChunk_eq_some.2 ⟨status, effect⟩, client⟩
  · intro isolated effect s' step_eq
    refine (isolated (effect, s') step_eq).imp_left ?_
    rintro ⟨c, replied, client⟩
    obtain ⟨status, effect_eq⟩ := Spm.Effect.repliedChunk_eq_some.1 replied
    exact ⟨c, status, effect_eq, client⟩

instance (cfg : Config Pt Svc) (s : State Pt Svc) (a : Spm.Action Pt) :
    Decidable (Isolated cfg s a) :=
  decidable_of_iff _ (isolated_iff cfg s a).symm

/-- Services present only messages that they hold, and do not write the agent's vectors. -/
def WellServed (cfg : Config Pt Svc) (s : System Pt Svc T) : SystemAction Pt T → Prop
  | .spe (.spm a) => Disciplined cfg.platform s.spe.spm a ∧ Isolated cfg s.spe.spm a
  | _ => True

instance [Fintype Pt] (cfg : Config Pt Svc) (s : System Pt Svc T) (a : SystemAction Pt T) :
    Decidable (WellServed cfg s a) :=
  match a with
  | .spe (.spm a) => inferInstanceAs (Decidable (Disciplined cfg.platform s.spe.spm a ∧
      Isolated cfg s.spe.spm a))
  | .ns _ | .spe (.ns _) | .spe .handleBegin | .spe .handleNext | .spe .handleEnd
  | .spe .collect => inferInstanceAs (Decidable True)

/-- Besides, a close request is for a connection other than the null handle, whose latest request
came from the same slot. -/
def Orderly (cfg : Config Pt Svc) (s : System Pt Svc T) (a : SystemAction Pt T) : Prop :=
  WellServed cfg s a ∧ (a = .spe .handleNext → ∀ loop, s.spe.loop = some loop →
    loop.idx < cfg.nsSlotCount → loop.pendSlots &&& slotBit loop.idx ≠ 0 →
    (copiedMsg cfg s.spe loop.idx).request ≠ .close 0 ∧ ClosesOwn cfg s.spe loop.idx)

/-- The step looks at the next slot. -/
def SystemAction.handlesNext : SystemAction Pt T → Bool
  | .spe .handleNext => true
  | _ => false

omit [DecidableEq T] [DecidableEq Pt] in
theorem SystemAction.handlesNext_iff {a : SystemAction Pt T} :
    a.handlesNext = true ↔ a = .spe .handleNext := by
  constructor
  · intro handles
    cases a with
    | ns a => cases handles
    | spe a => cases a <;> first | rfl | cases handles
  · rintro rfl
    rfl

omit [DecidableEq T] in
theorem orderly_iff (cfg : Config Pt Svc) (s : System Pt Svc T) (a : SystemAction Pt T) :
    Orderly cfg s a ↔ WellServed cfg s a ∧ (a.handlesNext = true → ∀ loop ∈ s.spe.loop,
      loop.idx < cfg.nsSlotCount → loop.pendSlots &&& slotBit loop.idx ≠ 0 →
      (copiedMsg cfg s.spe loop.idx).request.closes ≠ some 0 ∧ ClosesOwn cfg s.spe loop.idx) := by
  rw [Orderly, SystemAction.handlesNext_iff]
  simp only [Option.mem_def, ne_eq, Request.closes_eq_some]

instance [Fintype Pt] (cfg : Config Pt Svc) (s : System Pt Svc T) (a : SystemAction Pt T) :
    Decidable (Orderly cfg s a) :=
  decidable_of_iff _ (orderly_iff cfg s a).symm

end TrustedFirmwareM.Mailbox
