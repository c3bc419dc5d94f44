import TrustedFirmwareM.Lib.Run
import TrustedFirmwareM.Mailbox.Agent

/-!
# The mailbox against a hostile non-secure core

The non-secure core may change the shared memory between any two steps.  The slot records have a
status of their own, but the loop over the pending slots does not look at it: a slot that is
signalled again while its request is under way is simply taken again.  And closing a connection does
not enter the slot that asked for it, so the reply goes to the slot of an earlier request.
-/

namespace TrustedFirmwareM.Mailbox

open Spm

variable {Pt Svc : Type}

/-! ## The journal -/

/-- Result of a request: return value, and output vector lengths of a call. -/
structure Result where
  /-- Return value. -/
  value : ℤ
  /-- Output vector lengths. -/
  outVecLen : Option (Fin 4 → Word)

/-- What was asked for and what came of it.  Requests are numbered in the order in which the agent
takes them. -/
structure Journal where
  /-- Number of requests taken. -/
  count : ℕ
  /-- The message of each request. -/
  asked : ℕ → MailboxMsg
  /-- The slot that each request was taken from. -/
  slot : ℕ → ℕ
  /-- The latest request taken from a slot. -/
  latest : ℕ → Option ℕ
  /-- The latest request of the mailbox on a chunk. -/
  onChunk : ℕ → Option ℕ
  /-- Result of each request. -/
  result : ℕ → Option Result

/-- The journal before any request. -/
def Journal.empty : Journal where
  count := 0
  asked := fun _ ↦ ⟨.unknown, 0⟩
  slot := fun _ ↦ 0
  latest := fun _ ↦ none
  onChunk := fun _ ↦ none
  result := fun _ ↦ none

/-- The output vector lengths that a request is answered with at once. -/
def Request.outVecLen : Request → Option (Fin 4 → Word)
  | .call params => some params.outVecLen
  | _ => none

/-- Result of the request on a chunk, once its service has replied. -/
def serviceResult (s s' : State Pt Svc) (c : ℕ) : Result where
  value := (s'.connections c).replyValue
  outVecLen :=
    if psaIpcCall ≤ (s.connections c).msg.type then
      some fun i ↦ if (s.connections c).msg.outSize i = 0 then 0
        else (dropMapped (s.connections c)).outvecWritten i
    else none

variable [DecidableEq Pt]

/-- Enter one step in the journal. -/
def Journal.observe (cfg : Config Pt Svc) (s s' : Spe Pt Svc) (J : Journal) : Event → Journal
  | .taken idx msg sent answer _ =>
      { count := J.count + 1
        asked := Function.update J.asked J.count msg
        slot := Function.update J.slot J.count idx
        latest := Function.update J.latest idx (some J.count)
        onChunk := match sent with
          | some c => Function.update J.onChunk c (some J.count)
          | none => J.onChunk
        result := match answer with
          | some value =>
              Function.update J.result J.count (some ⟨value, msg.request.outVecLen⟩)
          | none => J.result }
  | .spm (.replied c _) =>
      if (s.spm.connections c).pClient = some cfg.agent then
        match J.onChunk c with
        | some n => { J with
            result := Function.update J.result n (some (serviceResult s.spm s'.spm c)) }
        | none => J
      else J
  | _ => J

/-- A step of the system together with its journal. -/
def journaledStep (cfg : Config Pt Svc) (x : Spe Pt Svc × Journal) (a : Action Pt) :
    Option (Spe Pt Svc × Journal) :=
  match step cfg x.1 a with
  | .ok (s', event) => some (s', x.2.observe cfg x.1 s' event)
  | .error _ => none

/-- States reached by runs whose steps satisfy a condition.  The non-secure core starts with any
contents of the shared memory. -/
def MailboxReached (cfg : Config Pt Svc) (guard : Spe Pt Svc × Journal → Action Pt → Prop)
    (x : Spe Pt Svc × Journal) : Prop :=
  ∃ memory behind shared, Run.Reaches (journaledStep cfg) guard
    (initialSpe cfg (initialState cfg.platform memory behind) shared, .empty) x

/-! ## The property -/

/-- The record and the vectors of a slot stay as they are. -/
structure Intact (cfg : Config Pt Svc) (s s' : Spe Pt Svc) (k : ℕ) : Prop where
  /-- The record. -/
  queue : s'.queue k = s.queue k
  /-- The use of the vectors. -/
  inUse : s'.inUse k = s.inUse k
  /-- The vectors. -/
  vectors : ∀ m, m < 64 → s'.spm.memory (cfg.vectorsAddress k + BitVec.ofNat 32 m) =
    s.spm.memory (cfg.vectorsAddress k + BitVec.ofNat 32 m)

/-- What is asked of one step. -/
structure Robust (cfg : Config Pt Svc) (x : Spe Pt Svc × Journal) (a : Action Pt) : Prop where
  /-- No slot record and no vectors outside the queue are accessed. -/
  in_bounds : step cfg x.1 a ≠ .error .outOfBounds
  /-- The agent overwrites neither the record nor the vectors of a request that stays under way. -/
  intact : ∀ s' event, step cfg x.1 a = .ok (s', event) → (∀ b, a ≠ .spm b) →
    ∀ c n, x.1.spm.UnderWay cfg.agent c → s'.spm.UnderWay cfg.agent c → x.2.onChunk c = some n →
    Intact cfg x.1 s' (x.2.slot n)
  /-- A collected result goes to the slot of its own request, which is the latest one there. -/
  own_slot : ∀ s' c w, step cfg x.1 a = .ok (s', .collected c (some w)) →
    ∃ n, x.2.onChunk c = some n ∧ w.slot = x.2.slot n ∧ x.2.latest w.slot = some n ∧
      w.returnVal = (x.1.spm.connections c).replyValue
  /-- An immediate answer goes to the slot of its own request. -/
  own_answer : ∀ s' idx msg sent answer w,
    step cfg x.1 a = .ok (s', .taken idx msg sent answer (some w)) →
    w.slot = idx ∧ answer = some w.returnVal

/-! ## The condition -/

/-- The close request of a slot is for a connection whose latest request came from the same slot. -/
def ClosesOwn (cfg : Config Pt Svc) (s : Spe Pt Svc) (idx : ℕ) : Prop :=
  ∀ handle clientId c s₀, (copiedMsg cfg s idx).request = .close handle →
    tfmMultiCoreHalClientIdTranslate cfg (copiedMsg cfg s idx).clientId = some clientId →
    isStaticHandle handle = false →
    spmGetIdleConnection cfg.platform s.spm cfg.agent handle clientId = .ok (c, s₀) →
    (s.spm.connections c).clientData = cfg.msgHandleAddress idx

/-- The handle that a request closes. -/
def Request.closes : Request → Option Word
  | .close handle => some handle
  | _ => none

omit [DecidableEq Pt] in
theorem Request.closes_eq_some {request : Request} {handle : Word} :
    request.closes = some handle ↔ request = .close handle := by
  cases request <;> simp [closes]

omit [DecidableEq Pt] in
theorem closesOwn_iff (cfg : Config Pt Svc) (s : Spe Pt Svc) (idx : ℕ) :
    ClosesOwn cfg s idx ↔ ∀ handle ∈ (copiedMsg cfg s idx).request.closes,
      ∀ clientId ∈ tfmMultiCoreHalClientIdTranslate cfg (copiedMsg cfg s idx).clientId,
        isStaticHandle handle = false →
        ∀ found ∈ (spmGetIdleConnection cfg.platform s.spm cfg.agent handle clientId).toOption,
          (s.spm.connections found.1).clientData = cfg.msgHandleAddress idx := by
  constructor
  · intro own handle request clientId translated static found idle
    cases result : spmGetIdleConnection cfg.platform s.spm cfg.agent handle clientId with
    | error e =>
        rw [result] at idle
        cases idle
    | ok both =>
        rw [result] at idle
        cases idle
        exact own handle clientId found.1 found.2
          (Request.closes_eq_some.1 request) translated static
          result
  · intro own handle clientId c s₀ request translated static idle
    refine own handle (Request.closes_eq_some.2 request) clientId translated static (c, s₀) ?_
    rw [idle]
    rfl

instance (cfg : Config Pt Svc) (s : Spe Pt Svc) (idx : ℕ) : Decidable (ClosesOwn cfg s idx) :=
  -- not by a search over all handles
  @decidable_of_iff _ _ (closesOwn_iff cfg s idx).symm (Option.decidableForallMem _)

/-- Services present only messages that they hold; a slot is taken only when its record is free, and
closes only a connection that it used last. -/
def Cautious (cfg : Config Pt Svc) (s : Spe Pt Svc) : Action Pt → Prop
  | .spm a => Disciplined cfg.platform s.spm a
  | .handleNext => ∀ loop, s.loop = some loop → loop.idx < cfg.nsSlotCount →
      loop.pendSlots &&& slotBit loop.idx ≠ 0 → s.Empty loop.idx ∧ ClosesOwn cfg s loop.idx
  | _ => True

instance [Fintype Pt] (cfg : Config Pt Svc) (s : Spe Pt Svc) (a : Action Pt) :
    Decidable (Cautious cfg s a) :=
  match a with
  | .spm a => inferInstanceAs (Decidable (Disciplined cfg.platform s.spm a))
  | .handleNext => inferInstanceAs (Decidable (∀ loop ∈ s.loop, loop.idx < cfg.nsSlotCount →
      loop.pendSlots &&& slotBit loop.idx ≠ 0 → s.Empty loop.idx ∧ ClosesOwn cfg s loop.idx))
  | .ns _ | .handleBegin | .handleEnd | .collect => inferInstanceAs (Decidable True)

/-! ## The invariant -/

/-- A request under way on a chunk is carried by the record of its slot. -/
structure Carried (cfg : Config Pt Svc) (s : Spe Pt Svc) (J : Journal) (c n : ℕ) : Prop where
  /-- The request was made on the chunk. -/
  onChunk : J.onChunk c = some n
  /-- The request has been taken. -/
  taken : n < J.count
  /-- The slot is one of the non-secure side. -/
  slot_lt : J.slot n < cfg.nsSlotCount
  /-- The request is the latest one of its slot. -/
  latest : J.latest (J.slot n) = some n
  /-- The private data leads back to the slot. -/
  data : (s.spm.connections c).clientData = cfg.msgHandleAddress (J.slot n)
  /-- The record is in use. -/
  in_use : ¬s.Empty (J.slot n)
  /-- The record has a message handle. -/
  handle : (s.queue (J.slot n)).msgHandle = getSpeMailboxMsgHandle (J.slot n)
  /-- The record stands for the same non-secure slot. -/
  ns : (s.queue (J.slot n)).nsSlotIdx = J.slot n

/-- The invariant of the slot records. -/
structure SlotInv (cfg : Config Pt Svc) (s : Spe Pt Svc) (J : Journal) : Prop where
  /-- The manager is in order. -/
  managed : Managed cfg s.spm
  /-- Every request under way is carried by the record of its slot. -/
  carried : ∀ c, s.spm.UnderWay cfg.agent c → ∃ n, Carried cfg s J c n
  /-- Different chunks carry different requests. -/
  distinct : ∀ c d, s.spm.UnderWay cfg.agent c → s.spm.UnderWay cfg.agent d →
    J.onChunk c = J.onChunk d → c = d

omit [DecidableEq Pt] in
/-- Requests under way are in different slots. -/
theorem SlotInv.slot_injective {cfg : Config Pt Svc} {s : Spe Pt Svc} {J : Journal}
    (inv : SlotInv cfg s J) {c d m n : ℕ} (c_here : s.spm.UnderWay cfg.agent c)
    (d_here : s.spm.UnderWay cfg.agent d) (c_carried : Carried cfg s J c m)
    (d_carried : Carried cfg s J d n) (same : J.slot m = J.slot n) : c = d := by
  have latest := c_carried.latest
  rw [same, d_carried.latest] at latest
  cases latest
  exact inv.distinct c d c_here d_here (c_carried.onChunk.trans d_carried.onChunk.symm)

omit [DecidableEq Pt] in
/-- The invariant depends on the requests under way, the records in use and the journal. -/
theorem SlotInv.congr {cfg : Config Pt Svc} {s s' : Spe Pt Svc} {J : Journal} {effect : Effect}
    (inv : SlotInv cfg s J) (managed : Managed cfg s'.spm)
    (frame : ∀ c, AgentFrame s.spm s'.spm cfg.agent effect c)
    (emptySlots : s'.emptySlots = s.emptySlots) (queue : s'.queue = s.queue) :
    SlotInv cfg s' J := by
  refine ⟨managed, fun c here' ↦ ?_, fun c d c_here' d_here' same ↦ ?_⟩
  · have here := (frame c).underWay.1 here'
    obtain ⟨n, carried⟩ := inv.carried c here
    refine ⟨n, carried.onChunk, carried.taken, carried.slot_lt, carried.latest, ?_, ?_, ?_, ?_⟩
    · rw [((frame c).same here).clientData]
      exact carried.data
    · rw [Spe.Empty, emptySlots]
      exact carried.in_use
    · rw [queue]
      exact carried.handle
    · rw [queue]
      exact carried.ns
  · exact inv.distinct c d ((frame c).underWay.1 c_here') ((frame d).underWay.1 d_here') same

/-- Taking the message of a slot with a free record. -/
theorem SlotInv.take {cfg : Config Pt Svc} {s s' : Spe Pt Svc} {J : Journal} {idx : ℕ}
    {msg : MailboxMsg} {sent : Option ℕ} {answer : Option ℤ} {written : Option Written}
    (inv : SlotInv cfg s J) (managed : Managed cfg s'.spm) (idx_lt : idx < cfg.nsSlotCount)
    (empty : s.Empty idx)
    (old : ∀ d, s'.spm.UnderWay cfg.agent d → sent ≠ some d → s.spm.UnderWay cfg.agent d ∧
      (s'.spm.connections d).clientData = (s.spm.connections d).clientData)
    (records : ∀ k, k ≠ idx → (s'.Empty k ↔ s.Empty k) ∧ s'.queue k = s.queue k)
    (new : ∀ c, sent = some c → (s'.spm.connections c).clientData = cfg.msgHandleAddress idx ∧
      ¬s'.Empty idx ∧ (s'.queue idx).msgHandle = getSpeMailboxMsgHandle idx ∧
      (s'.queue idx).nsSlotIdx = idx) :
    SlotInv cfg s' (J.observe cfg s s' (.taken idx msg sent answer written)) := by
  generalize J'_eq : J.observe cfg s s' (.taken idx msg sent answer written) = J'
  have count : J'.count = J.count + 1 := by rw [← J'_eq]; rfl
  have slot_new : J'.slot J.count = idx := by
    rw [← J'_eq]
    exact Function.update_self ..
  have slot_old : ∀ n, n < J.count → J'.slot n = J.slot n := by
    intro n n_lt
    rw [← J'_eq]
    exact Function.update_of_ne n_lt.ne ..
  have latest_new : J'.latest idx = some J.count := by
    rw [← J'_eq]
    exact Function.update_self ..
  have latest_old : ∀ k, k ≠ idx → J'.latest k = J.latest k := by
    intro k k_ne
    rw [← J'_eq]
    exact Function.update_of_ne k_ne ..
  have onChunk_new : ∀ c, sent = some c → J'.onChunk c = some J.count := by
    rintro c rfl
    rw [← J'_eq]
    exact Function.update_self ..
  have onChunk_old : ∀ d, sent ≠ some d → J'.onChunk d = J.onChunk d := by
    intro d other
    rw [← J'_eq]
    cases sent with
    | none => rfl
    | some c => exact Function.update_of_ne (fun same ↦ other (by rw [same])) ..
  refine ⟨managed, fun d here' ↦ ?_, fun c d c_here' d_here' same ↦ ?_⟩
  · by_cases is_new : sent = some d
    · obtain ⟨data, in_use, handle, ns⟩ := new d is_new
      refine ⟨J.count, onChunk_new d is_new, by omega, ?_, ?_, ?_, ?_, ?_, ?_⟩ <;> rw [slot_new]
      · exact idx_lt
      · exact latest_new
      · exact data
      · exact in_use
      · exact handle
      · exact ns
    · obtain ⟨here, data⟩ := old d here' is_new
      obtain ⟨n, carried⟩ := inv.carried d here
      have slot_ne : J.slot n ≠ idx := by
        intro same
        exact carried.in_use (by rw [same]; exact empty)
      obtain ⟨still_empty, queue⟩ := records (J.slot n) slot_ne
      have taken := carried.taken
      refine ⟨n, (onChunk_old d is_new).trans carried.onChunk, by omega, ?_, ?_, ?_, ?_, ?_, ?_⟩ <;>
        rw [slot_old n taken]
      · exact carried.slot_lt
      · rw [latest_old _ slot_ne]
        exact carried.latest
      · rw [data]
        exact carried.data
      · rw [still_empty]
        exact carried.in_use
      · rw [queue]
        exact carried.handle
      · rw [queue]
        exact carried.ns
  · -- a request taken earlier has a smaller number
    have older : ∀ e, s'.spm.UnderWay cfg.agent e → sent ≠ some e →
        J'.onChunk e ≠ some J.count := by
      intro e e_here' e_old
      obtain ⟨n, carried⟩ := inv.carried e (old e e_here' e_old).1
      rw [onChunk_old e e_old, carried.onChunk]
      have taken := carried.taken
      simp only [ne_eq, Option.some.injEq]
      omega
    by_cases c_new : sent = some c
    · by_cases d_new : sent = some d
      · rw [c_new] at d_new
        exact Option.some.inj d_new
      · rw [onChunk_new c c_new] at same
        exact absurd same.symm (older d d_here' d_new)
    · by_cases d_new : sent = some d
      · rw [onChunk_new d d_new] at same
        exact absurd same (older c c_here' c_new)
      · rw [onChunk_old c c_new, onChunk_old d d_new] at same
        exact inv.distinct c d (old c c_here' c_new).1 (old d d_here' d_new).1 same

omit [DecidableEq Pt] in
/-- The private data of a new request leads back to the slot that it was taken from. -/
theorem NewRequest.clientData {cfg : Config Pt Svc} {s : Spe Pt Svc} {s' : State Pt Svc} {idx c : ℕ}
    (new : NewRequest cfg s.spm s' (copiedMsg cfg s idx) idx c) (own : ClosesOwn cfg s idx) :
    (s'.connections c).clientData = cfg.msgHandleAddress idx := by
  rcases new.leadsBack with data | ⟨handle, clientId, s₀, request, translate, dynamic, ok, data⟩
  · exact data
  · rw [data]
    exact own handle clientId c s₀ request translate dynamic ok

omit [DecidableEq Pt] in
/-- The requests that are under way after a dispatch. -/
theorem Dispatches.old {cfg : Config Pt Svc} {s : Spe Pt Svc} {msg : MailboxMsg} {idx : ℕ}
    {d : Dispatched Pt Svc} (dispatches : Dispatches cfg s msg idx d) :
    ∀ e, d.state.spm.UnderWay cfg.agent e → d.sent ≠ some e → s.spm.UnderWay cfg.agent e ∧
      (d.state.spm.connections e).clientData = (s.spm.connections e).clientData := by
  intro e here' other
  have frame : AgentFrame s.spm d.state.spm cfg.agent .quiet e := by
    rcases dispatches.cases with ⟨-, -, frame⟩ | ⟨c, sent, -, new⟩
    · exact frame e .quiet
    · refine new.others e (fun same ↦ other ?_) .quiet
      rw [sent, same]
  have here := frame.underWay.1 here'
  exact ⟨here, (frame.same here).clientData⟩

omit [DecidableEq Pt] in
theorem Replied.records {cfg : Config Pt Svc} {s s' : Spe Pt Svc} {idx k : ℕ} {result : ℤ}
    {w : Written} (replied : Replied cfg s idx result s' w) (k_ne : k ≠ idx) :
    (s'.Empty k ↔ s.Empty k) ∧ s'.queue k = s.queue k := by
  constructor
  · rw [Spe.Empty, Spe.Empty, replied.emptySlots,
      getLsbD_or_slotBit (lt_of_lt_of_le replied.idx_lt cfg.numSlots_le)]
    simp [k_ne]
  · rw [replied.queue, Function.update_of_ne k_ne]

/-- Every way of taking a message from a slot with a free record. -/
theorem SlotInv.taken {cfg : Config Pt Svc} {s s' : Spe Pt Svc} {J : Journal} {idx : ℕ}
    {replySlots replySlots' : Word} {event : Event} (inv : SlotInv cfg s J)
    (idx_lt : idx < cfg.nsSlotCount) (empty : s.Empty idx) (own : ClosesOwn cfg s idx)
    (taken : Taken cfg s idx replySlots s' replySlots' event) :
    SlotInv cfg s' (J.observe cfg s s' event) := by
  have idx_lt' := lt_of_lt_of_le idx_lt cfg.nsSlotCount_le
  have idx_lt'' := lt_of_lt_of_le idx_lt' cfg.numSlots_le
  cases taken with
  | dropped request =>
      refine inv.take ?_ idx_lt empty ?_ ?_ (fun c impossible ↦ by cases impossible)
      · rw [mailboxCleanQueueSlot, if_pos idx_lt', setSpeQueueEmptyStatus, if_pos idx_lt']
        exact inv.managed
      · intro d here _
        rw [mailboxCleanQueueSlot, if_pos idx_lt', setSpeQueueEmptyStatus, if_pos idx_lt'] at here ⊢
        exact ⟨here, rfl⟩
      · intro k k_ne
        obtain ⟨empty_iff, queue⟩ := takenState_records cfg s k_ne
        rw [mailboxCleanQueueSlot, if_pos idx_lt', setSpeQueueEmptyStatus, if_pos idx_lt']
        refine ⟨?_, ?_⟩
        · rw [← empty_iff, Spe.Empty, getLsbD_or_slotBit idx_lt'']
          simp [k_ne, Spe.Empty]
        · rw [← queue]
          exact Function.update_of_ne k_ne ..
  | @waiting d dispatches answer =>
      refine inv.take dispatches.managed idx_lt empty dispatches.old ?_ ?_
      · intro k k_ne
        rw [Spe.Empty, dispatches.emptySlots, dispatches.queue]
        exact takenState_records cfg _ k_ne
      · intro c sent
        rcases dispatches.cases with ⟨not_sent, -⟩ | ⟨c', sent', -, new⟩
        · rw [sent] at not_sent
          cases not_sent
        · rw [sent] at sent'
          cases sent'
          refine ⟨new.clientData own, ?_, ?_, ?_⟩
          · rw [Spe.Empty, dispatches.emptySlots]
            exact takenState_in_use
          · rw [dispatches.queue, takenState_queue_self]
          · rw [dispatches.queue, takenState_queue_self]
  | @answered d psaRet s' w dispatches answer replied =>
      have not_sent : d.sent = none := by
        rcases dispatches.cases with ⟨not_sent, -⟩ | ⟨_, -, no_answer, -⟩
        · exact not_sent
        · rw [answer] at no_answer
          cases no_answer
      refine inv.take ?_ idx_lt empty ?_ ?_ ?_
      · rw [replied.spm]
        exact dispatches.managed
      · rw [replied.spm]
        exact dispatches.old
      · intro k k_ne
        obtain ⟨empty_iff, queue⟩ := replied.records k_ne
        rw [empty_iff, queue, Spe.Empty, dispatches.emptySlots, dispatches.queue]
        exact takenState_records cfg _ k_ne
      · intro c sent
        rw [not_sent] at sent
        cases sent

omit [DecidableEq Pt] in
/-- Collecting a reply writes it for the record of its request. -/
theorem SlotInv.collected_written {cfg : Config Pt Svc} {s s' : Spe Pt Svc} {J : Journal} {c : ℕ}
    {written : Option Written} {spm : State Pt Svc} (inv : SlotInv cfg s J)
    (collected : Collected cfg s c written s' spm) :
    ∃ n s₁ w, Carried cfg s J c n ∧ written = some w ∧
      Replied cfg { s with spm := spm } (J.slot n) (s.spm.connections c).replyValue s₁ w ∧
      s' = { s₁ with shared := { s₁.shared with
        repliedSlots := s₁.shared.repliedSlots ||| slotBit (J.slot n) } } := by
  obtain ⟨n, carried⟩ := inv.carried c collected.before
  have reply := collected.reply
  rw [carried.data] at reply
  have slot_lt := lt_of_lt_of_le carried.slot_lt cfg.nsSlotCount_le
  obtain ⟨s₁, w, written_eq, replied, state⟩ :=
    mailboxReply_of_record (s := { s with spm := spm }) slot_lt carried.in_use carried.handle reply
  exact ⟨n, s₁, w, carried, written_eq, replied, state⟩

omit [DecidableEq Pt] in
theorem SlotInv.collected {cfg : Config Pt Svc} {s s' : Spe Pt Svc} {J : Journal} {c : ℕ}
    {written : Option Written} {spm : State Pt Svc} (inv : SlotInv cfg s J)
    (collected : Collected cfg s c written s' spm) : SlotInv cfg s' J := by
  obtain ⟨n, s₁, w, carried, -, replied, rfl⟩ := inv.collected_written collected
  have still : ∀ d, s₁.spm.UnderWay cfg.agent d → d ≠ c ∧ s.spm.UnderWay cfg.agent d ∧
      (s₁.spm.connections d).clientData = (s.spm.connections d).clientData := by
    intro d here'
    rw [replied.spm] at here' ⊢
    have d_ne : d ≠ c := by
      rintro rfl
      exact collected.after here'
    have frame := collected.others d d_ne .quiet
    have here := frame.underWay.1 here'
    exact ⟨d_ne, here, (frame.same here).clientData⟩
  refine ⟨?_, fun d here' ↦ ?_, fun d e d_here' e_here' same ↦ ?_⟩
  · dsimp only
    rw [replied.spm]
    exact collected.managed
  · obtain ⟨d_ne, here, data⟩ := still d here'
    obtain ⟨m, d_carried⟩ := inv.carried d here
    have slot_ne : J.slot m ≠ J.slot n := fun same ↦
      d_ne (inv.slot_injective here collected.before d_carried carried same)
    obtain ⟨empty_iff, queue⟩ := replied.records slot_ne
    refine ⟨m, d_carried.onChunk, d_carried.taken, d_carried.slot_lt, d_carried.latest,
      data.trans d_carried.data, fun empty ↦ d_carried.in_use (empty_iff.1 empty), ?_, ?_⟩
    · exact (congrArg Slot.msgHandle queue).trans d_carried.handle
    · exact (congrArg Slot.nsSlotIdx queue).trans d_carried.ns
  · exact inv.distinct d e (still d d_here').2.1 (still e e_here').2.1 same

/-! ## Steps of the manager -/

/-- The agent's own steps outside the mailbox code neither send nor collect a request. -/
theorem foreign_agent {cfg : Config Pt Svc} {s s' : State Pt Svc} {a : Spm.Action Pt} {call : Api}
    {effect : Effect} (is_foreign : foreign cfg a = true) (own : a = .api cfg.agent call)
    (step_eq : Spm.step cfg.platform s a = some (effect, s')) : effect = .quiet := by
  subst own
  obtain ⟨-, result, run⟩ := step_api_eq_some step_eq
  cases call with
  | wait mask timeout =>
      simp only [Api.run, tfmSpmPartitionPsaWait] at run
      split at run
      · cases run
      split at run
      · cases run
        rfl
      · cases run
        rfl
  | _ => simp [foreign] at is_foreign

theorem foreign_frame {cfg : Config Pt Svc} {s s' : State Pt Svc} {a : Spm.Action Pt}
    {effect : Effect} (managed : Managed cfg s) (is_foreign : foreign cfg a = true)
    (disciplined : Disciplined cfg.platform s a)
    (step_eq : Spm.step cfg.platform s a = some (effect, s')) :
    Managed cfg s' ∧ ∀ c, AgentFrame s s' cfg.agent effect c := by
  obtain ⟨L, life⟩ := managed
  have move := move_of_step life disciplined step_eq
  refine ⟨⟨_, life.move move⟩, fun c ↦ move.agentFrame cfg.agent_mailbox life ?_ ?_ c⟩
  · intro call d own sent
    rw [foreign_agent is_foreign own step_eq] at sent
    cases sent
  · intro call d own collected
    rw [foreign_agent is_foreign own step_eq] at collected
    cases collected

/-- Entering a result in the journal changes nothing that the invariant reads. -/
theorem SlotInv.observe_spm {cfg : Config Pt Svc} {s s' : Spe Pt Svc} {J : Journal}
    {effect : Effect}
    (inv : SlotInv cfg s' J) : SlotInv cfg s' (J.observe cfg s s' (.spm effect)) := by
  have same : (J.observe cfg s s' (.spm effect)).count = J.count ∧
      (J.observe cfg s s' (.spm effect)).slot = J.slot ∧
      (J.observe cfg s s' (.spm effect)).latest = J.latest ∧
      (J.observe cfg s s' (.spm effect)).onChunk = J.onChunk := by
    cases effect with
    | replied c status =>
        simp only [Journal.observe]
        split
        · split <;> exact ⟨rfl, rfl, rfl, rfl⟩
        · exact ⟨rfl, rfl, rfl, rfl⟩
    | _ => exact ⟨rfl, rfl, rfl, rfl⟩
  obtain ⟨count, slot, latest, onChunk⟩ := same
  refine ⟨inv.managed, fun c here ↦ ?_, fun c d c_here d_here same ↦ ?_⟩
  · obtain ⟨n, carried⟩ := inv.carried c here
    refine ⟨n, ?_, ?_, ?_, ?_, ?_, ?_, ?_, ?_⟩
    · rw [onChunk]
      exact carried.onChunk
    · rw [count]
      exact carried.taken
    · rw [slot]
      exact carried.slot_lt
    · rw [latest, slot]
      exact carried.latest
    · rw [slot]
      exact carried.data
    · rw [slot]
      exact carried.in_use
    · rw [slot]
      exact carried.handle
    · rw [slot]
      exact carried.ns
  · rw [onChunk] at same
    exact inv.distinct c d c_here d_here same

/-- The journal of a taken message does not depend on the state afterwards. -/
theorem Taken.observe {cfg : Config Pt Svc} {s s' : Spe Pt Svc} {J : Journal} {idx : ℕ}
    {replySlots replySlots' : Word} {event : Event}
    (taken : Taken cfg s idx replySlots s' replySlots' event) (s'' : Spe Pt Svc) :
    J.observe cfg s s' event = J.observe cfg s s'' event := by
  cases taken <;> rfl

/-! ## Runs -/

/-- Every cautious step preserves the invariant of the slot records. -/
theorem SlotInv.step {cfg : Config Pt Svc} {s s' : Spe Pt Svc} {J : Journal} {a : Action Pt}
    {event : Event} (inv : SlotInv cfg s J) (cautious : Cautious cfg s a)
    (run : Mailbox.step cfg s a = .ok (s', event)) :
    SlotInv cfg s' (J.observe cfg s s' event) := by
  have stay := fun c ↦ (Quiet.refl inv.managed.pool).agentFrame cfg.agent .quiet c
  cases step_cases inv.managed run with
  | ns | idle | entered | skipped | left => exact inv.congr inv.managed stay rfl rfl
  | @taken loop s₁ replySlots _ loop_eq idx_lt pending taken =>
      obtain ⟨empty, own⟩ := cautious loop loop_eq idx_lt pending
      have inv₁ := inv.taken idx_lt empty own taken
      rw [taken.observe { s₁ with loop := some ⟨loop.idx + 1, loop.pendSlots, replySlots⟩ }] at inv₁
      exact inv₁.congr inv₁.managed
        (fun c ↦ (Quiet.refl inv₁.managed.pool).agentFrame cfg.agent .quiet c) rfl rfl
  | collected collected => exact inv.collected collected
  | spm is_foreign step_eq =>
      obtain ⟨managed, frame⟩ := foreign_frame inv.managed is_foreign cautious step_eq
      exact SlotInv.observe_spm (inv.congr managed frame rfl rfl)

theorem journaledStep_eq_some {cfg : Config Pt Svc} {x y : Spe Pt Svc × Journal} {a : Action Pt}
    (step_eq : journaledStep cfg x a = some y) :
    ∃ event, step cfg x.1 a = .ok (y.1, event) ∧ y.2 = x.2.observe cfg x.1 y.1 event := by
  rw [journaledStep] at step_eq
  split at step_eq
  · next s' event run =>
      cases step_eq
      exact ⟨event, run, rfl⟩
  · cases step_eq

omit [DecidableEq Pt] in
theorem slotInv_initial (cfg : Config Pt Svc) (trailer : cfg.platform.trailer ≠ poolMagicAllocated)
    (memory : Word → BitVec 8) (behind : Connection Pt Svc) (shared : Shared) :
    SlotInv cfg (initialSpe cfg (initialState cfg.platform memory behind) shared) .empty := by
  have none_here : ∀ c,
      ¬(initialState cfg.platform memory behind).UnderWay cfg.agent c :=
    fun c here ↦ not_allocated_initial trailer memory behind c here.1
  exact ⟨⟨_, lifeInv_initial trailer memory behind⟩, fun c here ↦ absurd here (none_here c),
    fun c _ here ↦ absurd here (none_here c)⟩

theorem slotInv_of_reached {cfg : Config Pt Svc}
    (trailer : cfg.platform.trailer ≠ poolMagicAllocated) {x : Spe Pt Svc × Journal}
    (reached : MailboxReached cfg (fun x ↦ Cautious cfg x.1) x) : SlotInv cfg x.1 x.2 := by
  obtain ⟨memory, behind, shared, reaches⟩ := reached
  refine reaches.invariant (I := fun x ↦ SlotInv cfg x.1 x.2)
    (slotInv_initial cfg trailer memory behind shared) ?_
  intro before a after inv cautious step_eq
  obtain ⟨event, run, journal⟩ := journaledStep_eq_some step_eq
  rw [journal]
  exact inv.step cautious run

omit [DecidableEq Pt] in
theorem Dispatches.intact {cfg : Config Pt Svc} {s : Spe Pt Svc} {idx k : ℕ} {msg : MailboxMsg}
    {d : Dispatched Pt Svc} (dispatches : Dispatches cfg (takenState cfg s idx) msg idx d)
    (k_lt : k < cfg.numSlots) (k_ne : k ≠ idx) : Intact cfg s d.state k :=
  ⟨(congrFun dispatches.queue k).trans (takenState_records cfg _ k_ne).2,
    dispatches.inUse_other k k_ne,
    dispatches.vectors_other k k_lt k_ne⟩

omit [DecidableEq Pt] in
/-- Taking the message of a slot leaves the other slots alone. -/
theorem Taken.intact {cfg : Config Pt Svc} {s s' : Spe Pt Svc} {idx k : ℕ}
    {replySlots replySlots' : Word} {event : Event}
    (taken : Taken cfg s idx replySlots s' replySlots' event) (k_lt : k < cfg.numSlots)
    (k_ne : k ≠ idx) : Intact cfg s s' k := by
  cases taken with
  | dropped request =>
      rw [mailboxCleanQueueSlot]
      split
      · rw [setSpeQueueEmptyStatus]
        have queue : Function.update (takenState cfg s idx).queue idx .zero k = s.queue k := by
          rw [Function.update_of_ne k_ne]
          exact (takenState_records cfg _ k_ne).2
        split <;> exact ⟨queue, rfl, fun _ _ ↦ rfl⟩
      · exact ⟨(takenState_records cfg _ k_ne).2, rfl, fun _ _ ↦ rfl⟩
  | waiting dispatches answer => exact dispatches.intact k_lt k_ne
  | answered dispatches answer replied =>
      have before := dispatches.intact k_lt k_ne
      refine ⟨?_, ?_, ?_⟩
      · exact (replied.records k_ne).2.trans before.queue
      · rw [replied.inUse, Function.update_of_ne k_ne]
        exact before.inUse
      · rw [replied.spm]
        exact before.vectors

omit [DecidableEq Pt] in
/-- An immediate answer goes to the slot of its message. -/
theorem Taken.own_answer {cfg : Config Pt Svc} {s s' : Spe Pt Svc} {idx j : ℕ}
    {replySlots replySlots' : Word} {msg : MailboxMsg} {sent : Option ℕ} {answer : Option ℤ}
    {w : Written}
    (taken : Taken cfg s idx replySlots s' replySlots' (.taken j msg sent answer (some w))) :
    w.slot = j ∧ answer = some w.returnVal := by
  cases taken with
  | answered dispatches answer replied =>
      rw [replied.slot, replied.returnVal, dispatches.queue, takenState_queue_self]
      exact ⟨rfl, rfl⟩

/-- In every cautious run, the mailbox is robust. -/
theorem robust_of_cautious (cfg : Config Pt Svc)
    (trailer : cfg.platform.trailer ≠ poolMagicAllocated) (x : Spe Pt Svc × Journal)
    (a : Action Pt) (reached : MailboxReached cfg (fun x ↦ Cautious cfg x.1) x)
    (cautious : Cautious cfg x.1 a) : Robust cfg x a := by
  have inv := slotInv_of_reached trailer reached
  refine ⟨step_in_bounds cfg x.1 a, ?_, ?_, ?_⟩
  · intro s' event run not_spm c n here here' onChunk
    obtain ⟨m, carried⟩ := inv.carried c here
    have m_eq := carried.onChunk
    rw [onChunk] at m_eq
    cases m_eq
    have slot_lt := lt_of_lt_of_le carried.slot_lt cfg.nsSlotCount_le
    cases step_cases inv.managed run with
    | ns | idle | entered | skipped | left => exact ⟨rfl, rfl, fun _ _ ↦ rfl⟩
    | @taken loop _ _ _ loop_eq idx_lt pending taken =>
        obtain ⟨empty, -⟩ := cautious loop loop_eq idx_lt pending
        have other : x.2.slot n ≠ loop.idx := fun same ↦
          carried.in_use (by rw [same]; exact empty)
        have intact := taken.intact slot_lt other
        exact ⟨intact.queue, intact.inUse, intact.vectors⟩
    | @collected d written _ spm collected =>
        obtain ⟨m, s₁, w, d_carried, -, replied, rfl⟩ := inv.collected_written collected
        have c_ne : c ≠ d := by
          rintro rfl
          refine collected.after ?_
          rw [← show s₁.spm = spm from replied.spm]
          exact here'
        have other : x.2.slot n ≠ x.2.slot m := fun same ↦
          c_ne (inv.slot_injective here collected.before carried d_carried same)
        refine ⟨(replied.records other).2, ?_, fun k k_lt ↦ ?_⟩
        · exact (congrFun replied.inUse _).trans (Function.update_of_ne other ..)
        · have memory : s₁.spm.memory = spm.memory := congrArg State.memory replied.spm
          exact (congrFun memory _).trans (collected.vectors _ slot_lt k k_lt)
    | spm is_foreign step_eq => exact absurd rfl (not_spm _)
  · intro s' c w run
    cases step_cases inv.managed run with
    | taken loop_eq idx_lt pending taken => cases taken
    | collected collected =>
        obtain ⟨n, s₁, w', carried, same, replied, -⟩ := inv.collected_written collected
        cases same
        have slot : w.slot = x.2.slot n := replied.slot.trans carried.ns
        refine ⟨n, carried.onChunk, slot, ?_, replied.returnVal⟩
        rw [slot]
        exact carried.latest
  · intro s' idx msg sent answer w run
    cases step_cases inv.managed run with
    | taken loop_eq idx_lt pending taken => exact taken.own_answer

/-! ## A small mailbox -/

/-- A mailbox with two slots on the platform of the agent. -/
def sampleConfig : Config Bool Bool where
  platform := agentPlatform
  agent := false
  numSlots := 2
  nsSlotCount := 2
  manageNsid := false
  clientIdRegion := (-10, -1)
  msgHandleAddress := fun k ↦ 0x4000 + BitVec.ofNat 32 k
  vectorsAddress := fun k ↦ 0x5000 + BitVec.ofNat 32 (64 * k)
  paramsAddress := 0x6000
  msgAddress := 0x7000
  agent_mailbox := rfl
  agent_tz := rfl
  numSlots_le := by decide
  nsSlotCount_le := le_rfl
  region_base := by decide
  region_limit := by decide
  region_neg := by decide
  region_word := by decide
  msgHandleAddress_ne_zero := by bv_omega
  msgHandleAddress_injective := by bv_omega
  vectors_apart := by bv_omega
  params_apart := by bv_omega
  msg_apart := by bv_omega

/-- The non-secure core signals slot 0 with a request in every slot. -/
def sampleShared (request : Request) : Shared where
  pendSlots := 1
  repliedSlots := 0
  slots := fun _ ↦ ⟨⟨request, -1⟩, ⟨0, fun _ ↦ 0⟩⟩

/-- Start of the small mailbox. -/
def sampleStart : Spe Bool Bool × Journal :=
  (initialSpe sampleConfig (initialState agentPlatform (fun _ ↦ 0) .zero)
    (sampleShared (.connect 0x100 1)), .empty)

/-- While the service has not yet answered the request of slot 0, the non-secure core signals the
slot again with a request that is answered at once, and the agent clears the record of the slot. -/
theorem not_robust :
    ¬∀ x a, MailboxReached sampleConfig
        (fun x a ↦ ∀ b, a = .spm b → Disciplined agentPlatform x.1.spm b) x →
      Robust sampleConfig x a := by
  intro robust
  have signalled : (Run.exec (journaledStep sampleConfig) sampleStart [.handleBegin, .handleNext,
      .handleNext, .handleEnd, .ns (sampleShared .frameworkVersion), .handleBegin]).any
      (fun x ↦ ((x.1.spm.magic 1 = poolMagicAllocated ∧
          (x.1.spm.connections 1).pClient = some false ∧ (x.1.spm.connections 1).status ≠ .idle) ∧
          x.2.onChunk 1 = some 0 ∧ x.2.slot 0 = 0) &&
        match step sampleConfig x.1 .handleNext with
        | .ok (s', _) => (s'.spm.magic 1 = poolMagicAllocated ∧
            (s'.spm.connections 1).pClient = some false ∧ (s'.spm.connections 1).status ≠ .idle) ∧
            (s'.queue 0).msgHandle ≠ (x.1.queue 0).msgHandle
        | .error _ => false) = true := by
    decide +kernel
  obtain ⟨x, run, signalled⟩ := (Option.any_eq_true ..).1 signalled
  obtain ⟨before, after⟩ := (Bool.and_eq_true ..).mp signalled
  obtain ⟨here, onChunk, slot⟩ := of_decide_eq_true before
  split at after
  · next s' event step_eq =>
      obtain ⟨here', changed⟩ := of_decide_eq_true after
      have reached : MailboxReached sampleConfig
          (fun x a ↦ ∀ b, a = .spm b → Disciplined agentPlatform x.1.spm b) x := by
        refine ⟨_, _, _, Run.exec_reaches run ?_⟩
        refine ⟨fun _ eq ↦ ?_, fun _ _ ↦ ⟨fun _ eq ↦ ?_, fun _ _ ↦ ⟨fun _ eq ↦ ?_, fun _ _ ↦
          ⟨fun _ eq ↦ ?_, fun _ _ ↦ ⟨fun _ eq ↦ ?_, fun _ _ ↦ ⟨fun _ eq ↦ ?_, fun _ _ ↦
            trivial⟩⟩⟩⟩⟩⟩ <;> cases eq
      have intact := (robust x .handleNext reached).intact s' event step_eq (by rintro _ ⟨⟩) 1 0
        here here' onChunk
      rw [slot] at intact
      exact changed (congrArg Slot.msgHandle intact.queue)
  · cases after

/-- While a service holds the request of slot 0, the non-secure core signals slot 1 and overwrites
both messages.  The agent takes slot 1 and leaves slot 0 alone. -/
def sampleCautious : List (Action Bool) :=
  [.handleBegin, .handleNext, .handleNext, .handleEnd, .spm (.api true (.get 0x10 0x2000)),
    .ns { sampleShared .unknown with pendSlots := 2 }, .handleBegin, .handleNext]

theorem robust_sampleCautious :
    ∃ x, Run.exec (journaledStep sampleConfig) sampleStart sampleCautious = some x ∧
      x.1.spm.UnderWay false 1 ∧ x.2.onChunk 1 = some 0 ∧ Robust sampleConfig x .handleNext := by
  have under_way : (Run.exec (journaledStep sampleConfig) sampleStart sampleCautious).any
      (fun x ↦ (x.1.spm.magic 1 = poolMagicAllocated ∧
        (x.1.spm.connections 1).pClient = some false ∧ (x.1.spm.connections 1).status ≠ .idle) ∧
          x.2.onChunk 1 = some 0 ∧ Cautious sampleConfig x.1 .handleNext) = true := by
    decide +kernel
  obtain ⟨x, run, under_way⟩ := (Option.any_eq_true ..).1 under_way
  obtain ⟨here, onChunk, cautious⟩ := of_decide_eq_true under_way
  exact ⟨x, run, here, onChunk, robust_of_cautious sampleConfig (by decide) x .handleNext
    ⟨_, _, _, Run.exec_reaches run (Run.allowed_of_decide (by decide +kernel))⟩ cautious⟩

end TrustedFirmwareM.Mailbox
