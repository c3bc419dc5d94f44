import TrustedFirmwareM.Mailbox.SpeSteps

/-!
# Requests and replies agree

Every slot stays in one of its phases in every run in which connections are closed from the slot
that used them last.  In such a run each request has exactly one reply, its own, or waits for it.

A disconnection request is the one request that does not enter its slot in the connection.  Its
reply goes to the slot of the request before it, which another thread may own by now.
-/

namespace TrustedFirmwareM.Mailbox

open Spm

variable {Pt Svc T : Type} [DecidableEq T] [DecidableEq Pt]

omit [DecidableEq T] in
/-- A step of the secure side keeps the phases. -/
theorem SystemInv.speStep {cfg : Config Pt Svc} {s : System Pt Svc T} {X : Traffic}
    {a : Action Pt} {spe : Spe Pt Svc} {event : Event} (inv : SystemInv cfg (s, X))
    (orderly : Orderly cfg s (.spe a)) (not_ns : ∀ shared, a ≠ .ns shared)
    (run : Mailbox.step cfg s.spe a = .ok (spe, event)) :
    SystemInv cfg ({ s with spe := spe }, X.observe cfg s.spe spe event) := by
  have managed : Managed cfg s.spe.spm := inv.slots.managed
  have cautious : Cautious cfg s.spe a := by
    cases a with
    | spm a => exact orderly.1.1
    | handleNext =>
        intro loop loop_eq idx_lt set
        exact ⟨(inv.unused loop_eq idx_lt set).empty, (orderly.2 rfl loop loop_eq idx_lt set).2⟩
    | _ => trivial
  have slots := inv.slots.step cautious run
  cases step_cases managed run with
  | ns shared => exact absurd rfl (not_ns shared)
  | idle => exact inv
  | entered no_loop => exact inv.entered no_loop
  | skipped loop_eq idx_lt clear => exact inv.skipped loop_eq idx_lt clear
  | taken loop_eq idx_lt set taken =>
      exact inv.taken loop_eq idx_lt set (orderly.2 rfl _ loop_eq idx_lt set).1 taken rfl slots
  | left loop_eq done => exact inv.left loop_eq done
  | collected collected => exact inv.collected collected
  | spm is_foreign step_eq =>
      exact inv.spm is_foreign orderly.1.1 orderly.1.2 step_eq slots

/-- A step of the system keeps the phases. -/
theorem SystemInv.step {cfg : Config Pt Svc} {x y : System Pt Svc T × Traffic}
    {a : SystemAction Pt T} (inv : SystemInv cfg x) (orderly : Orderly cfg x.1 a)
    (step_eq : systemStep cfg x a = some y) : SystemInv cfg y := by
  cases a with
  | ns a =>
      simp only [systemStep, Option.map_eq_some_iff, Prod.exists] at step_eq
      obtain ⟨s', released, run, rfl⟩ := step_eq
      exact SystemInv.nsStep inv run
  | spe a =>
      rw [systemStep.eq_def] at step_eq
      dsimp only at step_eq
      split at step_eq
      · next impossible => cases impossible
      · cases step_eq
      · next not_ns same =>
          cases same
          split at step_eq
          · next spe event run =>
              cases step_eq
              exact SystemInv.speStep inv orderly
                (fun shared same ↦ not_ns shared (by rw [same])) run
          · cases step_eq

omit [DecidableEq T] [DecidableEq Pt] in
/-- The phases when the system starts. -/
theorem systemInv_initial (cfg : Config Pt Svc)
    (trailer : cfg.platform.trailer ≠ poolMagicAllocated)
    (memory : Word → BitVec 8) (behind : Connection Pt Svc) (slots : ℕ → NsSlot) :
    SystemInv (T := T) cfg (initialSystem cfg (initialState cfg.platform memory behind) slots,
      ⟨.empty, fun _ ↦ none, fun _ ↦ []⟩) := by
  have idle : ∀ (t : T) k msg,
      ¬((initialSystem (T := T) cfg (initialState cfg.platform memory behind)
      slots).ns.threads t).Sent k msg := by
    intro t k msg sent
    rcases sent with impossible | impossible | ⟨_, impossible⟩ <;> cases impossible
  refine ⟨slotInv_initial cfg trailer memory behind _, ⟨?_, ?_, ?_, ?_⟩, ?_, fun k k_lt ↦ ?_,
    fun _ _ ↦ rfl, fun _ _ ↦ rfl⟩
  · rintro t k ⟨⟩
  · rintro t u k ⟨⟩
  · rintro k - - t ⟨⟩
  · rintro t k msg ⟨⟩
  · rintro loop k ⟨⟩
  · have k_lt' := lt_of_lt_of_le k_lt cfg.nsSlotCount_le
    have k_lt'' := lt_of_lt_of_le k_lt' cfg.numSlots_le
    refine .free ⟨fun t msg ↦ idle t k msg, ?_, ?_, rfl, rfl, ?_, rfl⟩
    · exact BitVec.getLsbD_zero
    · simp [System.NoSignal, System.signals, Spe.answering, initialSystem, initialSpe]
    · simp only [Spe.Empty, initialSystem, initialSpe, BitVec.getLsbD_ofNat,
        Nat.testBit_two_pow_sub_one, k_lt', k_lt'', decide_true, Bool.and_self]

theorem systemInv_of_reached {cfg : Config Pt Svc}
    (trailer : cfg.platform.trailer ≠ poolMagicAllocated) {x : System Pt Svc T × Traffic}
    (reached : SystemReached cfg (Orderly cfg) x) : SystemInv cfg x := by
  obtain ⟨memory, behind, slots, reaches⟩ := reached
  refine reaches.invariant (systemInv_initial cfg trailer memory behind slots) ?_
  intro before a after inv orderly step_eq
  exact inv.step orderly step_eq

omit [DecidableEq T] [DecidableEq Pt] in
/-- In their phases, requests and replies agree. -/
theorem SystemInv.agreement {cfg : Config Pt Svc} {x : System Pt Svc T × Traffic}
    (inv : SystemInv cfg x) : Agreement cfg x := by
  refine ⟨inv.ns.exclusive, fun k unsent ↦ ?_, fun t k msg sent ↦ ?_, fun t k msg reply left ↦ ?_⟩
  · by_cases k_lt : k < cfg.nsSlotCount
    · cases inv.phase k k_lt with
      | free free => exact free.received
      | pending pending => exact pending.received
      | served served => exact served.received
      | answered answered => exact absurd answered.thread (unsent _ _)
    · exact inv.beyond k (not_lt.1 k_lt)
  · have k_lt := inv.ns.slot_lt t k sent.slot
    cases inv.phase k k_lt with
    | free free => exact absurd sent (free.unsent t msg)
    | pending pending => exact .inl ⟨pending.received, .inl ⟨pending.number, pending.pends⟩⟩
    | served served =>
        exact .inl ⟨served.received, .inr ⟨_, _, served.number, served.awaiting.here,
          served.awaiting.onChunk⟩⟩
    | answered answered =>
        cases inv.ns.owner sent answered.thread.slot
        have same := sent.msg_eq answered.thread
        subst same
        exact .inr ⟨_, _, answered.number, answered.received, answered.answers⟩
  · have sent : (x.1.ns.threads t).Sent k msg := .inr (.inr ⟨reply, left⟩)
    obtain ⟨n, w, answered⟩ := SystemInv.answered inv sent fun impossible ↦ by
      rw [left] at impossible
      cases impossible
    exact ⟨w, answered.received, answered.copied reply left⟩

/-- In every orderly run, requests and replies agree. -/
theorem agreement_of_orderly (cfg : Config Pt Svc)
    (trailer : cfg.platform.trailer ≠ poolMagicAllocated) (x : System Pt Svc T × Traffic)
    (reached : SystemReached cfg (Orderly cfg) x) : Agreement cfg x :=
  (systemInv_of_reached trailer reached).agreement

/-! ## A small mailbox -/

/-- Start of the small mailbox, with two threads. -/
def sampleSystem : System Bool Bool Bool × Traffic :=
  (initialSystem sampleConfig (initialState agentPlatform (fun _ ↦ 0) .zero)
    (fun _ ↦ ⟨⟨.unknown, 0⟩, ⟨0, fun _ ↦ 0⟩⟩), ⟨.empty, fun _ ↦ none, fun _ ↦ []⟩)

/-- Run the small mailbox. -/
def sampleSystemRun (actions : List (SystemAction Bool Bool)) :
    Option (System Bool Bool Bool × Traffic) :=
  Run.exec (systemStep sampleConfig) sampleSystem actions

/-- The agent handles the pending slots of the small mailbox. -/
def sampleRound : List (SystemAction Bool Bool) :=
  [.spe .handleBegin, .spe .handleNext, .spe .handleNext, .spe .handleEnd]

/-- A thread of the small mailbox is told of its reply and gives its slot back. -/
def sampleLeave (t : Bool) : List (SystemAction Bool Bool) :=
  [.ns .wakeReplyOwner, .ns (.waitReplySignal t), .ns (.rxClientReply t),
    .ns (.setQueueSlotEmpty t)]

/-- One thread opens a connection through slot 0.  Another one then requests a connection through
slot 0, and the first closes its connection through slot 1.  The reply to the close request goes to
slot 0. -/
theorem not_agreement :
    ¬∀ x : System Bool Bool Bool × Traffic, SystemReached sampleConfig (fun _ _ ↦ True) x →
      Agreement sampleConfig x := by
  intro agreement
  have misled : (sampleSystemRun
      ([.ns (.acquire false (.psaConnect 0x100 1) (-1)), .ns (.send false)] ++ sampleRound ++
      [.spe (.spm (.api true (.get 0x10 0x2000))), .spe (.spm (.api true (.reply 0x402 0))),
        .spe .collect] ++ sampleLeave false ++
      [.ns (.acquire true (.psaConnect 0x100 1) (-1)), .ns (.send true),
        .ns (.acquire false (.psaClose 0x402) (-1)), .ns (.send false)] ++ sampleRound ++
      [.spe (.spm (.api true (.get 0x10 0x2000))), .spe (.spm (.api true (.get 0x10 0x2000))),
        .spe (.spm (.api true (.reply 0x402 0))), .spe .collect])).any
      (fun x ↦ (x.1.ns.threads true).waitsFor 0 && (x.2.received 0).length = 1 &&
        x.2.number 0 = some 1 && (x.2.journal.result 1).isNone) = true := by
    decide +kernel
  obtain ⟨x, run, misled⟩ := (Option.any_eq_true ..).1 misled
  simp only [Bool.and_eq_true, decide_eq_true_eq, Option.isNone_iff_eq_none] at misled
  obtain ⟨⟨⟨waits, length⟩, number⟩, no_result⟩ := misled
  have agrees := agreement x ⟨_, _, _, Run.exec_reaches run (Run.allowed_true ..)⟩
  obtain ⟨msg, waiting⟩ := Thread.waitsFor_iff.1 waits
  rcases agrees.occupied true 0 msg (.of_waiting waiting) with
    ⟨no_reply, -⟩ | ⟨n, w, number', -, -, -, r, result, -⟩
  · rw [no_reply] at length
    cases length
  · rw [number] at number'
    cases number'
    rw [no_result] at result
    cases result

/-- A thread opens a connection through slot 0, leaves with the reply, closes the connection through
slot 0 again and leaves. -/
def sampleOrderly : List (SystemAction Bool Bool) :=
  [.ns (.acquire false (.psaConnect 0x100 1) (-1)), .ns (.send false)] ++ sampleRound ++
  [.spe (.spm (.api true (.get 0x10 0x2000))), .spe (.spm (.api true (.reply 0x402 0))),
    .spe .collect] ++ sampleLeave false ++
  [.ns (.acquire false (.psaClose 0x402) (-1)), .ns (.send false)] ++ sampleRound ++
  [.spe (.spm (.api true (.get 0x10 0x2000))), .spe (.spm (.api true (.reply 0x402 0))),
    .spe .collect, .ns .wakeReplyOwner, .ns (.waitReplySignal false),
    .ns (.rxClientReply false)]

theorem agreement_sampleOrderly :
    ∃ x, sampleSystemRun sampleOrderly = some x ∧ x.2.journal.count = 2 ∧
      ¬x.1.spe.spm.Allocated 1 ∧ Agreement sampleConfig x := by
  have closed : (sampleSystemRun sampleOrderly).any
      (fun x ↦ x.2.journal.count = 2 ∧ x.1.spe.spm.magic 1 ≠ poolMagicAllocated) = true := by
    decide +kernel
  obtain ⟨x, run, closed⟩ := (Option.any_eq_true ..).1 closed
  obtain ⟨requests, free⟩ := of_decide_eq_true closed
  exact ⟨x, run, requests, free, agreement_of_orderly sampleConfig (by decide) x
    ⟨_, _, _, Run.exec_reaches run (Run.allowed_of_decide (by decide +kernel))⟩⟩

end TrustedFirmwareM.Mailbox
