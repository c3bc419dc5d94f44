import TrustedFirmwareM.Spm.LifeCycle
import TrustedFirmwareM.Spm.Scheduler

/-!
# Runs of the scheduler

Whatever happens to threads, the list stays sorted.  Each blocked thread gets the return value that
has been set for it, if a request gets one reply.  The invariant ties the journal of a thread to the
signals of its partition.
-/

namespace TrustedFirmwareM.Spm.Scheduler

open LinkedList

variable {Th : Type} [DecidableEq Th] {allowed : Th → Word}

/-- A thread in a request waits for the reply.  The last return value that a reply has set for it is
in the partition until the thread gets it. -/
structure Agrees (allowed : Word) (r : Partition) (j : Journal Th) (p : Th) : Prop where
  /-- A thread that has not been created does not wait. -/
  free : p ∉ j.started → r.signalsWaiting = 0
  /-- In a request. -/
  requesting : j.requesting p = true →
    allowed &&& asyncMsgReply = 0 ∧ r.signalsWaiting = asyncMsgReply ∧
      (r.signalsAsserted &&& asyncMsgReply = 0 ∧ j.replies p = j.answers p ∨
        r.signalsAsserted &&& asyncMsgReply ≠ 0 ∧ j.replies p = j.answers p ++ [r.replyValue])
  /-- Not in a request. -/
  idle : j.requesting p = false → j.replies p = j.answers p ∧
    (allowed &&& asyncMsgReply = 0 → r.signalsAsserted &&& asyncMsgReply = 0)
  /-- Each time a thread is blocked it gets one return value. -/
  once : (j.returned p).length + (if r.signalsWaiting = 0 then 0 else 1) = j.blocked p

/-- The invariant of the scheduler. -/
structure Inv (allowed : Th → Word) (x : System Th) : Prop where
  /-- The list holds the threads that have been created. -/
  list : ∃ nodes, Ordered x.sched nodes ∧ nodes.Perm x.journal.started
  /-- Return values become available in a walk only. -/
  unavailable : ∀ p, (x.sched.threads p).state ≠ .retValAvail
  /-- The journal agrees with the partitions. -/
  agrees : ∀ p, Agrees (allowed p) (x.sched.partitions p) x.journal p

omit [DecidableEq Th] in
theorem inv_of_initial {x : System Th} (initial : x.Initial) : Inv allowed x := by
  obtain ⟨listHead, rnblHead, quiet, journal⟩ := initial
  constructor
  case list =>
    refine ⟨[], ⟨?_, .nil, rnblHead.trans listHead.symm⟩, ?_⟩
    · rw [listHead]
      exact .nil
    · rw [journal]
  case unavailable =>
    intro p avail
    rw [(quiet p).1] at avail
    contradiction
  case agrees =>
    intro p
    rw [journal]
    obtain ⟨-, waiting, asserted⟩ := quiet p
    constructor
    case free => exact fun _ ↦ waiting
    case requesting => exact fun requesting ↦ by contradiction
    case idle =>
      refine fun _ ↦ ⟨rfl, fun _ ↦ ?_⟩
      rw [asserted]
      exact BitVec.zero_and
    case once => simp [waiting]

/-- A change of one partition and of the journal of its thread. -/
theorem Inv.ofPartition {x : System Th} (inv : Inv allowed x) {p : Th} {r : Partition}
    {j : Journal Th} (others : ∀ q, q ≠ p → Agrees (allowed q) (x.sched.partitions q) j q)
    (agrees : Agrees (allowed p) r j p)
    (started : j.started = x.journal.started) : Inv allowed ⟨x.sched.setPartition p r, j⟩ := by
  obtain ⟨nodes, ordered, perm⟩ := inv.list
  constructor
  case list => exact ⟨nodes, ⟨ordered.chain, ordered.sorted, ordered.rnblHead⟩, started ▸ perm⟩
  case unavailable => exact inv.unavailable
  case agrees =>
    intro q
    by_cases same : q = p
    · subst same
      dsimp only
      rw [setPartition_self]
      exact agrees
    · dsimp only
      rw [setPartition_of_ne _ _ same]
      exact others q same

omit [DecidableEq Th] in
/-- Only the journal of one thread differs. -/
theorem Agrees.congr {a : Word} {r : Partition} {j j' : Journal Th} {p : Th}
    (agrees : Agrees a r j p) (started : p ∈ j.started → p ∈ j'.started)
    (requesting : j'.requesting p = j.requesting p) (replies : j'.replies p = j.replies p)
    (answers : j'.answers p = j.answers p) (blocked : j'.blocked p = j.blocked p)
    (returned : j'.returned p = j.returned p) : Agrees a r j' p := by
  constructor
  case free => exact fun fresh ↦ agrees.free fun old ↦ fresh (started old)
  case requesting =>
    rw [requesting, replies, answers]
    exact agrees.requesting
  case idle =>
    rw [requesting, replies, answers]
    exact agrees.idle
  case once =>
    rw [returned, blocked]
    exact agrees.once

omit [DecidableEq Th] in
/-- A thread that is not blocked is not in a request. -/
theorem Agrees.not_requesting {a : Word} {r : Partition} {j : Journal Th} {p : Th}
    (agrees : Agrees a r j p) (free : r.signalsWaiting = 0) : j.requesting p = false := by
  cases requesting : j.requesting p with
  | false => rfl
  | true =>
      obtain ⟨-, waits, -⟩ := agrees.requesting requesting
      rw [free] at waits
      contradiction

theorem Inv.start {x : System Th} (inv : Inv allowed x) {p : Th}
    (fresh : p ∉ x.journal.started) (priority : BitVec 8) :
    ∃ x', step allowed x (.start p priority) = some x' ∧ Inv allowed x' := by
  obtain ⟨nodes, ordered, perm⟩ := inv.list
  have fresh' : p ∉ nodes := fun p_mem ↦ fresh (perm.mem_iff.1 p_mem)
  obtain ⟨s', nodes', started, ordered', perm', partitions, state⟩ :=
    thrdStart_spec ordered fresh' (perm.length_eq.le.trans (Nat.le_succ _)) priority
  refine ⟨⟨s', { x.journal with started := p :: x.journal.started }⟩, ?_, ?_⟩
  · rw [step, if_neg fresh, started]
    rfl
  constructor
  case list => exact ⟨nodes', ordered', perm'.trans (perm.cons p)⟩
  case unavailable => exact fun q avail ↦ inv.unavailable q (state q avail)
  case agrees =>
    intro q
    rw [partitions]
    exact (inv.agrees q).congr (List.mem_cons_of_mem p) rfl rfl rfl rfl rfl

theorem Inv.setState {x : System Th} (inv : Inv allowed x) {p : Th}
    (started : p ∈ x.journal.started) {state : ThreadState} (ne : state ≠ .retValAvail) :
    Inv allowed { x with sched := thrdSetState x.sched p state } := by
  obtain ⟨nodes, ordered, perm⟩ := inv.list
  obtain ⟨head, set_eq, -⟩ := thrdSetState_eq x.sched p state
  constructor
  case list => exact ⟨nodes, ordered.setState (perm.mem_iff.2 started) state, perm⟩
  case unavailable =>
    intro q
    rw [set_eq]
    by_cases same : q = p
    · subst same
      rw [setThread_self]
      exact ne
    · dsimp only
      rw [setThread_of_ne _ _ same]
      exact inv.unavailable q
  case agrees =>
    rw [set_eq]
    exact inv.agrees

theorem Inv.wait {x : System Th} (inv : Inv allowed x) {p : Th}
    (started : p ∈ x.journal.started) (free : ¬x.sched.Blocked p) (signals : Word)
    (request : Bool)
    (asks : request = true → allowed p &&& asyncMsgReply = 0 ∧ signals = asyncMsgReply) :
    Inv allowed (x.wait p signals request) := by
  have free : (x.sched.partitions p).signalsWaiting = 0 := not_not.1 free
  have agrees := inv.agrees p
  have not_requesting := agrees.not_requesting free
  obtain ⟨settled, quiet⟩ := agrees.idle not_requesting
  have once := agrees.once
  rw [if_pos free] at once
  rw [System.wait, waitSignals]
  dsimp only
  by_cases none_asserted : (x.sched.partitions p).signalsAsserted &&& signals = 0
  · rw [if_pos none_asserted]
    by_cases some_signal : signals = 0
    · rw [if_neg (fun blocks ↦ blocks.2 some_signal)]
      refine inv.ofPartition (fun q _ ↦ inv.agrees q) ?_ rfl
      constructor
      case free => exact fun fresh ↦ absurd started fresh
      case requesting => exact fun requesting ↦ by simp [not_requesting] at requesting
      case idle => exact fun _ ↦ ⟨settled, quiet⟩
      case once => simpa [some_signal] using once
    · rw [if_pos ⟨none_asserted, some_signal⟩]
      refine inv.ofPartition ?_ ?_ rfl
      · intro q ne
        refine (inv.agrees q).congr id ?_ rfl rfl ?_ rfl
        · exact Function.update_of_ne ne ..
        · exact Function.update_of_ne ne ..
      · constructor
        case free => exact fun fresh ↦ absurd started fresh
        case requesting =>
          intro requesting
          dsimp only at requesting
          rw [Function.update_self] at requesting
          obtain ⟨not_agent, rfl⟩ := asks requesting
          exact ⟨not_agent, rfl, .inl ⟨none_asserted, settled⟩⟩
        case idle => exact fun _ ↦ ⟨settled, quiet⟩
        case once =>
          dsimp only
          rw [Function.update_self, if_neg some_signal, ← once]
  · rw [if_neg none_asserted, if_neg (fun blocks ↦ none_asserted blocks.1)]
    exact inv.ofPartition (fun q _ ↦ inv.agrees q) agrees rfl

theorem Inv.assert {x : System Th} (inv : Inv allowed x) {p : Th} {signals : Word}
    (reserved : allowed p &&& asyncMsgReply = 0 → signals &&& asyncMsgReply = 0) :
    Inv allowed { x with
      sched := x.sched.setPartition p (assertSignal (x.sched.partitions p) signals) } := by
  have agrees := inv.agrees p
  refine inv.ofPartition (fun q _ ↦ inv.agrees q) ?_ rfl
  constructor
  case free => exact agrees.free
  case requesting =>
    intro requesting
    obtain ⟨not_agent, waits, account⟩ := agrees.requesting requesting
    refine ⟨not_agent, waits, ?_⟩
    rw [assertSignal, or_and_async (reserved not_agent)]
    exact account
  case idle =>
    intro not_requesting
    obtain ⟨settled, quiet⟩ := agrees.idle not_requesting
    refine ⟨settled, fun not_agent ↦ ?_⟩
    rw [assertSignal, or_and_async (reserved not_agent)]
    exact quiet not_agent
  case once => exact agrees.once

theorem Inv.reply {x : System Th} (inv : Inv allowed x) {p : Th} (value : ℤ)
    (requesting : x.journal.requesting p = true)
    (unanswered : (x.sched.partitions p).signalsAsserted &&& asyncMsgReply = 0) :
    Inv allowed ⟨x.sched.setPartition p
        (assertSignal { x.sched.partitions p with replyValue := value } asyncMsgReply),
      { x.journal with
        replies := Function.update x.journal.replies p (x.journal.replies p ++ [value]) }⟩ := by
  have agrees := inv.agrees p
  obtain ⟨not_agent, waits, account⟩ := agrees.requesting requesting
  refine inv.ofPartition ?_ ?_ rfl
  · intro q ne
    exact (inv.agrees q).congr id rfl (Function.update_of_ne ne ..) rfl rfl rfl
  · constructor
    case free => exact agrees.free
    case requesting =>
      refine fun _ ↦ ⟨not_agent, waits, .inr ⟨?_, ?_⟩⟩
      · rw [assertSignal, BitVec.and_or_distrib_right, unanswered]
        decide
      · obtain ⟨-, settled⟩ | ⟨answered, -⟩ := account
        · dsimp only
          rw [Function.update_self, settled]
          rfl
        · exact absurd unanswered answered
    case idle => exact fun not_requesting ↦ by simp [requesting] at not_requesting
    case once => exact agrees.once

theorem Inv.clear {x : System Th} (inv : Inv allowed x) {p : Th} (free : ¬x.sched.Blocked p)
    (signals : Word) : Inv allowed { x with
      sched := x.sched.setPartition p (clearAsserted (x.sched.partitions p) signals) } := by
  have agrees := inv.agrees p
  have not_requesting := agrees.not_requesting (not_not.1 free)
  obtain ⟨settled, quiet⟩ := agrees.idle not_requesting
  refine inv.ofPartition (fun q _ ↦ inv.agrees q) ?_ rfl
  constructor
  case free => exact agrees.free
  case requesting => exact fun requesting ↦ by simp [not_requesting] at requesting
  case idle => exact fun _ ↦ ⟨settled, fun not_agent ↦ and_and_async_eq_zero (quiet not_agent)⟩
  case once => exact agrees.once

omit [DecidableEq Th] in
/-- What a thread in a request gets is the return value that the reply has set. -/
theorem Agrees.pending {a : Word} {r : Partition} {j : Journal Th} {p : Th}
    (agrees : Agrees a r j p) (requesting : j.requesting p = true)
    (asserted : r.signalsWaiting &&& r.signalsAsserted ≠ 0) :
    j.replies p = j.answers p ++ [(returnValue a r).1] ∧
      returnValue a r =
        (r.replyValue, { clearAsserted r asyncMsgReply with signalsWaiting := 0 }) := by
  obtain ⟨not_agent, waits, account⟩ := agrees.requesting requesting
  rw [waits, BitVec.and_comm] at asserted
  have signals : r.signalsWaiting &&& r.signalsAsserted = asyncMsgReply := by
    rw [waits]
    exact and_async_eq asserted
  have not_allowed : a &&& asyncMsgReply ≠ asyncMsgReply := by
    rw [not_agent]
    decide
  have gets : returnValue a r =
      (r.replyValue, { clearAsserted r asyncMsgReply with signalsWaiting := 0 }) := by
    rw [returnValue]
    dsimp only
    rw [if_pos ⟨signals, not_allowed⟩]
  refine ⟨?_, gets⟩
  rw [gets]
  obtain ⟨unanswered, -⟩ | ⟨-, pending⟩ := account
  · exact absurd unanswered asserted
  · exact pending

theorem returnValue_spec (a : Word) (r : Partition) :
    (returnValue a r).2.signalsWaiting = 0 ∧ (r.signalsAsserted &&& asyncMsgReply = 0 →
      (returnValue a r).2.signalsAsserted &&& asyncMsgReply = 0) := by
  rw [returnValue]
  dsimp only
  split
  · exact ⟨rfl, and_and_async_eq_zero⟩
  · exact ⟨rfl, id⟩

/-- A thread that gets its return value is no longer blocked. -/
theorem Agrees.deliver {a : Word} {r : Partition} {j : Journal Th} {p : Th}
    (agrees : Agrees a r j p) (asserted : r.signalsWaiting &&& r.signalsAsserted ≠ 0) :
    Agrees a (returnValue a r).2 (j.deliver p (returnValue a r).1) p := by
  obtain ⟨free, quiet⟩ := returnValue_spec a r
  have waits : r.signalsWaiting ≠ 0 := by
    intro zero
    rw [zero] at asserted
    exact asserted BitVec.zero_and
  constructor
  case free => exact fun _ ↦ free
  case requesting => exact fun requesting ↦ by simp [Journal.deliver] at requesting
  case idle =>
    intro _
    cases requesting : j.requesting p with
    | true =>
        obtain ⟨pending, gets⟩ := agrees.pending requesting asserted
        simp only [Journal.deliver, requesting, if_true, Function.update_self]
        refine ⟨pending, fun _ ↦ ?_⟩
        rw [gets]
        simp [clearAsserted, BitVec.and_assoc]
    | false =>
        obtain ⟨settled, clear⟩ := agrees.idle requesting
        simp only [Journal.deliver, requesting, Bool.false_eq_true, if_false]
        exact ⟨settled, fun not_agent ↦ quiet (clear not_agent)⟩
  case once =>
    have once := agrees.once
    rw [if_neg waits] at once
    simp only [Journal.deliver, Function.update_self, List.length_append,
      List.length_singleton, free,
      if_true]
    exact once

theorem Agrees.deliver_of_ne {a : Word} {r : Partition} {j : Journal Th} {p q : Th}
    (agrees : Agrees a r j q) (ne : q ≠ p) (value : ℤ) : Agrees a r (j.deliver p value) q := by
  refine agrees.congr id (Function.update_of_ne ne ..) rfl ?_ rfl (Function.update_of_ne ne ..)
  rw [Journal.deliver]
  dsimp only
  split
  · exact Function.update_of_ne ne ..
  · rfl

/-- Where the walk along the list of an invariant state ends. -/
theorem Inv.walk {x : System Th} (inv : Inv allowed x) {nodes : List Th}
    (ordered : Ordered x.sched nodes) (perm : nodes.Perm x.journal.started) {fuel : ℕ}
    (enough : x.journal.started.length ≤ fuel) :
    ∃ next delivered s', thrdNext allowed fuel x.sched = some (next, delivered, s') ∧
      Scheduled allowed nodes x.sched next delivered s' :=
  thrdNextLoop_spec allowed (ordered.rnblHead ▸ ordered.chain) (fun _ ↦ rfl) inv.unavailable
    (perm.length_eq.le.trans enough) 0

omit [DecidableEq Th] in
theorem asserted_of_runs {s : Sched Th} {p : Th} (runs : s.Runs p) (blocked : s.Blocked p) :
    (s.partitions p).signalsWaiting &&& (s.partitions p).signalsAsserted ≠ 0 := by
  obtain asserted | ⟨free, -⟩ := runs
  · exact asserted
  · exact absurd blocked free

theorem Inv.schedule {x : System Th} (inv : Inv allowed x) :
    ∃ x', step allowed x .schedule = some x' ∧ Inv allowed x' := by
  obtain ⟨nodes, ordered, perm⟩ := inv.list
  obtain ⟨next, delivered, s', walked, scheduled⟩ := inv.walk ordered perm le_rfl
  have list : ∃ nodes, Ordered s' nodes ∧ nodes.Perm x.journal.started :=
    ⟨nodes, ordered.congr scheduled.links scheduled.priorities scheduled.listHead
      (scheduled.rnblHead.trans (ordered.rnblHead.trans scheduled.listHead.symm)), perm⟩
  have unavailable (p : Th) (avail : (s'.threads p).state = .retValAvail) : False :=
    inv.unavailable p (scheduled.unavailable p avail)
  rw [step, walked]
  cases next with
  | none =>
      refine ⟨_, rfl, list, unavailable, ?_⟩
      intro p
      dsimp only
      rw [scheduled.others p (by simp)]
      exact inv.agrees p
  | some p =>
      obtain ⟨runs, -, gets, left, -⟩ := scheduled.picks p rfl
      have others (q : Th) (ne : q ≠ p) : s'.partitions q = x.sched.partitions q :=
        scheduled.others q fun same ↦ ne (Option.some.inj same).symm
      rw [Sched.delivered] at gets
      by_cases blocked : x.sched.Blocked p
      · rw [if_pos blocked] at gets left
        subst gets
        refine ⟨_, rfl, list, unavailable, ?_⟩
        intro q
        dsimp only
        by_cases same : q = p
        · rw [same, left]
          exact (inv.agrees p).deliver (asserted_of_runs runs blocked)
        · rw [others q same]
          exact (inv.agrees q).deliver_of_ne same _
      · rw [if_neg blocked] at gets left
        subst gets
        refine ⟨_, rfl, list, unavailable, ?_⟩
        intro q
        dsimp only
        by_cases same : q = p
        · rw [same, left]
          exact inv.agrees p
        · rw [others q same]
          exact inv.agrees q

/-- Every step with one reply to a request keeps the invariant. -/
theorem Inv.step {x x' : System Th} (inv : Inv allowed x) {action : Action Th}
    (one : OneReply allowed x action) (stepped : step allowed x action = some x') :
    Inv allowed x' := by
  cases action with
  | start p priority =>
      by_cases fresh : p ∈ x.journal.started
      · rw [Scheduler.step, if_pos fresh] at stepped
        contradiction
      · obtain ⟨x'', stepped', inv'⟩ := inv.start fresh priority
        rw [stepped] at stepped'
        exact Option.some.inj stepped' ▸ inv'
  | setState p state =>
      rw [Scheduler.step] at stepped
      split at stepped
      · next accepted =>
          cases stepped
          exact inv.setState accepted.1 accepted.2
      · contradiction
  | wait p signals =>
      rw [Scheduler.step] at stepped
      split at stepped
      · next accepted =>
          cases stepped
          exact inv.wait accepted.1 accepted.2 signals false (fun asks ↦ by contradiction)
      · contradiction
  | request p =>
      rw [Scheduler.step] at stepped
      split at stepped
      · next accepted =>
          cases stepped
          exact inv.wait accepted.1 accepted.2.1 asyncMsgReply true (fun _ ↦ ⟨accepted.2.2, rfl⟩)
      · contradiction
  | assert p signals =>
      rw [Scheduler.step] at stepped
      split at stepped
      · contradiction
      · next accepted =>
          cases stepped
          exact inv.assert fun not_agent ↦ not_not.1 fun raised ↦ accepted ⟨not_agent, raised⟩
  | reply p value =>
      rw [Scheduler.step] at stepped
      split at stepped
      · next not_agent =>
          cases stepped
          exact inv.reply value (one not_agent).1 (one not_agent).2
      · next agent =>
          cases stepped
          exact inv.assert fun not_agent ↦ absurd not_agent agent
  | clear p signals =>
      rw [Scheduler.step] at stepped
      split at stepped
      · contradiction
      · next free =>
          cases stepped
          exact inv.clear free signals
  | schedule =>
      obtain ⟨x'', stepped', inv'⟩ := inv.schedule
      rw [stepped] at stepped'
      exact Option.some.inj stepped' ▸ inv'

/-- What a walk along the threads of the list should do. -/
structure Walked (allowed : Th → Word) (s : Sched Th) (nodes : List Th) (next : Option Th)
    (delivered : Option ℤ) (s' : Sched Th) : Prop where
  /-- A walk that picks no thread means that none may run. -/
  idle : next = none → delivered = none ∧ ∀ q ∈ nodes, ¬s.Runs q
  /-- The thread that is picked may run, and it is runnable then. -/
  runs : ∀ p, next = some p → s.Runs p ∧ (s'.threads p).state = .runnable ∧ ¬s'.Blocked p
  /-- It has the highest priority of those that may run. -/
  highest : ∀ p, next = some p → ∀ q ∈ nodes, s.Runs q → s.priority p ≤ s.priority q
  /-- It is the first of those in the list. -/
  first : ∀ p, next = some p →
    ∃ before after, nodes = before ++ p :: after ∧ ∀ q ∈ before, ¬s.Runs q
  /-- It gets its return value if it has been blocked. -/
  delivers : ∀ p, next = some p → delivered = s.delivered allowed p

/-- The scheduler does what it should in a state, with the threads of the list in their order. -/
structure SchedulerSound (allowed : Th → Word) (x : System Th) (nodes : List Th) : Prop where
  /-- These are the threads in the list. -/
  chain : Chain x.sched.next x.sched.listHead nodes
  /-- No thread is in the list twice. -/
  nodup : nodes.Nodup
  /-- The list holds the threads that have been created. -/
  created : ∀ p, p ∈ nodes ↔ p ∈ x.journal.started
  /-- The list is sorted by priority. -/
  sorted : nodes.Pairwise fun p q ↦ x.sched.priority p ≤ x.sched.priority q
  /-- Any other thread can be created. -/
  creates : ∀ p priority, p ∉ x.journal.started →
    (step allowed x (.start p priority)).isSome = true
  /-- A walk ends and picks the right thread. -/
  walks : ∀ fuel, x.journal.started.length ≤ fuel → ∃ next delivered s',
    thrdNext allowed fuel x.sched = some (next, delivered, s') ∧
      Walked allowed x.sched nodes next delivered s'
  /-- What a thread in a request gets is the return value that the reply has set. -/
  replied : ∀ p, x.journal.requesting p = true → x.sched.Runs p →
    ∃ value, x.sched.delivered allowed p = some value ∧
      x.journal.replies p = x.journal.answers p ++ [value]
  /-- A thread that is not blocked has got every return value that was set, once and in order. -/
  answered : ∀ p, ¬x.sched.Blocked p → x.journal.answers p = x.journal.replies p
  /-- A blocked thread has got them but for the one that it may run with. -/
  pending : ∀ p, x.journal.replies p = x.journal.answers p ∨ x.sched.Blocked p ∧ x.sched.Runs p ∧
    ∃ value, x.sched.delivered allowed p = some value ∧
      x.journal.replies p = x.journal.answers p ++ [value]
  /-- A thread gets one return value each time it is blocked. -/
  once : ∀ p, (x.journal.returned p).length + (if x.sched.Blocked p then 1 else 0) =
    x.journal.blocked p

omit [DecidableEq Th] in
/-- The first thread that may run has the highest priority of those. -/
theorem Scheduled.walked {nodes : List Th} {s s' : Sched Th} {next : Option Th}
    {delivered : Option ℤ} (scheduled : Scheduled allowed nodes s next delivered s')
    (sorted : nodes.Pairwise fun p q ↦ s.priority p ≤ s.priority q) :
    Walked allowed s nodes next delivered s' := by
  constructor
  case idle => exact scheduled.idle
  case runs =>
    intro p picked
    obtain ⟨runs, -, -, left, state⟩ := scheduled.picks p picked
    refine ⟨runs, state, ?_⟩
    rw [Sched.Blocked, left]
    split
    · exact not_not.2 (returnValue_spec _ _).1
    · next free => exact free
  case highest =>
    intro p picked q q_mem runs_q
    obtain ⟨-, ⟨before, after, split, stay⟩, -⟩ := scheduled.picks p picked
    rw [split] at q_mem sorted
    obtain behind | behind := List.mem_append.1 q_mem
    · exact absurd runs_q (stay q behind)
    · cases behind with
      | head => exact le_rfl
      | tail _ behind =>
          exact (List.pairwise_cons.1 (List.pairwise_append.1 sorted).2.1).1 q behind
  case first => exact fun p picked ↦ (scheduled.picks p picked).2.1
  case delivers => exact fun p picked ↦ (scheduled.picks p picked).2.2.1

omit [DecidableEq Th] in
/-- A thread whose request has been replied to may run with the return value. -/
theorem Agrees.replied {s : Sched Th} {j : Journal Th} {p : Th}
    (agrees : Agrees (allowed p) (s.partitions p) j p) (requesting : j.requesting p = true)
    (asserted : (s.partitions p).signalsWaiting &&& (s.partitions p).signalsAsserted ≠ 0) :
    ∃ value, s.delivered allowed p = some value ∧ j.replies p = j.answers p ++ [value] := by
  rw [Sched.delivered, if_pos (blocked_of_asserted asserted)]
  exact ⟨_, rfl, (agrees.pending requesting asserted).1⟩

theorem Inv.sound {x : System Th} (inv : Inv allowed x) :
    ∃ nodes, SchedulerSound allowed x nodes := by
  obtain ⟨nodes, ordered, perm⟩ := inv.list
  refine ⟨nodes, ?_⟩
  constructor
  case chain => exact ordered.chain
  case nodup => exact ordered.chain.nodup
  case created => exact fun p ↦ perm.mem_iff
  case sorted => exact ordered.sorted
  case creates =>
    intro p priority fresh
    obtain ⟨x', stepped, -⟩ := inv.start fresh priority
    rw [stepped]
    rfl
  case walks =>
    intro fuel enough
    obtain ⟨next, delivered, s', walked, scheduled⟩ := inv.walk ordered perm enough
    exact ⟨next, delivered, s', walked, scheduled.walked ordered.sorted⟩
  case replied =>
    intro p requesting runs
    obtain ⟨-, waits, -⟩ := (inv.agrees p).requesting requesting
    have blocked : x.sched.Blocked p := by
      rw [Sched.Blocked, waits]
      decide
    exact (inv.agrees p).replied requesting (asserted_of_runs runs blocked)
  case answered =>
    intro p free
    have agrees := inv.agrees p
    exact (agrees.idle (agrees.not_requesting (not_not.1 free))).1.symm
  case pending =>
    intro p
    have agrees := inv.agrees p
    cases requesting : x.journal.requesting p with
    | false => exact .inl (agrees.idle requesting).1
    | true =>
        obtain ⟨-, waits, ⟨-, settled⟩ | ⟨raised, -⟩⟩ := agrees.requesting requesting
        · exact .inl settled
        · have asserted : (x.sched.partitions p).signalsWaiting &&&
              (x.sched.partitions p).signalsAsserted ≠ 0 := by
            rw [waits, BitVec.and_comm]
            exact raised
          exact .inr ⟨blocked_of_asserted asserted, .inl asserted,
            agrees.replied requesting asserted⟩
  case once =>
    intro p
    rw [← (inv.agrees p).once]
    by_cases blocked : x.sched.Blocked p
    · rw [if_pos blocked, if_neg blocked]
    · rw [if_neg blocked, if_pos (not_not.1 blocked)]

/-- Whatever happens to threads, the scheduler does what it should if a request gets one reply. -/
theorem schedulerSound_of_oneReply {x x' : System Th} (initial : x.Initial)
    (reached : Run.Reaches (step allowed) (OneReply allowed) x x') :
    ∃ nodes, SchedulerSound allowed x' nodes := by
  have inv : Inv allowed x' := reached.invariant (inv_of_initial initial)
    fun before action after inv one stepped ↦ inv.step one stepped
  exact inv.sound

/-- Two partitions, of which none is a mailbox agent, before they are started. -/
def sampleSystem : System Bool :=
  ⟨⟨fun _ ↦ ⟨0, .creating, none⟩, fun _ ↦ ⟨0, 0, 0, none⟩, none, none⟩,
    ⟨[], fun _ ↦ false, fun _ ↦ [], fun _ ↦ [], fun _ ↦ 0, fun _ ↦ []⟩⟩

/-- The thread of higher priority makes a request and gets the reply. -/
def sampleActions : List (Action Bool) :=
  [.start true 0x1F, .start false 0xF, .schedule, .request false, .schedule, .reply false 7,
    .schedule]

theorem sampleSystem_initial : sampleSystem.Initial :=
  ⟨rfl, rfl, fun _ ↦ ⟨rfl, rfl, rfl⟩, rfl⟩

theorem schedulerSound_sampleActions :
    ∃ x, Run.exec (step fun _ ↦ 0) sampleSystem sampleActions = some x ∧
      x.journal.answers false = [7] ∧ ∃ nodes, SchedulerSound (fun _ ↦ 0) x nodes := by
  have answer : (Run.exec (step fun _ ↦ 0) sampleSystem sampleActions).map
      (fun x ↦ x.journal.answers false) = some [7] := by decide
  obtain ⟨x, executed, gets⟩ := Option.map_eq_some_iff.1 answer
  have one : Run.Allowed (step fun _ ↦ 0) (OneReply fun _ ↦ 0) sampleSystem sampleActions :=
    Run.allowed_of_decide (by decide)
  exact ⟨x, executed, gets,
    schedulerSound_of_oneReply sampleSystem_initial (Run.exec_reaches executed one)⟩

/-- A service of higher priority replies twice before its client runs. -/
def twiceReplied : List (Action Bool) :=
  [.start true 0xF, .start false 0x1F, .schedule, .wait true 0x10, .schedule, .request false,
    .assert true 0x10, .schedule, .reply false 7, .reply false 8, .clear true 0x10, .wait true 0x10,
    .schedule]

/-- The client gets the second return value, and never the first. -/
theorem not_schedulerSound : ¬∀ x x' : System Bool, x.Initial →
    Run.Reaches (step fun _ ↦ 0) unrestricted x x' →
      ∃ nodes, SchedulerSound (fun _ ↦ 0) x' nodes := by
  intro sound
  have lost : (Run.exec (step fun _ ↦ 0) sampleSystem twiceReplied).any (fun x ↦
      ¬x.sched.Blocked false ∧ x.journal.answers false = [8] ∧ x.journal.replies false = [7, 8]) =
      true := by decide
  obtain ⟨x, executed, delivered⟩ := (Option.any_eq_true ..).1 lost
  obtain ⟨free, answers, replies⟩ := of_decide_eq_true delivered
  obtain ⟨nodes, sound⟩ := sound sampleSystem x sampleSystem_initial
    (Run.exec_reaches executed (Run.allowed_true ..))
  have same := sound.answered false free
  rw [answers, replies] at same
  contradiction

end TrustedFirmwareM.Spm.Scheduler
