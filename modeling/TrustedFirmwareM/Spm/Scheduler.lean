import TrustedFirmwareM.Lib.Run
import TrustedFirmwareM.Spm.Backend

/-!
# The scheduler

Threads are in a list that is sorted by priority.  The scheduler walks along the list and asks for
the state of each thread, which depends on the signals that its partition waits for.  A thread whose
signals have been asserted gets its return value when the scheduler comes to it.
-/

namespace TrustedFirmwareM.Spm.Scheduler

open LinkedList

/-- `THRD_STATE_*`. -/
inductive ThreadState
  | creating | runnable | block | detach | invalid | retValAvail
  deriving DecidableEq

/-- `struct thread_t`. -/
structure Thread (Th : Type) where
  /-- Priority.  A lower value has a higher priority. -/
  priority : BitVec 8
  /-- State. -/
  state : ThreadState
  /-- Next thread in list. -/
  next : Option Th

/-- The threads and the partitions that they run for. -/
structure Sched (Th : Type) where
  /-- The thread structures. -/
  threads : Th → Thread Th
  /-- The partition of each thread. -/
  partitions : Th → Partition
  /-- `p_thrd_head`. -/
  listHead : Option Th
  /-- `p_rnbl_head`. -/
  rnblHead : Option Th

/-- Clear signals. -/
def clearAsserted (r : Partition) (signals : Word) : Partition :=
  { r with signalsAsserted := r.signalsAsserted &&& ~~~signals }

/-- `query_state` of a thread that may get a return value: the value and the partition left. -/
def returnValue (allowed : Word) (r : Partition) : ℤ × Partition :=
  let retvalSignals := r.signalsWaiting &&& r.signalsAsserted
  let (retval, r) :=
    if retvalSignals = asyncMsgReply ∧ allowed &&& asyncMsgReply ≠ asyncMsgReply then
      (r.replyValue, clearAsserted r asyncMsgReply)
    else (retvalSignals.toInt, r)
  (retval, { r with signalsWaiting := 0 })

/-- `query_state`: the state, the return value and the partition left. -/
def queryState (allowed : Word) (state : ThreadState) (r : Partition) (retval : ℤ) :
    ThreadState × ℤ × Partition :=
  if r.signalsWaiting &&& r.signalsAsserted ≠ 0 then (.retValAvail, returnValue allowed r)
  else if r.signalsWaiting ≠ 0 then (.block, retval, r)
  else (state, retval, r)

/-- `backend_wait_signals`. -/
def waitSignals (r : Partition) (signals : Word) : Word × Partition :=
  let ret := r.signalsAsserted &&& signals
  (ret, if ret = 0 then { r with signalsWaiting := signals } else r)

/-- `backend_assert_signal`. -/
def assertSignal (r : Partition) (signal : Word) : Partition :=
  { r with signalsAsserted := r.signalsAsserted ||| signal }

section

variable {Pt Svc : Type} [DecidableEq Pt] (s : State Pt Svc) (p : Pt)

/-- The query is the one of the partition manager. -/
theorem spm_queryState_eq (P : Platform Pt Svc) : Spm.queryState P s p =
    if (s.partitions p).signalsWaiting &&& (s.partitions p).signalsAsserted = 0 then none
    else
      some ((returnValue (P.signalsAllowed p) (s.partitions p)).1,
        s.setPartition p (returnValue (P.signalsAllowed p) (s.partitions p)).2) := by
  rw [Spm.queryState, returnValue]
  dsimp only
  split
  · rfl
  · split <;> rfl

theorem spm_backendWaitSignals_eq (signals : Word) : (backendWaitSignals s p signals).2 =
    if (s.partitions p).signalsAsserted &&& signals = 0 then
      s.setPartition p (waitSignals (s.partitions p) signals).2
    else s := by
  rw [backendWaitSignals, waitSignals]
  dsimp only
  split <;> rfl

theorem spm_backendAssertSignal_eq (signal : Word) : (backendAssertSignal s p signal).2 =
    s.setPartition p (assertSignal (s.partitions p) signal) := rfl

end

section

variable {Th : Type} [DecidableEq Th]

/-- Replace a thread structure. -/
def Sched.setThread (s : Sched Th) (p : Th) (t : Thread Th) : Sched Th :=
  { s with threads := Function.update s.threads p t }

/-- Replace the partition of a thread. -/
def Sched.setPartition (s : Sched Th) (p : Th) (r : Partition) : Sched Th :=
  { s with partitions := Function.update s.partitions p r }

/-- The link of each thread. -/
def Sched.next (s : Sched Th) (p : Th) : Option Th := (s.threads p).next

/-- The priority of each thread. -/
def Sched.priority (s : Sched Th) (p : Th) : ℕ := (s.threads p).priority.toNat

/-- The loop of `thrd_next`, which ends at a thread to run or at the end of the list.  It gives the
thread, the return value that is put into its context, and the state left. -/
def thrdNextLoop (allowed : Th → Word) :
    ℕ → Option Th → ℤ → Sched Th → Option (Option Th × Option ℤ × Sched Th)
  | _, none, _, s => some (none, none, s)
  | 0, some _, _, _ => none
  | fuel + 1, some p, retval, s =>
      let (state, retval, r) := queryState (allowed p) (s.threads p).state (s.partitions p) retval
      let s := (s.setPartition p r).setThread p { s.threads p with state }
      let (delivered, s) :=
        if state = .retValAvail then
          (some retval, s.setThread p { s.threads p with state := .runnable })
        else (none, s)
      if (s.threads p).state = .runnable then some (some p, delivered, s)
      else thrdNextLoop allowed fuel (s.next p) retval s

/-- `thrd_next`. -/
def thrdNext (allowed : Th → Word) (fuel : ℕ) (s : Sched Th) :
    Option (Option Th × Option ℤ × Sched Th) :=
  thrdNextLoop allowed fuel s.rnblHead 0 s

/-- The loop of `insert_by_prior`: the thread behind which a node goes. -/
def insertLoop (s : Sched Th) (node : Th) : ℕ → Th → Option Th
  | 0, _ => none
  | fuel + 1, iter =>
      match s.next iter with
      | none => some iter
      | some next =>
          if s.priority next < s.priority node then insertLoop s node fuel next else some iter

/-- `insert_by_prior`. -/
def insertByPrior (fuel : ℕ) (s : Sched Th) (node : Th) : Option (Sched Th) :=
  match s.listHead with
  | none => some
      { s.setThread node { s.threads node with next := none } with listHead := some node }
  | some head =>
      if s.priority node ≤ s.priority head then
        some { s.setThread node { s.threads node with next := head } with listHead := some node }
      else do
        let iter ← insertLoop s node fuel head
        let s := s.setThread node { s.threads node with next := s.next iter }
        return s.setThread iter { s.threads iter with next := some node }

/-- `thrd_set_state`. -/
def thrdSetState (s : Sched Th) (p : Th) (state : ThreadState) : Sched Th :=
  let s := s.setThread p { s.threads p with state }
  if state = .runnable ∧ s.rnblHead.all fun head ↦ s.priority p < s.priority head then
    { s with rnblHead := some p }
  else { s with rnblHead := s.listHead }

/-- `THRD_INIT` and `thrd_start`. -/
def thrdStart (fuel : ℕ) (s : Sched Th) (p : Th) (priority : BitVec 8) : Option (Sched Th) := do
  let s := s.setThread p { s.threads p with priority, state := .creating }
  let s ← insertByPrior fuel s p
  return thrdSetState s p .runnable

end

/-- What has happened so far, as far as the scheduler is judged by it. -/
structure Journal (Th : Type) where
  /-- The threads that have been created. -/
  started : List Th
  /-- The thread is in a request that has not returned. -/
  requesting : Th → Bool
  /-- The return values that replies have set for the thread. -/
  replies : Th → List ℤ
  /-- The return values that requests of the thread have returned with. -/
  answers : Th → List ℤ
  /-- How often the thread has been blocked. -/
  blocked : Th → ℕ
  /-- The return values that have been put into the context of the thread. -/
  returned : Th → List ℤ

/-- The scheduler with its journal. -/
structure System (Th : Type) where
  /-- The scheduler. -/
  sched : Sched Th
  /-- The journal. -/
  journal : Journal Th

/-- What can happen to threads. -/
inductive Action (Th : Type)
  /-- A thread is created. -/
  | start (p : Th) (priority : BitVec 8)
  /-- The state of a thread is set. -/
  | setState (p : Th) (state : ThreadState)
  /-- `psa_wait`, which blocks. -/
  | wait (p : Th) (signals : Word)
  /-- A client function, which waits for the reply. -/
  | request (p : Th)
  /-- A signal is asserted. -/
  | assert (p : Th) (signals : Word)
  /-- A service replies to the request of a thread. -/
  | reply (p : Th) (value : ℤ)
  /-- The running partition clears signals. -/
  | clear (p : Th) (signals : Word)
  /-- The scheduler picks a thread. -/
  | schedule

section

variable {Th : Type} [DecidableEq Th]

/-- A thread is blocked. -/
def Sched.Blocked (s : Sched Th) (p : Th) : Prop := (s.partitions p).signalsWaiting ≠ 0

instance (s : Sched Th) (p : Th) : Decidable (s.Blocked p) := inferInstanceAs (Decidable (_ ≠ _))

/-- Wait for signals, and note when that blocks the thread. -/
def System.wait (x : System Th) (p : Th) (signals : Word) (request : Bool) : System Th :=
  let (ret, r) := waitSignals (x.sched.partitions p) signals
  ⟨x.sched.setPartition p r,
    if ret = 0 ∧ signals ≠ 0 then
      { x.journal with
        blocked := Function.update x.journal.blocked p (x.journal.blocked p + 1)
        requesting := Function.update x.journal.requesting p request }
    else x.journal⟩

/-- Note the return value that a thread has got. -/
def Journal.deliver (j : Journal Th) (p : Th) (value : ℤ) : Journal Th :=
  { j with
    returned := Function.update j.returned p (j.returned p ++ [value])
    answers := if j.requesting p then Function.update j.answers p (j.answers p ++ [value])
      else j.answers
    requesting := Function.update j.requesting p false }

/-- One step.  The signals that a partition is allowed to wait for tell whether it is a mailbox
agent, for which the reply signal is like any other signal. -/
def step (allowed : Th → Word) (x : System Th) : Action Th → Option (System Th)
  | .start p priority =>
      if p ∈ x.journal.started then none
      else do
        let sched ← thrdStart (x.journal.started.length + 1) x.sched p priority
        return ⟨sched, { x.journal with started := p :: x.journal.started }⟩
  | .setState p state =>
      -- a return value becomes available by the query only
      if p ∈ x.journal.started ∧ state ≠ .retValAvail then
        some { x with sched := thrdSetState x.sched p state }
      else none
  | .wait p signals =>
      if p ∈ x.journal.started ∧ ¬x.sched.Blocked p then some (x.wait p signals false) else none
  | .request p =>
      if p ∈ x.journal.started ∧ ¬x.sched.Blocked p ∧ allowed p &&& asyncMsgReply = 0 then
        some (x.wait p asyncMsgReply true)
      else none
  | .assert p signals =>
      -- only a reply asserts the reply signal of a partition that is not an agent
      if allowed p &&& asyncMsgReply = 0 ∧ signals &&& asyncMsgReply ≠ 0 then none
      else some { x with
        sched := x.sched.setPartition p (assertSignal (x.sched.partitions p) signals) }
  | .reply p value =>
      if allowed p &&& asyncMsgReply = 0 then
        some ⟨x.sched.setPartition p
            (assertSignal { x.sched.partitions p with replyValue := value } asyncMsgReply),
          { x.journal with
            replies := Function.update x.journal.replies p (x.journal.replies p ++ [value]) }⟩
      else
        -- the value for an agent stays in the message
        some { x with
          sched := x.sched.setPartition p (assertSignal (x.sched.partitions p) asyncMsgReply) }
  | .clear p signals =>
      if x.sched.Blocked p then none
      else
        some { x with
          sched := x.sched.setPartition p (clearAsserted (x.sched.partitions p) signals) }
  | .schedule => do
      let (next, delivered, sched) ← thrdNext allowed x.journal.started.length x.sched
      match next, delivered with
      | some p, some value => return ⟨sched, x.journal.deliver p value⟩
      | _, _ => return { x with sched }

/-- The state before any thread is created, in which memory holds zeros. -/
def System.Initial (x : System Th) : Prop :=
  x.sched.listHead = none ∧ x.sched.rnblHead = none ∧
    (∀ p, (x.sched.threads p).state = .creating ∧ (x.sched.partitions p).signalsWaiting = 0 ∧
      (x.sched.partitions p).signalsAsserted = 0) ∧
    x.journal = ⟨[], fun _ ↦ false, fun _ ↦ [], fun _ ↦ [], fun _ ↦ 0, fun _ ↦ []⟩

/-- Nothing restricts the actions of a run. -/
def unrestricted (_ : System Th) (_ : Action Th) : Prop := True

/-- A reply goes to a thread in a request, and none is pending. -/
def OneReply (allowed : Th → Word) (x : System Th) : Action Th → Prop
  | .reply p _ => allowed p &&& asyncMsgReply = 0 → x.journal.requesting p = true ∧
      (x.sched.partitions p).signalsAsserted &&& asyncMsgReply = 0
  | _ => True

instance (allowed : Th → Word) (x : System Th) : DecidablePred (OneReply allowed x)
  | .reply _ _ => inferInstanceAs (Decidable (_ → _ ∧ _))
  | .start .. | .setState .. | .wait .. | .request .. | .assert .. | .clear .. | .schedule =>
      .isTrue trivial

/-- A thread may run: what it waits for is asserted, or it waits for nothing and is runnable. -/
def Sched.Runs (s : Sched Th) (p : Th) : Prop :=
  (s.partitions p).signalsWaiting &&& (s.partitions p).signalsAsserted ≠ 0 ∨
    ¬s.Blocked p ∧ (s.threads p).state = .runnable

/-! ## Insertion -/

@[simp] theorem setThread_self (s : Sched Th) (p : Th) (t : Thread Th) :
    (s.setThread p t).threads p = t := Function.update_self ..

theorem setThread_of_ne (s : Sched Th) {p q : Th} (t : Thread Th) (ne : q ≠ p) :
    (s.setThread p t).threads q = s.threads q := Function.update_of_ne ne ..

@[simp] theorem setThread_partitions (s : Sched Th) (p : Th) (t : Thread Th) :
    (s.setThread p t).partitions = s.partitions := rfl

@[simp] theorem setThread_listHead (s : Sched Th) (p : Th) (t : Thread Th) :
    (s.setThread p t).listHead = s.listHead := rfl

@[simp] theorem setThread_rnblHead (s : Sched Th) (p : Th) (t : Thread Th) :
    (s.setThread p t).rnblHead = s.rnblHead := rfl

@[simp] theorem setPartition_self (s : Sched Th) (p : Th) (r : Partition) :
    (s.setPartition p r).partitions p = r := Function.update_self ..

theorem setPartition_of_ne (s : Sched Th) {p q : Th} (r : Partition) (ne : q ≠ p) :
    (s.setPartition p r).partitions q = s.partitions q := Function.update_of_ne ne ..

/-- Only links differ. -/
structure Relinked (s s' : Sched Th) : Prop where
  /-- Priorities are the same. -/
  priority : ∀ q, (s'.threads q).priority = (s.threads q).priority
  /-- States are the same. -/
  state : ∀ q, (s'.threads q).state = (s.threads q).state
  /-- Partitions are the same. -/
  partitions : s'.partitions = s.partitions
  /-- The first runnable thread is the same. -/
  rnblHead : s'.rnblHead = s.rnblHead

theorem Relinked.setThread {s s' : Sched Th} (relinked : Relinked s s') (p : Th)
    (next : Option Th) : Relinked s (s'.setThread p { s'.threads p with next }) := by
  constructor
  case priority =>
    intro q
    by_cases same : q = p
    · subst same
      rw [setThread_self]
      exact relinked.priority q
    · rw [setThread_of_ne _ _ same]
      exact relinked.priority q
  case state =>
    intro q
    by_cases same : q = p
    · subst same
      rw [setThread_self]
      exact relinked.state q
    · rw [setThread_of_ne _ _ same]
      exact relinked.state q
  case partitions => exact relinked.partitions
  case rnblHead => exact relinked.rnblHead

omit [DecidableEq Th] in
theorem Relinked.refl (s : Sched Th) : Relinked s s := ⟨fun _ ↦ rfl, fun _ ↦ rfl, rfl, rfl⟩

omit [DecidableEq Th] in
theorem Relinked.withHead {s s' : Sched Th} (relinked : Relinked s s') (head : Option Th) :
    Relinked s { s' with listHead := head } :=
  ⟨relinked.priority, relinked.state, relinked.partitions, relinked.rnblHead⟩

omit [DecidableEq Th] in
/-- The loop stops behind the last thread whose priority is higher than that of the node. -/
theorem insertLoop_spec {s : Sched Th} {node iter : Th} {rest : List Th} {fuel : ℕ}
    (chain : Chain s.next (some iter) (iter :: rest)) (enough : rest.length < fuel)
    (sorted : (iter :: rest).Pairwise fun p q ↦ s.priority p ≤ s.priority q)
    (higher : s.priority iter < s.priority node) :
    ∃ before holder after, insertLoop s node fuel iter = some holder ∧
      iter :: rest = before ++ holder :: after ∧
      (∀ q ∈ before ++ [holder], s.priority q ≤ s.priority node) ∧
      ∀ q ∈ after, s.priority node ≤ s.priority q := by
  induction rest generalizing iter fuel with
  | nil =>
      obtain ⟨fuel, rfl⟩ := Nat.exists_eq_succ_of_ne_zero (Nat.ne_zero_of_lt enough)
      cases chain with
      | cons tail =>
          generalize link_eq : s.next iter = link at tail
          cases tail
          refine ⟨[], iter, [], ?_, rfl, ?_, by simp⟩
          · rw [insertLoop, link_eq]
          · simpa using higher.le
  | cons second rest ih =>
      obtain ⟨fuel, rfl⟩ := Nat.exists_eq_succ_of_ne_zero (Nat.ne_zero_of_lt enough)
      cases chain with
      | cons tail =>
          generalize link_eq : s.next iter = link at tail
          obtain rfl : link = some second := by cases tail; rfl
          rw [insertLoop, link_eq]
          dsimp only
          split
          · next lower =>
              obtain ⟨before, holder, after, found, split, above, below⟩ :=
                ih tail (by simpa using enough) (List.pairwise_cons.1 sorted).2 lower
              refine ⟨iter :: before, holder, after, found, congrArg (iter :: ·) split, ?_, below⟩
              simpa using ⟨higher.le, by simpa using above⟩
          · next not_lower =>
              refine ⟨[], iter, second :: rest, rfl, rfl, by simpa using higher.le, ?_⟩
              have second_le : s.priority node ≤ s.priority second := not_lt.1 not_lower
              intro q q_mem
              cases q_mem with
              | head => exact second_le
              | tail _ q_mem =>
                  have behind := (List.pairwise_cons.1 (List.pairwise_cons.1 sorted).2).1 q q_mem
                  exact second_le.trans behind

/-- A thread is inserted behind those of higher priority. -/
theorem insertByPrior_spec {s : Sched Th} {node : Th} {nodes : List Th} {fuel : ℕ}
    (chain : Chain s.next s.listHead nodes) (fresh : node ∉ nodes) (enough : nodes.length ≤ fuel)
    (sorted : nodes.Pairwise fun p q ↦ s.priority p ≤ s.priority q) :
    ∃ before after s', insertByPrior fuel s node = some s' ∧ nodes = before ++ after ∧
      Chain s'.next s'.listHead (before ++ node :: after) ∧
      (∀ q ∈ before, s.priority q ≤ s.priority node) ∧
      (∀ q ∈ after, s.priority node ≤ s.priority q) ∧ Relinked s s' := by
  -- the node in front of the list
  have in_front : Chain (s.setThread node { s.threads node with next := s.listHead }).next
      (some node) (node :: nodes) := by
    refine .cons ?_
    rw [Sched.next, setThread_self]
    refine chain.congr fun q q_mem ↦ ?_
    rw [Sched.next, setThread_of_ne]
    · rfl
    · exact ne_of_mem_of_not_mem q_mem fresh
  cases chain_head : s.listHead with
  | none =>
      rw [chain_head] at chain in_front
      cases chain
      refine ⟨[], [], _, by rw [insertByPrior, chain_head], rfl, in_front, by simp, by simp, ?_⟩
      exact ((Relinked.refl s).setThread node none).withHead (some node)
  | some head =>
      rw [chain_head] at chain in_front
      obtain ⟨rest, rfl⟩ : ∃ rest, nodes = head :: rest := by
        cases chain
        exact ⟨_, rfl⟩
      by_cases first : s.priority node ≤ s.priority head
      · refine ⟨[], head :: rest, _, by simp only [insertByPrior, chain_head, if_pos first], rfl,
          in_front, by simp, ?_,
          ((Relinked.refl s).setThread node (some head)).withHead (some node)⟩
        intro q q_mem
        cases q_mem with
        | head => exact first
        | tail _ q_mem => exact first.trans ((List.pairwise_cons.1 sorted).1 q q_mem)
      · obtain ⟨before, holder, after, found, split, above, below⟩ :=
          insertLoop_spec chain (by simpa using enough) sorted (not_le.1 first)
        rw [split] at chain fresh
        have holder_ne : holder ≠ node := by
          rintro rfl
          exact fresh (by simp)
        refine ⟨before ++ [holder], after, _, ?_, by simpa using split, ?_, above, below,
          ((Relinked.refl s).setThread node (s.next holder)).setThread holder (some node)⟩
        · rw [insertByPrior, chain_head]
          dsimp only
          rw [if_neg first, found]
          rfl
        · rw [List.append_assoc]
          refine Chain.insert (chain_head ▸ chain) fresh ?_ ?_ ?_
          · rw [Sched.next, setThread_of_ne _ _ holder_ne.symm, setThread_self]
          · rw [Sched.next, setThread_self]
          · intro other other_ne_node other_ne_holder
            rw [Sched.next, setThread_of_ne _ _ other_ne_holder, setThread_of_ne _ _ other_ne_node]
            rfl

/-- The list holds these threads in order of priority, and a walk starts at its head. -/
structure Ordered (s : Sched Th) (nodes : List Th) : Prop where
  /-- The links lead through the threads. -/
  chain : Chain s.next s.listHead nodes
  /-- The threads are sorted by priority. -/
  sorted : nodes.Pairwise fun p q ↦ s.priority p ≤ s.priority q
  /-- The cached pointer is the head of the list. -/
  rnblHead : s.rnblHead = s.listHead

omit [DecidableEq Th] in
theorem Ordered.congr {s s' : Sched Th} {nodes : List Th} (ordered : Ordered s nodes)
    (next : ∀ p, s'.next p = s.next p) (priority : ∀ p, s'.priority p = s.priority p)
    (listHead : s'.listHead = s.listHead) (rnblHead : s'.rnblHead = s'.listHead) :
    Ordered s' nodes := by
  constructor
  case chain =>
    rw [listHead]
    exact ordered.chain.congr fun p _ ↦ next p
  case sorted => simpa only [priority] using ordered.sorted
  case rnblHead => exact rnblHead

theorem setThread_state_next (s : Sched Th) (p : Th) (state : ThreadState) (q : Th) :
    (s.setThread p { s.threads p with state }).next q = s.next q := by
  by_cases same : q = p
  · subst same
    rw [Sched.next, setThread_self]
    rfl
  · rw [Sched.next, setThread_of_ne _ _ same]
    rfl

theorem setThread_state_priority (s : Sched Th) (p : Th) (state : ThreadState) (q : Th) :
    (s.setThread p { s.threads p with state }).priority q = s.priority q := by
  by_cases same : q = p
  · subst same
    rw [Sched.priority, setThread_self]
    rfl
  · rw [Sched.priority, setThread_of_ne _ _ same]
    rfl

omit [DecidableEq Th] in
/-- The head of a sorted list has the highest priority. -/
theorem head_le {s : Sched Th} {nodes : List Th} {head p : Th}
    (chain : Chain s.next (some head) nodes)
    (sorted : nodes.Pairwise fun p q ↦ s.priority p ≤ s.priority q) (p_mem : p ∈ nodes) :
    s.priority head ≤ s.priority p := by
  cases chain with
  | cons tail =>
      cases p_mem with
      | head => exact le_rfl
      | tail _ p_mem => exact (List.pairwise_cons.1 sorted).1 p p_mem

theorem thrdSetState_eq (s : Sched Th) (p : Th) (state : ThreadState) :
    ∃ head, thrdSetState s p state =
        { s.setThread p { s.threads p with state } with rnblHead := head } ∧
      (head = s.listHead ∨
        head = some p ∧ s.rnblHead.all (fun head ↦ s.priority p < s.priority head) = true) := by
  rw [thrdSetState]
  dsimp only
  split
  · next front =>
      refine ⟨some p, rfl, .inr ⟨rfl, ?_⟩⟩
      simpa only [setThread_state_priority, setThread_rnblHead] using front.2
  · exact ⟨s.listHead, rfl, .inl rfl⟩

/-- After the state of a thread is set, a walk starts at the head of the list, if that is so for a
thread that has a higher priority than the first runnable one. -/
theorem ordered_thrdSetState {s : Sched Th} {nodes : List Th} {p : Th} (state : ThreadState)
    (chain : Chain s.next s.listHead nodes)
    (sorted : nodes.Pairwise fun p q ↦ s.priority p ≤ s.priority q)
    (front : s.rnblHead.all (fun head ↦ s.priority p < s.priority head) = true →
      s.listHead = some p) : Ordered (thrdSetState s p state) nodes := by
  obtain ⟨head, set_eq, head_eq⟩ := thrdSetState_eq s p state
  rw [set_eq]
  constructor
  case chain => exact chain.congr fun q _ ↦ setThread_state_next s p state q
  case sorted =>
    have same (q : Th) := setThread_state_priority s p state q
    exact sorted.imp fun {q r} le ↦ ((same q).trans_le le).trans_eq (same r).symm
  case rnblHead =>
    obtain rfl | ⟨rfl, above⟩ := head_eq
    · rfl
    · exact (front above).symm

theorem Ordered.setState {s : Sched Th} {nodes : List Th} (ordered : Ordered s nodes) {p : Th}
    (p_mem : p ∈ nodes) (state : ThreadState) : Ordered (thrdSetState s p state) nodes := by
  apply ordered_thrdSetState state ordered.chain ordered.sorted
  intro above
  have chain := ordered.chain
  rw [ordered.rnblHead] at above
  cases head_eq : s.listHead with
  | none =>
      rw [head_eq] at chain
      cases chain
      contradiction
  | some head =>
      rw [head_eq] at chain above
      have le := head_le chain ordered.sorted p_mem
      simp only [Option.all_some, decide_eq_true_eq] at above
      omega

/-- A thread that is created takes its place in the list. -/
theorem thrdStart_spec {s : Sched Th} {nodes : List Th} (ordered : Ordered s nodes) {p : Th}
    (fresh : p ∉ nodes) {fuel : ℕ} (enough : nodes.length ≤ fuel) (priority : BitVec 8) :
    ∃ s' nodes', thrdStart fuel s p priority = some s' ∧ Ordered s' nodes' ∧
      nodes'.Perm (p :: nodes) ∧ s'.partitions = s.partitions ∧
      ∀ q, (s'.threads q).state = .retValAvail → (s.threads q).state = .retValAvail := by
  let t : Thread Th := { s.threads p with priority, state := .creating }
  have others (q : Th) (q_mem : q ∈ nodes) : (s.setThread p t).threads q = s.threads q :=
    setThread_of_ne s t (ne_of_mem_of_not_mem q_mem fresh)
  have chain : Chain (s.setThread p t).next s.listHead nodes :=
    ordered.chain.congr fun q q_mem ↦ congrArg Thread.next (others q q_mem)
  have sorted : nodes.Pairwise fun q r ↦
      (s.setThread p t).priority q ≤ (s.setThread p t).priority r := by
    refine ordered.sorted.imp_of_mem fun {q r} q_mem r_mem le ↦ ?_
    rw [Sched.priority, Sched.priority, others q q_mem, others r r_mem]
    exact le
  obtain ⟨before, after, s', inserted, rfl, chain', above, below, relinked⟩ :=
    insertByPrior_spec chain fresh enough sorted
  have same (q : Th) : s'.priority q = (s.setThread p t).priority q :=
    congrArg BitVec.toNat (relinked.priority q)
  have above' (q : Th) (q_mem : q ∈ before) : s'.priority q ≤ s'.priority p := by
    rw [same, same]
    exact above q q_mem
  have below' (q : Th) (q_mem : q ∈ after) : s'.priority p ≤ s'.priority q := by
    rw [same, same]
    exact below q q_mem
  obtain ⟨head, set_eq, -⟩ := thrdSetState_eq s' p .runnable
  refine ⟨thrdSetState s' p .runnable, before ++ p :: after, ?_, ?_, List.perm_middle, ?_, ?_⟩
  · rw [thrdStart]
    exact congrArg (Option.bind · fun s ↦ some (thrdSetState s p .runnable)) inserted
  · apply ordered_thrdSetState _ chain'
    · have sorted' : (before ++ after).Pairwise fun q r ↦ s'.priority q ≤ s'.priority r :=
        sorted.imp fun {q r} le ↦ ((same q).trans_le le).trans_eq (same r).symm
      obtain ⟨sorted_before, sorted_after, across⟩ := List.pairwise_append.1 sorted'
      refine List.pairwise_append.2 ⟨sorted_before, List.pairwise_cons.2 ⟨below', sorted_after⟩, ?_⟩
      intro q q_mem r r_mem
      cases r_mem with
      | head => exact above' q q_mem
      | tail _ r_mem => exact across q q_mem r r_mem
    · intro ahead
      cases before with
      | nil =>
          cases chain'_head : s'.listHead with
          | none =>
              rw [chain'_head] at chain'
              contradiction
          | some head =>
              rw [chain'_head] at chain'
              cases chain'
              rfl
      | cons head before =>
          -- the head of the list is where walks have started, and it is not below the new thread
          have cached : s'.rnblHead = some head := by
            rw [relinked.rnblHead, setThread_rnblHead, ordered.rnblHead]
            generalize s.listHead = link at chain
            cases chain
            rfl
          rw [cached] at ahead
          have le := above' head List.mem_cons_self
          simp only [Option.all_some, decide_eq_true_eq] at ahead
          omega
  · rw [set_eq]
    exact relinked.partitions
  · intro q avail
    rw [set_eq] at avail
    by_cases same_q : q = p
    · subst same_q
      simp at avail
    · have state_q := relinked.state q
      rw [setThread_of_ne _ _ same_q] at state_q
      dsimp only at avail
      rw [setThread_of_ne _ _ same_q, state_q] at avail
      exact avail

/-! ## Walks -/

theorem setPartition_partitions (s : Sched Th) (p : Th) :
    s.setPartition p (s.partitions p) = s := by
  rw [Sched.setPartition, Function.update_eq_self]

theorem setThread_setThread (s : Sched Th) (p : Th) (t t' : Thread Th) :
    (s.setThread p t).setThread p t' = s.setThread p t' := by
  simp only [Sched.setThread, Function.update_idem]

/-- The state of a thread that has been passed. -/
def Sched.skipped (s : Sched Th) (p : Th) : Sched Th :=
  s.setThread p { s.threads p with state := if s.Blocked p then .block else (s.threads p).state }

/-- The state when a thread is picked. -/
def Sched.picked (allowed : Th → Word) (s : Sched Th) (p : Th) : Sched Th :=
  (if s.Blocked p then s.setPartition p
    (returnValue (allowed p) (s.partitions p)).2 else s).setThread
    p { s.threads p with state := .runnable }

/-- The return value that a thread gets when it is picked. -/
def Sched.delivered (allowed : Th → Word) (s : Sched Th) (p : Th) : Option ℤ :=
  if s.Blocked p then some (returnValue (allowed p) (s.partitions p)).1 else none

omit [DecidableEq Th] in
theorem not_runs_iff {s : Sched Th} {p : Th} : ¬s.Runs p ↔
    (s.partitions p).signalsWaiting &&& (s.partitions p).signalsAsserted = 0 ∧
      (¬s.Blocked p → (s.threads p).state ≠ .runnable) := by
  rw [Sched.Runs, not_or, not_not, not_and]

omit [DecidableEq Th] in
theorem blocked_of_asserted {s : Sched Th} {p : Th}
    (asserted : (s.partitions p).signalsWaiting &&& (s.partitions p).signalsAsserted ≠ 0) :
    s.Blocked p := by
  intro zero
  rw [zero] at asserted
  exact asserted BitVec.zero_and

theorem queryState_of_asserted {r : Partition}
    (asserted : r.signalsWaiting &&& r.signalsAsserted ≠ 0) (allowed : Word) (state : ThreadState)
    (retval : ℤ) : queryState allowed state r retval = (.retValAvail, returnValue allowed r) :=
  if_pos asserted

theorem queryState_of_waiting {r : Partition}
    (none_asserted : r.signalsWaiting &&& r.signalsAsserted = 0) (waits : r.signalsWaiting ≠ 0)
    (allowed : Word) (state : ThreadState) (retval : ℤ) :
    queryState allowed state r retval = (.block, retval, r) := by
  rw [queryState, if_neg (not_not.2 none_asserted), if_pos waits]

theorem queryState_of_free {r : Partition} (free : r.signalsWaiting = 0) (allowed : Word)
    (state : ThreadState)
    (retval : ℤ) : queryState allowed state r retval = (state, retval, r) := by
  have none_asserted : r.signalsWaiting &&& r.signalsAsserted = 0 := by
    rw [free]
    exact BitVec.zero_and
  rw [queryState, if_neg (not_not.2 none_asserted), if_neg (not_not.2 free)]

theorem thrdNextLoop_of_runs {allowed : Th → Word} {s : Sched Th} {p : Th} (runs : s.Runs p)
    (fuel : ℕ) (retval : ℤ) : thrdNextLoop allowed (fuel + 1) (some p) retval s =
      some (some p, s.delivered allowed p, s.picked allowed p) := by
  rw [thrdNextLoop, Sched.delivered, Sched.picked]
  obtain asserted | ⟨free, runnable⟩ := runs
  · have blocked : s.Blocked p := blocked_of_asserted asserted
    simp only [queryState_of_asserted asserted, if_pos blocked, if_true, setThread_self,
      setThread_setThread]
  · simp only [queryState_of_free (not_not.1 free), if_neg free, runnable, setThread_self,
      setPartition_partitions, reduceCtorEq, if_false, if_true]

theorem thrdNextLoop_of_not_runs {allowed : Th → Word} {s : Sched Th} {p : Th} (stays : ¬s.Runs p)
    (unavailable : (s.threads p).state ≠ .retValAvail) (fuel : ℕ) (retval : ℤ) :
    thrdNextLoop allowed (fuel + 1) (some p) retval s =
      thrdNextLoop allowed fuel (s.next p) retval (s.skipped p) := by
  obtain ⟨none_asserted, not_runnable⟩ := not_runs_iff.1 stays
  rw [thrdNextLoop, Sched.skipped]
  by_cases blocked : s.Blocked p
  · simp only [queryState_of_waiting none_asserted blocked, setPartition_partitions, setThread_self,
      reduceCtorEq, if_false, if_pos blocked, setThread_state_next]
  · simp only [queryState_of_free (not_not.1 blocked), setPartition_partitions, setThread_self,
      if_neg blocked, if_neg unavailable, if_neg (not_runnable blocked), setThread_state_next]

/-- What a walk along threads does. -/
structure Scheduled (allowed : Th → Word) (nodes : List Th) (s : Sched Th) (next : Option Th)
    (delivered : Option ℤ) (s' : Sched Th) : Prop where
  /-- Links are kept. -/
  links : ∀ q, s'.next q = s.next q
  /-- Priorities are kept. -/
  priorities : ∀ q, s'.priority q = s.priority q
  /-- The head of the list is kept. -/
  listHead : s'.listHead = s.listHead
  /-- The cached pointer is kept. -/
  rnblHead : s'.rnblHead = s.rnblHead
  /-- No return value stays available. -/
  unavailable : ∀ q, (s'.threads q).state = .retValAvail → (s.threads q).state = .retValAvail
  /-- The partitions of other threads are kept. -/
  others : ∀ q, next ≠ some q → s'.partitions q = s.partitions q
  /-- If no thread is picked, none may run. -/
  idle : next = none → delivered = none ∧ ∀ q ∈ nodes, ¬s.Runs q
  /-- The first thread that may run is picked, and it gets its return value. -/
  picks : ∀ p, next = some p → s.Runs p ∧ (∃ before after, nodes = before ++ p :: after ∧
      ∀ q ∈ before, ¬s.Runs q) ∧
    delivered = s.delivered allowed p ∧ (s'.partitions p =
      if s.Blocked p then (returnValue (allowed p) (s.partitions p)).2 else s.partitions p) ∧
    (s'.threads p).state = .runnable

theorem skipped_partitions (s : Sched Th) (p : Th) : (s.skipped p).partitions = s.partitions := rfl

theorem skipped_of_ne (s : Sched Th) {p q : Th} (ne : q ≠ p) :
    (s.skipped p).threads q = s.threads q := setThread_of_ne s _ ne

theorem skipped_state (s : Sched Th) (p q : Th)
    (avail : ((s.skipped p).threads q).state = .retValAvail) :
    (s.threads q).state = .retValAvail := by
  by_cases same : q = p
  · subst same
    rw [Sched.skipped, setThread_self] at avail
    dsimp only at avail
    split at avail
    · contradiction
    · exact avail
  · rwa [skipped_of_ne s same] at avail

theorem skipped_runs (s : Sched Th) {p q : Th} (ne : q ≠ p) : (s.skipped p).Runs q ↔ s.Runs q := by
  rw [Sched.Runs, Sched.Runs, Sched.Blocked, Sched.Blocked, skipped_partitions, skipped_of_ne s ne]

/-- A thread that may run is picked at once. -/
theorem scheduled_picked (allowed : Th → Word) {s : Sched Th} {p : Th} (runs : s.Runs p)
    (nodes : List Th) :
    Scheduled allowed (p :: nodes) s (some p) (s.delivered allowed p) (s.picked allowed p) := by
  have threads (q : Th) : (s.picked allowed p).threads q =
      if q = p then { s.threads p with state := .runnable } else s.threads q := by
    rw [Sched.picked]
    by_cases same : q = p
    · subst same
      rw [if_pos rfl, setThread_self]
    · rw [if_neg same, setThread_of_ne _ _ same]
      split <;> rfl
  constructor
  case links =>
    intro q
    rw [Sched.next, threads]
    split
    · next same => rw [same]; rfl
    · rfl
  case priorities =>
    intro q
    rw [Sched.priority, threads]
    split
    · next same => rw [same]; rfl
    · rfl
  case listHead =>
    rw [Sched.picked]
    split <;> rfl
  case rnblHead =>
    rw [Sched.picked]
    split <;> rfl
  case unavailable =>
    intro q avail
    rw [threads] at avail
    split at avail
    · contradiction
    · exact avail
  case others =>
    intro q ne
    rw [Sched.picked, setThread_partitions]
    split
    · exact Function.update_of_ne (fun same ↦ ne (congrArg some same.symm)) ..
    · rfl
  case idle => exact fun none ↦ by contradiction
  case picks =>
    intro q same
    obtain rfl := Option.some.inj same
    refine ⟨runs, ⟨[], nodes, rfl, by simp⟩, rfl, ?_, ?_⟩
    · rw [Sched.picked, setThread_partitions]
      split
      · exact Function.update_self ..
      · rfl
    · rw [threads, if_pos rfl]

/-- A thread that may not run is passed. -/
theorem Scheduled.cons {allowed : Th → Word} {s s' : Sched Th} {p : Th} (stays : ¬s.Runs p)
    {nodes : List Th} (fresh : p ∉ nodes) {next : Option Th} {delivered : Option ℤ}
    (scheduled : Scheduled allowed nodes (s.skipped p) next delivered s') :
    Scheduled allowed (p :: nodes) s next delivered s' := by
  have runs (q : Th) (q_mem : q ∈ nodes) : (s.skipped p).Runs q ↔ s.Runs q :=
    skipped_runs s (ne_of_mem_of_not_mem q_mem fresh)
  constructor
  case links =>
    exact fun q ↦ (scheduled.links q).trans (setThread_state_next s p _ q)
  case priorities =>
    exact fun q ↦ (scheduled.priorities q).trans (setThread_state_priority s p _ q)
  case listHead => exact scheduled.listHead
  case rnblHead => exact scheduled.rnblHead
  case unavailable => exact fun q avail ↦ skipped_state s p q (scheduled.unavailable q avail)
  case others => exact scheduled.others
  case idle =>
    intro none
    obtain ⟨nothing, stay⟩ := scheduled.idle none
    refine ⟨nothing, ?_⟩
    intro q q_mem
    cases q_mem with
    | head => exact stays
    | tail _ q_mem => exact fun runs_q ↦ stay q q_mem ((runs q q_mem).2 runs_q)
  case picks =>
    intro q picked
    obtain ⟨runs_q, ⟨before, after, split, stay⟩, gets, left⟩ := scheduled.picks q picked
    have q_mem : q ∈ nodes := by simp [split]
    refine ⟨(runs q q_mem).1 runs_q, ⟨p :: before, after, congrArg (p :: ·) split, ?_⟩, gets, left⟩
    intro r r_mem
    cases r_mem with
    | head => exact stays
    | tail _ r_mem =>
        have r_mem' : r ∈ nodes := split ▸ List.mem_append_left _ r_mem
        exact fun runs_r ↦ stay r r_mem ((runs r r_mem').2 runs_r)

theorem thrdNextLoop_spec (allowed : Th → Word) {link : Th → Option Th} {first : Option Th}
    {nodes : List Th} (chain : Chain link first nodes) {s : Sched Th}
    (same : ∀ q, s.next q = link q) (unavailable : ∀ q, (s.threads q).state ≠ .retValAvail)
    {fuel : ℕ} (enough : nodes.length ≤ fuel) (retval : ℤ) :
    ∃ next delivered s', thrdNextLoop allowed fuel first retval s = some (next, delivered, s') ∧
      Scheduled allowed nodes s next delivered s' := by
  induction chain generalizing s fuel with
  | nil =>
      refine ⟨none, none, s, by cases fuel <;> rfl, ?_⟩
      constructor
      case idle => exact fun _ ↦ ⟨rfl, by simp⟩
      case picks => exact fun p picked ↦ by contradiction
      all_goals simp
  | @cons p nodes tail ih =>
      obtain ⟨fuel, rfl⟩ := Nat.exists_eq_succ_of_ne_zero
        (Nat.ne_zero_of_lt (Nat.lt_of_lt_of_le (Nat.succ_pos _) enough))
      by_cases runs : s.Runs p
      · exact ⟨_, _, _, thrdNextLoop_of_runs runs fuel retval, scheduled_picked allowed runs nodes⟩
      · have fresh : p ∉ nodes := (List.nodup_cons.1 (Chain.cons tail).nodup).1
        obtain ⟨next, delivered, s', walked, scheduled⟩ := ih (s := s.skipped p)
          (fun q ↦ (setThread_state_next s p _ q).trans (same q))
          (fun q avail ↦ unavailable q (skipped_state s p q avail)) (by simpa using enough)
        refine ⟨next, delivered, s', ?_, scheduled.cons runs fresh⟩
        rw [thrdNextLoop_of_not_runs runs (unavailable p), same]
        exact walked

end

end TrustedFirmwareM.Spm.Scheduler
