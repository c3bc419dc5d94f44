import TrustedFirmwareM.Spm.Discipline

/-!
# Delivery of messages

The messages of all services of a partition share one list, into which requests are pushed at the
front and from which the oldest one of a signal is taken out of the middle.  A journal beside the
ledger records what was sent to each service and what its partition received.  What was sent is what
was received followed by what the list still holds, oldest first; signals tell whether there is
anything, and a partition that waits for an asserted signal can run.
-/

namespace TrustedFirmwareM.Spm

open LinkedList

variable {Pt Svc : Type}

/-- What was sent, received and waited for.  Messages come with the number of their request. -/
structure Journal (Pt Svc : Type) where
  /-- Messages sent to a service, in order. -/
  sent : Svc → List (ℕ × Msg)
  /-- Messages of a service that `psa_get` returned, in order. -/
  delivered : Svc → List (ℕ × Msg)
  /-- Requests whose replies were queued for an agent, in order. -/
  replied : Pt → List ℕ
  /-- Requests whose replies an agent collected, in order. -/
  collected : Pt → List ℕ
  /-- The mask of the `psa_wait` that a partition is blocked in. -/
  waitMask : Pt → Option Word

/-- The journal at the start. -/
def Journal.empty : Journal Pt Svc where
  sent := fun _ ↦ []
  delivered := fun _ ↦ []
  replied := fun _ ↦ []
  collected := fun _ ↦ []
  waitMask := fun _ ↦ none

/-- Append an entry at one place of a table of lists. -/
def appendAt {ι α : Type} [DecidableEq ι] (table : ι → List α) (i : Option ι) (entry : α) :
    ι → List α :=
  fun j ↦ if i = some j then table j ++ [entry] else table j

variable [DecidableEq Pt] [DecidableEq Svc]

/-- Enter one step in the journal. -/
def Journal.observe (s s' : State Pt Svc) (L : Ledger Pt) (J : Journal Pt Svc) :
    Action Pt → Effect → Journal Pt Svc
  | .api _ _, .sent c =>
      { J with sent := appendAt J.sent (s'.connections c).service (L.sent, (s'.connections c).msg) }
  | .api _ _, .delivered c body =>
      { J with delivered := appendAt J.delivered (s.connections c).service (L.onChunk c, body) }
  | .api _ _, .replied c _ =>
      if tfmSpmIsRpcMsg (s.connections c) then
        { J with replied := appendAt J.replied (s.connections c).pClient (L.onChunk c) }
      else J
  | .api caller _, .collected c =>
      { J with collected := appendAt J.collected (some caller) (L.onChunk c) }
  | .api caller (.wait signalMask timeout), _ =>
      { J with waitMask := fun p ↦
          if p = caller ∧ timeout &&& psaBlock = psaBlock ∧
              (s.partitions caller).signalsAsserted &&& signalMask = 0 then some signalMask
          else J.waitMask p }
  | .schedule q, _ => { J with waitMask := fun p ↦ if p = q then none else J.waitMask p }
  | _, _ => J

/-- A step of the system together with its ledger and its journal. -/
def journaledStep (P : Platform Pt Svc) (x : (State Pt Svc × Ledger Pt) × Journal Pt Svc)
    (a : Action Pt) : Option ((State Pt Svc × Ledger Pt) × Journal Pt Svc) :=
  (step P x.1.1 a).map fun (effect, s') ↦
    ((s', x.1.2.observe x.1.1 s' a effect), x.2.observe x.1.1 s' x.1.2 a effect)

/-- States reached by runs whose steps satisfy a condition, with the journal. -/
def JournaledReached (P : Platform Pt Svc) (guard : State Pt Svc → Action Pt → Prop)
    (x : (State Pt Svc × Ledger Pt) × Journal Pt Svc) : Prop :=
  ∃ memory behind, Run.Reaches (journaledStep P) (fun x a ↦ guard x.1.1 a)
    ((initialState P memory behind, .empty), .empty) x

omit [DecidableEq Pt] in
/-- The messages to a service in a list of handles, oldest first. -/
def waitingAt (s : State Pt Svc) (L : Ledger Pt) (σ : Svc) (list : List ℕ) : List (ℕ × Msg) :=
  (list.reverse.filter fun c ↦ (s.connections c).service = some σ).map
    fun c ↦ (L.onChunk c, (s.connections c).msg)

/-- What is asked of the delivery of messages in one state. -/
structure DeliverySound (P : Platform Pt Svc) (s : State Pt Svc) (L : Ledger Pt)
    (J : Journal Pt Svc) : Prop where
  /-- The messages sent to a service are those that its partition received, followed by those that
  are still queued, in order. -/
  messages : ∀ σ, ∃ queue, messageList P s (P.service σ).partition = some queue ∧
    J.sent σ = J.delivered σ ++ waitingAt s L σ queue
  /-- The signal of a service is asserted just if a message with that signal is queued. -/
  signals : ∀ σ, ∃ queue, messageList P s (P.service σ).partition = some queue ∧
    ((s.partitions (P.service σ).partition).signalsAsserted &&& (P.service σ).signal ≠ 0 ↔
      ∃ c ∈ queue, raises P s (P.service σ).signal c = true)
  /-- The replies queued for an agent are those that it collected, followed by those that are still
  queued, in order, and the reply signal is asserted just if there are any. -/
  replies : ∀ p, (P.partition p).nsAgentMailbox = true → ∃ queue, messageList P s p = some queue ∧
    J.replied p = J.collected p ++ queue.reverse.map L.onChunk ∧
    ((s.partitions p).signalsAsserted &&& asyncMsgReply ≠ 0 ↔ queue ≠ [])
  /-- A partition blocked in `psa_wait` on a mask that meets its asserted signals can run. -/
  wake : ∀ p mask, J.waitMask p = some mask → mask &&& (s.partitions p).signalsAsserted ≠ 0 →
    (step P s (.schedule p)).isSome = true

/-- The load information as the manifest tool generates it: a service signal is a single bit, the
bits of interrupts are others, and a non-secure agent is of one kind. -/
structure Manifest (P : Platform Pt Svc) : Prop where
  /-- Service signals are single bits. -/
  signal_bit : ∀ σ, ∃ i : Fin 32, (P.service σ).signal = BitVec.twoPow 32 i
  /-- Interrupt signals are others. -/
  irq_apart : ∀ σ, P.irqSignals (P.service σ).partition &&& (P.service σ).signal = 0
  /-- A mailbox agent is not the TrustZone agent. -/
  one_kind : ∀ p, (P.partition p).nsAgentMailbox = true → (P.partition p).nsAgentTz = false

/-! ## Queues -/

section queues

omit [DecidableEq Pt]

theorem waitingAt_cons (s : State Pt Svc) (L : Ledger Pt) (σ : Svc) (c : ℕ) (list : List ℕ) :
    waitingAt s L σ (c :: list) = waitingAt s L σ list ++
      if (s.connections c).service = some σ then [(L.onChunk c, (s.connections c).msg)]
      else [] := by
  by_cases service : (s.connections c).service = some σ
  · simp [waitingAt, service]
  · simp [waitingAt, service]

/-- Taking the oldest message of a service out of a list. -/
theorem waitingAt_take (s : State Pt Svc) (L : Ledger Pt) {σ : Svc} {before after : List ℕ} {c : ℕ}
    (service : (s.connections c).service = some σ)
    (oldest : ∀ d ∈ after, (s.connections d).service ≠ some σ) :
    waitingAt s L σ (before ++ c :: after) =
      (L.onChunk c, (s.connections c).msg) :: waitingAt s L σ (before ++ after) := by
  have none_after : after.reverse.filter (fun d ↦ (s.connections d).service = some σ) = [] := by
    rw [List.filter_eq_nil_iff]
    intro d member
    simpa using oldest d (List.mem_reverse.1 member)
  simp [waitingAt, service, none_after]

/-- Taking the message of another service out of a list. -/
theorem waitingAt_take_other (s : State Pt Svc) (L : Ledger Pt) {σ : Svc} {before after : List ℕ}
    {c : ℕ} (service : (s.connections c).service ≠ some σ) :
    waitingAt s L σ (before ++ c :: after) = waitingAt s L σ (before ++ after) := by
  simp [waitingAt, service]

/-- What is waiting depends on the members of the list only, up to links. -/
theorem waitingAt_congr {s s' : State Pt Svc} {L L' : Ledger Pt} {list : List ℕ}
    (same : ∀ c ∈ list, (∃ link, s'.connections c = { s.connections c with pHandles := link }) ∧
      L'.onChunk c = L.onChunk c) (σ : Svc) :
    waitingAt s' L' σ list = waitingAt s L σ list := by
  induction list with
  | nil => rfl
  | cons c list ih =>
      obtain ⟨⟨link, connection⟩, onChunk⟩ := same c List.mem_cons_self
      rw [waitingAt_cons, waitingAt_cons, ih fun d member ↦ same d (List.mem_cons_of_mem c member),
        connection, onChunk]

end queues

/-- The journal agrees with the lists and the signals. -/
structure Queues (P : Platform Pt Svc) (s : State Pt Svc) (L : Ledger Pt) (J : Journal Pt Svc)
    (lists : Pt → List ℕ) : Prop where
  /-- Messages of a service. -/
  messages : ∀ σ, J.sent σ = J.delivered σ ++ waitingAt s L σ (lists (P.service σ).partition)
  /-- Signal of a service. -/
  signals : ∀ σ,
    (s.partitions (P.service σ).partition).signalsAsserted &&& (P.service σ).signal ≠ 0 ↔
      ∃ c ∈ lists (P.service σ).partition, raises P s (P.service σ).signal c = true
  /-- Replies for an agent. -/
  replies : ∀ p, (P.partition p).nsAgentMailbox = true →
    J.replied p = J.collected p ++ (lists p).reverse.map L.onChunk
  /-- Reply signal of an agent. -/
  reply_signal : ∀ p, (P.partition p).nsAgentMailbox = true →
    ((s.partitions p).signalsAsserted &&& asyncMsgReply ≠ 0 ↔ lists p ≠ [])

omit [DecidableEq Pt] [DecidableEq Svc] in
theorem raises_congr {P : Platform Pt Svc} {s s' : State Pt Svc} {c : ℕ}
    (same : ∃ link, s'.connections c = { s.connections c with pHandles := link }) (signal : Word) :
    raises P s' signal c = raises P s signal c := by
  obtain ⟨link, connection⟩ := same
  rw [raises, raises, connection]

omit [DecidableEq Pt] [DecidableEq Svc] in
theorem raises_of_service {P : Platform Pt Svc} {s : State Pt Svc} {c : ℕ} {σ : Svc}
    (service : (s.connections c).service = some σ) (signal : Word) :
    raises P s signal c = decide ((P.service σ).signal = signal) := by
  rw [raises, service]
  rfl

omit [DecidableEq Pt] [DecidableEq Svc] in
theorem Manifest.signal_ne_zero {P : Platform Pt Svc} (manifest : Manifest P) (σ : Svc) :
    (P.service σ).signal ≠ 0 := by
  obtain ⟨i, bit⟩ := manifest.signal_bit σ
  rw [bit]
  intro zero
  have set := congrArg (fun word : Word ↦ word.getLsbD i) zero
  simp at set

omit [DecidableEq Pt] [DecidableEq Svc] in
/-- Different service signals have no bit in common. -/
theorem Manifest.disjoint {P : Platform Pt Svc} (manifest : Manifest P) {σ τ : Svc}
    (differ : (P.service σ).signal ≠ (P.service τ).signal) :
    (P.service σ).signal &&& (P.service τ).signal = 0 := by
  obtain ⟨i, bit_i⟩ := manifest.signal_bit σ
  obtain ⟨j, bit_j⟩ := manifest.signal_bit τ
  rw [bit_i, bit_j] at differ ⊢
  rw [BitVec.and_twoPow, if_neg]
  · rfl
  · intro set
    have same : (j : ℕ) = i := by simpa using set
    exact differ (by rw [same])

omit [DecidableEq Pt] [DecidableEq Svc] in
/-- The handles of a list carry requests under way. -/
theorem LifeInv.busy_of_listed {P : Platform Pt Svc} {s : State Pt Svc} {L : Ledger Pt}
    {lists : Pt → List ℕ} {p : Pt} {c : ℕ} (life : LifeInv P s L)
    (mem_lists : ∀ p c, c ∈ lists p ↔ s.Allocated c ∧ listOf P s L c = some p)
    (member : c ∈ lists p) : s.Allocated c ∧ (s.connections c).status ≠ .idle := by
  obtain ⟨here, listed⟩ := (mem_lists p c).1 member
  refine ⟨here, (life.chunk c here).record.busy ?_⟩
  intro replied
  rw [listOf, replied] at listed
  cases listed

omit [DecidableEq Pt] [DecidableEq Svc] in
/-- A list has the same members before and after a step that leaves them alone. -/
theorem LifeInv.same_of_kept {P : Platform Pt Svc} {s s' : State Pt Svc} {L L' : Ledger Pt}
    {lists : Pt → List ℕ} {p : Pt} {c : ℕ} (life : LifeInv P s L)
    (mem_lists : ∀ p c, c ∈ lists p ↔ s.Allocated c ∧ listOf P s L c = some p)
    (member : c ∈ lists p) (kept : Kept s L s' L' c) :
    (∃ link, s'.connections c = { s.connections c with pHandles := link }) ∧
      L'.onChunk c = L.onChunk c := by
  obtain ⟨here, busy⟩ := life.busy_of_listed mem_lists member
  exact ⟨kept.busy here busy, kept.onChunk⟩

omit [DecidableEq Pt] in
theorem Queues.replies_congr {P : Platform Pt Svc} {s : State Pt Svc} {L L' : Ledger Pt}
    {J : Journal Pt Svc} {lists : Pt → List ℕ} {p : Pt} (queues : Queues P s L J lists)
    (agent : (P.partition p).nsAgentMailbox = true)
    (same : ∀ c ∈ lists p, L'.onChunk c = L.onChunk c) :
    J.replied p = J.collected p ++ (lists p).reverse.map L'.onChunk := by
  rw [queues.replies p agent]
  congr 1
  exact List.map_congr_left fun c member ↦ (same c (List.mem_reverse.1 member)).symm

omit [DecidableEq Pt] in
/-- A step that leaves the lists, their members and the signals of services and agents alone. -/
theorem Queues.frame {P : Platform Pt Svc} {s s' : State Pt Svc} {L L' : Ledger Pt}
    {J J' : Journal Pt Svc} {lists : Pt → List ℕ} (queues : Queues P s L J lists)
    (same : ∀ p, ∀ c ∈ lists p,
      (∃ link, s'.connections c = { s.connections c with pHandles := link }) ∧
      L'.onChunk c = L.onChunk c)
    (services : ∀ σ,
      (s'.partitions (P.service σ).partition).signalsAsserted &&& (P.service σ).signal =
        (s.partitions (P.service σ).partition).signalsAsserted &&& (P.service σ).signal)
    (agents : ∀ p, (P.partition p).nsAgentMailbox = true →
      (s'.partitions p).signalsAsserted &&& asyncMsgReply =
        (s.partitions p).signalsAsserted &&& asyncMsgReply)
    (sent : J'.sent = J.sent) (delivered : J'.delivered = J.delivered)
    (replied : J'.replied = J.replied) (collected : J'.collected = J.collected) :
    Queues P s' L' J' lists := by
  refine ⟨fun σ ↦ ?_, fun σ ↦ ?_, fun p agent ↦ ?_, fun p agent ↦ ?_⟩
  · rw [sent, delivered, waitingAt_congr (same _)]
    exact queues.messages σ
  · rw [services, queues.signals]
    refine exists_congr fun c ↦ and_congr_right fun member ↦ ?_
    rw [raises_congr (same _ c member).1]
  · rw [replied, collected]
    exact queues.replies_congr agent fun c member ↦ (same p c member).2
  · rw [agents p agent]
    exact queues.reply_signal p agent

omit [DecidableEq Pt] [DecidableEq Svc] in
/-- Agents own no service. -/
theorem Platform.agent_ne_owner (P : Platform Pt Svc) {p : Pt}
    (agent : (P.partition p).nsAgentMailbox = true) (σ : Svc) : p ≠ (P.service σ).partition := by
  rintro rfl
  exact P.mailbox_no_service σ agent

/-- A step without a request or a message leaves the queues of the journal alone. -/
theorem Journal.observe_of_quiet (J : Journal Pt Svc) (s s' : State Pt Svc) (L : Ledger Pt)
    (a : Action Pt) {effect : Effect}
    (quiet : effect = .quiet ∨ ∃ value, effect = .returned value) :
    (J.observe s s' L a effect).sent = J.sent ∧
      (J.observe s s' L a effect).delivered = J.delivered ∧
      (J.observe s s' L a effect).replied = J.replied ∧
      (J.observe s s' L a effect).collected = J.collected := by
  rcases quiet with rfl | ⟨value, rfl⟩ <;> unfold Journal.observe <;> split <;>
    first | exact ⟨rfl, rfl, rfl, rfl⟩ | contradiction

/-! ## Moves -/

/-- A request is queued at its service. -/
theorem Queues.send {P : Platform Pt Svc} {s s' : State Pt Svc} {L : Ledger Pt}
    {J : Journal Pt Svc} {lists : Pt → List ℕ} {caller : Pt} {call : Api} {clientId : ℤ}
    {data : Option Word} {c : ℕ} {σ : Svc} {rpc : Bool} {inLen outLen : Fin 4 → Word}
    (manifest : Manifest P) (life : LifeInv P s L)
    (mem_lists : ∀ p c, c ∈ lists p ↔ s.Allocated c ∧ listOf P s L c = some p)
    (queues : Queues P s L J lists) (move : SendMove P caller clientId data s s' c σ) :
    Queues P s' (L.send caller c rpc inLen outLen) (J.observe s s' L (.api caller call) (.sent c))
      (Function.update lists (P.service σ).partition (c :: lists (P.service σ).partition)) := by
  have fresh := move.not_listed life mem_lists
  have onChunk : (L.send caller c rpc inLen outLen).onChunk c = L.sent := Function.update_self ..
  have same : ∀ p, ∀ d ∈ lists p,
      (∃ link, s'.connections d = { s.connections d with pHandles := link }) ∧
      (L.send caller c rpc inLen outLen).onChunk d = L.onChunk d := by
    intro p d member
    refine life.same_of_kept mem_lists member (.of_send life ?_ move)
    rintro rfl
    exact fresh p member
  refine ⟨fun τ ↦ ?_, fun τ ↦ ?_, fun p agent ↦ ?_, fun p agent ↦ ?_⟩
  · have before := queues.messages τ
    rw [← waitingAt_congr (same _)] at before
    simp only [Journal.observe, appendAt, move.service, Option.some.injEq]
    by_cases owner : (P.service τ).partition = (P.service σ).partition
    · rw [owner, Function.update_self, waitingAt_cons, move.service, onChunk, before, owner]
      by_cases τ_eq : σ = τ
      · simp [τ_eq]
      · simp [τ_eq]
    · have τ_ne : σ ≠ τ := by
        rintro rfl
        exact owner rfl
      rw [Function.update_of_ne owner, if_neg τ_ne]
      exact before
  · have before := queues.signals τ
    have raised : raises P s' (P.service τ).signal c =
        decide ((P.service σ).signal = (P.service τ).signal) := raises_of_service move.service _
    have members :
        (∃ d ∈ lists (P.service τ).partition, raises P s' (P.service τ).signal d = true) ↔
        ∃ d ∈ lists (P.service τ).partition, raises P s (P.service τ).signal d = true :=
      exists_congr fun d ↦ and_congr_right fun member ↦ by rw [raises_congr (same _ d member).1]
    rw [move.asserted]
    by_cases owner : (P.service τ).partition = (P.service σ).partition
    · rw [if_pos owner, owner, Function.update_self, List.exists_mem_cons_iff, raised]
      rw [owner] at before members
      by_cases signal : (P.service σ).signal = (P.service τ).signal
      · rw [signal, BitVec.and_or_distrib_right, BitVec.and_self]
        refine iff_of_true (fun zero ↦ ?_) (.inl (by simp))
        exact manifest.signal_ne_zero τ (BitVec.or_eq_zero_iff.1 zero).2
      · rw [or_and_of_disjoint (manifest.disjoint signal), before, members]
        simp [signal]
    · rw [if_neg owner, Function.update_of_ne owner, before, members]
  · have p_ne := P.agent_ne_owner agent σ
    rw [Function.update_of_ne p_ne]
    exact queues.replies_congr agent fun d member ↦ (same p d member).2
  · have p_ne := P.agent_ne_owner agent σ
    rw [move.asserted, if_neg p_ne, Function.update_of_ne p_ne]
    exact queues.reply_signal p agent

/-- The oldest message of a signal is handed over. -/
theorem Queues.deliver {P : Platform Pt Svc} {s s' : State Pt Svc} {L : Ledger Pt}
    {J : Journal Pt Svc} {lists : Pt → List ℕ} {p : Pt} {before after : List ℕ} {c : ℕ}
    {signal msg : Word} (manifest : Manifest P) (life : LifeInv P s L)
    (mem_lists : ∀ p c, c ∈ lists p ↔ s.Allocated c ∧ listOf P s L c = some p)
    (queues : Queues P s L J lists) (list_eq : lists p = before ++ c :: after)
    (take : TakeMove s s' p signal) (not_agent : (P.partition p).nsAgentMailbox = false)
    (oldest : OldestTaken P s s' p signal before c after) (not_reply : signal ≠ asyncMsgReply) :
    Queues P s' (L.deliver p c (s.connections c).msg.handle)
      (J.observe s s' L (.api p (.get signal msg)) (.delivered c (s.connections c).msg))
      (Function.update lists p (before ++ after)) := by
  obtain ⟨here, list_c⟩ := (mem_lists p c).1 (by simp [list_eq])
  obtain ⟨σ, service⟩ := (life.chunk c here).service
  have owner : (P.service σ).partition = p := by
    rw [listOf, life.queued_of_listed here list_c not_agent, service] at list_c
    exact Option.some.inj list_c
  have sought_eq : sought P s signal = raises P s signal := by
    funext d
    simp [sought, not_reply]
  have signal_eq : (P.service σ).signal = signal := by
    have found := oldest.found
    rw [sought_eq, raises_of_service service] at found
    exact of_decide_eq_true found
  have none_after : ∀ d ∈ after, raises P s signal d = false := by
    have none_after := oldest.oldest
    rwa [sought_eq] at none_after
  have agent_ne : ∀ q, (P.partition q).nsAgentMailbox = true → q ≠ p := by
    rintro q agent rfl
    rw [not_agent] at agent
    cases agent
  have same : ∀ τ list, waitingAt s' (L.deliver p c (s.connections c).msg.handle) τ list =
      waitingAt s L τ list := fun τ list ↦
    waitingAt_congr (fun d _ ↦ ⟨take.connections d, rfl⟩) τ
  refine ⟨fun τ ↦ ?_, fun τ ↦ ?_, fun q agent ↦ ?_, fun q agent ↦ ?_⟩
  · have messages := queues.messages τ
    simp only [Journal.observe, appendAt, service, Option.some.injEq]
    rw [same]
    by_cases τ_eq : σ = τ
    · subst τ_eq
      rw [owner, list_eq, waitingAt_take s L service] at messages
      · rw [if_pos rfl, owner, Function.update_self, messages, List.append_assoc,
          List.singleton_append]
      · intro d member other
        have raised := none_after d member
        rw [raises_of_service other, signal_eq] at raised
        simp at raised
    · rw [if_neg τ_eq, messages]
      by_cases τ_owner : (P.service τ).partition = p
      · rw [τ_owner, Function.update_self, list_eq, waitingAt_take_other]
        rw [service]
        exact fun equal ↦ τ_eq (Option.some.inj equal)
      · rw [Function.update_of_ne τ_owner]
  · have signals := queues.signals τ
    have members : ∀ d, raises P s' (P.service τ).signal d = raises P s (P.service τ).signal d :=
      fun d ↦ raises_congr (take.connections d) _
    simp only [members]
    by_cases τ_owner : (P.service τ).partition = p
    · rw [τ_owner, list_eq] at signals
      rw [τ_owner, Function.update_self, oldest.asserted]
      by_cases τ_signal : (P.service τ).signal = signal
      · rw [τ_signal, sought_eq]
        by_cases younger : before.any (raises P s signal) = true
        · obtain ⟨d, member, raised⟩ := List.any_eq_true.1 younger
          rw [if_pos younger]
          exact iff_of_true oldest.raised ⟨d, List.mem_append_left _ member, raised⟩
        · rw [if_neg younger, BitVec.and_assoc, BitVec.not_and_self]
          refine iff_of_false (fun ne ↦ ne BitVec.and_zero) ?_
          rintro ⟨d, member, raised⟩
          rcases List.mem_append.1 member with member | member
          · exact younger (List.any_eq_true.2 ⟨d, member, raised⟩)
          · rw [none_after d member] at raised
            cases raised
      · have apart : (P.service τ).signal &&& signal = 0 := by
          rw [← signal_eq]
          exact manifest.disjoint (by rwa [signal_eq])
        have unchanged : (if before.any (sought P s signal) = true then
            (s.partitions p).signalsAsserted
            else (s.partitions p).signalsAsserted &&& ~~~signal) &&& (P.service τ).signal =
            (s.partitions p).signalsAsserted &&& (P.service τ).signal := by
          split
          · rfl
          · exact and_not_and_of_disjoint apart
        rw [unchanged, signals]
        refine exists_congr fun d ↦ ?_
        simp only [List.mem_append, List.mem_cons]
        constructor
        · rintro ⟨member | rfl | member, raised⟩
          · exact ⟨.inl member, raised⟩
          · rw [raises_of_service service, signal_eq] at raised
            exact absurd (of_decide_eq_true raised).symm τ_signal
          · exact ⟨.inr member, raised⟩
        · rintro ⟨member | member, raised⟩
          · exact ⟨.inl member, raised⟩
          · exact ⟨.inr (.inr member), raised⟩
    · rw [oldest.asserted_other _ τ_owner, Function.update_of_ne τ_owner]
      exact signals
  · rw [Function.update_of_ne (agent_ne q agent)]
    exact queues.replies q agent
  · rw [oldest.asserted_other q (agent_ne q agent), Function.update_of_ne (agent_ne q agent)]
    exact queues.reply_signal q agent

/-- A reply is queued for an agent. -/
theorem Queues.rpcReply {P : Platform Pt Svc} {s s' : State Pt Svc} {L : Ledger Pt}
    {J : Journal Pt Svc} {lists : Pt → List ℕ} {caller client : Pt} {handle : Word} {c : ℕ}
    {ends : Bool} {type status : ℤ} (life : LifeInv P s L)
    (mem_lists : ∀ p c, c ∈ lists p ↔ s.Allocated c ∧ listOf P s L c = some p)
    (queues : Queues P s L J lists) (here : s.Allocated c)
    (delivered : L.phaseOf c = .delivered caller handle)
    (client_eq : (s.connections c).pClient = some client)
    (rpc : tfmSpmIsRpcMsg (s.connections c) = true) (move : RpcReplyMove P s s' c client ends) :
    Queues P s' (L.reply c true type status)
      (J.observe s s' L (.api caller (.reply handle status)) (.replied c status))
      (Function.update lists client (c :: lists client)) := by
  have fresh := fresh_of_delivered mem_lists delivered
  have agent : (P.partition client).nsAgentMailbox = true := by
    obtain ⟨q, q_eq, -, is_agent, -⟩ := (life.chunk c here).client
    rw [client_eq] at q_eq
    cases q_eq
    exact is_agent.symm.trans rpc
  have same : ∀ p, ∀ d ∈ lists p,
      ∃ link, s'.connections d = { s.connections d with pHandles := link } := by
    intro p d member
    refine ⟨(s.connections d).pHandles, move.other d ?_⟩
    rintro rfl
    exact fresh p member
  refine ⟨fun σ ↦ ?_, fun σ ↦ ?_, fun q q_agent ↦ ?_, fun q q_agent ↦ ?_⟩
  · have messages := queues.messages σ
    have unchanged : waitingAt s' (L.reply c true type status) σ (lists (P.service σ).partition) =
        waitingAt s L σ (lists (P.service σ).partition) :=
      waitingAt_congr (fun d member ↦ ⟨same _ d member, rfl⟩) σ
    rw [Function.update_of_ne (P.agent_ne_owner agent σ).symm, unchanged]
    simpa [Journal.observe, rpc] using messages
  · have owner_ne := (P.agent_ne_owner agent σ).symm
    rw [move.asserted, if_neg owner_ne, Function.update_of_ne owner_ne, queues.signals]
    exact exists_congr fun d ↦ and_congr_right fun member ↦ by rw [raises_congr (same _ d member)]
  · have replies := queues.replies q q_agent
    simp only [Journal.observe, rpc, if_true, appendAt, client_eq, Option.some.injEq]
    by_cases q_eq : client = q
    · subst q_eq
      rw [if_pos rfl, Function.update_self, replies, List.reverse_cons, List.map_append,
        List.append_assoc]
      rfl
    · rw [if_neg q_eq, Function.update_of_ne (Ne.symm q_eq)]
      exact replies
  · rw [move.asserted]
    by_cases q_eq : q = client
    · subst q_eq
      rw [if_pos rfl, Function.update_self, BitVec.and_or_distrib_right, BitVec.and_self]
      refine iff_of_true (fun zero ↦ ?_) (by simp)
      exact absurd (BitVec.or_eq_zero_iff.1 zero).2 (by decide)
    · rw [if_neg q_eq, Function.update_of_ne q_eq]
      exact queues.reply_signal q q_agent

/-- A client that waits for its request is replied to. -/
theorem Queues.reply {P : Platform Pt Svc} {s s' : State Pt Svc} {L : Ledger Pt}
    {J : Journal Pt Svc} {lists : Pt → List ℕ} {caller client : Pt} {handle : Word} {c : ℕ}
    {ends : Bool} {type status : ℤ} (life : LifeInv P s L)
    (mem_lists : ∀ p c, c ∈ lists p ↔ s.Allocated c ∧ listOf P s L c = some p)
    (queues : Queues P s L J lists) (here : s.Allocated c)
    (delivered : L.phaseOf c = .delivered caller handle)
    (client_eq : (s.connections c).pClient = some client)
    (not_rpc : tfmSpmIsRpcMsg (s.connections c) = false) (move : ReplyMove P s s' c client ends) :
    Queues P s' (L.reply c false type status)
      (J.observe s s' L (.api caller (.reply handle status)) (.replied c status)) lists := by
  have journal : J.observe s s' L (.api caller (.reply handle status)) (.replied c status) = J := by
    simp [Journal.observe, not_rpc]
  have not_agent : (P.partition client).nsAgentMailbox = false := by
    obtain ⟨q, q_eq, -, is_agent, -⟩ := (life.chunk c here).client
    rw [client_eq] at q_eq
    cases q_eq
    exact is_agent.symm.trans not_rpc
  rw [journal]
  refine queues.frame ?_ (fun σ ↦ ?_) (fun p agent ↦ ?_) rfl rfl rfl rfl
  · intro p d member
    refine ⟨⟨(s.connections d).pHandles, move.connections_other d ?_⟩, rfl⟩
    rintro rfl
    exact fresh_of_delivered mem_lists delivered p member
  · rw [move.asserted]
    split
    · exact or_and_of_disjoint (by rw [BitVec.and_comm]; exact P.signal_and_async σ)
    · rfl
  · rw [move.asserted, if_neg]
    rintro rfl
    rw [not_agent] at agent
    cases agent

/-- The oldest queued reply is collected. -/
theorem Queues.collect {P : Platform Pt Svc} {s s₁ s' : State Pt Svc} {L : Ledger Pt}
    {J : Journal Pt Svc} {lists : Pt → List ℕ} {p : Pt} {before after : List ℕ} {c : ℕ} {msg : Word}
    {ends : Bool} (life : LifeInv P s L)
    (mem_lists : ∀ p c, c ∈ lists p ↔ s.Allocated c ∧ listOf P s L c = some p)
    (chains : Lists s lists) (queues : Queues P s L J lists)
    (list_eq : lists p = before ++ c :: after) (take : TakeMove s s₁ p asyncMsgReply)
    (queued : L.phaseOf c = .replyQueued)
    (oldest : OldestTaken P s s₁ p asyncMsgReply before c after)
    (released : Released P s₁ s' c ends) :
    Queues P s' (L.collect c) (J.observe s s' L (.api p (.rpcClientCallReply msg)) (.collected c))
      (Function.update lists p (before ++ after)) := by
  obtain ⟨here, list_c⟩ := (mem_lists p c).1 (by simp [list_eq])
  have agent : (P.partition p).nsAgentMailbox = true := by
    obtain ⟨q, client, -, is_agent, -⟩ := (life.chunk c here).client
    have record := (life.chunk c here).record
    rw [queued] at record
    rw [listOf, queued, client] at list_c
    cases list_c
    exact is_agent.symm.trans record.1
  have every : ∀ d, sought P s asyncMsgReply d = true := fun d ↦ by simp [sought]
  have after_nil : after = [] := by
    refine List.eq_nil_iff_forall_not_mem.2 fun d member ↦ ?_
    have none_after := oldest.oldest d member
    rw [every] at none_after
    cases none_after
  subst after_nil
  have removed := mem_removed (LifeInv.disjoint mem_lists) list_eq (chains p).nodup
  have same : ∀ q, ∀ d ∈ Function.update lists p (before ++ []) q,
      ∃ link, s'.connections d = { s.connections d with pHandles := link } := by
    intro q d member
    rw [released.connections_other d]
    · exact take.connections d
    · rintro rfl
      exact (removed q).1 member
  refine ⟨fun σ ↦ ?_, fun σ ↦ ?_, fun q q_agent ↦ ?_, fun q q_agent ↦ ?_⟩
  · have owner_ne := (P.agent_ne_owner agent σ).symm
    have unchanged : waitingAt s' (L.collect c) σ (lists (P.service σ).partition) =
        waitingAt s L σ (lists (P.service σ).partition) := by
      refine waitingAt_congr (fun d member ↦ ⟨same (P.service σ).partition d ?_, rfl⟩) σ
      rwa [Function.update_of_ne owner_ne]
    rw [Function.update_of_ne owner_ne, unchanged]
    exact queues.messages σ
  · have owner_ne := (P.agent_ne_owner agent σ).symm
    rw [Function.update_of_ne owner_ne, released.partitions, oldest.asserted_other _ owner_ne,
      queues.signals]
    refine exists_congr fun d ↦ and_congr_right fun member ↦ ?_
    rw [raises_congr (same (P.service σ).partition d (by rwa [Function.update_of_ne owner_ne]))]
  · have replies := queues.replies q q_agent
    simp only [Journal.observe, appendAt, Option.some.injEq]
    by_cases q_eq : p = q
    · subst q_eq
      rw [if_pos rfl, Function.update_self, replies, list_eq, List.append_nil, List.reverse_append,
        List.map_append, List.append_assoc]
      rfl
    · rw [if_neg q_eq, Function.update_of_ne (Ne.symm q_eq)]
      exact replies
  · rw [released.partitions]
    by_cases q_eq : q = p
    · subst q_eq
      rw [oldest.asserted, Function.update_self, List.append_nil]
      cases before with
      | nil =>
          rw [List.any_nil, if_neg Bool.false_ne_true, BitVec.and_assoc, BitVec.not_and_self]
          exact iff_of_false (fun ne ↦ ne BitVec.and_zero) (fun ne ↦ ne rfl)
      | cons d before =>
          rw [List.any_cons, every, Bool.true_or, if_pos rfl]
          exact iff_of_true oldest.raised (List.cons_ne_nil d before)
    · rw [oldest.asserted_other q q_eq, Function.update_of_ne q_eq]
      exact queues.reply_signal q q_agent

/-! ## Runs -/

/-- The lists are there and agree with the journal. -/
def QueueInv (P : Platform Pt Svc) (s : State Pt Svc) (L : Ledger Pt) (J : Journal Pt Svc) : Prop :=
  ∃ lists, Lists s lists ∧ Queues P s L J lists

omit [DecidableEq Pt] [DecidableEq Svc] in
theorem Lists.unique {s : State Pt Svc} {left right : Pt → List ℕ} (left_chains : Lists s left)
    (right_chains : Lists s right) : left = right :=
  funext fun p ↦ (left_chains p).unique (right_chains p)

theorem QueueInv.move {P : Platform Pt Svc} {s s' : State Pt Svc} {L L' : Ledger Pt}
    {J : Journal Pt Svc} {a : Action Pt} {effect : Effect} (manifest : Manifest P)
    (life : LifeInv P s L) (inv : QueueInv P s L J) (move : Move P s L s' a effect L') :
    QueueInv P s' L' (J.observe s s' L a effect) := by
  obtain ⟨lists, chains, queues⟩ := inv
  have mem_lists : ∀ p c, c ∈ lists p ↔ s.Allocated c ∧ listOf P s L c = some p := by
    obtain ⟨others, other_chains, mem_others⟩ := life.lists
    rw [chains.unique other_chains]
    exact mem_others
  cases move with
  | quiet quiet _ =>
      obtain ⟨sent, delivered, replied, collected⟩ := J.observe_of_quiet s s' L a (.inl rfl)
      refine ⟨lists, chains.congr (fun p ↦ by rw [quiet.partitions]) ?_,
        queues.frame ?_ (fun σ ↦ by rw [quiet.partitions]) (fun p _ ↦ by rw [quiet.partitions]) sent
          delivered replied collected⟩
      · intro p c member
        exact (quiet.identity c ((mem_lists p c).1 member).1).pHandles
      · intro p c member
        exact life.same_of_kept mem_lists member (.of_quiet L quiet c)
  | @message caller call c handle rhandle _ _ _ delivered_c move _ =>
      have fresh := fresh_of_delivered mem_lists delivered_c
      have kept : ∀ p, ∀ d ∈ lists p, Kept s L s' L d := by
        intro p d member
        refine .of_message L ?_ move
        rintro rfl
        exact fresh p member
      obtain ⟨sent, delivered, replied, collected⟩ :=
        J.observe_of_quiet s s' L (.api caller call) (.inl rfl)
      have identity := move.identity
      obtain ⟨k, memory, rfl⟩ := move.state
      refine ⟨lists, chains.congr (fun _ ↦ rfl) ?_, queues.frame ?_ (fun _ ↦ rfl) (fun _ _ ↦ rfl)
        sent delivered replied collected⟩
      · intro p d member
        have d_ne : d ≠ c := by
          rintro rfl
          exact fresh p member
        simp [State.link, d_ne]
      · intro p d member
        exact life.same_of_kept mem_lists member (kept p d member)
  | signals meaning _ services agents _ magic connections heads _ _ ledger =>
      have quiet : effect = .quiet ∨ ∃ value, effect = .returned value := by
        rcases meaning with quiet | ⟨_, value, _, returned⟩
        · exact .inl quiet
        · exact .inr ⟨value, returned⟩
      obtain ⟨sent, delivered, replied, collected⟩ := J.observe_of_quiet s s' L a quiet
      refine ⟨lists, chains.congr heads ?_, queues.frame ?_
        (fun σ ↦ services σ (manifest.irq_apart σ))
        (fun p agent ↦ agents p agent (manifest.one_kind p agent)) sent delivered replied collected⟩
      · intro p c _
        rw [State.link, connections]
        rfl
      · intro p c member
        exact life.same_of_kept mem_lists member (.of_signals magic connections ledger c)
  | send _ _ _ move _ =>
      exact ⟨_, move.lists chains (move.not_listed life mem_lists),
        queues.send manifest life mem_lists move⟩
  | deliver chains₂ _ list_eq chains' take not_agent oldest not_reply =>
      rw [chains₂.unique chains] at list_eq chains'
      exact ⟨_, chains', queues.deliver manifest life mem_lists list_eq take not_agent oldest
        not_reply⟩
  | reply here delivered _ _ client_eq _ move =>
      rcases move with ⟨rpc, move⟩ | ⟨not_rpc, move⟩
      · rw [rpc]
        exact ⟨_, move.lists chains (fresh_of_delivered mem_lists delivered),
          queues.rpcReply life mem_lists here delivered client_eq rpc move⟩
      · rw [not_rpc]
        refine ⟨lists, chains.congr move.heads ?_,
          queues.reply life mem_lists here delivered client_eq not_rpc move⟩
        intro p c member
        rw [State.link, move.connections_other c]
        · rfl
        · rintro rfl
          exact fresh_of_delivered mem_lists delivered p member
  | @collect p msg s₁ _ before after c chains₂ _ list_eq chains₁ take queued oldest state =>
      rw [chains₂.unique chains] at list_eq chains₁
      have here₁ : s₁.Allocated c := by
        rw [State.Allocated, take.magic]
        exact ((mem_lists p c).1 (by simp [list_eq])).1
      have released := released_releaseConnection
        (life.pool.congr take.poolNext take.chunkNext take.magic) here₁
      rw [← state] at released
      refine ⟨_, chains₁.congr (fun q ↦ by rw [released.partitions]) ?_,
        queues.collect life mem_lists chains list_eq take queued oldest released⟩
      intro q d member
      rw [State.link, released.connections_other d]
      · rfl
      · rintro rfl
        exact (mem_removed (LifeInv.disjoint mem_lists) list_eq (chains p).nodup q).1 member

/-! ## Waiting -/

/-- The step moves a request. -/
def Effect.MovesRequest : Effect → Prop
  | .quiet | .returned _ => False
  | .sent _ | .delivered _ _ | .replied _ _ | .collected _ => True

omit [DecidableEq Svc] in
/-- What partitions wait for after a step: one that moves a request may block its caller, which was
running, and nobody else. -/
theorem Move.waiting {P : Platform Pt Svc} {s s' : State Pt Svc} {L L' : Ledger Pt} {a : Action Pt}
    {effect : Effect} (life : LifeInv P s L) (move : Move P s L s' a effect L') :
    ¬effect.MovesRequest ∧ (∀ p, (s'.partitions p).signalsWaiting = waitingAfter s p a) ∨
      effect.MovesRequest ∧ (∃ caller call, a = .api caller call) ∧
        ∀ p, (s'.partitions p).signalsWaiting = (s.partitions p).signalsWaiting ∨
          (s.partitions p).signalsWaiting = 0 := by
  cases move with
  | quiet quiet waiting =>
      refine .inl ⟨id, fun p ↦ ?_⟩
      rw [quiet.partitions, waiting]
  | @message caller call c handle rhandle msgHandle _ _ _ move _ =>
      refine .inl ⟨id, fun p ↦ ?_⟩
      obtain ⟨k, memory, rfl⟩ := move.state
      cases call <;> first | rfl | cases msgHandle
  | signals meaning waiting =>
      refine .inl ⟨?_, waiting⟩
      rcases meaning with rfl | ⟨_, _, -, rfl⟩ <;> exact id
  | @send caller call clientId data c σ running owns _ move _ =>
      refine .inr ⟨trivial, ⟨caller, call, rfl⟩, fun p ↦ ?_⟩
      by_cases p_eq : p = caller
      · exact .inr (by rw [p_eq, running])
      · rw [move.waiting, move.pClient_eq life owns, if_neg]
        · exact .inl rfl
        · rintro ⟨-, equal, -⟩
          exact p_eq (Option.some.inj equal).symm
  | deliver _ _ _ _ take _ _ _ =>
      exact .inr ⟨trivial, ⟨_, _, rfl⟩, fun p ↦ .inl (take.waiting p)⟩
  | reply _ _ _ _ _ _ move =>
      rcases move with ⟨-, move⟩ | ⟨-, move⟩
      · exact .inr ⟨trivial, ⟨_, _, rfl⟩, fun p ↦ .inl (move.waiting p)⟩
      · exact .inr ⟨trivial, ⟨_, _, rfl⟩, fun p ↦ .inl (move.waiting p)⟩
  | collect _ _ _ _ take _ _ state =>
      refine .inr ⟨trivial, ⟨_, _, rfl⟩, fun p ↦ .inl ?_⟩
      rw [state, releaseConnection]
      split
      · exact take.waiting p
      · exact take.waiting p

/-- A partition blocked in `psa_wait` waits for the mask that it gave. -/
def WaitInv (s : State Pt Svc) (J : Journal Pt Svc) : Prop :=
  ∀ p mask, J.waitMask p = some mask → mask = 0 ∨ (s.partitions p).signalsWaiting = mask

theorem WaitInv.move {P : Platform Pt Svc} {s s' : State Pt Svc} {L L' : Ledger Pt}
    {J : Journal Pt Svc} {a : Action Pt} {effect : Effect} (life : LifeInv P s L)
    (inv : WaitInv s J) (move : Move P s L s' a effect L') :
    WaitInv s' (J.observe s s' L a effect) := by
  intro p mask
  rcases move.waiting life with ⟨still, after⟩ | ⟨moves, ⟨caller, call, rfl⟩, after⟩
  · -- a mask is entered by the step that blocks its partition and removed by the one that wakes it
    rw [after]
    cases a with
    | api caller call =>
        cases effect <;> try exact absurd trivial still
        all_goals
          cases call <;> try exact inv p mask
          simp only [Journal.observe, waitingAfter]
          split
          · exact fun entered ↦ .inr (Option.some.inj entered)
          · exact inv p mask
    | schedule q =>
        have same : (J.observe s s' L (.schedule q) effect).waitMask p =
            if p = q then none else J.waitMask p := by
          cases effect <;> rfl
        rw [same, waitingAfter]
        split
        · exact fun impossible ↦ by cases impossible
        · exact inv p mask
    | irq q signal =>
        cases effect <;> exact inv p mask
    | store address value =>
        cases effect <;> exact inv p mask
  · have same : (J.observe s s' L (.api caller call) effect).waitMask = J.waitMask := by
      cases effect with
      | quiet => exact moves.elim
      | returned value => exact moves.elim
      | replied c status =>
          simp only [Journal.observe]
          split <;> rfl
      | _ => rfl
    rw [same]
    intro waits
    rcases inv p mask waits with zero | waiting
    · exact .inl zero
    · rcases after p with unchanged | running
      · exact .inr (unchanged.trans waiting)
      · exact .inl (waiting.symm.trans running)

omit [DecidableEq Svc] in
/-- A partition that waits for an asserted signal can run. -/
theorem schedule_isSome {P : Platform Pt Svc} {s : State Pt Svc} {p : Pt}
    (raised : (s.partitions p).signalsWaiting &&& (s.partitions p).signalsAsserted ≠ 0) :
    (step P s (.schedule p)).isSome = true := by
  rw [step, queryState, if_neg raised, Option.isSome_map]
  split <;> rfl

/-! ## Soundness -/

theorem journaledStep_eq_some {P : Platform Pt Svc}
    {x y : (State Pt Svc × Ledger Pt) × Journal Pt Svc} {a : Action Pt}
    (step_eq : journaledStep P x a = some y) :
    ∃ effect, step P x.1.1 a = some (effect, y.1.1) ∧
      y.1.2 = x.1.2.observe x.1.1 y.1.1 a effect ∧
      y.2 = x.2.observe x.1.1 y.1.1 x.1.2 a effect := by
  simp only [journaledStep, Option.map_eq_some_iff, Prod.exists] at step_eq
  obtain ⟨effect, s', step_eq, rfl⟩ := step_eq
  exact ⟨effect, step_eq, rfl, rfl⟩

omit [DecidableEq Pt] in
theorem queueInv_initial (P : Platform Pt Svc) (memory : Word → BitVec 8)
    (behind : Connection Pt Svc) :
    QueueInv P (initialState P memory behind) .empty .empty := by
  refine ⟨fun _ ↦ [], fun _ ↦ .nil, fun _ ↦ rfl, fun σ ↦ ?_, fun _ _ ↦ rfl, fun p _ ↦ ?_⟩
  · exact iff_of_false (fun ne ↦ ne BitVec.zero_and) (by simp)
  · exact iff_of_false (fun ne ↦ ne BitVec.zero_and) (fun ne ↦ ne rfl)

/-- In every disciplined run, messages and replies are delivered once and in order, signals tell
what is queued, and no wake-up is lost. -/
theorem deliverySound_of_disciplined (P : Platform Pt Svc) (manifest : Manifest P)
    (trailer : P.trailer ≠ poolMagicAllocated) (x : (State Pt Svc × Ledger Pt) × Journal Pt Svc)
    (reached : JournaledReached P (Disciplined P) x) : DeliverySound P x.1.1 x.1.2 x.2 := by
  obtain ⟨memory, behind, reaches⟩ := reached
  have inv := reaches.invariant
    (I := fun x ↦ LifeInv P x.1.1 x.1.2 ∧ QueueInv P x.1.1 x.1.2 x.2 ∧ WaitInv x.1.1 x.2)
    ⟨lifeInv_initial trailer memory behind, queueInv_initial P memory behind,
      fun _ _ waits ↦ by cases waits⟩ (by
    intro before a after inv disciplined step_eq
    obtain ⟨effect, step_eq, ledger, journal⟩ := journaledStep_eq_some step_eq
    have move := move_of_step inv.1 disciplined step_eq
    rw [ledger, journal]
    exact ⟨inv.1.move move, inv.2.1.move manifest inv.1 move, inv.2.2.move inv.1 move⟩)
  obtain ⟨life, ⟨lists, chains, queues⟩, waits⟩ := inv
  have list_eq : ∀ p, messageList P x.1.1 p = some (lists p) := by
    obtain ⟨others, other_chains, mem_others⟩ := life.lists
    rw [chains.unique other_chains]
    exact fun p ↦ other_chains.messageList_eq (LifeInv.bounded life.pool mem_others p)
  refine ⟨fun σ ↦ ⟨_, list_eq _, queues.messages σ⟩, fun σ ↦ ⟨_, list_eq _, queues.signals σ⟩,
    fun p agent ↦ ⟨_, list_eq p, queues.replies p agent, queues.reply_signal p agent⟩, ?_⟩
  intro p mask waiting raised
  refine schedule_isSome ?_
  rcases waits p mask waiting with zero | mask_eq
  · rw [zero] at raised
    exact absurd BitVec.zero_and raised
  · rw [mask_eq]
    exact raised

/-- A service replies to a call that it has not received, with the handle of an earlier message of
the connection, and the client calls again: the list of the service has no end. -/
theorem not_deliverySound :
    ¬∀ x, JournaledReached samplePlatform (fun _ _ ↦ True) x →
      DeliverySound samplePlatform x.1.1 x.1.2 x.2 := by
  intro sound
  have cyclic : (Run.exec (journaledStep samplePlatform)
      ((initialState samplePlatform (fun _ ↦ 0) .zero, .empty), .empty)
      [.api false (.connect 0 0x100 1), .api true (.get 0x10 0x2000), .api true (.reply 0x402 0),
        .schedule false, .api false (.call 0 0x402 0 0 0), .api true (.reply 0x402 0),
        .schedule false, .api false (.call 0 0x402 0 0 0)]).any
      (fun x ↦ (messageList samplePlatform x.1.1 true).isNone) = true := by
    decide +kernel
  obtain ⟨x, run, endless⟩ := (Option.any_eq_true ..).1 cyclic
  have reached : JournaledReached samplePlatform (fun _ _ ↦ True) x :=
    ⟨_, _, Run.exec_reaches run (Run.allowed_true ..)⟩
  obtain ⟨queue, list_eq, -⟩ := (sound x reached).messages false
  have endless := Option.isNone_iff_eq_none.1 endless
  rw [show (samplePlatform.service false).partition = true from rfl, endless] at list_eq
  cases list_eq

/-- A message that is queued at its service. -/
theorem deliverySound_first_message :
    ∃ x, JournaledReached samplePlatform (Disciplined samplePlatform) x ∧
      (x.2.sent false).length = 1 ∧ DeliverySound samplePlatform x.1.1 x.1.2 x.2 := by
  have sent : (Run.exec (journaledStep samplePlatform)
      ((initialState samplePlatform (fun _ ↦ 0) .zero, .empty), .empty)
      [.api false (.connect 0 0x100 1)]).any (fun x ↦ (x.2.sent false).length = 1) = true := by
    decide +kernel
  obtain ⟨x, run, queued⟩ := (Option.any_eq_true ..).1 sent
  have reached : JournaledReached samplePlatform (Disciplined samplePlatform) x :=
    ⟨_, _, Run.exec_reaches run ⟨rfl, fun _ _ ↦ trivial⟩⟩
  exact ⟨x, reached, of_decide_eq_true queued,
    deliverySound_of_disciplined samplePlatform ⟨by decide, by decide, by decide⟩ (by decide) x
      reached⟩

end TrustedFirmwareM.Spm
