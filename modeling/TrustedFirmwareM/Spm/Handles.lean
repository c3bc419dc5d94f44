import TrustedFirmwareM.Spm.Discipline

/-!
# Handles of the connection pool

A handle is made from the address of a connection and a counter of three bits that every allocation
advances.  The way back drops the counter: whatever its last three bits are, a handle stands for the
chunk at its address, and the lookup asks only whether that chunk is allocated.  The value that was
issued is kept in the message but never compared, so a handle of a closed connection stands for
whatever connection took its chunk.
-/

namespace TrustedFirmwareM.Spm

open LinkedList

variable {Pt Svc : Type}

/-! ## Allocations and frees -/

/-- What the manager does with the pool. -/
inductive PoolAction (Pt Svc : Type)
  /-- A connection is allocated and initialised, and its handle is issued. -/
  | allocate (caller : Pt) (σ : Svc) (clientId : ℤ)
  /-- The connection on a chunk is freed. -/
  | free (c : ℕ)

/-- What happened to the pool.  Allocations are numbered from 1. -/
structure PoolLog where
  /-- Number of allocations so far. -/
  allocations : ℕ
  /-- Numbers of the allocations that took a chunk, the latest first. -/
  takenBy : ℕ → List ℕ
  /-- Handles issued for the connections on a chunk, the latest first. -/
  issued : ℕ → List Word
  /-- The chunk carries a connection that was not freed. -/
  live : ℕ → Bool

/-- The log before any allocation. -/
def PoolLog.empty : PoolLog where
  allocations := 0
  takenBy := fun _ ↦ []
  issued := fun _ ↦ []
  live := fun _ ↦ false

/-- Enter that a chunk was allocated under a handle. -/
def PoolLog.allocate (log : PoolLog) (c : ℕ) (handle : Word) : PoolLog where
  allocations := log.allocations + 1
  takenBy := Function.update log.takenBy c ((log.allocations + 1) :: log.takenBy c)
  issued := Function.update log.issued c (handle :: log.issued c)
  live := Function.update log.live c true

/-- Enter that a chunk was freed. -/
def PoolLog.free (log : PoolLog) (c : ℕ) : PoolLog :=
  { log with live := Function.update log.live c false }

/-- The handles of the connections on a chunk that were closed. -/
def PoolLog.closed (log : PoolLog) (c : ℕ) : List Word :=
  if log.live c then (log.issued c).tail else log.issued c

/-- One allocation or free.  `spm_free_connection` is given connections of the pool only. -/
def poolStep (P : Platform Pt Svc) (x : State Pt Svc × PoolLog) :
    PoolAction Pt Svc → Option (State Pt Svc × PoolLog)
  | .allocate caller σ clientId =>
      match tfmPoolAlloc x.1 with
      | none => none
      | some (c, s) =>
          let s := spmInitIdleConnection P s caller c σ clientId
          some (s, x.2.allocate c (s.connections c).msg.handle)
  | .free c =>
      if c < P.connHandleMaxNum ∧ x.1.magic c = poolMagicAllocated then
        some (tfmPoolFree P x.1 c, x.2.free c)
      else none

/-- States of the pool reached by allocations and frees. -/
def PoolReached (P : Platform Pt Svc) (x : State Pt Svc × PoolLog) : Prop :=
  ∃ memory behind, Run.Reaches (poolStep P) (fun _ _ ↦ True)
    (initialState P memory behind, .empty) x

/-- What is asked of the lookup of a handle; the lookups of client handles and of message handles
both go through it. -/
structure HandleSound (P : Platform Pt Svc) (s : State Pt Svc) (log : PoolLog) (handle : Word) :
    Prop where
  /-- The connection found is one that is allocated. -/
  allocated : ∀ c, spmValidateHandle P s handle = some c → log.live c = true
  /-- The handle is the one that was last issued for the connection found. -/
  latest : ∀ c, spmValidateHandle P s handle = some c → (log.issued c).head? = some handle
  /-- The handle of a connection that was closed is rejected. -/
  closed : ∀ c, handle ∈ log.closed c → spmValidateHandle P s handle = none

/-! ## The value of a handle -/

/-- The handle that the allocation of a given number issues for a chunk. -/
def Platform.handleOf (P : Platform Pt Svc) (c n : ℕ) : Word :=
  BitVec.ofNat 32 ((12 + P.stride * c + 8) * 8 + 1 + n % 8)

theorem connectionToHandle_eq (P : Platform Pt Svc) (s : State Pt Svc) {c : ℕ}
    (c_le : c ≤ P.connHandleMaxNum) :
    (connectionToHandle P s c).1 = P.handleOf c (s.loopIndex + 1) := by
  have value := connectionToHandle_toNat P s c_le
  have value_lt := (connectionToHandle P s c).1.isLt
  apply BitVec.eq_of_toNat_eq
  rw [Platform.handleOf, BitVec.toNat_ofNat, ← value, Nat.mod_eq_of_lt value_lt]

/-- Only the address of a chunk is recognised as that chunk, and at most one chunk behind the pool
is recognised. -/
theorem Platform.chunkAt_eq_some (P : Platform Pt Svc) {data : Word} {c : ℕ}
    (found : P.chunkAt data = some c) : data = P.chunkAddress c ∧ c ≤ P.connHandleMaxNum := by
  rw [Platform.chunkAt] at found
  split at found
  · cases found
  next inside =>
  split at found
  · cases found
  next aligned =>
  rw [not_or, not_le, Platform.poolSz] at inside
  rw [not_not] at aligned
  have quotient := Option.some.inj found
  have parts := Nat.div_add_mod (data - (P.poolBase + 12)).toNat P.stride
  rw [aligned, quotient] at parts
  constructor
  · have offset : data - (P.poolBase + 12) = BitVec.ofNat 32 (P.stride * c + 8) := by
      rw [parts, BitVec.ofNat_toNat, BitVec.setWidth_eq]
    calc data = data - (P.poolBase + 12) + (P.poolBase + 12) := (BitVec.sub_add_cancel ..).symm
      _ = P.poolBase + (12 + BitVec.ofNat 32 (P.stride * c + 8)) := by
        rw [offset]
        ring
      _ = P.chunkAddress c := by
        rw [Platform.chunkAddress, Nat.add_assoc, BitVec.ofNat_add 12]
        rfl
  · have stride_pos : 8 < P.stride := by
      have := P.chunksz_pos
      simp only [Platform.stride]
      omega
    by_contra beyond
    have product := Nat.mul_le_mul_left P.stride (Nat.succ_le_of_lt (not_le.1 beyond))
    rw [Nat.mul_succ] at product
    omega

/-- A handle that stands for a chunk is one of the eight that can be issued for it. -/
theorem Platform.chunkOfHandle_eq_some (P : Platform Pt Svc) {handle : Word} {c : ℕ}
    (found : P.chunkOfHandle handle = some c) :
    handle = P.handleOf c (handle - 1).toNat ∧ c ≤ P.connHandleMaxNum := by
  simp only [Platform.chunkOfHandle, handleToConnection, Option.bind_eq_some_iff,
    Option.ite_none_left_eq_some, Option.some.injEq] at found
  obtain ⟨data, ⟨nonzero, rfl⟩, found⟩ := found
  obtain ⟨address, c_le⟩ := P.chunkAt_eq_some found
  refine ⟨?_, c_le⟩
  rw [Platform.chunkAddress, BitVec.add_comm] at address
  have offset_le := chunkOffset_lt P c_le
  have fits := P.handle_fits
  have quotient : (handle - 1).toNat / 8 = 12 + P.stride * c + 8 := by
    have shifted := congrArg BitVec.toNat (add_left_cancel address)
    rw [BitVec.toNat_ushiftRight, Nat.shiftRight_eq_div_pow, BitVec.toNat_ofNat] at shifted
    omega
  have parts := Nat.div_add_mod (handle - 1).toNat 8
  have less := (handle - 1).isLt
  calc handle = handle - 1 + 1 := (BitVec.sub_add_cancel ..).symm
    _ = BitVec.ofNat 32 ((handle - 1).toNat + 1) := by
      rw [BitVec.ofNat_add, BitVec.ofNat_toNat, BitVec.setWidth_eq]
      rfl
    _ = P.handleOf c (handle - 1).toNat := by
      rw [Platform.handleOf]
      congr 1
      omega

theorem Platform.handleOf_toNat (P : Platform Pt Svc) {c : ℕ} (n : ℕ)
    (c_le : c ≤ P.connHandleMaxNum) :
    (P.handleOf c n).toNat = (12 + P.stride * c + 8) * 8 + 1 + n % 8 := by
  have offset_le := chunkOffset_lt P c_le
  have fits := P.handle_fits
  rw [Platform.handleOf, BitVec.toNat_ofNat]
  omega

/-- The counter of an issued handle can be read off it. -/
theorem Platform.handleOf_counter (P : Platform Pt Svc) {c : ℕ} (n : ℕ)
    (c_le : c ≤ P.connHandleMaxNum) : (P.handleOf c n - 1).toNat % 8 = n % 8 := by
  have value := P.handleOf_toNat n c_le
  rw [BitVec.toNat_sub_of_le (BitVec.le_def.2 (by simp; omega)), value,
    show (1 : Word).toNat = 1 from rfl]
  omega

theorem Platform.chunkOfHandle_handleOf (P : Platform Pt Svc) {c : ℕ} (n : ℕ)
    (c_le : c ≤ P.connHandleMaxNum) : P.chunkOfHandle (P.handleOf c n) = some c := by
  let s : State Pt Svc := { initialState P (fun _ ↦ 0) .zero with loopIndex := n + 7 }
  have counter : (s.loopIndex + 1) % 8 = n % 8 := by
    simp only [s]
    omega
  have issued : P.handleOf c n = (connectionToHandle P s c).1 := by
    rw [connectionToHandle_eq P s c_le, Platform.handleOf, Platform.handleOf, counter]
  rw [issued]
  exact chunkOfHandle_connectionToHandle P s c_le

/-! ## Runs of the pool -/

/-- The pool agrees with its log. -/
structure PoolHistory (P : Platform Pt Svc) (s : State Pt Svc) (log : PoolLog) : Prop where
  /-- The free list holds the chunks of the pool without a connection. -/
  free_list : ∃ free, Chain s.chunkNext s.poolNext free ∧
    ∀ c, c ∈ free ↔ c < P.connHandleMaxNum ∧ log.live c = false
  /-- The magic words of the pool tell which chunks carry a connection. -/
  magic : ∀ c, c < P.connHandleMaxNum → (s.magic c = poolMagicAllocated ↔ log.live c = true)
  /-- Connections are on chunks of the pool that were allocated. -/
  live : ∀ c, log.live c = true → log.takenBy c ≠ []
  /-- Allocated chunks are chunks of the pool. -/
  taken_lt : ∀ c, log.takenBy c ≠ [] → c < P.connHandleMaxNum
  /-- The counter follows the number of allocations. -/
  counter : s.loopIndex = log.allocations % 8
  /-- The handles issued for a chunk are those of its allocations. -/
  issued : ∀ c, log.issued c = (log.takenBy c).map (P.handleOf c)

theorem poolHistory_initial (P : Platform Pt Svc) (memory : Word → BitVec 8)
    (behind : Connection Pt Svc) : PoolHistory P (initialState P memory behind) .empty := by
  refine ⟨⟨_, initial_chain P.connHandleMaxNum, ?_⟩, ?_, ?_, ?_, rfl, fun _ ↦ rfl⟩
  · intro c
    simp [PoolLog.empty]
  · intro c c_lt
    simp only [initialState, c_lt, if_true, PoolLog.empty]
    decide
  · intro c live
    cases live
  · intro c taken
    exact absurd rfl taken

theorem PoolHistory.allocate {P : Platform Pt Svc} {s s₁ : State Pt Svc} {log : PoolLog} {c : ℕ}
    (history : PoolHistory P s log) (alloc : tfmPoolAlloc s = some (c, s₁)) (caller : Pt) (σ : Svc)
    (clientId : ℤ) :
    PoolHistory P (spmInitIdleConnection P s₁ caller c σ clientId)
      (log.allocate c ((spmInitIdleConnection P s₁ caller c σ clientId).connections c).msg.handle)
    := by
  obtain ⟨free, chain, mem_free⟩ := history.free_list
  rw [tfmPoolAlloc] at alloc
  cases head : s.poolNext with
  | none =>
      rw [head] at alloc
      cases alloc
  | some first =>
      rw [head] at alloc chain
      cases alloc
      cases chain with
      | @cons _ rest tail =>
          have distinct := (Chain.cons tail).nodup
          rw [List.nodup_cons] at distinct
          obtain ⟨c_lt, c_free⟩ := (mem_free c).1 List.mem_cons_self
          refine ⟨⟨rest, ?_, ?_⟩, ?_, ?_, ?_, ?_, ?_⟩
          · refine tail.congr fun other member ↦ Function.update_of_ne ?_ _ _
            rintro rfl
            exact distinct.1 member
          · intro d
            by_cases d_eq : d = c
            · subst d_eq
              simp [PoolLog.allocate, distinct.1]
            · simp only [PoolLog.allocate, Function.update_of_ne d_eq]
              rw [← mem_free, List.mem_cons]
              simp [d_eq]
          · intro d d_lt
            by_cases d_eq : d = c
            · subst d_eq
              simp [PoolLog.allocate, spmInitIdleConnection, connectionToHandle]
            · simpa [PoolLog.allocate, spmInitIdleConnection, connectionToHandle, d_eq] using
                history.magic d d_lt
          · intro d
            by_cases d_eq : d = c
            · subst d_eq
              simp [PoolLog.allocate]
            · simpa [PoolLog.allocate, d_eq] using history.live d
          · intro d
            by_cases d_eq : d = c
            · subst d_eq
              exact fun _ ↦ c_lt
            · simpa [PoolLog.allocate, d_eq] using history.taken_lt d
          · simp [PoolLog.allocate, spmInitIdleConnection, connectionToHandle, history.counter]
          · intro d
            by_cases d_eq : d = c
            · subst d_eq
              have counter : (s.loopIndex + 1) % 8 = (log.allocations + 1) % 8 := by
                rw [history.counter]
                omega
              simp only [PoolLog.allocate, Function.update_self, List.map_cons, history.issued,
                List.cons.injEq, and_true, spmInitIdleConnection, setConnection_connections]
              rw [connectionToHandle_eq P _ c_lt.le, Platform.handleOf, Platform.handleOf, counter]
            · simpa [PoolLog.allocate, d_eq] using history.issued d

theorem PoolHistory.free {P : Platform Pt Svc} {s : State Pt Svc} {log : PoolLog} {c : ℕ}
    (history : PoolHistory P s log) (c_lt : c < P.connHandleMaxNum)
    (allocated : s.magic c = poolMagicAllocated) :
    PoolHistory P (tfmPoolFree P s c) (log.free c) := by
  obtain ⟨free, chain, mem_free⟩ := history.free_list
  have live := (history.magic c c_lt).1 allocated
  have c_fresh : c ∉ free := by
    rw [mem_free, live]
    simp
  refine ⟨⟨c :: free, chain.push c_fresh, ?_⟩, ?_, ?_, history.taken_lt, history.counter,
    history.issued⟩
  · intro d
    by_cases d_eq : d = c
    · subst d_eq
      simp [PoolLog.free, c_lt]
    · simp [PoolLog.free, d_eq, mem_free]
  · intro d d_lt
    by_cases d_eq : d = c
    · subst d_eq
      simp only [tfmPoolFree, PoolLog.free, Function.update_self]
      decide
    · simpa [tfmPoolFree, PoolLog.free, d_eq] using history.magic d d_lt
  · intro d
    by_cases d_eq : d = c
    · subst d_eq
      simp [PoolLog.free]
    · simpa [PoolLog.free, d_eq] using history.live d

theorem poolHistory_of_reached {P : Platform Pt Svc} {x : State Pt Svc × PoolLog}
    (reached : PoolReached P x) : PoolHistory P x.1 x.2 := by
  obtain ⟨memory, behind, reaches⟩ := reached
  refine reaches.invariant (I := fun x ↦ PoolHistory P x.1 x.2)
    (poolHistory_initial P memory behind) ?_
  intro before action after history _ step_eq
  cases action with
  | allocate caller σ clientId =>
      rw [poolStep] at step_eq
      split at step_eq
      · cases step_eq
      next c s alloc =>
      cases step_eq
      exact history.allocate alloc caller σ clientId
  | free c =>
      rw [poolStep] at step_eq
      split at step_eq
      next allocated =>
        cases step_eq
        exact history.free allocated.1 allocated.2
      · cases step_eq

/-! ## When the lookup is sound -/

/-- The chunk at the address of a handle is not marked as allocated, or it is a chunk of the pool
whose connection was made by an allocation with the counter of the handle, and no earlier allocation
of the chunk had that counter. -/
def CounterAgrees (P : Platform Pt Svc) (s : State Pt Svc) (log : PoolLog) (handle : Word) : Prop :=
  ∀ c, P.chunkOfHandle handle = some c → s.magic c = poolMagicAllocated →
    c < P.connHandleMaxNum ∧ ∃ n earlier, log.takenBy c = n :: earlier ∧
      n % 8 = (handle - 1).toNat % 8 ∧ ∀ m ∈ earlier, m % 8 ≠ n % 8

theorem PoolHistory.closed_eq {P : Platform Pt Svc} {s : State Pt Svc} {log : PoolLog} {c n : ℕ}
    {earlier : List ℕ} (history : PoolHistory P s log) (live : log.live c = true)
    (taken : log.takenBy c = n :: earlier) : log.closed c = earlier.map (P.handleOf c) := by
  rw [PoolLog.closed, if_pos live, history.issued, taken]
  rfl

/-- In every state of the pool, the lookup of a value is sound exactly if the counter of the value
tells the connection from all others that its chunk carried. -/
theorem handleSound_iff_counterAgrees (P : Platform Pt Svc) (x : State Pt Svc × PoolLog)
    (handle : Word) (reached : PoolReached P x) :
    HandleSound P x.1 x.2 handle ↔ CounterAgrees P x.1 x.2 handle := by
  have history := poolHistory_of_reached reached
  constructor
  · intro sound c chunk magic
    have found := (spmValidateHandle_eq_some P).2 ⟨chunk, magic⟩
    have live := sound.allocated c found
    have latest := sound.latest c found
    have taken := history.live c live
    have c_lt := history.taken_lt c taken
    obtain ⟨n, earlier, taken_eq⟩ := List.exists_cons_of_ne_nil taken
    rw [history.issued, taken_eq] at latest
    have handle_eq := Option.some.inj latest
    refine ⟨c_lt, n, earlier, taken_eq, ?_, ?_⟩
    · rw [← handle_eq, P.handleOf_counter n c_lt.le]
    · intro m member same
      have again : P.handleOf c m = handle := by
        rw [← handle_eq, Platform.handleOf, Platform.handleOf, same]
      have rejected := sound.closed c (by
        rw [history.closed_eq live taken_eq, ← again]
        exact List.mem_map_of_mem member)
      rw [found] at rejected
      cases rejected
  · intro agrees
    have resolved : ∀ c, spmValidateHandle P x.1 handle = some c →
        x.2.live c = true ∧ ∃ n earlier, x.2.takenBy c = n :: earlier ∧ handle = P.handleOf c n ∧
          ∀ m ∈ earlier, P.handleOf c m ≠ handle := by
      intro c found
      obtain ⟨chunk, magic⟩ := (spmValidateHandle_eq_some P).1 found
      obtain ⟨c_lt, n, earlier, taken, counter, differ⟩ := agrees c chunk magic
      refine ⟨(history.magic c c_lt).1 magic, n, earlier, taken, ?_, ?_⟩
      · rw [Platform.handleOf, counter]
        exact (P.chunkOfHandle_eq_some chunk).1
      · intro m member same
        refine differ m member ?_
        rw [counter, ← same, P.handleOf_counter m c_lt.le]
    refine ⟨fun c found ↦ (resolved c found).1, ?_, ?_⟩
    · intro c found
      obtain ⟨-, n, earlier, taken, handle_eq, -⟩ := resolved c found
      rw [history.issued, taken, handle_eq]
      rfl
    · intro c closed
      by_contra accepted
      obtain ⟨d, found⟩ := Option.ne_none_iff_exists'.1 accepted
      obtain ⟨live, n, earlier, taken, -, differ⟩ := resolved d found
      have issued : handle ∈ x.2.issued c := by
        rw [PoolLog.closed] at closed
        split at closed
        · exact List.mem_of_mem_tail closed
        · exact closed
      rw [history.issued, List.mem_map] at issued
      obtain ⟨m, member, handle_eq⟩ := issued
      have c_lt := history.taken_lt c (List.ne_nil_of_mem member)
      have same : c = d := by
        have chunk := P.chunkOfHandle_handleOf m c_lt.le
        rw [handle_eq, ((spmValidateHandle_eq_some P).1 found).1] at chunk
        exact (Option.some.inj chunk).symm
      subst same
      rw [history.closed_eq live taken, List.mem_map] at closed
      obtain ⟨m, member, handle_eq⟩ := closed
      exact differ m member handle_eq

/-- A connection is made and freed, and another one takes its chunk: the handle of the first one
stands for the second one. -/
theorem not_handleSound :
    ¬∀ x handle, PoolReached samplePlatform x → HandleSound samplePlatform x.1 x.2 handle := by
  intro sound
  have stale : (Run.exec (poolStep samplePlatform)
      (initialState samplePlatform (fun _ ↦ 0) .zero, .empty)
      [.allocate false false 1, .free 1, .allocate false false 1]).any
      (fun x ↦ x.2.issued 1 = [0x403, 0x402] ∧
        spmValidateHandle samplePlatform x.1 0x402 = some 1) = true := by
    decide +kernel
  obtain ⟨x, run, holds⟩ := (Option.any_eq_true ..).1 stale
  obtain ⟨issued, found⟩ := of_decide_eq_true holds
  have reached : PoolReached samplePlatform x :=
    ⟨_, _, Run.exec_reaches run (Run.allowed_true ..)⟩
  have latest := (sound x 0x402 reached).latest 1 found
  rw [issued] at latest
  exact absurd latest (by decide)

/-- The handle of the second connection of that run. -/
theorem handleSound_second_connection :
    ∃ x, PoolReached samplePlatform x ∧ CounterAgrees samplePlatform x.1 x.2 0x403 ∧
      HandleSound samplePlatform x.1 x.2 0x403 := by
  have taken : (Run.exec (poolStep samplePlatform)
      (initialState samplePlatform (fun _ ↦ 0) .zero, .empty)
      [.allocate false false 1, .free 1, .allocate false false 1]).any
      (fun x ↦ x.2.takenBy 1 = [2, 1]) = true := by
    decide +kernel
  obtain ⟨x, run, holds⟩ := (Option.any_eq_true ..).1 taken
  have reached : PoolReached samplePlatform x :=
    ⟨_, _, Run.exec_reaches run (Run.allowed_true ..)⟩
  have agrees : CounterAgrees samplePlatform x.1 x.2 0x403 := by
    intro c chunk _
    cases (show samplePlatform.chunkOfHandle 0x403 = some 1 by decide).symm.trans chunk
    exact ⟨by decide, 2, [1], of_decide_eq_true holds, by decide, by decide⟩
  exact ⟨x, reached, agrees, (handleSound_iff_counterAgrees _ x 0x403 reached).2 agrees⟩

end TrustedFirmwareM.Spm
