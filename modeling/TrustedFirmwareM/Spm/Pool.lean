import Mathlib.Tactic
import TrustedFirmwareM.Lib.LinkedList
import TrustedFirmwareM.Spm.State

/-!
# The connection pool

Chunks are taken from and returned to a free list, and an allocated chunk is marked by its magic
word.  A handle is the offset of a chunk in the pool, scaled to leave room for a counter that makes
successive handles of one chunk differ.
-/

namespace TrustedFirmwareM.Spm

open LinkedList

variable {Pt Svc : Type} (P : Platform Pt Svc)

/-- Distance between the data of successive chunks. -/
def Platform.stride : ℕ := P.chunksz + 8

/-- Size of the whole pool, its header included. -/
def Platform.poolSz : ℕ := P.stride * P.connHandleMaxNum + 12

/-- Address of the data of a chunk. -/
def Platform.chunkAddress (c : ℕ) : Word :=
  P.poolBase + BitVec.ofNat 32 (12 + P.stride * c + 8)

/-- The chunk whose data is at an address, by the bounds and alignment checks of
`is_valid_chunk_data_in_pool`.  The bound counts the pool header, so it admits one chunk too many.
-/
def Platform.chunkAt (data : Word) : Option ℕ :=
  let chunksStart := P.poolBase + 12
  let chunksOffset := (data - chunksStart).toNat
  if data < chunksStart ∨ P.poolSz ≤ chunksOffset then none
  else if chunksOffset % P.stride ≠ 8 then none
  else some (chunksOffset / P.stride)

/-- `is_valid_chunk_data_in_pool`, returning the chunk it found valid. -/
def isValidChunkDataInPool (s : State Pt Svc) (data : Word) : Option ℕ :=
  (P.chunkAt data).filter fun c ↦ s.magic c = poolMagicAllocated

/-- `tfm_pool_alloc`. -/
def tfmPoolAlloc (s : State Pt Svc) : Option (ℕ × State Pt Svc) :=
  match s.poolNext with
  | none => none
  | some c =>
      some (c, { s with
        poolNext := s.chunkNext c
        chunkNext := Function.update s.chunkNext c none
        magic := Function.update s.magic c poolMagicAllocated })

/-- `tfm_pool_free` of the data of a chunk. -/
def tfmPoolFree (s : State Pt Svc) (c : ℕ) : State Pt Svc :=
  { s with
    magic := Function.update s.magic c 0
    chunkNext := Function.update s.chunkNext c s.poolNext
    poolNext := some c
    connections := Function.update s.connections c (P.scrub (s.connections c)) }

/-- `connection_to_handle`: advance the loop index and convert a connection into a handle. -/
def connectionToHandle (s : State Pt Svc) (c : ℕ) : Word × State Pt Svc :=
  let loopIndex := (s.loopIndex + 1) % 8
  (((P.chunkAddress c - P.poolBase) <<< 3) + 1 + BitVec.ofNat 32 loopIndex,
    { s with loopIndex := loopIndex })

/-- `handle_to_connection`: the address that a handle stands for, before any validation. -/
def handleToConnection (handle : Word) : Option Word :=
  if handle = 0 then none else some (((handle - 1) >>> 3) + P.poolBase)

/-- The chunk that a handle stands for, allocated or not. -/
def Platform.chunkOfHandle (handle : Word) : Option ℕ :=
  (handleToConnection P handle).bind P.chunkAt

/-- `spm_validate_connection` of the connection that a handle stands for. -/
def spmValidateHandle (s : State Pt Svc) (handle : Word) : Option ℕ :=
  (handleToConnection P handle).bind (isValidChunkDataInPool P s)

/-! ## Validation -/

theorem spmValidateHandle_eq_some {s : State Pt Svc} {handle : Word} {c : ℕ} :
    spmValidateHandle P s handle = some c ↔
      P.chunkOfHandle handle = some c ∧ s.magic c = poolMagicAllocated := by
  simp only [spmValidateHandle, isValidChunkDataInPool, Platform.chunkOfHandle,
    Option.bind_eq_some_iff, Option.filter_eq_some_iff, decide_eq_true_eq]
  constructor
  · rintro ⟨data, data_eq, chunk, magic⟩
    exact ⟨⟨data, data_eq, chunk⟩, magic⟩
  · rintro ⟨⟨data, data_eq, chunk⟩, magic⟩
    exact ⟨data, data_eq, chunk, magic⟩

theorem chunkOffset_lt {c : ℕ} (c_le : c ≤ P.connHandleMaxNum) :
    12 + P.stride * c + 8 ≤ 12 + (P.connHandleMaxNum + 1) * (P.chunksz + 8) := by
  have product_le : P.stride * c ≤ P.stride * P.connHandleMaxNum := Nat.mul_le_mul_left _ c_le
  have expand : (P.connHandleMaxNum + 1) * (P.chunksz + 8) =
      P.stride * P.connHandleMaxNum + P.stride := by
    simp only [Platform.stride]
    ring
  simp only [Platform.stride] at expand product_le ⊢
  omega

/-- The address of a chunk is recognised as that chunk. -/
theorem Platform.chunkAt_chunkAddress {c : ℕ} (c_le : c ≤ P.connHandleMaxNum) :
    P.chunkAt (P.chunkAddress c) = some c := by
  have offset_le := chunkOffset_lt P c_le
  have fits := P.pool_fits
  have positive := P.chunksz_pos
  have base_lt := P.poolBase.isLt
  have start : (P.poolBase + 12).toNat = P.poolBase.toNat + 12 := by
    rw [BitVec.toNat_add]
    exact Nat.mod_eq_of_lt (by simp; omega)
  have address : (P.chunkAddress c).toNat = P.poolBase.toNat + (12 + P.stride * c + 8) := by
    rw [Platform.chunkAddress, BitVec.toNat_add, BitVec.toNat_ofNat,
      Nat.mod_eq_of_lt (show 12 + P.stride * c + 8 < 2 ^ 32 by omega)]
    exact Nat.mod_eq_of_lt (by omega)
  have offset : (P.chunkAddress c - (P.poolBase + 12)).toNat = P.stride * c + 8 := by
    rw [BitVec.toNat_sub_of_le (BitVec.le_def.2 (by omega)), address, start]
    omega
  have bound : P.stride * c ≤ P.stride * P.connHandleMaxNum := Nat.mul_le_mul_left _ c_le
  have stride_gt : 8 < P.stride := by simp only [Platform.stride]; omega
  have inside : ¬(P.chunkAddress c < P.poolBase + 12 ∨
      P.poolSz ≤ (P.chunkAddress c - (P.poolBase + 12)).toNat) := by
    rw [not_or, BitVec.lt_def, offset, Platform.poolSz]
    constructor <;> omega
  have aligned : (P.stride * c + 8) % P.stride = 8 := by
    rw [Nat.mul_add_mod, Nat.mod_eq_of_lt stride_gt]
  have quotient : (P.stride * c + 8) / P.stride = c := by
    rw [Nat.mul_add_div (by omega), Nat.div_eq_of_lt stride_gt, Nat.add_zero]
  rw [Platform.chunkAt, if_neg inside, offset, aligned, quotient]
  simp

/-- The value of a handle. -/
theorem connectionToHandle_toNat (s : State Pt Svc) {c : ℕ} (c_le : c ≤ P.connHandleMaxNum) :
    (connectionToHandle P s c).1.toNat =
      (12 + P.stride * c + 8) * 8 + 1 + (s.loopIndex + 1) % 8 := by
  have offset_le := chunkOffset_lt P c_le
  have fits := P.handle_fits
  have difference : P.chunkAddress c - P.poolBase = BitVec.ofNat 32 (12 + P.stride * c + 8) := by
    rw [Platform.chunkAddress, BitVec.add_comm, BitVec.add_sub_cancel]
  have loop_lt : (s.loopIndex + 1) % 8 < 8 := Nat.mod_lt _ (by omega)
  have one : (1 : Word).toNat = 1 := rfl
  simp only [connectionToHandle, difference, BitVec.toNat_add, BitVec.toNat_shiftLeft,
    BitVec.toNat_ofNat, Nat.shiftLeft_eq]
  omega

/-- A handle stands for the connection it was made from. -/
theorem chunkOfHandle_connectionToHandle (s : State Pt Svc) {c : ℕ}
    (c_le : c ≤ P.connHandleMaxNum) :
    P.chunkOfHandle (connectionToHandle P s c).1 = some c := by
  have value := connectionToHandle_toNat P s c_le
  have nonzero : (connectionToHandle P s c).1 ≠ 0 := by
    intro zero
    rw [zero, show (0 : Word).toNat = 0 from rfl] at value
    omega
  have loop_lt : (s.loopIndex + 1) % 8 < 8 := Nat.mod_lt _ (by omega)
  have offset : ((connectionToHandle P s c).1 - 1) >>> 3 =
      BitVec.ofNat 32 (12 + P.stride * c + 8) := by
    have offset_le := chunkOffset_lt P c_le
    have fits := P.handle_fits
    apply BitVec.eq_of_toNat_eq
    rw [BitVec.toNat_ushiftRight, BitVec.toNat_sub_of_le (BitVec.le_def.2 (by simp; omega)), value,
      BitVec.toNat_ofNat, Nat.shiftRight_eq_div_pow, show (1 : Word).toNat = 1 from rfl]
    omega
  rw [Platform.chunkOfHandle, handleToConnection, if_neg nonzero, Option.bind_some, offset,
    BitVec.add_comm]
  exact P.chunkAt_chunkAddress c_le

/-! ## The free list -/

/-- The free list holds exactly the chunks of the pool that are not allocated, and nothing behind
the pool looks allocated. -/
structure PoolInv (s : State Pt Svc) : Prop where
  /-- The free list and its members. -/
  free_list : ∃ free, Chain s.chunkNext s.poolNext free ∧
    ∀ c, c ∈ free ↔ c < P.connHandleMaxNum ∧ s.magic c ≠ poolMagicAllocated
  /-- Allocated chunks are chunks of the pool. -/
  allocated_lt : ∀ c, s.magic c = poolMagicAllocated → c < P.connHandleMaxNum

variable {P}

/-- What an allocation does: it marks a free chunk of the pool and changes nothing else. -/
theorem tfmPoolAlloc_spec {s s' : State Pt Svc} {c : ℕ} (pool : PoolInv P s)
    (alloc : tfmPoolAlloc s = some (c, s')) :
    c < P.connHandleMaxNum ∧ s.magic c ≠ poolMagicAllocated ∧ PoolInv P s' ∧
      s'.magic = Function.update s.magic c poolMagicAllocated ∧
      s'.connections = s.connections ∧ s'.partitions = s.partitions ∧
      s'.memory = s.memory ∧ s'.loopIndex = s.loopIndex ∧ s'.services = s.services := by
  obtain ⟨free, chain, mem_free⟩ := pool.free_list
  rw [tfmPoolAlloc] at alloc
  cases head : s.poolNext with
  | none =>
      rw [head] at alloc
      cases alloc
  | some first =>
      rw [head] at alloc chain
      cases alloc
      cases chain with
      | @cons _ rest tail =>
          have distinct := (Chain.cons tail).nodup
          rw [List.nodup_cons] at distinct
          obtain ⟨c_lt, c_free⟩ := (mem_free c).1 List.mem_cons_self
          refine ⟨c_lt, c_free, ⟨⟨rest, ?_, ?_⟩, ?_⟩, rfl, rfl, rfl, rfl, rfl, rfl⟩
          · refine tail.congr fun other member => Function.update_of_ne ?_ _ _
            rintro rfl
            exact distinct.1 member
          · intro d
            by_cases d_eq : d = c
            · subst d_eq
              simp [distinct.1]
            · simp only [Function.update_of_ne d_eq]
              rw [← mem_free, List.mem_cons]
              simp [d_eq]
          · intro d
            by_cases d_eq : d = c
            · subst d_eq
              intro _
              exact c_lt
            · simp only [Function.update_of_ne d_eq]
              exact pool.allocated_lt d

/-- Freeing an allocated chunk puts it back on the free list. -/
theorem tfmPoolFree_poolInv {s : State Pt Svc} {c : ℕ} (pool : PoolInv P s)
    (allocated : s.magic c = poolMagicAllocated) : PoolInv P (tfmPoolFree P s c) := by
  obtain ⟨free, chain, mem_free⟩ := pool.free_list
  have c_fresh : c ∉ free := fun member => ((mem_free c).1 member).2 allocated
  refine ⟨⟨c :: free, chain.push c_fresh, ?_⟩, ?_⟩
  · intro d
    by_cases d_eq : d = c
    · subst d_eq
      simp only [List.mem_cons, true_or, tfmPoolFree, Function.update_self, true_iff]
      exact ⟨pool.allocated_lt d allocated, by decide⟩
    · simp only [List.mem_cons, d_eq, false_or, tfmPoolFree, Function.update_of_ne d_eq]
      exact mem_free d
  · intro d
    by_cases d_eq : d = c
    · subst d_eq
      simp only [tfmPoolFree, Function.update_self]
      intro zero
      exact absurd zero (by decide)
    · simp only [tfmPoolFree, Function.update_of_ne d_eq]
      exact pool.allocated_lt d

/-- The pool invariant reads only the free list and the magic words. -/
theorem PoolInv.congr {s s' : State Pt Svc} (pool : PoolInv P s)
    (poolNext : s'.poolNext = s.poolNext) (chunkNext : s'.chunkNext = s.chunkNext)
    (magic : s'.magic = s.magic) : PoolInv P s' := by
  refine ⟨?_, ?_⟩
  · rw [poolNext, chunkNext, magic]
    exact pool.free_list
  · rw [magic]
    exact pool.allocated_lt

end TrustedFirmwareM.Spm
