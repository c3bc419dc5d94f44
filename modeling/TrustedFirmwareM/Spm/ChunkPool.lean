import Mathlib.Data.List.Perm.Basic
import TrustedFirmwareM.Lib.Run
import TrustedFirmwareM.Spm.Memory
import TrustedFirmwareM.Spm.Pool

/-!
# The chunk pool in memory

The pool as it lies in memory: a header with the head of the free list and the two sizes, followed
by chunks that each start with a link and a magic word.  Between allocations and frees, the owners
of chunks and everybody outside the pool may store what they like.
-/

namespace TrustedFirmwareM.Spm.ChunkPool

open LinkedList

/-! ## The code -/

/-- Memory by bytes. -/
abbrev Memory := Word → BitVec 8

/-- `SPM_ERROR_BAD_PARAMETERS`. -/
def spmErrorBadParameters : ℤ := -249

/-- `spm_memset`. -/
def spmMemset (m : Memory) (destination : Word) (value : BitVec 8) (size : Word) : Memory :=
  fun address ↦ if address - destination < size then value else m address

/-- `UNI_LIST_INSERT_AFTER`; the link is the first word of the pool and of a chunk. -/
def uniListInsertAfter (m : Memory) (posi node : Word) : Memory :=
  storeWord (storeWord m node (loadWord m posi)) posi node

/-- `UNI_LIST_REMOVE_NODE`. -/
def uniListRemoveNode (m : Memory) (prev node : Word) : Memory :=
  storeWord (storeWord m prev (loadWord m node)) node 0

/-- The loop of `tfm_pool_init` that chains the chunks from `pchunk` on. -/
def chainChunks (pool chunksz : Word) : ℕ → Word → Memory → Memory
  | 0, _, m => m
  | count + 1, pchunk, m =>
      chainChunks pool chunksz count (pchunk + 8 + chunksz) (uniListInsertAfter m pool pchunk)

/-- `tfm_pool_init`. -/
def tfmPoolInit (m : Memory) (pool poolsz chunksz num : Word) : ℤ × Memory :=
  if pool = 0 ∨ num = 0 then (spmErrorBadParameters, m)
  else if poolsz ≠ (chunksz + 8) * num + 12 then (spmErrorBadParameters, m)
  else
    let m := spmMemset m pool 0 poolsz
    let m := storeWord m pool 0
    let m := chainChunks pool chunksz num.toNat (pool + 12) m
    let m := storeWord m (pool + 4) chunksz
    (psaSuccess, storeWord m (pool + 8) poolsz)

/-- `tfm_pool_alloc`; 0 is the null pointer. -/
def tfmPoolAlloc (m : Memory) (pool : Word) : Word × Memory :=
  if pool = 0 then (0, m)
  else if loadWord m pool = 0 then (0, m)
  else
    let node := loadWord m pool
    let m := uniListRemoveNode m pool node
    (node + 8, storeWord m (node + 4) poolMagicAllocated)

/-- `is_valid_chunk_data_in_pool`, with the words that it inspects. -/
def isValidChunkDataInPool (m : Memory) (pool data : Word) : Bool × List Word :=
  let chunksStart := pool + 12
  let chunksOffset := data - chunksStart
  if data < chunksStart then (false, [])
  else if loadWord m (pool + 8) ≤ chunksOffset then (false, [pool + 8])
  else if chunksOffset % (loadWord m (pool + 4) + 8) ≠ 8 then (false, [pool + 8, pool + 4])
  else
    let pchunk := data - 8
    (loadWord m (pchunk + 4) = poolMagicAllocated, [pool + 8, pool + 4, pchunk + 4])

/-- `tfm_pool_free`.  A debug build stops at pointers that are not valid and overwrites the data. -/
def tfmPoolFree (debug : Bool) (m : Memory) (pool ptr : Word) : Option Memory :=
  if debug && !(isValidChunkDataInPool m pool ptr).1 then none
  else
    let pchunk := ptr - 8
    let m := storeWord m (pchunk + 4) 0
    let m := uniListInsertAfter m pool pchunk
    some (if debug then spmMemset m (pchunk + 8) 0xFF (loadWord m (pool + 4)) else m)

/-! ## Runs -/

/-- A pool as `TFM_POOL_DECLARE` declares it: a buffer for a number of chunks. -/
structure Pool where
  /-- Address of the buffer. -/
  base : Word
  /-- Size of a chunk. -/
  chunksz : ℕ
  /-- Number of chunks. -/
  num : ℕ
  /-- There is a chunk. -/
  num_pos : 0 < num
  /-- The buffer and its end are in the address space. -/
  fits : base.toNat + ((chunksz + 8) * num + 12) < 2 ^ 32

/-- Distance of the chunks. -/
def Pool.stride (P : Pool) : ℕ := P.chunksz + 8

/-- Size of the buffer. -/
def Pool.poolSz (P : Pool) : ℕ := P.stride * P.num + 12

/-- Address of a byte of the pool. -/
def Pool.at (P : Pool) (offset : ℕ) : Word := P.base + BitVec.ofNat 32 offset

/-- Address of a chunk. -/
def Pool.chunk (P : Pool) (c : ℕ) : Word := P.at (12 + P.stride * c)

/-- Address of the data of a chunk. -/
def Pool.data (P : Pool) (c : ℕ) : Word := P.at (12 + P.stride * c + 8)

/-- The address of a byte is inside the pool. -/
def Pool.Inside (P : Pool) (address : Word) : Prop := ∃ offset < P.poolSz, address = P.at offset

/-- Memory and the pointers that have been handed out and not been given back. -/
structure State where
  /-- Memory. -/
  memory : Memory
  /-- Outstanding allocations. -/
  allocated : List Word

/-- What happens to a pool. -/
inductive Action
  /-- `tfm_pool_alloc`. -/
  | alloc
  /-- `tfm_pool_free`. -/
  | free (ptr : Word)
  /-- A byte is stored. -/
  | store (address : Word) (value : BitVec 8)

/-- One action on a pool. -/
def step (P : Pool) (debug : Bool) (s : State) : Action → Option State
  | .alloc =>
      let (ptr, m) := tfmPoolAlloc s.memory P.base
      some (if ptr = 0 then ⟨m, s.allocated⟩ else ⟨m, ptr :: s.allocated⟩)
  | .free ptr => (tfmPoolFree debug s.memory P.base ptr).map fun m ↦ ⟨m, s.allocated.erase ptr⟩
  | .store address value => some ⟨Function.update s.memory address value, s.allocated⟩

/-- A byte of an allocated chunk. -/
def Owned (P : Pool) (s : State) (address : Word) : Prop :=
  ∃ ptr ∈ s.allocated, ∃ n < P.chunksz, address = ptr + BitVec.ofNat 32 n

/-- Only what has been allocated is given back, and nobody stores into the pool but the owners of
chunks into their data. -/
def Proper (P : Pool) (s : State) : Action → Prop
  | .alloc => True
  | .free ptr => ptr ∈ s.allocated
  | .store address _ => P.Inside address → Owned P s address

/-- A state after the pool has been initialised and used. -/
def Reached (P : Pool) (debug : Bool) (s : State) : Prop :=
  ∃ m₀ poolsz m, tfmPoolInit m₀ P.base poolsz (BitVec.ofNat 32 P.chunksz) (BitVec.ofNat 32 P.num) =
      (psaSuccess, m) ∧
    Run.Reaches (step P debug) (Proper P) ⟨m, []⟩ s

/-! ## The property -/

/-- The link stored in a word; 0 is the null link. -/
def link (m : Memory) (address : Word) : Option Word :=
  if loadWord m address = 0 then none else some (loadWord m address)

/-- The free list is what is not allocated, and allocations are chunks apart from each other. -/
structure PoolSound (P : Pool) (s : State) : Prop where
  /-- The free list ends, meets each chunk once, and holds the chunks that are not allocated. -/
  free_list : ∃ free, Chain (link s.memory) (link s.memory P.base) free ∧ free.Nodup ∧
    ∀ address, address ∈ free ↔ ∃ c < P.num, address = P.chunk c ∧ P.data c ∉ s.allocated
  /-- Each allocation is the data of a chunk of the pool. -/
  chunks : ∀ ptr ∈ s.allocated, ∃ c < P.num, ptr = P.data c
  /-- Nothing is handed out twice. -/
  nodup : s.allocated.Nodup
  /-- Allocations have no byte in common. -/
  apart : ∀ ptr ∈ s.allocated, ∀ ptr' ∈ s.allocated, ptr ≠ ptr' → ∀ n < P.chunksz,
    ∀ n' < P.chunksz, ptr + BitVec.ofNat 32 n ≠ ptr' + BitVec.ofNat 32 n'

/-- A pointer is found valid only if it is allocated, and nothing but the pool is inspected. -/
structure ValidSound (P : Pool) (s : State) (p : Word) : Prop where
  /-- Valid pointers are allocated. -/
  allocated : (isValidChunkDataInPool s.memory P.base p).1 = true → p ∈ s.allocated
  /-- Words that are inspected are words of the pool. -/
  inside : ∀ address ∈ (isValidChunkDataInPool s.memory P.base p).2, ∀ n < 4,
    P.Inside (address + BitVec.ofNat 32 n)

/-! ## Addresses -/

variable {P : Pool} {s : State} {m : Memory}

theorem Pool.stride_mul_le (P : Pool) {c n : ℕ} (lt : c < n) :
    P.stride * c + P.stride ≤ P.stride * n := by
  rw [← Nat.mul_succ]
  exact Nat.mul_le_mul_left _ lt

theorem Pool.poolSz_lt (P : Pool) : P.base.toNat + P.poolSz < 2 ^ 32 := P.fits

/-- Chunks are apart by at least their links and magic words. -/
theorem Pool.offsets_apart (P : Pool) {c d : ℕ} (ne : c ≠ d) :
    P.stride * c + 8 ≤ P.stride * d ∨ P.stride * d + 8 ≤ P.stride * c := by
  have stride : 8 ≤ P.stride := Nat.le_add_left ..
  rcases Nat.lt_or_gt_of_ne ne with lt | gt
  · have := P.stride_mul_le lt
    omega
  · have := P.stride_mul_le gt
    omega

theorem Pool.at_add (P : Pool) (offset n : ℕ) :
    P.at offset + BitVec.ofNat 32 n = P.at (offset + n) :=
  add_add_ofNat P.base offset n

theorem Pool.at_zero (P : Pool) : P.at 0 = P.base := by simp [Pool.at]

theorem Pool.data_eq (P : Pool) (c : ℕ) : P.data c = P.chunk c + 8 :=
  (P.at_add (12 + P.stride * c) 8).symm

theorem Pool.data_sub (P : Pool) (c : ℕ) : P.data c - 8 = P.chunk c := by
  rw [P.data_eq, BitVec.add_sub_cancel]

theorem Pool.chunk_add_four (P : Pool) (c : ℕ) : P.chunk c + 4 = P.at (12 + P.stride * c + 4) :=
  P.at_add (12 + P.stride * c) 4

theorem Pool.at_toNat (offset : ℕ) (lt : P.base.toNat + offset < 2 ^ 32) :
    (P.at offset).toNat = P.base.toNat + offset := by
  rw [Pool.at, BitVec.toNat_add, BitVec.toNat_ofNat, Nat.mod_eq_of_lt (by omega : offset < 2 ^ 32),
    Nat.mod_eq_of_lt lt]

theorem Pool.at_inj {i j : ℕ} (i_lt : i < 2 ^ 32) (j_lt : j < 2 ^ 32) (eq : P.at i = P.at j) :
    i = j := by
  by_contra ne
  exact add_ofNat_ne i_lt j_lt ne eq

theorem Pool.chunk_lt {c : ℕ} (lt : c < P.num) : 12 + P.stride * c + P.stride ≤ P.poolSz := by
  have := P.stride_mul_le lt
  rw [Pool.poolSz]
  omega

theorem Pool.chunk_inj {c d : ℕ} (c_lt : c < P.num) (d_lt : d < P.num)
    (eq : P.chunk c = P.chunk d) : c = d := by
  have fits := P.poolSz_lt
  have c_le := P.chunk_lt c_lt
  have d_le := P.chunk_lt d_lt
  have stride : 8 ≤ P.stride := Nat.le_add_left ..
  have offsets := Pool.at_inj (by omega) (by omega) eq
  exact Nat.eq_of_mul_eq_mul_left (show 0 < P.stride by omega) (by omega)

theorem Pool.data_inj {c d : ℕ} (c_lt : c < P.num) (d_lt : d < P.num)
    (eq : P.data c = P.data d) : c = d := by
  rw [P.data_eq, P.data_eq] at eq
  exact Pool.chunk_inj c_lt d_lt (BitVec.add_left_inj 8 |>.1 eq)

theorem Pool.chunk_ne_zero {c : ℕ} (lt : c < P.num) : P.chunk c ≠ 0 := by
  intro zero
  have fits := P.poolSz_lt
  have le := P.chunk_lt lt
  have value := Pool.at_toNat (P := P) (12 + P.stride * c) (by omega)
  rw [← Pool.chunk, zero] at value
  simp only [BitVec.ofNat_eq_ofNat, BitVec.toNat_ofNat] at value
  omega

theorem Pool.data_ne_zero {c : ℕ} (lt : c < P.num) : P.data c ≠ 0 := by
  intro zero
  have fits := P.poolSz_lt
  have le := P.chunk_lt lt
  have stride : 8 ≤ P.stride := Nat.le_add_left ..
  have value := Pool.at_toNat (P := P) (12 + P.stride * c + 8) (by omega)
  rw [← Pool.data, zero] at value
  simp only [BitVec.ofNat_eq_ofNat, BitVec.toNat_ofNat] at value
  omega

/-! ## Bookkeeping words -/

/-- Offset of a word that the pool keeps: its header, and the link and the magic of a chunk. -/
inductive Kept (P : Pool) : ℕ → Prop
  | head : Kept P 0
  | chunksz : Kept P 4
  | poolSz : Kept P 8
  | link (c : ℕ) (lt : c < P.num) : Kept P (12 + P.stride * c)
  | magic (c : ℕ) (lt : c < P.num) : Kept P (12 + P.stride * c + 4)

theorem Kept.add_four_le {offset : ℕ} (kept : Kept P offset) : offset + 4 ≤ P.poolSz := by
  have stride : 8 ≤ P.stride := Nat.le_add_left ..
  have header : 12 ≤ P.poolSz := Nat.le_add_left ..
  cases kept with
  | head => omega
  | chunksz => omega
  | poolSz => omega
  | link c lt =>
      have := P.chunk_lt lt
      omega
  | magic c lt =>
      have := P.chunk_lt lt
      omega

/-- The data of chunks is apart from the words that the pool keeps. -/
theorem Kept.ne_data {offset n c k : ℕ} (kept : Kept P offset) (n_lt : n < 4)
    (k_lt : k < P.chunksz) :
    offset + n ≠ 12 + P.stride * c + 8 + k := by
  have stride : P.stride = P.chunksz + 8 := rfl
  have apart (d e : ℕ) (e_lt : e < 8) : P.stride * d + e ≠ P.stride * c + 8 + k := by
    rcases Nat.lt_trichotomy d c with lt | rfl | gt
    · have := P.stride_mul_le lt
      omega
    · omega
    · have := P.stride_mul_le gt
      omega
  cases kept with
  | head => omega
  | chunksz => omega
  | poolSz => omega
  | link d _ =>
      have := apart d n (by omega)
      omega
  | magic d _ =>
      have := apart d (4 + n) (by omega)
      omega

/-- Words that the pool keeps do not overlap. -/
theorem Kept.apart {i j : ℕ} (kept : Kept P i) (kept' : Kept P j) (ne : i ≠ j) :
    i + 4 ≤ j ∨ j + 4 ≤ i := by
  have chunks (c d : ℕ) : c = d ∨ P.stride * c + 8 ≤ P.stride * d ∨
      P.stride * d + 8 ≤ P.stride * c := by
    by_cases eq : c = d
    · exact .inl eq
    · exact .inr (P.offsets_apart eq)
  cases kept with
  | head => cases kept' <;> omega
  | chunksz => cases kept' <;> omega
  | poolSz => cases kept' <;> omega
  | link c _ =>
      cases kept' with
      | head => omega
      | chunksz => omega
      | poolSz => omega
      | link d _ => rcases chunks c d with rfl | lt | gt <;> omega
      | magic d _ => rcases chunks c d with rfl | lt | gt <;> omega
  | magic c _ =>
      cases kept' with
      | head => omega
      | chunksz => omega
      | poolSz => omega
      | link d _ => rcases chunks c d with rfl | lt | gt <;> omega
      | magic d _ => rcases chunks c d with rfl | lt | gt <;> omega

/-- A word that the pool keeps. -/
def Pool.word (P : Pool) (m : Memory) (offset : ℕ) : Word := loadWord m (P.at offset)

@[simp]
theorem word_storeWord_self (offset : ℕ) (value : Word) :
    P.word (storeWord m (P.at offset) value) offset = value :=
  loadWord_storeWord ..

/-- Storing one of the words keeps the others. -/
theorem Kept.word_storeWord {i j : ℕ} (kept : Kept P i) (kept' : Kept P j) (ne : i ≠ j)
    (value : Word) : P.word (storeWord m (P.at i) value) j = P.word m j := by
  have fits := P.poolSz_lt
  have i_le := kept.add_four_le
  have j_le := kept'.add_four_le
  have apart := kept.apart kept' ne
  refine loadWord_congr fun n n_lt ↦ storeWord_of_apart fun k k_lt ↦ ?_
  rw [P.at_add, P.at_add]
  intro eq
  have offsets := Pool.at_inj (by omega) (by omega) eq
  omega

/-- Bytes that are no bytes of the words do not count. -/
theorem word_congr {m m' : Memory} {offset : ℕ}
    (same : ∀ n < 4, m' (P.at (offset + n)) = m (P.at (offset + n))) :
    P.word m' offset = P.word m offset := by
  refine loadWord_congr fun n n_lt ↦ ?_
  rw [P.at_add]
  exact same n n_lt

/-- What inserting a chunk behind the head does to the words. -/
theorem word_insert {c : ℕ} (lt : c < P.num) :
    P.word (uniListInsertAfter m P.base (P.chunk c)) 0 = P.chunk c ∧
      P.word (uniListInsertAfter m P.base (P.chunk c)) (12 + P.stride * c) = P.word m 0 ∧
      ∀ j, Kept P j → j ≠ 0 → j ≠ 12 + P.stride * c →
        P.word (uniListInsertAfter m P.base (P.chunk c)) j = P.word m j := by
  rw [← P.at_zero]
  refine ⟨word_storeWord_self .., ?_, fun j kept ne ne' ↦ ?_⟩
  · rw [uniListInsertAfter, Kept.word_storeWord .head (.link c lt) (by omega)]
    exact word_storeWord_self ..
  · rw [uniListInsertAfter, Kept.word_storeWord .head kept ne.symm]
    exact Kept.word_storeWord (.link c lt) kept ne'.symm _

/-- What removing the first chunk does to the words. -/
theorem word_remove {c : ℕ} (lt : c < P.num) :
    P.word (uniListRemoveNode m P.base (P.chunk c)) 0 = P.word m (12 + P.stride * c) ∧
      ∀ j, Kept P j → j ≠ 0 → j ≠ 12 + P.stride * c →
        P.word (uniListRemoveNode m P.base (P.chunk c)) j = P.word m j := by
  rw [← P.at_zero]
  refine ⟨?_, fun j kept ne ne' ↦ ?_⟩
  · rw [uniListRemoveNode, Pool.chunk, Kept.word_storeWord (.link c lt) .head (by omega)]
    exact word_storeWord_self ..
  · rw [uniListRemoveNode, Pool.chunk, Kept.word_storeWord (.link c lt) kept ne'.symm]
    exact Kept.word_storeWord .head kept ne.symm _

/-! ## The invariant -/

/-- The link in a word that the pool keeps. -/
def Pool.linkAt (P : Pool) (m : Memory) (offset : ℕ) : Option Word := link m (P.at offset)

theorem linkAt_congr {m m' : Memory} {i j : ℕ} (same : P.word m' i = P.word m j) :
    P.linkAt m' i = P.linkAt m j := by
  simp only [Pool.linkAt, link]
  rw [show loadWord m' (P.at i) = loadWord m (P.at j) from same]

theorem linkAt_of_chunk {offset c : ℕ} (lt : c < P.num) (word_eq : P.word m offset = P.chunk c) :
    P.linkAt m offset = some (P.chunk c) := by
  have eq : loadWord m (P.at offset) = P.chunk c := word_eq
  rw [Pool.linkAt, link, eq, if_neg (P.chunk_ne_zero lt)]

/-- The free chunks and the allocated ones make up the pool, and the words that the pool keeps say
which are which. -/
structure PoolInv (P : Pool) (m : Memory) (free used : List ℕ) : Prop where
  /-- The size of a chunk in the header. -/
  chunksz : P.word m 4 = BitVec.ofNat 32 P.chunksz
  /-- The size of the pool in the header. -/
  poolSz : P.word m 8 = BitVec.ofNat 32 P.poolSz
  /-- The free list. -/
  chain : Chain (link m) (P.linkAt m 0) (free.map P.chunk)
  /-- Each chunk is in one of the lists. -/
  perm : (free ++ used).Perm (List.range P.num)
  /-- Allocated chunks are marked. -/
  marked : ∀ c ∈ used, P.word m (12 + P.stride * c + 4) = poolMagicAllocated
  /-- Free chunks are not. -/
  unmarked : ∀ c ∈ free, P.word m (12 + P.stride * c + 4) ≠ poolMagicAllocated

variable {free used : List ℕ}

theorem PoolInv.free_lt (inv : PoolInv P m free used) {c : ℕ} (mem : c ∈ free) : c < P.num :=
  List.mem_range.1 (inv.perm.subset (List.mem_append_left _ mem))

theorem PoolInv.used_lt (inv : PoolInv P m free used) {c : ℕ} (mem : c ∈ used) : c < P.num :=
  List.mem_range.1 (inv.perm.subset (List.mem_append_right _ mem))

theorem PoolInv.nodup (inv : PoolInv P m free used) : (free ++ used).Nodup :=
  inv.perm.nodup_iff.2 List.nodup_range

/-- A list of chunks is still linked if their links are the same. -/
theorem chain_congr {m m' : Memory} {head : Option Word} {chunks : List ℕ}
    (chain : Chain (link m) head (chunks.map P.chunk))
    (same : ∀ c ∈ chunks, P.word m' (12 + P.stride * c) = P.word m (12 + P.stride * c)) :
    Chain (link m') head (chunks.map P.chunk) := by
  refine chain.congr fun node mem ↦ ?_
  obtain ⟨c, free, rfl⟩ := List.mem_map.1 mem
  exact linkAt_congr (same c free)

/-- The invariant is about the words only. -/
theorem PoolInv.congr {m' : Memory} (inv : PoolInv P m free used)
    (same : ∀ j, Kept P j → P.word m' j = P.word m j) : PoolInv P m' free used where
  chunksz := (same 4 .chunksz).trans inv.chunksz
  poolSz := (same 8 .poolSz).trans inv.poolSz
  chain := by
    rw [linkAt_congr (same 0 .head)]
    exact chain_congr inv.chain fun c mem ↦ same _ (.link c (inv.free_lt mem))
  perm := inv.perm
  marked c mem := (same _ (.magic c (inv.used_lt mem))).trans (inv.marked c mem)
  unmarked c mem := by
    rw [same _ (.magic c (inv.free_lt mem))]
    exact inv.unmarked c mem

/-- An allocation takes the first free chunk. -/
theorem PoolInv.alloc (inv : PoolInv P m free used) :
    (tfmPoolAlloc m P.base).1 = 0 ∧ (tfmPoolAlloc m P.base).2 = m ∨
      ∃ c rest, free = c :: rest ∧ (tfmPoolAlloc m P.base).1 = P.data c ∧
        PoolInv P (tfmPoolAlloc m P.base).2 rest (c :: used) := by
  rw [tfmPoolAlloc]
  split
  · exact .inl ⟨rfl, rfl⟩
  split
  · exact .inl ⟨rfl, rfl⟩
  next nonempty =>
  right
  have chain := inv.chain
  have head : P.linkAt m 0 = some (loadWord m P.base) := by
    rw [Pool.linkAt, link, P.at_zero, if_neg nonempty]
  cases free with
  | nil =>
      rw [head] at chain
      cases chain
  | cons c rest =>
      have c_lt := inv.free_lt List.mem_cons_self
      rw [List.map_cons, head] at chain
      generalize node_eq : loadWord m P.base = node at chain
      cases chain with
      | cons tail =>
          obtain ⟨first, others⟩ := word_remove (m := m) c_lt
          have magic_kept := Kept.magic c c_lt
          have fresh : c ∉ rest := (List.nodup_cons.1 inv.nodup.of_append_left).1
          have other (j : ℕ) (kept : Kept P j) (ne : j ≠ 0) (ne' : j ≠ 12 + P.stride * c)
              (ne'' : j ≠ 12 + P.stride * c + 4) :
              P.word (storeWord (uniListRemoveNode m P.base (P.chunk c))
                (P.at (12 + P.stride * c + 4)) poolMagicAllocated) j = P.word m j :=
            (magic_kept.word_storeWord kept ne''.symm _).trans (others j kept ne ne')
          refine ⟨c, rest, rfl, (P.data_eq c).symm, ?_⟩
          dsimp only
          rw [P.chunk_add_four]
          exact {
            chunksz := (other 4 .chunksz (by omega) (by omega) (by omega)).trans inv.chunksz
            poolSz := (other 8 .poolSz (by omega) (by omega) (by omega)).trans inv.poolSz
            chain := by
              rw [linkAt_congr ((magic_kept.word_storeWord .head (by omega) _).trans first)]
              refine chain_congr tail fun d mem ↦ ?_
              have apart := P.offsets_apart (ne_of_mem_of_not_mem mem fresh)
              exact other _ (.link d (inv.free_lt (List.mem_cons_of_mem c mem))) (by omega)
                (by omega) (by omega)
            perm := List.perm_middle.trans inv.perm
            marked := by
              intro d mem
              rcases List.mem_cons.1 mem with rfl | old
              · exact word_storeWord_self ..
              · have ne : d ≠ c := by
                  rintro rfl
                  exact (List.nodup_append.1 inv.nodup).2.2 d List.mem_cons_self d old rfl
                have apart := P.offsets_apart ne
                rw [other _ (.magic d (inv.used_lt old)) (by omega) (by omega) (by omega)]
                exact inv.marked d old
            unmarked := by
              intro d mem
              have apart := P.offsets_apart (ne_of_mem_of_not_mem mem fresh)
              rw [other _ (.magic d (inv.free_lt (List.mem_cons_of_mem c mem))) (by omega)
                (by omega) (by omega)]
              exact inv.unmarked d (List.mem_cons_of_mem c mem) }

/-- Giving a chunk back puts it in front of the free ones. -/
theorem PoolInv.release {c : ℕ} (inv : PoolInv P m free used) (mem : c ∈ used) {m' : Memory}
    (released : m' = uniListInsertAfter (storeWord m (P.chunk c + 4) 0) P.base (P.chunk c)) :
    PoolInv P m' (c :: free) (used.erase c) := by
  have c_lt := inv.used_lt mem
  have magic_kept := Kept.magic c c_lt
  have nodup := List.nodup_append.1 inv.nodup
  have fresh : c ∉ free := fun free ↦ nodup.2.2 c free c mem rfl
  obtain ⟨first, second, others⟩ := word_insert (m := storeWord m (P.chunk c + 4) 0) c_lt
  rw [← released] at first second others
  rw [P.chunk_add_four] at second others
  have other (j : ℕ) (kept : Kept P j) (ne : j ≠ 0) (ne' : j ≠ 12 + P.stride * c)
      (ne'' : j ≠ 12 + P.stride * c + 4) : P.word m' j = P.word m j :=
    (others j kept ne ne').trans (magic_kept.word_storeWord kept ne''.symm _)
  exact {
    chunksz := (other 4 .chunksz (by omega) (by omega) (by omega)).trans inv.chunksz
    poolSz := (other 8 .poolSz (by omega) (by omega) (by omega)).trans inv.poolSz
    chain := by
      rw [linkAt_of_chunk c_lt first, List.map_cons]
      refine .cons ?_
      have next : link m' (P.chunk c) = P.linkAt m 0 :=
        linkAt_congr (second.trans (magic_kept.word_storeWord .head (by omega) _))
      rw [next]
      refine chain_congr inv.chain fun d mem ↦ ?_
      have apart := P.offsets_apart (ne_of_mem_of_not_mem mem fresh)
      exact other _ (.link d (inv.free_lt mem)) (by omega) (by omega) (by omega)
    perm := by
      refine List.Perm.trans ?_ inv.perm
      rw [List.cons_append]
      exact List.perm_middle.symm.trans ((List.perm_cons_erase mem).symm.append_left free)
    marked := by
      intro d mem'
      have ne : d ≠ c := fun eq ↦ (List.Nodup.mem_erase_iff nodup.2.1).1 mem' |>.1 eq
      have old := List.mem_of_mem_erase mem'
      have apart := P.offsets_apart ne
      rw [other _ (.magic d (inv.used_lt old)) (by omega) (by omega) (by omega)]
      exact inv.marked d old
    unmarked := by
      intro d mem'
      rcases List.mem_cons.1 mem' with rfl | old
      · rw [others _ magic_kept (by omega) (by omega), word_storeWord_self]
        decide
      · have apart := P.offsets_apart (ne_of_mem_of_not_mem old fresh)
        rw [other _ (.magic d (inv.free_lt old)) (by omega) (by omega) (by omega)]
        exact inv.unmarked d old }

/-! ## Initialisation -/

theorem word_memset {offset : ℕ} (le : offset + 4 ≤ P.poolSz) :
    P.word (spmMemset m P.base 0 (BitVec.ofNat 32 P.poolSz)) offset = 0 := by
  have fits := P.poolSz_lt
  have zero : P.word (fun _ ↦ 0) offset = 0 := by
    rw [Pool.word, loadWord]
    decide
  rw [← zero]
  refine word_congr fun n n_lt ↦ ?_
  have difference : (P.at (offset + n) - P.base).toNat = offset + n := by
    rw [Pool.at, BitVec.add_comm, BitVec.add_sub_cancel, BitVec.toNat_ofNat]
    exact Nat.mod_eq_of_lt (by omega)
  rw [spmMemset, if_pos]
  rw [BitVec.lt_def, difference, BitVec.toNat_ofNat, Nat.mod_eq_of_lt (by omega)]
  omega

/-- The chunks that have been chained so far are the free list. -/
structure Chained (P : Pool) (m : Memory) (count : ℕ) : Prop where
  /-- The list. -/
  chain : Chain (link m) (P.linkAt m 0) ((List.range count).reverse.map P.chunk)
  /-- No chunk is marked. -/
  unmarked : ∀ c < P.num, P.word m (12 + P.stride * c + 4) = 0

theorem Chained.insert {c : ℕ} (chained : Chained P m c) (lt : c < P.num) :
    Chained P (uniListInsertAfter m P.base (P.chunk c)) (c + 1) := by
  obtain ⟨first, second, others⟩ := word_insert (m := m) lt
  refine ⟨?_, fun d d_lt ↦ ?_⟩
  · rw [linkAt_of_chunk lt first, List.range_succ, List.reverse_concat, List.map_cons]
    refine .cons ?_
    have next : link (uniListInsertAfter m P.base (P.chunk c)) (P.chunk c) = P.linkAt m 0 :=
      linkAt_congr second
    rw [next]
    refine chain_congr chained.chain fun d mem ↦ ?_
    have d_lt : d < c := by simpa using mem
    have apart := P.offsets_apart (Nat.ne_of_lt d_lt)
    exact others _ (.link d (by omega)) (by omega) (by omega)
  · have ne : 12 + P.stride * d + 4 ≠ 12 + P.stride * c := by
      by_cases eq : d = c
      · rw [eq]
        omega
      · have apart := P.offsets_apart eq
        omega
    rw [others _ (.magic d d_lt) (by omega) ne]
    exact chained.unmarked d d_lt

/-- The loop chains all chunks. -/
theorem Chained.chainChunks {count c : ℕ} (chained : Chained P m c) (total : c + count = P.num) :
    Chained P (chainChunks P.base (BitVec.ofNat 32 P.chunksz) count (P.chunk c) m) P.num := by
  induction count generalizing c m with
  | zero =>
      rw [Nat.add_zero] at total
      rw [← total]
      exact chained
  | succ count ih =>
      have next : P.chunk c + 8 + BitVec.ofNat 32 P.chunksz = P.chunk (c + 1) := by
        have offset : 12 + P.stride * c + 8 + P.chunksz = 12 + P.stride * (c + 1) := by
          rw [Nat.mul_succ, Pool.stride]
          omega
        rw [← P.data_eq, Pool.data, P.at_add, offset, Pool.chunk]
      rw [ChunkPool.chainChunks, next]
      exact ih (chained.insert (by omega)) (by omega)

/-- After initialisation all chunks are free. -/
theorem poolInv_init {m₀ : Memory} {poolsz : Word}
    (run : tfmPoolInit m₀ P.base poolsz (BitVec.ofNat 32 P.chunksz) (BitVec.ofNat 32 P.num) =
      (psaSuccess, m)) : PoolInv P m (List.range P.num).reverse [] := by
  have failed : spmErrorBadParameters ≠ psaSuccess := by decide
  have fits := P.poolSz_lt
  have poolSz_def : P.poolSz = P.stride * P.num + 12 := rfl
  have num_le : P.num ≤ P.stride * P.num :=
    Nat.le_mul_of_pos_left _ (Nat.add_pos_right _ (by decide))
  rw [tfmPoolInit] at run
  split at run
  · exact absurd (congrArg Prod.fst run) failed
  split at run
  · exact absurd (congrArg Prod.fst run) failed
  next size =>
  have size_eq : poolsz = BitVec.ofNat 32 P.poolSz := by
    rw [not_not] at size
    rw [size, Pool.poolSz, Pool.stride, BitVec.ofNat_add, BitVec.ofNat_mul, BitVec.ofNat_add]
    rfl
  simp only [BitVec.toNat_ofNat, Nat.mod_eq_of_lt (by omega : P.num < 2 ^ 32), Prod.mk.injEq,
    true_and] at run
  have cleared (c : ℕ) (lt : c < P.num) :
      P.word (storeWord (spmMemset m₀ P.base 0 poolsz) P.base 0) (12 + P.stride * c + 4) = 0 := by
    have kept := Kept.magic c lt
    rw [← P.at_zero, Kept.word_storeWord .head kept (by omega), P.at_zero, size_eq]
    exact word_memset kept.add_four_le
  have chained : Chained P (storeWord (spmMemset m₀ P.base 0 poolsz) P.base 0) 0 := by
    refine ⟨?_, cleared⟩
    have head : loadWord (storeWord (spmMemset m₀ P.base 0 poolsz) P.base 0) (P.at 0) = 0 := by
      rw [P.at_zero, loadWord_storeWord]
    rw [Pool.linkAt, link, if_pos head]
    exact .nil
  have first : P.base + 12 = P.chunk 0 := by simp [Pool.chunk, Pool.at]
  rw [first] at run
  have chained := chained.chainChunks (Nat.zero_add P.num)
  generalize chainChunks P.base (BitVec.ofNat 32 P.chunksz) P.num (P.chunk 0)
    (storeWord (spmMemset m₀ P.base 0 poolsz) P.base 0) = m₁ at run chained
  have four : P.base + 4 = P.at 4 := rfl
  have eight : P.base + 8 = P.at 8 := rfl
  rw [four, eight] at run
  have other (j : ℕ) (kept : Kept P j) (ne : j ≠ 4) (ne' : j ≠ 8) : P.word m j = P.word m₁ j := by
    rw [← run, Kept.word_storeWord .poolSz kept ne'.symm, Kept.word_storeWord .chunksz kept ne.symm]
  exact {
    chunksz := by
      rw [← run, Kept.word_storeWord .poolSz .chunksz (by omega), word_storeWord_self]
    poolSz := by rw [← run, word_storeWord_self, size_eq]
    chain := by
      rw [linkAt_congr (other 0 .head (by omega) (by omega))]
      refine chain_congr chained.chain fun c mem ↦ ?_
      exact other _ (.link c (by simpa using mem)) (by omega) (by omega)
    perm := by
      rw [List.append_nil]
      exact List.reverse_perm _
    marked := by simp
    unmarked := by
      intro c mem
      have lt : c < P.num := by simpa using mem
      rw [other _ (.magic c lt) (by omega) (by omega), chained.unmarked c lt]
      decide }

/-! ## Runs -/

/-- The words of the pool describe the allocations of a state. -/
def StateInv (P : Pool) (s : State) : Prop :=
  ∃ free used, PoolInv P s.memory free used ∧ s.allocated.Perm (used.map P.data)

/-- What owners and others store is no byte of the words. -/
theorem PoolInv.ne_of_owned (inv : PoolInv P s.memory free used)
    (allocated : s.allocated.Perm (used.map P.data)) {address : Word}
    (proper : P.Inside address → Owned P s address) {j n : ℕ} (kept : Kept P j) (n_lt : n < 4) :
    P.at (j + n) ≠ address := by
  rintro rfl
  have fits := P.poolSz_lt
  have le := kept.add_four_le
  obtain ⟨ptr, mem, k, k_lt, eq⟩ := proper ⟨j + n, by omega, rfl⟩
  obtain ⟨c, used, rfl⟩ := List.mem_map.1 (allocated.subset mem)
  have c_le := P.chunk_lt (inv.used_lt used)
  have stride : P.stride = P.chunksz + 8 := rfl
  rw [Pool.data, P.at_add] at eq
  exact kept.ne_data n_lt k_lt (Pool.at_inj (by omega) (by omega) eq)

/-- Overwriting the data of a chunk keeps the words of the pool. -/
theorem word_memset_data {c j : ℕ} {value : BitVec 8} (lt : c < P.num) (kept : Kept P j) :
    P.word (spmMemset m (P.chunk c + 8) value (BitVec.ofNat 32 P.chunksz)) j = P.word m j := by
  refine word_congr fun n n_lt ↦ ?_
  have fits := P.poolSz_lt
  have le := kept.add_four_le
  have c_le := P.chunk_lt lt
  have stride : P.stride = P.chunksz + 8 := rfl
  rw [spmMemset, if_neg]
  intro inside
  rw [BitVec.lt_def, BitVec.toNat_ofNat, Nat.mod_eq_of_lt (by omega)] at inside
  generalize k_eq : (P.at (j + n) - (P.chunk c + 8)).toNat = k at inside
  have eq : P.at (j + n) = P.at (12 + P.stride * c + 8 + k) := by
    rw [← P.at_add _ k, ← k_eq, BitVec.ofNat_toNat, BitVec.setWidth_eq]
    have data : P.at (12 + P.stride * c + 8) = P.chunk c + 8 := P.data_eq c
    rw [data, BitVec.add_comm, BitVec.sub_add_cancel]
  exact kept.ne_data n_lt inside (Pool.at_inj (by omega) (by omega) eq)

/-- Every proper action keeps the words in step with the allocations. -/
theorem StateInv.step {debug : Bool} {s' : State} {a : Action} (inv : StateInv P s)
    (proper : Proper P s a) (step_eq : step P debug s a = some s') : StateInv P s' := by
  obtain ⟨free, used, inv, allocated⟩ := inv
  cases a with
  | alloc =>
      have taken := inv.alloc
      rw [ChunkPool.step] at step_eq
      generalize tfmPoolAlloc s.memory P.base = result at taken step_eq
      obtain ⟨ptr, m⟩ := result
      rcases taken with ⟨rfl, rfl⟩ | ⟨c, rest, rfl, rfl, taken⟩
      · cases step_eq
        exact ⟨free, used, inv, allocated⟩
      · have nonnull : P.data c ≠ 0 := P.data_ne_zero (inv.free_lt List.mem_cons_self)
        simp only [nonnull, if_false, Option.some.injEq] at step_eq
        subst step_eq
        exact ⟨rest, c :: used, taken, allocated.cons (P.data c)⟩
  | free ptr =>
      obtain ⟨c, mem, rfl⟩ := List.mem_map.1 (allocated.subset proper)
      rw [ChunkPool.step, tfmPoolFree] at step_eq
      split at step_eq
      · cases step_eq
      simp only [Option.map_some, Option.some.injEq, P.data_sub] at step_eq
      have released := inv.release mem rfl
      have erased : (s.allocated.erase (P.data c)).Perm ((used.erase c).map P.data) := by
        have split := allocated.trans ((List.perm_cons_erase mem).map P.data)
        simpa using split.erase (P.data c)
      subst step_eq
      refine ⟨c :: free, used.erase c, ?_, erased⟩
      dsimp only
      split
      · have size : loadWord (uniListInsertAfter (storeWord s.memory (P.chunk c + 4) 0) P.base
            (P.chunk c)) (P.base + 4) = BitVec.ofNat 32 P.chunksz := released.chunksz
        rw [size]
        exact released.congr fun j kept ↦ word_memset_data (inv.used_lt mem) kept
      · exact released
  | store address value =>
      cases step_eq
      refine ⟨free, used, inv.congr fun j kept ↦ word_congr fun n n_lt ↦ ?_, allocated⟩
      exact Function.update_of_ne (inv.ne_of_owned allocated proper kept n_lt) _ _

theorem stateInv_of_reached {debug : Bool} (reached : Reached P debug s) : StateInv P s := by
  obtain ⟨m₀, poolsz, m, init, reaches⟩ := reached
  refine reaches.invariant (I := StateInv P) ⟨_, [], poolInv_init init, .refl _⟩ ?_
  intro before a after inv proper step_eq
  exact inv.step proper step_eq

/-! ## Soundness -/

theorem StateInv.poolSound (inv : StateInv P s) : PoolSound P s := by
  obtain ⟨free, used, inv, allocated⟩ := inv
  have fits := P.poolSz_lt
  have stride : P.stride = P.chunksz + 8 := rfl
  have chunks : ∀ ptr ∈ s.allocated, ∃ c < P.num, ptr = P.data c := by
    intro ptr mem
    obtain ⟨c, used, rfl⟩ := List.mem_map.1 (allocated.subset mem)
    exact ⟨c, inv.used_lt used, rfl⟩
  have nodup := List.nodup_append.1 inv.nodup
  have mem_allocated {c : ℕ} (lt : c < P.num) : P.data c ∈ s.allocated ↔ c ∈ used := by
    rw [allocated.mem_iff, List.mem_map]
    constructor
    · rintro ⟨d, mem, eq⟩
      exact Pool.data_inj (inv.used_lt mem) lt eq ▸ mem
    · intro mem
      exact ⟨c, mem, rfl⟩
  refine ⟨⟨free.map P.chunk, P.at_zero ▸ inv.chain, inv.chain.nodup, fun address ↦ ?_⟩,
    chunks, ?_, ?_⟩
  · rw [List.mem_map]
    constructor
    · rintro ⟨c, mem, rfl⟩
      have lt := inv.free_lt mem
      refine ⟨c, lt, rfl, fun used ↦ ?_⟩
      exact nodup.2.2 c mem c ((mem_allocated lt).1 used) rfl
    · rintro ⟨c, lt, rfl, unused⟩
      refine ⟨c, ?_, rfl⟩
      have mem := inv.perm.mem_iff.2 (List.mem_range.2 lt)
      exact (List.mem_append.1 mem).resolve_right fun used ↦ unused ((mem_allocated lt).2 used)
  · rw [allocated.nodup_iff]
    refine List.Nodup.map_on (fun c mem d mem' eq ↦ ?_) nodup.2.1
    exact Pool.data_inj (inv.used_lt mem) (inv.used_lt mem') eq
  · intro ptr mem ptr' mem' ne n n_lt n' n'_lt eq
    obtain ⟨c, c_lt, rfl⟩ := chunks ptr mem
    obtain ⟨d, d_lt, rfl⟩ := chunks ptr' mem'
    have c_le := P.chunk_lt c_lt
    have d_le := P.chunk_lt d_lt
    rw [Pool.data, Pool.data, P.at_add, P.at_add] at eq
    have offsets := Pool.at_inj (by omega) (by omega) eq
    rcases Nat.lt_trichotomy c d with lt | rfl | gt
    · have := P.stride_mul_le lt
      omega
    · exact ne rfl
    · have := P.stride_mul_le gt
      omega

/-- The data address of a chunk, or of the chunk that would follow the last one. -/
def AtChunk (P : Pool) (p : Word) (c : ℕ) : Prop :=
  0 < P.chunksz ∧ c ≤ P.num ∧ p.toNat = P.base.toNat + (12 + P.stride * c + 8)

theorem AtChunk.eq_data {p : Word} {c : ℕ} (atChunk : AtChunk P p c) : p = P.data c := by
  have p_lt := p.isLt
  obtain ⟨-, -, p_eq⟩ := atChunk
  apply BitVec.eq_of_toNat_eq
  rw [p_eq, Pool.data, Pool.at_toNat _ (by omega)]

/-- The magic of a chunk is what decides, also behind the last chunk. -/
theorem AtChunk.isValid {p : Word} {c : ℕ} (atChunk : AtChunk P p c)
    (inv : PoolInv P m free used) : isValidChunkDataInPool m P.base p =
      (decide (P.word m (12 + P.stride * c + 4) = poolMagicAllocated),
        [P.at 8, P.at 4, P.at (12 + P.stride * c + 4)]) := by
  have p_lt := p.isLt
  have fits := P.poolSz_lt
  have eq_data := atChunk.eq_data
  obtain ⟨nonempty, le, p_eq⟩ := atChunk
  have stride : P.stride = P.chunksz + 8 := rfl
  have size : P.poolSz = P.stride * P.num + 12 := rfl
  have stride_le : P.stride * c ≤ P.stride * P.num := Nat.mul_le_mul_left _ le
  have one_le : P.stride ≤ P.stride * P.num := Nat.le_mul_of_pos_right _ P.num_pos
  have start : (P.base + 12).toNat = P.base.toNat + 12 := Pool.at_toNat 12 (by omega)
  have after : ¬p < P.base + 12 := by
    rw [BitVec.lt_def, start]
    omega
  have offset : (p - (P.base + 12)).toNat = P.stride * c + 8 := by
    rw [BitVec.toNat_sub_of_le (BitVec.not_lt.1 after), start]
    omega
  have inside : ¬loadWord m (P.base + 8) ≤ p - (P.base + 12) := by
    have poolSz : loadWord m (P.base + 8) = BitVec.ofNat 32 P.poolSz := inv.poolSz
    rw [poolSz, BitVec.le_def, offset, BitVec.toNat_ofNat, Nat.mod_eq_of_lt (by omega)]
    omega
  have aligned : ¬(p - (P.base + 12)) % (loadWord m (P.base + 4) + 8) ≠ 8 := by
    have chunksz : loadWord m (P.base + 4) = BitVec.ofNat 32 P.chunksz := inv.chunksz
    have modulus : (BitVec.ofNat 32 P.chunksz + 8).toNat = P.stride := by
      rw [BitVec.toNat_add, BitVec.toNat_ofNat, Nat.mod_eq_of_lt (by omega : P.chunksz < 2 ^ 32)]
      exact Nat.mod_eq_of_lt (by simp; omega)
    rw [not_not, chunksz]
    apply BitVec.eq_of_toNat_eq
    rw [BitVec.toNat_umod, offset, modulus, Nat.mul_add_mod, Nat.mod_eq_of_lt (by omega)]
    rfl
  have magic : p - 8 + 4 = P.at (12 + P.stride * c + 4) := by
    rw [eq_data, P.data_sub, P.chunk_add_four]
  rw [isValidChunkDataInPool]
  dsimp only
  rw [if_neg after, if_neg inside, if_neg aligned, magic]
  rfl

/-- Other pointers are refused by what the header says. -/
theorem isValid_of_not_atChunk {p : Word} (inv : PoolInv P m free used)
    (none : ∀ c, ¬AtChunk P p c) : (isValidChunkDataInPool m P.base p).1 = false ∧
      ∀ address ∈ (isValidChunkDataInPool m P.base p).2, address = P.at 8 ∨ address = P.at 4 := by
  have fits := P.poolSz_lt
  have stride : P.stride = P.chunksz + 8 := rfl
  have size : P.poolSz = P.stride * P.num + 12 := rfl
  have one_le : P.stride ≤ P.stride * P.num := Nat.le_mul_of_pos_right _ P.num_pos
  have start : (P.base + 12).toNat = P.base.toNat + 12 := Pool.at_toNat 12 (by omega)
  rw [isValidChunkDataInPool]
  dsimp only
  split
  · exact ⟨rfl, by simp⟩
  next after =>
  split
  · exact ⟨rfl, fun address mem ↦ .inl (List.mem_singleton.1 mem)⟩
  next inside =>
  split
  · refine ⟨rfl, fun address mem ↦ ?_⟩
    rcases List.mem_cons.1 mem with rfl | mem
    · exact .inl rfl
    · exact .inr (List.mem_singleton.1 mem)
  next aligned =>
  exfalso
  rw [BitVec.not_lt] at after
  have poolSz : loadWord m (P.base + 8) = BitVec.ofNat 32 P.poolSz := inv.poolSz
  have chunksz : loadWord m (P.base + 4) = BitVec.ofNat 32 P.chunksz := inv.chunksz
  have modulus : (BitVec.ofNat 32 P.chunksz + 8).toNat = P.stride := by
    rw [BitVec.toNat_add, BitVec.toNat_ofNat, Nat.mod_eq_of_lt (by omega : P.chunksz < 2 ^ 32)]
    exact Nat.mod_eq_of_lt (by simp; omega)
  rw [poolSz, BitVec.not_le, BitVec.lt_def, BitVec.toNat_ofNat,
    Nat.mod_eq_of_lt (by omega)] at inside
  rw [not_not, chunksz] at aligned
  have remainder := congrArg BitVec.toNat aligned
  rw [BitVec.toNat_umod, modulus, show (8 : Word).toNat = 8 from rfl] at remainder
  have offset := BitVec.toNat_sub_of_le after
  rw [start] at offset
  rw [BitVec.le_def, start] at after
  have eight_lt : 8 < P.stride := by
    have lt := Nat.mod_lt (p - (P.base + 12)).toNat (show 0 < P.stride by omega)
    rwa [remainder] at lt
  have division := Nat.div_add_mod (p - (P.base + 12)).toNat P.stride
  rw [remainder] at division
  refine none ((p - (P.base + 12)).toNat / P.stride) ⟨by omega, ?_, by omega⟩
  -- the header counts towards the bound, so the next chunk is not excluded
  by_contra beyond
  have := P.stride_mul_le (not_le.1 beyond)
  omega

/-- The pool keeps its free list, and a pointer is found valid in the pool only if it is allocated,
if and only if it is not the pointer to the data of one more chunk behind the pool. -/
theorem poolSafe_iff_not_behind (P : Pool) (debug : Bool) (s : State) (p : Word)
    (reached : Reached P debug s) : PoolSound P s ∧ ValidSound P s p ↔
      ¬(0 < P.chunksz ∧ p.toNat = P.base.toNat + (P.poolSz + 8)) := by
  have stateInv := stateInv_of_reached reached
  have poolSound := stateInv.poolSound
  obtain ⟨free, used, inv, allocated⟩ := stateInv
  have p_lt := p.isLt
  have fits := P.poolSz_lt
  have size : P.poolSz = P.stride * P.num + 12 := rfl
  constructor
  · rintro ⟨-, valid⟩ ⟨nonempty, p_eq⟩
    have atChunk : AtChunk P p P.num := ⟨nonempty, le_rfl, by omega⟩
    have inside := valid.inside (P.at (12 + P.stride * P.num + 4))
      (by simp [atChunk.isValid inv]) 0 (by decide)
    obtain ⟨offset, lt, eq⟩ := inside
    rw [P.at_add] at eq
    have offsets := Pool.at_inj (by omega) (by omega) eq
    omega
  · intro not_behind
    refine ⟨poolSound, ?_⟩
    have header {j : ℕ} (kept : Kept P j) (n : ℕ) (n_lt : n < 4) :
        P.Inside (P.at j + BitVec.ofNat 32 n) := by
      have le := kept.add_four_le
      exact ⟨j + n, by omega, P.at_add j n⟩
    by_cases some : ∃ c, AtChunk P p c
    · obtain ⟨c, atChunk⟩ := some
      have lt : c < P.num := by
        obtain ⟨nonempty, le, p_eq⟩ := atChunk
        refine lt_of_le_of_ne le ?_
        rintro rfl
        exact not_behind ⟨nonempty, by omega⟩
      constructor
      · intro valid
        rw [atChunk.isValid inv, decide_eq_true_eq] at valid
        have mem := List.mem_append.1 (inv.perm.mem_iff.2 (List.mem_range.2 lt))
        rw [atChunk.eq_data, allocated.mem_iff]
        exact List.mem_map_of_mem (mem.resolve_left fun free ↦ inv.unmarked c free valid)
      · intro address mem n n_lt
        simp only [atChunk.isValid inv, List.mem_cons, List.not_mem_nil, or_false] at mem
        rcases mem with rfl | rfl | rfl
        · exact header .poolSz n n_lt
        · exact header .chunksz n n_lt
        · exact header (.magic c lt) n n_lt
    · obtain ⟨refused, inspected⟩ := isValid_of_not_atChunk inv fun c atChunk ↦ some ⟨c, atChunk⟩
      constructor
      · intro valid
        rw [refused] at valid
        cases valid
      · intro address mem n n_lt
        rcases inspected address mem with rfl | rfl
        · exact header .poolSz n n_lt
        · exact header .chunksz n n_lt

/-- A pool of two chunks of four bytes. -/
def samplePool : Pool := ⟨0x1000, 4, 2, by decide, by decide⟩

/-- The chunk handed out first is found valid while it is allocated. -/
theorem poolSafe_samplePool : ∃ s, Reached samplePool true s ∧ s.allocated = [0x1020] ∧
    (isValidChunkDataInPool s.memory samplePool.base 0x1020).1 = true ∧
      PoolSound samplePool s ∧ ValidSound samplePool s 0x1020 := by
  have init : tfmPoolInit (fun _ ↦ 0) 0x1000 36 4 2 =
      (psaSuccess, (tfmPoolInit (fun _ ↦ 0) 0x1000 36 4 2).2) := Prod.ext (by decide +kernel) rfl
  obtain ⟨s, step_eq, allocated, valid⟩ : ∃ s, step samplePool true
      ⟨(tfmPoolInit (fun _ ↦ 0) 0x1000 36 4 2).2, []⟩ .alloc = some s ∧ s.allocated = [0x1020] ∧
        (isValidChunkDataInPool s.memory samplePool.base 0x1020).1 = true :=
    ⟨_, rfl, by decide +kernel, by decide +kernel⟩
  have proper : Proper samplePool ⟨(tfmPoolInit (fun _ ↦ 0) 0x1000 36 4 2).2, []⟩ .alloc := trivial
  have reached : Reached samplePool true s := ⟨_, _, _, init, .tail .refl proper step_eq⟩
  exact ⟨s, reached, allocated, valid,
    (poolSafe_iff_not_behind samplePool true s 0x1020 reached).2 (by decide)⟩

/-- Memory that looks like an allocated chunk behind the pool. -/
def trailingMagic : Memory := storeWord (fun _ ↦ 0) 0x1028 poolMagicAllocated

/-- The pointer behind the pool is found valid although nothing has been allocated. -/
theorem not_poolSafe : ¬∀ (P : Pool) (debug : Bool) (s : State) (p : Word), Reached P debug s →
    PoolSound P s ∧ ValidSound P s p := by
  intro sound
  have init : tfmPoolInit trailingMagic 0x1000 36 4 2 =
      (psaSuccess, (tfmPoolInit trailingMagic 0x1000 36 4 2).2) := Prod.ext (by decide +kernel) rfl
  have valid :=
    (sound samplePool true _ 0x102C ⟨_, _, _, init, .refl⟩).2.allocated (by decide +kernel)
  cases valid

end TrustedFirmwareM.Spm.ChunkPool
