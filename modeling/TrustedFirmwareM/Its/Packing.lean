import TrustedFirmwareM.Its.Layout
import Mathlib.Algebra.Order.BigOperators.Group.Finset
import Mathlib.Order.Interval.Finset.Nat

/-!
# Packed files

What a write and a deletion do to the places of the files: a new file takes the start of the free
space, and the files behind a deleted one move up.
-/

namespace TrustedFirmwareM.Its

variable {cfg : Config} {file file' : ℕ → FileMeta cfg} {free free' : ℕ → ℕ}

/-- Two entries describe the same place. -/
structure SamePlace (file file' : FileMeta cfg) : Prop where
  /-- They are in use alike. -/
  live : file.Live ↔ file'.Live
  /-- They name the same logical block. -/
  lblock : file.lblock = file'.lblock
  /-- They name the same offset. -/
  dataIdx : file.dataIdx = file'.dataIdx
  /-- They name the same space. -/
  maxSize : file.maxSize = file'.maxSize

theorem SamePlace.refl (file : FileMeta cfg) : SamePlace file file := ⟨Iff.rfl, rfl, rfl, rfl⟩

/-- Files stay packed while their places do not change. -/
theorem Packed.congr (packed : Packed cfg file free)
    (same : ∀ i < cfg.maxNumFiles, SamePlace (file i) (file' i))
    (curSize : ∀ i < cfg.maxNumFiles, (file' i).Live → (file' i).curSize ≤ (file' i).maxSize)
    (space : ∀ l < itsNumActiveDblocks cfg, free l = free' l) : Packed cfg file' free' where
  lblock_lt i bound := by
    rw [← (same i bound).lblock]
    exact packed.lblock_lt i bound
  curSize_le := curSize
  maxSize_le i bound live := by
    rw [← (same i bound).maxSize]
    exact packed.maxSize_le i bound ((same i bound).live.2 live)
  start_le i bound live := by
    rw [← (same i bound).lblock, ← (same i bound).dataIdx]
    exact packed.start_le i bound ((same i bound).live.2 live)
  end_le i bound live := by
    rw [← (same i bound).lblock, ← (same i bound).dataIdx, ← (same i bound).maxSize,
      ← space _ (packed.lblock_lt i bound)]
    exact packed.end_le i bound ((same i bound).live.2 live)
  apart i i_lt j j_lt ne live live' := by
    rw [← (same i i_lt).lblock, ← (same i i_lt).dataIdx, ← (same i i_lt).maxSize,
      ← (same j j_lt).lblock, ← (same j j_lt).dataIdx, ← (same j j_lt).maxSize]
    exact packed.apart i i_lt j j_lt ne ((same i i_lt).live.2 live) ((same j j_lt).live.2 live')
  cover l bound o lo hi := by
    rw [← space l bound] at hi
    obtain ⟨i, i_lt, live, lblock, le, lt⟩ := packed.cover l bound o lo hi
    rw [(same i i_lt).lblock] at lblock
    rw [(same i i_lt).dataIdx] at le lt
    rw [(same i i_lt).maxSize] at lt
    exact ⟨i, i_lt, (same i i_lt).live.1 live, lblock, le, lt⟩
  free_le l bound := by
    rw [← space l bound]
    exact packed.free_le l bound

/-- A new file at the start of the free space of a block. -/
structure Reserved (cfg : Config) (free : ℕ → ℕ) (file : FileMeta cfg) : Prop where
  /-- It is in use. -/
  live : file.Live
  /-- It names a logical block. -/
  lblock_lt : file.lblock < itsNumActiveDblocks cfg
  /-- It starts where the free space does. -/
  dataIdx_eq : file.dataIdx + free file.lblock = cfg.blockSize
  /-- It fits in the free space. -/
  maxSize_le_free : file.maxSize ≤ free file.lblock
  /-- It is not larger than the configuration allows. -/
  maxSize_le : file.maxSize ≤ cfg.maxFileSize
  /-- Its data fits in it. -/
  curSize_le : file.curSize ≤ file.maxSize

theorem Packed.reserve (packed : Packed cfg file free) {new : ℕ} (bound : new < cfg.maxNumFiles)
    (unused : ¬(file new).Live) (reserved : Reserved cfg free (file' new))
    (same : ∀ i, i ≠ new → file' i = file i)
    (space : free' (file' new).lblock = free (file' new).lblock - (file' new).maxSize)
    (others : ∀ l, l ≠ (file' new).lblock → free' l = free l) : Packed cfg file' free' := by
  have fits := reserved.maxSize_le_free
  have start_eq := reserved.dataIdx_eq
  have free_le : ∀ l, free' l ≤ free l := by
    intro l
    by_cases here : l = (file' new).lblock
    · rw [here, space]
      exact Nat.sub_le _ _
    · rw [others l here]
  -- Where another file and the new one share a block, the other file is before the new one.
  have before : ∀ i < cfg.maxNumFiles, i ≠ new → (file' i).Live →
      (file' i).lblock = (file' new).lblock →
        (file' i).dataIdx + (file' i).maxSize ≤ (file' new).dataIdx := by
    intro i i_lt ne live lblock
    have end_le := packed.end_le i i_lt (by rw [← same i ne]; exact live)
    rw [← same i ne, lblock] at end_le
    omega
  constructor
  · intro i i_lt
    by_cases here : i = new
    · rw [here]
      exact reserved.lblock_lt
    · rw [same i here]
      exact packed.lblock_lt i i_lt
  · intro i i_lt live
    by_cases here : i = new
    · rw [here]
      exact reserved.curSize_le
    · rw [same i here] at live ⊢
      exact packed.curSize_le i i_lt live
  · intro i i_lt live
    by_cases here : i = new
    · rw [here]
      exact reserved.maxSize_le
    · rw [same i here] at live ⊢
      exact packed.maxSize_le i i_lt live
  · intro i i_lt live
    by_cases here : i = new
    · rw [here]
      have le := packed.free_le _ reserved.lblock_lt
      omega
    · rw [same i here] at live ⊢
      exact packed.start_le i i_lt live
  · intro i i_lt live
    by_cases here : i = new
    · rw [here, space]
      omega
    · have le := packed.end_le i i_lt (by rw [← same i here]; exact live)
      have less := free_le (file' i).lblock
      rw [← same i here] at le
      omega
  · intro i i_lt j j_lt ne live live' lblock
    by_cases here : i = new
    · rw [here] at ne lblock ⊢
      exact .inr (before j j_lt ne.symm live' lblock.symm)
    · by_cases there : j = new
      · rw [there] at lblock ⊢
        exact .inl (before i i_lt here live lblock)
      · rw [same i here] at live lblock ⊢
        rw [same j there] at live' lblock ⊢
        exact packed.apart i i_lt j j_lt ne live live' lblock
  · intro l l_lt o lo hi
    by_cases old : o + free l < cfg.blockSize
    · obtain ⟨i, i_lt, live, lblock, le, lt⟩ := packed.cover l l_lt o lo old
      have ne : i ≠ new := by
        rintro rfl
        exact unused live
      rw [← same i ne] at live lblock le lt
      exact ⟨i, i_lt, live, lblock, le, lt⟩
    · have here : l = (file' new).lblock := by
        by_contra there
        rw [others l there] at hi
        exact old hi
      cases here
      rw [space] at hi
      exact ⟨new, bound, reserved.live, rfl, by omega, by omega⟩
  · intro l l_lt
    have le := packed.free_le l l_lt
    have less := free_le l
    omega

/-- A file lies behind another one in the same block. -/
def Behind (removed file : FileMeta cfg) : Prop :=
  file.lblock = removed.lblock ∧ file.Live ∧ file.dataIdx > removed.dataIdx

instance (removed file : FileMeta cfg) : Decidable (Behind removed file) := by
  unfold Behind
  infer_instance

/-- The metadata of a file after another one has been deleted. -/
def moveUp (removed file : FileMeta cfg) : FileMeta cfg :=
  if Behind removed file then
    { file with dataIdx := file.dataIdx - removed.maxSize }
  else file

theorem moveUp_lblock (removed file : FileMeta cfg) : (moveUp removed file).lblock =
    file.lblock := by
  rw [moveUp]
  split <;> rfl

theorem moveUp_live (removed file : FileMeta cfg) : (moveUp removed file).Live ↔ file.Live := by
  rw [moveUp]
  split <;> rfl

theorem moveUp_maxSize (removed file : FileMeta cfg) :
    (moveUp removed file).maxSize = file.maxSize := by
  rw [moveUp]
  split <;> rfl

theorem moveUp_curSize (removed file : FileMeta cfg) :
    (moveUp removed file).curSize = file.curSize := by
  rw [moveUp]
  split <;> rfl

theorem Packed.moveUp_dataIdx (packed : Packed cfg file free) {del i : ℕ}
    (del_lt : del < cfg.maxNumFiles) (del_live : (file del).Live) (bound : i < cfg.maxNumFiles)
    (ne : i ≠ del) (live : (file i).Live) (lblock : (file i).lblock = (file del).lblock) :
    ((file i).dataIdx + (file i).maxSize ≤ (file del).dataIdx ∧
        (moveUp (file del) (file i)).dataIdx = (file i).dataIdx) ∨
      ((file del).dataIdx + (file del).maxSize ≤ (file i).dataIdx ∧
        (moveUp (file del) (file i)).dataIdx = (file i).dataIdx - (file del).maxSize) := by
  have apart := packed.apart i bound del del_lt ne live del_live lblock
  rw [moveUp]
  split
  · next behind =>
      have later := behind.2.2
      exact .inr ⟨by omega, rfl⟩
  · next before =>
      have le : (file i).dataIdx ≤ (file del).dataIdx := by
        by_contra behind
        exact before ⟨lblock, live, by omega⟩
      omega

theorem Packed.remove (packed : Packed cfg file free) {del : ℕ} (del_lt : del < cfg.maxNumFiles)
    (del_live : (file del).Live) (gone : file' del = FileMeta.zero)
    (moved : ∀ i, i ≠ del → file' i = moveUp (file del) (file i))
    (space : free' (file del).lblock = free (file del).lblock + (file del).maxSize)
    (others : ∀ l, l ≠ (file del).lblock → free' l = free l) : Packed cfg file' free' := by
  have del_end := packed.end_le del del_lt del_live
  have del_start := packed.start_le del del_lt del_live
  have dead : ∀ i, (file' i).Live → i ≠ del := by
    rintro i live rfl
    rw [gone] at live
    exact live rfl
  have live_iff : ∀ i, i ≠ del → ((file' i).Live ↔ (file i).Live) := by
    intro i ne
    rw [moved i ne]
    exact moveUp_live _ _
  have lblock_eq : ∀ i, i ≠ del → (file' i).lblock = (file i).lblock := by
    intro i ne
    rw [moved i ne]
    exact moveUp_lblock _ _
  have maxSize_eq : ∀ i, i ≠ del → (file' i).maxSize = (file i).maxSize := by
    intro i ne
    rw [moved i ne]
    exact moveUp_maxSize _ _
  have elsewhere : ∀ i, i ≠ del → (file i).lblock ≠ (file del).lblock → file' i = file i := by
    intro i ne other
    rw [moved i ne, moveUp, if_neg fun behind ↦ other behind.1]
  constructor
  · intro i i_lt
    by_cases here : i = del
    · rw [here, gone]
      exact numActiveDblocks_pos cfg
    · rw [lblock_eq i here]
      exact packed.lblock_lt i i_lt
  · intro i i_lt live
    have ne := dead i live
    rw [moved i ne, moveUp_curSize, moveUp_maxSize]
    exact packed.curSize_le i i_lt ((live_iff i ne).1 live)
  · intro i i_lt live
    have ne := dead i live
    rw [maxSize_eq i ne]
    exact packed.maxSize_le i i_lt ((live_iff i ne).1 live)
  · intro i i_lt live
    have ne := dead i live
    have start_le := packed.start_le i i_lt ((live_iff i ne).1 live)
    rw [lblock_eq i ne]
    by_cases same : (file i).lblock = (file del).lblock
    · rw [moved i ne]
      have place := packed.moveUp_dataIdx del_lt del_live i_lt ne ((live_iff i ne).1 live) same
      rw [same] at start_le ⊢
      omega
    · rw [elsewhere i ne same]
      exact start_le
  · intro i i_lt live
    have ne := dead i live
    have end_le := packed.end_le i i_lt ((live_iff i ne).1 live)
    rw [lblock_eq i ne, maxSize_eq i ne]
    by_cases same : (file i).lblock = (file del).lblock
    · have place := packed.moveUp_dataIdx del_lt del_live i_lt ne ((live_iff i ne).1 live) same
      rw [moved i ne]
      rw [same] at end_le ⊢
      rw [space]
      omega
    · rw [elsewhere i ne same, others _ same]
      exact end_le
  · intro i i_lt j j_lt ne live live' lblock
    have ne_i := dead i live
    have ne_j := dead j live'
    have live_i := (live_iff i ne_i).1 live
    have live_j := (live_iff j ne_j).1 live'
    rw [lblock_eq i ne_i, lblock_eq j ne_j] at lblock
    have apart := packed.apart i i_lt j j_lt ne live_i live_j lblock
    rw [maxSize_eq i ne_i, maxSize_eq j ne_j]
    by_cases same : (file i).lblock = (file del).lblock
    · have place_i := packed.moveUp_dataIdx del_lt del_live i_lt ne_i live_i same
      have place_j :=
        packed.moveUp_dataIdx del_lt del_live j_lt ne_j live_j (lblock.symm.trans same)
      rw [moved i ne_i, moved j ne_j]
      omega
    · rw [elsewhere i ne_i same, elsewhere j ne_j fun eq ↦ same (lblock.trans eq)]
      exact apart
  · intro l l_lt o lo hi
    by_cases here : l = (file del).lblock
    · cases here
      rw [space] at hi
      by_cases before : o < (file del).dataIdx
      · obtain ⟨i, i_lt, live, lblock, le, lt⟩ := packed.cover _ l_lt o lo (by omega)
        have ne : i ≠ del := by
          rintro rfl
          omega
        have place := packed.moveUp_dataIdx del_lt del_live i_lt ne live lblock
        rw [← moved i ne] at place
        refine ⟨i, i_lt, (live_iff i ne).2 live, (lblock_eq i ne).trans lblock, by omega, ?_⟩
        rw [maxSize_eq i ne]
        omega
      · obtain ⟨i, i_lt, live, lblock, le, lt⟩ := packed.cover _ l_lt (o + (file del).maxSize)
          (by omega) (by omega)
        have ne : i ≠ del := by
          rintro rfl
          omega
        have place := packed.moveUp_dataIdx del_lt del_live i_lt ne live lblock
        rw [← moved i ne] at place
        refine ⟨i, i_lt, (live_iff i ne).2 live, (lblock_eq i ne).trans lblock, by omega, ?_⟩
        rw [maxSize_eq i ne]
        omega
    · rw [others l here] at hi
      obtain ⟨i, i_lt, live, lblock, le, lt⟩ := packed.cover l l_lt o lo hi
      have ne : i ≠ del := by
        rintro rfl
        exact here lblock.symm
      have same := elsewhere i ne fun eq ↦ here (lblock.symm.trans eq)
      rw [← same] at live lblock le lt
      exact ⟨i, i_lt, live, lblock, le, lt⟩
  · intro l l_lt
    by_cases here : l = (file del).lblock
    · rw [here, space]
      omega
    · rw [others l here]
      exact packed.free_le l l_lt

/-! ## Space -/

/-- The space of files of a block is that of the offsets in them. -/
theorem Packed.sum_eq_card (packed : Packed cfg file free) {indices : Finset ℕ} {l : ℕ}
    (inside : ∀ i ∈ indices, i < cfg.maxNumFiles ∧ (file i).Live ∧ (file i).lblock = l) :
    ∑ i ∈ indices, (file i).maxSize = (indices.biUnion fun i ↦
      Finset.Ico (file i).dataIdx ((file i).dataIdx + (file i).maxSize)).card := by
  rw [Finset.card_biUnion]
  · apply Finset.sum_congr rfl
    intro i _
    rw [Nat.card_Ico, Nat.add_sub_cancel_left]
  · intro i member j member' ne
    obtain ⟨i_lt, live, lblock⟩ := inside i member
    obtain ⟨j_lt, live', lblock'⟩ := inside j member'
    have apart := packed.apart i i_lt j j_lt ne live live' (lblock.trans lblock'.symm)
    rw [Function.onFun, Finset.disjoint_left]
    intro o inside inside'
    rw [Finset.mem_Ico] at inside inside'
    omega

/-- No space of a block is lost: what its files leave is free. -/
theorem Packed.free_eq (packed : Packed cfg file free) {l : ℕ}
    (bound : l < itsNumActiveDblocks cfg) :
    dataStart cfg l + ∑ i ∈ (Finset.range cfg.maxNumFiles).filter
      (fun i ↦ (file i).Live ∧ (file i).lblock = l), (file i).maxSize + free l = cfg.blockSize := by
  have free_le := packed.free_le l bound
  have total : ∑ i ∈ (Finset.range cfg.maxNumFiles).filter
      (fun i ↦ (file i).Live ∧ (file i).lblock = l), (file i).maxSize =
        cfg.blockSize - free l - dataStart cfg l := by
    rw [packed.sum_eq_card (l := l), ← Nat.card_Ico]
    · congr 1
      ext o
      simp only [Finset.mem_biUnion, Finset.mem_filter, Finset.mem_range, Finset.mem_Ico]
      constructor
      · rintro ⟨i, ⟨i_lt, live, rfl⟩, lo, hi⟩
        have start_le := packed.start_le i i_lt live
        have end_le := packed.end_le i i_lt live
        omega
      · rintro ⟨lo, hi⟩
        obtain ⟨i, i_lt, live, lblock, le, lt⟩ := packed.cover l bound o lo (by omega)
        exact ⟨i, ⟨i_lt, live, lblock⟩, le, lt⟩
    · intro i member
      have here := Finset.mem_filter.1 member
      exact ⟨Finset.mem_range.1 here.1, here.2⟩
  omega

/-! ## What lies behind a file -/

/-- The space of the files that lie behind a file. -/
def bytesBehind (file : ℕ → FileMeta cfg) (del : ℕ) : List ℕ → ℕ
  | [] => 0
  | i :: rest =>
      (if i ≠ del ∧ Behind (file del) (file i) then (file i).maxSize else 0) +
        bytesBehind file del rest

/-- The offset of the first file that lies behind a file. -/
def firstBehind (file : ℕ → FileMeta cfg) (del : ℕ) : List ℕ → ℕ → ℕ
  | [], first => first
  | i :: rest, first =>
      firstBehind file del rest
        (if i ≠ del ∧ Behind (file del) (file i) then min first (file i).dataIdx else first)

theorem bytesBehind_eq_sum (file : ℕ → FileMeta cfg) (del : ℕ) (indices : List ℕ) :
    bytesBehind file del indices =
      (indices.map fun i ↦
        if i ≠ del ∧ Behind (file del) (file i) then (file i).maxSize else 0).sum := by
  induction indices with
  | nil => rfl
  | cons i rest ih => rw [bytesBehind, ih, List.map_cons, List.sum_cons]

theorem firstBehind_le (file : ℕ → FileMeta cfg) (del : ℕ) (indices : List ℕ) (first : ℕ) :
    firstBehind file del indices first ≤ first := by
  induction indices generalizing first with
  | nil => exact le_rfl
  | cons i rest ih =>
      refine (ih _).trans ?_
      split
      · exact Nat.min_le_left _ _
      · exact le_rfl

theorem firstBehind_le_of_mem {file : ℕ → FileMeta cfg} {del i : ℕ} {indices : List ℕ}
    (member : i ∈ indices) (ne : i ≠ del) (behind : Behind (file del) (file i)) (first : ℕ) :
    firstBehind file del indices first ≤ (file i).dataIdx := by
  induction indices generalizing first with
  | nil => cases member
  | cons j rest ih =>
      rcases List.mem_cons.1 member with rfl | later
      · rw [firstBehind, if_pos ⟨ne, behind⟩]
        exact (firstBehind_le file del rest _).trans (Nat.min_le_right _ _)
      · exact ih later _

theorem le_firstBehind {file : ℕ → FileMeta cfg} {del : ℕ} {indices : List ℕ} {bound first : ℕ}
    (all : ∀ i ∈ indices, i ≠ del → Behind (file del) (file i) → bound ≤ (file i).dataIdx)
    (le : bound ≤ first) : bound ≤ firstBehind file del indices first := by
  induction indices generalizing first with
  | nil => exact le
  | cons j rest ih =>
      apply ih fun i member ↦ all i (List.mem_cons_of_mem j member)
      split
      · next here => exact Nat.le_min.2 ⟨le, all j List.mem_cons_self here.1 here.2⟩
      · exact le

section

variable {del : ℕ} (packed : Packed cfg file free) (del_lt : del < cfg.maxNumFiles)
  (del_live : (file del).Live) (nonempty : 0 < (file del).maxSize)

include packed del_lt del_live

theorem Packed.end_le_of_behind {i : ℕ} (bound : i < cfg.maxNumFiles) (ne : i ≠ del)
    (behind : Behind (file del) (file i)) :
    (file del).dataIdx + (file del).maxSize ≤ (file i).dataIdx := by
  have apart := packed.apart i bound del del_lt ne behind.2.1 del_live behind.1
  have later := behind.2.2
  omega

omit del_lt del_live in
/-- The space of the files that lie behind a file is that of the offsets in them. -/
theorem Packed.bytesBehind_eq_card :
    bytesBehind file del (List.range cfg.maxNumFiles) =
      (((Finset.range cfg.maxNumFiles).filter fun i ↦
        i ≠ del ∧ Behind (file del) (file i)).biUnion fun i ↦
          Finset.Ico (file i).dataIdx ((file i).dataIdx + (file i).maxSize)).card := by
  rw [← packed.sum_eq_card (l := (file del).lblock), Finset.sum_filter, bytesBehind_eq_sum]
  · rfl
  · intro i member
    have here := Finset.mem_filter.1 member
    exact ⟨Finset.mem_range.1 here.1, here.2.2.2.1, here.2.2.1⟩

omit del_lt del_live in
theorem Packed.bytesBehind_le :
    bytesBehind file del (List.range cfg.maxNumFiles) ≤ cfg.blockSize := by
  rw [packed.bytesBehind_eq_card, ← Nat.sub_zero cfg.blockSize, ← Nat.card_Ico]
  apply Finset.card_le_card
  intro o inside
  rw [Finset.mem_biUnion] at inside
  obtain ⟨i, member, inside⟩ := inside
  have here := Finset.mem_filter.1 member
  have end_le := packed.end_le i (Finset.mem_range.1 here.1) here.2.2.2.1
  rw [Finset.mem_Ico] at inside ⊢
  omega

include nonempty

/-- The files behind a file fill the space up to the free space. -/
theorem Packed.bytesBehind_eq :
    (file del).dataIdx + (file del).maxSize + bytesBehind file del (List.range cfg.maxNumFiles) +
      free (file del).lblock = cfg.blockSize := by
  have end_le := packed.end_le del del_lt del_live
  have start_le := packed.start_le del del_lt del_live
  have total : bytesBehind file del (List.range cfg.maxNumFiles) =
      cfg.blockSize - free (file del).lblock - ((file del).dataIdx + (file del).maxSize) := by
    rw [packed.bytesBehind_eq_card, ← Nat.card_Ico]
    congr 1
    ext o
    simp only [Finset.mem_biUnion, Finset.mem_filter, Finset.mem_range, Finset.mem_Ico]
    constructor
    · rintro ⟨i, ⟨bound, ne, later⟩, lo, hi⟩
      have after := packed.end_le_of_behind del_lt del_live bound ne later
      have le := packed.end_le i bound later.2.1
      rw [later.1] at le
      omega
    · rintro ⟨lo, hi⟩
      obtain ⟨i, bound, live, lblock, le, lt⟩ := packed.cover _
        (packed.lblock_lt del del_lt) o (by omega) (by omega)
      have ne : i ≠ del := by
        rintro rfl
        omega
      have apart := packed.apart i bound del del_lt ne live del_live lblock
      exact ⟨i, ⟨bound, ne, lblock, live, by omega⟩, le, lt⟩
  omega

/-- The first of them starts where the file ends. -/
theorem Packed.firstBehind_eq (some : 0 < bytesBehind file del (List.range cfg.maxNumFiles)) :
    firstBehind file del (List.range cfg.maxNumFiles) cfg.blockSize =
      (file del).dataIdx + (file del).maxSize := by
  have total := packed.bytesBehind_eq del_lt del_live nonempty
  have start_le := packed.start_le del del_lt del_live
  apply Nat.le_antisymm
  · obtain ⟨i, bound, live, lblock, le, lt⟩ := packed.cover _ (packed.lblock_lt del del_lt)
      ((file del).dataIdx + (file del).maxSize) (by omega) (by omega)
    have ne : i ≠ del := by
      rintro rfl
      omega
    have apart := packed.apart i bound del del_lt ne live del_live lblock
    have behind : Behind (file del) (file i) := ⟨lblock, live, by omega⟩
    exact (firstBehind_le_of_mem (List.mem_range.2 bound) ne behind _).trans le
  · apply le_firstBehind
    · intro i member ne behind
      exact packed.end_le_of_behind del_lt del_live (List.mem_range.1 member) ne behind
    · omega

end

end TrustedFirmwareM.Its
