import TrustedFirmwareM.Spm.Moves
import TrustedFirmwareM.Spm.Step

/-!
# Parameters of a call

`spm_associate_call_params` as a check: which calls pass it, what has been checked of a call that
passes, and the calls that pass unchecked.
-/

namespace TrustedFirmwareM.Spm

variable {Pt Svc : Type}

/-- Two ranges have no byte in common.  The ends of the ranges are not reduced to words. -/
def Apart (base len base' len' : Word) : Prop :=
  ∀ address, base.toNat ≤ address → address < base.toNat + len.toNat →
    base'.toNat ≤ address → base'.toNat + len'.toNat ≤ address

/-- The control word marks the input vectors as non-secure, by themselves or with their array. -/
def marksInvecs (ctrl : Word) : Bool := paramIsNsVec ctrl || paramIsNsInvec ctrl

/-- The control word marks the output vectors as non-secure, by themselves or with their array. -/
def marksOutvecs (ctrl : Word) : Bool := paramIsNsVec ctrl || paramIsNsOutvec ctrl

/-- What has been checked of the parameters of a call, and entered into its connection. -/
structure CheckedParams (P : Platform Pt Svc) (memory : Word → BitVec 8) (caller : Pt)
    (ctrl inptr outptr : Word) (k : Connection Pt Svc) : Prop where
  /-- The vectors fit into the message. -/
  counts : paramUnpackInLen ctrl + paramUnpackOutLen ctrl ≤ psaMaxIovec
  /-- Input vectors do not overlap. -/
  apart : ∀ i j : Fin 4, i.val < paramUnpackInLen ctrl → j.val < paramUnpackInLen ctrl → i ≠ j →
    Apart (vecBase memory inptr i) (vecLen memory inptr i) (vecBase memory inptr j)
      (vecLen memory inptr j)
  /-- The array of input vectors is readable. -/
  inDescriptors : paramHasIovec ctrl = true → P.memoryCheck caller inptr
    (BitVec.ofNat 32 (8 * paramUnpackInLen ctrl)) ⟨false, paramIsNsVec ctrl⟩ = true
  /-- The array of output vectors is readable and writable. -/
  outDescriptors : paramHasIovec ctrl = true → P.memoryCheck caller outptr
    (BitVec.ofNat 32 (8 * paramUnpackOutLen ctrl)) ⟨true, paramIsNsVec ctrl⟩ = true
  /-- Input vectors are readable. -/
  invecs : ∀ i : Fin 4, i.val < paramUnpackInLen ctrl → P.memoryCheck caller
    (vecBase memory inptr i) (vecLen memory inptr i) ⟨false, marksInvecs ctrl⟩ = true
  /-- Output vectors are readable and writable. -/
  outvecs : ∀ i : Fin 4, i.val < paramUnpackOutLen ctrl → P.memoryCheck caller
    (vecBase memory outptr i) (vecLen memory outptr i) ⟨true, marksOutvecs ctrl⟩ = true
  /-- Lengths of the input vectors. -/
  inSize : ∀ i, k.msg.inSize i = callerLen memory inptr (paramUnpackInLen ctrl) i
  /-- Lengths of the output vectors. -/
  outSize : ∀ i, k.msg.outSize i = callerLen memory outptr (paramUnpackOutLen ctrl) i
  /-- Addresses of the input vectors. -/
  invecBase : ∀ i : Fin 4, i.val < paramUnpackInLen ctrl → k.invecBase i = vecBase memory inptr i
  /-- Addresses of the output vectors. -/
  outvecBase : ∀ i : Fin 4, i.val < paramUnpackOutLen ctrl →
    k.outvecBase i = vecBase memory outptr i

/-- The parameters of a call that is let through have been checked. -/
def SoundParams (P : Platform Pt Svc) (memory : Word → BitVec 8) (caller : Pt)
    (k : Connection Pt Svc) (ctrl inptr outptr : Word) : Prop :=
  ∀ k', spmAssociateCallParams P memory caller k ctrl inptr outptr = (psaSuccess, k') →
    CheckedParams P memory caller ctrl inptr outptr k'

/-- Memory checks accept ranges of bytes that the caller may access in the way asked for. -/
def ChecksMemory (P : Platform Pt Svc) (permits : Pt → ℕ → Access → Prop) : Prop :=
  ∀ caller base len access, P.memoryCheck caller base len access = true →
    base.toNat + len.toNat ≤ 2 ^ 32 ∧
      ∀ address, base.toNat ≤ address → address < base.toNat + len.toNat →
        permits caller address access

/-- The non-secure attribute that output vectors are checked with. -/
def outvecAttribute (ctrl : Word) : Bool := marksInvecs ctrl && marksOutvecs ctrl

/-- A call with vectors passes the checks of its vectors. -/
structure PassesVectors (P : Platform Pt Svc) (memory : Word → BitVec 8) (caller : Pt)
    (ctrl inptr outptr : Word) : Prop where
  /-- The number of vectors. -/
  counts : paramUnpackInLen ctrl + paramUnpackOutLen ctrl ≤ psaMaxIovec
  /-- The array of input vectors. -/
  inDescriptors : P.memoryCheck caller inptr (BitVec.ofNat 32 (8 * paramUnpackInLen ctrl))
    ⟨false, paramIsNsVec ctrl⟩ = true
  /-- The array of output vectors. -/
  outDescriptors : P.memoryCheck caller outptr (BitVec.ofNat 32 (8 * paramUnpackOutLen ctrl))
    ⟨true, paramIsNsVec ctrl⟩ = true
  /-- The comparison of the input vectors. -/
  overlap : invecsOverlap memory inptr (paramUnpackInLen ctrl) = false
  /-- The input vectors. -/
  invecs : ∀ i : Fin 4, i.val < paramUnpackInLen ctrl → P.memoryCheck caller
    (vecBase memory inptr i) (vecLen memory inptr i) ⟨false, marksInvecs ctrl⟩ = true
  /-- The output vectors. -/
  outvecs : ∀ i : Fin 4, i.val < paramUnpackOutLen ctrl → P.memoryCheck caller
    (vecBase memory outptr i) (vecLen memory outptr i) ⟨true, outvecAttribute ctrl⟩ = true

/-- A call passes every check that is made of it. -/
structure Passes (P : Platform Pt Svc) (memory : Word → BitVec 8) (caller : Pt)
    (ctrl inptr outptr : Word) : Prop where
  /-- The type of the request. -/
  type_nonneg : 0 ≤ paramUnpackType ctrl
  /-- The vectors, if there are any. -/
  vectors : paramHasIovec ctrl = true → PassesVectors P memory caller ctrl inptr outptr

/-- What the checks let through. -/
inductive Unchecked (P : Platform Pt Svc) (memory : Word → BitVec 8) (caller : Pt)
    (k : Connection Pt Svc) (ctrl inptr outptr : Word) : Prop
  /-- Only the output vectors are marked as non-secure, and one of them is not. -/
  | secureOutvec (marked : paramIsNsOutvec ctrl = true) (unmarked : marksInvecs ctrl = false)
      (i : Fin 4) (bound : i.val < paramUnpackOutLen ctrl)
      (refused : P.memoryCheck caller (vecBase memory outptr i) (vecLen memory outptr i)
        ⟨true, true⟩ = false)
  /-- Two input vectors overlap, and the end of one of them is beyond the last word. -/
  | overlap (i j : Fin 4) (ne : i ≠ j) (i_lt : i.val < paramUnpackInLen ctrl)
      (j_lt : j.val < paramUnpackInLen ctrl)
      (shared : ¬Apart (vecBase memory inptr i) (vecLen memory inptr i) (vecBase memory inptr j)
        (vecLen memory inptr j))
      (beyond : 2 ^ 32 ≤ (vecBase memory inptr i).toNat + (vecLen memory inptr i).toNat)
  /-- A call without vectors uses a connection with lengths of an earlier call. -/
  | stale (none : paramHasIovec ctrl = false)
      (i : Fin 4) (left : k.msg.inSize i ≠ 0 ∨ k.msg.outSize i ≠ 0)

variable {P : Platform Pt Svc} {memory : Word → BitVec 8} {caller : Pt} {k : Connection Pt Svc}
  {ctrl inptr outptr : Word}

/-! ## The vector loops -/

theorem associateInvecs_eq_success {check : Word → Word → Bool} {indexes : List (Fin 4)} :
    (associateInvecs check memory inptr indexes k).1 = psaSuccess ↔
      ∀ i ∈ indexes, check (vecBase memory inptr i) (vecLen memory inptr i) = true := by
  induction indexes generalizing k with
  | nil => simp [associateInvecs]
  | cons j rest ih =>
      rw [associateInvecs]
      split
      · next passed =>
          rw [ih]
          simp [passed]
      · next failed => simp [failed, psaErrorProgrammerError, psaSuccess]

theorem associateOutvecs_eq_success {check : Word → Word → Bool} {indexes : List (Fin 4)} :
    (associateOutvecs check memory outptr indexes k).1 = psaSuccess ↔
      ∀ i ∈ indexes, check (vecBase memory outptr i) (vecLen memory outptr i) = true := by
  induction indexes generalizing k with
  | nil => simp [associateOutvecs]
  | cons j rest ih =>
      rw [associateOutvecs]
      split
      · next passed =>
          rw [ih]
          simp [passed]
      · next failed => simp [failed, psaErrorProgrammerError, psaSuccess]

/-- Entering input vectors enters their addresses. -/
theorem invecBase_associateInvecs {check : Word → Word → Bool} {indexes : List (Fin 4)}
    (success : (associateInvecs check memory inptr indexes k).1 = psaSuccess) (i : Fin 4) :
    (associateInvecs check memory inptr indexes k).2.invecBase i =
      if i ∈ indexes then vecBase memory inptr i else k.invecBase i := by
  induction indexes generalizing k with
  | nil => simp [associateInvecs]
  | cons j rest ih =>
      have passed := associateInvecs_eq_success.1 success j List.mem_cons_self
      rw [associateInvecs, if_pos passed] at success ⊢
      rw [ih success]
      by_cases eq : i = j
      · simp [eq]
      · simp [eq]

/-- Entering output vectors enters their addresses. -/
theorem outvecBase_associateOutvecs {check : Word → Word → Bool} {indexes : List (Fin 4)}
    (success : (associateOutvecs check memory outptr indexes k).1 = psaSuccess) (i : Fin 4) :
    (associateOutvecs check memory outptr indexes k).2.outvecBase i =
      if i ∈ indexes then vecBase memory outptr i else k.outvecBase i := by
  induction indexes generalizing k with
  | nil => simp [associateOutvecs]
  | cons j rest ih =>
      have passed := associateOutvecs_eq_success.1 success j List.mem_cons_self
      rw [associateOutvecs, if_pos passed] at success ⊢
      rw [ih success]
      by_cases eq : i = j
      · simp [eq]
      · simp [eq]

/-- Entering output vectors leaves the addresses of the input vectors alone. -/
theorem invecBase_associateOutvecs {check : Word → Word → Bool} {indexes : List (Fin 4)} :
    (associateOutvecs check memory outptr indexes k).2.invecBase = k.invecBase := by
  induction indexes generalizing k with
  | nil => rfl
  | cons j rest ih =>
      rw [associateOutvecs]
      split
      · rw [ih]
      · rfl

/-! ## Calls that pass -/

/-- A call succeeds if and only if it passes the checks. -/
theorem spmAssociateCallParams_eq_success :
    (spmAssociateCallParams P memory caller k ctrl inptr outptr).1 = psaSuccess ↔
      Passes P memory caller ctrl inptr outptr := by
  have failed : psaErrorProgrammerError ≠ psaSuccess := by decide
  dsimp only [spmAssociateCallParams]
  split
  · next negative => exact iff_of_false failed fun passes ↦ not_lt.2 passes.type_nonneg negative
  next type_nonneg =>
  rw [not_lt] at type_nonneg
  split
  · next without =>
      simp only [true_iff]
      exact ⟨type_nonneg, fun has_iovec ↦ absurd has_iovec without⟩
  next has_iovec =>
  rw [not_not] at has_iovec
  have passes_iff : Passes P memory caller ctrl inptr outptr ↔
      PassesVectors P memory caller ctrl inptr outptr :=
    ⟨fun passes ↦ passes.vectors has_iovec, fun passes ↦ ⟨type_nonneg, fun _ ↦ passes⟩⟩
  rw [passes_iff]
  split
  · next many => exact iff_of_false failed fun passes ↦ absurd passes.counts (not_le.2 many)
  next counts =>
  split
  · next refused => exact iff_of_false failed fun passes ↦ refused passes.inDescriptors
  next inDescriptors =>
  split
  · next refused => exact iff_of_false failed fun passes ↦ refused passes.outDescriptors
  next outDescriptors =>
  split
  · next overlap =>
      exact iff_of_false failed fun passes ↦ by simp [passes.overlap] at overlap
  next overlap =>
  rw [not_lt] at counts
  rw [not_not] at inDescriptors outDescriptors
  rw [Bool.not_eq_true] at overlap
  split
  · next refused =>
      refine iff_of_false refused fun passes ↦ refused (associateInvecs_eq_success.2 ?_)
      intro i mem
      exact passes.invecs i (mem_vecIndexes.1 mem)
  next invecs =>
  rw [not_not, associateInvecs_eq_success] at invecs
  split
  · next refused =>
      refine iff_of_false refused fun passes ↦ refused (associateOutvecs_eq_success.2 ?_)
      intro i mem
      exact passes.outvecs i (mem_vecIndexes.1 mem)
  next outvecs =>
  rw [not_not, associateOutvecs_eq_success] at outvecs
  refine iff_of_true rfl ⟨counts, inDescriptors, outDescriptors, overlap, ?_, ?_⟩
  · intro i lt
    exact invecs i (mem_vecIndexes.2 lt)
  · intro i lt
    exact outvecs i (mem_vecIndexes.2 lt)

/-- A call that succeeds enters the addresses of its vectors. -/
theorem bases_of_success {k' : Connection Pt Svc}
    (run : spmAssociateCallParams P memory caller k ctrl inptr outptr = (psaSuccess, k')) :
    (∀ i : Fin 4, i.val < paramUnpackInLen ctrl → k'.invecBase i = vecBase memory inptr i) ∧
      ∀ i : Fin 4, i.val < paramUnpackOutLen ctrl → k'.outvecBase i = vecBase memory outptr i := by
  have passes := spmAssociateCallParams_eq_success.1 (congrArg Prod.fst run)
  cases has_iovec : paramHasIovec ctrl with
  | false =>
      obtain ⟨inLen, outLen⟩ := counts_of_not_hasIovec passes.type_nonneg has_iovec
      simp [inLen, outLen]
  | true =>
      have vectors := passes.vectors has_iovec
      have invecs : ∀ i ∈ vecIndexes (paramUnpackInLen ctrl), P.memoryCheck caller
          (vecBase memory inptr i) (vecLen memory inptr i)
          ⟨false, paramIsNsVec ctrl || paramIsNsInvec ctrl⟩ = true :=
        fun i mem ↦ vectors.invecs i (mem_vecIndexes.1 mem)
      have outvecs : ∀ i ∈ vecIndexes (paramUnpackOutLen ctrl), P.memoryCheck caller
          (vecBase memory outptr i) (vecLen memory outptr i)
          ⟨true, (paramIsNsVec ctrl || paramIsNsInvec ctrl) &&
            (paramIsNsVec ctrl || paramIsNsOutvec ctrl)⟩ = true :=
        fun i mem ↦ vectors.outvecs i (mem_vecIndexes.1 mem)
      dsimp only [spmAssociateCallParams] at run
      rw [if_neg (not_lt.2 passes.type_nonneg), if_neg (by simp [has_iovec]),
        if_neg (not_lt.2 vectors.counts), if_neg (by simp [vectors.inDescriptors]),
        if_neg (by simp [vectors.outDescriptors]), if_neg (by simp [vectors.overlap]),
        if_neg (not_not.2 (associateInvecs_eq_success.2 invecs)),
        if_neg (not_not.2 (associateOutvecs_eq_success.2 outvecs))] at run
      cases run
      constructor
      · intro i lt
        rw [invecBase_associateOutvecs,
          invecBase_associateInvecs (associateInvecs_eq_success.2 invecs),
          if_pos (mem_vecIndexes.2 lt)]
      · intro i lt
        rw [outvecBase_associateOutvecs (associateOutvecs_eq_success.2 outvecs),
          if_pos (mem_vecIndexes.2 lt)]

/-! ## Overlaps -/

theorem invecsOverlap_eq_false {count : ℕ} : invecsOverlap memory inptr count = false ↔
    ∀ i j : Fin 4, i.val < count → j.val < count → i < j →
      vecBase memory inptr j + vecLen memory inptr j ≤ vecBase memory inptr i ∨
        vecBase memory inptr i + vecLen memory inptr i ≤ vecBase memory inptr j := by
  simp only [invecsOverlap, List.any_eq_false, mem_vecIndexes]
  constructor
  · intro clear i j i_lt j_lt lt
    have pair := clear i i_lt
    simp only [List.any_eq_true, mem_vecIndexes, not_exists, not_and] at pair
    simpa [lt, or_iff_not_imp_left] using pair j j_lt
  · intro clear i i_lt
    simp only [List.any_eq_true, mem_vecIndexes, not_exists, not_and]
    intro j j_lt
    by_cases lt : i < j
    · simpa [lt, or_iff_not_imp_left] using clear i j i_lt j_lt lt
    · simp [lt]

theorem Apart.symm {base len base' len' : Word} (apart : Apart base len base' len') :
    Apart base' len' base len := by
  intro address low high low'
  by_contra inside
  have := apart address low' (by omega) low
  omega

/-- Ranges that the comparison finds apart are apart if their ends are words. -/
theorem apart_of_le {base len base' len' : Word} (fits : base.toNat + len.toNat < 2 ^ 32)
    (le : base + len ≤ base') : Apart base len base' len' := by
  intro address low high low'
  rw [BitVec.le_def, BitVec.toNat_add, Nat.mod_eq_of_lt fits] at le
  omega

/-- Input vectors that pass the comparison are apart, or the end of one is beyond the last word. -/
theorem apart_or_beyond {i j : Fin 4} {count : ℕ}
    (overlap : invecsOverlap memory inptr count = false)
    (ne : i ≠ j) (i_lt : i.val < count) (j_lt : j.val < count) :
    Apart (vecBase memory inptr i) (vecLen memory inptr i) (vecBase memory inptr j)
        (vecLen memory inptr j) ∨
      2 ^ 32 ≤ (vecBase memory inptr i).toNat + (vecLen memory inptr i).toNat ∨
      2 ^ 32 ≤ (vecBase memory inptr j).toNat + (vecLen memory inptr j).toNat := by
  by_cases i_fits : (vecBase memory inptr i).toNat + (vecLen memory inptr i).toNat < 2 ^ 32
  · by_cases j_fits : (vecBase memory inptr j).toNat + (vecLen memory inptr j).toNat < 2 ^ 32
    · left
      have pairs := invecsOverlap_eq_false.1 overlap
      rcases lt_or_gt_of_ne ne with lt | gt
      · rcases pairs i j i_lt j_lt lt with le | le
        · exact (apart_of_le j_fits le).symm
        · exact apart_of_le i_fits le
      · rcases pairs j i j_lt i_lt gt with le | le
        · exact apart_of_le i_fits le
        · exact (apart_of_le j_fits le).symm
    · exact .inr (.inr (not_lt.1 j_fits))
  · exact .inr (.inl (not_lt.1 i_fits))

/-! ## Soundness -/

/-- The parameters of a call have been checked when it is let through, if and only if it is not one
of the calls that pass unchecked. -/
theorem soundParams_iff_not_unchecked (P : Platform Pt Svc) (memory : Word → BitVec 8) (caller : Pt)
    (k : Connection Pt Svc) (ctrl inptr outptr : Word) :
    SoundParams P memory caller k ctrl inptr outptr ↔
      ¬(Passes P memory caller ctrl inptr outptr ∧
        Unchecked P memory caller k ctrl inptr outptr) := by
  constructor
  · rintro sound ⟨passes, unchecked⟩
    generalize run : spmAssociateCallParams P memory caller k ctrl inptr outptr = result
    obtain ⟨status, k'⟩ := result
    have success : status = psaSuccess := by
      simpa [run] using (spmAssociateCallParams_eq_success (k := k)).2 passes
    have checked := sound k' (success ▸ run)
    cases unchecked with
    | secureOutvec marked unmarked i bound refused =>
        have permitted := checked.outvecs i bound
        rw [marksOutvecs, marked, Bool.or_true, refused] at permitted
        cases permitted
    | overlap i j ne i_lt j_lt shared _ => exact shared (checked.apart i j i_lt j_lt ne)
    | stale none i left =>
        obtain ⟨-, -, associated⟩ := spmAssociateCallParams_spec run
        have entered := associated success
        obtain ⟨inLen, outLen⟩ := counts_of_not_hasIovec passes.type_nonneg none
        have inSize := checked.inSize i
        have outSize := checked.outSize i
        rw [entered.inSize, none, inLen] at inSize
        rw [entered.outSize, none, outLen] at outSize
        simp [callerLen] at inSize outSize
        simp [inSize, outSize] at left
  · intro sound k' run
    have passes := spmAssociateCallParams_eq_success.1 (congrArg Prod.fst run)
    obtain ⟨-, -, associated⟩ := spmAssociateCallParams_spec run
    have entered := associated rfl
    obtain ⟨invecBase, outvecBase⟩ := bases_of_success run
    have nothing : ¬Unchecked P memory caller k ctrl inptr outptr :=
      fun unchecked ↦ sound ⟨passes, unchecked⟩
    cases has_iovec : paramHasIovec ctrl with
    | false =>
        obtain ⟨inLen, outLen⟩ := counts_of_not_hasIovec passes.type_nonneg has_iovec
        have clean : ∀ i, k.msg.inSize i = 0 ∧ k.msg.outSize i = 0 := by
          intro i
          by_contra left
          exact nothing (.stale has_iovec i (not_and_or.1 left))
        exact {
          counts := by simp [inLen, outLen]
          apart := by simp [inLen]
          inDescriptors := by simp [has_iovec]
          outDescriptors := by simp [has_iovec]
          invecs := by simp [inLen]
          outvecs := by simp [outLen]
          inSize := by simp [entered.inSize, has_iovec, inLen, callerLen, clean]
          outSize := by simp [entered.outSize, has_iovec, outLen, callerLen, clean]
          invecBase := invecBase
          outvecBase := outvecBase }
    | true =>
        have vectors := passes.vectors has_iovec
        exact {
          counts := vectors.counts
          apart := by
            intro i j i_lt j_lt ne
            by_contra shared
            rcases apart_or_beyond vectors.overlap ne i_lt j_lt with apart | beyond | beyond
            · exact shared apart
            · exact nothing (.overlap i j ne i_lt j_lt shared beyond)
            · exact nothing (.overlap j i ne.symm j_lt i_lt (fun apart ↦ shared apart.symm) beyond)
          inDescriptors := fun _ ↦ vectors.inDescriptors
          outDescriptors := fun _ ↦ vectors.outDescriptors
          invecs := vectors.invecs
          outvecs := by
            intro i bound
            by_contra refused
            have permitted := vectors.outvecs i bound
            cases unmarked : marksInvecs ctrl with
            | true =>
                rw [outvecAttribute, unmarked, Bool.true_and] at permitted
                exact refused permitted
            | false =>
                have vec : paramIsNsVec ctrl = false := by
                  rw [marksInvecs, Bool.or_eq_false_iff] at unmarked
                  exact unmarked.1
                cases marked : paramIsNsOutvec ctrl with
                | true =>
                    rw [marksOutvecs, marked, Bool.or_true, Bool.not_eq_true] at refused
                    exact nothing (.secureOutvec marked unmarked i bound refused)
                | false =>
                    rw [outvecAttribute, unmarked, Bool.false_and] at permitted
                    rw [marksOutvecs, vec, marked, Bool.or_false] at refused
                    exact refused permitted
          inSize := by simp [entered.inSize, has_iovec]
          outSize := by simp [entered.outSize, has_iovec]
          invecBase := invecBase
          outvecBase := outvecBase }

/-- The bytes of the vectors of a call that has been checked are memory of the caller. -/
theorem CheckedParams.permitted {permits : Pt → ℕ → Access → Prop} (checks : ChecksMemory P permits)
    (checked : CheckedParams P memory caller ctrl inptr outptr k) {i : Fin 4} {address : ℕ} :
    (i.val < paramUnpackInLen ctrl → (k.invecBase i).toNat ≤ address →
      address < (k.invecBase i).toNat + (k.msg.inSize i).toNat →
        permits caller address ⟨false, marksInvecs ctrl⟩) ∧
    (i.val < paramUnpackOutLen ctrl → (k.outvecBase i).toNat ≤ address →
      address < (k.outvecBase i).toNat + (k.msg.outSize i).toNat →
        permits caller address ⟨true, marksOutvecs ctrl⟩) := by
  constructor
  · intro bound low high
    rw [checked.invecBase i bound] at low high
    rw [checked.inSize i, callerLen, if_pos bound] at high
    exact (checks _ _ _ _ (checked.invecs i bound)).2 address low high
  · intro bound low high
    rw [checked.outvecBase i bound] at low high
    rw [checked.outSize i, callerLen, if_pos bound] at high
    exact (checks _ _ _ _ (checked.outvecs i bound)).2 address low high

/-- The small platform with secure memory below `0x20000000` and non-secure memory above. -/
def nsMemoryPlatform : Platform Bool Bool :=
  { samplePlatform with
    memoryCheck := fun _ base len access ↦
      if access.ns then 0x20000000 ≤ base.toNat ∧ base.toNat + len.toNat ≤ 0x30000000
      else base.toNat + len.toNat ≤ 0x20000000 }

/-- The bytes of the two memories. -/
def nsMemoryPermits (_ : Bool) (address : ℕ) (access : Access) : Prop :=
  if access.ns then 0x20000000 ≤ address ∧ address < 0x30000000 else address < 0x20000000

theorem nsMemoryPlatform_checksMemory : ChecksMemory nsMemoryPlatform nsMemoryPermits := by
  intro caller base len access accepted
  cases ns : access.ns with
  | true =>
      simp only [nsMemoryPlatform, ns, if_true, decide_eq_true_eq] at accepted
      refine ⟨by omega, fun address low high ↦ ?_⟩
      simp only [nsMemoryPermits, ns, if_true]
      omega
  | false =>
      simp only [nsMemoryPlatform, ns, Bool.false_eq_true, if_false, decide_eq_true_eq] at accepted
      refine ⟨by omega, fun address low high ↦ ?_⟩
      simp only [nsMemoryPermits, ns, Bool.false_eq_true, if_false]
      omega

/-- An array with one output vector of 16 bytes at `0x4000`. -/
def sampleDescriptors (address : Word) : BitVec 8 :=
  if address = 0x3001 then 0x40 else if address = 0x3004 then 16 else 0

/-- A connection on which nothing has been called. -/
def idleConnection : Connection Bool Bool where
  status := .idle
  pClient := some false
  service := some false
  msg := ⟨0, 0, 1, 0, fun _ ↦ 0, fun _ ↦ 0⟩
  invecBase _ := 0
  invecAccessed _ := 0
  outvecBase _ := 0
  outvecWritten _ := 0
  callerOutvec := 0
  clientData := 0
  iovecStatus := 0
  pHandles := none
  replyValue := 0

/-- A call with one output vector, marked as non-secure, is let through with a secure one. -/
theorem not_soundParams : ¬∀ (P : Platform Bool Bool) (permits : Bool → ℕ → Access → Prop)
    (memory : Word → BitVec 8) (caller : Bool) (k : Connection Bool Bool)
    (ctrl inptr outptr : Word),
    ChecksMemory P permits → SoundParams P memory caller k ctrl inptr outptr := by
  intro sound
  generalize run : spmAssociateCallParams nsMemoryPlatform sampleDescriptors false idleConnection
    0x00090000 0 0x3000 = result
  obtain ⟨status, k'⟩ := result
  have success : (spmAssociateCallParams nsMemoryPlatform sampleDescriptors false idleConnection
      0x00090000 0 0x3000).1 = psaSuccess := by
    decide +kernel
  rw [run] at success
  have checked := sound nsMemoryPlatform nsMemoryPermits sampleDescriptors false idleConnection
    0x00090000 0 0x3000 nsMemoryPlatform_checksMemory k' (run.trans (by rw [← success]))
  exact absurd (checked.outvecs 0 (by decide)) (by decide +kernel)

end TrustedFirmwareM.Spm
