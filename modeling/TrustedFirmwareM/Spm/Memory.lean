import TrustedFirmwareM.Spm.Service

/-!
# Words in memory

Loads of what was stored, stores that miss an address, and the output vector lengths that a reply
writes into the descriptors of its client.
-/

namespace TrustedFirmwareM.Spm

variable {Pt Svc : Type}

/-- Different offsets from an address give different addresses. -/
theorem add_ofNat_ne {address : Word} {m n : ℕ} (m_lt : m < 2 ^ 32) (n_lt : n < 2 ^ 32)
    (m_ne : m ≠ n) : address + BitVec.ofNat 32 m ≠ address + BitVec.ofNat 32 n := by
  intro same
  have offsets := congrArg BitVec.toNat (BitVec.add_right_inj address |>.1 same)
  simp only [BitVec.toNat_ofNat, Nat.mod_eq_of_lt m_lt, Nat.mod_eq_of_lt n_lt] at offsets
  exact m_ne offsets

theorem add_add_ofNat (address : Word) (m n : ℕ) :
    address + BitVec.ofNat 32 m + BitVec.ofNat 32 n = address + BitVec.ofNat 32 (m + n) := by
  rw [BitVec.add_assoc, BitVec.ofNat_add]

theorem storeWord_of_apart {memory : Word → BitVec 8} {address value a : Word}
    (apart : ∀ n, n < 4 → a ≠ address + BitVec.ofNat 32 n) :
    storeWord memory address value a = memory a := by
  have zero : a ≠ address := by simpa using apart 0 (by omega)
  have one : a ≠ address + 1 := apart 1 (by omega)
  have two : a ≠ address + 2 := apart 2 (by omega)
  have three : a ≠ address + 3 := apart 3 (by omega)
  rw [storeWord, Function.update_of_ne three, Function.update_of_ne two, Function.update_of_ne one,
    Function.update_of_ne zero]

theorem storeWords_of_apart {memory : Word → BitVec 8} {address a : Word} {values : List Word}
    (apart : ∀ n, n < 4 * values.length → a ≠ address + BitVec.ofNat 32 n) :
    storeWords memory address values a = memory a := by
  induction values generalizing memory address with
  | nil => rfl
  | cons value values ih =>
      rw [storeWords, ih, storeWord_of_apart]
      · intro n n_lt
        exact apart n (by simp only [List.length_cons]; omega)
      · intro n n_lt
        have four : address + 4 + BitVec.ofNat 32 n = address + BitVec.ofNat 32 (4 + n) :=
          add_add_ofNat address 4 n
        rw [four]
        exact apart (4 + n) (by simp only [List.length_cons]; omega)

theorem loadWord_congr {memory memory' : Word → BitVec 8} {address : Word}
    (same : ∀ n, n < 4 → memory' (address + BitVec.ofNat 32 n) =
      memory (address + BitVec.ofNat 32 n)) :
    loadWord memory' address = loadWord memory address := by
  have zero : memory' address = memory address := by simpa using same 0 (by omega)
  have one : memory' (address + 1) = memory (address + 1) := same 1 (by omega)
  have two : memory' (address + 2) = memory (address + 2) := same 2 (by omega)
  have three : memory' (address + 3) = memory (address + 3) := same 3 (by omega)
  rw [loadWord, loadWord, zero, one, two, three]

theorem loadWord_storeWord (memory : Word → BitVec 8) (address value : Word) :
    loadWord (storeWord memory address value) address = value := by
  have h01 : address ≠ address + 1 := by bv_omega
  have h02 : address ≠ address + 2 := by bv_omega
  have h03 : address ≠ address + 3 := by bv_omega
  have h12 : address + 1 ≠ address + 2 := by bv_omega
  have h13 : address + 1 ≠ address + 3 := by bv_omega
  have h23 : address + 2 ≠ address + 3 := by bv_omega
  rw [loadWord, storeWord]
  simp only [Function.update_self, Function.update_of_ne h01, Function.update_of_ne h02,
    Function.update_of_ne h03, Function.update_of_ne h12, Function.update_of_ne h13,
    Function.update_of_ne h23]
  apply BitVec.eq_of_getLsbD_eq
  intro i i_lt
  simp only [BitVec.getLsbD_append, BitVec.getLsbD_extractLsb']
  split
  · next i_lt' => simp [i_lt']
  split
  · next i_lt' => simp [show i - 8 < 8 by omega, show 8 + (i - 8) = i by omega]
  split
  · next i_lt' => simp [show i - 8 - 8 < 8 by omega, show 16 + (i - 8 - 8) = i by omega]
  · simp [show i - 8 - 8 - 8 < 8 by omega, show 24 + (i - 8 - 8 - 8) = i by omega]

/-- Loading a word of a stored sequence that does not wrap around. -/
theorem loadWord_storeWords {memory : Word → BitVec 8} {address : Word} {values : List Word}
    {k : ℕ} {value : Word} (fits : 4 * values.length ≤ 2 ^ 32) (at_k : values[k]? = some value) :
    loadWord (storeWords memory address values) (address + BitVec.ofNat 32 (4 * k)) = value := by
  induction values generalizing memory address k with
  | nil => simp at at_k
  | cons first values ih =>
      simp only [List.length_cons] at fits
      have four (n : ℕ) : address + 4 + BitVec.ofNat 32 n = address + BitVec.ofNat 32 (4 + n) :=
        add_add_ofNat address 4 n
      rw [storeWords]
      cases k with
      | zero =>
          simp only [List.getElem?_cons_zero, Option.some.injEq] at at_k
          subst at_k
          have kept : ∀ n, n < 4 → storeWords (storeWord memory address first) (address + 4) values
              (address + BitVec.ofNat 32 n) =
              storeWord memory address first (address + BitVec.ofNat 32 n) := by
            intro n n_lt
            refine storeWords_of_apart fun m m_lt ↦ ?_
            rw [four]
            exact add_ofNat_ne (by omega) (by omega) (by omega)
          rw [Nat.mul_zero, BitVec.add_zero, loadWord_congr kept, loadWord_storeWord]
      | succ k =>
          rw [List.getElem?_cons_succ] at at_k
          have shifted : loadWord (storeWords (storeWord memory address first) (address + 4) values)
              (address + 4 + BitVec.ofNat 32 (4 * k)) = value := ih (by omega) at_k
          rwa [four, show 4 + 4 * k = 4 * (k + 1) by omega] at shifted

/-! ## Output vector lengths -/

/-- The lengths that a reply stores for some of the vectors. -/
def storeOutvecLens (memory : Word → BitVec 8) (k : Connection Pt Svc) (indexes : List (Fin 4)) :
    Word → BitVec 8 :=
  indexes.foldl (fun memory i ↦
    if k.msg.outSize i = 0 then memory
    else storeWord memory (k.callerOutvec + BitVec.ofNat 32 (8 * i + 4)) (k.outvecWritten i)) memory

theorem storeOutvecLens_apart {k : Connection Pt Svc} {a : Word} {indexes : List (Fin 4)}
    (apart : ∀ n, n < 32 → a ≠ k.callerOutvec + BitVec.ofNat 32 n) (memory : Word → BitVec 8) :
    storeOutvecLens memory k indexes a = memory a := by
  induction indexes generalizing memory with
  | nil => rfl
  | cons i indexes ih =>
      refine (ih _).trans ?_
      dsimp only
      split
      · rfl
      · refine storeWord_of_apart fun n n_lt ↦ ?_
        rw [add_add_ofNat]
        exact apart _ (by omega)

theorem vecLen_storeOutvecLens {k : Connection Pt Svc} {indexes : List (Fin 4)}
    (nodup : indexes.Nodup) (memory : Word → BitVec 8) (j : Fin 4) :
    vecLen (storeOutvecLens memory k indexes) k.callerOutvec j =
      if j ∈ indexes ∧ k.msg.outSize j ≠ 0 then k.outvecWritten j
      else vecLen memory k.callerOutvec j := by
  induction indexes generalizing memory with
  | nil => simp [storeOutvecLens]
  | cons i indexes ih =>
      obtain ⟨new, nodup⟩ := List.nodup_cons.1 nodup
      refine (ih nodup _).trans ?_
      dsimp only
      by_cases j_eq : j = i
      · subst j_eq
        by_cases empty : k.msg.outSize j = 0
        · simp [new, empty]
        · simp only [new, empty, false_and, if_false, List.mem_cons, true_or, ne_eq,
            not_false_eq_true, and_self, if_true]
          exact loadWord_storeWord ..
      · have kept : vecLen (if k.msg.outSize i = 0 then memory
            else storeWord memory (k.callerOutvec + BitVec.ofNat 32 (8 * i + 4))
              (k.outvecWritten i)) k.callerOutvec j = vecLen memory k.callerOutvec j := by
          split
          · rfl
          · refine loadWord_congr fun n n_lt ↦ storeWord_of_apart fun m m_lt ↦ ?_
            rw [add_add_ofNat, add_add_ofNat]
            exact add_ofNat_ne (by omega) (by omega) (by omega)
        simp only [List.mem_cons, j_eq, false_or]
        rw [kept]

/-- After a reply, the descriptors of the client hold the lengths that were written. -/
theorem vecLen_updateCallerOutvecLen (memory : Word → BitVec 8) (k : Connection Pt Svc)
    (i : Fin 4) :
    vecLen (updateCallerOutvecLen memory k) k.callerOutvec i =
      if k.msg.outSize i = 0 then vecLen memory k.callerOutvec i else k.outvecWritten i := by
  refine (vecLen_storeOutvecLens (List.nodup_finRange 4) memory i).trans ?_
  by_cases empty : k.msg.outSize i = 0 <;> simp [empty]

theorem updateCallerOutvecLen_apart {memory : Word → BitVec 8} {k : Connection Pt Svc} {a : Word}
    (apart : ∀ n, n < 32 → a ≠ k.callerOutvec + BitVec.ofNat 32 n) :
    updateCallerOutvecLen memory k a = memory a :=
  storeOutvecLens_apart apart memory

end TrustedFirmwareM.Spm
