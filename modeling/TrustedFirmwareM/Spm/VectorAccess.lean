import TrustedFirmwareM.Spm.AgentCalls
import TrustedFirmwareM.Spm.Memory

/-!
# VecAccess to the vectors of a request

A service reads, skips, writes, maps and unmaps the vectors of a request in any order.  Each vector
has a position and a few status bits, and behaves as a small machine of its own: bytes are used from
the front, and a vector is either used or mapped.  The reply reads the positions back.
-/

namespace TrustedFirmwareM.Spm

/-! ## One vector -/

/-- A vector as its service sees it. -/
structure Vec where
  /-- Length of the vector. -/
  length : Word
  /-- Number of bytes read, skipped or written, or the length given when the vector was unmapped. -/
  position : Word
  /-- The vector has been mapped. -/
  mapped : Bool
  /-- The vector has been unmapped. -/
  unmapped : Bool
  /-- The vector has been read, skipped or written. -/
  accessed : Bool

/-- An access to a vector. -/
inductive VecAccess
  /-- Read, skip or write a number of bytes. -/
  | use (bytes : Word)
  /-- Map the vector. -/
  | map
  /-- Unmap the vector, with the length of an output vector. -/
  | unmap (len : Option Word)
  deriving DecidableEq

/-- A vector that has not been accessed. -/
def Vec.fresh (length : Word) : Vec := ⟨length, 0, false, false, false⟩

/-- VecAccess a vector, if the access is accepted. -/
def Vec.access (v : Vec) : VecAccess → Option Vec
  | .use bytes =>
      if v.mapped ∨ v.length - v.position < bytes then none
      else some { v with position := v.position + bytes, accessed := true }
  | .map => if v.length = 0 ∨ v.mapped ∨ v.accessed then none else some { v with mapped := true }
  | .unmap len =>
      if ¬v.mapped ∨ v.unmapped ∨ v.length < len.getD 0 then none
      else some { v with unmapped := true, position := len.getD v.position }

/-- The number of bytes read, skipped or written. -/
def used : List VecAccess → ℕ
  | [] => 0
  | .use bytes :: rest => bytes.toNat + used rest
  | _ :: rest => used rest

/-- The length that was given when the vector was unmapped. -/
def unmapLen : List VecAccess → Option Word
  | [] => none
  | .unmap len :: _ => some (len.getD 0)
  | _ :: rest => unmapLen rest

/-- The length of an output vector that is reported to the client: the bytes written, or the length
given when the vector was unmapped, and 0 while it is mapped. -/
def reported (history : List VecAccess) : Word :=
  if .map ∈ history then (unmapLen history).getD 0 else BitVec.ofNat 32 (used history)

@[simp] theorem used_append (history rest : List VecAccess) :
    used (history ++ rest) = used history + used rest := by
  induction history with
  | nil => simp [used]
  | cons access history ih =>
      cases access with
      | use bytes => rw [List.cons_append, used, used, ih, Nat.add_assoc]
      | map => exact ih
      | unmap len => exact ih

theorem unmapLen_append (history rest : List VecAccess) :
    unmapLen (history ++ rest) = (unmapLen history).or (unmapLen rest) := by
  induction history with
  | nil => rfl
  | cons access history ih =>
      cases access with
      | use bytes => exact ih
      | map => exact ih
      | unmap len => rfl

/-- What the accesses to a vector tell of its state. -/
structure Vec.Follows (v : Vec) (length : Word) (history : List VecAccess) : Prop where
  /-- The length does not change. -/
  length_eq : v.length = length
  /-- The position stays within the vector. -/
  position_le : v.position ≤ v.length
  /-- A vector is mapped by an access. -/
  mapped : v.mapped = true ↔ .map ∈ history
  /-- A vector is unmapped by an access. -/
  unmapped : v.unmapped = (unmapLen history).isSome
  /-- A vector is accessed by reading, skipping and writing. -/
  accessed : v.accessed = true ↔ ∃ bytes, .use bytes ∈ history
  /-- A vector is used or mapped. -/
  apart : v.mapped = true → v.accessed = false
  /-- A vector that is not mapped is used from the front. -/
  position : v.mapped = false → v.position.toNat = used history
  /-- A vector that has not been used or unmapped is at its front. -/
  front : v.accessed = false → v.unmapped = false → v.position = 0
  /-- A vector that has been unmapped is as long as was said. -/
  unmap : ∀ len, unmapLen history = some len → v.mapped = true ∧ v.position = len

/-- The history goes on with every access. -/
theorem Vec.Follows.access {v v' : Vec} {length : Word} {history : List VecAccess}
    {access : VecAccess}
    (follows : v.Follows length history) (accepted : v.access access = some v') :
    v'.Follows length (history ++ [access]) := by
  have within := follows.position_le
  cases access with
  | use bytes =>
      rw [Vec.access] at accepted
      split at accepted
      · cases accepted
      next free =>
      rw [not_or, Bool.not_eq_true] at free
      cases accepted
      refine ⟨follows.length_eq, ?_, ?_, ?_, ?_, ?_, ?_, fun unused ↦ (nomatch unused), ?_⟩
      · have fits := free.2
        dsimp only
        bv_omega
      · simpa using follows.mapped
      · rw [unmapLen_append, follows.unmapped]
        simp [unmapLen]
      · simp
      · exact fun mapped ↦ absurd (free.1.symm.trans mapped) Bool.false_ne_true
      · intro unmapped
        have before := follows.position unmapped
        have fits := free.2
        rw [used_append, ← before, used, used]
        dsimp only
        bv_omega
      · intro len eq
        rw [unmapLen_append] at eq
        have none_before : unmapLen history = none := by
          cases found : unmapLen history with
          | none => rfl
          | some len =>
              exact absurd (free.1.symm.trans (follows.unmap len found).1) Bool.false_ne_true
        rw [none_before] at eq
        cases eq
  | map =>
      rw [Vec.access] at accepted
      split at accepted
      · cases accepted
      next free =>
      rw [not_or, not_or, Bool.not_eq_true, Bool.not_eq_true] at free
      cases accepted
      refine ⟨follows.length_eq, within, ?_, ?_, ?_, ?_, ?_, follows.front, ?_⟩
      · simp
      · rw [unmapLen_append, follows.unmapped]
        simp [unmapLen]
      · simpa using follows.accessed
      · exact fun _ ↦ free.2.2
      · exact fun mapped ↦ nomatch mapped
      · intro len eq
        rw [unmapLen_append] at eq
        cases found : unmapLen history with
        | none =>
            rw [found] at eq
            cases eq
        | some len' =>
            exact absurd (free.2.1.symm.trans (follows.unmap len' found).1) Bool.false_ne_true
  | unmap len =>
      rw [Vec.access] at accepted
      split at accepted
      · cases accepted
      next free =>
      rw [not_or, not_or, not_not, Bool.not_eq_true] at free
      obtain ⟨mapped, not_unmapped, fits⟩ := free
      cases accepted
      have none_before : unmapLen history = none := by
        rw [follows.unmapped] at not_unmapped
        exact Option.isNone_iff_eq_none.1 (by simpa using not_unmapped)
      have position_eq : len.getD v.position = len.getD 0 := by
        cases len with
        | none => exact follows.front (follows.apart mapped) not_unmapped
        | some len => rfl
      refine ⟨follows.length_eq, ?_, ?_, ?_, ?_, ?_, ?_, fun _ still ↦ (nomatch still), ?_⟩
      · dsimp only
        rw [position_eq]
        exact BitVec.not_lt.1 fits
      · simpa using follows.mapped
      · rw [unmapLen_append, none_before]
        rfl
      · simpa using follows.accessed
      · exact follows.apart
      · exact fun unmapped ↦ absurd (mapped.symm.trans unmapped) (by decide)
      · intro len' eq
        rw [unmapLen_append, none_before] at eq
        cases eq
        exact ⟨mapped, position_eq⟩

variable {Pt Svc : Type}

/-- Input vectors and output vectors. -/
inductive Direction
  /-- Input vectors. -/
  | input
  /-- Output vectors. -/
  | output
  deriving DecidableEq

/-- Position of a vector in the mapping status. -/
def Direction.idx : Direction → Fin 4 → ℕ
  | .input, i => invecIdx i
  | .output, i => outvecIdx i

/-- A vector of a connection. -/
def Connection.vec (k : Connection Pt Svc) : Direction → Fin 4 → Vec
  | .input, i => ⟨k.msg.inSize i, k.invecAccessed i, iovecIsMapped k (invecIdx i),
      iovecIsUnmapped k (invecIdx i), iovecIsAccessed k (invecIdx i)⟩
  | .output, i => ⟨k.msg.outSize i, k.outvecWritten i, iovecIsMapped k (outvecIdx i),
      iovecIsUnmapped k (outvecIdx i), iovecIsAccessed k (outvecIdx i)⟩

/-- Set a status bit of a vector and its position. -/
def Connection.mark (k : Connection Pt Svc) : Direction → Fin 4 → ℕ → Word → Connection Pt Svc
  | .input, i, bit, position =>
      { setIovec k (invecIdx i) bit with
        invecAccessed := Function.update k.invecAccessed i position }
  | .output, i, bit, position =>
      { setIovec k (outvecIdx i) bit with
        outvecWritten := Function.update k.outvecWritten i position }

theorem Direction.idx_lt (d : Direction) (i : Fin 4) : d.idx i < 8 := by
  cases d with
  | input =>
      rw [Direction.idx, invecIdx]
      omega
  | output =>
      rw [Direction.idx, outvecIdx]
      omega

theorem Direction.idx_injective {d d' : Direction} {i i' : Fin 4} (same : d.idx i = d'.idx i') :
    d = d' ∧ i = i' := by
  cases d with
  | input =>
      cases d' with
      | input => exact ⟨rfl, Fin.ext same⟩
      | output =>
          rw [Direction.idx, Direction.idx, invecIdx, outvecIdx] at same
          omega
  | output =>
      cases d' with
      | input =>
          rw [Direction.idx, Direction.idx, invecIdx, outvecIdx] at same
          omega
      | output =>
          rw [Direction.idx, Direction.idx, outvecIdx, outvecIdx] at same
          exact ⟨rfl, Fin.ext (by omega)⟩

theorem getLsbD_setIovec (k : Connection Pt Svc) {idx bit position : ℕ} (idx_lt : idx < 8)
    (bit_lt : bit < 4) :
    (setIovec k idx bit).iovecStatus.getLsbD position =
      (k.iovecStatus.getLsbD position || decide (position = 4 * idx + bit)) := by
  rw [setIovec, BitVec.getLsbD_or, BitVec.getLsbD_shiftLeft]
  by_cases same : position = 4 * idx + bit
  · have lt : position < 32 := by omega
    simp [same, show 4 * idx + bit < 32 by omega]
  · simp only [same, decide_false, Bool.or_false, Bool.or_eq_left_iff_imp, Bool.and_eq_true,
      decide_eq_true_eq, Bool.not_eq_true', decide_eq_false_iff_not, not_lt, and_imp]
    intro _ le bit_set
    have first : position - (4 * idx + bit) = 0 := by
      by_contra ne
      simp [show (1 : Word) = BitVec.ofNat 32 1 from rfl, BitVec.getLsbD_ofNat] at bit_set
      exact ne (Nat.testBit_one_eq_true_iff_self_eq_zero.1 bit_set.2)
    omega

/-- The marked vector. -/
theorem vec_mark_self (k : Connection Pt Svc) (d : Direction) (i : Fin 4) {bit : ℕ}
    (bit_lt : bit < 3)
    (position : Word) :
    (k.mark d i bit position).vec d i =
      ⟨(k.vec d i).length, position, (k.vec d i).mapped || decide (bit = 0),
        (k.vec d i).unmapped || decide (bit = 1), (k.vec d i).accessed || decide (bit = 2)⟩ := by
  have marked (n : ℕ) (n_lt : n < 3) :
      (setIovec k (d.idx i) bit).iovecStatus.getLsbD (4 * d.idx i + n) =
        (k.iovecStatus.getLsbD (4 * d.idx i + n) || decide (bit = n)) := by
    rw [getLsbD_setIovec k (d.idx_lt i) (by omega)]
    congr 2
    exact propext ⟨fun eq ↦ by omega, fun eq ↦ by omega⟩
  cases d with
  | input =>
      have mapped := marked 0 (by decide)
      have unmapped := marked 1 (by decide)
      have accessed := marked 2 (by decide)
      simp only [Direction.idx, Nat.add_zero] at mapped unmapped accessed
      simp only [Connection.mark, Connection.vec, iovecIsMapped, iovecIsUnmapped, iovecIsAccessed,
        Function.update_self, mapped, unmapped, accessed]
      rfl
  | output =>
      have mapped := marked 0 (by decide)
      have unmapped := marked 1 (by decide)
      have accessed := marked 2 (by decide)
      simp only [Direction.idx, Nat.add_zero] at mapped unmapped accessed
      simp only [Connection.mark, Connection.vec, iovecIsMapped, iovecIsUnmapped, iovecIsAccessed,
        Function.update_self, mapped, unmapped, accessed]
      rfl

/-- The other vectors. -/
theorem vec_mark_other (k : Connection Pt Svc) {d d' : Direction} {i i' : Fin 4} {bit : ℕ}
    (bit_lt : bit < 3) (position : Word) (other : (d', i') ≠ (d, i)) :
    (k.mark d i bit position).vec d' i' = k.vec d' i' := by
  have kept (n : ℕ) (n_lt : n < 3) :
      (setIovec k (d.idx i) bit).iovecStatus.getLsbD (4 * d'.idx i' + n) =
        k.iovecStatus.getLsbD (4 * d'.idx i' + n) := by
    rw [getLsbD_setIovec k (d.idx_lt i) (by omega), Bool.or_eq_left_iff_imp, decide_eq_true_eq]
    intro same
    obtain ⟨rfl, rfl⟩ := Direction.idx_injective (show d'.idx i' = d.idx i by omega)
    exact absurd rfl other
  have mapped := kept 0 (by decide)
  have unmapped := kept 1 (by decide)
  have accessed := kept 2 (by decide)
  have index (same : d' = d) : i' ≠ i := fun same' ↦ other (by rw [same, same'])
  cases d with
  | input =>
      cases d' with
      | input =>
          simp only [Direction.idx, Nat.add_zero] at mapped unmapped accessed
          simp only [Connection.mark, Connection.vec, iovecIsMapped, iovecIsUnmapped,
            iovecIsAccessed, Function.update_of_ne (index rfl), mapped, unmapped, accessed]
          rfl
      | output =>
          simp only [Direction.idx, Nat.add_zero] at mapped unmapped accessed
          simp only [Connection.mark, Connection.vec, iovecIsMapped, iovecIsUnmapped,
            iovecIsAccessed, mapped, unmapped, accessed]
          rfl
  | output =>
      cases d' with
      | input =>
          simp only [Direction.idx, Nat.add_zero] at mapped unmapped accessed
          simp only [Connection.mark, Connection.vec, iovecIsMapped, iovecIsUnmapped,
            iovecIsAccessed, mapped, unmapped, accessed]
          rfl
      | output =>
          simp only [Direction.idx, Nat.add_zero] at mapped unmapped accessed
          simp only [Connection.mark, Connection.vec, iovecIsMapped, iovecIsUnmapped,
            iovecIsAccessed, Function.update_of_ne (index rfl), mapped, unmapped, accessed]
          rfl

/-- Marking changes the vectors only. -/
structure SameBuffers (k k' : Connection Pt Svc) : Prop where
  /-- Base addresses of the input vectors. -/
  invecBase : k'.invecBase = k.invecBase
  /-- Base addresses of the output vectors. -/
  outvecBase : k'.outvecBase = k.outvecBase
  /-- Lengths of the input vectors. -/
  inSize : k'.msg.inSize = k.msg.inSize
  /-- Lengths of the output vectors. -/
  outSize : k'.msg.outSize = k.msg.outSize
  /-- Address of the client's descriptors. -/
  callerOutvec : k'.callerOutvec = k.callerOutvec

theorem SameBuffers.refl (k : Connection Pt Svc) : SameBuffers k k := ⟨rfl, rfl, rfl, rfl, rfl⟩

theorem SameBuffers.trans {k k' k'' : Connection Pt Svc} (first : SameBuffers k k')
    (second : SameBuffers k' k'') : SameBuffers k k'' :=
  ⟨second.invecBase.trans first.invecBase, second.outvecBase.trans first.outvecBase,
    second.inSize.trans first.inSize, second.outSize.trans first.outSize,
    second.callerOutvec.trans first.callerOutvec⟩

theorem sameBuffers_mark (k : Connection Pt Svc) (d : Direction) (i : Fin 4) (bit : ℕ)
    (position : Word) : SameBuffers k (k.mark d i bit position) := by
  cases d with
  | input => exact ⟨rfl, rfl, rfl, rfl, rfl⟩
  | output => exact ⟨rfl, rfl, rfl, rfl, rfl⟩

/-! ## Vector functions -/

/-- A vector function works on one vector of a connection. -/
structure Accesses (s : State Pt Svc) (c : ℕ) (d : Direction) (i : Fin 4) (access : VecAccess)
    (s' : State Pt Svc) : Prop where
  /-- The vector accepts the access. -/
  accepted : ((s.connections c).vec d i).access access = some ((s'.connections c).vec d i)
  /-- The other vectors of the connection. -/
  others : ∀ d' i', (d', i') ≠ (d, i) → (s'.connections c).vec d' i' = (s.connections c).vec d' i'
  /-- The other connections. -/
  connections : ∀ c', c' ≠ c → s'.connections c' = s.connections c'
  /-- The buffers stay where they are. -/
  buffers : SameBuffers (s.connections c) (s'.connections c)

theorem Accesses.of_mark {s s' : State Pt Svc} {c : ℕ} {d : Direction} {i : Fin 4}
    {access : VecAccess}
    (bit : ℕ) (position : Word) (bit_lt : bit < 3)
    (connections : s'.connections = Function.update s.connections c
      ((s.connections c).mark d i bit position))
    (accepted : ((s.connections c).vec d i).access access =
      some ⟨((s.connections c).vec d i).length, position,
        ((s.connections c).vec d i).mapped || decide (bit = 0),
        ((s.connections c).vec d i).unmapped || decide (bit = 1),
        ((s.connections c).vec d i).accessed || decide (bit = 2)⟩) :
    Accesses s c d i access s' := by
  have self : s'.connections c = (s.connections c).mark d i bit position := by
    rw [connections, Function.update_self]
  refine ⟨?_, fun d' i' other ↦ ?_, fun c' ne ↦ ?_, ?_⟩
  · rw [self, vec_mark_self _ _ _ bit_lt, accepted]
  · rw [self, vec_mark_other _ bit_lt _ other]
  · rw [connections, Function.update_of_ne ne]
  · rw [self]
    exact sameBuffers_mark ..

theorem requestVector_index {P : Platform Pt Svc} {s : State Pt Svc} {caller : Pt}
    {handle idx : Word} {c : ℕ} {i : Fin 4}
    (request : requestVector P s caller handle idx = some (c, i)) :
    spmMsgHandleToConnection P s caller handle = some c ∧ vecIndex idx = some i := by
  simp only [requestVector, Option.bind_eq_bind, Option.bind_eq_some_iff] at request
  obtain ⟨c', connection, i', index, rest⟩ := request
  split at rest
  · cases rest
  · cases rest
    exact ⟨connection, index⟩

theorem mappableVector_index {P : Platform Pt Svc} {s : State Pt Svc} {caller : Pt}
    {handle idx : Word} {c : ℕ} {i : Fin 4} {info : ServiceLoadInfo Pt}
    (request : mappableVector P s caller handle idx = some (c, i, info)) :
    spmMsgHandleToConnection P s caller handle = some c ∧ vecIndex idx = some i := by
  simp only [mappableVector, Option.bind_eq_bind, Option.bind_eq_some_iff, Prod.exists] at request
  obtain ⟨c', i', vector, σ, -, rest⟩ := request
  split at rest
  · cases rest
    exact requestVector_index vector
  · cases rest

/-- The call works on a vector of the message of a handle. -/
def OnVector (P : Platform Pt Svc) (s : State Pt Svc) (caller : Pt) (handle idx : Word) (c : ℕ)
    (i : Fin 4) : Prop :=
  spmMsgHandleToConnection P s caller handle = some c ∧ vecIndex idx = some i

theorem memcpy_zero (memory : Word → BitVec 8) (destination source : Word) :
    spmMemcpy memory destination source 0 = memory := by
  funext address
  exact if_neg (BitVec.not_lt_zero)

theorem toNat_ite_lt (numBytes remaining : Word) :
    (if numBytes < remaining then numBytes else remaining).toNat =
      min numBytes.toNat remaining.toNat := by
  split
  · next lt =>
      rw [BitVec.lt_def] at lt
      omega
  · next ge =>
      rw [BitVec.lt_def] at ge
      omega

theorem toNat_ite_gt (numBytes remaining : Word) :
    (if remaining < numBytes then remaining else numBytes).toNat =
      min numBytes.toNat remaining.toNat := by
  split
  · next lt =>
      rw [BitVec.lt_def] at lt
      omega
  · next ge =>
      rw [BitVec.lt_def] at ge
      omega

/-- `psa_read` uses as many bytes as it is asked for, up to the end of the vector. -/
theorem psaRead_accesses {P : Platform Pt Svc} {s : State Pt Svc} {caller : Pt}
    {handle idx buffer numBytes : Word} {outcome : Outcome Pt Svc}
    (run : tfmSpmPartitionPsaRead P s caller handle idx buffer numBytes = some outcome) :
    ∃ c i bytes, OnVector P s caller handle idx c i ∧ outcome.result = bytes.toInt ∧
      bytes.toNat = min numBytes.toNat
        ((s.connections c).msg.inSize i - (s.connections c).invecAccessed i).toNat ∧
      outcome.state.memory = spmMemcpy s.memory buffer
        ((s.connections c).invecBase i + (s.connections c).invecAccessed i) bytes ∧
      Accesses s c .input i (.use bytes) outcome.state := by
  simp only [tfmSpmPartitionPsaRead, Option.bind_eq_bind, Option.bind_eq_some_iff,
    Prod.exists] at run
  obtain ⟨c, i, request, run⟩ := run
  split at run
  · cases run
  next free =>
  rw [Bool.not_eq_true] at free
  have fresh : ((s.connections c).vec .input i).mapped = false := free
  split at run
  · next empty =>
      replace empty : (s.connections c).msg.inSize i - (s.connections c).invecAccessed i = 0 :=
        empty
      cases run
      refine ⟨c, i, 0, requestVector_index request, rfl, ?_, (memcpy_zero ..).symm, ?_⟩
      · rw [empty]
        simp
      · refine .of_mark 2 ((s.connections c).invecAccessed i) (by decide) ?_ ?_
        · simp [Connection.mark, setIovec]
        · rw [Vec.access, if_neg (by simp [fresh])]
          simp [Connection.vec]
  next some_left =>
  split at run
  · cases run
  · cases run
    refine ⟨c, i, _, requestVector_index request, rfl, ?_, rfl, ?_⟩
    · exact toNat_ite_lt ..
    · refine .of_mark 2 _ (by decide) rfl ?_
      have fits := read_bytes_le numBytes
        ((s.connections c).msg.inSize i - (s.connections c).invecAccessed i)
      rw [Vec.access, if_neg]
      · simp [Connection.vec, setIovec]
      · rw [not_or, fresh]
        exact ⟨Bool.false_ne_true, BitVec.not_lt.2 fits⟩

/-- `psa_skip` uses as many bytes as it is asked for, up to the end of the vector. -/
theorem psaSkip_accesses {P : Platform Pt Svc} {s : State Pt Svc} {caller : Pt}
    {handle idx numBytes : Word} {outcome : Outcome Pt Svc}
    (run : tfmSpmPartitionPsaSkip P s caller handle idx numBytes = some outcome) :
    ∃ c i bytes, OnVector P s caller handle idx c i ∧ outcome.result = bytes.toInt ∧
      bytes.toNat = min numBytes.toNat
        ((s.connections c).msg.inSize i - (s.connections c).invecAccessed i).toNat ∧
      outcome.state.memory = s.memory ∧ Accesses s c .input i (.use bytes) outcome.state := by
  simp only [tfmSpmPartitionPsaSkip, Option.bind_eq_bind, Option.bind_eq_some_iff,
    Prod.exists] at run
  obtain ⟨c, i, request, run⟩ := run
  split at run
  · cases run
  next free =>
  rw [Bool.not_eq_true] at free
  have fresh : ((s.connections c).vec .input i).mapped = false := free
  split at run
  · next empty =>
      replace empty : (s.connections c).msg.inSize i - (s.connections c).invecAccessed i = 0 :=
        empty
      cases run
      refine ⟨c, i, 0, requestVector_index request, rfl, ?_, rfl, ?_⟩
      · rw [empty]
        simp
      · refine .of_mark 2 ((s.connections c).invecAccessed i) (by decide) ?_ ?_
        · simp [Connection.mark, setIovec]
        · rw [Vec.access, if_neg (by simp [fresh])]
          simp [Connection.vec]
  · cases run
    refine ⟨c, i, _, requestVector_index request, rfl, toNat_ite_gt .., rfl, ?_⟩
    refine .of_mark 2 _ (by decide) rfl ?_
    have fits := skip_bytes_le numBytes
      ((s.connections c).msg.inSize i - (s.connections c).invecAccessed i)
    rw [Vec.access, if_neg]
    · simp [Connection.vec, setIovec]
    · rw [not_or, fresh]
      exact ⟨Bool.false_ne_true, BitVec.not_lt.2 fits⟩

/-- `psa_write` uses as many bytes as it is asked for. -/
theorem psaWrite_accesses {P : Platform Pt Svc} {s : State Pt Svc} {caller : Pt}
    {handle idx buffer numBytes : Word} {outcome : Outcome Pt Svc}
    (run : tfmSpmPartitionPsaWrite P s caller handle idx buffer numBytes = some outcome) :
    ∃ c i, OnVector P s caller handle idx c i ∧
      outcome.state.memory = spmMemcpy s.memory
        ((s.connections c).outvecBase i + (s.connections c).outvecWritten i) buffer numBytes ∧
      Accesses s c .output i (.use numBytes) outcome.state := by
  simp only [tfmSpmPartitionPsaWrite, Option.bind_eq_bind, Option.bind_eq_some_iff,
    Prod.exists] at run
  obtain ⟨c, i, request, run⟩ := run
  split at run
  · cases run
  next fits =>
  split at run
  · cases run
  next free =>
  split at run
  · cases run
  · cases run
    refine ⟨c, i, requestVector_index request, rfl, .of_mark 2 _ (by decide) rfl ?_⟩
    rw [Vec.access, if_neg]
    · simp [Connection.vec, setIovec]
    · exact not_or.2 ⟨free, fits⟩

theorem psaMapInvec_accesses {P : Platform Pt Svc} {s : State Pt Svc} {caller : Pt}
    {handle idx : Word} {outcome : Outcome Pt Svc}
    (run : tfmSpmPartitionPsaMapInvec P s caller handle idx = some outcome) :
    ∃ c i, OnVector P s caller handle idx c i ∧ Accesses s c .input i .map outcome.state := by
  simp only [tfmSpmPartitionPsaMapInvec, Option.bind_eq_bind, Option.bind_eq_some_iff,
    Prod.exists] at run
  obtain ⟨c, i, info, request, run⟩ := run
  split at run
  · cases run
  next some_bytes =>
  split at run
  · cases run
  next not_mapped =>
  split at run
  · cases run
  next not_accessed =>
  split at run
  · cases run
  · cases run
    refine ⟨c, i, mappableVector_index request,
      .of_mark 0 ((s.connections c).invecAccessed i) (by decide) ?_ ?_⟩
    · simp [Connection.mark, setIovec]
    · rw [Vec.access, if_neg]
      · simp [Connection.vec]
      · exact not_or.2 ⟨some_bytes, not_or.2 ⟨not_mapped, not_accessed⟩⟩

theorem psaMapOutvec_accesses {P : Platform Pt Svc} {s : State Pt Svc} {caller : Pt}
    {handle idx : Word} {outcome : Outcome Pt Svc}
    (run : tfmSpmPartitionPsaMapOutvec P s caller handle idx = some outcome) :
    ∃ c i, OnVector P s caller handle idx c i ∧ Accesses s c .output i .map outcome.state := by
  simp only [tfmSpmPartitionPsaMapOutvec, Option.bind_eq_bind, Option.bind_eq_some_iff,
    Prod.exists] at run
  obtain ⟨c, i, info, request, run⟩ := run
  split at run
  · cases run
  next some_bytes =>
  split at run
  · cases run
  next not_mapped =>
  split at run
  · cases run
  next not_accessed =>
  split at run
  · cases run
  · cases run
    refine ⟨c, i, mappableVector_index request,
      .of_mark 0 ((s.connections c).outvecWritten i) (by decide) ?_ ?_⟩
    · simp [Connection.mark, setIovec]
    · rw [Vec.access, if_neg]
      · simp [Connection.vec]
      · exact not_or.2 ⟨some_bytes, not_or.2 ⟨not_mapped, not_accessed⟩⟩

theorem psaUnmapInvec_accesses {P : Platform Pt Svc} {s : State Pt Svc} {caller : Pt}
    {handle idx : Word} {outcome : Outcome Pt Svc}
    (run : tfmSpmPartitionPsaUnmapInvec P s caller handle idx = some outcome) :
    ∃ c i, OnVector P s caller handle idx c i ∧
      Accesses s c .input i (.unmap none) outcome.state := by
  simp only [tfmSpmPartitionPsaUnmapInvec, Option.bind_eq_bind, Option.bind_eq_some_iff,
    Prod.exists] at run
  obtain ⟨c, i, info, request, run⟩ := run
  split at run
  · cases run
  next mapped =>
  split at run
  · cases run
  next not_unmapped =>
  cases run
  refine ⟨c, i, mappableVector_index request,
    .of_mark 1 ((s.connections c).invecAccessed i) (by decide) ?_ ?_⟩
  · simp [Connection.mark, setIovec]
  · rw [Vec.access, if_neg]
    · simp [Connection.vec]
    · exact not_or.2
        ⟨mapped, not_or.2 ⟨not_unmapped, BitVec.not_lt.2 (BitVec.le_def.2 (Nat.zero_le _))⟩⟩

theorem psaUnmapOutvec_accesses {P : Platform Pt Svc} {s : State Pt Svc} {caller : Pt}
    {handle idx len : Word} {outcome : Outcome Pt Svc}
    (run : tfmSpmPartitionPsaUnmapOutvec P s caller handle idx len = some outcome) :
    ∃ c i, OnVector P s caller handle idx c i ∧
      Accesses s c .output i (.unmap (some len)) outcome.state := by
  simp only [tfmSpmPartitionPsaUnmapOutvec, Option.bind_eq_bind, Option.bind_eq_some_iff,
    Prod.exists] at run
  obtain ⟨c, i, info, request, run⟩ := run
  split at run
  · cases run
  next fits =>
  split at run
  · cases run
  next mapped =>
  split at run
  · cases run
  next not_unmapped =>
  cases run
  refine ⟨c, i, mappableVector_index request, .of_mark 1 _ (by decide) rfl ?_⟩
  rw [Vec.access, if_neg]
  · simp [Connection.vec]
  · exact not_or.2 ⟨mapped, not_or.2 ⟨not_unmapped, fits⟩⟩

/-! ## Runs -/

/-- The accesses to each vector of a connection, the earliest first. -/
abbrev History := Direction × Fin 4 → List VecAccess

/-- The access that a call makes when it returns a value: handle, vector and access. -/
def Api.access (call : Api) (result : ℤ) : Option (Word × Direction × Word × VecAccess) :=
  match call with
  | .read handle idx _ _ => some (handle, .input, idx, .use (BitVec.ofInt 32 result))
  | .skip handle idx _ => some (handle, .input, idx, .use (BitVec.ofInt 32 result))
  | .write handle idx _ numBytes => some (handle, .output, idx, .use numBytes)
  | .mapInvec handle idx => some (handle, .input, idx, .map)
  | .unmapInvec handle idx => some (handle, .input, idx, .unmap none)
  | .mapOutvec handle idx => some (handle, .output, idx, .map)
  | .unmapOutvec handle idx len => some (handle, .output, idx, .unmap (some len))
  | _ => none

/-- Enter an access to a vector of a connection. -/
def History.observe (h : History) (P : Platform Pt Svc) (s : State Pt Svc) (c : ℕ) (caller : Pt) :
    Option (Word × Direction × Word × VecAccess) → History
  | none => h
  | some (handle, d, idx, access) =>
      match vecIndex idx with
      | none => h
      | some i =>
          if spmMsgHandleToConnection P s caller handle = some c then
            Function.update h (d, i) (h (d, i) ++ [access])
          else h

variable [DecidableEq Pt]

/-- Serve the calls of partitions and watch the vectors of a connection.  Other actions change the
memory, or signals. -/
def serveStep (P : Platform Pt Svc) (c : ℕ) (x : State Pt Svc × History) (a : Action Pt) :
    Option (State Pt Svc × History) :=
  match a with
  | .api caller call =>
      (call.run P x.1 caller).map fun outcome ↦
        (outcome.state, x.2.observe P x.1 c caller (call.access outcome.result))
  | a => (step P x.1 a).map fun (_, s) ↦ (s, x.2)

/-- The calls are calls of vector functions. -/
def OnVectors (_ : State Pt Svc × History) : Action Pt → Prop
  | .api _ call => (call.access 0).isSome = true
  | _ => True

/-- A vector function that is called makes its access. -/
theorem api_accesses {P : Platform Pt Svc} {s : State Pt Svc} {caller : Pt} {call : Api}
    {outcome : Outcome Pt Svc} (vector : (call.access 0).isSome = true)
    (run : call.run P s caller = some outcome) :
    ∃ handle d idx access c i, call.access outcome.result = some (handle, d, idx, access) ∧
      OnVector P s caller handle idx c i ∧ Accesses s c d i access outcome.state := by
  cases call with
  | read handle idx buffer numBytes =>
      obtain ⟨c, i, bytes, on, result, -, -, accesses⟩ := psaRead_accesses run
      refine ⟨handle, .input, idx, _, c, i, rfl, on, ?_⟩
      rw [result, BitVec.ofInt_toInt]
      exact accesses
  | skip handle idx numBytes =>
      obtain ⟨c, i, bytes, on, result, -, -, accesses⟩ := psaSkip_accesses run
      refine ⟨handle, .input, idx, _, c, i, rfl, on, ?_⟩
      rw [result, BitVec.ofInt_toInt]
      exact accesses
  | write handle idx buffer numBytes =>
      obtain ⟨c, i, on, -, accesses⟩ := psaWrite_accesses run
      exact ⟨handle, .output, idx, _, c, i, rfl, on, accesses⟩
  | mapInvec handle idx =>
      obtain ⟨c, i, on, accesses⟩ := psaMapInvec_accesses run
      exact ⟨handle, .input, idx, _, c, i, rfl, on, accesses⟩
  | unmapInvec handle idx =>
      obtain ⟨c, i, on, accesses⟩ := psaUnmapInvec_accesses run
      exact ⟨handle, .input, idx, _, c, i, rfl, on, accesses⟩
  | mapOutvec handle idx =>
      obtain ⟨c, i, on, accesses⟩ := psaMapOutvec_accesses run
      exact ⟨handle, .output, idx, _, c, i, rfl, on, accesses⟩
  | unmapOutvec handle idx len =>
      obtain ⟨c, i, on, accesses⟩ := psaUnmapOutvec_accesses run
      exact ⟨handle, .output, idx, _, c, i, rfl, on, accesses⟩
  | _ => cases vector

/-- The vectors of a connection have been accessed as its history says, since it was `k`. -/
structure VectorHistory (k : Connection Pt Svc) (c : ℕ) (x : State Pt Svc × History) : Prop where
  /-- The buffers stay where they are. -/
  buffers : SameBuffers k (x.1.connections c)
  /-- Each vector follows its accesses. -/
  follows : ∀ d i, ((x.1.connections c).vec d i).Follows (k.vec d i).length (x.2 (d, i))

omit [DecidableEq Pt] in
/-- An access to a vector of some connection keeps the history. -/
theorem VectorHistory.access {k : Connection Pt Svc} {P : Platform Pt Svc} {c c' : ℕ}
    {x : State Pt Svc × History} {s' : State Pt Svc} {caller : Pt} {handle idx : Word}
    {d : Direction} {i : Fin 4} {access : VecAccess} (inv : VectorHistory k c x)
    (on : OnVector P x.1 caller handle idx c' i) (accesses : Accesses x.1 c' d i access s') :
    VectorHistory k c (s', x.2.observe P x.1 c caller (some (handle, d, idx, access))) := by
  rw [History.observe, on.2]
  dsimp only
  by_cases same : c' = c
  · subst same
    rw [if_pos on.1]
    refine ⟨inv.buffers.trans accesses.buffers, fun d' i' ↦ ?_⟩
    dsimp only
    by_cases here : (d', i') = (d, i)
    · obtain ⟨rfl, rfl⟩ := Prod.mk.inj here
      rw [Function.update_self]
      exact (inv.follows d' i').access accesses.accepted
    · rw [Function.update_of_ne here]
      rw [accesses.others d' i' here]
      exact inv.follows d' i'
  · rw [if_neg fun eq ↦ same (Option.some.inj (on.1.symm.trans eq))]
    have kept := accesses.connections c (Ne.symm same)
    refine ⟨?_, fun d' i' ↦ ?_⟩
    · dsimp only
      rw [kept]
      exact inv.buffers
    · dsimp only
      rw [kept]
      exact inv.follows d' i'

/-- Other actions leave the connections alone. -/
theorem step_connections {P : Platform Pt Svc} {s s' : State Pt Svc} {a : Action Pt}
    {effect : Effect}
    (not_call : ∀ caller call, a ≠ .api caller call) (step_eq : step P s a = some (effect, s')) :
    s'.connections = s.connections := by
  cases a with
  | api caller call => exact absurd rfl (not_call caller call)
  | schedule p =>
      obtain ⟨⟨value, after⟩, query, eq⟩ := Option.map_eq_some_iff.1 step_eq
      cases eq
      rw [queryState] at query
      split at query
      · cases query
      split at query
      · cases query
        rfl
      · cases query
        rfl
  | irq p signal =>
      rw [step] at step_eq
      split at step_eq
      · cases step_eq
        rfl
      · cases step_eq
  | store address value =>
      cases step_eq
      rfl

/-- Every step keeps the history. -/
theorem VectorHistory.step {k : Connection Pt Svc} {P : Platform Pt Svc} {c : ℕ}
    {x y : State Pt Svc × History} {a : Action Pt} (inv : VectorHistory k c x) (on : OnVectors x a)
    (step_eq : serveStep P c x a = some y) : VectorHistory k c y := by
  have other {a : Action Pt} (not_call : ∀ caller call, a ≠ .api caller call)
      (step_eq : (Spm.step P x.1 a).map (fun (_, s) ↦ (s, x.2)) = some y) :
        VectorHistory k c y := by
    obtain ⟨⟨effect, after⟩, stepped, eq⟩ := Option.map_eq_some_iff.1 step_eq
    have kept := step_connections not_call stepped
    subst eq
    refine ⟨?_, fun d i ↦ ?_⟩
    · dsimp only
      rw [kept]
      exact inv.buffers
    · dsimp only
      rw [kept]
      exact inv.follows d i
  cases a with
  | api caller call =>
      obtain ⟨outcome, run, eq⟩ := Option.map_eq_some_iff.1 step_eq
      obtain ⟨handle, d, idx, access, c', i, access_eq, on_vector, accesses⟩ := api_accesses on run
      subst eq
      rw [access_eq]
      exact inv.access on_vector accesses
  | schedule p => exact other (a := .schedule p) (fun _ _ eq ↦ nomatch eq) step_eq
  | irq p signal => exact other (a := .irq p signal) (fun _ _ eq ↦ nomatch eq) step_eq
  | store address value => exact other (a := .store address value) (fun _ _ eq ↦ nomatch eq) step_eq

/-! ## Guarantees -/

omit [DecidableEq Pt] in
/-- The position of a vector that is being used. -/
theorem Vec.Follows.position_eq {v : Vec} {length : Word} {history : List VecAccess}
    (follows : v.Follows length history) (free : v.mapped = false) :
    v.position = BitVec.ofNat 32 (used history) := by
  rw [← follows.position free, BitVec.ofNat_toNat, BitVec.setWidth_eq]

omit [DecidableEq Pt] in
/-- The bytes that are left of a vector. -/
theorem Vec.Follows.left {v : Vec} {length : Word} {history : List VecAccess}
    (follows : v.Follows length history) (free : v.mapped = false) :
    (v.length - v.position).toNat = length.toNat - used history := by
  have within := follows.position_le
  rw [← follows.position free, ← follows.length_eq]
  bv_omega

end TrustedFirmwareM.Spm
