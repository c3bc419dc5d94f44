import TrustedFirmwareM.NvCounters.Template
import Mathlib.Algebra.Order.BigOperators.Group.List
import Mathlib.Tactic.IntervalCases

/-!
# Runs of the counters of the template platform

No counter goes back, and a change of a counter leaves the other counters and elements alone, as
long as no counter of the largest size is set to its largest value: the last byte of the buffer is
passed then.
-/

namespace TrustedFirmwareM.NvCounters.Template

/-! ## Strings of bits -/

theorem ones_le_of_or {old new : BitVec 8} (keeps : old ||| new = new) : ones old ≤ ones new := by
  apply List.sum_le_sum
  intro i _
  have bit : (old ||| new).getLsbD i = new.getLsbD i := congrArg (BitVec.getLsbD · i) keeps
  rw [BitVec.getLsbD_or] at bit
  cases set : old.getLsbD i with
  | false => exact Nat.zero_le _
  | true => rw [← bit, set, Bool.true_or]

/-- Where no bit is written from 1 to 0 the value does not go back. -/
theorem count_le_of_keepsBits {buffer input : List (BitVec 8)}
    (length : buffer.length = input.length) (keeps : keepsBits buffer input = true) :
    count buffer ≤ count input := by
  induction buffer generalizing input with
  | nil => exact Nat.zero_le _
  | cons old buffer ih =>
      cases input with
      | nil => simp at length
      | cons new input =>
          simp only [keepsBits, List.zip_cons_cons, List.all_cons, Bool.and_eq_true,
            decide_eq_true_eq] at keeps
          simp only [List.length_cons, Nat.succ.injEq] at length
          simp only [count, List.map_cons, List.sum_cons]
          exact Nat.add_le_add (ones_le_of_or keeps.1) (ih length keeps.2)

@[simp] theorem count_append (bytes bytes' : List (BitVec 8)) :
    count (bytes ++ bytes') = count bytes + count bytes' := by
  simp [count]

@[simp] theorem count_cons (byte : BitVec 8) (bytes : List (BitVec 8)) :
    count (byte :: bytes) = ones byte + count bytes := by
  simp [count]

@[simp] theorem count_replicate (n : ℕ) (byte : BitVec 8) :
    count (List.replicate n byte) = n * ones byte := by
  simp [count]

theorem ones_ff : ones 0xFF = 8 := by decide

theorem ones_zero : ones 0 = 0 := by decide

/-- The byte behind the filled ones has the rest of the ones. -/
theorem ones_rest {rest : ℕ} (lt : rest < 8) : ones (BitVec.ofNat 8 (1 <<< rest - 1)) = rest := by
  interval_cases rest <;> decide

theorem fillBytes_eq {n : ℕ} (le : n ≤ otpCounterMaxSize) :
    fillBytes n = List.replicate n 0xFF ++ List.replicate (otpCounterMaxSize - n) 0 := by
  induction n with
  | zero => rfl
  | succ n ih =>
      have rest : otpCounterMaxSize - n = otpCounterMaxSize - (n + 1) + 1 := by
        omega
      rw [fillBytes, ih (by omega), rest, List.replicate_succ, List.set_append_right _ _ (by simp),
        List.length_replicate, Nat.sub_self, List.set_cons_zero, List.replicate_succ',
        List.append_assoc, List.singleton_append]

/-- A value that fits is the number of ones. -/
theorem count_counterValue {value n : ℕ} (fits : value ≤ 8 * n) (n_le : n ≤ otpCounterMaxSize) :
    count ((counterValue value).take n) = value := by
  have parts := Nat.div_add_mod value 8
  have rest_lt : value % 8 < 8 := Nat.mod_lt value (by simp)
  rw [counterValue, fillBytes_eq (by omega)]
  rcases Nat.lt_or_ge (value / 8) n with inside | at_end
  · obtain ⟨k, n_eq⟩ := Nat.exists_eq_add_of_lt inside
    have room : otpCounterMaxSize - value / 8 = otpCounterMaxSize - value / 8 - 1 + 1 := by
      omega
    have taken : n = (List.replicate (value / 8) (0xFF : BitVec 8)).length + (k + 1) := by
      rw [List.length_replicate]
      omega
    rw [room, List.replicate_succ, List.set_append_right _ _ (by simp), List.length_replicate,
      Nat.sub_self, List.set_cons_zero, taken, List.take_length_add_append, List.take_succ_cons,
      List.take_replicate, count_append, count_cons, count_replicate, count_replicate, ones_ff,
      ones_zero, ones_rest rest_lt]
    omega
  · have n_eq : n = value / 8 := by
      omega
    rw [List.take_set_of_le (by omega), List.take_left' (by rw [List.length_replicate]; omega),
      count_replicate, ones_ff]
    omega

theorem length_counterValue (value : ℕ) : (counterValue value).length = otpCounterMaxSize := by
  have fill (n : ℕ) : (fillBytes n).length = otpCounterMaxSize := by
    induction n with
    | zero => exact List.length_replicate
    | succ n ih => rw [fillBytes, List.length_set, ih]
  rw [counterValue, List.length_set, fill]

theorem wordOf_bytesOf (word : Word) : wordOf (bytesOf word) = word := by
  apply BitVec.eq_of_getLsbD_eq
  intro i i_lt
  simp only [wordOf, bytesOf, List.getD_cons_zero, List.getD_cons_succ, BitVec.getLsbD_append,
    BitVec.getLsbD_setWidth, BitVec.getLsbD_ushiftRight]
  grind

/-! ## Members -/

variable {L : Layout} {flash flash' : Contents}

/-- Where a counter or an element is in the region. -/
def Place.region (L : Layout) : Place → Option Member
  | .flash i => L.flashNvCounters.map fun m ↦ ⟨m.offset + i * 4, 4⟩
  | .otp id => L.member id

theorem NvCounter.place_inj {c c' : NvCounter} {p : Place} (at_place : c.place = some p)
    (at_place' : c'.place = some p) : c = c' := by
  have same : c.place = c'.place := at_place.trans at_place'.symm
  clear at_place at_place'
  cases c <;> cases c' <;> simp_all [NvCounter.place]

theorem Place.region_le {p : Place} {m : Member} (region : p.region L = some m) :
    m.offset + m.size ≤ L.swapCountOffset := by
  cases p with
  | flash i =>
      obtain ⟨words, words_eq, rfl⟩ := Option.map_eq_some_iff.1 region
      have le := L.flash_le words words_eq
      rw [L.flash_size words words_eq] at le
      simp only
      omega
  | otp id => exact L.member_le id m region

theorem Place.region_apart {p p' : Place} (ne : p ≠ p') {m m' : Member}
    (region : p.region L = some m) (region' : p'.region L = some m') : m.Apart m' := by
  cases p with
  | flash i =>
      obtain ⟨words, words_eq, rfl⟩ := Option.map_eq_some_iff.1 region
      have size := L.flash_size words words_eq
      cases p' with
      | flash j =>
          obtain ⟨words', words_eq', rfl⟩ := Option.map_eq_some_iff.1 region'
          have same : words = words' := Option.some.inj (words_eq.symm.trans words_eq')
          have ne' : i.val ≠ j.val := fun eq ↦ ne (congrArg Place.flash (Fin.ext eq))
          subst same
          simp only [Member.Apart]
          omega
      | otp id =>
          have apart := L.flash_apart id m' region' words words_eq
          simp only [Member.Apart] at apart ⊢
          omega
  | otp id =>
      cases p' with
      | flash j =>
          obtain ⟨words, words_eq, rfl⟩ := Option.map_eq_some_iff.1 region'
          have size := L.flash_size words words_eq
          have apart := L.flash_apart id m region words words_eq
          simp only [Member.Apart] at apart ⊢
          omega
      | otp id' =>
          have ne' : id ≠ id' := fun eq ↦ ne (congrArg Place.otp eq)
          exact L.apart_elements id id' ne' m region m' region'

/-- The bytes of an element. -/
def element (L : Layout) (flash : Contents) (id : OtpElementId) : Option (List (BitVec 8)) :=
  (L.member id).map fun m ↦ (view L.toArea flash).read m.offset m.size

/-- The bytes of a place are the same. -/
def SameAt (L : Layout) (flash flash' : Contents) (p : Place) : Prop :=
  ∀ m, p.region L = some m → ∀ k < m.size,
    view L.toArea flash' (m.offset + k) = view L.toArea flash (m.offset + k)

theorem SameAt.element {id : OtpElementId} (same : SameAt L flash flash' (.otp id)) :
    element L flash' id = element L flash id := by
  simp only [Template.element]
  cases member_eq : L.member id with
  | none => rfl
  | some m =>
      rw [Option.map_some, Option.map_some, Cells.read_congr (same m member_eq)]

theorem counterSize_le (size : ℕ) :
    counterSize size ≤ size ∧ counterSize size ≤ otpCounterMaxSize := by
  rw [counterSize]
  split_ifs <;> omega

theorem tfmPlatOtpRead_eq {id : OtpElementId} {m : Member} (member_eq : L.member id = some m)
    {n : ℕ} (n_le : n ≤ m.size) :
    tfmPlatOtpRead L flash id n =
      if L.ramEmulation = false ∧ m.offset % L.dataWidth ≠ 0 then .error .invalidInput
      else .ok ((view L.toArea flash).read m.offset n) := by
  have size_eq : (if n < m.size then n else m.size) = n := by
    split_ifs <;> omega
  simp only [tfmPlatOtpRead, member_eq, size_eq]
  exact readOtpNvCountersFlash_eq L.toArea flash m.offset n

/-- The value of a counter depends on its bytes only. -/
theorem SameAt.tfmPlatReadNvCounter {c : NvCounter} {p : Place} (place_eq : c.place = some p)
    (same : SameAt L flash flash' p) (size : ℕ) :
    tfmPlatReadNvCounter L flash' c size = tfmPlatReadNvCounter L flash c size := by
  simp only [Template.tfmPlatReadNvCounter, place_eq]
  cases p with
  | flash i =>
      simp only [readNvCounterFlash]
      cases words_eq : L.flashNvCounters with
      | none => rfl
      | some m =>
          have region : (Place.flash i).region L = some ⟨m.offset + i * 4, 4⟩ := by
            rw [Place.region, words_eq, Option.map_some]
          simp only [readOtpNvCountersFlash_eq, Cells.read_congr (same _ region)]
  | otp id =>
      simp only [readNvCounterOtp, tfmPlatOtpGetSize]
      cases member_eq : L.member id with
      | none => rfl
      | some m =>
          have size_le := (counterSize_le m.size).1
          have kept : (view L.toArea flash').read m.offset (counterSize m.size) =
              (view L.toArea flash).read m.offset (counterSize m.size) :=
            Cells.read_congr fun k k_lt ↦ same m member_eq k (by omega)
          simp only [Option.map_some, tfmPlatOtpRead_eq member_eq size_le, kept]

/-! ## What a request does -/

/-- A value has been written to a place. -/
structure Written (L : Layout) (flash flash' : Contents) (p : Place) (data : List (BitVec 8)) :
    Prop where
  /-- The backup is in step. -/
  mirrors : Mirrors L.toArea flash'
  /-- The place has the data. -/
  stored : ∀ m, p.region L = some m → (view L.toArea flash').read m.offset data.length = data
  /-- Other places are as they were. -/
  kept : ∀ p', p ≠ p' → SameAt L flash flash' p'

/-- A write to a place succeeds. -/
theorem write_written (mirrors : Mirrors L.toArea flash) {p : Place} {m : Member}
    (region : p.region L = some m) (data : List (BitVec 8)) (length : data.length ≤ m.size) :
    ∃ flash', write L flash m.offset data = (.success, flash') ∧ Written L flash flash' p data := by
  have le := Place.region_le region
  obtain ⟨flash', run, mirrors', written⟩ :=
    writeOtpNvCountersFlash_run mirrors m.offset data (by omega)
  use flash'
  constructor
  · rw [write, run]
  · constructor
    · exact mirrors'
    · intro m' region'
      have same : m = m' := Option.some.inj (region.symm.trans region')
      subst same
      have same : (view L.toArea flash').read m.offset data.length =
          ((view L.toArea flash).write m.offset data).read m.offset data.length :=
        Cells.read_congr fun k k_lt ↦ written _ (by omega)
      rw [same, Cells.read_write_self]
    · intro p' ne m' region' k k_lt
      have apart := Place.region_apart ne region region'
      have le' := Place.region_le region'
      rw [Member.Apart] at apart
      rw [written _ (by omega), Cells.write_outside (by omega)]

/-- What is left of an attempt to set a counter. -/
structure Attempt (L : Layout) (flash : Contents) (c : NvCounter) (value : Word) (r : Changed) :
    Prop where
  /-- A rejected request changes nothing. -/
  rejected : r.err ≠ .success → r.flash = flash
  /-- The counter has the value. -/
  stored : r.err = .success → tfmPlatReadNvCounter L r.flash c 4 = .ok value
  /-- It has not gone back. -/
  le : r.err = .success → ∀ w, tfmPlatReadNvCounter L flash c 4 = .ok w → w ≤ value
  /-- The backup is in step. -/
  mirrors : Mirrors L.toArea r.flash
  /-- Other places are as they were. -/
  kept : ∀ p, c.place ≠ some p → SameAt L flash r.flash p

theorem Attempt.of_error (mirrors : Mirrors L.toArea flash) {c : NvCounter} {value : Word}
    {e : PlatErr} (ne : e ≠ .success) (indices : List ℕ) :
    Attempt L flash c value ⟨e, flash, indices⟩ where
  rejected _ := rfl
  stored success := absurd success ne
  le success := absurd success ne
  mirrors := mirrors
  kept _ _ _ _ _ _ := rfl

theorem setNvCounterFlash_attempt (mirrors : Mirrors L.toArea flash) {c : NvCounter} {i : Fin 3}
    (place_eq : c.place = some (.flash i)) (value : Word) :
    Attempt L flash c value (setNvCounterFlash L flash i value) := by
  rw [setNvCounterFlash]
  cases words_eq : L.flashNvCounters with
  | none => exact .of_error mirrors (by simp) []
  | some m =>
      have region : (Place.flash i).region L = some ⟨m.offset + i * 4, 4⟩ := by
        rw [Place.region, words_eq, Option.map_some]
      have read_eq (flash : Contents) : tfmPlatReadNvCounter L flash c 4 =
          if L.ramEmulation = false ∧ (m.offset + i * 4) % L.dataWidth ≠ 0 then
            .error .invalidInput
          else .ok (wordOf ((view L.toArea flash).read (m.offset + i * 4) 4)) := by
        simp only [tfmPlatReadNvCounter, place_eq, readNvCounterFlash, words_eq,
          readOtpNvCountersFlash_eq]
        rw [if_neg (not_not.2 rfl)]
        split_ifs
        · rfl
        · rfl
      simp only [readOtpNvCountersFlash_eq]
      split_ifs at read_eq ⊢ with misaligned
      · exact .of_error mirrors (by simp) []
      · dsimp only
        split_ifs with last lt
        · exact .of_error mirrors (by simp) []
        · exact .of_error mirrors (by simp) []
        · obtain ⟨flash', run, written⟩ :=
            write_written mirrors region (bytesOf value) (by simp [bytesOf])
          have stored : (view L.toArea flash').read (m.offset + i * 4) 4 = bytesOf value :=
            written.stored _ region
          rw [run]
          constructor
          · simp
          · intro _
            rw [read_eq, stored, wordOf_bytesOf]
          · intro _ w w_eq
            rw [read_eq, Except.ok.injEq] at w_eq
            subst w_eq
            exact BitVec.not_lt.1 lt
          · exact written.mirrors
          · intro p ne
            exact written.kept p fun eq ↦ ne (place_eq.trans (congrArg some eq))

/-- An element is written, or nothing changes. -/
theorem tfmPlatOtpWrite_cases (mirrors : Mirrors L.toArea flash) {id : OtpElementId} {m : Member}
    (member_eq : L.member id = some m) (input : List (BitVec 8)) (length : input.length ≤ m.size) :
    (∃ e, e ≠ .success ∧ tfmPlatOtpWrite L flash id input = (e, flash)) ∨
      ∃ flash', tfmPlatOtpWrite L flash id input = (.success, flash') ∧
        Written L flash flash' (.otp id) input ∧
        ¬(L.ramEmulation = false ∧ m.offset % L.dataWidth ≠ 0) ∧
        keepsBits ((view L.toArea flash).read m.offset input.length) input = true := by
  simp only [tfmPlatOtpWrite, member_eq, readOtpNvCountersFlash_eq]
  split_ifs with long large misaligned
  · exact Or.inl ⟨.invalidInput, by simp, rfl⟩
  · exact Or.inl ⟨.invalidInput, by simp, rfl⟩
  · exact Or.inl ⟨.invalidInput, by simp, rfl⟩
  · simp only
    split_ifs with keeps
    · obtain ⟨flash', run, written⟩ := write_written (p := .otp id) mirrors member_eq input length
      exact Or.inr ⟨flash', run, written, misaligned, keeps⟩
    · exact Or.inl ⟨.invalidInput, by simp, rfl⟩

theorem setNvCounterOtp_attempt (mirrors : Mirrors L.toArea flash) {c : NvCounter}
    {id : OtpElementId} (place_eq : c.place = some (.otp id)) (value : Word) :
    Attempt L flash c value (setNvCounterOtp L flash id value) := by
  simp only [setNvCounterOtp, tfmPlatOtpGetSize]
  cases member_eq : L.member id with
  | none => exact .of_error mirrors (by simp) []
  | some m =>
      obtain ⟨size_le, size_le'⟩ := counterSize_le m.size
      simp only [Option.map_some]
      split_ifs with too_large
      · exact .of_error mirrors (by simp) []
      · generalize input_eq : (counterValue value.toNat).take (counterSize m.size) = input
        have length : input.length = counterSize m.size := by
          rw [← input_eq, List.length_take, length_counterValue]
          omega
        have count_eq : count input = value.toNat := by
          rw [← input_eq]
          exact count_counterValue (Nat.not_lt.1 too_large) size_le'
        rcases tfmPlatOtpWrite_cases mirrors member_eq input (by omega) with
          ⟨e, ne, run⟩ | ⟨flash', run, written, aligned, keeps⟩
        · rw [run]
          exact .of_error mirrors ne _
        · have read_eq (flash : Contents) : tfmPlatReadNvCounter L flash c 4 = .ok (BitVec.ofNat 32
              (count ((view L.toArea flash).read m.offset (counterSize m.size)))) := by
            simp only [tfmPlatReadNvCounter, place_eq, readNvCounterOtp, tfmPlatOtpGetSize,
              member_eq, Option.map_some, tfmPlatOtpRead_eq member_eq size_le, if_neg aligned]
            rfl
          have stored : (view L.toArea flash').read m.offset (counterSize m.size) = input := by
            rw [← length]
            exact written.stored m member_eq
          rw [run]
          constructor
          · simp
          · intro _
            rw [read_eq, stored, count_eq, BitVec.ofNat_toNat, BitVec.setWidth_eq]
          · intro _ w w_eq
            rw [read_eq, Except.ok.injEq] at w_eq
            subst w_eq
            rw [length] at keeps
            have le := count_le_of_keepsBits (by rw [Cells.length_read, length]) keeps
            rw [BitVec.le_def, ← count_eq]
            exact (Nat.mod_le _ _).trans le
          · exact written.mirrors
          · intro p ne
            exact written.kept p fun eq ↦ ne (place_eq.trans (congrArg some eq))

theorem setNvCounter_attempt (mirrors : Mirrors L.toArea flash) (c : NvCounter) (value : Word) :
    Attempt L flash c value (setNvCounter L flash c value) := by
  rw [setNvCounter]
  cases place_eq : c.place with
  | none => exact .of_error mirrors (by simp) []
  | some p =>
      cases p with
      | flash i => exact setNvCounterFlash_attempt mirrors place_eq value
      | otp id => exact setNvCounterOtp_attempt mirrors place_eq value

/-- The check after a write finds nothing. -/
theorem tfmPlatSetNvCounter_eq (mirrors : Mirrors L.toArea flash) (c : NvCounter) (value : Word) :
    tfmPlatSetNvCounter L flash c value = setNvCounter L flash c value := by
  have attempt := setNvCounter_attempt mirrors c value
  simp only [tfmPlatSetNvCounter]
  split_ifs with failed
  · rfl
  · rw [attempt.stored (not_not.1 failed)]
    simp

theorem tfmPlatSetNvCounter_attempt (mirrors : Mirrors L.toArea flash) (c : NvCounter)
    (value : Word) : Attempt L flash c value (tfmPlatSetNvCounter L flash c value) := by
  rw [tfmPlatSetNvCounter_eq mirrors]
  exact setNvCounter_attempt mirrors c value

/-! ## Requests -/

/-- Requests for counters. -/
inductive Request
  /-- `tfm_plat_read_nv_counter`. -/
  | read (counterId : NvCounter) (size : ℕ)
  /-- `tfm_plat_set_nv_counter`. -/
  | set (counterId : NvCounter) (value : Word)
  /-- `tfm_plat_increment_nv_counter`. -/
  | increment (counterId : NvCounter)

/-- The counter that a request is about. -/
def Request.counterId : Request → NvCounter
  | .read c _ => c
  | .set c _ => c
  | .increment c => c

/-- Serve a request. -/
def serve (L : Layout) (flash : Contents) : Request → Changed
  | .read c size =>
      match tfmPlatReadNvCounter L flash c size with
      | .error e => ⟨e, flash, []⟩
      | .ok _ => ⟨.success, flash, []⟩
  | .set c value => tfmPlatSetNvCounter L flash c value
  | .increment c => tfmPlatIncrementNvCounter L flash c

/-- The device, with a backup in step. -/
structure Store (L : Layout) where
  /-- Contents of the device. -/
  flash : Contents
  /-- The backup is in step. -/
  mirrors : Mirrors L.toArea flash

/-- What is left by a request. -/
structure Left (L : Layout) (flash : Contents) (q : Request) (r : Changed) : Prop where
  /-- The backup is in step. -/
  mirrors : Mirrors L.toArea r.flash
  /-- The counter has not gone back. -/
  le : ∀ w, tfmPlatReadNvCounter L flash q.counterId 4 = .ok w →
    ∃ w', tfmPlatReadNvCounter L r.flash q.counterId 4 = .ok w' ∧ w ≤ w'
  /-- Other places are as they were. -/
  kept : ∀ p, q.counterId.place ≠ some p → SameAt L flash r.flash p

theorem Left.of_same (mirrors : Mirrors L.toArea flash) (q : Request) (e : PlatErr) :
    Left L flash q ⟨e, flash, []⟩ where
  mirrors := mirrors
  le w w_eq := ⟨w, w_eq, BitVec.le_refl w⟩
  kept _ _ _ _ _ _ := rfl

theorem Attempt.left {c : NvCounter} {value : Word} {r : Changed}
    (attempt : Attempt L flash c value r) {q : Request} (about : q.counterId = c) :
    Left L flash q r := by
  subst about
  constructor
  · exact attempt.mirrors
  · intro w w_eq
    by_cases success : r.err = .success
    · exact ⟨value, attempt.stored success, attempt.le success w w_eq⟩
    · rw [attempt.rejected success]
      exact ⟨w, w_eq, BitVec.le_refl w⟩
  · exact attempt.kept

theorem serve_left (mirrors : Mirrors L.toArea flash) (q : Request) :
    Left L flash q (serve L flash q) := by
  cases q with
  | read c size =>
      rw [serve]
      cases tfmPlatReadNvCounter L flash c size with
      | error e => exact .of_same mirrors _ e
      | ok value => exact .of_same mirrors _ .success
  | set c value => exact (tfmPlatSetNvCounter_attempt mirrors c value).left rfl
  | increment c =>
      rw [serve, tfmPlatIncrementNvCounter]
      cases tfmPlatReadNvCounter L flash c 4 with
      | error e => exact .of_same mirrors _ e
      | ok value =>
          simp only
          split_ifs
          · exact .of_same mirrors _ .maxValue
          · exact (tfmPlatSetNvCounter_attempt mirrors c (value + 1)).left rfl

/-- The step of a run. -/
def Store.step (s : Store L) (q : Request) : Store L :=
  ⟨(serve L s.flash q).flash, (serve_left s.mirrors q).mirrors⟩

/-- The device after requests. -/
def Store.after (s : Store L) (requests : List Request) : Store L := requests.foldl Store.step s

/-- The value of a counter, as it is read. -/
def Store.value (s : Store L) (c : NvCounter) : Except PlatErr Word :=
  tfmPlatReadNvCounter L s.flash c 4

/-- What a request has to respect. -/
structure StepSafe (s : Store L) (q : Request) : Prop where
  /-- Every index written is inside the buffer. -/
  inside : ∀ i ∈ (serve L s.flash q).indices, i < otpCounterMaxSize
  /-- A value that has been set is read. -/
  roundTrip : ∀ c value, q = .set c value → (serve L s.flash q).err = .success →
    (s.step q).value c = .ok value
  /-- A value below the current one is rejected. -/
  below : ∀ c value w, q = .set c value → s.value c = .ok w → value < w →
    (serve L s.flash q).err ≠ .success ∧ (s.step q).flash = s.flash

/-- What a run has to respect. -/
structure RunSafe (s : Store L) (requests : List Request) : Prop where
  /-- Each request does. -/
  steps : ∀ before q after, requests = before ++ q :: after → StepSafe (s.after before) q
  /-- No counter goes back. -/
  monotone : ∀ before during after, requests = before ++ during ++ after →
    ∀ c w, (s.after before).value c = .ok w →
      ∃ w', (s.after (before ++ during)).value c = .ok w' ∧ w ≤ w'
  /-- Other counters are left alone. -/
  others : ∀ before during after, requests = before ++ during ++ after →
    ∀ c, (∀ q ∈ during, q.counterId ≠ c) →
      (s.after (before ++ during)).value c = (s.after before).value c
  /-- Other elements are left alone. -/
  elements : ∀ before during after, requests = before ++ during ++ after →
    ∀ id, (∀ q ∈ during, q.counterId.place ≠ some (.otp id)) →
      element L (s.after (before ++ during)).flash id = element L (s.after before).flash id

/-- A counter of the largest size is not set to its largest value. -/
def Fits (L : Layout) (c : NvCounter) (value : Word) : Prop :=
  ∀ id m, c.place = some (.otp id) → L.member id = some m → otpCounterMaxSize ≤ m.size →
    value.toNat ≠ 8 * otpCounterMaxSize

/-- No counter of the largest size gets to its largest value. -/
def InBounds (s : Store L) : Request → Prop
  | .read _ _ => True
  | .set c value => Fits L c value
  | .increment c => ∀ w, s.value c = .ok w → Fits L c (w + 1)

/-! ## Runs -/

variable {s : Store L}

theorem Store.after_append (s : Store L) (before during : List Request) :
    s.after (before ++ during) = (s.after before).after during :=
  List.foldl_append

theorem Store.step_value {q : Request} {c : NvCounter} (other : q.counterId ≠ c) :
    (s.step q).value c = s.value c := by
  have left := serve_left s.mirrors q
  simp only [Store.value]
  cases place_eq : c.place with
  | none => simp only [tfmPlatReadNvCounter, place_eq]
  | some p =>
      have ne : q.counterId.place ≠ some p := fun eq ↦ other (NvCounter.place_inj eq place_eq)
      exact (left.kept p ne).tfmPlatReadNvCounter place_eq 4

theorem Store.step_element {q : Request} {id : OtpElementId}
    (other : q.counterId.place ≠ some (.otp id)) :
    element L (s.step q).flash id = element L s.flash id :=
  ((serve_left s.mirrors q).kept _ other).element

theorem Store.value_le_step (q : Request) {c : NvCounter} {w : Word} (w_eq : s.value c = .ok w) :
    ∃ w', (s.step q).value c = .ok w' ∧ w ≤ w' := by
  by_cases about : q.counterId = c
  · subst about
    exact (serve_left s.mirrors q).le w w_eq
  · rw [Store.step_value about]
    exact ⟨w, w_eq, BitVec.le_refl w⟩

/-- No counter goes back in a run. -/
theorem Store.value_le_after (requests : List Request) {c : NvCounter} {w : Word}
    (w_eq : s.value c = .ok w) : ∃ w', (s.after requests).value c = .ok w' ∧ w ≤ w' := by
  induction requests generalizing s w with
  | nil => exact ⟨w, w_eq, BitVec.le_refl w⟩
  | cons q requests ih =>
      obtain ⟨next, next_eq, le⟩ := Store.value_le_step q w_eq
      obtain ⟨w', w'_eq, le'⟩ := ih next_eq
      exact ⟨w', w'_eq, BitVec.le_trans le le'⟩

theorem Store.after_value {requests : List Request} {c : NvCounter}
    (others : ∀ q ∈ requests, q.counterId ≠ c) : (s.after requests).value c = s.value c := by
  induction requests generalizing s with
  | nil => rfl
  | cons q requests ih =>
      have step : (s.step q).value c = s.value c := Store.step_value (others q List.mem_cons_self)
      rw [← step]
      exact ih fun q' q'_mem ↦ others q' (List.mem_cons_of_mem q q'_mem)

theorem Store.after_element {requests : List Request} {id : OtpElementId}
    (others : ∀ q ∈ requests, q.counterId.place ≠ some (.otp id)) :
    element L (s.after requests).flash id = element L s.flash id := by
  induction requests generalizing s with
  | nil => rfl
  | cons q requests ih =>
      have step : element L (s.step q).flash id = element L s.flash id :=
        Store.step_element (others q List.mem_cons_self)
      rw [← step]
      exact ih fun q' q'_mem ↦ others q' (List.mem_cons_of_mem q q'_mem)

theorem mem_writtenIndices_lt_iff (value : ℕ) :
    (∀ i ∈ writtenIndices value, i < otpCounterMaxSize) ↔ value / 8 < otpCounterMaxSize := by
  constructor
  · intro inside
    exact inside _ (by simp [writtenIndices])
  · intro lt i i_mem
    have le : i ≤ value / 8 := by
      rw [writtenIndices, List.mem_append, List.mem_range, List.mem_singleton] at i_mem
      omega
    omega

theorem setNvCounterFlash_indices (i : Fin 3) (value : Word) :
    (setNvCounterFlash L flash i value).indices = [] := by
  rw [setNvCounterFlash]
  cases L.flashNvCounters with
  | none => rfl
  | some m =>
      simp only
      cases readOtpNvCountersFlash L.toArea flash (m.offset + i * 4) 4 with
      | error e => rfl
      | ok bytes =>
          simp only
          split_ifs <;> rfl

/-- Where `set_nv_counter_otp` writes. -/
theorem set_inside_iff (mirrors : Mirrors L.toArea flash) (c : NvCounter) (value : Word) :
    (∀ i ∈ (tfmPlatSetNvCounter L flash c value).indices, i < otpCounterMaxSize) ↔
      Fits L c value := by
  have nothing {e : PlatErr} : ∀ i ∈ (⟨e, flash, []⟩ : Changed).indices, i < otpCounterMaxSize := by
    simp
  rw [tfmPlatSetNvCounter_eq mirrors, setNvCounter]
  cases place_eq : c.place with
  | none => exact iff_of_true nothing fun id m eq ↦ by simp [place_eq] at eq
  | some p =>
      cases p with
      | flash i =>
          apply iff_of_true
          · simp only [setNvCounterFlash_indices, List.not_mem_nil, false_imp_iff, implies_true]
          · intro id m eq
            simp [place_eq] at eq
      | otp id =>
          simp only [setNvCounterOtp, tfmPlatOtpGetSize]
          cases member_eq : L.member id with
          | none =>
              apply iff_of_true nothing
              intro id' m eq member_eq'
              rw [place_eq, Option.some.injEq, Place.otp.injEq] at eq
              subst eq
              simp [member_eq] at member_eq'
          | some m =>
              have fits_iff : Fits L c value ↔
                  (otpCounterMaxSize ≤ m.size → value.toNat ≠ 8 * otpCounterMaxSize) := by
                constructor
                · intro fits
                  exact fits id m place_eq member_eq
                · intro fits id' m' eq member_eq'
                  rw [place_eq, Option.some.injEq, Place.otp.injEq] at eq
                  subst eq
                  rw [member_eq, Option.some.injEq] at member_eq'
                  subst member_eq'
                  exact fits
              have size_eq : counterSize m.size =
                  if otpCounterMaxSize < m.size then otpCounterMaxSize else m.size := rfl
              rw [fits_iff]
              simp only [Option.map_some]
              split_ifs with too_large
              · apply iff_of_true nothing
                split_ifs at size_eq <;> omega
              · rw [mem_writtenIndices_lt_iff]
                split_ifs at size_eq <;> omega

/-- What a request respects, and when. -/
theorem stepSafe_iff (s : Store L) (q : Request) : StepSafe s q ↔ InBounds s q := by
  constructor
  · intro safe
    cases q with
    | read c size => exact trivial
    | set c value => exact (set_inside_iff s.mirrors c value).1 safe.inside
    | increment c =>
        intro w w_eq
        have inside := safe.inside
        simp only [serve, tfmPlatIncrementNvCounter, Store.value] at inside w_eq
        rw [w_eq] at inside
        simp only at inside
        split_ifs at inside with last
        · intro id m _ _ _
          simp [last, otpCounterMaxSize]
        · exact (set_inside_iff s.mirrors c (w + 1)).1 inside
  · intro inBounds
    constructor
    · cases q with
      | read c size =>
          simp only [serve]
          cases tfmPlatReadNvCounter L s.flash c size <;> simp
      | set c value => exact (set_inside_iff s.mirrors c value).2 inBounds
      | increment c =>
          simp only [serve, tfmPlatIncrementNvCounter]
          cases w_eq : tfmPlatReadNvCounter L s.flash c 4 with
          | error e => simp
          | ok w =>
              simp only
              split_ifs with last
              · simp
              · exact (set_inside_iff s.mirrors c (w + 1)).2 (inBounds w w_eq)
    · rintro c value rfl success
      exact (tfmPlatSetNvCounter_attempt s.mirrors c value).stored success
    · rintro c value w rfl w_eq lt
      have attempt := tfmPlatSetNvCounter_attempt s.mirrors c value
      have failed : (tfmPlatSetNvCounter L s.flash c value).err ≠ .success := by
        intro success
        exact absurd lt (BitVec.not_lt.2 (attempt.le success w w_eq))
      exact ⟨failed, attempt.rejected failed⟩

/-- Runs are safe as long as no counter of the largest size gets to its largest value. -/
theorem runSafe_iff (s : Store L) (requests : List Request) :
    RunSafe s requests ↔
      ∀ before q after, requests = before ++ q :: after → InBounds (s.after before) q := by
  constructor
  · intro safe before q after split
    exact (stepSafe_iff _ q).1 (safe.steps before q after split)
  · intro inBounds
    constructor
    · intro before q after split
      exact (stepSafe_iff _ q).2 (inBounds before q after split)
    · intro before during after _ c w w_eq
      rw [Store.after_append]
      exact Store.value_le_after during w_eq
    · intro before during after _ c others
      rw [Store.after_append]
      exact Store.after_value others
    · intro before during after _ id others
      rw [Store.after_append]
      exact Store.after_element others

/-! ## A counter of the largest size -/

/-- A build in which a counter of the boot loader has the largest size. -/
def sampleLayout : Layout where
  ramEmulation := true
  areaAddr := 0
  backupAddr := 4096
  areaSize := 4096
  sectorSize := 4096
  blockSize := 128
  programUnit := 4
  dataWidth := 4
  erased := 0
  swapCountOffset := 132
  sectorSize_pos := by simp
  block_dvd := by simp
  unit_dvd := by simp
  width_dvd := by simp
  width_dvd_word := by simp
  area_dvd := by simp
  backup_dvd := by simp
  size_dvd := by simp
  apart := by simp
  swapCount_le := by simp
  member id := if id = .nvCounterBl2 0 then some ⟨4, 128⟩ else none
  flashNvCounters := none
  flash_size := by simp
  apart_elements := by
    intro id id' ne m m_mem m' m'_mem
    split_ifs at m_mem m'_mem with eq eq'
    · exact absurd (eq.trans eq'.symm) ne
    all_goals simp at m_mem m'_mem
  flash_apart := by simp
  member_le := by
    intro id m m_mem
    split_ifs at m_mem
    · simp only [Option.mem_def, Option.some.injEq] at m_mem
      simp [← m_mem]
    · simp at m_mem
  flash_le := by simp
  otpElementSizeMax := 128

/-- A store with nothing in it. -/
def sampleStore : Store sampleLayout where
  flash := fun _ ↦ 0
  mirrors := by simp [Mirrors, view]

/-- The last index written is behind the buffer. -/
theorem largestValue_outside : ¬RunSafe sampleStore [.set (.bl2 0) 1024] := by
  intro safe
  have fits := (stepSafe_iff _ _).1 (safe.steps [] (.set (.bl2 0) 1024) [] rfl)
  exact fits (.nvCounterBl2 0) ⟨4, 128⟩ rfl rfl (by simp [otpCounterMaxSize]) (by
    simp [otpCounterMaxSize])

end TrustedFirmwareM.NvCounters.Template
