import TrustedFirmwareM.Bl2.FlashMap

/-!
# Writes to flash areas

A write is programmed in up to three parts: the program unit in the middle of which it begins, the
program units that it covers, and the program unit in the middle of which it ends.
-/

namespace TrustedFirmwareM.Bl2.FlashMap

variable {P : Platform}

/-- The loops of `flash_area_write`: `padding` is filled from a source, at most up to a program unit
and to the limit of the source. -/
def fill (source : ℕ → BitVec 8) (limit : ℕ) :
    ℕ → List (BitVec 8) → ℕ → List (BitVec 8) × ℕ
  | 0, padding, k => (padding, k)
  | room + 1, padding, k =>
      if k < limit then fill source limit room (padding ++ [source k]) (k + 1) else (padding, k)

/-- The bytes of a list, as those of a buffer. -/
def bytesOf (bytes : List (BitVec 8)) : ℕ → BitVec 8 := fun i ↦ bytes.getD i 0

/-- `flash_area_write`: the program unit in the middle of which the write begins.  The sizes of the
paddings are `add_padding_size` and `len_padding_size`, and the result is `src_written_idx`. -/
def programFirst (area : FlashArea P) (alignedOff : Word) (src : ℕ → BitVec 8) (len : Word)
    (addPadding lenPadding : List (BitVec 8)) : FlashM ℕ :=
  let unit := P.programUnit
  if addPadding.length ≠ 0 then
    let (addPadding, srcWrittenIdx) :=
      fill src len.toNat (unit - addPadding.length) addPadding 0
    let (addPadding, k) :=
      if srcWrittenIdx = len.toNat then
        fill (bytesOf lenPadding) lenPadding.length (unit - addPadding.length) addPadding 0
      else (addPadding, lenPadding.length)
    if k ≠ lenPadding.length then Fallible.fail (-1)
    -- check the first program unit bytes are all filled
    else if addPadding.length ≠ unit then Fallible.fail (-1)
    else do
      (programData P (area.faOff + alignedOff) (bytesOf addPadding)
        (BitVec.ofNat 32 (unit / P.width))).mapError fun _ ↦ -1
      pure srcWrittenIdx
  else pure 0

/-- `flash_area_write`: the program units that the write covers, giving `src_written_idx`. -/
def programMiddle (area : FlashArea P) (off : Word) (src : ℕ → BitVec 8)
    (len srcWrittenIdx : Word) :
    FlashM Word :=
  let writeSize := floorAlign (len - srcWrittenIdx) (BitVec.ofNat 32 P.programUnit)
  if 0 < writeSize then do
    (programData P (area.faOff + off + srcWrittenIdx) src
      (writeSize / BitVec.ofNat 32 P.width)).mapError fun _ ↦ -1
    pure (srcWrittenIdx + writeSize)
  else pure srcWrittenIdx

/-- `flash_area_write`: the program unit in the middle of which the write ends. -/
def programLast (area : FlashArea P) (off : Word) (src : ℕ → BitVec 8)
    (len addPaddingSize alignedLen lastUnitStartOff : Word) (lenPadding : List (BitVec 8)) :
    FlashM Unit :=
  let unit := P.programUnit
  if lenPadding.length ≠ 0 then
    let (addPadding, srcWrittenIdx) := fill src len.toNat unit [] lastUnitStartOff.toNat
    if srcWrittenIdx ≠ len.toNat then Fallible.fail (-1)
    else
      let (addPadding, k) :=
        fill (bytesOf lenPadding) lenPadding.length (unit - addPadding.length) addPadding 0
      let writeSize := addPaddingSize + lastUnitStartOff + BitVec.ofNat 32 unit
      if addPadding.length ≠ unit ∨ k ≠ lenPadding.length ∨ alignedLen ≠ writeSize then
        Fallible.fail (-1)
      else
        (programData P (area.faOff + off + lastUnitStartOff) (bytesOf addPadding)
          (BitVec.ofNat 32 (unit / P.width))).mapError fun _ ↦ -1
  else pure ()

/-- `flash_area_write`. -/
def flashAreaWrite (area : FlashArea P) (off : Word) (src : ℕ → BitVec 8) (len : Word) :
    FlashM Unit := do
  let unit := BitVec.ofNat 32 P.programUnit
  -- align the target address
  let alignedOff := floorAlign off unit
  let addPaddingSize := off - alignedOff
  checkRange area off len
  let addPadding ← (flashAreaRead area alignedOff addPaddingSize).mapError fun _ ↦ -1
  -- align the write size
  let alignedLen := ceilingAlign (len + addPaddingSize) unit
  let lenPaddingSize := alignedLen - len - addPaddingSize
  checkRange area alignedOff alignedLen
  let lenPadding ← (flashAreaRead area (off + len) lenPaddingSize).mapError fun _ ↦ -1
  let srcWrittenIdx ← programFirst area alignedOff src len addPadding lenPadding
  let srcWrittenIdx := BitVec.ofNat 32 srcWrittenIdx
  if srcWrittenIdx < len then do
    let lastUnitStartOff ← programMiddle area off src len srcWrittenIdx
    programLast area off src len addPaddingSize alignedLen lastUnitStartOff lenPadding
  else pure ()

/-! ## Arithmetic of program units -/

theorem unit_pos (P : Platform) : 0 < P.programUnit := Nat.two_pow_pos _

theorem unit_lt (P : Platform) : P.programUnit < 2 ^ 32 :=
  Nat.pow_lt_pow_right (by decide) P.unitLog_lt

theorem width_dvd_unit (le : P.width ≤ P.programUnit) : P.width ∣ P.programUnit := by
  rw [width_eq, Platform.programUnit] at *
  exact Nat.pow_dvd_pow 2 ((Nat.pow_le_pow_iff_right (by decide)).1 le)

/-- The end of the program unit that a range ends in. -/
def unitEnd (unit off len : ℕ) : ℕ := (off + len + (unit - 1)) / unit * unit

/-- How many bytes program units take that a range covers. -/
def middleLength (unit off len : ℕ) : ℕ := (len - firstLength unit off len) / unit * unit

theorem unitEnd_bounds {unit : ℕ} (pos : 0 < unit) (off len : ℕ) :
    off + len ≤ unitEnd unit off len ∧ unitEnd unit off len < off + len + unit := by
  have parts := Nat.div_add_mod' (off + len + (unit - 1)) unit
  have lt := Nat.mod_lt (off + len + (unit - 1)) pos
  rw [unitEnd]
  omega

theorem dvd_unitEnd (unit off len : ℕ) : unit ∣ unitEnd unit off len := Dvd.intro_left _ rfl

theorem middleLength_bounds {unit : ℕ} (pos : 0 < unit) (off len : ℕ) :
    firstLength unit off len + middleLength unit off len ≤ len ∧
      len < firstLength unit off len + middleLength unit off len + unit := by
  have le := firstLength_le unit off len
  have parts := Nat.div_add_mod' (len - firstLength unit off len) unit
  have lt := Nat.mod_lt (len - firstLength unit off len) pos
  rw [middleLength]
  omega

/-- A range that ends in the program unit in which it begins. -/
theorem unitEnd_of_first {unit off len : ℕ} (pos : 0 < unit) (unaligned : off % unit ≠ 0)
    (all : firstLength unit off len = len) : unitEnd unit off len = off - off % unit + unit := by
  have mod_le := Nat.mod_le off unit
  have bounds := unitEnd_bounds pos off len
  rw [firstLength, if_neg unaligned] at all
  obtain ⟨q, q_eq⟩ := Nat.dvd_sub (dvd_unitEnd unit off len) (Nat.dvd_sub_mod (n := unit) off)
  have mod_lt := Nat.mod_lt off pos
  have q_pos : 0 < q := by
    apply Nat.pos_of_ne_zero
    intro zero
    rw [zero, Nat.mul_zero] at q_eq
    omega
  have q_lt : q < 2 := by
    apply Nat.lt_of_mul_lt_mul_left (a := unit)
    omega
  have one : q = 1 := by omega
  rw [one] at q_eq
  omega

/-- Behind the program units that a range covers is a last one if something remains. -/
theorem unitEnd_of_rest {unit off len : ℕ} (pos : 0 < unit)
    (rest : firstLength unit off len < len) :
    unitEnd unit off len = off + firstLength unit off len + middleLength unit off len +
      if firstLength unit off len + middleLength unit off len = len then 0 else unit := by
  have bounds := unitEnd_bounds pos off len
  obtain ⟨le, lt⟩ := middleLength_bounds pos off len
  have whole : unit ∣ off + firstLength unit off len + middleLength unit off len :=
    Nat.dvd_add (dvd_behind_first pos rest) (Dvd.intro_left _ rfl)
  obtain ⟨q, q_eq⟩ := Nat.dvd_sub (dvd_unitEnd unit off len) whole
  have q_lt : q < 2 := by
    apply Nat.lt_of_mul_lt_mul_left (a := unit)
    omega
  split_ifs with ended
  · have zero : q = 0 := by
      by_contra nonzero
      have one : q = 1 := by omega
      rw [one] at q_eq
      omega
    rw [zero] at q_eq
    omega
  · have one : q = 1 := by
      by_contra other
      have zero : q = 0 := by omega
      rw [zero] at q_eq
      omega
    rw [one] at q_eq
    omega

/-! ## Programming -/

/-- What a part of a write gives: a value and what is in the flash, or an error of the driver. -/
structure WritePost {α : Type} (P : Platform) (s : State) (final : ByteMemory) (result : α)
    (value : Except ℤ α) (t : State) : Prop where
  /-- The driver is as it was. -/
  fault : t.fault = s.fault
  /-- The calls of the driver. -/
  calls : ∃ new, t.calls = s.calls ++ new ∧ ∀ c ∈ new, c.Aligned P
  /-- The flash has been written. -/
  ok : ∀ x, value = .ok x → x = result ∧ t.flash = final
  /-- The driver has failed. -/
  error : ∀ e, value = .error e → Faulty s

variable {α β : Type} {s t : State} {area : FlashArea P} {off len addr cnt : Word}
  {src : ℕ → BitVec 8} {final final' : ByteMemory}

theorem writePost_pure (result : α) : WritePost P s s.flash result (.ok result) s := by
  refine ⟨rfl, ⟨[], (List.append_nil _).symm, List.forall_mem_nil _⟩, ?_, ?_⟩
  · intro x eq
    exact ⟨(Except.ok.inj eq).symm, rfl⟩
  · intro e eq
    cases eq

/-- One part of a write follows another. -/
theorem writePost_bind {x : FlashM α} {next : α → FlashM β} {a : α} {b : β}
    (first : x.Holds s (WritePost P s final a))
    (second : ∀ t, t.flash = final → (next a).Holds t (WritePost P t final' b)) :
    (x >>= next).Holds s (WritePost P s final' b) := by
  apply first.bind
  · intro found t post
    obtain ⟨rfl, flash⟩ := post.ok found rfl
    apply (second t flash).mono
    intro value u post'
    obtain ⟨new, calls, aligned⟩ := post.calls
    obtain ⟨new', calls', aligned'⟩ := post'.calls
    constructor
    · rw [post'.fault, post.fault]
    · use new ++ new'
      rw [calls', calls, List.append_assoc]
      exact ⟨rfl, List.forall_mem_append.2 ⟨aligned, aligned'⟩⟩
    · exact post'.ok
    · intro e eq
      have faulty := post'.error e eq
      rwa [Faulty, post.fault] at faulty
  · intro e t post
    refine ⟨post.fault, post.calls, ?_, fun _ _ ↦ post.error e rfl⟩
    intro _ eq
    cases eq

theorem writePost_mapError {x : FlashM α} {a : α} {f : ℤ → ℤ}
    (holds : x.Holds s (WritePost P s final a)) :
    (x.mapError f).Holds s (WritePost P s final a) := by
  apply holds.mapError
  · intro value t post
    exact post
  · intro e t post
    refine ⟨post.fault, post.calls, ?_, fun _ _ ↦ post.error e rfl⟩
    intro _ eq
    cases eq

/-- A read as a part of a write. -/
theorem writePost_of_read {x : FlashM (List (BitVec 8))} {bytes : List (BitVec 8)} {f : ℤ → ℤ}
    (read : x.Holds s (ReadPost P s bytes)) :
    (x.mapError f).Holds s (WritePost P s s.flash bytes) := by
  apply writePost_mapError
  apply read.mono
  intro value t post
  obtain ⟨new, calls, aligned⟩ := post.reads.calls
  constructor
  · exact post.reads.fault
  · exact ⟨new, calls, fun c c_mem ↦ (aligned c c_mem).1⟩
  · intro found eq
    exact ⟨post.ok found eq, post.reads.flash⟩
  · intro e eq
    exact (post.error e eq).2

theorem programData_holds {data : ℕ → BitVec 8} (dvd : P.programUnit ∣ addr.toNat) :
    (programData P addr data cnt).Holds s (WritePost P s
      (s.flash.write addr ((List.range (cnt.toNat * P.width)).map data)) ()) := by
  have calls : ∀ c ∈ [Call.programData addr cnt], c.Aligned P :=
    List.forall_mem_singleton.2 dvd
  rw [Fallible.Holds, programData]
  cases fault : s.fault s.calls.length with
  | none =>
      constructor
      · rfl
      · exact ⟨_, rfl, calls⟩
      · intro _ _
        exact ⟨rfl, rfl⟩
      · intro _ eq
        cases eq
  | some e =>
      constructor
      · rfl
      · exact ⟨_, rfl, calls⟩
      · intro _ eq
        cases eq
      · intro _ _
        exact ⟨s.calls.length, by simp [fault]⟩

/-- An offset in the area that is a multiple of the program unit gives an address to program. -/
theorem unit_dvd_address (area : FlashArea P) {k : ℕ} (dvd : P.programUnit ∣ k)
    (k_lt : k < area.faSize.toNat) (addr_eq : addr = area.faOff + BitVec.ofNat 32 k) :
    P.programUnit ∣ addr.toNat := by
  have fits := area.fits
  have value : addr.toNat = area.faOff.toNat + k := by
    bv_omega
  rw [value]
  exact Nat.dvd_add area.unit_dvd dvd

/-- Bytes of the source. -/
def srcBytes (src : ℕ → BitVec 8) (k n : ℕ) : List (BitVec 8) :=
  (List.range n).map fun i ↦ src (k + i)

@[simp] theorem length_srcBytes (src : ℕ → BitVec 8) (k n : ℕ) : (srcBytes src k n).length = n := by
  simp [srcBytes]

theorem srcBytes_add (src : ℕ → BitVec 8) (k m n : ℕ) :
    srcBytes src k (m + n) = srcBytes src k m ++ srcBytes src (k + m) n := by
  simp only [srcBytes, List.range_add, List.map_append, List.map_map]
  congr 1
  apply List.map_congr_left
  intro i _
  simp only [Function.comp_apply, Nat.add_assoc]

theorem srcBytes_zero (src : ℕ → BitVec 8) (n : ℕ) : srcBytes src 0 n = (List.range n).map src := by
  simp only [srcBytes, Nat.zero_add]

theorem srcBytes_bytesOf (bytes : List (BitVec 8)) :
    srcBytes (bytesOf bytes) 0 bytes.length = bytes := by
  apply List.ext_getElem
  · simp
  · intro i i_lt i_lt'
    simp [srcBytes, bytesOf, i_lt']

/-- The loops copy as much as there is room for and as the source has. -/
theorem fill_eq (source : ℕ → BitVec 8) (limit room : ℕ) (padding : List (BitVec 8)) (k : ℕ) :
    fill source limit room padding k =
      (padding ++ srcBytes source k (min room (limit - k)), k + min room (limit - k)) := by
  induction room generalizing padding k with
  | zero => simp [fill, srcBytes]
  | succ room ih =>
      rw [fill]
      split_ifs with more
      · have step : min (room + 1) (limit - k) = 1 + min room (limit - (k + 1)) := by
          omega
        rw [ih, step, srcBytes_add, List.append_assoc, Nat.add_assoc]
        rfl
      · have none : min (room + 1) (limit - k) = 0 := by
          omega
        rw [none]
        simp [srcBytes]

/-- What a driver call leaves of a program unit: no item fits when the unit is smaller. -/
def unitWritten (P : Platform) (flash : ByteMemory) (addr : Word) (bytes : List (BitVec 8)) :
    ByteMemory :=
  if P.width ≤ P.programUnit then flash.write addr bytes else flash

/-- A program unit is programmed with its own bytes around some new ones. -/
theorem programUnit_holds {padding : List (BitVec 8)} (n : ℕ) (bytes : List (BitVec 8)) (k : ℕ)
    (dvd : P.programUnit ∣ addr.toNat) (unit_eq : n + bytes.length + k = P.programUnit)
    (padding_eq : padding = s.flash.read addr n ++ bytes ++
      s.flash.read (addr + BitVec.ofNat 32 (n + bytes.length)) k) :
    (programData P addr (bytesOf padding) (BitVec.ofNat 32 (P.programUnit / P.width))).Holds s
      (WritePost P s (unitWritten P s.flash (addr + BitVec.ofNat 32 n) bytes) ()) := by
  have unit_lt := unit_lt P
  have cnt : (BitVec.ofNat 32 (P.programUnit / P.width)).toNat = P.programUnit / P.width :=
    Nat.mod_eq_of_lt ((Nat.div_le_self _ _).trans_lt unit_lt)
  generalize BitVec.ofNat 32 (P.programUnit / P.width) = c at cnt ⊢
  have holds : (programData P addr (bytesOf padding) c).Holds s (WritePost P s
      (s.flash.write addr ((List.range (c.toNat * P.width)).map (bytesOf padding))) ()) :=
    programData_holds dvd
  rw [cnt] at holds
  rw [unitWritten]
  split_ifs with le
  · have length : padding.length = P.programUnit := by
      rw [padding_eq]
      simp
      omega
    have all : (List.range P.programUnit).map (bytesOf padding) = padding := by
      have whole := srcBytes_bytesOf padding
      rw [length] at whole
      simpa [srcBytes] using whole
    have written : s.flash.write addr padding =
        s.flash.write (addr + BitVec.ofNat 32 n) bytes := by
      rw [padding_eq, ByteMemory.write_read_around (by omega)]
    rwa [Nat.div_mul_cancel (width_dvd_unit le), all, written] at holds
  · rwa [Nat.div_eq_of_lt (Nat.not_le.1 le), Nat.zero_mul, List.range_zero, List.map_nil,
      ByteMemory.write_nil] at holds

theorem firstLength_of_unaligned {unit off : ℕ} (len : ℕ) (unaligned : off % unit ≠ 0) :
    firstLength unit off len = min (unit - off % unit) len := by
  rw [firstLength, if_neg unaligned]

/-- How much is read behind a range. -/
def padLength (unit off len : ℕ) : ℕ := unitEnd unit off len - (off + len)

theorem programFirst_holds {alignedOff : Word}
    (aligned : alignedOff.toNat = off.toNat - off.toNat % P.programUnit)
    (fits : unitEnd P.programUnit off.toNat len.toNat ≤ area.faSize.toNat) :
    (programFirst area alignedOff src len
      (s.flash.read (area.faOff + alignedOff) (off.toNat % P.programUnit))
      (s.flash.read (area.faOff + off + len) (padLength P.programUnit off.toNat len.toNat))).Holds s
        (WritePost P s (unitWritten P s.flash (area.faOff + off)
          (srcBytes src 0 (firstLength P.programUnit off.toNat len.toNat)))
          (firstLength P.programUnit off.toNat len.toNat)) := by
  have pos := unit_pos P
  have mod_lt := Nat.mod_lt off.toNat pos
  have mod_le := Nat.mod_le off.toNat P.programUnit
  have bounds := unitEnd_bounds pos off.toNat len.toNat
  have size_lt := area.faSize.isLt
  by_cases unaligned : off.toNat % P.programUnit = 0
  · have none : firstLength P.programUnit off.toNat len.toNat = 0 := by
      rw [firstLength, if_pos unaligned]
    rw [none, programFirst, unaligned]
    simp [unitWritten, srcBytes]
    exact writePost_pure 0
  · have dvd : P.programUnit ∣ (area.faOff + alignedOff).toNat := by
      have below : off.toNat - off.toNat % P.programUnit < area.faSize.toNat := by
        omega
      apply unit_dvd_address area (Nat.dvd_sub_mod off.toNat) below
      rw [← aligned]
      simp
    have address : area.faOff + alignedOff + BitVec.ofNat 32 (off.toNat % P.programUnit) =
        area.faOff + off := by
      bv_omega
    have h_eq := firstLength_of_unaligned len.toNat unaligned
    have h_le := firstLength_le P.programUnit off.toNat len.toNat
    rw [programFirst]
    simp only [ByteMemory.length_read, ne_eq, unaligned, not_false_eq_true, if_true, fill_eq,
      Nat.sub_zero, Nat.zero_add, ← h_eq]
    rw [← address]
    by_cases all : firstLength P.programUnit off.toNat len.toNat = len.toNat
    · have ended := unitEnd_of_first pos unaligned all
      have pad : padLength P.programUnit off.toNat len.toNat =
          P.programUnit - (off.toNat % P.programUnit + len.toNat) := by
        rw [padLength]
        omega
      have whole : off.toNat % P.programUnit + len.toNat +
          (P.programUnit - (off.toNat % P.programUnit + len.toNat)) = P.programUnit := by
        omega
      simp only [all, if_true, List.length_append, length_srcBytes, ByteMemory.length_read, pad,
        Nat.min_self, not_true_eq_false, if_false, whole]
      apply writePost_bind
      · apply writePost_mapError
        apply programUnit_holds (off.toNat % P.programUnit) (srcBytes src 0 len.toNat)
          (P.programUnit - (off.toNat % P.programUnit + len.toNat)) dvd
        · rw [length_srcBytes, whole]
        · have behind : area.faOff + off + len = area.faOff + alignedOff +
              BitVec.ofNat 32 (off.toNat % P.programUnit + len.toNat) := by
            rw [← address, BitVec.ofNat_add, BitVec.ofNat_toNat, BitVec.setWidth_eq,
              BitVec.add_assoc]
          rw [length_srcBytes, ← behind, ← pad]
          have bytes := srcBytes_bytesOf (s.flash.read (area.faOff + off + len)
            (padLength P.programUnit off.toNat len.toNat))
          rw [ByteMemory.length_read] at bytes
          rw [address, bytes]
      · intro t flash
        rw [← flash]
        exact writePost_pure _
    · have whole : off.toNat % P.programUnit + firstLength P.programUnit off.toNat len.toNat =
          P.programUnit := by
        omega
      simp only [all, if_false, List.length_append, length_srcBytes, ByteMemory.length_read, whole,
        not_true_eq_false]
      apply writePost_bind
      · apply writePost_mapError
        apply programUnit_holds (off.toNat % P.programUnit)
          (srcBytes src 0 (firstLength P.programUnit off.toNat len.toNat)) 0 dvd
        · rw [length_srcBytes, Nat.add_zero, whole]
        · exact (List.append_nil _).symm
      · intro t flash
        rw [← flash]
        exact writePost_pure _

theorem programMiddle_holds (range : InArea area off len)
    (rest : firstLength P.programUnit off.toNat len.toNat < len.toNat) :
    (programMiddle area off src len
      (BitVec.ofNat 32 (firstLength P.programUnit off.toNat len.toNat))).Holds s (WritePost P s
        (s.flash.write (area.faOff + off +
            BitVec.ofNat 32 (firstLength P.programUnit off.toNat len.toNat))
          (srcBytes src 0 (middleLength P.programUnit off.toNat len.toNat / P.width * P.width)))
        (BitVec.ofNat 32 (firstLength P.programUnit off.toNat len.toNat +
          middleLength P.programUnit off.toNat len.toNat))) := by
  have dvd := dvd_behind_first (unit_pos P) rest
  have bounds := middleLength_bounds (unit_pos P) off.toNat len.toNat
  have size := floorAlign_unit P
    (len - BitVec.ofNat 32 (firstLength P.programUnit off.toNat len.toNat))
  have size_lt := area.faSize.isLt
  have width_pos := width_pos P
  have width_le := width_le P
  rw [InArea] at range
  have remains : (len - BitVec.ofNat 32 (firstLength P.programUnit off.toNat len.toNat)).toNat =
      len.toNat - firstLength P.programUnit off.toNat len.toNat := by
    bv_omega
  rw [remains, ← Nat.div_mul_self_eq_mod_sub_self, ← middleLength] at size
  generalize firstLength P.programUnit off.toNat len.toNat = h at *
  generalize middleLength P.programUnit off.toNat len.toNat = k at *
  have size_eq : floorAlign (len - BitVec.ofNat 32 h) (BitVec.ofNat 32 P.programUnit) =
      BitVec.ofNat 32 k := by
    bv_omega
  rw [programMiddle, size_eq, ← BitVec.ofNat_add, srcBytes_zero]
  split_ifs with some_units
  · have cnt : (BitVec.ofNat 32 k / BitVec.ofNat 32 P.width).toNat = k / P.width := by
      rw [BitVec.toNat_udiv, BitVec.toNat_ofNat, BitVec.toNat_ofNat, Nat.mod_eq_of_lt (by omega),
        Nat.mod_eq_of_lt (by omega)]
    rw [← cnt]
    apply writePost_bind
    · apply writePost_mapError
      apply programData_holds
      apply unit_dvd_address area dvd (by omega)
      bv_omega
    · intro t flash
      rw [← flash]
      exact writePost_pure _
  · have none : k = 0 := by
      bv_omega
    rw [none, Nat.zero_div, Nat.zero_mul, List.range_zero, List.map_nil, ByteMemory.write_nil,
      Nat.add_zero]
    exact writePost_pure _

theorem programLast_holds {addPaddingSize alignedLen : Word} {lenPadding : List (BitVec 8)}
    (fits : unitEnd P.programUnit off.toNat len.toNat ≤ area.faSize.toNat)
    (rest : firstLength P.programUnit off.toNat len.toNat < len.toNat)
    (addPaddingSize_eq : addPaddingSize.toNat = off.toNat % P.programUnit)
    (alignedLen_eq : alignedLen.toNat =
      unitEnd P.programUnit off.toNat len.toNat - (off.toNat - off.toNat % P.programUnit))
    (lenPadding_eq : lenPadding = s.flash.read (area.faOff + off + len)
      (padLength P.programUnit off.toNat len.toNat)) :
    (programLast area off src len addPaddingSize alignedLen
      (BitVec.ofNat 32 (firstLength P.programUnit off.toNat len.toNat +
        middleLength P.programUnit off.toNat len.toNat)) lenPadding).Holds s (WritePost P s
      (unitWritten P s.flash (area.faOff + off +
        BitVec.ofNat 32 (firstLength P.programUnit off.toNat len.toNat +
          middleLength P.programUnit off.toNat len.toNat))
        (srcBytes src (firstLength P.programUnit off.toNat len.toNat +
            middleLength P.programUnit off.toNat len.toNat)
          (len.toNat - (firstLength P.programUnit off.toNat len.toNat +
            middleLength P.programUnit off.toNat len.toNat)))) ()) := by
  have pos := unit_pos P
  have unit_lt := unit_lt P
  have size_lt := area.faSize.isLt
  have mod_le := Nat.mod_le off.toNat P.programUnit
  have ended := unitEnd_of_rest pos rest
  have bounds := middleLength_bounds pos off.toNat len.toNat
  have dvd : P.programUnit ∣ off.toNat + (firstLength P.programUnit off.toNat len.toNat +
      middleLength P.programUnit off.toNat len.toNat) := by
    rw [← Nat.add_assoc]
    exact Nat.dvd_add (dvd_behind_first pos rest) (Dvd.intro_left _ rfl)
  have pad : lenPadding.length = padLength P.programUnit off.toNat len.toNat := by
    rw [lenPadding_eq, ByteMemory.length_read]
  rw [padLength] at pad
  generalize firstLength P.programUnit off.toNat len.toNat = h at *
  generalize middleLength P.programUnit off.toNat len.toNat = k at *
  have written : (BitVec.ofNat 32 (h + k)).toNat = h + k := by
    bv_omega
  rw [programLast, written]
  by_cases all : h + k = len.toNat
  · rw [if_pos all, Nat.add_zero, Nat.add_assoc, all] at ended
    rw [ended, Nat.sub_self] at pad
    rw [if_neg (not_not.2 pad), all, Nat.sub_self, unitWritten]
    simp only [srcBytes, List.range_zero, List.map_nil, ByteMemory.write_nil, ite_self]
    exact writePost_pure ()
  · rw [if_neg all] at ended
    have some_pad : lenPadding.length ≠ 0 := by
      omega
    have all_src : min P.programUnit (len.toNat - (h + k)) = len.toNat - (h + k) := by
      omega
    have all_pad : P.programUnit - (len.toNat - (h + k)) = lenPadding.length := by
      omega
    have source_end : h + k + (len.toNat - (h + k)) = len.toNat := by
      omega
    have whole : len.toNat - (h + k) + lenPadding.length = P.programUnit := by
      omega
    have alignedLen_eq : alignedLen =
        addPaddingSize + BitVec.ofNat 32 (h + k) + BitVec.ofNat 32 P.programUnit := by
      bv_omega
    simp only [ne_eq, some_pad, not_false_eq_true, if_true, fill_eq, all_src, source_end,
      not_true_eq_false, if_false, List.nil_append, length_srcBytes, all_pad, Nat.sub_zero,
      Nat.min_self, Nat.zero_add, List.length_append, whole, ← alignedLen_eq, or_self,
      srcBytes_bytesOf]
    have unit_dvd : P.programUnit ∣ (area.faOff + off + BitVec.ofNat 32 (h + k)).toNat := by
      apply unit_dvd_address area dvd (by omega)
      bv_omega
    have behind : area.faOff + off + BitVec.ofNat 32 (h + k) +
        BitVec.ofNat 32 (0 + (srcBytes src (h + k) (len.toNat - (h + k))).length) =
          area.faOff + off + len := by
      rw [length_srcBytes]
      bv_omega
    apply writePost_mapError
    rw [← BitVec.add_zero (area.faOff + off + BitVec.ofNat 32 (h + k))]
    nth_rewrite 1 [BitVec.add_zero]
    apply programUnit_holds 0 (srcBytes src (h + k) (len.toNat - (h + k))) lenPadding.length
      unit_dvd
    · rw [length_srcBytes, Nat.zero_add, whole]
    · rw [behind, lenPadding_eq, ByteMemory.length_read]
      rfl

/-- What is in the flash when all parts of a write have been programmed. -/
def writtenFlash (area : FlashArea P) (flash : ByteMemory) (off : Word) (src : ℕ → BitVec 8)
    (len : ℕ) : ByteMemory :=
  let h := firstLength P.programUnit off.toNat len
  let k := middleLength P.programUnit off.toNat len
  let flash := unitWritten P flash (area.faOff + off) (srcBytes src 0 h)
  let flash := flash.write (area.faOff + off + BitVec.ofNat 32 h)
    (srcBytes src 0 (k / P.width * P.width))
  unitWritten P flash (area.faOff + off + BitVec.ofNat 32 (h + k))
    (srcBytes src (h + k) (len - (h + k)))

theorem unitEnd_eq {unit : ℕ} (pos : 0 < unit) (off len : ℕ) :
    unitEnd unit off len =
      off - off % unit + (len + off % unit + (unit - 1)) / unit * unit := by
  obtain ⟨c, c_eq⟩ := Nat.dvd_sub_mod (n := unit) off
  have mod_le := Nat.mod_le off unit
  have shifted : off + len + (unit - 1) = unit * c + (len + off % unit + (unit - 1)) := by
    omega
  rw [unitEnd, shifted, Nat.mul_add_div pos, c_eq, Nat.add_mul, Nat.mul_comm c]

theorem unit_dvd_two_pow (P : Platform) : P.programUnit ∣ 2 ^ 32 :=
  Nat.pow_dvd_pow 2 P.unitLog_lt.le

/-- The size is not rounded up beyond 32 bits if the program units are in the area. -/
theorem ceilingAlign_toNat (P : Platform) (size : Word)
    (fits : (size.toNat + (P.programUnit - 1)) / P.programUnit * P.programUnit < 2 ^ 32) :
    (ceilingAlign size (BitVec.ofNat 32 P.programUnit)).toNat =
      (size.toNat + (P.programUnit - 1)) / P.programUnit * P.programUnit := by
  have pos := unit_pos P
  have unit_lt := unit_lt P
  have small : size.toNat + (P.programUnit - 1) < 2 ^ 32 := by
    obtain ⟨r, r_eq⟩ := unit_dvd_two_pow P
    have parts := Nat.div_add_mod' (size.toNat + (P.programUnit - 1)) P.programUnit
    have mod_lt := Nat.mod_lt (size.toNat + (P.programUnit - 1)) pos
    generalize (size.toNat + (P.programUnit - 1)) / P.programUnit = q at *
    rw [r_eq, Nat.mul_comm] at fits
    have q_lt := Nat.lt_of_mul_lt_mul_left fits
    have next := Nat.mul_le_mul_left P.programUnit q_lt
    rw [← r_eq, Nat.mul_succ, Nat.mul_comm] at next
    omega
  have sum : (size + (BitVec.ofNat 32 P.programUnit - 1)).toNat =
      size.toNat + (P.programUnit - 1) := by
    bv_omega
  have floor := floorAlign_unit P (size + (BitVec.ofNat 32 P.programUnit - 1))
  rw [sum, ← Nat.div_mul_self_eq_mod_sub_self] at floor
  exact floor

theorem ceilingAlign_wraps (P : Platform) (size : Word)
    (large : 2 ^ 32 ≤ (size.toNat + (P.programUnit - 1)) / P.programUnit * P.programUnit) :
    (ceilingAlign size (BitVec.ofNat 32 P.programUnit)).toNat = 0 := by
  have pos := unit_pos P
  have unit_lt := unit_lt P
  have le := Nat.div_mul_le_self (size.toNat + (P.programUnit - 1)) P.programUnit
  have floor := floorAlign_unit P (size + (BitVec.ofNat 32 P.programUnit - 1))
  have sum : (size + (BitVec.ofNat 32 P.programUnit - 1)).toNat < P.programUnit := by
    bv_omega
  rw [Nat.mod_eq_of_lt sum, Nat.sub_self] at floor
  exact floor

/-- What is read behind a write is not in the part of it that has been programmed. -/
theorem read_behind_written {flash : ByteMemory} {base : Word} {h k n len pad : ℕ} (h_le : h ≤ len)
    (k_le : h + k ≤ len) (n_le : n ≤ k) (small : len + pad ≤ 2 ^ 32) :
    ((unitWritten P flash base (srcBytes src 0 h)).write (base + BitVec.ofNat 32 h)
        (srcBytes src 0 n)).read (base + BitVec.ofNat 32 len) pad =
      flash.read (base + BitVec.ofNat 32 len) pad := by
  rw [ByteMemory.read_write_apart (Or.inr (by simp; omega)) (by omega) (by simp; omega),
    unitWritten]
  split_ifs
  · have start : base = base + BitVec.ofNat 32 0 := by simp
    nth_rewrite 1 [start]
    exact ByteMemory.read_write_apart (Or.inr (by simpa using h_le)) (by omega) (by simp; omega)
  · rfl

theorem flashAreaWrite_holds (src : ℕ → BitVec 8)
    (fits : unitEnd P.programUnit off.toNat len.toNat ≤ area.faSize.toNat) :
    (flashAreaWrite area off src len).Holds s
      (WritePost P s (writtenFlash area s.flash off src len.toNat) ()) := by
  have pos := unit_pos P
  have unit_lt := unit_lt P
  have size_lt := area.faSize.isLt
  have aligned := floorAlign_unit P off
  have mod_le := Nat.mod_le off.toNat P.programUnit
  have bounds := unitEnd_bounds pos off.toNat len.toNat
  have ended := unitEnd_eq pos off.toNat len.toNat
  have first_le := firstLength_le P.programUnit off.toNat len.toNat
  have range : InArea area off len := bounds.1.trans fits
  rw [flashAreaWrite, checkRange_of_inArea range, Fallible.pure_bind]
  generalize floorAlign off (BitVec.ofNat 32 P.programUnit) = alignedOff at *
  have add : (off - alignedOff).toNat = off.toNat % P.programUnit := by
    bv_omega
  have size : (len + (off - alignedOff)).toNat = len.toNat + off.toNat % P.programUnit := by
    bv_omega
  have alignedLen := ceilingAlign_toNat P (len + (off - alignedOff)) (by rw [size]; omega)
  rw [size] at alignedLen
  generalize ceilingAlign (len + (off - alignedOff)) (BitVec.ofNat 32 P.programUnit) =
    aligned_len at *
  have pad : (aligned_len - len - (off - alignedOff)).toNat =
      padLength P.programUnit off.toNat len.toNat := by
    rw [padLength]
    bv_omega
  have padded : (off + len).toNat = off.toNat + len.toNat := by
    bv_omega
  apply writePost_bind
  · apply writePost_of_read
    apply flashAreaRead_holds
    rw [InArea]
    omega
  intro t flash_t
  dsimp only
  rw [checkRange_of_inArea (by rw [InArea]; omega), Fallible.pure_bind]
  apply writePost_bind
  · apply writePost_of_read
    apply flashAreaRead_holds
    rw [InArea, pad, padLength, padded]
    omega
  intro u flash_u
  have flash_s : s.flash = u.flash := by
    rw [flash_u, flash_t]
  rw [flash_t, flash_s, add, pad, ← BitVec.add_assoc]
  apply writePost_bind (programFirst_holds aligned fits)
  intro v flash_v
  have rest_iff : BitVec.ofNat 32 (firstLength P.programUnit off.toNat len.toNat) < len ↔
      firstLength P.programUnit off.toNat len.toNat < len.toNat := by
    bv_omega
  rw [writtenFlash]
  split_ifs with rest
  · rw [rest_iff] at rest
    apply writePost_bind (programMiddle_holds range rest)
    intro w flash_w
    rw [flash_v] at flash_w
    rw [← flash_w]
    apply programLast_holds fits rest add
    · rw [ended, alignedLen, Nat.add_sub_cancel_left]
    · have middle := middleLength_bounds pos off.toNat len.toNat
      have behind : w.flash.read (area.faOff + off + BitVec.ofNat 32 len.toNat)
          (padLength P.programUnit off.toNat len.toNat) =
            u.flash.read (area.faOff + off + BitVec.ofNat 32 len.toNat)
              (padLength P.programUnit off.toNat len.toNat) := by
        rw [flash_w]
        apply read_behind_written rest.le middle.1 (Nat.div_mul_le_self _ _)
        rw [padLength]
        omega
      rw [BitVec.ofNat_toNat, BitVec.setWidth_eq] at behind
      exact behind.symm
  · rw [rest_iff] at rest
    have all : firstLength P.programUnit off.toNat len.toNat = len.toNat := by
      omega
    have none : middleLength P.programUnit off.toNat len.toNat = 0 := by
      rw [middleLength, all, Nat.sub_self, Nat.zero_div, Nat.zero_mul]
    have nothing : ∀ k, srcBytes src k 0 = [] := fun _ ↦ rfl
    rw [all] at flash_v
    simp only [all, none, Nat.zero_div, Nat.zero_mul, Nat.add_zero, Nat.sub_self, nothing,
      ByteMemory.write_nil]
    rw [unitWritten, ByteMemory.write_nil, ite_self, ← flash_v]
    exact writePost_pure ()

/-- What has been refused: nothing is programmed. -/
def Refused {α : Type} (P : Platform) (s : State) (value : Except ℤ α) (t : State) : Prop :=
  (∃ e, value = .error e) ∧ Reads P s t

/-- The write is refused when it ends in a program unit that is not in the area as a whole. -/
theorem flashAreaWrite_refused (src : ℕ → BitVec 8) (range : InArea area off len)
    (partly : area.faSize.toNat < unitEnd P.programUnit off.toNat len.toNat) :
    (flashAreaWrite area off src len).Holds s (Refused P s) := by
  have pos := unit_pos P
  have unit_lt := unit_lt P
  have size_lt := area.faSize.isLt
  have aligned := floorAlign_unit P off
  have mod_le := Nat.mod_le off.toNat P.programUnit
  have mod_lt := Nat.mod_lt off.toNat pos
  have ended := unitEnd_eq pos off.toNat len.toNat
  have bound := range
  rw [InArea] at bound
  rw [flashAreaWrite, checkRange_of_inArea range, Fallible.pure_bind]
  generalize floorAlign off (BitVec.ofNat 32 P.programUnit) = alignedOff at *
  have add : (off - alignedOff).toNat = off.toNat % P.programUnit := by
    bv_omega
  have size : (len + (off - alignedOff)).toNat = len.toNat + off.toNat % P.programUnit := by
    bv_omega
  have small := ceilingAlign_toNat P (len + (off - alignedOff))
  have large := ceilingAlign_wraps P (len + (off - alignedOff))
  rw [size] at small large
  have read : (flashAreaRead area alignedOff (off - alignedOff)).Holds s
      (fun _ t ↦ Reads P s t) := by
    apply (flashAreaRead_holds (by rw [InArea]; omega)).mono
    intro value t post
    exact post.reads
  apply Fallible.Holds.bind (P := fun _ t ↦ Reads P s t)
  · exact read.mapError (fun _ _ reads ↦ reads) (fun _ _ reads ↦ reads)
  · intro addPadding t reads
    dsimp only
    generalize ceilingAlign (len + (off - alignedOff)) (BitVec.ofNat 32 P.programUnit) =
      alignedLen at *
    by_cases range' : InArea area alignedOff alignedLen
    · have outside : ¬InArea area (off + len) (alignedLen - len - (off - alignedOff)) := by
        rw [InArea] at range' ⊢
        rcases Nat.lt_or_ge ((len.toNat + off.toNat % P.programUnit + (P.programUnit - 1)) /
          P.programUnit * P.programUnit) (2 ^ 32) with fits | wraps
        · rw [small fits] at range'
          omega
        · have zero := large wraps
          have positive : 0 < (len + (off - alignedOff)).toNat := by
            have le := Nat.div_mul_le_self
              (len.toNat + off.toNat % P.programUnit + (P.programUnit - 1)) P.programUnit
            omega
          bv_omega
      rw [checkRange_of_inArea range', Fallible.pure_bind, flashAreaRead,
        checkRange_of_not_inArea outside, Fallible.fail_bind, Fallible.mapError_fail,
        Fallible.fail_bind]
      exact ⟨⟨_, rfl⟩, reads⟩
    · rw [checkRange_of_not_inArea range', Fallible.fail_bind]
      exact ⟨⟨_, rfl⟩, reads⟩
  · intro e t reads
    exact ⟨⟨e, rfl⟩, reads⟩

theorem getElem?_srcBytes (src : ℕ → BitVec 8) (k n i : ℕ) :
    (srcBytes src k n)[i]? = if i < n then some (src (k + i)) else none := by
  rw [srcBytes, List.getElem?_map]
  split_ifs with lt
  · rw [List.getElem?_range lt]
    rfl
  · rw [List.getElem?_eq_none (by simpa using lt)]
    rfl

/-- With whole program units, the bytes in the middle come from the start of the source. -/
theorem writtenFlash_apply (le : P.width ≤ P.programUnit) {flash : ByteMemory} {n d : ℕ}
    (n_le : n ≤ 2 ^ 32) (d_lt : d < 2 ^ 32) :
    writtenFlash area flash off src n (area.faOff + off + BitVec.ofNat 32 d) =
      if d < n then
        if firstLength P.programUnit off.toNat n ≤ d ∧
            d < firstLength P.programUnit off.toNat n + middleLength P.programUnit off.toNat n then
          src (d - firstLength P.programUnit off.toNat n)
        else src d
      else flash (area.faOff + off + BitVec.ofNat 32 d) := by
  have bounds := middleLength_bounds (unit_pos P) off.toNat n
  have items : middleLength P.programUnit off.toNat n / P.width * P.width =
      middleLength P.programUnit off.toNat n :=
    Nat.div_mul_cancel ((width_dvd_unit le).trans (Dvd.intro_left _ rfl))
  rw [writtenFlash, items]
  generalize firstLength P.programUnit off.toNat n = h at *
  generalize middleLength P.programUnit off.toNat n = k at *
  simp only [unitWritten, le, if_true]
  rw [ByteMemory.write_at d_lt (by simp; omega), ByteMemory.write_at d_lt (by simp; omega),
    ByteMemory.write_start d_lt]
  simp only [getElem?_srcBytes, Nat.zero_add]
  rcases Nat.lt_or_ge d h with first | behind_first
  · have inside : d < n := by omega
    simp [first, inside, Nat.not_le.2 first, show ¬h + k ≤ d by omega]
  · rcases Nat.lt_or_ge d (h + k) with middle | last
    · have inside : d < n := by omega
      have item : d - h < k := by omega
      simp [middle, inside, behind_first, item, Nat.not_le.2 middle]
    · have item : ¬d - h < k := by omega
      rcases Nat.lt_or_ge d n with inside | outside
      · have item' : d - (h + k) < n - (h + k) := by omega
        simp [last, inside, item', Nat.not_lt.2 last, Nat.add_sub_cancel' last]
      · have item' : ¬d - (h + k) < n - (h + k) := by omega
        have front : ¬d < h := by omega
        simp [last, Nat.not_lt.2 outside, item', behind_first, item, front]

/-- With program units smaller than a data item, only whole items in the middle are programmed. -/
theorem writtenFlash_apply_of_lt (lt : P.programUnit < P.width) {flash : ByteMemory} {n d : ℕ}
    (n_le : n ≤ 2 ^ 32) (d_lt : d < 2 ^ 32) :
    writtenFlash area flash off src n (area.faOff + off + BitVec.ofNat 32 d) =
      if firstLength P.programUnit off.toNat n ≤ d ∧ d < firstLength P.programUnit off.toNat n +
          middleLength P.programUnit off.toNat n / P.width * P.width then
        src (d - firstLength P.programUnit off.toNat n)
      else flash (area.faOff + off + BitVec.ofNat 32 d) := by
  have bounds := middleLength_bounds (unit_pos P) off.toNat n
  have items := Nat.div_mul_le_self (middleLength P.programUnit off.toNat n) P.width
  rw [writtenFlash]
  generalize middleLength P.programUnit off.toNat n / P.width * P.width = i at *
  generalize firstLength P.programUnit off.toNat n = h at *
  simp only [unitWritten, Nat.not_le.2 lt, if_false]
  rw [ByteMemory.write_at d_lt (by simp; omega), getElem?_srcBytes, Nat.zero_add]
  rcases Nat.lt_or_ge d h with first | behind
  · simp [Nat.not_le.2 first]
  · rcases Nat.lt_or_ge d (h + i) with middle | last
    · have item : d - h < i := by omega
      simp [behind, middle, item]
    · have item : ¬d - h < i := by omega
      simp [behind, item, Nat.not_lt.2 last]

/-! ## Access to an area -/

/-- The flash and a driver that has not been called. -/
def initial (flash : ByteMemory) (fault : ℕ → Option ℕ) : State := ⟨flash, [], fault⟩

/-- What is asked of `flash_area_read` and `flash_area_write`, whatever calls of the driver fail. -/
structure AccessSafe (area : FlashArea P) (flash : ByteMemory) (off : Word) (src : ℕ → BitVec 8)
    (len : Word) : Prop where
  /-- A write puts the source into the flash. -/
  written : ∀ fault t, flashAreaWrite area off src len (initial flash fault) = (.ok (), t) →
    ∀ d < len.toNat, t.flash (area.faOff + off + BitVec.ofNat 32 d) = src d
  /-- A write leaves the other bytes alone. -/
  untouched : ∀ fault t, flashAreaWrite area off src len (initial flash fault) = (.ok (), t) →
    ∀ a, len.toNat ≤ (a - (area.faOff + off)).toNat → t.flash a = flash a
  /-- A read gives the bytes of the flash. -/
  read : ∀ fault bytes t, flashAreaRead area off len (initial flash fault) = (.ok bytes, t) →
    bytes = flash.read (area.faOff + off) len.toNat
  /-- A read inside the area succeeds if no call of the driver fails. -/
  readDone : InArea area off len →
    (flashAreaRead area off len (initial flash fun _ ↦ none)).1 =
      .ok (flash.read (area.faOff + off) len.toNat)
  /-- A write calls the driver with addresses that it takes. -/
  writeAligned : ∀ fault,
    ∀ c ∈ (flashAreaWrite area off src len (initial flash fault)).2.calls, c.Aligned P
  /-- A read calls the driver with addresses that it takes, and programs nothing. -/
  readAligned : ∀ fault,
    ∀ c ∈ (flashAreaRead area off len (initial flash fault)).2.calls, c.Aligned P ∧ c.IsRead
  /-- A write that leaves the area is rejected, and nothing is programmed. -/
  writeRejected : ¬InArea area off len → ∀ fault,
    (∃ e, (flashAreaWrite area off src len (initial flash fault)).1 = .error e) ∧
      ∀ c ∈ (flashAreaWrite area off src len (initial flash fault)).2.calls, c.IsRead
  /-- A read that leaves the area is rejected. -/
  readRejected : ¬InArea area off len → ∀ fault,
    ∃ e, (flashAreaRead area off len (initial flash fault)).1 = .error e

/-- The source of a write that begins in the middle of a program unit repeats its start where it
covers whole program units; with program units smaller than a data item, the flash has what is left
out. -/
def SourceFits (area : FlashArea P) (flash : ByteMemory) (off : Word) (src : ℕ → BitVec 8)
    (len : ℕ) : Prop :=
  let h := firstLength P.programUnit off.toNat len
  let k := middleLength P.programUnit off.toNat len
  if P.width ≤ P.programUnit then ∀ j < k, src (h + j) = src j
  else ∀ j < len, (if h ≤ j ∧ j < h + k / P.width * P.width then src (j - h)
    else flash (area.faOff + off + BitVec.ofNat 32 j)) = src j

theorem flashAreaWrite_of_not_inArea (outside : ¬InArea area off len) :
    flashAreaWrite area off src len = Fallible.fail (-1) := by
  rw [flashAreaWrite, checkRange_of_not_inArea outside]
  rfl

theorem flashAreaRead_of_not_inArea (outside : ¬InArea area off len) :
    flashAreaRead area off len = Fallible.fail (-1) := by
  rw [flashAreaRead, checkRange_of_not_inArea outside]
  rfl

/-- What a write leaves in the flash is right if and only if the source fits. -/
theorem sourceFits_iff {flash : ByteMemory} : SourceFits area flash off src len.toNat ↔
    ∀ d < len.toNat, writtenFlash area flash off src len.toNat
      (area.faOff + off + BitVec.ofNat 32 d) = src d := by
  have len_lt := len.isLt
  have bounds := middleLength_bounds (unit_pos P) off.toNat len.toNat
  rw [SourceFits]
  split_ifs with le
  · constructor
    · intro repeats d d_lt
      rw [writtenFlash_apply le len_lt.le (by omega), if_pos d_lt]
      split_ifs with middle
      · rw [← repeats _ (by omega), Nat.add_sub_cancel' middle.1]
      · rfl
    · intro written j j_lt
      have here := written (firstLength P.programUnit off.toNat len.toNat + j) (by omega)
      rw [writtenFlash_apply le len_lt.le (by omega), if_pos (by omega), if_pos (by omega),
        Nat.add_sub_cancel_left] at here
      exact here.symm
  · constructor
    · intro fits d d_lt
      rw [writtenFlash_apply_of_lt (Nat.not_le.1 le) len_lt.le (by omega)]
      exact fits d d_lt
    · intro written j j_lt
      have here := written j j_lt
      rwa [writtenFlash_apply_of_lt (Nat.not_le.1 le) len_lt.le (by omega)] at here

theorem untouched_writtenFlash {flash : ByteMemory} {a : Word} {n : ℕ} (n_lt : n < 2 ^ 32)
    (outside : n ≤ (a - (area.faOff + off)).toNat) :
    writtenFlash area flash off src n a = flash a := by
  have bounds := middleLength_bounds (unit_pos P) off.toNat n
  have items := Nat.div_mul_le_self (middleLength P.programUnit off.toNat n) P.width
  obtain ⟨d, d_lt, rfl⟩ := ByteMemory.exists_distance (area.faOff + off) a
  rw [ByteMemory.add_ofNat_sub_toNat d_lt] at outside
  rcases Nat.lt_or_ge P.programUnit P.width with lt | le
  · rw [writtenFlash_apply_of_lt lt n_lt.le d_lt, if_neg (by omega)]
  · rw [writtenFlash_apply le n_lt.le d_lt, if_neg (by omega)]

theorem readAligned {flash : ByteMemory} (fault : ℕ → Option ℕ) :
    ∀ c ∈ (flashAreaRead area off len (initial flash fault)).2.calls, c.Aligned P ∧ c.IsRead := by
  by_cases range : InArea area off len
  · obtain ⟨new, calls, aligned⟩ :=
      (flashAreaRead_holds (s := initial flash fault) range).reads.calls
    rw [calls]
    exact aligned
  · rw [flashAreaRead_of_not_inArea range]
    exact List.forall_mem_nil _

theorem writeAligned {flash : ByteMemory} (fault : ℕ → Option ℕ) :
    ∀ c ∈ (flashAreaWrite area off src len (initial flash fault)).2.calls, c.Aligned P := by
  by_cases range : InArea area off len
  · rcases Nat.lt_or_ge area.faSize.toNat (unitEnd P.programUnit off.toNat len.toNat) with
      partly | fits
    · obtain ⟨-, reads⟩ := flashAreaWrite_refused (s := initial flash fault) src range partly
      obtain ⟨new, calls, aligned⟩ := reads.calls
      rw [calls]
      exact fun c c_mem ↦ (aligned c c_mem).1
    · obtain ⟨new, calls, aligned⟩ :=
        (flashAreaWrite_holds (s := initial flash fault) src fits).calls
      rw [calls]
      exact aligned
  · rw [flashAreaWrite_of_not_inArea range]
    exact List.forall_mem_nil _

/-- A successful write has programmed all of its parts. -/
theorem flash_of_written {flash : ByteMemory} {fault : ℕ → Option ℕ}
    (done : flashAreaWrite area off src len (initial flash fault) = (.ok (), t)) :
    unitEnd P.programUnit off.toNat len.toNat ≤ area.faSize.toNat ∧
      t.flash = writtenFlash area flash off src len.toNat := by
  by_cases range : InArea area off len
  · rcases Nat.lt_or_ge area.faSize.toNat (unitEnd P.programUnit off.toNat len.toNat) with
      partly | fits
    · obtain ⟨⟨e, failed⟩, -⟩ :=
        flashAreaWrite_refused (s := initial flash fault) src range partly
      rw [done] at failed
      cases failed
    · have post := flashAreaWrite_holds (s := initial flash fault) src fits
      rw [Fallible.Holds, done] at post
      exact ⟨fits, (post.ok () rfl).2⟩
  · rw [flashAreaWrite_of_not_inArea range] at done
    cases done

/-- A write succeeds when the program units are in the area and the driver does not fail. -/
theorem written_of_fits (flash : ByteMemory) (src : ℕ → BitVec 8)
    (fits : unitEnd P.programUnit off.toNat len.toNat ≤ area.faSize.toNat) :
    ∃ t, flashAreaWrite area off src len (initial flash fun _ ↦ none) = (.ok (), t) := by
  have post := flashAreaWrite_holds (s := initial flash fun _ ↦ none) src fits
  rw [Fallible.Holds] at post
  rcases result : flashAreaWrite area off src len (initial flash fun _ ↦ none) with ⟨value, t⟩
  rw [result] at post
  cases value with
  | ok value => exact ⟨t, rfl⟩
  | error e =>
      obtain ⟨n, failed⟩ := post.error e rfl
      exact absurd rfl failed

/-- A read succeeds when the range is in the area and the driver does not fail. -/
theorem flashAreaRead_faultless (flash : ByteMemory) (range : InArea area off len) :
    (flashAreaRead area off len (initial flash fun _ ↦ none)).1 =
      .ok (flash.read (area.faOff + off) len.toNat) := by
  have post := flashAreaRead_holds (s := initial flash fun _ ↦ none) range
  rw [Fallible.Holds] at post
  cases value : (flashAreaRead area off len (initial flash fun _ ↦ none)).1 with
  | ok bytes => exact congrArg Except.ok (post.ok bytes value)
  | error e =>
      obtain ⟨-, n, failed⟩ := post.error e value
      exact absurd rfl failed

/-- Reads and writes are right if and only if the source of a write that is not refused fits: the
part in the middle is programmed from the start of the source, and a program unit that is smaller
than a data item is not programmed at all. -/
theorem accessSafe_iff_sourceFits (area : FlashArea P) (flash : ByteMemory) (off : Word)
    (src : ℕ → BitVec 8) (len : Word) : AccessSafe area flash off src len ↔
      (unitEnd P.programUnit off.toNat len.toNat ≤ area.faSize.toNat →
        SourceFits area flash off src len.toNat) := by
  constructor
  · intro safe fits
    obtain ⟨t, done⟩ := written_of_fits flash src fits
    rw [sourceFits_iff]
    intro d d_lt
    rw [← (flash_of_written done).2]
    exact safe.written _ t done d d_lt
  · intro sourceFits
    constructor
    · intro fault t done d d_lt
      obtain ⟨fits, flash_eq⟩ := flash_of_written done
      rw [flash_eq]
      exact sourceFits_iff.1 (sourceFits fits) d d_lt
    · intro fault t done a outside
      rw [(flash_of_written done).2]
      exact untouched_writtenFlash len.isLt outside
    · intro fault bytes t done
      by_cases range : InArea area off len
      · have post := flashAreaRead_holds (s := initial flash fault) range
        rw [Fallible.Holds, done] at post
        exact post.ok bytes rfl
      · rw [flashAreaRead_of_not_inArea range] at done
        cases done
    · exact flashAreaRead_faultless flash
    · exact writeAligned
    · exact readAligned
    · intro outside fault
      rw [flashAreaWrite_of_not_inArea outside]
      exact ⟨⟨_, rfl⟩, List.forall_mem_nil _⟩
    · intro outside fault
      rw [flashAreaRead_of_not_inArea outside]
      exact ⟨_, rfl⟩

/-- Program units of 8 bytes and data items of 4 bytes. -/
def samplePlatform : Platform where
  unitLog := 3
  unitLog_lt := by decide
  dataWidth := 2
  bootU32SafeAdd := fun a b ↦ if a.toNat + b.toNat < 2 ^ 32 then some (a + b) else none
  bootU32SafeAdd_eq := fun _ _ ↦ rfl

/-- An area of 64 bytes. -/
def sampleArea : FlashArea samplePlatform where
  faOff := 0x1000
  faSize := 64
  unit_dvd := by decide
  width_dvd := by decide
  fits := by decide

/-- Of 16 bytes that are written at the offset 4, the bytes 4 to 11 come from the start of the
source. -/
theorem accessSafe_fails :
    ¬AccessSafe sampleArea (fun _ ↦ 0xFF) 4 (fun i ↦ BitVec.ofNat 8 i) 16 := by
  have written : (flashAreaWrite sampleArea 4 (fun i ↦ BitVec.ofNat 8 i) 16
      (initial (fun _ ↦ 0xFF) fun _ ↦ none)).1 = .ok () := by
    decide +kernel
  have byte : (flashAreaWrite sampleArea 4 (fun i ↦ BitVec.ofNat 8 i) 16
      (initial (fun _ ↦ 0xFF) fun _ ↦ none)).2.flash (0x1000 + 4 + BitVec.ofNat 32 4) = 0 := by
    decide +kernel
  intro safe
  have right := safe.written _ _ (Prod.ext written rfl) 4 (by decide)
  have wrong : (0 : BitVec 8) = BitVec.ofNat 8 4 := byte.symm.trans right
  revert wrong
  decide

end TrustedFirmwareM.Bl2.FlashMap
