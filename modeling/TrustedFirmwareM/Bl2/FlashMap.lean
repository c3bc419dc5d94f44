import TrustedFirmwareM.Lib.ByteMemory
import TrustedFirmwareM.Lib.Fallible
import TrustedFirmwareM.Lib.Numerals
import Mathlib.Tactic.IntervalCases

/-!
# Flash areas

The boot loader reads and writes flash areas at any offset and in any length.  The driver reads
items of its data width and programs whole program units, so what surrounds a write is read and
programmed again.
-/

namespace TrustedFirmwareM.Bl2.FlashMap

/-- 32-bit words. -/
abbrev Word := BitVec 32

/-- The flash, its driver and the arithmetic of the boot loader. -/
structure Platform where
  /-- `FLASH_PROGRAM_UNIT` is a power of two. -/
  unitLog : ℕ
  /-- It is a number of 32 bits. -/
  unitLog_lt : unitLog < 32
  /-- `data_width` of the capabilities of the driver. -/
  dataWidth : Fin 3
  /-- `boot_u32_safe_add`; there is no sum when it does not fit. -/
  bootU32SafeAdd : Word → Word → Option Word
  /-- What is documented of it. -/
  bootU32SafeAdd_eq : ∀ a b, bootU32SafeAdd a b =
    if a.toNat + b.toNat < 2 ^ 32 then some (a + b) else none

/-- `FLASH_PROGRAM_UNIT`. -/
def Platform.programUnit (P : Platform) : ℕ := 2 ^ P.unitLog

/-- `data_width_byte`. -/
def dataWidthByte : Fin 3 → ℕ
  | 0 => 1
  | 1 => 2
  | 2 => 4

/-- The size of a data item. -/
def Platform.width (P : Platform) : ℕ := dataWidthByte P.dataWidth

/-- `flash_area`. -/
structure FlashArea (P : Platform) where
  /-- `fa_off`. -/
  faOff : Word
  /-- `fa_size`. -/
  faSize : Word
  /-- The area begins with a program unit. -/
  unit_dvd : P.programUnit ∣ faOff.toNat
  /-- The area begins with a data item. -/
  width_dvd : P.width ∣ faOff.toNat
  /-- The area does not wrap around. -/
  fits : faOff.toNat + faSize.toNat ≤ 2 ^ 32

/-- A call of the driver. -/
inductive Call
  /-- `ReadData`. -/
  | readData (addr cnt : Word)
  /-- `ProgramData`. -/
  | programData (addr cnt : Word)
  deriving DecidableEq

/-- The flash and the driver. -/
structure State where
  /-- Contents of the flash. -/
  flash : ByteMemory
  /-- The calls of the driver so far. -/
  calls : List Call
  /-- The calls that fail, by their number.  Their status is negative. -/
  fault : ℕ → Option ℕ

/-- Programs that call the driver. -/
abbrev FlashM (α : Type) : Type := Fallible State ℤ α

/-- `ReadData`: a number of items. -/
def readData (P : Platform) (addr cnt : Word) : FlashM (List (BitVec 8)) := fun s ↦
  let s' := { s with calls := s.calls ++ [.readData addr cnt] }
  match s.fault s.calls.length with
  | some e => (.error (Int.negSucc e), s')
  | none => (.ok (s.flash.read addr (cnt.toNat * P.width)), s')

/-- `ProgramData`: a number of items.  Nothing else is written. -/
def programData (P : Platform) (addr : Word) (data : ℕ → BitVec 8) (cnt : Word) : FlashM Unit :=
  fun s ↦
    let s' := { s with calls := s.calls ++ [.programData addr cnt] }
    match s.fault s.calls.length with
    | some e => (.error (Int.negSucc e), s')
    | none =>
        (.ok (), { s' with
          flash := s.flash.write addr ((List.range (cnt.toNat * P.width)).map data) })

/-- `FLOOR_ALIGN`. -/
def floorAlign (value alignment : Word) : Word := value &&& ~~~(alignment - 1)

/-- `CEILING_ALIGN`. -/
def ceilingAlign (value alignment : Word) : Word :=
  (value + (alignment - 1)) &&& ~~~(alignment - 1)

variable {P : Platform}

/-- `is_range_valid`. -/
def isRangeValid (area : Option (FlashArea P)) (off len : Word) : Bool :=
  match area with
  | none => false
  | some area =>
      match P.bootU32SafeAdd off len with
      | none => false
      | some size => !(area.faSize < size)

/-- Fail if a range is not in the area. -/
def checkRange (area : FlashArea P) (off len : Word) : FlashM Unit :=
  if !isRangeValid (some area) off len then Fallible.fail (-1) else pure ()

/-- `flash_area_read`: the item that the offset is in the middle of. -/
def readFirst (area : FlashArea P) (off len : Word) : FlashM (List (BitVec 8)) :=
  let dataWidth := BitVec.ofNat 32 P.width
  let alignedOff := floorAlign off dataWidth
  if alignedOff ≠ off then do
    let tempBuffer ← readData P (area.faOff + alignedOff) 1
    let readLength :=
      if dataWidth ≤ off - alignedOff + len then dataWidth - (off - alignedOff) else len
    pure ((tempBuffer.drop (off - alignedOff).toNat).take readLength.toNat)
  else pure []

/-- `flash_area_read`: the items from an index on that are read as a whole. -/
def readItems (area : FlashArea P) (off i remainingLen : Word) : FlashM (List (BitVec 8)) :=
  let itemNumber := remainingLen / BitVec.ofNat 32 P.width
  if remainingLen ≠ 0 ∧ itemNumber ≠ 0 then readData P (area.faOff + off + i) itemNumber
  else pure []

/-- `flash_area_read`: the item that only the first bytes are wanted of. -/
def readLast (area : FlashArea P) (off i remainingLen : Word) : FlashM (List (BitVec 8)) :=
  if remainingLen ≠ 0 then do
    let tempBuffer ← readData P (area.faOff + off + i) 1
    pure (tempBuffer.take remainingLen.toNat)
  else pure []

/-- `flash_area_read`. -/
def flashAreaRead (area : FlashArea P) (off len : Word) : FlashM (List (BitVec 8)) := do
  checkRange area off len
  let first ← readFirst area off len
  let i := BitVec.ofNat 32 first.length
  let items ← readItems area off i (len - i)
  let i := i + BitVec.ofNat 32 items.length
  let last ← readLast area off i (len - i)
  pure (first ++ items ++ last)

/-! ## Alignment -/

theorem floorAlign_toNat {k : ℕ} (k_lt : k < 32) (value : Word) :
    (floorAlign value (BitVec.ofNat 32 (2 ^ k))).toNat = value.toNat - value.toNat % 2 ^ k := by
  have small : 2 ^ k < 2 ^ 32 := Nat.pow_lt_pow_right (by decide) k_lt
  have pos : 0 < 2 ^ k := Nat.two_pow_pos k
  have mask : (BitVec.ofNat 32 (2 ^ k) - 1).toNat = 2 ^ k - 1 := by
    bv_omega
  have low : (value &&& (BitVec.ofNat 32 (2 ^ k) - 1)).toNat = value.toNat % 2 ^ k := by
    rw [BitVec.toNat_and, mask, Nat.and_two_pow_sub_one_eq_mod]
  have parts : floorAlign value (BitVec.ofNat 32 (2 ^ k)) +
      (value &&& (BitVec.ofNat 32 (2 ^ k) - 1)) = value := by
    rw [floorAlign, BitVec.add_eq_or_of_and_eq_zero]
    · ext i
      simp
      grind
    · ext i
      simp
      grind
  have le := Nat.mod_le value.toNat (2 ^ k)
  rw [eq_sub_of_add_eq parts, BitVec.toNat_sub_of_le, low]
  rwa [BitVec.le_def, low]

/-- A data item is a power of two. -/
theorem width_eq (P : Platform) : P.width = 2 ^ P.dataWidth.val := by
  rw [Platform.width]
  match P.dataWidth with
  | 0 => rfl
  | 1 => rfl
  | 2 => rfl

theorem floorAlign_width (P : Platform) (value : Word) :
    (floorAlign value (BitVec.ofNat 32 P.width)).toNat = value.toNat - value.toNat % P.width := by
  rw [width_eq]
  exact floorAlign_toNat (P.dataWidth.isLt.trans (by decide)) value

theorem floorAlign_unit (P : Platform) (value : Word) :
    (floorAlign value (BitVec.ofNat 32 P.programUnit)).toNat =
      value.toNat - value.toNat % P.programUnit :=
  floorAlign_toNat P.unitLog_lt value

theorem width_pos (P : Platform) : 0 < P.width := by
  rw [width_eq]
  exact Nat.two_pow_pos _

theorem width_le (P : Platform) : P.width ≤ 4 := by
  rw [width_eq]
  exact Nat.pow_le_pow_right (by decide) (Nat.le_of_lt_succ P.dataWidth.isLt)

/-! ## Reading -/

/-- The range is in the area. -/
def InArea (area : FlashArea P) (off len : Word) : Prop :=
  off.toNat + len.toNat ≤ area.faSize.toNat

theorem isRangeValid_iff {area : FlashArea P} {off len : Word} :
    isRangeValid (some area) off len ↔ InArea area off len := by
  have size_lt := area.faSize.isLt
  rw [isRangeValid, P.bootU32SafeAdd_eq, InArea]
  split_ifs with small
  · simp only [Bool.not_eq_eq_eq_not, Bool.not_true, decide_eq_false_iff_not, BitVec.lt_def,
      BitVec.toNat_add, Nat.mod_eq_of_lt small]
    omega
  · simp only [false_iff]
    omega

/-- A call at an address that the driver takes. -/
def Call.Aligned (P : Platform) : Call → Prop
  | .readData addr _ => P.width ∣ addr.toNat
  | .programData addr _ => P.programUnit ∣ addr.toNat

/-- A call that reads. -/
def Call.IsRead : Call → Prop
  | .readData _ _ => True
  | .programData _ _ => False

/-- Nothing but aligned reads has happened. -/
structure Reads (P : Platform) (s t : State) : Prop where
  /-- The flash is as it was. -/
  flash : t.flash = s.flash
  /-- The driver is as it was. -/
  fault : t.fault = s.fault
  /-- The calls of the driver. -/
  calls : ∃ new, t.calls = s.calls ++ new ∧ ∀ c ∈ new, c.Aligned P ∧ c.IsRead

/-- A call of the driver fails. -/
def Faulty (s : State) : Prop := ∃ n, s.fault n ≠ none

/-- What reading gives: the bytes, or an error of the driver. -/
structure ReadPost (P : Platform) (s : State) (bytes : List (BitVec 8))
    (value : Except ℤ (List (BitVec 8))) (t : State) : Prop where
  /-- The flash is left alone. -/
  reads : Reads P s t
  /-- The bytes have been read. -/
  ok : ∀ found, value = .ok found → found = bytes
  /-- The driver has failed. -/
  error : ∀ e, value = .error e → e < 0 ∧ Faulty s

variable {s t u : State} {area : FlashArea P} {off len addr cnt : Word}

theorem Reads.refl (s : State) : Reads P s s :=
  ⟨rfl, rfl, [], (List.append_nil _).symm, List.forall_mem_nil _⟩

theorem Reads.trans (first : Reads P s t) (second : Reads P t u) : Reads P s u := by
  obtain ⟨new, calls, aligned⟩ := first.calls
  obtain ⟨new', calls', aligned'⟩ := second.calls
  constructor
  · rw [second.flash, first.flash]
  · rw [second.fault, first.fault]
  · use new ++ new'
    rw [calls', calls, List.append_assoc]
    exact ⟨rfl, List.forall_mem_append.2 ⟨aligned, aligned'⟩⟩

theorem Reads.faulty (reads : Reads P s t) : Faulty t ↔ Faulty s := by
  rw [Faulty, Faulty, reads.fault]

theorem readPost_pure : ReadPost P s [] (.ok []) s :=
  ⟨Reads.refl s, fun _ eq ↦ (Except.ok.inj eq).symm, fun _ eq ↦ nomatch eq⟩

theorem readData_holds (dvd : P.width ∣ addr.toNat) :
    (readData P addr cnt).Holds s (ReadPost P s (s.flash.read addr (cnt.toNat * P.width))) := by
  have reads : Reads P s { s with calls := s.calls ++ [.readData addr cnt] } :=
    ⟨rfl, rfl, _, rfl, List.forall_mem_singleton.2 ⟨dvd, trivial⟩⟩
  rw [Fallible.Holds, readData]
  cases fault : s.fault s.calls.length with
  | none => exact ⟨reads, fun _ eq ↦ (Except.ok.inj eq).symm, fun _ eq ↦ nomatch eq⟩
  | some e =>
      constructor
      · exact reads
      · intro _ eq
        cases eq
      · intro _ eq
        cases eq
        exact ⟨Int.negSucc_lt_zero e, s.calls.length, by simp [fault]⟩

/-- Part of what has been read is used. -/
theorem readPost_map {bytes part : List (BitVec 8)} {x : FlashM (List (BitVec 8))}
    {f : List (BitVec 8) → List (BitVec 8)} (read : x.Holds s (ReadPost P s bytes))
    (part_eq : f bytes = part) :
    (x >>= fun found ↦ pure (f found)).Holds s (ReadPost P s part) := by
  apply read.bind
  · intro found t post
    constructor
    · exact post.reads
    · intro _ eq
      rw [← Except.ok.inj eq, post.ok found rfl, part_eq]
    · intro _ eq
      cases eq
  · intro e t post
    constructor
    · exact post.reads
    · intro _ eq
      cases eq
    · intro _ eq
      cases eq
      exact post.error e rfl

/-- One read follows another. -/
theorem readPost_bind {bytes bytes' : List (BitVec 8)} {x : FlashM (List (BitVec 8))}
    {next : List (BitVec 8) → FlashM (List (BitVec 8))} (first : x.Holds s (ReadPost P s bytes))
    (second : ∀ t, t.flash = s.flash → (next bytes).Holds t (ReadPost P t bytes')) :
    (x >>= next).Holds s (ReadPost P s bytes') := by
  apply first.bind
  · intro found t post
    rw [post.ok found rfl]
    apply (second t post.reads.flash).mono
    intro value u post'
    exact ⟨post.reads.trans post'.reads, post'.ok, fun e eq ↦
      ⟨(post'.error e eq).1, post.reads.faulty.1 (post'.error e eq).2⟩⟩
  · intro e t post
    constructor
    · exact post.reads
    · intro _ eq
      cases eq
    · intro _ eq
      cases eq
      exact post.error e rfl

/-- How much of the item in the middle of which a range begins is in the range. -/
def firstLength (item off len : ℕ) : ℕ :=
  if off % item = 0 then 0 else min (item - off % item) len

theorem floorAlign_eq_iff (P : Platform) (off : Word) :
    floorAlign off (BitVec.ofNat 32 P.width) = off ↔ off.toNat % P.width = 0 := by
  have aligned := floorAlign_width P off
  have mod_le := Nat.mod_le off.toNat P.width
  constructor
  · intro same
    rw [same] at aligned
    omega
  · intro divisible
    apply BitVec.eq_of_toNat_eq
    omega

/-- An offset in the area that is a multiple of the item gives an address that the driver takes. -/
theorem width_dvd_address (area : FlashArea P) {k : ℕ} (dvd : P.width ∣ k)
    (k_lt : k < area.faSize.toNat)
    (addr_eq : addr = area.faOff + BitVec.ofNat 32 k) : P.width ∣ addr.toNat := by
  have fits := area.fits
  have value : addr.toNat = area.faOff.toNat + k := by
    bv_omega
  rw [value]
  exact Nat.dvd_add area.width_dvd dvd

theorem readFirst_holds (range : InArea area off len) :
    (readFirst area off len).Holds s (ReadPost P s
      (s.flash.read (area.faOff + off) (firstLength P.width off.toNat len.toNat))) := by
  have aligned := floorAlign_width P off
  have pos := width_pos P
  have le := width_le P
  have mod_lt := Nat.mod_lt off.toNat pos
  have mod_le := Nat.mod_le off.toNat P.width
  have same := floorAlign_eq_iff P off
  have dvd := Nat.dvd_sub_mod (n := P.width) off.toNat
  rw [InArea] at range
  have size_lt := area.faSize.isLt
  rw [readFirst, firstLength]
  dsimp only
  generalize floorAlign off (BitVec.ofNat 32 P.width) = alignedOff at *
  by_cases divisible : off.toNat % P.width = 0
  · rw [if_neg (not_not.2 (same.2 divisible)), if_pos divisible]
    exact readPost_pure
  · rw [if_pos (same.not.2 divisible), if_neg divisible]
    have skipped : (off - alignedOff).toNat = off.toNat % P.width := by
      bv_omega
    have length : (if BitVec.ofNat 32 P.width ≤ off - alignedOff + len then
        BitVec.ofNat 32 P.width - (off - alignedOff) else len).toNat =
          min (P.width - off.toNat % P.width) len.toNat := by
      split_ifs with whole <;> bv_omega
    have address : area.faOff + alignedOff + BitVec.ofNat 32 (off.toNat % P.width) =
        area.faOff + off := by
      bv_omega
    rw [length, skipped]
    apply readPost_map
      (readData_holds (width_dvd_address area (aligned ▸ dvd) (by omega) (by simp)))
    have item : (1 : Word).toNat * P.width = off.toNat % P.width +
        (min (P.width - off.toNat % P.width) len.toNat +
          (P.width - off.toNat % P.width - min (P.width - off.toNat % P.width) len.toNat)) := by
      simp
      omega
    rw [item, ByteMemory.drop_read, ByteMemory.take_read, address]

theorem firstLength_le (item off len : ℕ) : firstLength item off len ≤ len := by
  rw [firstLength]
  split_ifs
  · exact Nat.zero_le _
  · exact Nat.min_le_right _ _

/-- What remains begins with an item, if anything remains. -/
theorem dvd_behind_first {item off len : ℕ} (item_pos : 0 < item)
    (remains : firstLength item off len < len) : item ∣ off + firstLength item off len := by
  rw [firstLength] at remains ⊢
  split_ifs at remains ⊢ with divisible
  · exact Nat.dvd_of_mod_eq_zero divisible
  · have mod_lt := Nat.mod_lt off item_pos
    have whole : off + min (item - off % item) len = off - off % item + item := by
      have mod_le := Nat.mod_le off item
      omega
    rw [whole]
    exact Nat.dvd_add (Nat.dvd_sub_mod off) (dvd_refl _)

theorem readItems_holds {i : ℕ} {remaining : Word} (range : InArea area off len)
    (i_eq : i + remaining.toNat = len.toNat) (dvd : remaining ≠ 0 → P.width ∣ off.toNat + i) :
    (readItems area off (BitVec.ofNat 32 i) remaining).Holds s (ReadPost P s
      (s.flash.read (area.faOff + off + BitVec.ofNat 32 i)
        (remaining.toNat / P.width * P.width))) := by
  have pos := width_pos P
  have le := width_le P
  have size_lt := area.faSize.isLt
  rw [InArea] at range
  have number : (remaining / BitVec.ofNat 32 P.width).toNat = remaining.toNat / P.width := by
    rw [BitVec.toNat_udiv, BitVec.toNat_ofNat, Nat.mod_eq_of_lt (by omega)]
  rw [readItems]
  split_ifs with nonzero
  · rw [← number]
    apply readData_holds
    apply width_dvd_address area (dvd nonzero.1)
    · have : 0 < remaining.toNat := by
        have := nonzero.1
        bv_omega
      omega
    · bv_omega
  · have none : remaining.toNat / P.width = 0 := by
      rw [not_and_or, not_not, not_not] at nonzero
      rcases nonzero with zero | zero
      · rw [zero]
        simp
      · rw [← number, zero]
        rfl
    rw [none, Nat.zero_mul]
    exact readPost_pure

theorem readLast_holds {i : ℕ} {remaining : Word} (range : InArea area off len)
    (i_eq : i + remaining.toNat = len.toNat) (dvd : remaining ≠ 0 → P.width ∣ off.toNat + i)
    (remaining_lt : remaining.toNat < P.width) :
    (readLast area off (BitVec.ofNat 32 i) remaining).Holds s (ReadPost P s
      (s.flash.read (area.faOff + off + BitVec.ofNat 32 i) remaining.toNat)) := by
  have size_lt := area.faSize.isLt
  rw [InArea] at range
  rw [readLast]
  split_ifs with nonzero
  · have positive : 0 < remaining.toNat := by
      bv_omega
    apply readPost_map (f := fun found ↦ found.take remaining.toNat)
    · apply readData_holds
      apply width_dvd_address area (dvd nonzero) (by omega)
      bv_omega
    · have item : (1 : Word).toNat * P.width =
          remaining.toNat + (P.width - remaining.toNat) := by
        simp
        omega
      rw [item, ByteMemory.take_read]
  · have zero : remaining.toNat = 0 := by
      rw [not_not.1 nonzero]
      rfl
    rw [zero]
    exact readPost_pure

theorem checkRange_of_inArea (range : InArea area off len) : checkRange area off len = pure () := by
  rw [checkRange, isRangeValid_iff.2 range]
  rfl

theorem checkRange_of_not_inArea (outside : ¬InArea area off len) :
    checkRange area off len = Fallible.fail (-1) := by
  rw [checkRange, Bool.eq_false_iff.2 (isRangeValid_iff.not.2 outside)]
  rfl

theorem flashAreaRead_holds (range : InArea area off len) :
    (flashAreaRead area off len).Holds s (ReadPost P s
      (s.flash.read (area.faOff + off) len.toNat)) := by
  have pos := width_pos P
  have first_le := firstLength_le P.width off.toNat len.toNat
  have behind := @dvd_behind_first P.width off.toNat len.toNat pos
  have dvd_items :=
    Nat.div_mul_le_self (len.toNat - firstLength P.width off.toNat len.toNat) P.width
  have last_lt := Nat.mod_lt (len.toNat - firstLength P.width off.toNat len.toNat) pos
  have parts := Nat.div_add_mod' (len.toNat - firstLength P.width off.toNat len.toNat) P.width
  set n := firstLength P.width off.toNat len.toNat with n_eq
  set k := (len.toNat - n) / P.width * P.width with k_eq
  have rest : (len - BitVec.ofNat 32 n).toNat = len.toNat - n := by
    bv_omega
  have last : (len - BitVec.ofNat 32 (n + k)).toNat = len.toNat - (n + k) := by
    bv_omega
  rw [flashAreaRead, checkRange_of_inArea range]
  apply readPost_bind (readFirst_holds range)
  intro t flash_t
  rw [ByteMemory.length_read, ← n_eq]
  apply readPost_bind (readItems_holds range (by omega) (fun _ ↦ behind (by bv_omega)))
  intro u flash_u
  dsimp only
  rw [ByteMemory.length_read, rest, ← k_eq, ← BitVec.ofNat_add]
  have item_dvd : len - BitVec.ofNat 32 (n + k) ≠ 0 → P.width ∣ off.toNat + (n + k) := by
    intro remains
    rw [← Nat.add_assoc]
    exact Nat.dvd_add (behind (by bv_omega)) (Dvd.intro_left _ rfl)
  have whole : len.toNat = n + k + (len.toNat - (n + k)) := by
    omega
  apply readPost_map (readLast_holds range (by omega) item_dvd (by omega))
  rw [last, flash_u, flash_t, whole, Nat.add_sub_cancel_left, ByteMemory.read_add,
    ByteMemory.read_add]

end TrustedFirmwareM.Bl2.FlashMap
