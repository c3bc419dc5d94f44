import TrustedFirmwareM.Lib.ByteMemory
import TrustedFirmwareM.Spm.State

/-!
# Boot data

The boot loader leaves entries in an area of memory.  A partition asks the partition manager for the
entries of a major type, which are copied behind a header into the buffer of the partition.
-/

namespace TrustedFirmwareM.Spm.BootData

/-- `PSA_ERROR_INVALID_ARGUMENT`. -/
def psaErrorInvalidArgument : ℤ := -135

/-- `SHARED_DATA_TLV_INFO_MAGIC`. -/
def sharedDataTlvInfoMagic : BitVec 16 := 0x2016

/-- The platform and the partition that calls. -/
structure Platform where
  /-- `BOOT_TFM_SHARED_DATA_BASE`. -/
  base : Word
  /-- `BOOT_TFM_SHARED_DATA_SIZE`. -/
  size : ℕ
  /-- The area has room for its header. -/
  header_le : 4 ≤ size
  /-- The area is in the part of the address space that is for memory. -/
  fits : base.toNat + size ≤ 0xA0000000
  /-- `tfm_hal_memory_check` of the boundary of the partition for reading and writing. -/
  memoryCheck : Word → ℕ → Bool
  /-- `access_policy_table`: the partition and the major type of each element, the invalid one
  first. -/
  accessPolicyTable : List (ℤ × Word)
  /-- `tfm_spm_partition_get_running_partition_id`. -/
  partitionId : ℤ

/-- A little-endian 16-bit load. -/
def load16 (m : ByteMemory) (a : Word) : BitVec 16 := m (a + 1) ++ m a

/-- A little-endian 16-bit store. -/
def store16 (m : ByteMemory) (a : Word) (value : BitVec 16) : ByteMemory :=
  m.write a [value.setWidth 8, (value >>> 8).setWidth 8]

/-- `tfm_core_validate_boot_data`: whether `is_boot_data_valid` becomes `BOOT_DATA_VALID`. -/
def tfmCoreValidateBootData (P : Platform) (m : ByteMemory) : Bool :=
  load16 m P.base = sharedDataTlvInfoMagic

/-- `tfm_core_check_boot_data_access_policy`.  The first element of the table is not looked at. -/
def tfmCoreCheckBootDataAccessPolicy (P : Platform) (majorType : BitVec 8) : ℤ :=
  if P.accessPolicyTable.tail.any fun x ↦
    P.partitionId = x.1 ∧ majorType.setWidth 32 = x.2 then 0 else -1

/-- The arguments of the handler. -/
structure Args where
  /-- The major type. -/
  arg0 : Word
  /-- The buffer. -/
  arg1 : Word
  /-- The size of the buffer. -/
  arg2 : Word

/-- `tlv_major`. -/
def Args.tlvMajor (args : Args) : BitVec 8 := args.arg0.setWidth 8

/-- `buf_start`. -/
def Args.bufStart (args : Args) : Word := args.arg1

/-- `buf_size`. -/
def Args.bufSize (args : Args) : BitVec 16 := args.arg2.setWidth 16

/-- What the handler leaves behind. -/
structure Result where
  /-- `args[0]`. -/
  status : ℤ
  /-- Memory. -/
  memory : ByteMemory
  /-- What has been read of the boot data: start address and size of each read. -/
  reads : List (Word × ℕ)

/-- `GET_MAJOR`. -/
def getMajor (tlvType : BitVec 16) : BitVec 16 := tlvType >>> 12

/-- `tlv_end`. -/
def tlvEnd (P : Platform) (m : ByteMemory) : Word :=
  P.base + (load16 m (P.base + 2)).setWidth 32

/-- The loop of `tfm_core_get_boot_data_handler`.  There is no result when the fuel runs out. -/
def copyLoop (args : Args) (stop : Word) :
    ℕ → ByteMemory → List (Word × ℕ) → Word → Word → Option Result
  | fuel, m, reads, offset, ptr =>
      if offset < stop then
        match fuel with
        | 0 => none
        | fuel + 1 =>
            let tlvType := load16 m offset
            let tlvLen := load16 m (offset + 2)
            let reads := reads ++ [(offset, 4)]
            let nextTlvOffset : Word := 4 + tlvLen.setWidth 32
            if getMajor tlvType = args.tlvMajor.setWidth 16 then
              -- check buffer overflow
              if args.bufSize.setWidth 32 < (ptr - args.bufStart) + nextTlvOffset then
                some ⟨psaErrorInvalidArgument, m, reads⟩
              else
                let m := m.write ptr (m.read offset nextTlvOffset.toNat)
                let totLen := load16 m (args.bufStart + 2)
                let m := store16 m (args.bufStart + 2) (totLen + nextTlvOffset.setWidth 16)
                copyLoop args stop fuel m (reads ++ [(offset, nextTlvOffset.toNat)])
                  (offset + nextTlvOffset) (ptr + nextTlvOffset)
            else copyLoop args stop fuel m reads (offset + nextTlvOffset) ptr
      else some ⟨psaSuccess, m, reads⟩

/-- `tfm_core_get_boot_data_handler`. -/
def tfmCoreGetBootDataHandler (P : Platform) (isBootDataValid : Bool) (fuel : ℕ) (m : ByteMemory)
    (args : Args) : Option Result :=
  if !P.memoryCheck args.bufStart args.bufSize.toNat then some ⟨psaErrorInvalidArgument, m, []⟩
  else if !isBootDataValid then some ⟨psaErrorInvalidArgument, m, []⟩
  else if tfmCoreCheckBootDataAccessPolicy P args.tlvMajor ≠ 0 then
    some ⟨psaErrorInvalidArgument, m, []⟩
  else
    let stop := tlvEnd P m
    let reads := [(P.base + 2, 2)]
    if args.bufSize < 4 then some ⟨psaErrorInvalidArgument, m, reads⟩
    else
      let m := store16 m args.bufStart sharedDataTlvInfoMagic
      let m := store16 m (args.bufStart + 2) 4
      copyLoop args stop fuel m reads (P.base + 4) (args.bufStart + 4)

/-- An entry of the boot data. -/
structure Entry where
  /-- Offset of the entry in the area. -/
  offset : ℕ
  /-- `tlv_type`. -/
  tlvType : BitVec 16
  /-- `tlv_len`. -/
  tlvLen : BitVec 16
  deriving DecidableEq

/-- `next_tlv_offset`: the size of an entry with its header. -/
def Entry.size (e : Entry) : ℕ := 4 + e.tlvLen.toNat

/-- The entry has a major type. -/
def Entry.is (major : BitVec 8) (e : Entry) : Bool := getMajor e.tlvType = major.setWidth 16

/-- The entry at an offset. -/
def entryAt (P : Platform) (m : ByteMemory) (offset : ℕ) : Entry :=
  let a := P.base + BitVec.ofNat 32 offset
  ⟨offset, load16 m a, load16 m (a + 2)⟩

/-- `tlv_tot_len` of the boot data. -/
def totLen (P : Platform) (m : ByteMemory) : ℕ := (load16 m (P.base + 2)).toNat

/-- The entries from an offset on.  Each has a header, so the total length is enough fuel. -/
def entriesFrom (P : Platform) (m : ByteMemory) : ℕ → ℕ → List Entry
  | 0, _ => []
  | fuel + 1, offset =>
      if offset < totLen P m then
        entryAt P m offset :: entriesFrom P m fuel (offset + (entryAt P m offset).size)
      else []

/-- The entries of the boot data, in their order. -/
def entries (P : Platform) (m : ByteMemory) : List Entry := entriesFrom P m (totLen P m) 4

/-- The bytes of an entry, with its header. -/
def Entry.bytes (P : Platform) (m : ByteMemory) (e : Entry) : List (BitVec 8) :=
  m.read (P.base + BitVec.ofNat 32 e.offset) e.size

/-- The entries of a major type, one behind the other. -/
def selected (P : Platform) (m : ByteMemory) (major : BitVec 8) (es : List Entry) :
    List (BitVec 8) :=
  (es.filter (Entry.is major)).flatMap (Entry.bytes P m)

/-- What the handler reads of the entries is in the area: the header of each one, and all of it when
it has the major type and the buffer has room for it.  Without room, the handler fails. -/
def Contained (size bufSize : ℕ) (major : BitVec 8) : ℕ → List Entry → Prop
  | _, [] => True
  | written, e :: es =>
      e.offset + 4 ≤ size ∧
        if e.is major then
          written + e.size ≤ bufSize →
            e.offset + e.size ≤ size ∧ Contained size bufSize major (written + e.size) es
        else Contained size bufSize major written es

/-- No byte of an entry that is in the area is also in the buffer.  A privileged partition may write
to the boot data, so this is not checked. -/
def Apart (P : Platform) (args : Args) (es : List Entry) : Prop :=
  ∀ e ∈ es, ∀ i, e.offset ≤ i → i < e.offset + e.size → i < P.size →
    args.bufSize.toNat ≤ (P.base + BitVec.ofNat 32 i - args.bufStart).toNat

/-- The handler has no reason to fail before it goes through the entries. -/
structure Accepted (P : Platform) (m : ByteMemory) (args : Args) : Prop where
  /-- The partition may read and write its buffer. -/
  memoryCheck : P.memoryCheck args.bufStart args.bufSize.toNat = true
  /-- The boot data has been accepted at boot. -/
  valid : tfmCoreValidateBootData P m = true
  /-- The partition may have the major type. -/
  policy : tfmCoreCheckBootDataAccessPolicy P args.tlvMajor = 0
  /-- The buffer has room for a header. -/
  header : 4 ≤ args.bufSize.toNat

/-- Reads that stay in the area of the boot data. -/
def ReadsInside (P : Platform) (reads : List (Word × ℕ)) : Prop :=
  ∀ x ∈ reads, P.base.toNat ≤ x.1.toNat ∧ x.1.toNat + x.2 ≤ P.base.toNat + P.size

/-- Memory that differs in the buffer only. -/
def WritesInside (args : Args) (m memory : ByteMemory) : Prop :=
  ∀ a, args.bufSize.toNat ≤ (a - args.bufStart).toNat → memory a = m a

/-- The buffer has a header and the entries of the major type. -/
structure Filtered (P : Platform) (m : ByteMemory) (args : Args) (memory : ByteMemory) : Prop where
  /-- `tlv_magic`. -/
  magic : load16 memory args.bufStart = sharedDataTlvInfoMagic
  /-- `tlv_tot_len` counts what has been written. -/
  totLen : (load16 memory (args.bufStart + 2)).toNat =
    4 + (selected P m args.tlvMajor (entries P m)).length
  /-- The entries are behind the header. -/
  copied : memory.read (args.bufStart + 4) (selected P m args.tlvMajor (entries P m)).length =
    selected P m args.tlvMajor (entries P m)

/-- What is asked of `tfm_core_get_boot_data_handler`. -/
structure BootDataSafe (P : Platform) (m : ByteMemory) (args : Args) : Prop where
  /-- The loop ends, with at most one round for each four bytes that a total length can count. -/
  terminates : ∀ fuel ≥ 2 ^ 14,
    (tfmCoreGetBootDataHandler P (tfmCoreValidateBootData P m) fuel m args).isSome
  /-- Only the boot data is read. -/
  readsInside : ∀ fuel r,
    tfmCoreGetBootDataHandler P (tfmCoreValidateBootData P m) fuel m args = some r →
      ReadsInside P r.reads
  /-- Only the buffer is written. -/
  writesInside : ∀ fuel r,
    tfmCoreGetBootDataHandler P (tfmCoreValidateBootData P m) fuel m args = some r →
      WritesInside args m r.memory
  /-- Success leaves the entries of the major type in the buffer. -/
  filtered : ∀ fuel r,
    tfmCoreGetBootDataHandler P (tfmCoreValidateBootData P m) fuel m args = some r →
      r.status = psaSuccess → Filtered P m args r.memory

variable {P : Platform} {args : Args} {fuel : ℕ} {m m' : ByteMemory} {reads : List (Word × ℕ)}
  {offset ptr stop : Word} {r : Result}

section Memory

variable {base : Word} {bytes : List (BitVec 8)} {value : BitVec 16}

theorem load16_congr {a : Word} (same : m'.read a 2 = m.read a 2) : load16 m' a = load16 m a := by
  simp only [ByteMemory.read, List.range_succ, List.range_zero, List.nil_append, List.map_cons,
    List.map_nil, List.cons_append, List.cons.injEq] at same
  obtain ⟨low, high, -⟩ := same
  have low : m' a = m a := by simpa using low
  have high : m' (a + 1) = m (a + 1) := high
  rw [load16, load16, low, high]

@[simp] theorem load16_store16 {a : Word} : load16 (store16 m a value) a = value := by
  have low : store16 m a value a = value.setWidth 8 := by
    simp [store16, ByteMemory.write]
  have high : store16 m a value (a + 1) = (value >>> 8).setWidth 8 := by
    simp [store16, ByteMemory.write]
  rw [load16, low, high]
  ext i i_lt
  simp only [BitVec.getElem_append, BitVec.getElem_setWidth, BitVec.getLsbD_ushiftRight]
  by_cases small : i < 8
  · simp [small, BitVec.getLsbD_eq_getElem i_lt]
  · simp [small, BitVec.getLsbD_eq_getElem i_lt, show 8 + (i - 8) = i by omega]

theorem load16_write_apart {i j : ℕ} (apart : i + 2 ≤ j ∨ j + bytes.length ≤ i)
    (i_le : i + 2 ≤ 2 ^ 32) (j_le : j + bytes.length ≤ 2 ^ 32) :
    load16 (m.write (base + BitVec.ofNat 32 j) bytes) (base + BitVec.ofNat 32 i) =
      load16 m (base + BitVec.ofNat 32 i) :=
  load16_congr (ByteMemory.read_write_apart apart i_le j_le)

theorem load16_write_behind {j : ℕ} (behind : 2 ≤ j) (j_le : j + bytes.length ≤ 2 ^ 32) :
    load16 (m.write (base + BitVec.ofNat 32 j) bytes) base = load16 m base := by
  have apart : load16 (m.write (base + BitVec.ofNat 32 j) bytes) (base + BitVec.ofNat 32 0) =
      load16 m (base + BitVec.ofNat 32 0) := load16_write_apart (Or.inl behind) (by omega) j_le
  simpa using apart

end Memory

section Loop

theorem nextTlvOffset_toNat (tlvLen : BitVec 16) :
    (4 + tlvLen.setWidth 32 : Word).toNat = 4 + tlvLen.toNat := by
  bv_omega

theorem ofNat_size (e : Entry) :
    (4 + e.tlvLen.setWidth 32 : Word) = BitVec.ofNat 32 e.size := by
  apply BitVec.eq_of_toNat_eq
  rw [nextTlvOffset_toNat, BitVec.toNat_ofNat, Entry.size]
  have := e.tlvLen.isLt
  omega

/-- No address of an entry or right behind one wraps around. -/
theorem base_add_toNat (P : Platform) {o : ℕ} (o_lt : o < 2 ^ 18) :
    (P.base + BitVec.ofNat 32 o).toNat = P.base.toNat + o := by
  have := P.fits
  bv_omega

theorem totLen_lt (P : Platform) (m : ByteMemory) : totLen P m < 2 ^ 16 :=
  (load16 m (P.base + 2)).isLt

theorem tlvEnd_toNat (P : Platform) (m : ByteMemory) :
    (tlvEnd P m).toNat = P.base.toNat + totLen P m := by
  have := P.fits
  have := totLen_lt P m
  rw [totLen] at this ⊢
  rw [tlvEnd]
  bv_omega

theorem size_lt (e : Entry) : e.size < 2 ^ 16 + 4 := by
  have := e.tlvLen.isLt
  rw [Entry.size]
  omega

/-- Memory after the entry at an offset has been copied behind what has been written. -/
def copyEntry (P : Platform) (args : Args) (m : ByteMemory) (o written : ℕ) : ByteMemory :=
  let e := entryAt P m o
  let m := m.write (args.bufStart + BitVec.ofNat 32 written) (e.bytes P m)
  store16 m (args.bufStart + 2) (load16 m (args.bufStart + 2) + BitVec.ofNat 16 e.size)

/-- A read of the boot data. -/
def readAt (P : Platform) (o len : ℕ) : Word × ℕ := (P.base + BitVec.ofNat 32 o, len)

variable {m₀ : ByteMemory} {o written : ℕ}

theorem lt_tlvEnd_iff (o_lt : o < 2 ^ 18) :
    P.base + BitVec.ofNat 32 o < tlvEnd P m₀ ↔ o < totLen P m₀ := by
  rw [BitVec.lt_def, base_add_toNat P o_lt, tlvEnd_toNat]
  omega

theorem copyLoop_of_le (le : totLen P m₀ ≤ o) (o_lt : o < 2 ^ 18) :
    copyLoop args (tlvEnd P m₀) fuel m reads (P.base + BitVec.ofNat 32 o) ptr =
      some ⟨psaSuccess, m, reads⟩ := by
  have stopped : ¬P.base + BitVec.ofNat 32 o < tlvEnd P m₀ := by
    rw [lt_tlvEnd_iff o_lt]
    omega
  unfold copyLoop
  rw [if_neg stopped]

/-- One round of the loop, in terms of offsets. -/
theorem copyLoop_of_lt (lt : o < totLen P m₀) (written_le : written ≤ args.bufSize.toNat) :
    copyLoop args (tlvEnd P m₀) (fuel + 1) m reads (P.base + BitVec.ofNat 32 o)
        (args.bufStart + BitVec.ofNat 32 written) =
      if (entryAt P m o).is args.tlvMajor then
        if args.bufSize.toNat < written + (entryAt P m o).size then
          some ⟨psaErrorInvalidArgument, m, reads ++ [readAt P o 4]⟩
        else copyLoop args (tlvEnd P m₀) fuel (copyEntry P args m o written)
          (reads ++ [readAt P o 4] ++ [readAt P o (entryAt P m o).size])
          (P.base + BitVec.ofNat 32 (o + (entryAt P m o).size))
          (args.bufStart + BitVec.ofNat 32 (written + (entryAt P m o).size))
      else copyLoop args (tlvEnd P m₀) fuel m (reads ++ [readAt P o 4])
        (P.base + BitVec.ofNat 32 (o + (entryAt P m o).size))
        (args.bufStart + BitVec.ofNat 32 written) := by
  have o_lt : o < 2 ^ 18 := lt.trans ((totLen_lt P m₀).trans (by decide))
  have size_lt := size_lt (entryAt P m o)
  have len : (load16 m (P.base + BitVec.ofNat 32 o + 2)).setWidth 32 =
      (entryAt P m o).tlvLen.setWidth 32 := rfl
  have exceeds : args.bufSize.setWidth 32 < args.bufStart + BitVec.ofNat 32 written -
      args.bufStart + BitVec.ofNat 32 (entryAt P m o).size ↔
      args.bufSize.toNat < written + (entryAt P m o).size := by
    have := args.bufSize.isLt
    bv_omega
  rw [copyLoop, if_pos ((lt_tlvEnd_iff o_lt).2 lt)]
  simp only [len, ofNat_size, exceeds, Entry.is, decide_eq_true_eq]
  have type : load16 m (P.base + BitVec.ofNat 32 o) = (entryAt P m o).tlvType := rfl
  have toNat : (BitVec.ofNat 32 (entryAt P m o).size).toNat = (entryAt P m o).size := by
    bv_omega
  have low : (BitVec.ofNat 32 (entryAt P m o).size).setWidth 16 =
      BitVec.ofNat 16 (entryAt P m o).size := by
    simp
  rw [type, toNat, low, BitVec.add_assoc, BitVec.add_assoc, ← BitVec.ofNat_add, ← BitVec.ofNat_add]
  rfl

/-- What each round keeps, and what it gives when the loop ends. -/
structure LoopInvariant (P : Platform) (m₀ : ByteMemory) (args : Args)
    (Inv : ByteMemory → List (Word × ℕ) → ℕ → ℕ → Prop) (Post : Result → Prop) : Prop where
  /-- The loop ends. -/
  done : ∀ m reads o written, Inv m reads o written → totLen P m₀ ≤ o →
    Post ⟨psaSuccess, m, reads⟩
  /-- The buffer has no room. -/
  exceeds : ∀ m reads o written, Inv m reads o written → o < totLen P m₀ →
    (entryAt P m o).is args.tlvMajor → args.bufSize.toNat < written + (entryAt P m o).size →
      Post ⟨psaErrorInvalidArgument, m, reads ++ [readAt P o 4]⟩
  /-- An entry is copied. -/
  copied : ∀ m reads o written, Inv m reads o written → o < totLen P m₀ →
    (entryAt P m o).is args.tlvMajor → written + (entryAt P m o).size ≤ args.bufSize.toNat →
      Inv (copyEntry P args m o written)
        (reads ++ [readAt P o 4] ++ [readAt P o (entryAt P m o).size])
        (o + (entryAt P m o).size) (written + (entryAt P m o).size)
  /-- An entry is skipped. -/
  skipped : ∀ m reads o written, Inv m reads o written → o < totLen P m₀ →
    (entryAt P m o).is args.tlvMajor = false →
      Inv m (reads ++ [readAt P o 4]) (o + (entryAt P m o).size) written

/-- What holds at the end of the loop, by induction on its rounds. -/
theorem LoopInvariant.post {Inv : ByteMemory → List (Word × ℕ) → ℕ → ℕ → Prop}
    {Post : Result → Prop} (invariant : LoopInvariant P m₀ args Inv Post)
    (inv : Inv m reads o written) (o_lt : o < 2 ^ 18) (written_le : written ≤ args.bufSize.toNat)
    (result : copyLoop args (tlvEnd P m₀) fuel m reads (P.base + BitVec.ofNat 32 o)
      (args.bufStart + BitVec.ofNat 32 written) = some r) : Post r := by
  induction fuel generalizing m reads o written with
  | zero =>
      rcases Nat.lt_or_ge o (totLen P m₀) with lt | le
      · rw [copyLoop, if_pos ((lt_tlvEnd_iff o_lt).2 lt)] at result
        cases result
      · rw [copyLoop_of_le le o_lt] at result
        cases result
        exact invariant.done m reads o written inv le
  | succ fuel ih =>
      rcases Nat.lt_or_ge o (totLen P m₀) with lt | le
      · rw [copyLoop_of_lt lt written_le] at result
        have size_lt := size_lt (entryAt P m o)
        have next_lt : o + (entryAt P m o).size < 2 ^ 18 := by
          have := totLen_lt P m₀
          omega
        split_ifs at result with is exceeds
        · cases result
          exact invariant.exceeds m reads o written inv lt is exceeds
        · have fits := Nat.not_lt.1 exceeds
          exact ih (invariant.copied m reads o written inv lt is fits) next_lt fits result
        · have skipped := invariant.skipped m reads o written inv lt (Bool.eq_false_iff.2 is)
          exact ih skipped next_lt written_le result
      · rw [copyLoop_of_le le o_lt] at result
        cases result
        exact invariant.done m reads o written inv le

end Loop

section Writes

variable {m₀ : ByteMemory} {o written : ℕ}

theorem length_bytes (P : Platform) (m : ByteMemory) (e : Entry) :
    (e.bytes P m).length = e.size := by
  simp [Entry.bytes]

/-- An entry that the buffer has room for is copied into the buffer. -/
theorem copyEntry_outside {a : Word} (header : 4 ≤ args.bufSize.toNat)
    (fits : written + (entryAt P m o).size ≤ args.bufSize.toNat)
    (outside : args.bufSize.toNat ≤ (a - args.bufStart).toNat) :
    copyEntry P args m o written a = m a := by
  rw [copyEntry, store16]
  rw [show args.bufStart + 2 = args.bufStart + BitVec.ofNat 32 2 from rfl,
    ByteMemory.write_outside (by simpa using header) outside,
    ByteMemory.write_outside (by rw [length_bytes]; exact fits) outside]

end Writes

section Rest

variable {m₀ : ByteMemory} {o written : ℕ}

/-- The entries from an offset on. -/
def rest (P : Platform) (m : ByteMemory) (o : ℕ) : List Entry :=
  entriesFrom P m (totLen P m - o) o

theorem entriesFrom_congr {n k : ℕ} (n_le : totLen P m ≤ o + n) (k_le : totLen P m ≤ o + k) :
    entriesFrom P m n o = entriesFrom P m k o := by
  induction n generalizing o k with
  | zero =>
      cases k with
      | zero => rfl
      | succ k =>
          rw [entriesFrom, entriesFrom, if_neg (by omega)]
  | succ n ih =>
      cases k with
      | zero => rw [entriesFrom, entriesFrom, if_neg (by omega)]
      | succ k =>
          rw [entriesFrom, entriesFrom]
          have size_pos : 0 < (entryAt P m o).size := by
            rw [Entry.size]
            omega
          rw [ih (k := k) (by omega) (by omega)]

theorem entries_eq (P : Platform) (m : ByteMemory) : entries P m = rest P m 4 :=
  entriesFrom_congr (by omega) (by omega)

theorem rest_of_le (le : totLen P m ≤ o) : rest P m o = [] := by
  rw [rest, entriesFrom_congr (k := 0) (by omega) (by omega), entriesFrom]

theorem rest_of_lt (lt : o < totLen P m) :
    rest P m o = entryAt P m o :: rest P m (o + (entryAt P m o).size) := by
  have size_pos : 0 < (entryAt P m o).size := by
    rw [Entry.size]
    omega
  rw [rest, rest, entriesFrom_congr (k := totLen P m - o - 1 + 1) (by omega) (by omega),
    entriesFrom, if_pos lt]
  congr 1
  apply entriesFrom_congr <;> omega

end Rest

section Area

variable {m₀ : ByteMemory} {o written : ℕ}

/-- The bytes of an entry that are in the area are as they were. -/
def EntryKept (P : Platform) (m₀ m : ByteMemory) (e : Entry) : Prop :=
  ∀ i, e.offset ≤ i → i < e.offset + e.size → i < P.size →
    m (P.base + BitVec.ofNat 32 i) = m₀ (P.base + BitVec.ofNat 32 i)

theorem entryKept_of_writesInside {es : List Entry} {e : Entry} (apart : Apart P args es)
    (inside : WritesInside args m₀ m) (mem : e ∈ es) : EntryKept P m₀ m e :=
  fun i from_start to_end in_area ↦ inside _ (apart e mem i from_start to_end in_area)

theorem EntryKept.read_eq {e : Entry} (kept : EntryKept P m₀ m e) (o len : ℕ)
    (from_start : e.offset ≤ o) (to_end : o + len ≤ e.offset + e.size) (inside : o + len ≤ P.size) :
    m.read (P.base + BitVec.ofNat 32 o) len = m₀.read (P.base + BitVec.ofNat 32 o) len := by
  apply ByteMemory.read_congr
  intro i i_lt
  have same := kept (o + i) (by omega) (by omega) (by omega)
  rwa [BitVec.ofNat_add, ← BitVec.add_assoc] at same

theorem EntryKept.entryAt_eq (kept : EntryKept P m₀ m (entryAt P m₀ o)) (inside : o + 4 ≤ P.size) :
    entryAt P m o = entryAt P m₀ o := by
  have header : 4 ≤ (entryAt P m₀ o).size := Nat.le_add_right 4 _
  have offset : (entryAt P m₀ o).offset = o := rfl
  have type := load16_congr (kept.read_eq o 2 (by omega) (by omega) (by omega))
  have len := load16_congr (kept.read_eq (o + 2) 2 (by omega) (by omega) (by omega))
  rw [BitVec.ofNat_add, ← BitVec.add_assoc] at len
  simp only [entryAt, type, Entry.mk.injEq, true_and]
  exact len

theorem EntryKept.bytes_eq {e : Entry} (kept : EntryKept P m₀ m e)
    (inside : e.offset + e.size ≤ P.size) : e.bytes P m = e.bytes P m₀ :=
  kept.read_eq e.offset e.size (le_refl _) (le_refl _) inside

theorem Apart.rest {e : Entry} {es : List Entry} (apart : Apart P args (e :: es)) :
    Apart P args es := fun e' mem ↦ apart e' (List.mem_cons_of_mem e mem)

theorem readsInside_append {more : List (Word × ℕ)} :
    ReadsInside P (reads ++ more) ↔ ReadsInside P reads ∧ ReadsInside P more :=
  List.forall_mem_append

theorem readsInside_readAt {len : ℕ} (o_lt : o < 2 ^ 18) :
    ReadsInside P [readAt P o len] ↔ o + len ≤ P.size := by
  simp only [ReadsInside, readAt, List.mem_singleton, forall_eq, base_add_toNat P o_lt]
  omega

theorem contained_of_lt {size bufSize : ℕ} {major : BitVec 8} (lt : o < totLen P m) :
    Contained size bufSize major written (rest P m o) ↔ o + 4 ≤ size ∧
      if (entryAt P m o).is major then
        written + (entryAt P m o).size ≤ bufSize → o + (entryAt P m o).size ≤ size ∧
          Contained size bufSize major (written + (entryAt P m o).size)
            (rest P m (o + (entryAt P m o).size))
      else Contained size bufSize major written (rest P m (o + (entryAt P m o).size)) := by
  rw [rest_of_lt lt]
  rfl

end Area

section Selection

variable {m₀ : ByteMemory} {o written : ℕ}

/-- The bytes that are still to come when the loop is at an offset. -/
def pending (P : Platform) (m : ByteMemory) (major : BitVec 8) (o : ℕ) : List (BitVec 8) :=
  selected P m major (rest P m o)

theorem pending_of_is {major : BitVec 8} (lt : o < totLen P m) (is : (entryAt P m o).is major) :
    pending P m major o =
      (entryAt P m o).bytes P m ++ pending P m major (o + (entryAt P m o).size) := by
  rw [pending, pending, rest_of_lt lt, selected, selected, List.filter_cons_of_pos is,
    List.flatMap_cons]

theorem pending_of_not_is {major : BitVec 8} (lt : o < totLen P m)
    (is : (entryAt P m o).is major = false) :
    pending P m major o = pending P m major (o + (entryAt P m o).size) := by
  rw [pending, pending, rest_of_lt lt, selected, selected,
    List.filter_cons_of_neg (Bool.eq_false_iff.1 is)]

/-- The loop while it stays in the area. -/
structure Copying (P : Platform) (m₀ : ByteMemory) (args : Args) (m : ByteMemory)
    (reads : List (Word × ℕ)) (o written : ℕ) : Prop where
  /-- Only the boot data has been read. -/
  readsInside : ReadsInside P reads
  /-- Only the buffer has been written. -/
  writesInside : WritesInside args m₀ m
  /-- What is still to be read is in the area. -/
  contained : Contained P.size args.bufSize.toNat args.tlvMajor written (rest P m₀ o)
  /-- It is not in the buffer. -/
  apart : Apart P args (rest P m₀ o)
  /-- The offset is behind an entry that began in the area. -/
  offset_lt : o < 2 ^ 18
  /-- The buffer has room for what has been written. -/
  written_le : written ≤ args.bufSize.toNat
  /-- `tlv_magic`. -/
  magic : load16 m args.bufStart = sharedDataTlvInfoMagic
  /-- `tlv_tot_len`. -/
  totLen : load16 m (args.bufStart + 2) = BitVec.ofNat 16 written
  /-- What has been written are the entries in front of the offset. -/
  copied : ∃ before, written = 4 + before.length ∧
    m.read (args.bufStart + 4) before.length = before ∧
    selected P m₀ args.tlvMajor (entries P m₀) = before ++ pending P m₀ args.tlvMajor o

section CopyEntry

variable (fits : written + (entryAt P m o).size ≤ args.bufSize.toNat)
include fits

theorem magic_copyEntry (header : 4 ≤ written) :
    load16 (copyEntry P args m o written) args.bufStart = load16 m args.bufStart := by
  have bufSize_lt := args.bufSize.isLt
  have field : args.bufStart + 2 = args.bufStart + BitVec.ofNat 32 2 := rfl
  rw [copyEntry, store16, field, load16_write_behind (le_refl 2) (by simp),
    load16_write_behind (by omega) (by rw [length_bytes]; omega)]

theorem totLen_copyEntry (header : 4 ≤ written) :
    load16 (copyEntry P args m o written) (args.bufStart + 2) =
      load16 m (args.bufStart + 2) + BitVec.ofNat 16 (entryAt P m o).size := by
  have bufSize_lt := args.bufSize.isLt
  have field : args.bufStart + 2 = args.bufStart + BitVec.ofNat 32 2 := rfl
  rw [copyEntry, load16_store16, field,
    load16_write_apart (Or.inl header) (by omega) (by rw [length_bytes]; omega)]

theorem read_copyEntry {n : ℕ} (written_eq : written = 4 + n) :
    (copyEntry P args m o written).read (args.bufStart + 4) (n + (entryAt P m o).size) =
      m.read (args.bufStart + 4) n ++ (entryAt P m o).bytes P m := by
  subst written_eq
  have bufSize_lt := args.bufSize.isLt
  have field : args.bufStart + 2 = args.bufStart + BitVec.ofNat 32 2 := rfl
  have data : args.bufStart + 4 = args.bufStart + BitVec.ofNat 32 4 := rfl
  have length := length_bytes P m (entryAt P m o)
  rw [copyEntry, store16, ByteMemory.read_add, field, data, BitVec.add_assoc, ← BitVec.ofNat_add]
  congr 1
  · rw [ByteMemory.read_write_apart (Or.inr (by simp)) (by omega) (by simp),
      ByteMemory.read_write_apart (Or.inl (by omega)) (by omega) (by omega)]
  · rw [ByteMemory.read_write_apart (Or.inr (by simp)) (by omega) (by simp)]
    have self : (m.write (args.bufStart + BitVec.ofNat 32 (4 + n)) ((entryAt P m o).bytes P m)).read
        (args.bufStart + BitVec.ofNat 32 (4 + n)) ((entryAt P m o).bytes P m).length =
          (entryAt P m o).bytes P m := ByteMemory.read_write_self (by omega)
    rwa [length] at self

end CopyEntry

theorem Copying.entryKept (copying : Copying P m₀ args m reads o written)
    (lt : o < BootData.totLen P m₀) : EntryKept P m₀ m (entryAt P m₀ o) := by
  apply entryKept_of_writesInside copying.apart copying.writesInside
  rw [rest_of_lt lt]
  exact List.mem_cons_self

theorem Copying.entryAt_eq (copying : Copying P m₀ args m reads o written)
    (lt : o < BootData.totLen P m₀) : o + 4 ≤ P.size ∧ entryAt P m o = entryAt P m₀ o := by
  have inside := ((contained_of_lt lt).1 copying.contained).1
  exact ⟨inside, (copying.entryKept lt).entryAt_eq inside⟩

theorem Copying.apart_rest (copying : Copying P m₀ args m reads o written)
    (lt : o < BootData.totLen P m₀) : Apart P args (rest P m₀ (o + (entryAt P m₀ o).size)) := by
  have apart := copying.apart
  rw [rest_of_lt lt] at apart
  exact apart.rest

theorem Copying.skip (copying : Copying P m₀ args m reads o written) (lt : o < BootData.totLen P m₀)
    (is : (entryAt P m o).is args.tlvMajor = false) :
    Copying P m₀ args m (reads ++ [readAt P o 4]) (o + (entryAt P m o).size) written := by
  obtain ⟨inside, same⟩ := copying.entryAt_eq lt
  rw [same] at is ⊢
  have contained := ((contained_of_lt lt).1 copying.contained).2
  rw [if_neg (Bool.eq_false_iff.1 is)] at contained
  obtain ⟨before, written_eq, read_eq, selected_eq⟩ := copying.copied
  have size_lt := size_lt (entryAt P m₀ o)
  have totLen_lt := totLen_lt P m₀
  constructor
  · exact readsInside_append.2 ⟨copying.readsInside,
      (readsInside_readAt copying.offset_lt).2 inside⟩
  · exact copying.writesInside
  · exact contained
  · exact copying.apart_rest lt
  · omega
  · exact copying.written_le
  · exact copying.magic
  · exact copying.totLen
  · exact ⟨before, written_eq, read_eq, by rw [selected_eq, pending_of_not_is lt is]⟩

theorem Copying.copy (accepted : Accepted P m₀ args)
    (copying : Copying P m₀ args m reads o written) (lt : o < BootData.totLen P m₀)
    (is : (entryAt P m o).is args.tlvMajor)
    (fits : written + (entryAt P m o).size ≤ args.bufSize.toNat) :
    Copying P m₀ args (copyEntry P args m o written)
      (reads ++ [readAt P o 4] ++ [readAt P o (entryAt P m o).size])
      (o + (entryAt P m o).size) (written + (entryAt P m o).size) := by
  obtain ⟨before, written_eq, read_eq, selected_eq⟩ := copying.copied
  have header : 4 ≤ written := by omega
  have magic := (magic_copyEntry fits header).trans copying.magic
  have totLen := totLen_copyEntry fits header
  have read := read_copyEntry fits written_eq
  have kept := copying.entryKept lt
  obtain ⟨inside, same⟩ := copying.entryAt_eq lt
  have writes : WritesInside args m₀ (copyEntry P args m o written) := by
    intro a outside
    rw [copyEntry_outside accepted.header fits outside, copying.writesInside a outside]
  rw [same] at is fits totLen read ⊢
  have contained := ((contained_of_lt lt).1 copying.contained).2
  rw [if_pos is] at contained
  obtain ⟨all_inside, contained⟩ := contained fits
  have bytes := kept.bytes_eq all_inside
  have size_lt := size_lt (entryAt P m₀ o)
  have totLen_lt := totLen_lt P m₀
  constructor
  · have header_inside := (readsInside_readAt (P := P) copying.offset_lt).2 inside
    have entry_inside := (readsInside_readAt (P := P) copying.offset_lt).2 all_inside
    exact readsInside_append.2
      ⟨readsInside_append.2 ⟨copying.readsInside, header_inside⟩, entry_inside⟩
  · exact writes
  · exact contained
  · exact copying.apart_rest lt
  · omega
  · exact fits
  · exact magic
  · rw [totLen, copying.totLen, BitVec.ofNat_add]
  · have length := length_bytes P m₀ (entryAt P m₀ o)
    use before ++ (entryAt P m₀ o).bytes P m₀
    rw [List.length_append, length]
    constructor
    · omega
    constructor
    · rw [read, read_eq, bytes]
    · rw [selected_eq, pending_of_is lt is, List.append_assoc]

end Selection

section Straying

variable {m₀ : ByteMemory} {o written : ℕ}

/-- The loop has read outside of the area, or it will. -/
def Straying (P : Platform) (m₀ : ByteMemory) (args : Args) (m : ByteMemory)
    (reads : List (Word × ℕ)) (o written : ℕ) : Prop :=
  ReadsInside P reads → WritesInside args m₀ m ∧ o < 2 ^ 18 ∧ Apart P args (rest P m₀ o) ∧
    ¬Contained P.size args.bufSize.toNat args.tlvMajor written (rest P m₀ o)

theorem entryKept_of_lt (lt : o < totLen P m₀) (apart : Apart P args (rest P m₀ o))
    (writes : WritesInside args m₀ m) :
    EntryKept P m₀ m (entryAt P m₀ o) ∧ Apart P args (rest P m₀ (o + (entryAt P m₀ o).size)) := by
  rw [rest_of_lt lt] at apart
  exact ⟨entryKept_of_writesInside apart writes List.mem_cons_self, apart.rest⟩

theorem straying_invariant (accepted : Accepted P m₀ args) :
    LoopInvariant P m₀ args (Straying P m₀ args) (fun r ↦ ¬ReadsInside P r.reads) where
  done := by
    intro m reads o written straying le inside
    have outside := (straying inside).2.2.2
    rw [rest_of_le le] at outside
    exact outside trivial
  exceeds := by
    intro m reads o written straying lt is exceeds inside
    obtain ⟨before, header⟩ := readsInside_append.1 inside
    obtain ⟨writes, o_lt, apart, outside⟩ := straying before
    rw [readsInside_readAt o_lt] at header
    rw [(entryKept_of_lt lt apart writes).1.entryAt_eq header] at is exceeds
    apply outside
    rw [contained_of_lt lt, if_pos is]
    exact ⟨header, fun fits ↦ absurd fits (Nat.not_le.2 exceeds)⟩
  copied := by
    intro m reads o written straying lt is fits inside
    obtain ⟨before, entry⟩ := readsInside_append.1 inside
    obtain ⟨before, header⟩ := readsInside_append.1 before
    obtain ⟨writes, o_lt, apart, outside⟩ := straying before
    rw [readsInside_readAt o_lt] at header entry
    obtain ⟨kept, apart⟩ := entryKept_of_lt lt apart writes
    have same := kept.entryAt_eq header
    have writes' : WritesInside args m₀ (copyEntry P args m o written) := by
      intro a outside
      rw [copyEntry_outside accepted.header fits outside, writes a outside]
    rw [same] at is fits entry ⊢
    have size_lt := size_lt (entryAt P m₀ o)
    have totLen_lt := totLen_lt P m₀
    refine ⟨writes', by omega, apart, fun contained ↦ outside ?_⟩
    rw [contained_of_lt lt, if_pos is]
    exact ⟨header, fun _ ↦ ⟨entry, contained⟩⟩
  skipped := by
    intro m reads o written straying lt is inside
    obtain ⟨before, header⟩ := readsInside_append.1 inside
    obtain ⟨writes, o_lt, apart, outside⟩ := straying before
    rw [readsInside_readAt o_lt] at header
    obtain ⟨kept, apart⟩ := entryKept_of_lt lt apart writes
    rw [kept.entryAt_eq header] at is ⊢
    have size_lt := size_lt (entryAt P m₀ o)
    have totLen_lt := totLen_lt P m₀
    refine ⟨writes, by omega, apart, fun contained ↦ outside ?_⟩
    rw [contained_of_lt lt, if_neg (Bool.eq_false_iff.1 is)]
    exact ⟨header, contained⟩

end Straying

section Handler

/-- Memory with a header in the buffer. -/
def storeHeader (args : Args) (m : ByteMemory) : ByteMemory :=
  store16 (store16 m args.bufStart sharedDataTlvInfoMagic) (args.bufStart + 2) 4

theorem storeHeader_writesInside (header : 4 ≤ args.bufSize.toNat) :
    WritesInside args m (storeHeader args m) := by
  intro a outside
  have start : args.bufStart + BitVec.ofNat 32 0 = args.bufStart := by simp
  have field : args.bufStart + 2 = args.bufStart + BitVec.ofNat 32 2 := rfl
  rw [storeHeader, store16, field,
    ByteMemory.write_outside (by simpa using header) outside, store16]
  nth_rewrite 1 [← start]
  exact ByteMemory.write_outside (by simp; omega) outside

theorem handler_of_accepted (accepted : Accepted P m args) :
    tfmCoreGetBootDataHandler P (tfmCoreValidateBootData P m) fuel m args =
      copyLoop args (tlvEnd P m) fuel (storeHeader args m) [readAt P 2 2]
        (P.base + BitVec.ofNat 32 4) (args.bufStart + BitVec.ofNat 32 4) := by
  have room : ¬args.bufSize < 4 := by
    have := accepted.header
    bv_omega
  rw [tfmCoreGetBootDataHandler, accepted.memoryCheck, accepted.valid, accepted.policy]
  simp only [Bool.not_true, Bool.false_eq_true, if_false, ne_eq, not_true, if_neg room]
  rfl

variable {m₀ : ByteMemory}

/-- Where the buffer is apart from the entries, each one that the handler comes to is in the area if
the handler reads the area only. -/
theorem BootDataSafe.contained (safe : BootDataSafe P m args) (apart : Apart P args (entries P m))
    (accepted : Accepted P m args) :
    Contained P.size args.bufSize.toNat args.tlvMajor 4 (entries P m) := by
  by_contra outside
  obtain ⟨r, result⟩ := Option.isSome_iff_exists.1 (safe.terminates _ (le_refl _))
  have inside := safe.readsInside _ _ result
  rw [handler_of_accepted accepted] at result
  rw [entries_eq] at outside apart
  have straying : Straying P m args (storeHeader args m) [readAt P 2 2] 4 4 :=
    fun _ ↦ ⟨storeHeader_writesInside accepted.header, by decide, apart, outside⟩
  exact (straying_invariant accepted).post straying (by decide) accepted.header result inside

/-- A platform whose boot data has a size of 4096. -/
def samplePlatform : Platform where
  base := 0x34000000
  size := 0x1000
  header_le := by decide
  fits := by decide
  memoryCheck := fun buf len ↦ decide (buf = 0x34002000 ∧ len ≤ 0x1000)
  accessPolicyTable := [(0, 0xF), (0x101, 2)]
  partitionId := 0x101

/-- A total length of 4108, and an entry of the major type 1 that takes the rest of the area.
Behind the area is what looks like an entry of the major type 2. -/
def sampleMemory : ByteMemory :=
  (ByteMemory.write (fun _ ↦ 0) 0x34000000 [0x16, 0x20, 0x0C, 0x10, 0x00, 0x10, 0xF8, 0x0F]).write
    0x34001000 [0x01, 0x20, 0x08, 0x00, 1, 2, 3, 4, 5, 6, 7, 8]

/-- The same platform, for a privileged partition. -/
def privilegedPlatform : Platform := { samplePlatform with memoryCheck := fun _ _ ↦ true }

/-- Two entries of the major type 2 in the area. -/
def overlapMemory : ByteMemory :=
  ByteMemory.write (fun _ ↦ 0) 0x34000000 [0x16, 0x20, 0x14, 0x00, 0x01, 0x20, 0x04,
  0x00, 1, 2, 3, 4,
    0x02, 0x20, 0x04, 0x00, 5, 6, 7, 8]

/-- A request with a buffer that begins at the first entry. -/
def overlapArgs : Args := ⟨2, 0x34000004, 64⟩

/-- A buffer in the boot data loses entries, although all of them are in the area. -/
theorem bootDataSafe_fails_overlap :
    Contained privilegedPlatform.size overlapArgs.bufSize.toNat overlapArgs.tlvMajor 4
      (entries privilegedPlatform overlapMemory) ∧
      ¬BootDataSafe privilegedPlatform overlapMemory overlapArgs := by
  have inArea : entries privilegedPlatform overlapMemory =
      [⟨4, 0x2001, 4⟩, ⟨12, 0x2002, 4⟩] := by decide +kernel
  have length : (selected privilegedPlatform overlapMemory overlapArgs.tlvMajor
      (entries privilegedPlatform overlapMemory)).length = 16 := by decide +kernel
  have run : (tfmCoreGetBootDataHandler privilegedPlatform
      (tfmCoreValidateBootData privilegedPlatform overlapMemory) 3 overlapMemory overlapArgs).map
        (fun r ↦ (r.status, load16 r.memory (overlapArgs.bufStart + 2))) =
          some (psaSuccess, 12) := by
    decide +kernel
  constructor
  · rw [inArea]
    simp only [Contained]
    decide
  · intro safe
    obtain ⟨r, result, observed⟩ := Option.map_eq_some_iff.1 run
    obtain ⟨success, totLen⟩ := Prod.mk.inj observed
    have filtered := safe.filtered _ _ result success
    have counted := filtered.totLen
    rw [totLen, length] at counted
    exact absurd counted (by decide)

end Handler

end TrustedFirmwareM.Spm.BootData
