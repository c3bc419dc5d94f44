import Mathlib.Data.List.Nodup
import Mathlib.Data.List.Perm.Subperm
import TrustedFirmwareM.Spm.BootData

/-!
# Software components in the attestation token

The boot loader leaves boot records among the entries of the boot data, and the attestation service
encodes them as an array.  It goes through the modules, and searches the boot data for each of them.
-/

namespace TrustedFirmwareM.Attestation

open Spm.BootData (sharedDataTlvInfoMagic)

/-- `SW_MAX`. -/
def swMax : ℕ := 7

/-- `SW_BOOT_RECORD`. -/
def swBootRecord : BitVec 8 := 0x3F

/-- `psa_attest_err_t`, as far as it is returned here. -/
inductive PsaAttestErr
  /-- `PSA_ATTEST_ERR_SUCCESS`. -/
  | success
  /-- `PSA_ATTEST_ERR_INVALID_INPUT`. -/
  | invalidInput
  /-- `PSA_ATTEST_ERR_CLAIM_UNAVAILABLE`. -/
  | claimUnavailable
  deriving DecidableEq

/-- `GET_IAS_MODULE`. -/
def getIasModule (tlvType : BitVec 16) : BitVec 16 := (tlvType &&& 0xFFF) >>> 6

/-- `GET_IAS_CLAIM`, as it is stored. -/
def getIasClaim (tlvType : BitVec 16) : BitVec 8 := (tlvType &&& 0x3F).setWidth 8

/-- A little-endian 16-bit field of `boot_data`. -/
def half (data : ℕ → BitVec 8) (offset : ℕ) : BitVec 16 := data (offset + 1) ++ data offset

/-- Bytes of `boot_data`. -/
def readBytes (data : ℕ → BitVec 8) (offset len : ℕ) : List (BitVec 8) :=
  (List.range len).map fun i ↦ data (offset + i)

/-- What `attest_get_tlv_by_module` returns. -/
inductive Lookup
  /-- -1. -/
  | malformed
  /-- 0. -/
  | absent
  /-- 1, with `*claim`, `*tlv_len` and `*tlv_ptr` as an offset in `boot_data`. -/
  | found (claim : BitVec 8) (tlvLen : BitVec 16) (tlvPtr : ℕ)
  deriving DecidableEq

/-- Offset and size of the reads of `boot_data`. -/
abbrev Reads := List (ℕ × ℕ)

/-- The loop of `attest_get_tlv_by_module`.  There is no result when the fuel runs out. -/
def findTlv (data : ℕ → BitVec 8) (module : BitVec 8) (tlvEnd : ℕ) :
    ℕ → ℕ → Reads → Option (Lookup × Reads)
  | fuel, tlvCurr, reads =>
      if tlvCurr < tlvEnd then
        match fuel with
        | 0 => none
        | fuel + 1 =>
            let tlvType := half data tlvCurr
            let tlvLen := half data (tlvCurr + 2)
            let reads := reads ++ [(tlvCurr, 4)]
            if getIasModule tlvType = module.setWidth 16 then
              some (.found (getIasClaim tlvType) tlvLen tlvCurr, reads)
            else findTlv data module tlvEnd fuel (tlvCurr + (4 + tlvLen.toNat)) reads
      else some (.absent, reads)

/-- `attest_get_tlv_by_module`. -/
def attestGetTlvByModule (data : ℕ → BitVec 8) (fuel : ℕ) (module : BitVec 8)
    (tlvPtr : Option ℕ) (reads : Reads) : Option (Lookup × Reads) :=
  if half data 0 ≠ sharedDataTlvInfoMagic then some (.malformed, reads ++ [(0, 2)])
  else
    let tlvEnd := (half data 2).toNat
    let reads := reads ++ [(0, 4)]
    match tlvPtr with
    | none => findTlv data module tlvEnd fuel 4 reads
    | some tlvPtr =>
        findTlv data module tlvEnd fuel (tlvPtr + 4 + (half data (tlvPtr + 2)).toNat)
          (reads ++ [(tlvPtr, 4)])

/-- The calls of the encoder. -/
inductive Call
  /-- `QCBOREncode_OpenArrayInMapN`. -/
  | openArrayInMapN (label : ℤ)
  /-- `QCBOREncode_OpenArray`. -/
  | openArray
  /-- `QCBOREncode_AddEncoded`. -/
  | addEncoded (bytes : List (BitVec 8))
  /-- `QCBOREncode_CloseArray`. -/
  | closeArray
  deriving DecidableEq

/-- The calls for the encoding context, the counter, and the reads. -/
structure Encoding where
  /-- What has been called for `encode_ctx`. -/
  calls : List Call
  /-- `*cnt`. -/
  cnt : ℕ
  /-- The reads of `boot_data`. -/
  reads : Reads

/-- The array is opened in the map when there is a label for it. -/
def openCall : Option ℤ → Call
  | some label => .openArrayInMapN label
  | none => .openArray

/-- A boot record is encoded, behind the start of the array if it is the first one. -/
def Encoding.addRecord (s : Encoding) (data : ℕ → BitVec 8) (mapLabel : Option ℤ)
    (tlvLen : BitVec 16) (tlvPtr : ℕ) (reads : Reads) : Encoding where
  calls := s.calls ++ (if s.cnt + 1 = 1 then [openCall mapLabel] else []) ++
    [.addEncoded (readBytes data (tlvPtr + 4) tlvLen.toNat)]
  cnt := s.cnt + 1
  reads := reads ++ [(tlvPtr + 4, tlvLen.toNat)]

/-- The loop of `attest_encode_sw_components_array`. -/
def encodeModules (data : ℕ → BitVec 8) (fuel : ℕ) (mapLabel : Option ℤ) :
    List (BitVec 8) → Encoding → Option (PsaAttestErr × Encoding)
  | [], s => some (.success, s)
  | module :: modules, s =>
      match attestGetTlvByModule data fuel module none s.reads with
      | none => none
      | some (.malformed, reads) => some (.claimUnavailable, { s with reads })
      | some (.absent, reads) => encodeModules data fuel mapLabel modules { s with reads }
      | some (.found tlvId tlvLen tlvPtr, reads) =>
          if tlvId = swBootRecord then
            encodeModules data fuel mapLabel modules (s.addRecord data mapLabel tlvLen tlvPtr reads)
          else encodeModules data fuel mapLabel modules { s with reads }

/-- The modules from 0 to `SW_MAX`. -/
def swModules : List (BitVec 8) := (List.range swMax).map (BitVec.ofNat 8)

/-- The array is closed if it has been opened. -/
def Encoding.close (s : Encoding) : Encoding :=
  { s with calls := s.calls ++ if s.cnt ≠ 0 then [.closeArray] else [] }

/-- `attest_encode_sw_components_array`.  Pointers may be null. -/
def attestEncodeSwComponentsArray (data : ℕ → BitVec 8) (fuel : ℕ) (encodeCtx : Option (List Call))
    (mapLabel : Option ℤ) (cnt : Option ℕ) : Option (PsaAttestErr × Encoding) :=
  match encodeCtx, cnt with
  | some calls, some _ =>
      match encodeModules data fuel mapLabel swModules ⟨calls, 0, []⟩ with
      | none => none
      | some (.success, s) => some (.success, s.close)
      | some (err, s) => some (err, s)
  | encodeCtx, cnt => some (.invalidInput, ⟨encodeCtx.getD [], cnt.getD 0, []⟩)

/-- An entry of the boot data. -/
structure TlvEntry where
  /-- Its offset. -/
  offset : ℕ
  /-- `tlv_type`. -/
  tlvType : BitVec 16
  /-- `tlv_len`. -/
  tlvLen : BitVec 16
  deriving DecidableEq

namespace TlvEntry

/-- The software module. -/
def module (e : TlvEntry) : BitVec 16 := getIasModule e.tlvType

/-- The entry is a boot record. -/
def isBootRecord (e : TlvEntry) : Bool := getIasClaim e.tlvType = swBootRecord

/-- The bytes behind the header of the entry. -/
def bytes (data : ℕ → BitVec 8) (e : TlvEntry) : List (BitVec 8) :=
  readBytes data (e.offset + 4) e.tlvLen.toNat

end TlvEntry

/-- Entries lie one behind another from an offset to the end of the boot data. -/
def Laid (data : ℕ → BitVec 8) (tlvEnd : ℕ) : ℕ → List TlvEntry → Prop
  | offset, [] => offset = tlvEnd
  | offset, e :: entries =>
      e = ⟨offset, half data offset, half data (offset + 2)⟩ ∧
        Laid data tlvEnd (offset + (4 + e.tlvLen.toNat)) entries

/-- A well-formed boot data area. -/
structure BootData where
  /-- Its bytes, from the header on. -/
  data : ℕ → BitVec 8
  /-- Its entries. -/
  entries : List TlvEntry
  /-- `tlv_magic`. -/
  magic : half data 0 = sharedDataTlvInfoMagic
  /-- The entries are behind the header, and `tlv_tot_len` is the size of all. -/
  laid : Laid data (half data 2).toNat 4 entries

namespace BootData

/-- `tlv_tot_len`. -/
def totLen (B : BootData) : ℕ := (half B.data 2).toNat

/-- The boot records. -/
def records (B : BootData) : List TlvEntry := B.entries.filter TlvEntry.isBootRecord

/-- Each boot record is the first entry of its module, and the module is one of those that are
searched for. -/
def RecordsFirst (B : BootData) : Prop :=
  ∀ e ∈ B.entries, e.isBootRecord → e.module.toNat < swMax ∧
    ∀ e' ∈ B.entries, e'.module = e.module → e.offset ≤ e'.offset

end BootData

/-- The array with components, if there are any. -/
def arrayCalls (mapLabel : Option ℤ) : List (List (BitVec 8)) → List Call
  | [] => []
  | component :: components =>
      openCall mapLabel :: (component :: components).map .addEncoded ++ [.closeArray]

/-- What is asked of the encoding of boot data. -/
structure ComponentsEncoded (B : BootData) (calls : List Call) (mapLabel : Option ℤ)
    (r : PsaAttestErr × Encoding) : Prop where
  /-- It succeeds. -/
  success : r.1 = .success
  /-- Only the boot data is read. -/
  readsInside : ∀ x ∈ r.2.reads, x.1 + x.2 ≤ B.totLen
  /-- The elements of the array are the boot records, in some order. -/
  array : ∃ components, components.Perm (B.records.map (TlvEntry.bytes B.data)) ∧
    r.2.calls = calls ++ arrayCalls mapLabel components
  /-- They are counted. -/
  cnt : r.2.cnt = B.records.length

/-- The software components claim has what has been measured: encoding ends, with at most one round
of the look-up for each entry. -/
def SwComponentsComplete (B : BootData) : Prop :=
  ∀ calls mapLabel cnt, ∀ fuel ≥ B.entries.length,
    ∃ r, attestEncodeSwComponentsArray B.data fuel (some calls) mapLabel (some cnt) = some r ∧
      ComponentsEncoded B calls mapLabel r

variable {data : ℕ → BitVec 8} {tlvEnd offset fuel : ℕ} {entries : List TlvEntry} {e : TlvEntry}
  {mapLabel : Option ℤ}

/-! ### Entries -/

theorem Laid.le (laid : Laid data tlvEnd offset entries) : offset ≤ tlvEnd := by
  induction entries generalizing offset with
  | nil => exact Nat.le_of_eq laid
  | cons e entries induction =>
      have behind := induction laid.2
      omega

theorem Laid.offset_le (laid : Laid data tlvEnd offset entries) (mem : e ∈ entries) :
    offset ≤ e.offset := by
  induction entries generalizing offset with
  | nil => exact nomatch mem
  | cons first entries induction =>
      rcases List.mem_cons.mp mem with rfl | mem
      · rw [laid.1]
      · have behind := induction laid.2 mem
        omega

/-- Entries are in the order of their offsets. -/
theorem Laid.pairwise (laid : Laid data tlvEnd offset entries) :
    entries.Pairwise fun e e' ↦ e.offset < e'.offset := by
  induction entries generalizing offset with
  | nil => exact .nil
  | cons first entries induction =>
      constructor
      · intro e mem
        have behind := laid.2.offset_le mem
        have start : first.offset = offset := by rw [laid.1]
        omega
      · exact induction laid.2

/-- All of an entry is in front of the end. -/
theorem Laid.end_le (laid : Laid data tlvEnd offset entries) (mem : e ∈ entries) :
    e.offset + 4 + e.tlvLen.toNat ≤ tlvEnd := by
  induction entries generalizing offset with
  | nil => exact nomatch mem
  | cons first entries induction =>
      rcases List.mem_cons.mp mem with rfl | mem
      · have behind := laid.2.le
        have start : e.offset = offset := by rw [laid.1]
        omega
      · exact induction laid.2 mem

theorem BootData.nodup_entries (B : BootData) : B.entries.Nodup := by
  apply B.laid.pairwise.imp
  rintro e _ lt rfl
  exact Nat.lt_irrefl _ lt

/-- The first entry of a module is the one with the smallest offset. -/
theorem find?_eq_some_iff_offset_le (sorted : entries.Pairwise fun e e' ↦ e.offset < e'.offset)
    (module : BitVec 16) :
    entries.find? (fun e ↦ e.module = module) = some e ↔
      e ∈ entries ∧ e.module = module ∧ ∀ e' ∈ entries, e'.module = module →
        e.offset ≤ e'.offset := by
  induction entries with
  | nil => simp
  | cons first entries induction =>
      rw [List.pairwise_cons] at sorted
      rw [List.find?_cons]
      rcases eq_or_ne first.module module with same | other
      · simp only [same, decide_true, Option.some.injEq]
        constructor
        · rintro rfl
          refine ⟨List.mem_cons_self, same, ?_⟩
          simp only [List.mem_cons, forall_eq_or_imp, le_refl, implies_true, true_and]
          exact fun e' mem _ ↦ (sorted.1 e' mem).le
        · rintro ⟨mem, -, least⟩
          rcases List.mem_cons.mp mem with rfl | mem
          · rfl
          · have le := least first List.mem_cons_self same
            exact absurd (sorted.1 e mem) le.not_gt
      · simp only [other, decide_false]
        rw [induction sorted.2]
        constructor
        · rintro ⟨mem, same, least⟩
          refine ⟨List.mem_cons_of_mem _ mem, same, ?_⟩
          simpa [other] using least
        · rintro ⟨mem, same, least⟩
          rcases List.mem_cons.mp mem with rfl | mem
          · exact absurd same other
          · exact ⟨mem, same, fun e' mem' ↦ least e' (List.mem_cons_of_mem _ mem')⟩

/-! ### The look-up -/

/-- What a look-up returns for the entry it finds. -/
def lookupOf : Option TlvEntry → Lookup
  | none => .absent
  | some e => .found (getIasClaim e.tlvType) e.tlvLen e.offset

/-- The first entry of a module. -/
def BootData.first (B : BootData) (module : BitVec 8) : Option TlvEntry :=
  B.entries.find? fun e ↦ e.module = module.setWidth 16

/-- The loop finds the first entry of a module from an offset on. -/
theorem findTlv_of_laid (laid : Laid data tlvEnd offset entries) (enough : entries.length ≤ fuel)
    (module : BitVec 8) {reads : Reads} (inside : ∀ x ∈ reads, x.1 + x.2 ≤ tlvEnd) :
    ∃ reads', findTlv data module tlvEnd fuel offset reads =
        some (lookupOf (entries.find? fun e ↦ e.module = module.setWidth 16), reads') ∧
      ∀ x ∈ reads', x.1 + x.2 ≤ tlvEnd := by
  induction entries generalizing offset fuel reads with
  | nil =>
      use reads
      have stopped : ¬offset < tlvEnd := by
        rw [show offset = tlvEnd from laid]
        exact Nat.lt_irrefl _
      unfold findTlv
      rw [if_neg stopped]
      exact ⟨rfl, inside⟩
  | cons first entries induction =>
      have header := laid.end_le List.mem_cons_self
      obtain ⟨rfl, laid⟩ := laid
      dsimp only at header laid
      have lt : offset < tlvEnd := by omega
      obtain ⟨fuel, rfl⟩ := Nat.exists_eq_add_of_le' (Nat.le_trans (Nat.succ_pos _) enough)
      have inside' : ∀ x ∈ reads ++ [(offset, 4)], x.1 + x.2 ≤ tlvEnd := by
        intro x mem
        rcases List.mem_append.mp mem with mem | last
        · exact inside x mem
        · obtain rfl := List.mem_singleton.mp last
          exact Nat.le_trans (Nat.le_add_right _ _) header
      unfold findTlv
      rw [if_pos lt, List.find?_cons]
      rcases eq_or_ne (getIasModule (half data offset)) (module.setWidth 16) with same | other
      · simp only [same, TlvEntry.module, decide_true, if_true]
        exact ⟨_, rfl, inside'⟩
      · simp only [other, TlvEntry.module, decide_false, if_false]
        exact induction laid (Nat.le_of_succ_le_succ enough) inside'

/-- A search from the beginning returns the first entry of the module. -/
theorem attestGetTlvByModule_of_wellFormed (B : BootData) (enough : B.entries.length ≤ fuel)
    (module : BitVec 8) {reads : Reads} (inside : ∀ x ∈ reads, x.1 + x.2 ≤ B.totLen) :
    ∃ reads', attestGetTlvByModule B.data fuel module none reads =
        some (lookupOf (B.first module), reads') ∧
      ∀ x ∈ reads', x.1 + x.2 ≤ B.totLen := by
  have magic : ¬half B.data 0 ≠ sharedDataTlvInfoMagic := fun ne ↦ ne B.magic
  rw [attestGetTlvByModule, if_neg magic]
  apply findTlv_of_laid B.laid enough
  intro x mem
  rcases List.mem_append.mp mem with mem | last
  · exact inside x mem
  · obtain rfl := List.mem_singleton.mp last
    exact B.laid.le

/-! ### The array -/

/-- The boot records that are first entries of modules. -/
def BootData.chosen (B : BootData) (modules : List (BitVec 8)) : List TlvEntry :=
  modules.filterMap fun module ↦ (B.first module).filter TlvEntry.isBootRecord

/-- The array as far as it has been encoded. -/
def openedCalls (mapLabel : Option ℤ) : List (List (BitVec 8)) → List Call
  | [] => []
  | components => openCall mapLabel :: components.map .addEncoded

/-- What holds when components have been encoded. -/
structure Encoding.Has (B : BootData) (calls : List Call) (mapLabel : Option ℤ)
    (components : List (List (BitVec 8))) (s : Encoding) : Prop where
  /-- They have been encoded. -/
  calls : s.calls = calls ++ openedCalls mapLabel components
  /-- They have been counted. -/
  cnt : s.cnt = components.length
  /-- Only the boot data has been read. -/
  readsInside : ∀ x ∈ s.reads, x.1 + x.2 ≤ B.totLen

variable {B : BootData} {calls : List Call} {components : List (List (BitVec 8))} {s : Encoding}
  {reads : Reads} {modules : List (BitVec 8)}

theorem module_of_first {module : BitVec 8} (first : B.first module = some e) :
    e.module = module.setWidth 16 := by
  rw [BootData.first] at first
  simpa using List.find?_some first

theorem chosen_cons_of_record {module : BitVec 8} (first : B.first module = some e)
    (record : e.isBootRecord = true) : B.chosen (module :: modules) = e :: B.chosen modules := by
  simp [BootData.chosen, first, Option.filter, record]

theorem chosen_cons_of_other {module : BitVec 8}
    (other : ∀ e, B.first module = some e → e.isBootRecord = false) :
    B.chosen (module :: modules) = B.chosen modules := by
  cases first : B.first module with
  | none => simp [BootData.chosen, first]
  | some e => simp [BootData.chosen, first, Option.filter, other e first]

/-- A boot record is added. -/
theorem Encoding.Has.addRecord (has : s.Has B calls mapLabel components) (mem : e ∈ B.entries)
    (inside : ∀ x ∈ reads, x.1 + x.2 ≤ B.totLen) :
    (s.addRecord B.data mapLabel e.tlvLen e.offset reads).Has B calls mapLabel
      (components ++ [e.bytes B.data]) where
  calls := by
    rw [Encoding.addRecord, has.calls, has.cnt]
    cases components with
    | nil => simp [openedCalls, TlvEntry.bytes]
    | cons component components => simp [openedCalls, TlvEntry.bytes]
  cnt := by simp [Encoding.addRecord, has.cnt]
  readsInside := by
    intro x x_mem
    rcases List.mem_append.mp x_mem with x_mem | last
    · exact inside x x_mem
    · obtain rfl := List.mem_singleton.mp last
      exact B.laid.end_le mem

/-- The loop encodes the boot records that are first entries of their modules. -/
theorem encodeModules_of_wellFormed (modules : List (BitVec 8)) (enough : B.entries.length ≤ fuel)
    (has : s.Has B calls mapLabel components) :
    ∃ s', encodeModules B.data fuel mapLabel modules s = some (.success, s') ∧
      s'.Has B calls mapLabel (components ++ (B.chosen modules).map (TlvEntry.bytes B.data)) := by
  induction modules generalizing s components with
  | nil => exact ⟨s, rfl, by simpa [BootData.chosen] using has⟩
  | cons module modules induction =>
      obtain ⟨reads, look_up, inside⟩ :=
        attestGetTlvByModule_of_wellFormed B enough module has.readsInside
      have skipped : { s with reads }.Has B calls mapLabel components :=
        ⟨has.calls, has.cnt, inside⟩
      rw [encodeModules, look_up]
      cases first : B.first module with
      | none =>
          rw [chosen_cons_of_other (by simp [first])]
          exact induction skipped
      | some e =>
          have mem : e ∈ B.entries := List.mem_of_find?_eq_some first
          rcases eq_or_ne (getIasClaim e.tlvType) swBootRecord with record | other
          · rw [chosen_cons_of_record first (decide_eq_true record)]
            simpa [lookupOf, record] using induction (has.addRecord mem inside)
          · rw [chosen_cons_of_other (by simp [first, TlvEntry.isBootRecord, other])]
            simpa [lookupOf, other] using induction skipped

/-- The array has the boot records that are first entries of modules. -/
theorem attestEncodeSwComponentsArray_of_wellFormed (B : BootData) (calls : List Call)
    (mapLabel : Option ℤ) (cnt : ℕ) (enough : B.entries.length ≤ fuel) :
    ∃ s, attestEncodeSwComponentsArray B.data fuel (some calls) mapLabel (some cnt) =
        some (.success, s) ∧
      s.calls = calls ++ arrayCalls mapLabel ((B.chosen swModules).map (TlvEntry.bytes B.data)) ∧
        s.cnt = (B.chosen swModules).length ∧ ∀ x ∈ s.reads, x.1 + x.2 ≤ B.totLen := by
  have start : Encoding.Has B calls mapLabel [] ⟨calls, 0, []⟩ :=
    ⟨by simp [openedCalls], rfl, by simp⟩
  obtain ⟨s, encoded, has⟩ := encodeModules_of_wellFormed swModules enough start
  refine ⟨s.close, ?_, ?_, ?_, has.readsInside⟩
  · rw [attestEncodeSwComponentsArray, encoded]
  · rw [Encoding.close, has.calls, has.cnt, List.nil_append]
    cases (B.chosen swModules).map (TlvEntry.bytes B.data) with
    | nil => simp [openedCalls, arrayCalls]
    | cons component components => simp [openedCalls, arrayCalls]
  · simpa [Encoding.close] using has.cnt

/-! ### Which boot records are chosen -/

theorem mem_chosen :
    e ∈ B.chosen modules ↔ ∃ module ∈ modules, B.first module = some e ∧ e.isBootRecord := by
  simp [BootData.chosen, Option.filter_eq_some_iff]

theorem chosen_subset : B.chosen modules ⊆ B.records := by
  intro e chosen
  obtain ⟨module, _, first, record⟩ := mem_chosen.mp chosen
  exact List.mem_filter.mpr ⟨List.mem_of_find?_eq_some first, record⟩

/-- No boot record is chosen twice. -/
theorem nodup_chosen (nodup : modules.Nodup) : (B.chosen modules).Nodup := by
  apply nodup.filterMap
  intro module module' e mem mem'
  have first := (Option.filter_eq_some_iff.mp mem).1
  have first' := (Option.filter_eq_some_iff.mp mem').1
  have eq := (module_of_first first).symm.trans (module_of_first first')
  bv_omega

theorem mem_swModules {module : BitVec 8} : module ∈ swModules ↔ module.toNat < swMax := by
  revert module
  decide

/-- All boot records are chosen if and only if they are first entries of modules that are searched
for. -/
theorem records_subset_chosen_iff (B : BootData) :
    B.records ⊆ B.chosen swModules ↔ B.RecordsFirst := by
  constructor
  · intro subset e mem record
    obtain ⟨module, searched, first, _⟩ :=
      mem_chosen.mp (subset (List.mem_filter.mpr ⟨mem, record⟩))
    obtain ⟨_, same, least⟩ := (find?_eq_some_iff_offset_le B.laid.pairwise _).mp first
    constructor
    · rw [same]
      have below := mem_swModules.mp searched
      rwa [BitVec.toNat_setWidth_of_le (by decide)]
    · rwa [same]
  · intro records_first e mem
    obtain ⟨mem, record⟩ := List.mem_filter.mp mem
    obtain ⟨below, least⟩ := records_first e mem record
    have narrow : (e.module.setWidth 8).setWidth 16 = e.module := by
      rw [swMax] at below
      bv_omega
    refine mem_chosen.mpr ⟨e.module.setWidth 8, ?_, ?_, record⟩
    · rw [mem_swModules]
      rw [swMax] at below ⊢
      bv_omega
    · rw [BootData.first, narrow, find?_eq_some_iff_offset_le B.laid.pairwise]
      exact ⟨mem, rfl, least⟩

/-- The claim has all boot records if and only if each one is the first entry of its module, because
later entries of a module are not looked up. -/
theorem swComponentsComplete_iff_recordsFirst (B : BootData) :
    SwComponentsComplete B ↔ B.RecordsFirst := by
  have no_twice : (B.chosen swModules).Nodup := nodup_chosen (by decide)
  have below : (B.chosen swModules).Subperm B.records :=
    List.subperm_of_subset no_twice chosen_subset
  rw [← records_subset_chosen_iff]
  constructor
  · intro complete
    obtain ⟨r, encodes, encoded⟩ := complete [] none 0 B.entries.length le_rfl
    obtain ⟨s, encodes', _, cnt, _⟩ :=
      attestEncodeSwComponentsArray_of_wellFormed B [] none 0 (le_refl B.entries.length)
    obtain rfl := Option.some.inj (encodes.symm.trans encodes')
    have length : B.records.length ≤ (B.chosen swModules).length :=
      (encoded.cnt.symm.trans cnt).le
    exact (below.perm_of_length_le length).symm.subset
  · intro subset calls mapLabel cnt fuel enough
    have all : (B.chosen swModules).Perm B.records :=
      below.antisymm (List.subperm_of_subset (B.nodup_entries.filter _) subset)
    obtain ⟨s, encodes, s_calls, s_cnt, inside⟩ :=
      attestEncodeSwComponentsArray_of_wellFormed B calls mapLabel cnt enough
    exact ⟨_, encodes, rfl, inside, ⟨_, all.map _, s_calls⟩, s_cnt.trans all.length_eq⟩

/-- Boot data with two entries of the boot loader, its version and its boot record. -/
def sampleBootData : BootData where
  data offset := [0x16, 0x20, 0x0E, 0x00, 0x40, 0x10, 0x01, 0x00, 0x02, 0x7F, 0x10, 0x01, 0x00,
    0xA0].getD offset 0
  entries := [⟨4, 0x1040, 1⟩, ⟨9, 0x107F, 1⟩]
  magic := by decide
  laid := by simp [Laid, half]

/-- The boot record of the boot loader is not in the claim. -/
theorem swComponentsComplete_fails : ¬SwComponentsComplete sampleBootData := by
  intro complete
  obtain ⟨r, encodes, encoded⟩ := complete [] none 0 2 (by decide)
  have counted : (attestEncodeSwComponentsArray sampleBootData.data 2 (some []) none (some 0)).map
      (fun r ↦ r.2.cnt) = some 0 := by decide
  rw [encodes, Option.map_some, encoded.cnt] at counted
  revert counted
  decide

end TrustedFirmwareM.Attestation
