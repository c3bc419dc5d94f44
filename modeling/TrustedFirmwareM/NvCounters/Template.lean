import TrustedFirmwareM.NvCounters.OtpBackend
import Mathlib.Algebra.GroupWithZero.Nat

/-!
# Counters of the template platform

Counters of the boot loaders are strings of bits in one-time programmable elements, with as many
ones as the value.  Counters of the protected storage are words.
-/

namespace TrustedFirmwareM.NvCounters.Template

/-- `OTP_COUNTER_MAX_SIZE`. -/
def otpCounterMaxSize : ℕ := 128

/-- `enum tfm_otp_element_id_t`. -/
inductive OtpElementId
  | huk | iak | iakLen | iakType | iakId | bootSeed | lcs | implementationId | certRef
  | verificationServiceUrl | profileDefinition | entropySeed | secureDebugPk
  | bl1Rotpk0 | nvCounterBl10
  | bl2Rotpk (i : Fin 4)
  | nvCounterBl2 (i : Fin 4)
  | nvCounterNs (i : Fin 3)
  deriving DecidableEq

/-- `enum tfm_nv_counter_t`. -/
inductive NvCounter
  /-- `PLAT_NV_COUNTER_PS_0` to `PLAT_NV_COUNTER_PS_2`. -/
  | ps (i : Fin 3)
  /-- `PLAT_NV_COUNTER_BL2_0` to `PLAT_NV_COUNTER_BL2_3`. -/
  | bl2 (i : Fin 4)
  /-- `PLAT_NV_COUNTER_BL1_0`. -/
  | bl10
  /-- `PLAT_NV_COUNTER_NS_0` to `PLAT_NV_COUNTER_NS_2`. -/
  | ns (i : Fin 3)
  /-- Other counters. -/
  | other
  deriving DecidableEq

/-- Where a counter is. -/
inductive Place
  /-- In `flash_nv_counters`. -/
  | flash (i : Fin 3)
  /-- In an element of the one-time programmable memory. -/
  | otp (id : OtpElementId)

/-- The `switch` of `tfm_plat_read_nv_counter` and of `tfm_plat_set_nv_counter`. -/
def NvCounter.place : NvCounter → Option Place
  | .ps i => some (.flash i)
  | .bl2 i => some (.otp (.nvCounterBl2 i))
  | .bl10 => some (.otp .nvCounterBl10)
  | .ns i => some (.otp (.nvCounterNs i))
  | .other => none

/-- A member of `flash_otp_nv_counters_region_t`. -/
structure Member where
  /-- Its offset. -/
  offset : ℕ
  /-- Its size. -/
  size : ℕ

/-- Members do not overlap. -/
def Member.Apart (m m' : Member) : Prop :=
  m.offset + m.size ≤ m'.offset ∨ m'.offset + m'.size ≤ m.offset

/-- The region in a build. -/
structure Layout extends Area where
  /-- The elements that the build has. -/
  member : OtpElementId → Option Member
  /-- `flash_nv_counters`, in a build with protected storage. -/
  flashNvCounters : Option Member
  /-- Its size. -/
  flash_size : ∀ m ∈ flashNvCounters, m.size = 12
  /-- Elements do not overlap. -/
  apart_elements : ∀ id id', id ≠ id' → ∀ m ∈ member id, ∀ m' ∈ member id', m.Apart m'
  /-- Elements and the words do not overlap. -/
  flash_apart : ∀ id, ∀ m ∈ member id, ∀ m' ∈ flashNvCounters, m.Apart m'
  /-- `swap_count` is behind the elements. -/
  member_le : ∀ id, ∀ m ∈ member id, m.offset + m.size ≤ swapCountOffset
  /-- It is behind the words. -/
  flash_le : ∀ m ∈ flashNvCounters, m.offset + m.size ≤ swapCountOffset
  /-- `OTP_ELEMENT_SIZE_MAX`. -/
  otpElementSizeMax : ℕ

variable (L : Layout)

/-- `tfm_plat_otp_get_size`. -/
def tfmPlatOtpGetSize (id : OtpElementId) : Option ℕ := (L.member id).map Member.size

/-- `tfm_plat_otp_read`, with `write_to_output`. -/
def tfmPlatOtpRead (flash : Contents) (id : OtpElementId) (outLen : ℕ) :
    Except PlatErr (List (BitVec 8)) :=
  match L.member id with
  | none => .error .unsupported
  | some m =>
      let copySize := if outLen < m.size then outLen else m.size
      readOtpNvCountersFlash L.toArea flash m.offset copySize

/-- `write_otp_nv_counters_flash`, with its status. -/
def write (flash : Contents) (offset : ℕ) (data : List (BitVec 8)) : PlatErr × Contents :=
  match writeOtpNvCountersFlash L.toArea offset data flash with
  | (.ok (), flash') => (.success, flash')
  | (.error e, flash') => (e, flash')

/-- No bit is written from 1 to 0. -/
def keepsBits (buffer input : List (BitVec 8)) : Bool :=
  (buffer.zip input).all fun (old, new) ↦ old ||| new = new

/-- `tfm_plat_otp_write`, with `read_from_input`. -/
def tfmPlatOtpWrite (flash : Contents) (id : OtpElementId)
    (input : List (BitVec 8)) : PlatErr × Contents :=
  match L.member id with
  | none => (.unsupported, flash)
  | some m =>
      if m.size < input.length then (.invalidInput, flash)
      else if L.otpElementSizeMax < m.size then (.invalidInput, flash)
      else
        match readOtpNvCountersFlash L.toArea flash m.offset input.length with
        | .error e => (e, flash)
        | .ok buffer =>
            if keepsBits buffer input then write L flash m.offset input
            else (.invalidInput, flash)

/-- `counter_size`. -/
def counterSize (size : ℕ) : ℕ := if otpCounterMaxSize < size then otpCounterMaxSize else size

/-- The number of ones in a byte: the loop over `bit_idx`. -/
def ones (byte : BitVec 8) : ℕ := ((List.range 8).map fun i ↦ (byte.getLsbD i).toNat).sum

/-- The number of ones: the loop over `byte_idx`. -/
def count (bytes : List (BitVec 8)) : ℕ := (bytes.map ones).sum

/-- `read_nv_counter_otp`. -/
def readNvCounterOtp (flash : Contents) (id : OtpElementId) : Except PlatErr Word :=
  match tfmPlatOtpGetSize L id with
  | none => .error .unsupported
  | some size =>
      match tfmPlatOtpRead L flash id (counterSize size) with
      | .error e => .error e
      | .ok counterValue => .ok (BitVec.ofNat 32 (count counterValue))

/-- `read_nv_counter_flash`. -/
def readNvCounterFlash (flash : Contents) (i : Fin 3) : Except PlatErr Word :=
  match L.flashNvCounters with
  | none => .error .unsupported
  | some m =>
      match readOtpNvCountersFlash L.toArea flash (m.offset + i * 4) 4 with
      | .error e => .error e
      | .ok bytes => .ok (wordOf bytes)

/-- `tfm_plat_read_nv_counter`. -/
def tfmPlatReadNvCounter (flash : Contents) (counterId : NvCounter) (size : ℕ) :
    Except PlatErr Word :=
  if size ≠ 4 then .error .systemErr
  else
    match counterId.place with
    | some (.flash i) => readNvCounterFlash L flash i
    | some (.otp id) => readNvCounterOtp L flash id
    | none => .error .unsupported

/-- What a change of a counter leaves behind. -/
structure Changed where
  /-- The status. -/
  err : PlatErr
  /-- Contents of the device. -/
  flash : Contents
  /-- The indices at which `counter_value` has been written. -/
  indices : List ℕ

/-- `counter_value` after the first bytes have been filled. -/
def fillBytes : ℕ → List (BitVec 8)
  | 0 => List.replicate otpCounterMaxSize 0
  | byteIdx + 1 => (fillBytes byteIdx).set byteIdx 0xFF

/-- `counter_value` for a value. -/
def counterValue (value : ℕ) : List (BitVec 8) :=
  (fillBytes (value / 8)).set (value / 8) (BitVec.ofNat 8 (1 <<< (value % 8) - 1))

/-- The indices at which `counter_value` is written for a value. -/
def writtenIndices (value : ℕ) : List ℕ := List.range (value / 8) ++ [value / 8]

/-- `set_nv_counter_otp`. -/
def setNvCounterOtp (flash : Contents) (id : OtpElementId) (value : Word) : Changed :=
  match tfmPlatOtpGetSize L id with
  | none => ⟨.unsupported, flash, []⟩
  | some size =>
      if 8 * counterSize size < value.toNat then ⟨.maxValue, flash, []⟩
      else
        let (err, flash) :=
          tfmPlatOtpWrite L flash id ((counterValue value.toNat).take (counterSize size))
        ⟨err, flash, writtenIndices value.toNat⟩

/-- `set_nv_counter_flash`. -/
def setNvCounterFlash (flash : Contents) (i : Fin 3) (value : Word) : Changed :=
  match L.flashNvCounters with
  | none => ⟨.unsupported, flash, []⟩
  | some m =>
      match readOtpNvCountersFlash L.toArea flash (m.offset + i * 4) 4 with
      | .error e => ⟨e, flash, []⟩
      | .ok bytes =>
          if wordOf bytes = BitVec.allOnes 32 then ⟨.maxValue, flash, []⟩
          else if value < wordOf bytes then ⟨.invalidInput, flash, []⟩
          else
            let (err, flash) := write L flash (m.offset + i * 4) (bytesOf value)
            ⟨err, flash, []⟩

/-- The first part of `tfm_plat_set_nv_counter`. -/
def setNvCounter (flash : Contents) (counterId : NvCounter) (value : Word) : Changed :=
  match counterId.place with
  | some (.flash i) => setNvCounterFlash L flash i value
  | some (.otp id) => setNvCounterOtp L flash id value
  | none => ⟨.unsupported, flash, []⟩

/-- `tfm_plat_set_nv_counter`. -/
def tfmPlatSetNvCounter (flash : Contents) (counterId : NvCounter) (value : Word) :
    Changed :=
  let r := setNvCounter L flash counterId value
  if r.err ≠ .success then r
  else
    match tfmPlatReadNvCounter L r.flash counterId 4 with
    | .error e => { r with err := e }
    | .ok newValue => if newValue ≠ value then { r with err := .systemErr } else r

/-- `tfm_plat_increment_nv_counter`. -/
def tfmPlatIncrementNvCounter (flash : Contents) (counterId : NvCounter) : Changed :=
  match tfmPlatReadNvCounter L flash counterId 4 with
  | .error e => ⟨e, flash, []⟩
  | .ok securityCnt =>
      if securityCnt = BitVec.allOnes 32 then ⟨.maxValue, flash, []⟩
      else tfmPlatSetNvCounter L flash counterId (securityCnt + 1)

end TrustedFirmwareM.NvCounters.Template
