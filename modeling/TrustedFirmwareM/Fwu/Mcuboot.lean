import TrustedFirmwareM.Lib.Fallible
import TrustedFirmwareM.Fwu.RequestManager
import Mathlib.Data.BitVec
import Mathlib.Data.Prod.Lex
import Mathlib.Logic.Function.Basic

/-!
# The bootloader behind the firmware update service

Images are staged in secondary slots.  To install them is to check what they depend on and to write
boot magics into the trailers of their slots; to accept running images is to have their primary
slots confirmed.  What is in the slots and in the data from the bootloader is not trusted.
-/

namespace TrustedFirmwareM.Fwu.Mcuboot

/-- `PSA_ERROR_STORAGE_FAILURE`. -/
def psaErrorStorageFailure : PsaStatus := -146

/-- `PSA_ERROR_DATA_CORRUPT`. -/
def psaErrorDataCorrupt : PsaStatus := -152

/-- The slots of an image. -/
inductive Slot
  /-- The slot of the running image. -/
  | primary
  /-- The slot of the staged image. -/
  | secondary
  deriving DecidableEq

/-- A flash area. -/
structure Area where
  /-- The slot. -/
  slot : Slot
  /-- The image. -/
  image : ℕ
  deriving DecidableEq

/-- Contents of the flash areas. -/
abbrev Flash : Type := Area → ℕ → BitVec 8

/-- Bytes of a memory. -/
def readBytes (memory : ℕ → BitVec 8) (off len : ℕ) : List (BitVec 8) :=
  (List.range len).map fun i ↦ memory (off + i)

/-- Bytes are written to an area. -/
def Flash.write (flash : Flash) (area : Area) (off : ℕ) (bytes : List (BitVec 8)) : Flash :=
  Function.update flash area fun k ↦
    if off ≤ k then bytes[k - off]?.getD (flash area k) else flash area k

/-- `image_version`, without the build number. -/
structure ImageVersion where
  /-- `iv_major`. -/
  ivMajor : BitVec 8
  /-- `iv_minor`. -/
  ivMinor : BitVec 8
  /-- `iv_revision`. -/
  ivRevision : BitVec 16
  deriving DecidableEq

/-- The version in 8 bytes. -/
def imageVersionOf (bytes : List (BitVec 8)) : ImageVersion :=
  ⟨bytes.getD 0 0, bytes.getD 1 0, bytes.getD 3 0 ++ bytes.getD 2 0⟩

/-- `IMAGE_MAGIC`. -/
def imageMagic : BitVec 32 := 0x96f3b83d

/-- `sizeof(struct image_header)`. -/
def imageHeaderSize : ℕ := 32

/-- `ih_magic` of a header. -/
def ihMagic (hdr : List (BitVec 8)) : BitVec 32 :=
  hdr.getD 3 0 ++ hdr.getD 2 0 ++ hdr.getD 1 0 ++ hdr.getD 0 0

/-- `ih_ver` of a header. -/
def ihVer (hdr : List (BitVec 8)) : ImageVersion := imageVersionOf (hdr.drop 20)

/-- `sizeof(struct image_dependency)`. -/
def imageDependencySize : ℕ := 12

/-- `image_id` of a dependency. -/
def imageId (dep : List (BitVec 8)) : ℕ := (dep.getD 0 0).toNat

/-- `image_min_version` of a dependency. -/
def imageMinVersion (dep : List (BitVec 8)) : ImageVersion := imageVersionOf (dep.drop 4)

/-- What a step looks at. -/
inductive Event
  /-- An element of `mcuboot_ctx`. -/
  | ctx (index : ℕ)
  /-- A flash area. -/
  | flash (area : Area)
  /-- `len` bytes are copied into a header record. -/
  | header (len : ℕ)
  /-- `len` bytes are copied into the dependency record. -/
  | record (len : ℕ)
  /-- The image that a dependency names. -/
  | dependency (id : ℕ)
  /-- `len` bytes from an offset of the shared data are read. -/
  | shared (off len : ℕ)
  /-- `boot_set_pending_multi` is called. -/
  | mark (component : ℕ)
  deriving DecidableEq

/-- `mcuboot_ctx` of `n` components: an area that has been opened is the secondary slot. -/
structure Ctx (n : ℕ) where
  /-- `fap`, and whatever is behind the array. -/
  fap : ℕ → Option Area
  /-- The area of a component. -/
  fap_eq : ∀ c < n, ∀ area, fap c = some area → area = ⟨.secondary, c⟩

/-- No area has been opened. -/
def Ctx.closed (n : ℕ) : Ctx n where
  fap _ := none
  fap_eq := by simp

/-- The secondary slot of a component has been opened. -/
def Ctx.setFap {n : ℕ} (x : Ctx n) (c : ℕ) : Ctx n where
  fap := Function.update x.fap c (some ⟨.secondary, c⟩)
  fap_eq := by
    intro d d_lt area open_eq
    rcases eq_or_ne d c with rfl | ne
    · rw [Function.update_self] at open_eq
      exact (Option.some.inj open_eq).symm
    · rw [Function.update_of_ne ne] at open_eq
      exact x.fap_eq d d_lt area open_eq

/-- The state of the bootloader functions for `n` components. -/
structure State (n : ℕ) where
  /-- The flash. -/
  flash : Flash
  /-- `mcuboot_ctx`. -/
  ctx : Ctx n
  /-- What has been looked at. -/
  trace : List Event

/-- Offset of the boot magic, `boot_magic_off`, in an area of a size. -/
def bootMagicOff (size : ℕ) : ℕ := size - 16

/-- `ALIGN_DOWN`. -/
def alignDown (value align : ℕ) : ℕ := value / align * align

/-- `ALIGN_UP`. -/
def alignUp (value align : ℕ) : ℕ := (value + (align - 1)) / align * align

/-- `boot_image_ok_off`, for `BOOT_MAX_ALIGN`. -/
def bootImageOkOff (size align : ℕ) : ℕ := alignDown (bootMagicOff size - align) align

/-- The layout of slots and trailers. -/
structure Trailers where
  /-- `flash_area_get_size`. -/
  size : Area → ℕ
  /-- `BOOT_MAX_ALIGN`. -/
  bootMaxAlign : ℕ
  /-- It is a number of bytes. -/
  bootMaxAlign_pos : 0 < bootMaxAlign
  /-- `flash_area_align`. -/
  align : Area → ℕ
  /-- `flash_area_erased_val`. -/
  erasedVal : BitVec 8
  /-- The boot magic. -/
  bootMagic : List (BitVec 8)
  /-- The boot magic has 16 bytes. -/
  bootMagic_length : bootMagic.length = 16
  /-- An erased byte is not the first one of the magic. -/
  bootMagic_ne : bootMagic.getD 0 0 ≠ erasedVal

/-- Slots of 256 bytes. -/
def smallTrailers : Trailers where
  size _ := 256
  bootMaxAlign := 8
  bootMaxAlign_pos := by decide
  align _ := 8
  erasedVal := 0xff
  bootMagic := [0x77, 0xc2, 0x95, 0xf3, 0x60, 0xd2, 0xef, 0x7f,
    0x35, 0x52, 0x50, 0x0f, 0x2c, 0xb6, 0x79, 0x80]
  bootMagic_length := rfl
  bootMagic_ne := by decide

/-- The staged image of a component will be taken as a candidate. -/
def Pending (T : Trailers) (flash : Flash) (c : ℕ) : Prop :=
  readBytes (flash ⟨.secondary, c⟩) (bootMagicOff (T.size ⟨.secondary, c⟩)) 16 = T.bootMagic

/-- The running image of a component has been confirmed: the flag is `BOOT_FLAG_SET`. -/
def Confirmed (T : Trailers) (flash : Flash) (c : ℕ) : Prop :=
  flash ⟨.primary, c⟩ (bootImageOkOff (T.size ⟨.primary, c⟩) T.bootMaxAlign) = 1

instance (T : Trailers) (flash : Flash) (c : ℕ) : Decidable (Confirmed T flash c) :=
  inferInstanceAs (Decidable (_ = _))

/-- MCUboot, the flash driver and the shared data, for `n` components. -/
structure Env (n : ℕ) where
  /-- The slots. -/
  trailers : Trailers
  /-- Offset and length of each dependency that `bootutil_tlv_iter_next` yields for an image. -/
  dependencies : (ℕ → BitVec 8) → List (ℕ × BitVec 16)
  /-- Memory from `boot_shared_data` on. -/
  shared : ℕ → BitVec 8
  /-- `dep`, before a dependency has been read. -/
  dep : List (BitVec 8)
  /-- It is a dependency record. -/
  dep_length : dep.length = imageDependencySize
  /-- `boot_set_pending_multi`, for each turn of a loop. -/
  bootSetPendingMulti : ℕ → ℕ → Flash → ℤ × Flash
  /-- Only the secondary slot of the image is written. -/
  pending_frame : ∀ i c flash area, area ≠ ⟨.secondary, c⟩ →
    (bootSetPendingMulti i c flash).2 area = flash area
  /-- Success makes the image pending. -/
  pending_ok : ∀ i c flash, (bootSetPendingMulti i c flash).1 = 0 →
    Pending trailers (bootSetPendingMulti i c flash).2 c
  /-- `boot_set_confirmed_multi`, for each turn of a loop. -/
  bootSetConfirmedMulti : ℕ → ℕ → Flash → ℤ × Flash
  /-- Only the primary slot of the image is written. -/
  confirmed_frame : ∀ i c flash area, area ≠ ⟨.primary, c⟩ →
    (bootSetConfirmedMulti i c flash).2 area = flash area
  /-- Success makes the image confirmed. -/
  confirmed_ok : ∀ i c flash, (bootSetConfirmedMulti i c flash).1 = 0 →
    Confirmed trailers (bootSetConfirmedMulti i c flash).2 c

/-- A call of MCUboot that fails before it writes. -/
def failedCall (_ _ : ℕ) (flash : Flash) : ℤ × Flash := (1, flash)

theorem failedCall_frame (kind : Slot) (i c : ℕ) (flash : Flash) (area : Area)
    (_ : area ≠ ⟨kind, c⟩) : (failedCall i c flash).2 area = flash area := rfl

theorem failedCall_pending (T : Trailers) (i c : ℕ) (flash : Flash)
    (ok : (failedCall i c flash).1 = 0) : Pending T (failedCall i c flash).2 c := by
  cases ok

theorem failedCall_confirmed (T : Trailers) (i c : ℕ) (flash : Flash)
    (ok : (failedCall i c flash).1 = 0) : Confirmed T (failedCall i c flash).2 c := by
  cases ok

/-- A dependency record of zeros. -/
def zeroDep : List (BitVec 8) := List.replicate imageDependencySize 0

theorem length_zeroDep : zeroDep.length = imageDependencySize := rfl

/-- Functions of the bootloader. -/
abbrev FwuM (n : ℕ) (α : Type) : Type := Fallible (State n) PsaStatus α

variable {n : ℕ}

/-- A state with one more event. -/
def State.note (e : Event) (s : State n) : State n := { s with trace := s.trace ++ [e] }

/-- Something is looked at. -/
def look (e : Event) : FwuM n Unit := fun s ↦ (.ok (), s.note e)

/-- The state. -/
def getState : FwuM n (State n) := fun s ↦ (.ok s, s)

/-- The flash is changed. -/
def setFlash (flash : Flash) : FwuM n Unit := fun s ↦ (.ok (), { s with flash := flash })

/-- `mcuboot_ctx[component].fap`. -/
def getFap (component : ℕ) : FwuM n (Option Area) := do
  look (.ctx component)
  let s ← getState
  pure (s.ctx.fap component)

/-- The flash is accessed, and `PSA_ERROR_STORAGE_FAILURE` is returned when that fails.  Which
accesses fail depends on the number of events so far. -/
def access (fails : ℕ → Bool) (area : Area) : FwuM n Unit := fun s ↦
  if fails s.trace.length then (.error psaErrorStorageFailure, s.note (.flash area))
  else (.ok (), s.note (.flash area))

/-- `flash_area_read`, and the return when it fails. -/
def flashAreaRead (E : Env n) (fails : ℕ → Bool) (area : Area) (off len : ℕ) :
    FwuM n (List (BitVec 8)) := do
  if E.trailers.size area < off + len then Fallible.fail psaErrorStorageFailure
  else do
    access fails area
    let s ← getState
    pure (readBytes (s.flash area) off len)

/-- An image header is read. -/
def readHeader (E : Env n) (fails : ℕ → Bool) (area : Area) : FwuM n (List (BitVec 8)) := do
  let hdr ← flashAreaRead E fails area 0 imageHeaderSize
  look (.header imageHeaderSize)
  pure hdr

end TrustedFirmwareM.Fwu.Mcuboot
