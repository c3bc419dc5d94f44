import TrustedFirmwareM.Lib.Program
import Mathlib.Algebra.Group.Nat.Defs
import Mathlib.Logic.Function.Basic

/-!
# The flash device under the internal trusted storage

The file system reaches the flash through four operations of a driver: read, write, flush and
erase.  A write programs bytes over what is there; the driver may fail at any call, and then the
range that the call addresses is left in any state.
-/

namespace TrustedFirmwareM.Its

open Program

/-- The errors of `psa_status_t` that the internal trusted storage returns. -/
inductive Status
  | programmerError
  | notPermitted
  | notSupported
  | invalidArgument
  | insufficientStorage
  | bufferTooSmall
  | storageFailure
  | dataCorrupt
  | doesNotExist
  | genericError
  deriving DecidableEq

/-- The bytes of a block, or the bytes behind a pointer. -/
abbrev Bytes := ℕ → UInt8

/-- The contents of the flash area, block by block. -/
abbrev Flash := ℕ → Bytes

/-- `its_flash_fs_config_t` with its `its_flash_config_t`, the build options that the layout of the
metadata depends on, and the way in which the device programs. -/
structure Config where
  /-- Size of a logical erase unit. -/
  blockSize : ℕ
  /-- Number of logical erase blocks. -/
  numBlocks : ℕ
  /-- Minimum size of a program operation. -/
  programUnit : ℕ
  /-- Value of a byte after an erase. -/
  eraseVal : UInt8
  /-- Maximum file size. -/
  maxFileSize : ℕ
  /-- Maximum number of files. -/
  maxNumFiles : ℕ
  /-- `ITS_FLASH_MAX_ALIGNMENT`. -/
  maxAlignment : ℕ
  /-- `TFM_ITS_ENC_NONCE_LENGTH` with encryption, 0 without. -/
  nonceLength : ℕ
  /-- `TFM_ITS_AUTH_TAG_LENGTH` with encryption, 0 without. -/
  tagLength : ℕ
  /-- What a byte holds after another one has been programmed over it. -/
  program : UInt8 → UInt8 → UInt8
  /-- An erased byte takes any value. -/
  program_eraseVal : ∀ byte, program eraseVal byte = byte
  /-- The block size is a 32-bit number. -/
  blockSize_lt : blockSize < 2 ^ 32
  /-- The number of blocks is a 16-bit number. -/
  numBlocks_lt : numBlocks < 2 ^ 16
  /-- The maximum file size is a 16-bit number. -/
  maxFileSize_lt : maxFileSize < 2 ^ 16
  /-- The maximum number of files is a 16-bit number. -/
  maxNumFiles_lt : maxNumFiles < 2 ^ 16
  /-- The program unit is a power of 2 and a 16-bit number. -/
  programUnit_pow : ∃ k < 16, programUnit = 2 ^ k
  /-- There is an alignment. -/
  maxAlignment_pos : 0 < maxAlignment

/-! ## Arithmetic of `size_t` -/

/-- Addition of 32-bit numbers. -/
def add32 (a b : ℕ) : ℕ := (a + b) % 2 ^ 32

/-- Subtraction of 32-bit numbers. -/
def sub32 (a b : ℕ) : ℕ := (a + (2 ^ 32 - b % 2 ^ 32)) % 2 ^ 32

theorem add32_eq {a b : ℕ} (bound : a + b < 2 ^ 32) : add32 a b = a + b :=
  Nat.mod_eq_of_lt bound

theorem sub32_eq {a b : ℕ} (le : b ≤ a) (bound : a < 2 ^ 32) : sub32 a b = a - b := by
  simp only [sub32]
  omega

theorem sub32_self (a : ℕ) : sub32 a a = 0 := by
  simp only [sub32]
  omega

/-- The bits of an `uint32_t` that are not set. -/
def not32 (value : ℕ) : ℕ := value ^^^ (2 ^ 32 - 1)

/-- `ITS_UTILS_ALIGN`. -/
def itsUtilsAlign (x a : ℕ) : ℕ := add32 x (a - 1) &&& not32 (a - 1)

/-- `ITS_UTILS_IS_ALIGNED`. -/
def itsUtilsIsAligned (x a : ℕ) : Bool := x &&& (a - 1) == 0

/-- The high bits of a number are what division and multiplication leave. -/
theorem and_not32 {x k : ℕ} (x_lt : x < 2 ^ 32) :
    x &&& not32 (2 ^ k - 1) = x / 2 ^ k * 2 ^ k := by
  have clear (i : ℕ) (outside : 32 ≤ i) : x.testBit i = false :=
    Nat.testBit_lt_two_pow (Nat.lt_of_lt_of_le x_lt (Nat.pow_le_pow_right Nat.two_pos outside))
  refine Nat.eq_of_testBit_eq fun i ↦ ?_
  rw [not32, Nat.testBit_and, Nat.testBit_xor, Nat.testBit_two_pow_sub_one,
    Nat.testBit_two_pow_sub_one, Nat.testBit_mul_two_pow, Nat.testBit_div_two_pow]
  rcases Nat.lt_or_ge i k with low | high
  · rw [decide_eq_false (Nat.not_le.2 low), decide_eq_true low, Bool.false_and]
    rcases Nat.lt_or_ge i 32 with inside | outside
    · rw [decide_eq_true inside, Bool.xor_self, Bool.and_false]
    · rw [clear i outside, Bool.false_and]
  · rw [decide_eq_true high, decide_eq_false (Nat.not_lt.2 high), Bool.false_xor, Bool.true_and,
      Nat.sub_add_cancel high]
    rcases Nat.lt_or_ge i 32 with inside | outside
    · rw [decide_eq_true inside, Bool.and_true]
    · rw [clear i outside, Bool.false_and]

section

variable (cfg : Config)

theorem Config.programUnit_pos : 0 < cfg.programUnit := by
  obtain ⟨k, -, unit_eq⟩ := cfg.programUnit_pow
  rw [unit_eq]
  exact Nat.two_pow_pos k

theorem Config.align_eq (size : ℕ) :
    itsUtilsAlign size cfg.programUnit =
      add32 size (cfg.programUnit - 1) / cfg.programUnit * cfg.programUnit := by
  obtain ⟨k, -, unit_eq⟩ := cfg.programUnit_pow
  rw [unit_eq]
  exact and_not32 (Nat.mod_lt _ (Nat.two_pow_pos 32))

theorem Config.isAligned_eq (offset : ℕ) :
    itsUtilsIsAligned offset cfg.programUnit = (offset % cfg.programUnit == 0) := by
  obtain ⟨k, -, unit_eq⟩ := cfg.programUnit_pow
  rw [unit_eq, itsUtilsIsAligned, Nat.and_two_pow_sub_one_eq_mod]

end

/-- `its_utils_check_contained_in`: whether a subset region is fully contained within a superset
region. -/
def itsUtilsCheckContainedIn (supersetSize subsetOffset subsetSize : ℕ) : Bool :=
  decide (subsetOffset ≤ supersetSize) && decide (subsetSize ≤ sub32 supersetSize subsetOffset)

theorem itsUtilsCheckContainedIn_iff {supersetSize subsetOffset subsetSize : ℕ}
    (bound : supersetSize < 2 ^ 32) :
    itsUtilsCheckContainedIn supersetSize subsetOffset subsetSize = true ↔
      subsetOffset + subsetSize ≤ supersetSize := by
  rw [itsUtilsCheckContainedIn, Bool.and_eq_true, decide_eq_true_eq, decide_eq_true_eq]
  constructor
  · rintro ⟨offset, size⟩
    rw [sub32_eq offset bound] at size
    omega
  · intro contained
    rw [sub32_eq (by omega) bound]
    omega

/-! ## The driver -/

/-- The operations of `its_flash_ops_t`. -/
inductive FlashOp
  /-- Read bytes of a block. -/
  | read (block offset size : ℕ)
  /-- Write bytes of a block. -/
  | write (block offset size : ℕ) (data : Bytes)
  /-- Flush the modifications of a block. -/
  | flush (block : ℕ)
  /-- Erase a block. -/
  | erase (block : ℕ)

/-- What an operation gives when it succeeds. -/
abbrev FlashOp.Value : FlashOp → Type
  | .read .. => Bytes
  | .write .. | .flush _ | .erase _ => Unit

/-- What an operation returns. -/
abbrev FlashOp.Result (o : FlashOp) : Type := Except Status o.Value

/-- The offsets of a block that an operation may change. -/
def FlashOp.Addresses (cfg : Config) : FlashOp → ℕ → ℕ → Prop
  | .read .., _, _ | .flush _, _, _ => False
  | .write block offset size _, b, o => b = block ∧ offset ≤ o ∧ o < offset + size
  | .erase block, b, o => b = block ∧ o < cfg.blockSize

instance (cfg : Config) (op : FlashOp) (b o : ℕ) : Decidable (op.Addresses cfg b o) := by
  cases op <;> unfold FlashOp.Addresses <;> infer_instance

/-- Replace a range of bytes. -/
def patch (base : Bytes) (offset size : ℕ) (data : Bytes) : Bytes :=
  fun o ↦ if offset ≤ o ∧ o < offset + size then data (o - offset) else base o

/-- An operation that succeeds. -/
def FlashOp.work (cfg : Config) : (o : FlashOp) → Flash → o.Result × Flash
  | .read block offset _, f => (.ok fun i ↦ f block (offset + i), f)
  | .write block offset size data, f =>
      (.ok (), Function.update f block
        (patch (f block) offset size fun i ↦ cfg.program (f block (offset + i)) (data i)))
  | .flush _, f => (.ok (), f)
  | .erase block, f =>
      (.ok (), Function.update f block (patch (f block) 0 cfg.blockSize fun _ ↦ cfg.eraseVal))

/-! ## Blocks -/

theorem patch_in {base data : Bytes} {offset size o : ℕ} (inside : offset ≤ o ∧ o < offset + size) :
    patch base offset size data o = data (o - offset) := if_pos inside

theorem patch_out {base data : Bytes} {offset size o : ℕ}
    (outside : ¬(offset ≤ o ∧ o < offset + size)) : patch base offset size data o = base o :=
  if_neg outside

theorem update_patch_out {f : Flash} {block offset size : ℕ} {data : Bytes} {b o : ℕ}
    (outside : ¬(b = block ∧ offset ≤ o ∧ o < offset + size)) :
    Function.update f block (patch (f block) offset size data) b o = f b o := by
  rcases eq_or_ne b block with rfl | ne
  · rw [Function.update_self, patch_out fun range ↦ outside ⟨rfl, range⟩]
  · rw [Function.update_of_ne ne]

/-- A byte takes any value that is programmed over it. -/
def Config.Blank (cfg : Config) (byte : UInt8) : Prop := ∀ value, cfg.program byte value = value

theorem Config.blank_eraseVal (cfg : Config) : cfg.Blank cfg.eraseVal := cfg.program_eraseVal

end TrustedFirmwareM.Its
