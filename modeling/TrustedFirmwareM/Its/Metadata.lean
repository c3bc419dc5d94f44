import TrustedFirmwareM.Its.Flash
import Mathlib.Data.Fintype.Basic
import Mathlib.Data.UInt

/-!
# The metadata of the file system

A metadata block starts with a header, the metadata of the logical data blocks and the metadata of
the files.  The structures are programmed to flash as they lie in memory, with little-endian fields
and padding at the end.
-/

namespace TrustedFirmwareM.Its

/-! ## Fields -/

/-- A byte of a 32-bit field. -/
def u32Byte (value i : ℕ) : UInt8 := UInt8.ofNat (value / 256 ^ i)

/-- A 32-bit field. -/
def getU32 (raw : Bytes) (offset : ℕ) : ℕ :=
  (raw offset).toNat + 256 * (raw (offset + 1)).toNat + 65536 * (raw (offset + 2)).toNat +
    16777216 * (raw (offset + 3)).toNat

theorem getU32_lt (raw : Bytes) (offset : ℕ) : getU32 raw offset < 2 ^ 32 := by
  have byte0 := (raw offset).toNat_lt
  have byte1 := (raw (offset + 1)).toNat_lt
  have byte2 := (raw (offset + 2)).toNat_lt
  have byte3 := (raw (offset + 3)).toNat_lt
  simp only [getU32]
  omega

theorem getU32_of_bytes {raw : Bytes} {offset value : ℕ} (bound : value < 2 ^ 32)
    (bytes : ∀ i < 4, raw (offset + i) = u32Byte value i) : getU32 raw offset = value := by
  have byte0 := bytes 0 (by omega)
  have byte1 := bytes 1 (by omega)
  have byte2 := bytes 2 (by omega)
  have byte3 := bytes 3 (by omega)
  rw [Nat.add_zero] at byte0
  simp only [getU32, byte0, byte1, byte2, byte3, u32Byte, UInt8.toNat_ofNat']
  omega

theorem getU32_congr {raw raw' : Bytes} {offset : ℕ}
    (same : ∀ i < 4, raw (offset + i) = raw' (offset + i)) :
    getU32 raw offset = getU32 raw' offset := by
  have byte0 := same 0 (by omega)
  have byte1 := same 1 (by omega)
  have byte2 := same 2 (by omega)
  have byte3 := same 3 (by omega)
  rw [Nat.add_zero] at byte0
  simp only [getU32, byte0, byte1, byte2, byte3]

/-! ## Structures -/

/-- `its_metadata_block_header_t`. -/
structure MetadataBlockHeader where
  /-- Physical block ID of the data section's scratch block. -/
  scratchDblock : ℕ
  /-- Filesystem version. -/
  fsVersion : UInt8
  /-- XOR value based on the whole metadata. -/
  metadataXor : UInt8
  /-- Number of times the metadata blocks have been swapped. -/
  activeSwapCount : UInt8
  deriving DecidableEq

/-- The `active_swap_count` of `its_metadata_block_header_comp_t` lies where the header of the
supported version has its `metadata_xor`. -/
def MetadataBlockHeader.compActiveSwapCount (header : MetadataBlockHeader) : UInt8 :=
  header.metadataXor

/-- `its_block_meta_t`. -/
structure BlockMeta where
  /-- Physical ID of this logical block. -/
  phyId : ℕ
  /-- Offset from the beginning of the block to the location where the data starts. -/
  dataStart : ℕ
  /-- Number of bytes free at end of block. -/
  freeSize : ℕ
  deriving DecidableEq

/-- The file identifier, with `ITS_FILE_ID_SIZE` bytes. -/
abbrev FileId := Fin 12 → UInt8

/-- `its_file_meta_t`. -/
structure FileMeta (cfg : Config) where
  /-- Logical datablock where file is stored. -/
  lblock : ℕ
  /-- Offset in the logical data block. -/
  dataIdx : ℕ
  /-- Size in storage system for this fragment. -/
  curSize : ℕ
  /-- Maximum size of this file. -/
  maxSize : ℕ
  /-- Flags set when the file was created. -/
  flags : ℕ
  /-- ID of this file. -/
  id : FileId
  /-- The nonce of an encrypted file. -/
  nonce : Fin cfg.nonceLength → UInt8
  /-- The authentication tag of an encrypted file. -/
  tag : Fin cfg.tagLength → UInt8

variable {cfg : Config}

/-- The cleared metadata of a file. -/
def FileMeta.zero : FileMeta cfg := ⟨0, 0, 0, 0, 0, 0, 0, 0⟩

/-- The fields are 32-bit numbers. -/
structure BlockMeta.Fits (block : BlockMeta) : Prop where
  /-- The physical ID fits. -/
  phyId : block.phyId < 2 ^ 32
  /-- The start of the data fits. -/
  dataStart : block.dataStart < 2 ^ 32
  /-- The free size fits. -/
  freeSize : block.freeSize < 2 ^ 32

/-- The fields are 32-bit numbers. -/
structure FileMeta.Fits (file : FileMeta cfg) : Prop where
  /-- The logical block fits. -/
  lblock : file.lblock < 2 ^ 32
  /-- The offset fits. -/
  dataIdx : file.dataIdx < 2 ^ 32
  /-- The current size fits. -/
  curSize : file.curSize < 2 ^ 32
  /-- The maximum size fits. -/
  maxSize : file.maxSize < 2 ^ 32
  /-- The flags fit. -/
  flags : file.flags < 2 ^ 32

theorem FileMeta.fits_zero : (FileMeta.zero : FileMeta cfg).Fits where
  lblock := Nat.two_pow_pos 32
  dataIdx := Nat.two_pow_pos 32
  curSize := Nat.two_pow_pos 32
  maxSize := Nat.two_pow_pos 32
  flags := Nat.two_pow_pos 32

/-- The bytes of a header. -/
def MetadataBlockHeader.encode (header : MetadataBlockHeader) : Bytes := fun i ↦
  if i < 4 then u32Byte header.scratchDblock i
  else if i = 4 then header.fsVersion
  else if i = 5 then header.metadataXor
  else if i = 6 then header.activeSwapCount
  else 0

/-- A header from its bytes. -/
def MetadataBlockHeader.decode (raw : Bytes) : MetadataBlockHeader where
  scratchDblock := getU32 raw 0
  fsVersion := raw 4
  metadataXor := raw 5
  activeSwapCount := raw 6

/-- The bytes of the metadata of a block. -/
def BlockMeta.encode (block : BlockMeta) : Bytes := fun i ↦
  if i < 4 then u32Byte block.phyId i
  else if i < 8 then u32Byte block.dataStart (i - 4)
  else if i < 12 then u32Byte block.freeSize (i - 8)
  else 0

/-- The metadata of a block from its bytes. -/
def BlockMeta.decode (raw : Bytes) : BlockMeta where
  phyId := getU32 raw 0
  dataStart := getU32 raw 4
  freeSize := getU32 raw 8

/-- The bytes of the metadata of a file. -/
def FileMeta.encode (file : FileMeta cfg) : Bytes := fun i ↦
  if i < 4 then u32Byte file.lblock i
  else if i < 8 then u32Byte file.dataIdx (i - 4)
  else if i < 12 then u32Byte file.curSize (i - 8)
  else if i < 16 then u32Byte file.maxSize (i - 12)
  else if i < 20 then u32Byte file.flags (i - 16)
  else if inside : i - 20 < 12 then file.id ⟨i - 20, inside⟩
  else if inside : i - 32 < cfg.nonceLength then file.nonce ⟨i - 32, inside⟩
  else if inside : i - (32 + cfg.nonceLength) < cfg.tagLength then
    file.tag ⟨i - (32 + cfg.nonceLength), inside⟩
  else 0

/-- The metadata of a file from its bytes. -/
def FileMeta.decode (raw : Bytes) : FileMeta cfg where
  lblock := getU32 raw 0
  dataIdx := getU32 raw 4
  curSize := getU32 raw 8
  maxSize := getU32 raw 12
  flags := getU32 raw 16
  id := fun i ↦ raw (20 + i)
  nonce := fun i ↦ raw (32 + i)
  tag := fun i ↦ raw (32 + cfg.nonceLength + i)

theorem MetadataBlockHeader.decode_encode {header : MetadataBlockHeader}
    (fits : header.scratchDblock < 2 ^ 32) : decode header.encode = header := by
  have scratchDblock : getU32 header.encode 0 = header.scratchDblock :=
    getU32_of_bytes fits fun i bound ↦ by simp [encode, bound]
  simp only [decode, scratchDblock]
  rfl

theorem BlockMeta.decode_encode {block : BlockMeta} (fits : block.Fits) :
    decode block.encode = block := by
  have phyId : getU32 block.encode 0 = block.phyId :=
    getU32_of_bytes fits.phyId fun i bound ↦ by simp [encode, bound]
  have dataStart : getU32 block.encode 4 = block.dataStart :=
    getU32_of_bytes fits.dataStart fun i bound ↦ by
      rw [encode, if_neg (by omega), if_pos (by omega), Nat.add_sub_cancel_left]
  have freeSize : getU32 block.encode 8 = block.freeSize :=
    getU32_of_bytes fits.freeSize fun i bound ↦ by
      rw [encode, if_neg (by omega), if_neg (by omega), if_pos (by omega), Nat.add_sub_cancel_left]
  simp only [decode, phyId, dataStart, freeSize]

theorem FileMeta.decode_encode {file : FileMeta cfg} (fits : file.Fits) :
    decode file.encode = file := by
  have lblock : getU32 file.encode 0 = file.lblock :=
    getU32_of_bytes fits.lblock fun i bound ↦ by simp [encode, bound]
  have dataIdx : getU32 file.encode 4 = file.dataIdx :=
    getU32_of_bytes fits.dataIdx fun i bound ↦ by
      rw [encode, if_neg (by omega), if_pos (by omega), Nat.add_sub_cancel_left]
  have curSize : getU32 file.encode 8 = file.curSize :=
    getU32_of_bytes fits.curSize fun i bound ↦ by
      rw [encode, if_neg (by omega), if_neg (by omega), if_pos (by omega), Nat.add_sub_cancel_left]
  have maxSize : getU32 file.encode 12 = file.maxSize :=
    getU32_of_bytes fits.maxSize fun i bound ↦ by
      rw [encode, if_neg (by omega), if_neg (by omega), if_neg (by omega), if_pos (by omega),
        Nat.add_sub_cancel_left]
  have flags : getU32 file.encode 16 = file.flags :=
    getU32_of_bytes fits.flags fun i bound ↦ by
      rw [encode, if_neg (by omega), if_neg (by omega), if_neg (by omega), if_neg (by omega),
        if_pos (by omega), Nat.add_sub_cancel_left]
  have id : (fun i : Fin 12 ↦ file.encode (20 + i)) = file.id := by
    funext i
    have inside : 20 + (i : ℕ) - 20 < 12 := by omega
    rw [encode, if_neg (by omega), if_neg (by omega), if_neg (by omega), if_neg (by omega),
      if_neg (by omega), dif_pos inside]
    congr 1
    ext
    simp
  have nonce : (fun i : Fin cfg.nonceLength ↦ file.encode (32 + i)) = file.nonce := by
    funext i
    have inside : 32 + (i : ℕ) - 32 < cfg.nonceLength := by omega
    rw [encode, if_neg (by omega), if_neg (by omega), if_neg (by omega), if_neg (by omega),
      if_neg (by omega), dif_neg (by omega), dif_pos inside]
    congr 1
    ext
    simp
  have tag : (fun i : Fin cfg.tagLength ↦ file.encode (32 + cfg.nonceLength + i)) = file.tag := by
    funext i
    have inside : 32 + cfg.nonceLength + (i : ℕ) - (32 + cfg.nonceLength) < cfg.tagLength := by
      omega
    rw [encode, if_neg (by omega), if_neg (by omega), if_neg (by omega), if_neg (by omega),
      if_neg (by omega), dif_neg (by omega), dif_neg (by omega), dif_pos inside]
    congr 1
    ext
    simp
  simp only [decode, lblock, dataIdx, curSize, maxSize, flags, id, nonce, tag]

end TrustedFirmwareM.Its
