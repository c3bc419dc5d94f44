import TrustedFirmwareM.Its.Execution

/-!
# Reading metadata

Where the entries of a metadata block lie, and what the functions that read them return.  The
functions only read the active metadata block; an entry that is read must pass its check.
-/

namespace TrustedFirmwareM.Its

variable {cfg : Config} {W : ℕ → ℕ → Prop} {ctx : Ctx} {f : Flash}

/-! ## Offsets -/

/-- The end of the metadata in a metadata block. -/
def metadataEnd (cfg : Config) : ℕ := itsMblockFileMetaOffset cfg cfg.maxNumFiles

theorem le_padded (cfg : Config) (size : ℕ) : size ≤ cfg.padded size := by
  have pos := cfg.maxAlignment_pos
  have split := Nat.div_add_mod (size + (cfg.maxAlignment - 1)) cfg.maxAlignment
  have bound := Nat.mod_lt (size + (cfg.maxAlignment - 1)) pos
  rw [Nat.mul_comm] at split
  rw [Config.padded]
  omega

theorem le_headerSize (cfg : Config) : 8 ≤ itsBlockMetaHeaderSize cfg := le_padded cfg 8

theorem le_blockMetadataSize (cfg : Config) : 12 ≤ itsBlockMetadataSize cfg := le_padded cfg 12

theorem le_fileMetadataSize (cfg : Config) :
    32 + cfg.nonceLength + cfg.tagLength ≤ itsFileMetadataSize cfg := le_padded cfg _

theorem blockMetaOffset_zero (cfg : Config) :
    itsMblockBlockMetaOffset cfg 0 = itsBlockMetaHeaderSize cfg := by
  rw [itsMblockBlockMetaOffset, Nat.zero_mul, Nat.add_zero]

theorem blockMetaOffset_succ (cfg : Config) (l : ℕ) :
    itsMblockBlockMetaOffset cfg (l + 1) =
      itsMblockBlockMetaOffset cfg l + itsBlockMetadataSize cfg := by
  simp only [itsMblockBlockMetaOffset, Nat.succ_mul, Nat.add_assoc]

theorem fileMetaOffset_succ (cfg : Config) (i : ℕ) :
    itsMblockFileMetaOffset cfg (i + 1) =
      itsMblockFileMetaOffset cfg i + itsFileMetadataSize cfg := by
  simp only [itsMblockFileMetaOffset, Nat.succ_mul, Nat.add_assoc]

theorem headerSize_le_blockMetaOffset (cfg : Config) (l : ℕ) :
    itsBlockMetaHeaderSize cfg ≤ itsMblockBlockMetaOffset cfg l :=
  Nat.le_add_right _ _

theorem headerSize_le_fileMetaOffset (cfg : Config) (i : ℕ) :
    itsBlockMetaHeaderSize cfg ≤ itsMblockFileMetaOffset cfg i :=
  (Nat.le_add_right _ _).trans (Nat.le_add_right _ _)

theorem blockMetaOffset_mono (cfg : Config) {l l' : ℕ} (le : l ≤ l') :
    itsMblockBlockMetaOffset cfg l ≤ itsMblockBlockMetaOffset cfg l' :=
  Nat.add_le_add_left (Nat.mul_le_mul_right _ le) _

theorem fileMetaOffset_mono (cfg : Config) {i i' : ℕ} (le : i ≤ i') :
    itsMblockFileMetaOffset cfg i ≤ itsMblockFileMetaOffset cfg i' :=
  Nat.add_le_add_left (Nat.mul_le_mul_right _ le) _

theorem blockMetaOffset_lt (cfg : Config) {l l' : ℕ} (lt : l < l') :
    itsMblockBlockMetaOffset cfg l + itsBlockMetadataSize cfg ≤
      itsMblockBlockMetaOffset cfg l' := by
  rw [← blockMetaOffset_succ]
  exact blockMetaOffset_mono cfg lt

theorem fileMetaOffset_lt (cfg : Config) {i i' : ℕ} (lt : i < i') :
    itsMblockFileMetaOffset cfg i + itsFileMetadataSize cfg ≤ itsMblockFileMetaOffset cfg i' := by
  rw [← fileMetaOffset_succ]
  exact fileMetaOffset_mono cfg lt

theorem blockMetaOffset_numActive (cfg : Config) :
    itsMblockBlockMetaOffset cfg (itsNumActiveDblocks cfg) = itsMblockFileMetaOffset cfg 0 := by
  rw [itsMblockBlockMetaOffset, itsMblockFileMetaOffset, Nat.zero_mul, Nat.add_zero]

/-! ## Entries -/

/-- The metadata of a file in a metadata block. -/
def fileMetaAt (cfg : Config) (block : Bytes) (i : ℕ) : FileMeta cfg :=
  FileMeta.decode fun j ↦ block (itsMblockFileMetaOffset cfg i + j)

/-- The metadata of a logical block in a metadata block. -/
def blockMetaAt (cfg : Config) (block : Bytes) (l : ℕ) : BlockMeta :=
  BlockMeta.decode fun j ↦ block (itsMblockBlockMetaOffset cfg l + j)

/-- The header of a metadata block. -/
def headerAt (block : Bytes) : MetadataBlockHeader :=
  MetadataBlockHeader.decode fun j ↦ block (0 + j)

theorem FileMeta.decode_congr {raw raw' : Bytes}
    (same : ∀ j < itsFileMetadataSize cfg, raw j = raw' j) :
    (FileMeta.decode raw : FileMeta cfg) = FileMeta.decode raw' := by
  have size := le_fileMetadataSize cfg
  have field : ∀ offset, offset + 4 ≤ itsFileMetadataSize cfg →
      getU32 raw offset = getU32 raw' offset :=
    fun offset bound ↦ getU32_congr fun i _ ↦ same _ (by omega)
  simp only [decode, field 0 (by omega), field 4 (by omega), field 8 (by omega),
    field 12 (by omega), field 16 (by omega), FileMeta.mk.injEq, true_and]
  exact ⟨funext fun i ↦ same _ (by omega), funext fun i ↦ same _ (by omega),
    funext fun i ↦ same _ (by omega)⟩

theorem BlockMeta.decode_congr {raw raw' : Bytes}
    (same : ∀ j < itsBlockMetadataSize cfg, raw j = raw' j) :
    BlockMeta.decode raw = BlockMeta.decode raw' := by
  have size := le_blockMetadataSize cfg
  have field : ∀ offset, offset + 4 ≤ itsBlockMetadataSize cfg →
      getU32 raw offset = getU32 raw' offset :=
    fun offset bound ↦ getU32_congr fun i _ ↦ same _ (by omega)
  simp only [decode, field 0 (by omega), field 4 (by omega), field 8 (by omega)]

theorem fileMetaAt_congr {block block' : Bytes} {i : ℕ}
    (same : ∀ j < itsFileMetadataSize cfg,
      block (itsMblockFileMetaOffset cfg i + j) = block' (itsMblockFileMetaOffset cfg i + j)) :
    fileMetaAt cfg block i = fileMetaAt cfg block' i :=
  FileMeta.decode_congr same

theorem blockMetaAt_congr {block block' : Bytes} {l : ℕ}
    (same : ∀ j < itsBlockMetadataSize cfg,
      block (itsMblockBlockMetaOffset cfg l + j) = block' (itsMblockBlockMetaOffset cfg l + j)) :
    blockMetaAt cfg block l = blockMetaAt cfg block' l :=
  BlockMeta.decode_congr same

theorem fileMetaAt_encode {block : Bytes} {i : ℕ} {file : FileMeta cfg} (fits : file.Fits)
    (bytes : ∀ j < itsFileMetadataSize cfg,
      block (itsMblockFileMetaOffset cfg i + j) = file.encode j) :
    fileMetaAt cfg block i = file :=
  (FileMeta.decode_congr bytes).trans (FileMeta.decode_encode fits)

theorem blockMetaAt_encode {block : Bytes} {l : ℕ} {blockMeta : BlockMeta} (fits : blockMeta.Fits)
    (bytes : ∀ j < itsBlockMetadataSize cfg,
      block (itsMblockBlockMetaOffset cfg l + j) = blockMeta.encode j) :
    blockMetaAt cfg block l = blockMeta :=
  (BlockMeta.decode_congr bytes).trans (BlockMeta.decode_encode fits)

theorem fits_fileMetaAt (cfg : Config) (block : Bytes) (i : ℕ) : (fileMetaAt cfg block i).Fits where
  lblock := getU32_lt _ _
  dataIdx := getU32_lt _ _
  curSize := getU32_lt _ _
  maxSize := getU32_lt _ _
  flags := getU32_lt _ _

theorem fits_blockMetaAt (cfg : Config) (block : Bytes) (l : ℕ) :
    (blockMetaAt cfg block l).Fits where
  phyId := getU32_lt _ _
  dataStart := getU32_lt _ _
  freeSize := getU32_lt _ _

/-- Every entry of a metadata block passes its check. -/
structure EntriesValid (cfg : Config) (block : Bytes) : Prop where
  /-- The metadata of the files is valid. -/
  file : ∀ i < cfg.maxNumFiles, itsMblockValidateFileMeta (fileMetaAt cfg block i) = true
  /-- The metadata of the blocks is valid. -/
  block : ∀ l < itsNumActiveDblocks cfg,
    itsMblockValidateBlockMeta cfg (blockMetaAt cfg block l) = true

/-! ## Functions -/

theorem runs_readFileMeta {i : ℕ}
    (valid : itsMblockValidateFileMeta (fileMetaAt cfg (f ctx.activeMetablock) i) = true) :
    Runs cfg W (itsFlashFsMblockReadFileMeta cfg i) ctx f
      (.ok (fileMetaAt cfg (f ctx.activeMetablock) i)) ctx f :=
  runs_getCtx.bind ((runs_read _ _ _).bind ((runs_ensure valid).bind (runs_pure _)))

theorem runs_readBlockMetadata {l : ℕ}
    (valid : itsMblockValidateBlockMeta cfg (blockMetaAt cfg (f ctx.activeMetablock) l) = true) :
    Runs cfg W (itsFlashFsMblockReadBlockMetadata cfg l) ctx f
      (.ok (blockMetaAt cfg (f ctx.activeMetablock) l)) ctx f :=
  runs_getCtx.bind ((runs_read _ _ _).bind ((runs_ensure valid).bind (runs_pure _)))

theorem runs_findFileMeta (valid : EntriesValid cfg (f ctx.activeMetablock))
    (p : FileMeta cfg → Bool) {indices : List ℕ} (bound : ∀ i ∈ indices, i < cfg.maxNumFiles) :
    Runs cfg W (findFileMeta cfg p indices) ctx f
      (match indices.find? fun i ↦ p (fileMetaAt cfg (f ctx.activeMetablock) i) with
        | some i => .ok (i, fileMetaAt cfg (f ctx.activeMetablock) i)
        | none => .error .doesNotExist) ctx f := by
  induction indices with
  | nil => exact runs_throw _
  | cons i rest ih =>
      rw [findFileMeta]
      refine (runs_readFileMeta (valid.file i (bound i List.mem_cons_self))).orStatus.bind ?_
      rw [List.find?_cons]
      cases found : p (fileMetaAt cfg (f ctx.activeMetablock) i) with
      | true => exact runs_pure _
      | false => exact ih fun j member ↦ bound j (List.mem_cons_of_mem i member)

/-- Whether an entry is in use. -/
abbrev FileMeta.Live (file : FileMeta cfg) : Prop := file.id ≠ 0

theorem runs_getFileIdxMeta (valid : EntriesValid cfg (f ctx.activeMetablock)) (fid : FileId) :
    Runs cfg W (itsFlashFsMblockGetFileIdxMeta cfg fid) ctx f
      (match (List.range cfg.maxNumFiles).find? fun i ↦
          (fileMetaAt cfg (f ctx.activeMetablock) i).id == fid with
        | some i => .ok (i, fileMetaAt cfg (f ctx.activeMetablock) i)
        | none => .error .doesNotExist) ctx f :=
  runs_findFileMeta valid _ fun _ member ↦ List.mem_range.1 member

/-- The free file index that a search finds. -/
def freeIndex (isFree : ℕ → Bool) : Bool → List ℕ → Option ℕ
  | _, [] => none
  | useSpare, i :: rest =>
      if isFree i then if useSpare then some i else freeIndex isFree true rest
      else freeIndex isFree useSpare rest

theorem runs_getFreeFileIndexLoop (valid : EntriesValid cfg (f ctx.activeMetablock))
    (useSpare : Bool) {indices : List ℕ} (bound : ∀ i ∈ indices, i < cfg.maxNumFiles) :
    Runs cfg W (getFreeFileIndexLoop cfg useSpare indices) ctx f
      (.ok (freeIndex (fun i ↦ !itsUtilsValidateFid (fileMetaAt cfg (f ctx.activeMetablock) i).id)
        useSpare indices)) ctx f := by
  induction indices generalizing useSpare with
  | nil => exact runs_pure _
  | cons i rest ih =>
      have others : ∀ j ∈ rest, j < cfg.maxNumFiles :=
        fun j member ↦ bound j (List.mem_cons_of_mem i member)
      rw [getFreeFileIndexLoop, freeIndex]
      refine (runs_readFileMeta (valid.file i (bound i List.mem_cons_self))).result.bind ?_
      dsimp only
      cases used : itsUtilsValidateFid (fileMetaAt cfg (f ctx.activeMetablock) i).id with
      | true => exact ih useSpare others
      | false =>
          cases useSpare with
          | true => exact runs_pure _
          | false => exact ih true others

theorem runs_getFreeFileIndex (valid : EntriesValid cfg (f ctx.activeMetablock)) (useSpare : Bool) :
    Runs cfg W (itsGetFreeFileIndex cfg useSpare) ctx f
      (.ok (freeIndex (fun i ↦ !itsUtilsValidateFid (fileMetaAt cfg (f ctx.activeMetablock) i).id)
        useSpare (List.range cfg.maxNumFiles))) ctx f :=
  runs_getFreeFileIndexLoop valid useSpare fun _ member ↦ List.mem_range.1 member

theorem freeIndex_isFree {isFree : ℕ → Bool} {useSpare : Bool} {indices : List ℕ} {i : ℕ}
    (found : freeIndex isFree useSpare indices = some i) : isFree i = true ∧ i ∈ indices := by
  induction indices generalizing useSpare with
  | nil => cases found
  | cons j rest ih =>
      rw [freeIndex] at found
      split at found
      · next free =>
          split at found
          · cases found
            exact ⟨free, List.mem_cons_self⟩
          · exact ⟨(ih found).1, List.mem_cons_of_mem j (ih found).2⟩
      · exact ⟨(ih found).1, List.mem_cons_of_mem j (ih found).2⟩

/-- A search that does not use the spare index leaves a free index before the one that it finds. -/
theorem freeIndex_spare {isFree : ℕ → Bool} {indices : List ℕ} {i : ℕ} (nodup : indices.Nodup)
    (found : freeIndex isFree false indices = some i) : ∃ j ∈ indices, isFree j = true ∧ j ≠ i := by
  induction indices with
  | nil => cases found
  | cons j rest ih =>
      rw [freeIndex] at found
      split at found
      · next free =>
          refine ⟨j, List.mem_cons_self, free, ?_⟩
          rintro rfl
          exact (List.nodup_cons.1 nodup).1 (freeIndex_isFree found).2
      · obtain ⟨k, member, free, other⟩ := ih (List.nodup_cons.1 nodup).2 found
        exact ⟨k, List.mem_cons_of_mem j member, free, other⟩

end TrustedFirmwareM.Its
