import TrustedFirmwareM.Its.Commits

/-!
# Mounting

A mount picks the metadata block with the later swap count, reads its header and erases the scratch
blocks.  So it does not matter what an update that was cut off has left in the scratch blocks, as
long as their header is not the later one.
-/

namespace TrustedFirmwareM.Its

variable {cfg : Config} {W : ℕ → ℕ → Prop} {ctx ctx₀ : Ctx} {f g : Flash}

/-! ## Headers -/

/-- A mount accepts the header of a metadata block. -/
def HeaderAccepted (cfg : Config) (block : Bytes) : Prop :=
  ((headerAt block).fsVersion = itsBackwardSupportedVersion ∧
      (headerAt block).compActiveSwapCount ≠ cfg.eraseVal) ∨
    ((headerAt block).fsVersion = itsSupportedVersion ∧
      (headerAt block).activeSwapCount ≠ cfg.eraseVal ∧
      metadataXorOf cfg block = (headerAt block).metadataXor)

instance (cfg : Config) (block : Bytes) : Decidable (HeaderAccepted cfg block) := by
  unfold HeaderAccepted
  infer_instance

theorem version_ne : itsSupportedVersion ≠ itsBackwardSupportedVersion := by decide

theorem runs_validateHeaderMeta (ctx : Ctx) {b : ℕ} (metablock : b = 0 ∨ b = 1)
    (accepted : HeaderAccepted cfg (f b)) :
    Runs cfg W (itsMblockValidateHeaderMeta cfg (headerAt (f b)) b) ctx f (.ok ()) ctx f := by
  rw [itsMblockValidateHeaderMeta]
  rcases accepted with ⟨version, swapCount⟩ | ⟨version, swapCount, checksum⟩
  · have backward : Runs cfg W (itsMblockValidateFsVersion (headerAt (f b)).fsVersion) ctx f
        (.ok true) ctx f := by
      rw [itsMblockValidateFsVersion, if_pos version]
      exact runs_pure _
    exact backward.bind (runs_ensure (bne_iff_ne.2 swapCount))
  · have current : Runs cfg W (itsMblockValidateFsVersion (headerAt (f b)).fsVersion) ctx f
        (.ok false) ctx f := by
      rw [itsMblockValidateFsVersion, version, if_neg version_ne, if_pos rfl]
      exact runs_pure _
    exact current.bind ((runs_ensure (bne_iff_ne.2 swapCount)).bind
      ((runs_calculateMetadataXor metablock).bind (runs_ensure (beq_iff_eq.2 checksum))))

theorem runs_validateHeaderMeta_error (ctx : Ctx) {b : ℕ} (metablock : b = 0 ∨ b = 1)
    (refused : ¬HeaderAccepted cfg (f b)) :
    ∃ status, Runs cfg W (itsMblockValidateHeaderMeta cfg (headerAt (f b)) b) ctx f (.error status)
      ctx f := by
  rw [HeaderAccepted, not_or, not_and_not_right, not_and, not_and] at refused
  obtain ⟨backward, current⟩ := refused
  rw [itsMblockValidateHeaderMeta]
  by_cases old : (headerAt (f b)).fsVersion = itsBackwardSupportedVersion
  · have version : Runs cfg W (itsMblockValidateFsVersion (headerAt (f b)).fsVersion) ctx f
        (.ok true) ctx f := by
      rw [itsMblockValidateFsVersion, if_pos old]
      exact runs_pure _
    have swapCount : ((headerAt (f b)).compActiveSwapCount != cfg.eraseVal) = false := by
      rw [bne_eq_false_iff_eq]
      exact backward old
    exact ⟨_, version.bind (runs_ensure_error swapCount)⟩
  · by_cases new : (headerAt (f b)).fsVersion = itsSupportedVersion
    · have version : Runs cfg W (itsMblockValidateFsVersion (headerAt (f b)).fsVersion) ctx f
          (.ok false) ctx f := by
        rw [itsMblockValidateFsVersion, if_neg old, if_pos new]
        exact runs_pure _
      by_cases swapCount : (headerAt (f b)).activeSwapCount = cfg.eraseVal
      · exact ⟨_, version.bind (runs_ensure_error (bne_eq_false_iff_eq.2 swapCount)).bind_error⟩
      · exact ⟨_, version.bind ((runs_ensure (bne_iff_ne.2 swapCount)).bind
          ((runs_calculateMetadataXor metablock).bind
            (runs_ensure_error (beq_eq_false_iff_ne.2 (current new swapCount)))))⟩
    · have version : Runs cfg W (itsMblockValidateFsVersion (headerAt (f b)).fsVersion) ctx f
          (.error .genericError) ctx f := by
        rw [itsMblockValidateFsVersion, if_neg old, if_neg new]
        exact runs_throw _
      exact ⟨_, version.bind_error⟩

theorem runs_readHeader (b : ℕ) :
    Runs cfg W (FlashOp.read b 0 (itsBlockMetaHeaderSize cfg)).call ctx f
      (.ok fun i ↦ f b (0 + i)) ctx f := runs_read _ _ _

theorem runs_validHeader {b : ℕ} (metablock : b = 0 ∨ b = 1) :
    Runs cfg W (validHeader cfg b) ctx f
      (.ok (if HeaderAccepted cfg (f b) then some (headerAt (f b)) else none)) ctx f := by
  refine (runs_readHeader b).result.bind ?_
  dsimp only
  split
  · next accepted =>
      exact (runs_validateHeaderMeta ctx metablock accepted).result.bind (runs_pure _)
  · next refused =>
      obtain ⟨status, run⟩ := runs_validateHeaderMeta_error (W := W) ctx metablock refused
      exact run.result.bind (runs_pure _)

/-- The header of an erased block is refused. -/
theorem not_headerAccepted_of_erased {block : Bytes}
    (erased : ∀ o < 8, block o = cfg.eraseVal) : ¬HeaderAccepted cfg block := by
  rintro (⟨-, swapCount⟩ | ⟨-, swapCount, -⟩)
  · exact swapCount (erased (0 + 5) (by decide))
  · exact swapCount (erased (0 + 6) (by decide))

theorem HeaderValid.accepted (valid : HeaderValid cfg ctx f) :
    HeaderAccepted cfg (f ctx.activeMetablock) := by
  rw [HeaderAccepted, valid.header_eq]
  exact .inr ⟨valid.version, valid.swapCount_ne, valid.checksum.symm⟩

/-! ## Swap counts -/

theorem nextSwapCount_toNat (eraseVal swapCount : UInt8) :
    ((swapCount.toNat + 1) % 256 = eraseVal.toNat ∧
        (nextSwapCount eraseVal swapCount).toNat = (swapCount.toNat + 2) % 256) ∨
      ((swapCount.toNat + 1) % 256 ≠ eraseVal.toNat ∧
        (nextSwapCount eraseVal swapCount).toNat = (swapCount.toNat + 1) % 256) := by
  have step : (swapCount + 1).toNat = (swapCount.toNat + 1) % 256 := UInt8.toNat_add swapCount 1
  have twice : (swapCount + 1 + 1).toNat = ((swapCount.toNat + 1) % 256 + 1) % 256 := by
    rw [UInt8.toNat_add, step]
    rfl
  rw [nextSwapCount, ← step, ne_eq, UInt8.toNat_inj]
  split
  · next wraps => exact .inl ⟨wraps, by omega⟩
  · next ne => exact .inr ⟨ne, rfl⟩

/-- The later one of two headers is found if their swap counts follow each other. -/
theorem latestMetaBlock_next (eraseVal_ne : cfg.eraseVal ≠ 1) {old new : MetadataBlockHeader}
    (follows : new.activeSwapCount = nextSwapCount cfg.eraseVal old.activeSwapCount)
    (swapCount_ne : old.activeSwapCount ≠ cfg.eraseVal) :
    itsMblockLatestMetaBlock cfg old new = itsMetadataBlock1 ∧
      itsMblockLatestMetaBlock cfg new old = itsMetadataBlock0 := by
  have next := nextSwapCount_toNat cfg.eraseVal old.activeSwapCount
  rw [← follows] at next
  have count_lt := old.activeSwapCount.toNat_lt
  rw [ne_eq, ← UInt8.toNat_inj] at swapCount_ne eraseVal_ne
  rw [show UInt8.toNat 1 = 1 from rfl] at eraseVal_ne
  have rollover : ∃ value : UInt8, (if cfg.eraseVal = 0x00 then 1 else 0) = value ∧
      ((cfg.eraseVal.toNat = 0 ∧ value.toNat = 1) ∨ (cfg.eraseVal.toNat ≠ 0 ∧ value.toNat = 0)) ∧
      (value + 1).toNat = value.toNat + 1 := by
    by_cases zero : cfg.eraseVal = 0
    · exact ⟨1, if_pos zero, .inl ⟨by rw [zero]; rfl, rfl⟩, rfl⟩
    · have ne := zero
      rw [← UInt8.toNat_inj] at ne
      exact ⟨0, if_neg zero, .inr ⟨ne, rfl⟩, rfl⟩
  obtain ⟨value, value_eq, value_toNat, succ_toNat⟩ := rollover
  rw [itsMblockLatestMetaBlock, itsMblockLatestMetaBlock, value_eq]
  simp only [ne_eq, gt_iff_lt, UInt8.lt_iff_toNat_lt, ← UInt8.toNat_inj, succ_toNat]
  constructor
  · split
    · rfl
    · rw [if_neg (by omega), if_pos (by omega)]
  · rw [if_neg (by omega)]
    split
    · rfl
    · rw [if_neg (by omega)]

/-! ## Mounting -/

/-- The bytes of the scratch blocks. -/
def ScratchArea (cfg : Config) (ctx : Ctx) (b o : ℕ) : Prop :=
  o < cfg.blockSize ∧
    (b = ctx.scratchMetablock ∨ 2 < cfg.numBlocks ∧ b = ctx.metaBlockHeader.scratchDblock)

/-- A flash that differs from one of a mounted file system in the scratch blocks only, and that has
no later header there. -/
structure Remains (cfg : Config) (ctx : Ctx) (f g : Flash) : Prop where
  /-- The other bytes are the same. -/
  same : ∀ b o, ¬ScratchArea cfg ctx b o → g b o = f b o
  /-- The header of the scratch metadata block is refused, or the active one follows it. -/
  older : HeaderAccepted cfg (g ctx.scratchMetablock) →
    (headerAt (g ctx.scratchMetablock)).activeSwapCount ≠ cfg.eraseVal ∧
      ctx.metaBlockHeader.activeSwapCount =
        nextSwapCount cfg.eraseVal (headerAt (g ctx.scratchMetablock)).activeSwapCount

theorem Layout.blockSize_pos (layout : Layout cfg ctx f) : 8 ≤ cfg.blockSize :=
  (le_headerSize cfg).trans ((headerSize_le_metadataEnd cfg).trans layout.config.metadata_le)

theorem Layout.scratchDblock_ne (layout : Layout cfg ctx f) :
    2 < cfg.numBlocks → 2 ≤ ctx.metaBlockHeader.scratchDblock :=
  fun large ↦ (layout.blocks.scratchDblock_bounds large).1

/-- The active metadata block has nothing to do with the scratch blocks. -/
theorem Remains.active_eq (remains : Remains cfg ctx f g) (layout : Layout cfg ctx f) :
    g ctx.activeMetablock = f ctx.activeMetablock := by
  funext o
  apply remains.same
  rintro ⟨-, metablock | ⟨large, dblock⟩⟩
  · exact layout.blocks.active_ne_scratch metablock
  · have le := layout.scratchDblock_ne large
    have metablocks := layout.blocks.active_lt
    omega

theorem Layout.remains (layout : Layout cfg ctx f) : Remains cfg ctx f f where
  same _ _ _ := rfl
  older accepted := by
    have large := layout.blockSize_pos
    exact (not_headerAccepted_of_erased (fun o bound ↦ layout.erased_metablock o (by omega))
      accepted).elim

theorem eraseBlock_outside {b b' o : ℕ}
    (scratch : b = ctx.scratchMetablock ∨ 2 < cfg.numBlocks ∧ b = ctx.metaBlockHeader.scratchDblock)
    (outside : ¬ScratchArea cfg ctx b' o) : eraseBlock cfg b g b' o = g b' o := by
  rw [eraseBlock]
  rcases eq_or_ne b' b with rfl | ne
  · rw [Function.update_self, erasedBlock, patch_out]
    rintro ⟨-, bound⟩
    rw [Nat.zero_add] at bound
    exact outside ⟨bound, scratch⟩
  · rw [Function.update_of_ne ne]

theorem eraseScratch_outside {b o : ℕ} (outside : ¬ScratchArea cfg ctx b o) :
    eraseScratch cfg ctx g b o = g b o := by
  rw [eraseScratch]
  split
  · next large =>
      rw [eraseBlock_outside (.inr ⟨large, rfl⟩) outside, eraseBlock_outside (.inl rfl) outside]
  · exact eraseBlock_outside (.inl rfl) outside

/-- A scratch block is erased. -/
theorem Remains.eraseBlock (remains : Remains cfg ctx f g) (layout : Layout cfg ctx f) {b : ℕ}
    (scratch : b = ctx.scratchMetablock ∨ 2 < cfg.numBlocks ∧
      b = ctx.metaBlockHeader.scratchDblock) :
    Remains cfg ctx f (eraseBlock cfg b g) where
  same b' o outside := by rw [eraseBlock_outside scratch outside, remains.same b' o outside]
  older accepted := by
    by_cases here : ctx.scratchMetablock = b
    · have large := layout.blockSize_pos
      rw [here] at accepted
      exact (not_headerAccepted_of_erased (fun o bound ↦ eraseBlock_self (by omega)) accepted).elim
    · rw [eraseBlock_of_ne here] at accepted ⊢
      exact remains.older accepted

/-- Erasing the scratch blocks brings back the mounted file system. -/
theorem Remains.eraseScratch (remains : Remains cfg ctx f g) (layout : Layout cfg ctx f) :
    eraseScratch cfg ctx g = f := by
  funext b o
  by_cases inside : ScratchArea cfg ctx b o
  · obtain ⟨bound, rfl | ⟨large, rfl⟩⟩ := inside
    · rw [eraseScratch_metablock_eq bound, layout.erased_metablock o bound]
    · rw [eraseScratch_dblock_eq large bound, layout.erased_dblock large o bound]
  · rw [eraseScratch_outside inside, remains.same b o inside]

/-- The active metadata block is found. -/
theorem Remains.runs_getActiveMetablock (remains : Remains cfg ctx f g) (layout : Layout cfg ctx f)
    (valid : HeaderValid cfg ctx f) (eraseVal_ne : cfg.eraseVal ≠ 1) :
    Runs cfg W (itsInitGetActiveMetablock cfg) ctx₀ g (.ok ())
      { ctx₀ with
        activeMetablock := ctx.activeMetablock
        scratchMetablock := ctx.scratchMetablock } g := by
  have active_eq := remains.active_eq layout
  have accepted := valid.accepted
  have header_eq := valid.header_eq
  rw [← active_eq] at accepted header_eq
  have latest : HeaderAccepted cfg (g ctx.scratchMetablock) →
      itsMblockLatestMetaBlock cfg (headerAt (g ctx.scratchMetablock)) ctx.metaBlockHeader =
          itsMetadataBlock1 ∧
        itsMblockLatestMetaBlock cfg ctx.metaBlockHeader (headerAt (g ctx.scratchMetablock)) =
          itsMetadataBlock0 := by
    intro older
    have count := remains.older older
    exact latestMetaBlock_next eraseVal_ne count.2 count.1
  refine (runs_validHeader (.inl rfl)).bind ((runs_validHeader (.inr rfl)).bind ?_)
  rcases layout.blocks.metablocks with ⟨active, scratch⟩ | ⟨active, scratch⟩
  · rw [active] at accepted header_eq
    rw [scratch] at latest
    rw [active, scratch, if_pos accepted, header_eq]
    by_cases older : HeaderAccepted cfg (g 1)
    · rw [if_pos older]
      dsimp only
      rw [(latest older).2]
      exact (runs_pure _).bind (runs_modifyCtx _)
    · rw [if_neg older]
      exact (runs_pure _).bind (runs_modifyCtx _)
  · rw [active] at accepted header_eq
    rw [scratch] at latest
    rw [active, scratch, if_pos accepted, header_eq]
    by_cases older : HeaderAccepted cfg (g 0)
    · rw [if_pos older]
      dsimp only
      rw [(latest older).1]
      exact (runs_pure _).bind (runs_modifyCtx _)
    · rw [if_neg older]
      exact (runs_pure _).bind (runs_modifyCtx _)

/-- A mount brings back the mounted file system, wherever another mount has been cut off. -/
theorem Remains.passes_init (remains : Remains cfg ctx f g) (layout : Layout cfg ctx f)
    (valid : HeaderValid cfg ctx f) (eraseVal_ne : cfg.eraseVal ≠ 1) :
    Passes cfg (Remains cfg ctx f) (itsFlashFsMblockInit cfg) ctx₀ g (.ok ()) ctx f := by
  have active_eq := remains.active_eq layout
  have metablocks := layout.blocks.active_lt
  have accepted := valid.accepted
  rw [← active_eq] at accepted
  have read : Runs cfg (fun _ _ ↦ False) (itsMblockReadMetaHeader cfg)
      { ctx₀ with
        activeMetablock := ctx.activeMetablock
        scratchMetablock := ctx.scratchMetablock } g (.ok ()) ctx g := by
    refine runs_getCtx.bind ((runs_readHeader _).bind ((runs_modifyCtx _).bind ?_))
    have header_eq := valid.header_eq
    rw [← active_eq] at header_eq
    have validate := runs_validateHeaderMeta (W := fun _ _ ↦ False) ctx
      (show ctx.activeMetablock = 0 ∨ ctx.activeMetablock = 1 by omega) accepted
    rw [headerAt] at header_eq validate
    rw [header_eq] at validate ⊢
    exact validate
  have upgrade : Runs cfg (fun _ _ ↦ False) (itsMblockUpgradeMetaHeader cfg) ctx f
      (.ok ()) ctx f := by
    have version : Runs cfg (fun _ _ ↦ False) (itsMblockValidateFsVersion
        ctx.metaBlockHeader.fsVersion) ctx f (.ok false) ctx f := by
      rw [itsMblockValidateFsVersion, valid.version, if_neg version_ne, if_pos rfl]
      exact runs_pure _
    exact runs_getCtx.bind (version.bind (runs_pure _))
  have erase : Passes cfg (Remains cfg ctx f) (itsMblockEraseScratchBlocks cfg) ctx g (.ok ()) ctx
      f := by
    have cleared := remains.eraseScratch layout
    have behind : Remains cfg ctx f (Its.eraseScratch cfg ctx g) := by
      rw [cleared]
      exact layout.remains
    have pass := passes_eraseScratchBlocks remains (remains.eraseBlock layout (.inl rfl)) behind
    rw [cleared] at pass
    exact pass
  exact ((remains.runs_getActiveMetablock layout valid eraseVal_ne).orStatus.passes_silent
    remains).bind ((read.orStatus.passes_silent remains).bind (erase.orStatus.bind
      (upgrade.passes_silent erase.behind)))

end TrustedFirmwareM.Its
