import TrustedFirmwareM.Isolation.Mpc
import TrustedFirmwareM.Lib.Run

/-!
# The memory protection controller of the RRAM

The controller of the RRAM belongs to the secure enclave, which configures it on request and does
not let it be read.  A cache of its attributes serves memory checks: a word for each block, with
four bits for each protection context.
-/

namespace TrustedFirmwareM.Isolation.ExternalMpc

/-- The RRAM and its controller. -/
structure Rram where
  /-- The memory. -/
  config : MemoryConfig
  /-- `IFX_RRAM_SIZE`. -/
  size : Word
  /-- `IFX_SE_RT_RRAM_BLOCK_SIZE`. -/
  blockSize : Word
  /-- `IFX_SE_RT_RRAM_MPC_DEFAULT_ATTRIBUTES`. -/
  defaultAttributes : Word
  /-- `IFX_PC_TFM_SPM_ID`. -/
  spmPc : ℕ
  /-- `MPC_PC_NR`. -/
  pcNr : ℕ

/-- `IFX_SE_RT_RRAM_BLOCK_COUNT`. -/
def Rram.blockCount (P : Rram) : ℕ := (P.size / P.blockSize).toNat

/-- The protection contexts that are configured. -/
def Rram.pcs (P : Rram) : List ℕ := List.range' P.spmPc (P.pcNr - P.spmPc)

/-- `ifx_mpc_region_config_t`. -/
structure RegionConfig where
  /-- The address of the region. -/
  address : Word
  /-- The size of the region. -/
  size : Word
  /-- The protection contexts to be modified. -/
  pcMask : Word
  /-- The protection contexts for which the region is non-secure. -/
  nsMask : Word
  /-- The protection contexts that may read. -/
  rMask : Word
  /-- The protection contexts that may write. -/
  wMask : Word

/-- `IFX_GET_PC`. -/
def ifxGetPc (mask : Word) (pc : ℕ) : Bool := mask.getLsbD pc

/-- `ifx_se_mpc_rot_cfg_t`, with blocks of 4 KB. -/
structure SeMpcConfig where
  /-- The offset of the region. -/
  addrOffset : Word
  /-- The size of the region. -/
  size : Word
  /-- The protection context. -/
  pc : ℕ
  /-- The attributes. -/
  attr : BlockAttr

/-- `ifx_se_mpc_config_rot_mpc_struct`: whether the controller has been configured, and its
attributes. -/
abbrev Service := SeMpcConfig → Mpc → Bool × Mpc

/-- The state of the controller and of the cache. -/
structure World where
  /-- `ifx_mpc_se_rt_rram_attr`. -/
  cache : ℕ → Word
  /-- The controller. -/
  mpc : Mpc

/-- `ifx_mpc_ext_cache_cfg_info_t`. -/
structure CacheInfo where
  /-- The attributes. -/
  attr : Word
  /-- The bits that are replaced. -/
  mask : Word
  /-- The first block. -/
  firstBlockIdx : Word
  /-- The end of the blocks. -/
  lastBlockIdx : Word

/-- A bit, if a protection context is in a mask. -/
def bitFor (mask : Word) (pc bit : ℕ) : Word :=
  if ifxGetPc mask pc then (1 : Word) <<< (pc * 4 + bit) else 0

/-- The attributes and the mask for protection contexts. -/
def cacheBits (cfg : RegionConfig) : List ℕ → Word × Word → Word × Word
  | [], bits => bits
  | pc :: rest, (attr, mask) =>
      if ifxGetPc cfg.pcMask pc then
        cacheBits cfg rest
          (attr ||| bitFor cfg.nsMask pc 0 ||| bitFor cfg.rMask pc 1 ||| bitFor cfg.wMask pc 2,
            mask ||| (7 : Word) <<< (pc * 4))
      else cacheBits cfg rest (attr, mask)

/-- `ifx_mpc_external_mpc_config_to_cache_info`. -/
def ifxMpcExternalMpcConfigToCacheInfo (P : Rram) (cfg : RegionConfig) (m : MemoryConfig) :
    Option CacheInfo :=
  if P.blockSize ≠ ifxMpcBlockSizeToBytes m.mpcBlockSize then none
  else
    let offset := m.offset cfg.address
    let first := firstBlockIdx offset P.blockSize
    let last := lastBlockIdx offset cfg.size P.blockSize
    if P.blockCount ≤ first.toNat ∨ P.blockCount < last.toNat then none
    else
      let bits := cacheBits cfg P.pcs (0, 0)
      some ⟨bits.1, bits.2, first, last⟩

/-- What is asked for a protection context. -/
def attrFor (cfg : RegionConfig) (pc : ℕ) : BlockAttr :=
  if ifxGetPc cfg.pcMask pc then
    ⟨ifxGetPc cfg.nsMask pc, .ofMasks (ifxGetPc cfg.rMask pc) (ifxGetPc cfg.wMask pc)⟩
  else .closed

/-- The request for a protection context. -/
def seMpcConfig (cfg : RegionConfig) (m : MemoryConfig) (pc : ℕ) : SeMpcConfig :=
  ⟨m.offset cfg.address, cfg.size, pc, attrFor cfg pc⟩

/-- The requests for protection contexts, until one fails. -/
def requestAll (service : Service) (request : ℕ → SeMpcConfig) : List ℕ → Mpc → Bool × Mpc
  | [], mpc => (true, mpc)
  | pc :: rest, mpc =>
      match service (request pc) mpc with
      | (false, mpc) => (false, mpc)
      | (true, mpc) => requestAll service request rest mpc

/-- Replace bits of the cache. -/
def updateCache (info : CacheInfo) : List ℕ → (ℕ → Word) → ℕ → Word
  | [], cache => cache
  | blockId :: rest, cache =>
      updateCache info rest
        (Function.update cache blockId (cache blockId &&& ~~~info.mask ||| info.attr))

/-- `ifx_mpc_apply_configuration_with_external_mpc`.  Nothing is done while assets are protected
dynamically. -/
def ifxMpcApplyConfigurationWithExternalMpc (P : Rram) (service : Service) (dynamic : Bool)
    (cfg : RegionConfig) (m : MemoryConfig) (x : World) : HalStatus × World :=
  if dynamic then (.success, x)
  else if m.mpcBlockSize ≠ cyMpcSize4kb then (.invalidInput, x)
  else
    match requestAll service (seMpcConfig cfg m) P.pcs x.mpc with
    | (false, mpc) => (.generic, { x with mpc })
    | (true, mpc) =>
        match ifxMpcExternalMpcConfigToCacheInfo P cfg m with
        | none => (.generic, { x with mpc })
        | some info =>
            (.success,
              ⟨updateCache info (blockIds info.firstBlockIdx info.lastBlockIdx) x.cache, mpc⟩)

/-- The loop of `ifx_mpc_memory_check_with_external_mpc`. -/
def checkCache (cache : ℕ → Word) (mask attr : Word) : List ℕ → HalStatus
  | [] => .success
  | blockId :: rest =>
      if cache blockId &&& mask ≠ attr then .memFault else checkCache cache mask attr rest

/-- `ifx_mpc_memory_check_with_external_mpc`. -/
def ifxMpcMemoryCheckWithExternalMpc (P : Rram) (cache : ℕ → Word) (pc : ℕ) (m : MemoryConfig)
    (base size : Word) (accessType : AccessType) : HalStatus :=
  if P.blockSize ≠ ifxMpcBlockSizeToBytes m.mpcBlockSize then .memFault
  else
    let offset := m.offset base
    let first := firstBlockIdx offset P.blockSize
    let last := lastBlockIdx offset size P.blockSize
    if P.blockCount ≤ first.toNat ∨ P.blockCount < last.toNat then .memFault
    else
      let readBit : Word := if accessType.readable then (1 : Word) <<< (pc * 4 + 1) else 0
      let writeBit : Word := if accessType.writable then (1 : Word) <<< (pc * 4 + 2) else 0
      let mask := (1 : Word) <<< (pc * 4) ||| readBit ||| writeBit
      let attr := (if accessType.ns then (1 : Word) <<< (pc * 4) else 0) ||| readBit ||| writeBit
      checkCache cache mask attr (blockIds first last)

/-- The attributes of a protection context in a word of the cache. -/
def cachedAttr (word : Word) (pc : ℕ) : BlockAttr :=
  ⟨word.getLsbD (pc * 4), .ofMasks (word.getLsbD (pc * 4 + 1)) (word.getLsbD (pc * 4 + 2))⟩

/-! ## Bits of the cache -/

section

variable {p q j k : ℕ}

theorem getLsbD_bit {i : ℕ} (small : i < 32) (j : ℕ) :
    ((1 : Word) <<< i).getLsbD j = decide (i = j) := by
  change ((1#32) <<< i).getLsbD j = _
  rw [← BitVec.twoPow_eq, BitVec.getLsbD_twoPow, decide_eq_true small, Bool.true_and]

/-- The mask of a protection context covers its three attributes. -/
theorem getLsbD_seven : ∀ (p q : Fin 8) (k : Fin 3),
    ((7 : Word) <<< (q.val * 4)).getLsbD (p.val * 4 + k.val) = decide (q.val = p.val) := by
  decide

theorem getLsbD_bitFor {mask : Word} (small : q < 8) (first : j < 3) (second : k < 3) :
    (bitFor mask q j).getLsbD (p * 4 + k) = (decide (q = p ∧ j = k) && ifxGetPc mask q) := by
  rw [bitFor]
  cases ifxGetPc mask q with
  | false => simp
  | true =>
      rw [if_pos rfl, getLsbD_bit (by omega), Bool.and_true]
      exact decide_eq_decide.2 (by omega)

/-- The attribute of a configuration that a bit of the cache is for. -/
def RegionConfig.field (cfg : RegionConfig) : ℕ → Word
  | 0 => cfg.nsMask
  | 1 => cfg.rMask
  | _ => cfg.wMask

/-- The bits of a protection context that is in the mask are replaced by its attributes. -/
theorem getLsbD_cacheBits {cfg : RegionConfig} {pcs : List ℕ} (small : ∀ pc ∈ pcs, pc < 8)
    (bits : Word × Word) (bound : p < 8) (bit : k < 3) :
    (cacheBits cfg pcs bits).1.getLsbD (p * 4 + k) = (bits.1.getLsbD (p * 4 + k) ||
        decide (p ∈ pcs) && (ifxGetPc cfg.pcMask p && ifxGetPc (cfg.field k) p)) ∧
      (cacheBits cfg pcs bits).2.getLsbD (p * 4 + k) = (bits.2.getLsbD (p * 4 + k) ||
        decide (p ∈ pcs) && ifxGetPc cfg.pcMask p) := by
  induction pcs generalizing bits with
  | nil => simp [cacheBits]
  | cons q rest ih =>
      have ih := ih fun pc mem ↦ small pc (List.mem_cons_of_mem _ mem)
      have q_small := small q List.mem_cons_self
      obtain ⟨attr, mask⟩ := bits
      rw [cacheBits]
      split
      · next selected =>
          rw [(ih _).1, (ih _).2, BitVec.getLsbD_or, BitVec.getLsbD_or, BitVec.getLsbD_or,
            BitVec.getLsbD_or, getLsbD_bitFor q_small (by decide) bit,
            getLsbD_bitFor q_small (by decide) bit, getLsbD_bitFor q_small (by decide) bit,
            getLsbD_seven ⟨p, bound⟩ ⟨q, q_small⟩ ⟨k, bit⟩]
          by_cases eq : q = p
          · subst eq
            obtain rfl | rfl | rfl : k = 0 ∨ k = 1 ∨ k = 2 := by omega
            all_goals
              simp [RegionConfig.field, selected]
              exact fun _ set ↦ .inr set
          · simp [eq, Ne.symm eq]
      · next unselected =>
          rw [(ih _).1, (ih _).2]
          by_cases eq : q = p
          · subst eq
            simp [unselected]
          · simp [Ne.symm eq]

/-- The bits of an access are set in a word if and only if its attributes permit the access. -/
theorem and_mask_eq_iff {word : Word} (bound : p < 8) (accessType : AccessType) :
    word &&& ((1 : Word) <<< (p * 4) |||
          (if accessType.readable then (1 : Word) <<< (p * 4 + 1) else 0) |||
          (if accessType.writable then (1 : Word) <<< (p * 4 + 2) else 0)) =
        (if accessType.ns then (1 : Word) <<< (p * 4) else 0) |||
          (if accessType.readable then (1 : Word) <<< (p * 4 + 1) else 0) |||
          (if accessType.writable then (1 : Word) <<< (p * 4 + 2) else 0) ↔
      (cachedAttr word p).Permits accessType.ns accessType := by
  have bit_ite (c : Bool) {i : ℕ} (small : i < 32) (j : ℕ) :
      (if c then (1 : Word) <<< i else 0).getLsbD j = (decide (i = j) && c) := by
    cases c with
    | false => simp
    | true => rw [if_pos rfl, getLsbD_bit small, Bool.and_true]
  obtain ⟨readable, writable, ns⟩ := accessType
  have bits : word &&& ((1 : Word) <<< (p * 4) |||
          (if readable then (1 : Word) <<< (p * 4 + 1) else 0) |||
          (if writable then (1 : Word) <<< (p * 4 + 2) else 0)) =
        (if ns then (1 : Word) <<< (p * 4) else 0) |||
          (if readable then (1 : Word) <<< (p * 4 + 1) else 0) |||
          (if writable then (1 : Word) <<< (p * 4 + 2) else 0) ↔
      ∀ i, (word.getLsbD i && (decide (p * 4 = i) || decide (p * 4 + 1 = i) && readable ||
          decide (p * 4 + 2 = i) && writable)) =
        (decide (p * 4 = i) && ns || decide (p * 4 + 1 = i) && readable ||
          decide (p * 4 + 2 = i) && writable) := by
    constructor
    · intro eq i
      have at_i := congrArg (fun w : Word ↦ w.getLsbD i) eq
      simpa only [BitVec.getLsbD_and, BitVec.getLsbD_or, getLsbD_bit (show p * 4 < 32 by omega),
        bit_ite _ (show p * 4 < 32 by omega), bit_ite _ (show p * 4 + 1 < 32 by omega),
        bit_ite _ (show p * 4 + 2 < 32 by omega)] using at_i
    · intro eq
      refine BitVec.eq_of_getLsbD_eq fun i _ ↦ ?_
      simpa only [BitVec.getLsbD_and, BitVec.getLsbD_or, getLsbD_bit (show p * 4 < 32 by omega),
        bit_ite _ (show p * 4 < 32 by omega), bit_ite _ (show p * 4 + 1 < 32 by omega),
        bit_ite _ (show p * 4 + 2 < 32 by omega)] using eq i
  rw [bits]
  constructor
  · intro eq
    refine ⟨?_, ?_, ?_⟩
    · simpa [cachedAttr] using eq (p * 4)
    · rintro rfl
      simpa [cachedAttr] using eq (p * 4 + 1)
    · rintro rfl
      simpa [cachedAttr] using eq (p * 4 + 2)
  · rintro ⟨nonSecure_eq, reads, writes⟩ i
    simp only [cachedAttr, MpcAccess.reads_ofMasks,
      MpcAccess.writes_ofMasks] at nonSecure_eq reads writes
    by_cases zero : p * 4 = i
    · subst zero
      simp [nonSecure_eq]
    by_cases one : p * 4 + 1 = i
    · subst one
      cases readable <;> simp_all
    by_cases two : p * 4 + 2 = i
    · subst two
      cases writable <;> simp_all
    · simp [zero, one, two]

end

/-! ## Configurations -/

/-- The block is touched by a request. -/
def SeMpcConfig.Touches (r : SeMpcConfig) (b : ℕ) : Prop :=
  r.addrOffset.toNat < (b + 1) * 4096 ∧ b * 4096 < r.addrOffset.toNat + r.size.toNat

instance (r : SeMpcConfig) (b : ℕ) : Decidable (r.Touches b) := inferInstanceAs (Decidable (_ ∧ _))

/-- The attributes after a request. -/
def SeMpcConfig.applied (r : SeMpcConfig) (mpc : Mpc) : Mpc :=
  fun b pc ↦ if pc = r.pc ∧ r.Touches b then r.attr else mpc b pc

/-- A request that succeeds gives the blocks that it touches the attributes that are asked for. -/
def Exact (service : Service) : Prop :=
  ∀ r mpc, (service r mpc).1 = true → (service r mpc).2 = r.applied mpc

/-- What the platform promises. -/
structure Rram.Sane (P : Rram) : Prop where
  /-- The blocks are of 4 KB. -/
  mpcBlockSize : P.config.mpcBlockSize = cyMpcSize4kb
  /-- The cache is for blocks of that size. -/
  blockSize : P.blockSize = 4096
  /-- The memory is not the whole address space. -/
  room : P.config.size.toNat + 4096 ≤ 2 ^ 32
  /-- A word of the cache has room for every protection context. -/
  pcNr : P.pcNr ≤ 8

theorem Rram.mem_pcs {P : Rram} {pc : ℕ} : pc ∈ P.pcs ↔ P.spmPc ≤ pc ∧ pc < P.pcNr := by
  rw [Rram.pcs, List.mem_range'_1]
  omega

/-- The requests have given the blocks that they touch the attributes that are asked for. -/
theorem requestAll_eq {service : Service} (exact : Exact service) (cfg : RegionConfig)
    (m : MemoryConfig) {pcs : List ℕ} (nodup : pcs.Nodup) (mpc : Mpc)
    (succeeds : (requestAll service (seMpcConfig cfg m) pcs mpc).1 = true) (b pc : ℕ) :
    (requestAll service (seMpcConfig cfg m) pcs mpc).2 b pc =
      if pc ∈ pcs ∧ (seMpcConfig cfg m pc).Touches b then attrFor cfg pc else mpc b pc := by
  induction pcs generalizing mpc with
  | nil => rw [if_neg (fun both ↦ List.not_mem_nil both.1), requestAll]
  | cons q rest ih =>
      obtain ⟨fresh, nodup⟩ := List.nodup_cons.1 nodup
      rw [requestAll] at succeeds ⊢
      cases served : service (seMpcConfig cfg m q) mpc with
      | mk done after =>
          rw [served] at succeeds
          cases done with
          | false => cases succeeds
          | true =>
              have after_eq : after = (seMpcConfig cfg m q).applied mpc := by
                have eq := exact (seMpcConfig cfg m q) mpc
                rw [served] at eq
                exact eq rfl
              dsimp only at succeeds ⊢
              have pc_eq : (seMpcConfig cfg m q).pc = q := rfl
              rw [ih nodup after succeeds, after_eq, SeMpcConfig.applied, pc_eq]
              simp only [List.mem_cons]
              by_cases same : pc = q
              · subst same
                simp [fresh, seMpcConfig]
              · simp [same]

/-- The cache after a configuration. -/
theorem updateCache_eq {info : CacheInfo} {ids : List ℕ} (nodup : ids.Nodup) (cache : ℕ → Word)
    (b : ℕ) : updateCache info ids cache b =
      if b ∈ ids then cache b &&& ~~~info.mask ||| info.attr else cache b := by
  induction ids generalizing cache with
  | nil => rw [if_neg List.not_mem_nil, updateCache]
  | cons q rest ih =>
      obtain ⟨fresh, nodup⟩ := List.nodup_cons.1 nodup
      rw [updateCache, ih nodup]
      simp only [List.mem_cons]
      by_cases same : b = q
      · subst same
        simp [fresh]
      · simp [same]

/-- The attributes in a word of the cache after a configuration. -/
theorem cachedAttr_update {cfg : RegionConfig} {pcs : List ℕ} (small : ∀ pc ∈ pcs, pc < 8)
    (word : Word) {pc : ℕ} (bound : pc < 8) :
    cachedAttr (word &&& ~~~(cacheBits cfg pcs (0, 0)).2 ||| (cacheBits cfg pcs (0, 0)).1) pc =
      if pc ∈ pcs ∧ ifxGetPc cfg.pcMask pc = true then attrFor cfg pc else cachedAttr word pc := by
  have bit {k : ℕ} (bit : k < 3) :
      (word &&& ~~~(cacheBits cfg pcs (0, 0)).2 ||| (cacheBits cfg pcs (0, 0)).1).getLsbD
        (pc * 4 + k) =
        if pc ∈ pcs ∧ ifxGetPc cfg.pcMask pc = true then ifxGetPc (cfg.field k) pc
        else word.getLsbD (pc * 4 + k) := by
    obtain ⟨attr, mask⟩ : _ ∧ (cacheBits cfg pcs (0, 0)).2.getLsbD (pc * 4 + k) = _ :=
      getLsbD_cacheBits small (0, 0) bound bit
    rw [BitVec.getLsbD_or, BitVec.getLsbD_and, BitVec.getLsbD_not, attr, mask,
      decide_eq_true (show pc * 4 + k < 32 by omega)]
    by_cases selected : pc ∈ pcs ∧ ifxGetPc cfg.pcMask pc = true
    · simp [selected]
    · by_cases mem : pc ∈ pcs
      · have unselected : ifxGetPc cfg.pcMask pc = false :=
          Bool.eq_false_iff.2 fun set ↦ selected ⟨mem, set⟩
        simp [unselected]
      · simp [mem]
  have zero := bit (show 0 < 3 by decide)
  have one := bit (show 1 < 3 by decide)
  have two := bit (show 2 < 3 by decide)
  rw [cachedAttr, one, two, show pc * 4 = pc * 4 + 0 from rfl, zero]
  split
  · next selected =>
      rw [attrFor, if_pos selected.2]
      rfl
  · rfl

/-! ## Runs -/

/-- A configuration that is applied. -/
structure Action where
  /-- The configuration. -/
  cfg : RegionConfig
  /-- The isolation level is 3 and assets are protected dynamically. -/
  dynamic : Bool

/-- One step: a configuration of a region in the RRAM is applied successfully. -/
def step (P : Rram) (service : Service) (x : World) (a : Action) : Option World :=
  if P.config.contains a.cfg.address a.cfg.size then
    match ifxMpcApplyConfigurationWithExternalMpc P service a.dynamic a.cfg P.config x with
    | (.success, y) => some y
    | _ => none
  else none

/-- The state that `ifx_mpc_init_cfg` starts with: the cache is filled with the attributes that the
controller has by default. -/
def World.start (P : Rram) : World :=
  ⟨fun _ ↦ P.defaultAttributes, fun _ ↦ cachedAttr P.defaultAttributes⟩

/-- The block is touched by a configuration. -/
def RegionConfig.Touches (P : Rram) (cfg : RegionConfig) (b : ℕ) : Prop :=
  (P.config.offset cfg.address).toNat < (b + 1) * 4096 ∧
    b * 4096 < (P.config.offset cfg.address).toNat + cfg.size.toNat

/-- A protection context that a configuration does not modify has no access to the blocks that the
configuration touches. -/
def LeavesClosed (P : Rram) (x : World) (a : Action) : Prop :=
  a.dynamic = false → ∀ pc ∈ P.pcs, ifxGetPc a.cfg.pcMask pc = false →
    ∀ b, a.cfg.Touches P b → cachedAttr (x.cache b) pc = .closed

/-- The cache agrees with the controller, for some kinds of requests. -/
structure Agrees (P : Rram) (kind : PartitionInfo → AccessType → Prop) (x : World) : Prop where
  /-- The attributes of a block. -/
  attr : ∀ b < P.blockCount, ∀ pc ∈ P.pcs, cachedAttr (x.cache b) pc = x.mpc b pc
  /-- Memory checks of partitions. -/
  checks : ∀ (pInfo : PartitionInfo) (base size : Word) (accessType : AccessType) (pc : ℕ),
    P.config.contains base size = true → size ≠ 0 → kind pInfo accessType →
    ifxGetPartitionPc pInfo (!accessType.ns) = some pc → pc ∈ P.pcs →
    (ifxMpcMemoryCheckWithExternalMpc P x.cache pc P.config base size accessType = .success ↔
      checkRange P.config (fun b ↦ if b < P.blockCount then some (x.mpc b pc) else none) pInfo base
        size accessType = .success)

/-- A request on behalf of the non-secure side comes from one of its agents. -/
def FromAgent (pInfo : PartitionInfo) (accessType : AccessType) : Prop :=
  accessType.ns = true → pInfo.isNsAgent = true

/-- The loop over the cache accepts the ranges all of whose blocks have the attributes. -/
theorem checkCache_eq_success {cache : ℕ → Word} {mask attr : Word} {ids : List ℕ} :
    checkCache cache mask attr ids = .success ↔ ∀ b ∈ ids, cache b &&& mask = attr := by
  induction ids with
  | nil => exact ⟨fun _ _ mem ↦ absurd mem List.not_mem_nil, fun _ ↦ rfl⟩
  | cons b rest ih =>
      rw [List.forall_mem_cons, ← ih, checkCache]
      by_cases eq : cache b &&& mask = attr
      · rw [if_neg (not_not.2 eq)]
        exact (and_iff_right eq).symm
      · rw [if_pos eq]
        exact iff_of_false (by decide) fun both ↦ eq both.1

instance (P : Rram) (cfg : RegionConfig) (b : ℕ) : Decidable (cfg.Touches P b) :=
  inferInstanceAs (Decidable (_ ∧ _))

/-- What a configuration does. -/
structure Applied (P : Rram) (cfg : RegionConfig) (x y : World) : Prop where
  /-- The controller, for every protection context. -/
  mpc : ∀ b, ∀ pc ∈ P.pcs, y.mpc b pc = if cfg.Touches P b then attrFor cfg pc else x.mpc b pc
  /-- The cache, for the protection contexts in the mask. -/
  cache : ∀ b, ∀ pc ∈ P.pcs, cachedAttr (y.cache b) pc =
    if cfg.Touches P b ∧ ifxGetPc cfg.pcMask pc = true then attrFor cfg pc
    else cachedAttr (x.cache b) pc

theorem Rram.Sane.small {P : Rram} (sane : P.Sane) {pc : ℕ} (mem : pc ∈ P.pcs) : pc < 8 :=
  lt_of_lt_of_le (Rram.mem_pcs.1 mem).2 sane.pcNr

/-- The blocks of a region of the RRAM. -/
theorem Rram.Sane.mem_blockIds {P : Rram} (sane : P.Sane) {address size : Word}
    (inside : P.config.Inside address size) (b : ℕ) :
    b ∈ blockIds (firstBlockIdx (P.config.offset address) P.blockSize)
        (lastBlockIdx (P.config.offset address) size P.blockSize) ↔
      (P.config.offset address).toNat < (b + 1) * 4096 ∧
        b * 4096 < (P.config.offset address).toNat + size.toNat := by
  have blockSize : P.blockSize.toNat = 4096 := congrArg BitVec.toNat sane.blockSize
  have room := sane.room
  have fits := inside.fits
  rw [Isolation.mem_blockIds (by omega) (by omega), blockSize]

/-- The cache after a configuration. -/
theorem cache_applied {P : Rram} (sane : P.Sane) {cfg : RegionConfig} {info : CacheInfo}
    (inside : P.config.Inside cfg.address cfg.size)
    (converted : ifxMpcExternalMpcConfigToCacheInfo P cfg P.config = some info) (cache : ℕ → Word)
    (b : ℕ) {pc : ℕ} (mem : pc ∈ P.pcs) :
    cachedAttr (updateCache info (blockIds info.firstBlockIdx info.lastBlockIdx) cache b) pc =
      if cfg.Touches P b ∧ ifxGetPc cfg.pcMask pc = true then attrFor cfg pc
      else cachedAttr (cache b) pc := by
  rw [ifxMpcExternalMpcConfigToCacheInfo] at converted
  split at converted
  · cases converted
  dsimp only at converted
  split at converted
  · cases converted
  cases converted
  dsimp only
  rw [updateCache_eq (by rw [blockIds]; exact List.nodup_range')]
  have touched := sane.mem_blockIds inside b
  by_cases here : cfg.Touches P b
  · rw [if_pos (touched.2 here), cachedAttr_update (fun _ ↦ sane.small) _ (sane.small mem)]
    simp [mem, here]
  · rw [if_neg (touched.not.2 here), if_neg fun both ↦ here both.1]

/-- A configuration is applied, or nothing is done. -/
theorem applied_of_step {P : Rram} {service : Service} (sane : P.Sane) (exact : Exact service)
    {x y : World} {a : Action} (step_eq : step P service x a = some y) :
    a.dynamic = true ∧ y = x ∨ a.dynamic = false ∧ Applied P a.cfg x y := by
  rw [step] at step_eq
  split at step_eq
  swap
  · cases step_eq
  next contains =>
  have inside := MemoryConfig.inside_of_contains contains
  rw [ifxMpcApplyConfigurationWithExternalMpc] at step_eq
  cases dynamic : a.dynamic with
  | true =>
      rw [dynamic, if_pos rfl] at step_eq
      cases step_eq
      exact .inl ⟨rfl, rfl⟩
  | false =>
      rw [dynamic, if_neg (by decide), if_neg (not_not.2 sane.mpcBlockSize)] at step_eq
      have nodup : P.pcs.Nodup := List.nodup_range'
      have requested := requestAll_eq exact a.cfg P.config nodup x.mpc
      cases served : requestAll service (seMpcConfig a.cfg P.config) P.pcs x.mpc with
      | mk done mpc =>
          rw [served] at step_eq requested
          cases done with
          | false => cases step_eq
          | true =>
              dsimp only at step_eq
              cases converted : ifxMpcExternalMpcConfigToCacheInfo P a.cfg P.config with
              | none =>
                  rw [converted] at step_eq
                  cases step_eq
              | some info =>
                  rw [converted] at step_eq
                  cases step_eq
                  refine .inr ⟨rfl, fun b pc mem ↦ ?_, fun b pc mem ↦ ?_⟩
                  · have here : (seMpcConfig a.cfg P.config pc).Touches b ↔ a.cfg.Touches P b :=
                      Iff.rfl
                    have after := requested rfl b pc
                    simp only [mem, true_and, here] at after
                    exact after
                  · exact cache_applied sane inside converted x.cache b mem

/-- The attributes agree after a configuration that leaves nothing open. -/
theorem attr_step {P : Rram} {service : Service} (sane : P.Sane) (exact : Exact service)
    {x y : World} {a : Action} (attr : ∀ b, ∀ pc ∈ P.pcs, cachedAttr (x.cache b) pc = x.mpc b pc)
    (closed : LeavesClosed P x a) (step_eq : step P service x a = some y) :
    ∀ b, ∀ pc ∈ P.pcs, cachedAttr (y.cache b) pc = y.mpc b pc := by
  rcases applied_of_step sane exact step_eq with ⟨-, rfl⟩ | ⟨static, applied⟩
  · exact attr
  intro b pc mem
  rw [applied.cache b pc mem, applied.mpc b pc mem]
  by_cases touched : a.cfg.Touches P b
  · cases selected : ifxGetPc a.cfg.pcMask pc with
    | true => simp [touched]
    | false => simp [touched, closed static pc mem selected b touched, attrFor, selected]
  · simp [touched, attr b pc mem]

/-- A check of the cache that agrees with the controller is a check of the controller. -/
theorem checks_of_attr {P : Rram} (sane : P.Sane) {x : World}
    (attr : ∀ b, ∀ pc ∈ P.pcs, cachedAttr (x.cache b) pc = x.mpc b pc) {pInfo : PartitionInfo}
    {base size : Word} {accessType : AccessType} {pc : ℕ} (inside : P.config.Inside base size)
    (nonempty : size ≠ 0) (agent : FromAgent pInfo accessType) (mem : pc ∈ P.pcs) :
    ifxMpcMemoryCheckWithExternalMpc P x.cache pc P.config base size accessType = .success ↔
      checkRange P.config (fun b ↦ if b < P.blockCount then some (x.mpc b pc) else none) pInfo base
        size accessType = .success := by
  have blockSize : P.blockSize = ifxMpcBlockSizeToBytes P.config.mpcBlockSize := by
    rw [sane.blockSize, sane.mpcBlockSize]
    rfl
  have expected : (pInfo.isNsAgent && accessType.ns) = accessType.ns := by
    cases ns : accessType.ns with
    | false => exact Bool.and_false _
    | true => rw [agent ns, Bool.and_true]
  have permits (b : ℕ) : x.cache b &&& _ = _ ↔ (x.mpc b pc).Permits accessType.ns accessType :=
    (and_mask_eq_iff (sane.small mem) accessType).trans (by rw [attr b pc mem])
  rw [checkRange, ifxMpcMemoryCheckWithExternalMpc, if_neg (not_not.2 blockSize),
    ← blockSize, expected]
  dsimp only
  rw [checkBlocks_eq_success]
  have mem_ids {first last : Word} {b : ℕ} : b ∈ blockIds first last ↔ first.toNat ≤ b ∧
      b < last.toNat := by
    rw [blockIds, List.mem_range'_1]
    omega
  have some_block : ∃ b, b ∈ blockIds (firstBlockIdx (P.config.offset base) P.blockSize)
      (lastBlockIdx (P.config.offset base) size P.blockSize) := by
    have pos : 0 < size.toNat := Nat.pos_of_ne_zero fun zero ↦ nonempty (BitVec.eq_of_toNat_eq zero)
    refine ⟨(P.config.offset base).toNat / 4096, (sane.mem_blockIds inside _).2 ⟨?_, ?_⟩⟩
    · omega
    · omega
  generalize firstBlockIdx (P.config.offset base) P.blockSize = first at some_block ⊢
  generalize lastBlockIdx (P.config.offset base) size P.blockSize = last at some_block ⊢
  obtain ⟨b₀, mem₀⟩ := some_block
  have bounds := mem_ids.1 mem₀
  by_cases outside : P.blockCount ≤ first.toNat ∨ P.blockCount < last.toNat
  · -- the last block of the range does not exist
    rw [if_pos outside]
    refine iff_of_false (by decide) fun accepted ↦ ?_
    obtain ⟨attr, exists_block, -⟩ := accepted (last.toNat - 1) (mem_ids.2 (by omega))
    rw [if_neg (by omega)] at exists_block
    cases exists_block
  · rw [if_neg outside, checkCache_eq_success]
    refine forall₂_congr fun b block ↦ ?_
    have bound := mem_ids.1 block
    have exists_block : b < P.blockCount := by omega
    rw [if_pos exists_block, permits b]
    constructor
    · intro permits
      exact ⟨_, rfl, permits⟩
    · rintro ⟨_, eq, permits⟩
      exact Option.some.inj eq ▸ permits

/-- In every run whose configurations leave nothing open. -/
theorem agrees_of_leavesClosed (P : Rram) (service : Service) (sane : P.Sane)
    (exact : Exact service)
    (x : World) (reaches : Run.Reaches (step P service) (LeavesClosed P) (.start P) x) :
    Agrees P FromAgent x := by
  have attr : ∀ b, ∀ pc ∈ P.pcs, cachedAttr (x.cache b) pc = x.mpc b pc :=
    reaches.invariant (I := fun x ↦ ∀ b, ∀ pc ∈ P.pcs, cachedAttr (x.cache b) pc = x.mpc b pc)
      (fun _ _ _ ↦ rfl) fun _ _ _ attr closed step_eq ↦ attr_step sane exact attr closed step_eq
  exact ⟨fun b _ ↦ attr b, fun _ _ _ _ _ contains nonempty agent _ mem ↦
    checks_of_attr sane attr (MemoryConfig.inside_of_contains contains) nonempty agent mem⟩

/-- An RRAM of 16 blocks. -/
def sampleRram : Rram :=
  ⟨⟨0x12000000, 0x10000, cyMpcSize4kb, none⟩, 0x10000, 4096, 0, 2, 8⟩

/-- A service that does what it is asked for. -/
def sampleService : Service := fun r mpc ↦ (true, r.applied mpc)

/-- A configuration of the first block: read and write access for the contexts in the mask. -/
def sampleAction (pcMask : Word) : Action :=
  ⟨⟨0x12000000, 0x1000, pcMask, 0, pcMask, pcMask⟩, false⟩

theorem sampleRram_sane : sampleRram.Sane := ⟨rfl, rfl, by decide, by decide⟩

theorem sampleService_exact : Exact sampleService := fun _ _ _ ↦ rfl

/-- All contexts get access to a block. -/
theorem agrees_sampleAction :
    ∃ x, Run.exec (step sampleRram sampleService) (.start sampleRram) [sampleAction 0xFF] = some x ∧
      x.mpc 0 3 = ⟨false, .rw⟩ ∧ Agrees sampleRram FromAgent x := by
  have runs : (Run.exec (step sampleRram sampleService) (.start sampleRram) [sampleAction 0xFF]).any
      (fun x ↦ x.mpc 0 3 = ⟨false, .rw⟩) = true := by
    decide +kernel
  obtain ⟨x, run, attr⟩ := (Option.any_eq_true ..).1 runs
  refine ⟨x, run, of_decide_eq_true attr, agrees_of_leavesClosed sampleRram sampleService
    sampleRram_sane sampleService_exact x (Run.exec_reaches run ⟨?_, fun _ _ ↦ trivial⟩)⟩
  have all : ∀ pc ∈ sampleRram.pcs, ifxGetPc (sampleAction 0xFF).cfg.pcMask pc = true := by decide
  intro _ pc mem unselected
  rw [all pc mem] at unselected
  cases unselected

/-- A block is opened for all contexts, and then it is closed for all contexts but one: the cache
has it open for the others. -/
theorem not_agrees : ¬∀ (P : Rram) (service : Service), P.Sane → Exact service → ∀ x,
    Run.Reaches (step P service) (fun _ _ ↦ True) (.start P) x → Agrees P (fun _ _ ↦ True) x := by
  have runs : (Run.exec (step sampleRram sampleService) (.start sampleRram)
      [sampleAction 0xFF, sampleAction 0x04]).any
      (fun x ↦ decide (cachedAttr (x.cache 0) 3 ≠ x.mpc 0 3)) = true := by
    decide +kernel
  obtain ⟨x, run, differ⟩ := (Option.any_eq_true ..).1 runs
  intro agrees
  exact of_decide_eq_true differ ((agrees sampleRram sampleService sampleRram_sane
    sampleService_exact x (Run.exec_reaches run (Run.allowed_true ..))).attr 0
      (by decide) 3 (by decide))

end TrustedFirmwareM.Isolation.ExternalMpc
