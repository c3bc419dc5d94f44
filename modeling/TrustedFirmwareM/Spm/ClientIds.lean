import Mathlib.Data.List.Pairwise
import TrustedFirmwareM.Spm.Client

/-!
# Identifiers of non-secure clients

The client identifier ranges of non-secure agents, from the load information that the loader checks
over their registration to the translation of the identifiers that clients present.  Signed
arithmetic is checked: an operation that overflows has no result.
-/

namespace TrustedFirmwareM.Spm.ClientIds

/-! ## Translation -/

/-- The result of a signed 32-bit operation, which is undefined when it overflows. -/
def int32 (value : ℤ) : Option Int32 :=
  if -2 ^ 31 ≤ value ∧ value < 2 ^ 31 then some (Int32.ofInt value) else none

/-- `SPM_ERROR_GENERIC`. -/
def spmErrorGeneric : ℤ := -253

/-- `SPM_SUCCESS`. -/
def spmSuccess : ℤ := 0

/-- `TFM_NS_CLIENT_INVALID_ID`. -/
def tfmNsClientInvalidId : Int32 := 0

/-- Bounds of a client identifier range, as kept in `client_id_region_t`. -/
structure Region where
  /-- First identifier. -/
  base : Int32
  /-- Last identifier. -/
  limit : Int32

/-- Map a negative identifier into a range.  There is no outer result if a step overflows, and no
inner one if the identifier is refused. -/
def Region.translate (region : Region) (clientIdIn : Int32) : Option (Option Int32) := do
  let difference ← int32 (region.limit.toInt - region.base.toInt)
  let negated ← int32 (-1 * difference.toInt)
  let minClientId ← int32 (negated.toInt - 1)
  if clientIdIn < minClientId then return none
  let next ← int32 (region.limit.toInt + 1)
  let clientIdOut ← int32 (next.toInt + clientIdIn.toInt)
  return some clientIdOut

variable {Owner : Type}

/-- `client_id_regions` of the mailbox agents; entries without an owner are free. -/
abbrev Regions (Owner : Type) := Fin 2 → Option (Owner × Region)

/-- `tfm_multi_core_register_client_id_range`; no owner is the null pointer. -/
def tfmMultiCoreRegisterClientIdRange (regions : Regions Owner) (owner : Option Owner)
    (clientIdBase clientIdLimit : Int32) : ℤ × Regions Owner :=
  match owner with
  | none => (spmErrorGeneric, regions)
  | some owner =>
      match (List.finRange 2).find? fun i ↦ (regions i).isNone with
      | none => (spmErrorGeneric, regions)
      | some i =>
          (spmSuccess, Function.update regions i (some (owner, ⟨clientIdBase, clientIdLimit⟩)))

/-- The first region of an owner. -/
def ownedRegion [DecidableEq Owner] (regions : Regions Owner) (owner : Owner) : Option Region :=
  (List.finRange 2).findSome? fun i ↦
    (regions i).bind fun entry ↦ if entry.1 = owner then some entry.2 else none

/-- `tfm_multi_core_hal_client_id_translate`. -/
def tfmMultiCoreHalClientIdTranslate [DecidableEq Owner] (regions : Regions Owner)
    (owner : Option Owner) (clientIdIn : Int32) : Option (Option Int32) :=
  match owner with
  | none => some none
  | some owner =>
      if 0 ≤ clientIdIn then some none
      else
        match ownedRegion regions owner with
        | none => some none
        | some region => region.translate clientIdIn

/-- `tz_ns_agent_client_id_translate`. -/
def tzNsAgentClientIdTranslate (region : Region) (clientIdIn : Int32) : Option (Option Int32) :=
  if 0 ≤ clientIdIn then some none else region.translate clientIdIn

/-- `tfm_nspm_get_current_client_id` for the identifier of the active non-secure context. -/
def tfmNspmGetCurrentClientId (region : Region) (inputClientId : Int32) : Option Int32 :=
  (tzNsAgentClientIdTranslate region inputClientId).map fun answer ↦
    answer.getD tfmNsClientInvalidId

/-! ## Loading -/

/-- The fields of `irq_load_info_t` that the loader reads, and the owner under which the
initialisation of the interrupt of a mailbox registers the range. -/
structure IrqLoadInfo (Owner : Type) where
  /-- First identifier of the clients behind the interrupt. -/
  clientIdBase : Int32
  /-- Last identifier of the clients behind the interrupt. -/
  clientIdLimit : Int32
  /-- Identifier of the mailbox. -/
  owner : Owner

/-- The fields of `partition_load_info_t` that the loader checks. -/
structure LoadInfo (Owner : Type) where
  /-- Magic and framework version. -/
  psaFfVer : BitVec 32
  /-- Partition identifier. -/
  pid : Int32
  /-- The partition is the TrustZone non-secure agent. -/
  nsAgentTz : Bool
  /-- The partition is a mailbox non-secure agent. -/
  nsAgentMailbox : Bool
  /-- First client identifier of a non-secure agent. -/
  clientIdBase : Int32
  /-- Last client identifier of a non-secure agent. -/
  clientIdLimit : Int32
  /-- Interrupts. -/
  irqs : List (IrqLoadInfo Owner)

/-- `IS_NS_AGENT`. -/
def LoadInfo.nsAgent (info : LoadInfo Owner) : Bool := info.nsAgentTz || info.nsAgentMailbox

/-- `load_a_partition_assuredly`, with the list of the partitions loaded so far.  There is no result
when the loader panics. -/
def loadAPartitionAssuredly (head : List (LoadInfo Owner)) (info : LoadInfo Owner) :
    Option (List (LoadInfo Owner)) :=
  if info.psaFfVer &&& 0xFFFF0000 ≠ 0x5F5F0000 then none
  else if 0x0101 < info.psaFfVer &&& 0x0000FFFF then none
  else if info.pid < 0 then none
  else if info.clientIdLimit < info.clientIdBase then none
  else if info.nsAgent && head.any fun partition ↦ partition.nsAgent &&
      decide (partition.clientIdBase ≤ info.clientIdLimit) &&
      decide (info.clientIdBase ≤ partition.clientIdLimit) then none
  else some (info :: head)

/-- The part of `load_irqs_assuredly` about the ranges of mailboxes, with the registration by the
initialisation of the interrupt. -/
def loadIrqsAssuredly (info : LoadInfo Owner) :
    List (IrqLoadInfo Owner) → Regions Owner → Option (Regions Owner)
  | [], regions => some regions
  | irq :: irqs, regions =>
      if info.nsAgentMailbox then
        if irq.clientIdLimit < irq.clientIdBase ∨ irq.clientIdBase < info.clientIdBase ∨
            info.clientIdLimit < irq.clientIdLimit then none
        else
          let (status, regions) := tfmMultiCoreRegisterClientIdRange regions (some irq.owner)
            irq.clientIdBase irq.clientIdLimit
          if status ≠ spmSuccess then none else loadIrqsAssuredly info irqs regions
      else loadIrqsAssuredly info irqs regions

/-- What has been loaded and registered. -/
structure System (Owner : Type) where
  /-- The partition list. -/
  partitions : List (LoadInfo Owner)
  /-- Ranges of mailbox agents. -/
  regions : Regions Owner
  /-- Range of the TrustZone agent. -/
  tzRegion : Region

/-- One turn of the loop of `tfm_spm_init`. -/
def loadPartition (s : System Owner) (info : LoadInfo Owner) : Option (System Owner) := do
  let partitions ← loadAPartitionAssuredly s.partitions info
  let regions ← loadIrqsAssuredly info info.irqs s.regions
  -- the backend registers the range of the TrustZone agent
  let tzRegion := if info.nsAgentTz then ⟨info.clientIdBase, info.clientIdLimit⟩ else s.tzRegion
  return ⟨partitions, regions, tzRegion⟩

/-- `tfm_spm_init` on the load information of all partitions. -/
def tfmSpmInit (infos : List (LoadInfo Owner)) : Option (System Owner) :=
  infos.foldlM loadPartition ⟨[], fun _ ↦ none, ⟨0, 0⟩⟩

/-! ## What loading makes sure of -/

/-- A range is the one of a non-secure agent, or a part of it. -/
def LoadInfo.Serves (info : LoadInfo Owner) (region : Region) : Prop :=
  info.nsAgent = true ∧ info.clientIdBase ≤ region.base ∧ region.limit ≤ info.clientIdLimit

variable {s : System Owner}

/-- The ranges of two agents do not overlap. -/
def RangesApart (info other : LoadInfo Owner) : Prop :=
  info.nsAgent = true → other.nsAgent = true →
    other.clientIdLimit < info.clientIdBase ∨ info.clientIdLimit < other.clientIdBase

/-- What the loader has made sure of. -/
structure Loaded (s : System Owner) : Prop where
  /-- Partition identifiers are not negative. -/
  pids : ∀ info ∈ s.partitions, ¬info.pid < 0
  /-- Ranges of agents do not overlap. -/
  ranges : s.partitions.Pairwise RangesApart
  /-- Ranges of mailboxes are parts of the ranges of their agents. -/
  mailboxes : ∀ i owner region, s.regions i = some (owner, region) →
    ∃ info ∈ s.partitions, info.Serves region
  /-- The range of the TrustZone agent, once it is registered. -/
  tz : s.tzRegion = ⟨0, 0⟩ ∨ ∃ info ∈ s.partitions, info.Serves s.tzRegion

theorem loadAPartitionAssuredly_eq_some {head head' : List (LoadInfo Owner)} {info : LoadInfo Owner}
    (load : loadAPartitionAssuredly head info = some head') :
    head' = info :: head ∧ ¬info.pid < 0 ∧ ∀ other ∈ head, RangesApart info other := by
  rw [loadAPartitionAssuredly] at load
  split at load
  · cases load
  split at load
  · cases load
  split at load
  · cases load
  next pid =>
  split at load
  · cases load
  split at load
  · cases load
  next overlap =>
  cases load
  refine ⟨rfl, pid, fun other mem agent agent' ↦ ?_⟩
  by_contra meet
  rw [not_or, Int32.lt_iff_toInt_lt, Int32.lt_iff_toInt_lt, Int.not_lt, Int.not_lt] at meet
  refine overlap ?_
  rw [Bool.and_eq_true, List.any_eq_true]
  refine ⟨agent, other, mem, ?_⟩
  simp [agent', Int32.le_iff_toInt_le, meet.1, meet.2]

/-- A region that is registered is one of the old ones or the new one. -/
theorem register_regions {regions regions' : Regions Owner} {owner : Option Owner}
    {base limit : Int32} {status : ℤ}
    (run : tfmMultiCoreRegisterClientIdRange regions owner base limit =
      (status, regions')) (i : Fin 2)
    {entry : Owner × Region} (mem : regions' i = some entry) :
    regions i = some entry ∨ entry.2 = ⟨base, limit⟩ := by
  unfold tfmMultiCoreRegisterClientIdRange at run
  split at run
  · cases run
    exact .inl mem
  split at run
  · cases run
    exact .inl mem
  · next j _ =>
      cases run
      by_cases eq : i = j
      · rw [eq, Function.update_self] at mem
        cases mem
        exact .inr rfl
      · rw [Function.update_of_ne eq] at mem
        exact .inl mem

theorem loadIrqsAssuredly_regions {info : LoadInfo Owner} {irqs : List (IrqLoadInfo Owner)}
    {regions regions' : Regions Owner} (load : loadIrqsAssuredly info irqs regions = some regions')
    (i : Fin 2) {entry : Owner × Region} (mem : regions' i = some entry) :
    regions i = some entry ∨ info.Serves entry.2 := by
  induction irqs generalizing regions with
  | nil =>
      cases load
      exact .inl mem
  | cons irq irqs ih =>
      rw [loadIrqsAssuredly] at load
      split at load
      · next mailbox =>
          split at load
          · cases load
          next within =>
          generalize run : tfmMultiCoreRegisterClientIdRange regions (some irq.owner)
            irq.clientIdBase irq.clientIdLimit = result at load
          obtain ⟨status, regions₁⟩ := result
          dsimp only at load
          split at load
          · cases load
          rcases ih load with old | serves
          · rcases register_regions run i old with older | new
            · exact .inl older
            · right
              simp only [not_or, Int32.lt_iff_toInt_lt, Int.not_lt] at within
              refine ⟨by simp [LoadInfo.nsAgent, mailbox], ?_, ?_⟩
              · rw [new, Int32.le_iff_toInt_le]
                exact within.2.1
              · rw [new, Int32.le_iff_toInt_le]
                exact within.2.2
          · exact .inr serves
      · exact ih load

/-- Loading a partition keeps what the loader has made sure of. -/
theorem Loaded.loadPartition {s' : System Owner} {info : LoadInfo Owner} (loaded : Loaded s)
    (load : loadPartition s info = some s') : Loaded s' := by
  simp only [ClientIds.loadPartition, Option.bind_eq_bind, Option.bind_eq_some_iff] at load
  obtain ⟨partitions, partitions_eq, regions, regions_eq, load⟩ := load
  cases load
  obtain ⟨rfl, pid, apart⟩ := loadAPartitionAssuredly_eq_some partitions_eq
  refine ⟨?_, ?_, fun i owner region mem ↦ ?_, ?_⟩
  · exact List.forall_mem_cons.2 ⟨pid, loaded.pids⟩
  · exact List.pairwise_cons.2 ⟨apart, loaded.ranges⟩
  · rcases loadIrqsAssuredly_regions regions_eq i mem with old | serves
    · obtain ⟨other, mem, serves⟩ := loaded.mailboxes i owner region old
      exact ⟨other, List.mem_cons_of_mem _ mem, serves⟩
    · exact ⟨info, List.mem_cons_self, serves⟩
  · dsimp only
    split
    · next tz =>
        refine .inr ⟨info, List.mem_cons_self, by simp [LoadInfo.nsAgent, tz], ?_, ?_⟩
        · exact Int32.le_iff_toInt_le.2 le_rfl
        · exact Int32.le_iff_toInt_le.2 le_rfl
    · rcases loaded.tz with unset | ⟨other, mem, serves⟩
      · exact .inl unset
      · exact .inr ⟨other, List.mem_cons_of_mem _ mem, serves⟩

theorem loaded_of_tfmSpmInit {infos : List (LoadInfo Owner)} (boot : tfmSpmInit infos = some s) :
    Loaded s := by
  have run (infos : List (LoadInfo Owner)) (before : System Owner) (loaded : Loaded before)
      (boot : infos.foldlM ClientIds.loadPartition before = some s) : Loaded s := by
    induction infos generalizing before with
    | nil =>
        cases boot
        exact loaded
    | cons info infos ih =>
        rw [List.foldlM_cons, Option.bind_eq_bind, Option.bind_eq_some_iff] at boot
        obtain ⟨next, load, boot⟩ := boot
        exact ih next (loaded.loadPartition load) boot
  refine run infos _ ⟨?_, List.Pairwise.nil, ?_, .inl rfl⟩ boot
  · simp
  · simp

/-! ## The property -/

variable [DecidableEq Owner]

/-- Those who present client identifiers. -/
inductive Agent (Owner : Type)
  /-- The TrustZone agent. -/
  | tz
  /-- A mailbox. -/
  | mailbox (owner : Owner)

/-- The range that is registered for an agent. -/
def System.region (s : System Owner) : Agent Owner → Option Region
  | .tz => some s.tzRegion
  | .mailbox owner => ownedRegion s.regions owner

/-- The translation of an identifier that a client of an agent presents. -/
def System.translate (s : System Owner) : Agent Owner → Int32 → Option (Option Int32)
  | .tz => tzNsAgentClientIdTranslate s.tzRegion
  | .mailbox owner => tfmMultiCoreHalClientIdTranslate s.regions (some owner)

/-- A negative range. -/
def Region.Negative (region : Region) : Prop :=
  region.base ≤ region.limit ∧ region.limit < 0

/-- What holds of the translation of client identifiers. -/
structure TranslationSound (s : System Owner) : Prop where
  /-- No step overflows. -/
  defined : ∀ agent region, s.region agent = some region → region.Negative → ∀ id,
    (s.translate agent id).isSome = true
  /-- The identifiers that are accepted. -/
  accepts : ∀ agent region, s.region agent = some region → region.Negative → ∀ id,
    (∃ out, s.translate agent id = some (some out)) ↔
      -(region.limit.toInt - region.base.toInt + 1) ≤ id.toInt ∧ id.toInt ≤ -1
  /-- They are mapped into the range. -/
  inside : ∀ agent region, s.region agent = some region → region.Negative → ∀ id out,
    s.translate agent id = some (some out) → region.base ≤ out ∧ out ≤ region.limit
  /-- Different identifiers stay different. -/
  injective : ∀ agent region, s.region agent = some region → region.Negative → ∀ id id' out,
    s.translate agent id = some (some out) → s.translate agent id' = some (some out) → id = id'
  /-- Ranges that are registered are those of loaded agents. -/
  served : ∀ agent region, s.region agent = some region → region.Negative →
    ∃ i : Fin s.partitions.length, (s.partitions.get i).Serves region
  /-- Identifiers of different agents are different. -/
  apart : ∀ agent agent' region region', s.region agent = some region →
    s.region agent' = some region' → region.Negative → region'.Negative →
      ∀ i j : Fin s.partitions.length, i ≠ j → (s.partitions.get i).Serves region →
        (s.partitions.get j).Serves region' → ∀ id id' out out',
          s.translate agent id = some (some out) → s.translate agent' id' = some (some out') →
            out ≠ out'
  /-- They are no identifiers of partitions. -/
  secure : ∀ agent region, s.region agent = some region → region.Negative → ∀ id out,
    s.translate agent id = some (some out) → ∀ info ∈ s.partitions, out ≠ info.pid
  /-- The identifier of the current TrustZone client is invalid or in its range. -/
  current : s.tzRegion.Negative → ∀ id, ∃ out, tfmNspmGetCurrentClientId s.tzRegion id = some out ∧
    (out = tfmNsClientInvalidId ∨ s.tzRegion.base ≤ out ∧ out ≤ s.tzRegion.limit)

/-! ## One range -/

variable {region : Region} {id out : Int32}

theorem int32_of_mem {value : ℤ} (low : -2 ^ 31 ≤ value) (high : value < 2 ^ 31) :
    int32 value = some (Int32.ofInt value) := if_pos ⟨low, high⟩

/-- In a negative range no step overflows for a negative identifier. -/
theorem Region.Negative.translate_eq (negative : region.Negative) (id_neg : id < 0) :
    region.translate id =
      if -(region.limit.toInt - region.base.toInt + 1) ≤ id.toInt then
        some (some (Int32.ofInt (region.limit.toInt + 1 + id.toInt)))
      else some none := by
  obtain ⟨le, limit_neg⟩ := negative
  rw [Int32.le_iff_toInt_le] at le
  rw [Int32.lt_iff_toInt_lt, Int32.toInt_zero] at limit_neg id_neg
  have base_ge := region.base.le_toInt
  have id_ge := id.le_toInt
  have difference : (Int32.ofInt (region.limit.toInt - region.base.toInt)).toInt =
      region.limit.toInt - region.base.toInt := Int32.toInt_ofInt_of_le (by omega) (by omega)
  have negated : (Int32.ofInt (-1 * (region.limit.toInt - region.base.toInt))).toInt =
      -1 * (region.limit.toInt - region.base.toInt) := Int32.toInt_ofInt_of_le (by omega) (by omega)
  have least : (Int32.ofInt (-1 * (region.limit.toInt - region.base.toInt) - 1)).toInt =
      -1 * (region.limit.toInt - region.base.toInt) - 1 :=
    Int32.toInt_ofInt_of_le (by omega) (by omega)
  have next : (Int32.ofInt (region.limit.toInt + 1)).toInt = region.limit.toInt + 1 :=
    Int32.toInt_ofInt_of_le (by omega) (by omega)
  rw [Region.translate, int32_of_mem (by omega) (by omega)]
  simp only [Option.bind_eq_bind, Option.bind_some, difference]
  rw [int32_of_mem (by omega) (by omega)]
  simp only [Option.bind_some, negated]
  rw [int32_of_mem (by omega) (by omega)]
  simp only [Option.bind_some, Int32.lt_iff_toInt_lt, least]
  by_cases below : id.toInt < -1 * (region.limit.toInt - region.base.toInt) - 1
  · rw [if_pos below, if_neg (by omega)]
    rfl
  · rw [if_neg below, if_pos (by omega), int32_of_mem (by omega) (by omega)]
    simp only [Option.bind_some, next]
    rw [int32_of_mem (by omega) (by omega)]
    rfl

/-- The translation for an agent with a negative range. -/
theorem System.translate_eq {agent : Agent Owner} (region_eq : s.region agent = some region)
    (negative : region.Negative) : s.translate agent id =
      if -(region.limit.toInt - region.base.toInt + 1) ≤ id.toInt ∧ id.toInt ≤ -1 then
        some (some (Int32.ofInt (region.limit.toInt + 1 + id.toInt)))
      else some none := by
  have through : s.translate agent id = if 0 ≤ id then some none else region.translate id := by
    cases agent with
    | tz =>
        cases region_eq
        rfl
    | mailbox owner =>
        have owned : ownedRegion s.regions owner = some region := region_eq
        rw [System.translate, tfmMultiCoreHalClientIdTranslate]
        split
        · rfl
        · rw [owned]
  rw [through]
  by_cases id_neg : id < 0
  · have not_le : ¬0 ≤ id := by
      rw [Int32.le_iff_toInt_le, ← Int.not_lt, ← Int32.lt_iff_toInt_lt, not_not]
      exact id_neg
    rw [if_neg not_le, negative.translate_eq id_neg]
    rw [Int32.lt_iff_toInt_lt, Int32.toInt_zero] at id_neg
    simp [show id.toInt ≤ -1 by omega]
  · have le : 0 ≤ id := by
      rw [Int32.le_iff_toInt_le, ← Int.not_lt, ← Int32.lt_iff_toInt_lt]
      exact id_neg
    rw [if_pos le, if_neg]
    rw [Int32.le_iff_toInt_le, Int32.toInt_zero] at le
    omega

/-- What a translated identifier says. -/
theorem System.translate_eq_some {agent : Agent Owner} (region_eq : s.region agent = some region)
    (negative : region.Negative) : s.translate agent id = some (some out) ↔
      -(region.limit.toInt - region.base.toInt + 1) ≤ id.toInt ∧ id.toInt ≤ -1 ∧
        out.toInt = region.limit.toInt + 1 + id.toInt := by
  rw [s.translate_eq region_eq negative]
  obtain ⟨le, limit_neg⟩ := negative
  rw [Int32.le_iff_toInt_le] at le
  rw [Int32.lt_iff_toInt_lt, Int32.toInt_zero] at limit_neg
  have base_ge := region.base.le_toInt
  split
  · next bounds =>
      have value : (Int32.ofInt (region.limit.toInt + 1 + id.toInt)).toInt =
          region.limit.toInt + 1 + id.toInt := Int32.toInt_ofInt_of_le (by omega) (by omega)
      simp only [Option.some.injEq]
      constructor
      · rintro rfl
        exact ⟨bounds.1, bounds.2, value⟩
      · rintro ⟨-, -, out_eq⟩
        exact Int32.toInt_inj.1 (value.trans out_eq.symm)
  · next bounds =>
      simp only [Option.some.injEq, reduceCtorEq, false_iff]
      rintro ⟨low, high, -⟩
      exact bounds ⟨low, high⟩

theorem System.inside_of_translate {agent : Agent Owner} (region_eq : s.region agent = some region)
    (negative : region.Negative) (translated : s.translate agent id = some (some out)) :
    region.base ≤ out ∧ out ≤ region.limit := by
  obtain ⟨low, high, out_eq⟩ := (s.translate_eq_some region_eq negative).1 translated
  rw [Int32.le_iff_toInt_le, Int32.le_iff_toInt_le]
  omega

/-! ## Soundness -/

/-- Negative ranges are served by the partitions they were registered for. -/
theorem Loaded.served {agent : Agent Owner} (loaded : Loaded s)
    (region_eq : s.region agent = some region) (negative : region.Negative) :
    ∃ info ∈ s.partitions, info.Serves region := by
  cases agent with
  | tz =>
      cases region_eq
      rcases loaded.tz with unset | served
      · rw [unset] at negative
        exact absurd negative.2 (by decide)
      · exact served
  | mailbox owner =>
      have owned : ownedRegion s.regions owner = some region := region_eq
      obtain ⟨i, -, entry⟩ := List.exists_of_findSome?_eq_some owned
      obtain ⟨⟨owner', region'⟩, entry_eq, same⟩ := Option.bind_eq_some_iff.1 entry
      dsimp only at same
      split at same
      · cases same
        exact loaded.mailboxes i owner' region entry_eq
      · cases same

/-- After the system has been initialised, identifiers of non-secure clients are translated within
the ranges of their agents, without overflow and without repetition. -/
theorem translationSound (infos : List (LoadInfo Owner)) (s : System Owner)
    (boot : tfmSpmInit infos = some s) : TranslationSound s := by
  have loaded := loaded_of_tfmSpmInit boot
  refine ⟨?_, ?_, ?_, ?_, ?_, ?_, ?_, ?_⟩
  · intro agent region region_eq negative id
    rw [s.translate_eq region_eq negative]
    split
    · rfl
    · rfl
  · intro agent region region_eq negative id
    rw [s.translate_eq region_eq negative]
    split
    · next bounds => exact iff_of_true ⟨_, rfl⟩ bounds
    · next bounds => exact iff_of_false (by simp) bounds
  · intro agent region region_eq negative id out translated
    exact s.inside_of_translate region_eq negative translated
  · intro agent region region_eq negative id id' out translated translated'
    obtain ⟨-, -, out_eq⟩ := (s.translate_eq_some region_eq negative).1 translated
    obtain ⟨-, -, out_eq'⟩ := (s.translate_eq_some region_eq negative).1 translated'
    apply Int32.toInt_inj.1
    omega
  · intro agent region region_eq negative
    obtain ⟨info, mem, serves⟩ := loaded.served region_eq negative
    obtain ⟨i, info_eq⟩ := List.get_of_mem mem
    exact ⟨i, info_eq ▸ serves⟩
  · intro agent agent' region region' region_eq region_eq' negative negative' i j ne serves serves'
      id id' out out' translated translated' same
    have inside := s.inside_of_translate region_eq negative translated
    have inside' := s.inside_of_translate region_eq' negative' translated'
    rw [Int32.le_iff_toInt_le, Int32.le_iff_toInt_le] at inside inside'
    obtain ⟨agent, low, high⟩ := serves
    obtain ⟨agent', low', high'⟩ := serves'
    rw [Int32.le_iff_toInt_le] at low high low' high'
    have apart := List.pairwise_iff_get.1 loaded.ranges
    subst same
    rcases lt_or_gt_of_ne ne with lt | gt
    · rcases apart i j lt agent agent' with before | after
      · rw [Int32.lt_iff_toInt_lt] at before
        omega
      · rw [Int32.lt_iff_toInt_lt] at after
        omega
    · rcases apart j i gt agent' agent with before | after
      · rw [Int32.lt_iff_toInt_lt] at before
        omega
      · rw [Int32.lt_iff_toInt_lt] at after
        omega
  · intro agent region region_eq negative id out translated info mem same
    have inside := s.inside_of_translate region_eq negative translated
    have pid := loaded.pids info mem
    have limit_neg := negative.2
    rw [Int32.le_iff_toInt_le, Int32.le_iff_toInt_le] at inside
    rw [Int32.lt_iff_toInt_lt, Int32.toInt_zero] at pid limit_neg
    subst same
    omega
  · intro negative id
    have translated := @System.translate_eq Owner s _ s.tzRegion id .tz rfl negative
    have inside :=
      fun out ↦ @System.inside_of_translate Owner s _ s.tzRegion id out .tz rfl negative
    change tzNsAgentClientIdTranslate s.tzRegion id = _ at translated
    change ∀ out, tzNsAgentClientIdTranslate s.tzRegion id = _ → _ at inside
    rw [tfmNspmGetCurrentClientId]
    split at translated
    · exact ⟨_, by rw [translated]; rfl, .inr (inside _ translated)⟩
    · exact ⟨_, by rw [translated]; rfl, .inl rfl⟩

/-- The load information of the TrustZone agent, a mailbox agent and a secure partition. -/
def sampleInfos : List (LoadInfo Unit) :=
  [⟨0x5F5F0101, 0, true, false, Int32.ofNat 0xAAAA0000, Int32.ofNat 0xAAAA7FFF, []⟩,
    ⟨0x5F5F0101, 1, false, true, Int32.ofNat 0xAAAA8000, Int32.ofNat 0xAAAAFFFF,
      [⟨Int32.ofNat 0xAAAA8000, Int32.ofNat 0xAAAAFFFF, ()⟩]⟩,
    ⟨0x5F5F0101, 256, false, false, 0, 0, []⟩]

/-- The first clients of the two agents. -/
theorem translationSound_sampleInfos : ∃ s, tfmSpmInit sampleInfos = some s ∧
    s.translate .tz (-1) = some (some (Int32.ofNat 0xAAAA7FFF)) ∧
      s.translate (.mailbox ()) (-1) = some (some (Int32.ofNat 0xAAAAFFFF)) ∧
        TranslationSound s := by
  have boots : (tfmSpmInit sampleInfos).any (fun s ↦
      s.translate .tz (-1) = some (some (Int32.ofNat 0xAAAA7FFF)) ∧
        s.translate (.mailbox ()) (-1) = some (some (Int32.ofNat 0xAAAAFFFF))) = true := by
    decide +kernel
  obtain ⟨s, boot, translated⟩ := (Option.any_eq_true ..).1 boots
  obtain ⟨tz, mailbox⟩ := of_decide_eq_true translated
  exact ⟨s, boot, tz, mailbox, translationSound sampleInfos s boot⟩

end TrustedFirmwareM.Spm.ClientIds
