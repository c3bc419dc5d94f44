import TrustedFirmwareM.Isolation.BoundarySwitch

/-!
# Runs of boundary switches

Partitions are bound at boot, and then boundaries are activated in any order.  A switch that fails
leaves the old boundary active although its regions of the MPU are gone, so after a failure only the
boundary that could not be activated may be tried again.
-/

namespace TrustedFirmwareM.Isolation.Boundary

variable {ι ρ β κ μ : Type} {P : Platform ι ρ β κ μ} {fault : Fault ρ β κ μ}
  {cfg : RegionCfg κ μ} {x y : World ι ρ β κ μ} {partitions : List ι} {p q : ι}

/-- The partitions and their configurations, as they are generated from the manifests. -/
structure Sane (P : Platform ι ρ β κ μ) (partitions : List ι) : Prop where
  /-- The static regions fit into the MPU. -/
  mpuStaticConfigCount : P.mpuStaticConfigCount ≤ P.mpuRegionNr
  /-- Unprivileged partitions need regions of the MPU. -/
  enabled : ∀ p ∈ partitions, (P.info p).spmDomain = false → (P.info p).privileged = false →
    (P.info p).protectCfgEnabled.mpuRegionsEnable = true
  /-- Suspended partitions need none. -/
  disabled : ∀ p ∈ partitions, (P.info p).spmDomain = false →
    (P.info p).protectCfgDisabled.mpuRegionsEnable = false
  /-- The assets of a partition are disjoint. -/
  within : ∀ p ∈ partitions, (P.info p).assets.Pairwise (Asset.Disjoint P)
  /-- The assets of different partitions are disjoint. -/
  across : ∀ p ∈ partitions, ∀ q ∈ partitions, p ≠ q → ∀ asset ∈ (P.info p).assets,
    ∀ other ∈ (P.info q).assets, asset.Disjoint P other

/-- The dynamically managed assets of a partition have a configuration. -/
def AllConfigured (P : Platform ι ρ β κ μ) (cfg : RegionCfg κ μ) (p : ι) (x : World ι ρ β κ μ) :
    Prop :=
  ∀ asset ∈ (P.info p).assets, Configured P cfg x asset

/-- The configuration of a partition that is not active. -/
def Info.restingCfg (pInfo : Info ρ κ μ) : RegionCfg κ μ :=
  if pInfo.spmDomain then pInfo.protectCfgEnabled else pInfo.protectCfgDisabled

/-- The regions of the MPU that a partition needs. -/
def Info.regions (pInfo : Info ρ κ μ) : List MpuRegion :=
  if pInfo.spmDomain || pInfo.privileged then []
  else (memoryAssets pInfo.assets).map MemoryAsset.region

/-- Only the assets of one partition are open. -/
structure Isolated (P : Platform ι ρ β κ μ) (partitions : List ι) (x : World ι ρ β κ μ) (p : ι) :
    Prop where
  /-- The regions of the MPU after the static ones. -/
  mpu : ∀ i, P.mpuStaticConfigCount + i < P.mpuRegionNr →
    x.mpu (P.mpuStaticConfigCount + i) = (P.info p).regions[i]?
  /-- The number of used regions. -/
  used : x.mpuUsedRegionsCount = P.mpuStaticConfigCount + (P.info p).regions.length
  /-- The assets of the partition. -/
  own : AllConfigured P (P.info p).protectCfgEnabled p x
  /-- The assets of the others. -/
  others : ∀ q ∈ partitions, q ≠ p → (P.info q).spmDomain = false →
    AllConfigured P (P.info q).protectCfgDisabled q x

theorem AllConfigured.of_frame {assets : List (Asset ρ)} (configured : AllConfigured P cfg q x)
    (frame : Frame P assets x y)
    (disjoint : ∀ asset ∈ assets, ∀ other ∈ (P.info q).assets, asset.Disjoint P other) :
    AllConfigured P cfg q y :=
  fun other mem ↦ (configured other mem).of_sameOn
    (frame.others other fun asset mem' ↦ disjoint asset mem' other mem)

section Boot

variable [DecidableEq ρ] [DecidableEq β]

/-- Bind the partitions and finish the boot, unless the SPM panics. -/
def boot (P : Platform ι ρ β κ μ) (fault : Fault ρ β κ μ) :
    List ι → World ι ρ β κ μ → Option (World ι ρ β κ μ)
  | [], x => some (tfmHalFinishBoot x)
  | p :: rest, x =>
      match tfmHalBindBoundary P fault p x with
      | (.success, x) => boot P fault rest x
      | _ => none

/-- Bound partitions rest. -/
theorem bind_spec (disjoint : (P.info p).assets.Pairwise (Asset.Disjoint P))
    (succeeds : tfmHalBindBoundary P fault p x = (.success, y)) :
    Frame P (P.info p).assets x { y with assetProtectionType := x.assetProtectionType } ∧
      AllConfigured P (P.info p).restingCfg p y := by
  rw [tfmHalBindBoundary] at succeeds
  rw [Info.restingCfg]
  cases spm : (P.info p).spmDomain with
  | true =>
      rw [spm, if_pos rfl] at succeeds
      have applies := applies_of_protect succeeds
      exact ⟨⟨rfl, applies.activeBoundary, applies.bound, applies.others⟩,
        applies.configured disjoint⟩
  | false =>
      rw [spm, if_neg (by decide)] at succeeds
      split at succeeds
      · next middle opened =>
          have opens := applies_of_protect opened
          have closes := applies_of_protect succeeds
          exact ⟨⟨rfl, closes.activeBoundary.trans opens.activeBoundary, closes.bound ∘ opens.bound,
            fun other apart ↦ (opens.others other apart).trans (closes.others other apart)⟩,
            closes.configured disjoint⟩
      · next failed => exact absurd succeeds (failed y)

/-- After the boot every partition rests. -/
theorem boot_spec (sane : Sane P partitions) {rest : List ι} (subset : rest ⊆ partitions)
    (boots : boot P fault rest x = some y) :
    y.assetProtectionType = .partitionDynamic ∧ y.activeBoundary = x.activeBoundary ∧
      (x.mpuUsedRegionsCount ≤ P.mpuRegionNr → y.mpuUsedRegionsCount ≤ P.mpuRegionNr) ∧
      ∀ q ∈ partitions, q ∈ rest ∨ AllConfigured P (P.info q).restingCfg q x →
        AllConfigured P (P.info q).restingCfg q y := by
  induction rest generalizing x with
  | nil =>
      cases boots
      refine ⟨rfl, rfl, id, fun q _ resting ↦ ?_⟩
      rcases resting with mem | resting
      · exact absurd mem List.not_mem_nil
      · exact fun asset mem ↦ (resting asset mem).of_sameOn (SameOn.refl asset)
  | cons p rest ih =>
      have mem : p ∈ partitions := subset List.mem_cons_self
      rw [boot] at boots
      split at boots
      · next middle bound =>
          obtain ⟨frame, configured⟩ := bind_spec (sane.within p mem) bound
          obtain ⟨dynamic, active, used, resting⟩ :=
            ih (List.subset_of_cons_subset subset) boots
          refine ⟨dynamic, active.trans frame.activeBoundary, used ∘ frame.bound,
            fun q mem' before ↦ ?_⟩
          refine resting q mem' ?_
          by_cases same : q = p
          · exact .inr (same ▸ configured)
          rcases before with before | before
          · exact .inl ((List.mem_cons.1 before).resolve_left same)
          · have kept := before.of_frame frame (sane.across p mem q mem' (Ne.symm same))
            exact .inr fun asset mem ↦ (kept asset mem).of_sameOn (SameOn.refl asset)
      · cases boots

end Boot

variable [DecidableEq ι] [DecidableEq ρ] [DecidableEq β]

/-- The assets that switches deal with. -/
def Info.switchedAssets (pInfo : Info ρ κ μ) : List (Asset ρ) :=
  if pInfo.spmDomain then [] else pInfo.assets

omit [DecidableEq ρ] in
theorem Info.mem_switchedAssets {pInfo : Info ρ κ μ} {asset : Asset ρ} :
    asset ∈ pInfo.switchedAssets ↔ pInfo.spmDomain = false ∧ asset ∈ pInfo.assets := by
  rw [Info.switchedAssets]
  cases pInfo.spmDomain <;> simp

/-- The assets of the active boundary. -/
def activeAssets (P : Platform ι ρ β κ μ) (x : World ι ρ β κ μ) : List (Asset ρ) :=
  match x.activeBoundary with
  | none => []
  | some q => (P.info q).switchedAssets

omit [DecidableEq ι] [DecidableEq ρ] [DecidableEq β] in
theorem mem_activeAssets {asset : Asset ρ} (mem : asset ∈ activeAssets P x) :
    ∃ q, x.activeBoundary = some q ∧ asset ∈ (P.info q).switchedAssets := by
  rw [activeAssets] at mem
  split at mem
  · cases mem
  · next q active => exact ⟨q, active, mem⟩

omit [DecidableEq ι] in
theorem frame_disableActive : Frame P (activeAssets P x) x (disableActive P fault x).2 := by
  rw [activeAssets, disableActive]
  cases x.activeBoundary with
  | none => exact Frame.refl _
  | some q =>
      dsimp only
      rw [Info.switchedAssets]
      split
      · exact Frame.refl _
      · exact frame_protect

omit [DecidableEq ι] in
/-- The assets of the active boundary are closed. -/
theorem disableActive_spec (sane : Sane P partitions) (mem : q ∈ partitions)
    (dynamic : (P.info q).spmDomain = false) (active : x.activeBoundary = some q)
    (succeeds : disableActive P fault x = (.success, y)) :
    AllConfigured P (P.info q).protectCfgDisabled q y := by
  rw [disableActive, active] at succeeds
  dsimp only at succeeds
  rw [if_neg (Bool.eq_false_iff.1 dynamic)] at succeeds
  exact (applies_of_protect succeeds).configured (sane.within q mem)

/-- Open the assets of the next partition. -/
def enableNext (P : Platform ι ρ β κ μ) (fault : Fault ρ β κ μ) (p : ι) (x : World ι ρ β κ μ) :
    HalStatus × World ι ρ β κ μ :=
  if (P.info p).spmDomain then (.success, x)
  else ifxProtectPartitionAssets P fault (P.info p) (P.info p).protectCfgEnabled x

omit [DecidableEq ι] in
theorem frame_enableNext : Frame P (P.info p).switchedAssets x (enableNext P fault p x).2 := by
  rw [enableNext, Info.switchedAssets]
  split
  · exact Frame.refl _
  · exact frame_protect

omit [DecidableEq ι] [DecidableEq ρ] [DecidableEq β] in
theorem frame_mpuDisableAssetRegions (fits : P.mpuStaticConfigCount ≤ P.mpuRegionNr) :
    Frame P [] x (ifxMpuDisableAssetRegions P x) := by
  refine ⟨rfl, rfl, fun _ ↦ fits, fun other _ ↦ ?_⟩
  cases other with
  | namedMmio devRef => cases devRef <;> trivial
  | memory m => exact fun _ _ ↦ rfl

omit [DecidableEq ι] in
/-- A switch closes the assets of the active boundary and then opens those of the next one. -/
theorem switchBoundary_cases (fault : Fault ρ β κ μ) (x : World ι ρ β κ μ) (p : ι) :
    (disableActive P fault x).1 ≠ .success ∧ switchBoundary P fault p x = disableActive P fault x ∨
      ∃ middle, disableActive P fault x = (.success, middle) ∧
        ((enableNext P fault p (ifxMpuDisableAssetRegions P middle)).1 ≠ .success ∧
            switchBoundary P fault p x = enableNext P fault p (ifxMpuDisableAssetRegions P middle) ∨
          ∃ after, enableNext P fault p (ifxMpuDisableAssetRegions P middle) = (.success, after) ∧
            switchBoundary P fault p x = (.success, { after with activeBoundary := some p })) := by
  rw [switchBoundary]
  split
  · next middle disabled =>
      refine .inr ⟨middle, disabled, ?_⟩
      change (_ ∧ (if (enableNext P fault p (ifxMpuDisableAssetRegions P middle)).1 ≠ .success then
          enableNext P fault p (ifxMpuDisableAssetRegions P middle)
        else (.success, { (enableNext P fault p (ifxMpuDisableAssetRegions P middle)).2 with
          activeBoundary := some p })) = _) ∨ ∃ after, _ ∧ (if
            (enableNext P fault p (ifxMpuDisableAssetRegions P middle)).1 ≠ .success then
          enableNext P fault p (ifxMpuDisableAssetRegions P middle)
        else (.success, { (enableNext P fault p (ifxMpuDisableAssetRegions P middle)).2 with
          activeBoundary := some p })) = _
      split
      · next failed => exact .inl ⟨failed, rfl⟩
      · next done => exact .inr ⟨_, Prod.ext (not_not.1 done) rfl, rfl⟩
  · next failed =>
      refine .inl ⟨fun success ↦ failed (disableActive P fault x).2 (Prod.ext success rfl), rfl⟩

omit [DecidableEq ι] in
/-- A switch leaves everything alone but the two partitions. -/
theorem frame_switchBoundary (fits : P.mpuStaticConfigCount ≤ P.mpuRegionNr) :
    Frame P (activeAssets P x ++ (P.info p).switchedAssets) x
      { (switchBoundary P fault p x).2 with activeBoundary := x.activeBoundary } := by
  have disables : Frame P (activeAssets P x) x (disableActive P fault x).2 := frame_disableActive
  rcases switchBoundary_cases (P := P) fault x p with
    ⟨-, eq⟩ | ⟨middle, disabled, enables⟩
  · have frame := disables.mono (List.subset_append_left _ (P.info p).switchedAssets)
    rw [eq]
    exact ⟨frame.1, rfl, frame.3, frame.4⟩
  rw [disabled] at disables
  have frame : Frame P (activeAssets P x ++ (P.info p).switchedAssets) x
      (enableNext P fault p (ifxMpuDisableAssetRegions P middle)).2 :=
    disables.trans ((frame_mpuDisableAssetRegions fits).trans frame_enableNext)
  rcases enables with ⟨-, eq⟩ | ⟨after, enabled, eq⟩
  · rw [eq]
    exact ⟨frame.1, rfl, frame.3, frame.4⟩
  · rw [enabled] at frame
    rw [eq]
    exact ⟨frame.1, rfl, frame.3, frame.4⟩

/-- What holds between two switches.  `pending` is the boundary that could not be activated. -/
structure Inv (P : Platform ι ρ β κ μ) (partitions : List ι) (pending : Option ι)
    (x : World ι ρ β κ μ) : Prop where
  /-- Assets are managed dynamically. -/
  dynamic : x.assetProtectionType = .partitionDynamic
  /-- There are enough regions of the MPU. -/
  used : x.mpuUsedRegionsCount ≤ P.mpuRegionNr
  /-- The active partition has been bound. -/
  active : ∀ q, x.activeBoundary = some q → q ∈ partitions
  /-- A boundary that could not be activated is not active. -/
  pending_inactive : ∀ q, pending = some q → x.activeBoundary ≠ some q
  /-- Partitions rest, unless they are active or could not be activated. -/
  resting : ∀ q ∈ partitions,
    (P.info q).spmDomain = true ∨ x.activeBoundary ≠ some q ∧ pending ≠ some q →
      AllConfigured P (P.info q).restingCfg q x
  /-- Only the assets of the active partition are open. -/
  isolated : pending = none → ∀ q, x.activeBoundary = some q → Isolated P partitions x q

omit [DecidableEq ι] in
/-- Partitions in the domain of the SPM and partitions that do not take part keep their
configuration. -/
theorem resting_switchBoundary (sane : Sane P partitions) {pending : Option ι}
    (inv : Inv P partitions pending x) (retry : pending = none ∨ pending = some p)
    (mem : p ∈ partitions) (mem' : q ∈ partitions)
    (apart : (P.info q).spmDomain = true ∨ x.activeBoundary ≠ some q ∧ q ≠ p) :
    AllConfigured P (P.info q).restingCfg q (switchBoundary P fault p x).2 := by
  have frame : Frame P (activeAssets P x ++ (P.info p).switchedAssets) x
      { (switchBoundary P fault p x).2 with activeBoundary := x.activeBoundary } :=
    frame_switchBoundary sane.mpuStaticConfigCount
  have before : AllConfigured P (P.info q).restingCfg q x := by
    refine inv.resting q mem' (apart.imp_right fun apart ↦ ⟨apart.1, ?_⟩)
    rcases retry with rfl | rfl
    · exact Option.some_ne_none q ∘ Eq.symm
    · exact fun same ↦ apart.2 (Option.some.inj same).symm
  have disjoint (a : ι) (mem_a : a ∈ partitions) (ne : (P.info q).spmDomain = true ∨ a ≠ q) :
      ∀ asset ∈ (P.info a).switchedAssets, ∀ other ∈ (P.info q).assets, asset.Disjoint P other := by
    intro asset switched other of_other
    obtain ⟨dynamic, of_asset⟩ := Info.mem_switchedAssets.1 switched
    refine sane.across a mem_a q mem' (fun same ↦ ?_) asset of_asset other of_other
    rcases ne with spm | ne
    · exact Bool.false_ne_true (dynamic.symm.trans (same ▸ spm))
    · exact ne same
  have kept := before.of_frame frame fun asset mem'' ↦ by
    rcases List.mem_append.1 mem'' with mem'' | mem''
    · obtain ⟨a, active, switched⟩ := mem_activeAssets mem''
      exact disjoint a (inv.active a active)
        (apart.imp_right fun apart same ↦ apart.1 (same ▸ active)) asset switched
    · exact disjoint p mem (apart.imp_right fun apart ↦ Ne.symm apart.2) asset mem''
  exact fun asset mem ↦ (kept asset mem).of_sameOn (SameOn.refl asset)

omit [DecidableEq ι] [DecidableEq ρ] [DecidableEq β] in
theorem restingCfg_eq (dynamic : (P.info q).spmDomain = false) :
    (P.info q).restingCfg = (P.info q).protectCfgDisabled := by
  rw [Info.restingCfg, if_neg (Bool.eq_false_iff.1 dynamic)]

omit [DecidableEq ι] [DecidableEq ρ] [DecidableEq β] in
theorem mpuRegions_eq_regions (sane : Sane P partitions) (mem : p ∈ partitions)
    (dynamic : (P.info p).spmDomain = false) :
    mpuRegions (P.info p) (P.info p).protectCfgEnabled .partitionDynamic (P.info p).assets =
      (P.info p).regions := by
  rw [mpuRegions, Info.regions]
  cases privileged : (P.info p).privileged with
  | true => rw [if_neg fun on ↦ by simp at on, Bool.or_true, if_pos rfl]
  | false =>
      rw [if_pos ⟨sane.enabled p mem dynamic privileged, rfl, rfl⟩, dynamic, if_neg (by decide)]

omit [DecidableEq ι] in
/-- The regions of the MPU after a switch. -/
theorem enableNext_mpu (sane : Sane P partitions) (mem : p ∈ partitions)
    (dynamic : x.assetProtectionType = .partitionDynamic)
    (succeeds : enableNext P fault p (ifxMpuDisableAssetRegions P x) = (.success, y)) :
    MpuAdds (P.info p).regions (ifxMpuDisableAssetRegions P x) y := by
  rw [enableNext] at succeeds
  cases spm : (P.info p).spmDomain with
  | true =>
      rw [spm, if_pos rfl] at succeeds
      cases succeeds
      rw [Info.regions, spm, Bool.true_or, if_pos rfl]
      exact MpuAdds.refl
  | false =>
      rw [spm, if_neg (by decide)] at succeeds
      have added := (applies_of_protect succeeds).mpu
      rw [show (ifxMpuDisableAssetRegions P x).assetProtectionType = _ from dynamic,
        mpuRegions_eq_regions sane mem spm] at added
      exact added

omit [DecidableEq ι] in
/-- Only the assets of the partition that is switched to are open. -/
theorem isolated_switchBoundary (sane : Sane P partitions) {pending : Option ι}
    (inv : Inv P partitions pending x) (retry : pending = none ∨ pending = some p)
    (mem : p ∈ partitions) (succeeds : switchBoundary P fault p x = (.success, y)) :
    y.activeBoundary = some p ∧ Isolated P partitions y p := by
  have resting (q : ι) (mem' : q ∈ partitions)
      (apart : (P.info q).spmDomain = true ∨ x.activeBoundary ≠ some q ∧ q ≠ p) :
      AllConfigured P (P.info q).restingCfg q (switchBoundary P fault p x).2 :=
    resting_switchBoundary sane inv retry mem mem' apart
  rcases switchBoundary_cases (P := P) fault x p with
    ⟨failed, eq⟩ | ⟨middle, disabled, ⟨failed, eq⟩ | ⟨after, enabled, eq⟩⟩
  · exact absurd (congrArg Prod.fst (eq.symm.trans succeeds)) failed
  · exact absurd (congrArg Prod.fst (eq.symm.trans succeeds)) failed
  rw [eq] at succeeds resting
  cases succeeds
  have disables : Frame P (activeAssets P x) x (disableActive P fault x).2 := frame_disableActive
  rw [disabled] at disables
  have mpu := enableNext_mpu sane mem (disables.assetProtectionType.trans inv.dynamic) enabled
  refine ⟨rfl, fun i lt ↦ ?_, mpu.used, ?_, fun q mem' ne dynamic ↦ ?_⟩
  · -- the regions of assets have been disabled before
    have off : (ifxMpuDisableAssetRegions P middle).mpu (P.mpuStaticConfigCount + i) = none :=
      if_pos ⟨Nat.le_add_right .., lt⟩
    by_cases needed : i < (P.info p).regions.length
    · exact mpu.added i needed
    · refine (mpu.kept _ (.inr ?_)).trans (off.trans (List.getElem?_eq_none (by omega)).symm)
      exact Nat.add_le_add_left (Nat.not_lt.1 needed) _
  · cases spm : (P.info p).spmDomain with
    | true =>
        have own := resting p mem (.inl spm)
        rw [Info.restingCfg, if_pos spm] at own
        exact own
    | false =>
        rw [enableNext, if_neg (Bool.eq_false_iff.1 spm)] at enabled
        have own := (applies_of_protect enabled).configured (sane.within p mem)
        exact fun asset mem'' ↦ (own asset mem'').of_sameOn (SameOn.refl asset)
  · by_cases active : x.activeBoundary = some q
    · -- the assets of the old boundary have been closed, and opening the new ones does not concern
      -- them
      have closed := disableActive_spec sane mem' dynamic active disabled
      have enables : Frame P (P.info p).switchedAssets (ifxMpuDisableAssetRegions P middle)
          (enableNext P fault p (ifxMpuDisableAssetRegions P middle)).2 := frame_enableNext
      rw [enabled] at enables
      have kept := closed.of_frame
        ((frame_mpuDisableAssetRegions sane.mpuStaticConfigCount).trans enables)
        fun asset switched ↦
          sane.across p mem q mem' (Ne.symm ne) asset (Info.mem_switchedAssets.1 switched).2
      exact fun asset mem'' ↦ (kept asset mem'').of_sameOn (SameOn.refl asset)
    · have rests := resting q mem' (.inr ⟨active, ne⟩)
      rw [restingCfg_eq dynamic] at rests
      exact rests

omit [DecidableEq ι] in
/-- A switch that fails does not change the active boundary. -/
theorem active_switchBoundary (failed : (switchBoundary P fault p x).1 ≠ .success) :
    (switchBoundary P fault p x).2.activeBoundary = x.activeBoundary := by
  have disables : Frame P (activeAssets P x) x (disableActive P fault x).2 := frame_disableActive
  rcases switchBoundary_cases (P := P) fault x p with
    ⟨-, eq⟩ | ⟨middle, disabled, ⟨-, eq⟩ | ⟨after, -, eq⟩⟩
  · rw [eq]
    exact disables.activeBoundary
  · rw [disabled] at disables
    rw [eq]
    exact frame_enableNext.activeBoundary.trans disables.activeBoundary
  · rw [eq] at failed
    exact absurd rfl failed

omit [DecidableEq ι] in
/-- A switch keeps the invariant. -/
theorem inv_switchBoundary (sane : Sane P partitions) {pending : Option ι}
    (inv : Inv P partitions pending x) (retry : pending = none ∨ pending = some p)
    (mem : p ∈ partitions) (inactive : x.activeBoundary ≠ some p) :
    Inv P partitions (if (switchBoundary P fault p x).1 = .success then none else some p)
      (switchBoundary P fault p x).2 := by
  have frame : Frame P (activeAssets P x ++ (P.info p).switchedAssets) x
      { (switchBoundary P fault p x).2 with activeBoundary := x.activeBoundary } :=
    frame_switchBoundary sane.mpuStaticConfigCount
  have resting (q : ι) (mem' : q ∈ partitions)
      (apart : (P.info q).spmDomain = true ∨ x.activeBoundary ≠ some q ∧ q ≠ p) :
      AllConfigured P (P.info q).restingCfg q (switchBoundary P fault p x).2 :=
    resting_switchBoundary sane inv retry mem mem' apart
  split
  · next success =>
      obtain ⟨active, isolated⟩ := isolated_switchBoundary sane inv retry mem
        (show switchBoundary P fault p x = (.success, (switchBoundary P fault p x).2) from
          Prod.ext success rfl)
      refine ⟨frame.assetProtectionType.trans inv.dynamic, frame.bound inv.used,
        fun q is_active ↦ ?_,
        fun _ none_pending ↦ absurd none_pending.symm (Option.some_ne_none _),
        fun q mem' apart ↦ ?_,
        fun _ q is_active ↦ ?_⟩
      · exact Option.some.inj (active.symm.trans is_active) ▸ mem
      · rw [active] at apart
        cases spm : (P.info q).spmDomain with
        | true => exact resting q mem' (.inl spm)
        | false =>
            rw [spm] at apart
            rw [restingCfg_eq spm]
            exact isolated.others q mem' (fun same ↦
              (apart.resolve_left Bool.false_ne_true).1 (congrArg some same.symm)) spm
      · exact Option.some.inj (active.symm.trans is_active) ▸ isolated
  · next failed =>
      have active := active_switchBoundary failed
      refine ⟨frame.assetProtectionType.trans inv.dynamic, frame.bound inv.used,
        fun q is_active ↦ ?_,
        fun q is_pending ↦ ?_, fun q mem' apart ↦ ?_,
        fun none_pending ↦ absurd none_pending (Option.some_ne_none _)⟩
      · exact inv.active q (active.symm.trans is_active)
      · rw [active, ← is_pending]
        exact inactive
      · rw [active] at apart
        exact resting q mem' (apart.imp_right fun apart ↦
          ⟨apart.1, fun same ↦ apart.2 (congrArg some same.symm)⟩)

/-- A system with the boundary that could not be activated. -/
structure System (ι ρ β κ μ : Type) where
  /-- The controllers and the driver. -/
  world : World ι ρ β κ μ
  /-- The boundary whose activation has failed. -/
  pending : Option ι

/-- A call of `tfm_hal_activate_boundary`. -/
structure Call (ι ρ β κ μ : Type) where
  /-- The boundary. -/
  boundary : Option ι
  /-- The steps that fail. -/
  fault : Fault ρ β κ μ

/-- A call for one of the partitions or for the SPM. -/
def step (P : Platform ι ρ β κ μ) (partitions : List ι) (s : System ι ρ β κ μ)
    (c : Call ι ρ β κ μ) : Option (System ι ρ β κ μ) :=
  if ∀ p ∈ c.boundary, p ∈ partitions then
    let (result, world) := tfmHalActivateBoundary P c.fault c.boundary s.world
    some ⟨world, if c.boundary = none then s.pending
      else if result = .success then none else c.boundary⟩
  else none

/-- After a failure only the same boundary is tried again. -/
def Retries (s : System ι ρ β κ μ) (c : Call ι ρ β κ μ) : Prop :=
  s.pending = none ∨ c.boundary = none ∨ c.boundary = s.pending

instance (s : System ι ρ β κ μ) (c : Call ι ρ β κ μ) : Decidable (Retries s c) :=
  inferInstanceAs (Decidable (_ ∨ _ ∨ _))

/-- What is promised of the calls that may be made in a state. -/
structure Sound (P : Platform ι ρ β κ μ) (partitions : List ι) (allowed : Call ι ρ β κ μ → Prop)
    (x : World ι ρ β κ μ) : Prop where
  /-- The MPU has as many regions as are used. -/
  used : x.mpuUsedRegionsCount ≤ P.mpuRegionNr
  /-- After a successful call for a partition only its assets are open. -/
  isolated : ∀ c, allowed c → ∀ p ∈ partitions, c.boundary = some p → ∀ y,
    tfmHalActivateBoundary P c.fault c.boundary x = (.success, y) → Isolated P partitions y p
  /-- A call for the SPM changes nothing. -/
  spm : ∀ fault, (tfmHalActivateBoundary P fault none x).2 = { x with nPriv := false }

omit [DecidableEq ι] [DecidableEq ρ] [DecidableEq β] in
/-- The privilege of the thread mode is not part of the isolation. -/
theorem Inv.withNPriv {pending : Option ι} (inv : Inv P partitions pending x) (nPriv : Bool) :
    Inv P partitions pending { x with nPriv := nPriv } where
  dynamic := inv.dynamic
  used := inv.used
  active := inv.active
  pending_inactive := inv.pending_inactive
  resting q mem apart asset of_asset :=
    (inv.resting q mem apart asset of_asset).of_sameOn (SameOn.refl asset)
  isolated no_pending q active := by
    have isolated := inv.isolated no_pending q active
    exact ⟨isolated.mpu, isolated.used,
      fun asset mem ↦ (isolated.own asset mem).of_sameOn (SameOn.refl asset),
      fun r mem ne dynamic asset of_asset ↦
        (isolated.others r mem ne dynamic asset of_asset).of_sameOn (SameOn.refl asset)⟩

/-- Calls for the active boundary only set the privilege, and other calls for a partition switch. -/
theorem tfmHalActivateBoundary_some :
    tfmHalActivateBoundary P fault (some p) x =
      if x.activeBoundary = some p then (.success, { x with nPriv := !(P.info p).privileged })
      else if (switchBoundary P fault p x).1 = .success then
        (.success, { (switchBoundary P fault p x).2 with nPriv := !(P.info p).privileged })
      else switchBoundary P fault p x := by
  rw [tfmHalActivateBoundary]
  by_cases active : x.activeBoundary = some p
  · rw [if_pos active, if_pos active]
    rfl
  · rw [if_neg active, if_neg active]
    by_cases success : (switchBoundary P fault p x).1 = .success
    · rw [if_pos success]
      exact if_neg (not_not.2 success)
    · rw [if_neg success]
      exact if_pos success

/-- A call that may be made keeps the invariant. -/
theorem inv_step (sane : Sane P partitions) {s t : System ι ρ β κ μ} {c : Call ι ρ β κ μ}
    (inv : Inv P partitions s.pending s.world) (retries : Retries s c)
    (step_eq : step P partitions s c = some t) : Inv P partitions t.pending t.world := by
  obtain ⟨boundary, fault⟩ := c
  rw [step] at step_eq
  split at step_eq
  swap
  · cases step_eq
  next bound =>
  cases boundary with
  | none =>
      cases step_eq
      exact inv.withNPriv false
  | some p =>
      have mem := bound p rfl
      rw [tfmHalActivateBoundary_some] at step_eq
      dsimp only at step_eq
      rw [if_neg (Option.some_ne_none p)] at step_eq
      have retry : s.pending = none ∨ s.pending = some p := by
        rcases retries with none_pending | none_called | same
        · exact .inl none_pending
        · cases none_called
        · exact .inr same.symm
      by_cases active : s.world.activeBoundary = some p
      · rw [if_pos active] at step_eq
        cases step_eq
        have none_pending : s.pending = none :=
          retry.resolve_right fun pending ↦ inv.pending_inactive p pending active
        rw [none_pending] at inv
        exact inv.withNPriv _
      · have after : Inv P partitions (if (switchBoundary P fault p s.world).1 = .success then none
            else some p) (switchBoundary P fault p s.world).2 :=
          inv_switchBoundary sane inv retry mem active
        rw [if_neg active] at step_eq
        by_cases success : (switchBoundary P fault p s.world).1 = .success
        · rw [if_pos success] at step_eq after
          cases step_eq
          exact after.withNPriv _
        · rw [if_neg success] at step_eq after
          cases step_eq
          rw [if_neg success]
          exact after

/-- Systems in which the boot has bound the partitions. -/
structure Booted (P : Platform ι ρ β κ μ) (partitions : List ι) (s : System ι ρ β κ μ) : Prop where
  /-- All of them have been bound. -/
  boots : ∃ fault start, start.activeBoundary = none ∧ start.mpuUsedRegionsCount ≤ P.mpuRegionNr ∧
    boot P fault partitions start = some s.world
  /-- There has been no call. -/
  pending : s.pending = none

omit [DecidableEq ι] in
theorem inv_of_booted (sane : Sane P partitions) {s : System ι ρ β κ μ}
    (booted : Booted P partitions s) :
    Inv P partitions s.pending s.world := by
  obtain ⟨fault, start, none_active, fits, boots⟩ := booted.boots
  obtain ⟨dynamic, active, used, resting⟩ := boot_spec sane (List.Subset.refl _) boots
  rw [none_active] at active
  rw [booted.pending]
  refine ⟨dynamic, used fits, fun q is_active ↦ ?_, fun q pending ↦ ?_,
    fun q mem _ ↦ resting q mem (.inl mem), fun _ q is_active ↦ ?_⟩
  · cases active.symm.trans is_active
  · cases pending
  · cases active.symm.trans is_active

/-- In every run in which only the same boundary is tried again after a failure. -/
theorem sound_of_retries (P : Platform ι ρ β κ μ) (partitions : List ι) (sane : Sane P partitions)
    (start s : System ι ρ β κ μ) (booted : Booted P partitions start)
    (reaches : Run.Reaches (step P partitions) Retries start s) :
    Sound P partitions (Retries s) s.world := by
  have inv : Inv P partitions s.pending s.world :=
    reaches.invariant (I := fun s ↦ Inv P partitions s.pending s.world) (inv_of_booted sane booted)
      fun _ _ _ inv retries step_eq ↦ inv_step sane inv retries step_eq
  refine ⟨inv.used, fun c retries p mem called y succeeds ↦ ?_, fun fault ↦ rfl⟩
  have after : Inv P partitions none y := by
    have bound : ∀ q ∈ c.boundary, q ∈ partitions := fun q is_called ↦ by
      rw [called] at is_called
      exact Option.some.inj is_called ▸ mem
    refine inv_step sane inv retries (t := ⟨y, none⟩) ?_
    rw [step, if_pos bound, succeeds]
    dsimp only
    rw [if_neg (called ▸ Option.some_ne_none p), if_pos rfl]
  refine after.isolated rfl p ?_
  rw [called, tfmHalActivateBoundary_some] at succeeds
  split at succeeds
  · next active =>
      cases succeeds
      exact active
  split at succeeds
  · next success =>
      have retry : s.pending = none ∨ s.pending = some p := by
        rcases retries with none_pending | none_called | same
        · exact .inl none_pending
        · exact absurd (none_called.symm.trans called) (Option.some_ne_none p).symm
        · exact .inr (same.symm.trans called)
      have active := (isolated_switchBoundary sane inv retry mem
        (show switchBoundary P c.fault p s.world =
          (.success, (switchBoundary P c.fault p s.world).2)
          from Prod.ext success rfl)).1
      cases succeeds
      exact active
  · next failed => exact absurd (congrArg Prod.fst succeeds) failed

/-- Memory of one of two partitions. -/
def sampleMemory (p : Bool) : MemoryAsset :=
  if p then ⟨0x2000, 0x3000, false, true⟩ else ⟨0x1000, 0x2000, false, true⟩

/-- Two unprivileged partitions with a peripheral and some memory each. -/
def samplePlatform : Platform Bool Bool Bool Bool Bool where
  info p :=
    { ldAssets := [.namedMmio (some p), .memory (sampleMemory p)]
      pAssets := []
      privileged := false
      spmDomain := false
      protectCfgEnabled := ⟨true, true, true, true, true⟩
      protectCfgDisabled := ⟨false, false, false, true, true⟩ }
  mpcBlocks m := if m.start = 0x1000 then [false] else [true]
  mpuRegionNr := 8
  mpuStaticConfigCount := 2
  ppcPresent := true
  mpcPresent := true

theorem samplePlatform_sane : Sane samplePlatform [false, true] where
  mpuStaticConfigCount := by decide
  enabled _ _ _ _ := rfl
  disabled _ _ _ := rfl
  within p _ := by
    refine List.pairwise_cons.2 ⟨fun other mem ↦ ?_, List.pairwise_singleton ..⟩
    rw [List.mem_singleton.1 mem]
    trivial
  across p _ q _ ne asset of_asset other of_other := by
    have blocks : ∀ p q : Bool, p ≠ q → ∀ b ∈ samplePlatform.mpcBlocks (sampleMemory p),
        b ∉ samplePlatform.mpcBlocks (sampleMemory q) := by decide
    rcases List.mem_pair.1 of_asset with rfl | rfl <;>
      rcases List.mem_pair.1 of_other with rfl | rfl
    · exact ne
    · trivial
    · trivial
    · exact blocks p q ne

/-- Nothing is open before the boot. -/
def sampleStart : World Bool Bool Bool Bool Bool where
  ppc _ := false
  mpc _ := (false, false)
  mpu _ := none
  mpuUsedRegionsCount := 0
  activeBoundary := none
  assetProtectionType := .static
  nPriv := false
  steps := 0

/-- A call for a partition, with the steps that fail. -/
def sampleCall (p : Bool) (fails : ℕ → Bool) : Call Bool Bool Bool Bool Bool :=
  ⟨some p, ⟨fails, fun _ ↦ false, fun _ ↦ (false, false)⟩⟩

/-- The boot of the two partitions. -/
def sampleBoot : Option (System Bool Bool Bool Bool Bool) :=
  (boot samplePlatform (sampleCall true fun _ ↦ false).fault
    [false, true] sampleStart).map (⟨·, none⟩)

theorem sampleBoot_booted {start : System Bool Bool Bool Bool Bool}
    (boots : sampleBoot = some start) :
    Booted samplePlatform [false, true] start := by
  obtain ⟨x, bound, rfl⟩ := Option.map_eq_some_iff.1 boots
  exact ⟨⟨_, sampleStart, rfl, by decide, bound⟩, rfl⟩

/-- The second switch fails at the MPC, and then it is tried again. -/
theorem sound_sampleCalls :
    ∃ start s, sampleBoot = some start ∧
      Run.exec (step samplePlatform [false, true]) start [sampleCall false fun _ ↦ false,
        sampleCall true (· = 14), sampleCall true fun _ ↦ false] = some s ∧
      s.world.activeBoundary = some true ∧
      Sound samplePlatform [false, true] (Retries s) s.world := by
  have runs : sampleBoot.any (fun start ↦ (Run.exec (step samplePlatform [false, true]) start
      [sampleCall false fun _ ↦ false, sampleCall true (· = 14), sampleCall true fun _ ↦ false]).any
        (fun s ↦ s.world.activeBoundary = some true) &&
      Run.allowedBy (step samplePlatform [false, true])
        (fun s c ↦ Retries s c) start
        [sampleCall false fun _ ↦ false, sampleCall true (· = 14), sampleCall true fun _ ↦ false]) =
      true := by
    decide +kernel
  obtain ⟨start, boots, runs⟩ := (Option.any_eq_true ..).1 runs
  obtain ⟨runs, allowed⟩ := Bool.and_eq_true_iff.1 runs
  obtain ⟨s, run, active⟩ := (Option.any_eq_true ..).1 runs
  exact ⟨start, s, boots, run, of_decide_eq_true active,
    sound_of_retries samplePlatform [false, true] samplePlatform_sane start s
      (sampleBoot_booted boots)
      (Run.exec_reaches run (Run.allowed_of_decide allowed))⟩

/-- After a failed switch, a call for the old boundary succeeds without its regions of the MPU. -/
theorem not_sound : ¬∀ (P : Platform Bool Bool Bool Bool Bool) (partitions : List Bool),
    Sane P partitions → ∀ start s, Booted P partitions start →
      Run.Reaches (step P partitions) (fun _ _ ↦ True) start s →
        Sound P partitions (fun _ ↦ True) s.world := by
  have runs : sampleBoot.any (fun start ↦ (Run.exec (step samplePlatform [false, true]) start
      [sampleCall false fun _ ↦ false, sampleCall true (· = 14)]).any fun s ↦
        let call := tfmHalActivateBoundary samplePlatform (sampleCall false fun _ ↦ false).fault
          (some false) s.world
        call.1 = .success ∧ call.2.mpu 2 = none) = true := by
    decide +kernel
  obtain ⟨start, boots, runs⟩ := (Option.any_eq_true ..).1 runs
  obtain ⟨s, run, called⟩ := (Option.any_eq_true ..).1 runs
  obtain ⟨success, off⟩ := of_decide_eq_true called
  intro sound
  have isolated := (sound samplePlatform [false, true] samplePlatform_sane start s
    (sampleBoot_booted boots) (Run.exec_reaches run (Run.allowed_true ..))).isolated
    (sampleCall false fun _ ↦ false) trivial false List.mem_cons_self rfl _ (Prod.ext success rfl)
  have on := isolated.mpu 0 (by decide)
  exact Option.some_ne_none _ (on.symm.trans off)

end TrustedFirmwareM.Isolation.Boundary
