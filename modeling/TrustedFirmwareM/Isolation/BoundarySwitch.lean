import TrustedFirmwareM.Isolation.Boundary

/-!
# Switching between boundaries

Assets of different partitions do not overlap, so each partition's assets keep their configuration
while those of another one are opened or closed.
-/

namespace TrustedFirmwareM.Isolation.Boundary

variable {ι ρ β κ μ : Type}
  {P : Platform ι ρ β κ μ} {fault : Fault ρ β κ μ} {pInfo : Info ρ κ μ} {cfg : RegionCfg κ μ}
  {x y z : World ι ρ β κ μ}

/-- The assets of a partition. -/
def Info.assets (pInfo : Info ρ κ μ) : List (Asset ρ) := pInfo.ldAssets ++ pInfo.pAssets

/-- Assets that have no region and no block in common. -/
def Asset.Disjoint (P : Platform ι ρ β κ μ) : Asset ρ → Asset ρ → Prop
  | .namedMmio (some region), .namedMmio (some region') => region ≠ region'
  | .memory m, .memory m' => ∀ b ∈ P.mpcBlocks m, b ∉ P.mpcBlocks m'
  | _, _ => True

/-- A dynamically managed asset has a configuration. -/
def Configured (P : Platform ι ρ β κ μ) (cfg : RegionCfg κ μ) (x : World ι ρ β κ μ) :
    Asset ρ → Prop
  | .namedMmio none => True
  | .namedMmio (some region) =>
      P.ppcPresent = true → cfg.ppcDynamic = true → x.ppc region = cfg.ppcCfg
  | .memory m =>
      P.mpcPresent = true → cfg.mpcDynamic = true →
        ∀ b ∈ P.mpcBlocks m, x.mpc b = (cfg.mpcCfg, m.readWrite)

/-- Nothing has changed about an asset. -/
def SameOn (P : Platform ι ρ β κ μ) (x y : World ι ρ β κ μ) : Asset ρ → Prop
  | .namedMmio none => True
  | .namedMmio (some region) => y.ppc region = x.ppc region
  | .memory m => ∀ b ∈ P.mpcBlocks m, y.mpc b = x.mpc b

theorem Asset.Disjoint.symm {left right : Asset ρ} (disjoint : left.Disjoint P right) :
    right.Disjoint P left := by
  cases left with
  | namedMmio devRef =>
      cases right with
      | namedMmio devRef' =>
          cases devRef with
          | none => cases devRef' <;> trivial
          | some region =>
              cases devRef' with
              | none => trivial
              | some region' => exact Ne.symm disjoint
      | memory m => cases devRef <;> trivial
  | memory m =>
      cases right with
      | namedMmio devRef => cases devRef <;> trivial
      | memory m' => exact fun b mem mem' ↦ disjoint b mem' mem

theorem SameOn.refl (asset : Asset ρ) : SameOn P x x asset := by
  cases asset with
  | namedMmio devRef => cases devRef <;> trivial
  | memory m => exact fun _ _ ↦ rfl

theorem SameOn.trans {asset : Asset ρ} (first : SameOn P x y asset) (second : SameOn P y z asset) :
    SameOn P x z asset := by
  cases asset with
  | namedMmio devRef =>
      cases devRef with
      | none => trivial
      | some region => exact Eq.trans second first
  | memory m => exact fun b mem ↦ (second b mem).trans (first b mem)

theorem Configured.of_sameOn {asset : Asset ρ} (configured : Configured P cfg x asset)
    (same : SameOn P x y asset) : Configured P cfg y asset := by
  cases asset with
  | namedMmio devRef =>
      cases devRef with
      | none => trivial
      | some region => exact fun present dynamic ↦ Eq.trans same (configured present dynamic)
  | memory m =>
      exact fun present dynamic b mem ↦ (same b mem).trans (configured present dynamic b mem)

/-- What applying a configuration to assets leaves alone, also when it fails. -/
structure Frame (P : Platform ι ρ β κ μ) (assets : List (Asset ρ)) (x y : World ι ρ β κ μ) :
    Prop where
  /-- The kind of protection. -/
  assetProtectionType : y.assetProtectionType = x.assetProtectionType
  /-- The active boundary. -/
  activeBoundary : y.activeBoundary = x.activeBoundary
  /-- There are enough regions of the MPU. -/
  bound : x.mpuUsedRegionsCount ≤ P.mpuRegionNr → y.mpuUsedRegionsCount ≤ P.mpuRegionNr
  /-- Assets that are disjoint from those that are configured. -/
  others : ∀ other : Asset ρ, (∀ asset ∈ assets, asset.Disjoint P other) → SameOn P x y other

/-- Regions of the MPU have been enabled. -/
structure MpuAdds (regions : List MpuRegion) (x y : World ι ρ β κ μ) : Prop where
  /-- The number of used regions. -/
  used : y.mpuUsedRegionsCount = x.mpuUsedRegionsCount + regions.length
  /-- The regions. -/
  added : ∀ i < regions.length, y.mpu (x.mpuUsedRegionsCount + i) = regions[i]?
  /-- The other regions. -/
  kept : ∀ idx, idx < x.mpuUsedRegionsCount ∨ x.mpuUsedRegionsCount + regions.length ≤ idx →
    y.mpu idx = x.mpu idx

theorem MpuAdds.refl : MpuAdds [] x x :=
  ⟨rfl, fun i lt ↦ absurd lt (Nat.not_lt_zero i), fun _ _ ↦ rfl⟩

theorem MpuAdds.trans {first second : List MpuRegion} (left : MpuAdds first x y)
    (right : MpuAdds second y z) : MpuAdds (first ++ second) x z := by
  refine ⟨?_, fun i lt ↦ ?_, fun idx outside ↦ ?_⟩
  · rw [right.used, left.used, List.length_append, Nat.add_assoc]
  · rw [List.length_append] at lt
    by_cases early : i < first.length
    · rw [List.getElem?_append_left early, right.kept _ (.inl (by rw [left.used]; omega)),
        left.added i early]
    · have late := right.added (i - first.length) (by omega)
      rw [left.used, show x.mpuUsedRegionsCount + first.length + (i - first.length) =
        x.mpuUsedRegionsCount + i by omega] at late
      rw [List.getElem?_append_right (by omega), late]
  · rw [List.length_append] at outside
    rw [right.kept idx (by rw [left.used]; omega), left.kept idx (by omega)]

/-- The memory assets. -/
def memoryAssets (assets : List (Asset ρ)) : List MemoryAsset :=
  assets.filterMap fun
    | .namedMmio _ => none
    | .memory m => some m

/-- The regions of the MPU that are enabled for assets. -/
def mpuRegions (pInfo : Info ρ κ μ) (cfg : RegionCfg κ μ) (protection : AssetProtectionType)
    (assets : List (Asset ρ)) : List MpuRegion :=
  if cfg.mpuRegionsEnable ∧ protection = .partitionDynamic ∧ pInfo.privileged = false then
    (memoryAssets assets).map MemoryAsset.region
  else []

theorem mpuRegions_append (protection : AssetProtectionType) (left right : List (Asset ρ)) :
    mpuRegions pInfo cfg protection (left ++ right) =
      mpuRegions pInfo cfg protection left ++ mpuRegions pInfo cfg protection right := by
  rw [mpuRegions, mpuRegions, mpuRegions]
  split
  · rw [memoryAssets, List.filterMap_append, List.map_append]
    rfl
  · rfl

theorem Frame.refl (assets : List (Asset ρ)) : Frame P assets x x :=
  ⟨rfl, rfl, id, fun other _ ↦ SameOn.refl other⟩

theorem Frame.trans {left right : List (Asset ρ)} (first : Frame P left x y)
    (second : Frame P right y z) : Frame P (left ++ right) x z := by
  refine ⟨second.1.trans first.1, second.2.trans first.2, second.bound ∘ first.bound,
    fun other disjoint ↦ ?_⟩
  exact (first.others other fun asset mem ↦ disjoint asset (List.mem_append_left _ mem)).trans
    (second.others other fun asset mem ↦ disjoint asset (List.mem_append_right _ mem))

/-- Steps on the same asset. -/
theorem Frame.same {asset : Asset ρ} (first : Frame P [asset] x y) (second : Frame P [asset] y z) :
    Frame P [asset] x z :=
  ⟨second.1.trans first.1, second.2.trans first.2, second.bound ∘ first.bound,
    fun other disjoint ↦ (first.others other disjoint).trans (second.others other disjoint)⟩

/-- A part of the assets. -/
theorem Frame.mono {part assets : List (Asset ρ)} (frame : Frame P part x y)
    (subset : part ⊆ assets) :
    Frame P assets x y :=
  ⟨frame.1, frame.2, frame.3, fun other disjoint ↦
    frame.others other fun asset mem ↦ disjoint asset (subset mem)⟩

variable [DecidableEq ι] [DecidableEq ρ] [DecidableEq β]

omit [DecidableEq ι] [DecidableEq β] in
theorem frame_ppc (region : ρ) :
    Frame P [.namedMmio (some region)] x (ifxPpcIsolateNamedMmio fault cfg.ppcCfg region x).2 := by
  have frame (k : κ) : Frame P [.namedMmio (some region)] x
      { x with ppc := Function.update x.ppc region k, steps := x.steps + 1 } := by
    refine ⟨rfl, rfl, id, fun other disjoint ↦ ?_⟩
    have disjoint := disjoint _ List.mem_cons_self
    cases other with
    | memory m => exact fun _ _ ↦ rfl
    | namedMmio devRef =>
        cases devRef with
        | none => trivial
        | some region' => exact Function.update_of_ne (Ne.symm disjoint) ..
  rw [ifxPpcIsolateNamedMmio]
  split
  · exact frame _
  · exact frame _

omit [DecidableEq ι] [DecidableEq ρ] in
theorem frame_mpc (m : MemoryAsset) :
    Frame P [.memory m] x (ifxMpcIsolateNumberedMmio P fault cfg.mpcCfg m x).2 := by
  have frame (f : β → μ × Bool) : Frame P [.memory m] x
      { x with
        mpc := fun b ↦ if b ∈ P.mpcBlocks m then f b else x.mpc b, steps := x.steps + 1 } := by
    refine ⟨rfl, rfl, id, fun other disjoint ↦ ?_⟩
    have disjoint := disjoint _ List.mem_cons_self
    cases other with
    | namedMmio devRef =>
        cases devRef with
        | none => trivial
        | some region => exact rfl
    | memory m' => exact fun b mem ↦ if_neg fun mem' ↦ disjoint b mem' mem
  rw [ifxMpcIsolateNumberedMmio]
  split
  · exact frame _
  · exact frame _

omit [DecidableEq ι] [DecidableEq ρ] [DecidableEq β] in
/-- The MPU is not the PPC or the MPC. -/
theorem sameOn_mpu (m : MemoryAsset) (asset : Asset ρ) :
    SameOn P x (ifxMpuIsolateNumberedMmio P fault pInfo m x).2 asset := by
  have same : (ifxMpuIsolateNumberedMmio P fault pInfo m x).2.ppc = x.ppc ∧
      (ifxMpuIsolateNumberedMmio P fault pInfo m x).2.mpc = x.mpc := by
    rw [ifxMpuIsolateNumberedMmio]
    repeat' split
    all_goals exact ⟨rfl, rfl⟩
  cases asset with
  | namedMmio devRef =>
      cases devRef with
      | none => trivial
      | some region => exact congrFun same.1 region
  | memory m' => exact fun b _ ↦ congrFun same.2 b

omit [DecidableEq ι] [DecidableEq ρ] [DecidableEq β] in
theorem frame_mpu (m : MemoryAsset) (assets : List (Asset ρ)) :
    Frame P assets x (ifxMpuIsolateNumberedMmio P fault pInfo m x).2 := by
  refine ⟨?_, ?_, ?_, fun other _ ↦ sameOn_mpu m other⟩
  · rw [ifxMpuIsolateNumberedMmio]
    repeat' split
    all_goals rfl
  · rw [ifxMpuIsolateNumberedMmio]
    repeat' split
    all_goals rfl
  · rw [ifxMpuIsolateNumberedMmio]
    split
    · exact id
    split
    · exact id
    split
    · exact id
    next room =>
    split
    · exact id
    · exact fun _ ↦ Nat.not_le.1 room

/-- The step of a memory asset at the MPC. -/
def mpcStep (P : Platform ι ρ β κ μ) (fault : Fault ρ β κ μ) (cfg : RegionCfg κ μ) (m : MemoryAsset)
    (x : World ι ρ β κ μ) : HalStatus × World ι ρ β κ μ :=
  if P.mpcPresent && (x.assetProtectionType ≠ .partitionDynamic || cfg.mpcDynamic) then
    ifxMpcIsolateNumberedMmio P fault cfg.mpcCfg m x
  else (.success, x)

omit [DecidableEq ι] [DecidableEq ρ] in
theorem frame_mpcStep (m : MemoryAsset) : Frame P [.memory m] x (mpcStep P fault cfg m x).2 := by
  rw [mpcStep]
  split
  · exact frame_mpc m
  · exact Frame.refl _

omit [DecidableEq ι] in
/-- The steps of a memory asset. -/
theorem applyAsset_memory (m : MemoryAsset) :
    applyAsset P fault pInfo cfg (.memory m) x =
      if m.readOnly = m.readWrite then (.invalidInput, x)
      else if (mpcStep P fault cfg m x).1 ≠ .success then mpcStep P fault cfg m x
      else if cfg.mpuRegionsEnable then
        ifxMpuIsolateNumberedMmio P fault pInfo m (mpcStep P fault cfg m x).2
      else (.success, (mpcStep P fault cfg m x).2) := rfl

omit [DecidableEq ι] in
theorem frame_applyAsset (asset : Asset ρ) :
    Frame P [asset] x (applyAsset P fault pInfo cfg asset x).2 := by
  cases asset with
  | namedMmio devRef =>
      cases devRef with
      | none => exact Frame.refl _
      | some region =>
          rw [applyAsset]
          split
          · exact frame_ppc region
          · exact Frame.refl _
  | memory m =>
      rw [applyAsset_memory]
      split
      · exact Frame.refl _
      split
      · exact frame_mpcStep m
      split
      · exact (frame_mpcStep m).same (frame_mpu m _)
      · exact frame_mpcStep m

omit [DecidableEq ι] in
theorem frame_applyAssets (assets : List (Asset ρ)) :
    Frame P assets x (ifxApplyAssets P fault pInfo cfg assets x).2 := by
  induction assets generalizing x with
  | nil => exact Frame.refl _
  | cons asset rest ih =>
      have first : Frame P [asset] x (applyAsset P fault pInfo cfg asset x).2 :=
        frame_applyAsset asset
      rw [ifxApplyAssets]
      cases applied : applyAsset P fault pInfo cfg asset x with
      | mk result middle =>
          rw [applied] at first
          cases result with
          | success => exact first.trans ih
          | _ => exact first.mono (List.cons_subset_cons _ (List.nil_subset _))

omit [DecidableEq ι] in
/-- Only the assets of the partition are configured. -/
theorem frame_protect :
    Frame P pInfo.assets x (ifxProtectPartitionAssets P fault pInfo cfg x).2 := by
  have first : Frame P pInfo.ldAssets x (ifxApplyAssets P fault pInfo cfg pInfo.ldAssets x).2 :=
    frame_applyAssets _
  rw [ifxProtectPartitionAssets]
  cases applied : ifxApplyAssets P fault pInfo cfg pInfo.ldAssets x with
  | mk result middle =>
      rw [applied] at first
      cases result with
      | success => exact first.trans (frame_applyAssets _)
      | _ => exact first.mono (List.subset_append_left ..)

/-- What applying a configuration does. -/
structure Applies (P : Platform ι ρ β κ μ) (pInfo : Info ρ κ μ) (cfg : RegionCfg κ μ)
    (assets : List (Asset ρ)) (x y : World ι ρ β κ μ) : Prop extends Frame P assets x y where
  /-- The regions of the MPU. -/
  mpu : MpuAdds (mpuRegions pInfo cfg x.assetProtectionType assets) x y
  /-- The assets have the configuration. -/
  configured : assets.Pairwise (Asset.Disjoint P) → ∀ asset ∈ assets, Configured P cfg y asset

omit [DecidableEq ι] [DecidableEq ρ] [DecidableEq β] in
/-- Assets are configured one after the other. -/
theorem Applies.trans {left right : List (Asset ρ)} (first : Applies P pInfo cfg left x y)
    (second : Applies P pInfo cfg right y z) : Applies P pInfo cfg (left ++ right) x z := by
  refine ⟨first.toFrame.trans second.toFrame, ?_, fun disjoint asset mem ↦ ?_⟩
  · rw [mpuRegions_append]
    have mpu := second.mpu
    rw [first.assetProtectionType] at mpu
    exact first.mpu.trans mpu
  · obtain ⟨left_disjoint, right_disjoint, across⟩ := List.pairwise_append.1 disjoint
    rcases List.mem_append.1 mem with mem | mem
    · exact (first.configured left_disjoint asset mem).of_sameOn
        (second.others asset fun other mem' ↦ (across asset mem other mem').symm)
    · exact second.configured right_disjoint asset mem

omit [DecidableEq ι] [DecidableEq ρ] [DecidableEq β] in
theorem Applies.nil : Applies P pInfo cfg [] x x := by
  refine ⟨Frame.refl [], ?_, fun _ asset mem ↦ absurd mem List.not_mem_nil⟩
  rw [mpuRegions]
  split
  · exact MpuAdds.refl
  · exact MpuAdds.refl

omit [DecidableEq ι] in
/-- A named peripheral is configured. -/
theorem applies_namedMmio {devRef : Option ρ}
    (succeeds : applyAsset P fault pInfo cfg (.namedMmio devRef) x = (.success, y)) :
    Applies P pInfo cfg [.namedMmio devRef] x y := by
  have frame : Frame P [.namedMmio devRef] x
      (applyAsset P fault pInfo cfg (.namedMmio devRef) x).2 :=
    frame_applyAsset _
  rw [succeeds] at frame
  have no_regions : mpuRegions pInfo cfg x.assetProtectionType [.namedMmio devRef] = [] := by
    rw [mpuRegions]
    split <;> rfl
  cases devRef with
  | none =>
      cases succeeds
      refine ⟨frame, no_regions ▸ MpuAdds.refl, fun _ asset mem ↦ ?_⟩
      rw [List.mem_singleton.1 mem]
      trivial
  | some region =>
      rw [applyAsset] at succeeds
      split at succeeds
      · rw [ifxPpcIsolateNamedMmio] at succeeds
        split at succeeds
        · cases succeeds
        cases succeeds
        refine ⟨frame, ?_, fun _ asset mem ↦ ?_⟩
        · rw [no_regions]
          exact ⟨rfl, fun i lt ↦ absurd lt (Nat.not_lt_zero i), fun _ _ ↦ rfl⟩
        · rw [List.mem_singleton.1 mem]
          exact fun _ _ ↦ Function.update_self ..
      · next closed =>
          cases succeeds
          refine ⟨frame, no_regions ▸ MpuAdds.refl, fun _ asset mem ↦ ?_⟩
          rw [List.mem_singleton.1 mem]
          intro present dynamic
          rw [present, dynamic, Bool.or_true, Bool.and_true] at closed
          exact absurd rfl closed

omit [DecidableEq ι] [DecidableEq ρ] in
/-- The blocks of a memory asset are configured. -/
theorem mpcStep_spec {m : MemoryAsset} (succeeds : mpcStep P fault cfg m x = (.success, y)) :
    MpuAdds [] x y ∧ Configured P cfg y (.memory m) := by
  rw [mpcStep] at succeeds
  split at succeeds
  · rw [ifxMpcIsolateNumberedMmio] at succeeds
    split at succeeds
    · cases succeeds
    cases succeeds
    exact ⟨⟨rfl, fun i lt ↦ absurd lt (Nat.not_lt_zero i), fun _ _ ↦ rfl⟩,
      fun _ _ b mem ↦ if_pos mem⟩
  · next closed =>
      cases succeeds
      refine ⟨MpuAdds.refl, fun present dynamic ↦ ?_⟩
      rw [present, dynamic, Bool.or_true, Bool.and_true] at closed
      exact absurd rfl closed

omit [DecidableEq ι] [DecidableEq ρ] [DecidableEq β] in
/-- A region of the MPU is enabled for a memory asset of an unprivileged partition. -/
theorem mpu_spec {m : MemoryAsset} (enabled : cfg.mpuRegionsEnable = true)
    (succeeds : ifxMpuIsolateNumberedMmio P fault pInfo m x = (.success, y)) :
    MpuAdds (mpuRegions pInfo cfg x.assetProtectionType [.memory m]) x y := by
  rw [ifxMpuIsolateNumberedMmio] at succeeds
  split at succeeds
  · next static =>
      cases succeeds
      rw [mpuRegions, if_neg fun on ↦ static on.2.1]
      exact MpuAdds.refl
  next dynamic =>
  split at succeeds
  · next privileged =>
      cases succeeds
      rw [mpuRegions, if_neg fun on ↦ Bool.false_ne_true (on.2.2.symm.trans privileged)]
      exact MpuAdds.refl
  next unprivileged =>
  split at succeeds
  · cases succeeds
  split at succeeds
  · cases succeeds
  cases succeeds
  rw [mpuRegions, if_pos ⟨enabled, not_not.1 dynamic, Bool.eq_false_iff.2 unprivileged⟩]
  refine ⟨rfl, fun i lt ↦ ?_, fun idx outside ↦ ?_⟩
  · obtain rfl : i = 0 := Nat.lt_one_iff.1 lt
    exact Function.update_self ..
  · have ne : idx ≠ x.mpuUsedRegionsCount := by
      have one : ((memoryAssets [Asset.memory m (ρ := ρ)]).map MemoryAsset.region).length = 1 := rfl
      omega
    exact Function.update_of_ne ne ..

omit [DecidableEq ι] in
/-- An asset is configured. -/
theorem applies_of_applyAsset {asset : Asset ρ}
    (succeeds : applyAsset P fault pInfo cfg asset x = (.success, y)) :
    Applies P pInfo cfg [asset] x y := by
  have frame : Frame P [asset] x (applyAsset P fault pInfo cfg asset x).2 := frame_applyAsset asset
  rw [succeeds] at frame
  cases asset with
  | namedMmio devRef => exact applies_namedMmio succeeds
  | memory m =>
      rw [applyAsset_memory] at succeeds
      split at succeeds
      · cases succeeds
      split at succeeds
      · next failed =>
          rw [succeeds] at failed
          exact absurd rfl failed
      next done =>
      obtain ⟨mpu, configured⟩ := mpcStep_spec
        (show mpcStep P fault cfg m x = (.success, (mpcStep P fault cfg m x).2) from
          Prod.ext (not_not.1 done) rfl)
      cases on : cfg.mpuRegionsEnable with
      | false =>
          rw [on, if_neg (by decide)] at succeeds
          cases succeeds
          refine ⟨frame, ?_, fun _ asset mem ↦ ?_⟩
          · rw [mpuRegions, if_neg fun enabled ↦ Bool.false_ne_true (on.symm.trans enabled.1)]
            exact mpu
          · rw [List.mem_singleton.1 mem]
            exact configured
      | true =>
          rw [on, if_pos rfl] at succeeds
          have added := mpu_spec on succeeds
          have same : SameOn P (mpcStep P fault cfg m x).2
              (ifxMpuIsolateNumberedMmio P fault pInfo m (mpcStep P fault cfg m x).2).2
                (.memory m) :=
            sameOn_mpu m _
          rw [succeeds] at same
          rw [(frame_mpcStep m).assetProtectionType] at added
          refine ⟨frame, mpu.trans added, fun _ asset mem ↦ ?_⟩
          rw [List.mem_singleton.1 mem]
          exact configured.of_sameOn same

omit [DecidableEq ι] in
/-- A list of assets is configured. -/
theorem applies_of_applyAssets {assets : List (Asset ρ)}
    (succeeds : ifxApplyAssets P fault pInfo cfg assets x = (.success, y)) :
    Applies P pInfo cfg assets x y := by
  induction assets generalizing x with
  | nil =>
      cases succeeds
      exact Applies.nil
  | cons asset rest ih =>
      rw [ifxApplyAssets] at succeeds
      split at succeeds
      · next middle first => exact (applies_of_applyAsset first).trans (ih succeeds)
      · next failed => exact absurd succeeds (failed y)

omit [DecidableEq ι] in
/-- The assets of a partition are configured. -/
theorem applies_of_protect
    (succeeds : ifxProtectPartitionAssets P fault pInfo cfg x = (.success, y)) :
    Applies P pInfo cfg pInfo.assets x y := by
  rw [ifxProtectPartitionAssets] at succeeds
  split at succeeds
  · next middle first =>
      exact (applies_of_applyAssets first).trans (applies_of_applyAssets succeeds)
  · next failed => exact absurd succeeds (failed y)

end TrustedFirmwareM.Isolation.Boundary
