import TrustedFirmwareM.Spm.Client
import Mathlib.Data.List.FinRange
import Mathlib.Data.Finset.Card

/-!
# Stateless handles

The manifest tool places every stateless service in a table of 32 entries and packs its index and
its version into a handle.  The loader fills the service table of the secure partition manager with
the same indexes, and `psa_call` takes handles apart again.
-/

namespace TrustedFirmwareM.Spm.Tool

variable {Sid Pt : Type}

/-! ## Manifests -/

/-- The attribute `psa_framework_version`. -/
inductive FrameworkVersion
  /-- 1.0 -/
  | v10
  /-- 1.1 -/
  | v11
  /-- Any other value. -/
  | other
  deriving DecidableEq

/-- The attribute `stateless_handle`. -/
inductive HandleSetting
  /-- The attribute is missing. -/
  | unset
  /-- `"auto"` -/
  | auto
  /-- A number. -/
  | number (handle : ℤ)
  /-- Any other value. -/
  | other
  deriving DecidableEq

/-- A service in a manifest file. -/
structure ServiceItem (Sid : Type) where
  /-- `sid` -/
  sid : Sid
  /-- `connection_based` -/
  connectionBased : Option Bool
  /-- `version` -/
  version : Option ℤ
  /-- `version_policy` -/
  versionPolicy : Option VersionPolicy
  /-- `non_secure_clients` -/
  nonSecureClients : Bool
  /-- `mm_iovec` -/
  mmIovec : Bool
  /-- `stateless_handle` -/
  statelessHandle : HandleSetting

/-- A manifest file, as far as its services are concerned. -/
structure Manifest (Sid : Type) where
  /-- `psa_framework_version` -/
  psaFrameworkVersion : FrameworkVersion
  /-- `services` -/
  services : List (ServiceItem Sid)

/-- A service after validation, with its defaults. -/
structure Service (Sid : Type) where
  /-- `sid` -/
  sid : Sid
  /-- `connection_based` -/
  connectionBased : Bool
  /-- `version` -/
  version : ℤ
  /-- `version_policy` -/
  versionPolicy : VersionPolicy
  /-- `non_secure_clients` -/
  nonSecureClients : Bool
  /-- `mm_iovec` -/
  mmIovec : Bool
  /-- `stateless_handle` -/
  statelessHandle : HandleSetting
  deriving DecidableEq

/-- Exceptions of the tool. -/
inductive ManifestError (Sid : Type)
  /-- "Invalid psa_framework_version of …" -/
  | invalidFrameworkVersion
  /-- "'connection_based' is mandatory in FF-M 1.1 service!" -/
  | connectionBasedMissing
  /-- "Service ID: … has duplications!" -/
  | duplicatedServiceId (sid : Sid)
  /-- "Stateless service numbers range exceed 32." -/
  | tooManyServices
  /-- "Invalid stateless_handle setting: …." -/
  | invalidHandle (setting : HandleSetting)
  /-- "Duplicated stateless_handle setting: …." -/
  | duplicatedHandle (handle : ℤ)

/-- What the tool returns. -/
abbrev ToolM (Sid α : Type) : Type := Except (ManifestError Sid) α

/-- The attribute `connection_based` of a service in `manifest_validation`. -/
def connectionBased (frameworkVersion : FrameworkVersion) (item : ServiceItem Sid) :
    ToolM Sid Bool :=
  if frameworkVersion = .v10 then .ok true
  else
    match item.connectionBased with
    | some connectionBased => .ok connectionBased
    | none => .error .connectionBasedMissing

/-- The services of a manifest in `manifest_validation`, for the identifiers used so far. -/
def validateServices [DecidableEq Sid] (frameworkVersion : FrameworkVersion) :
    List (ServiceItem Sid) → List Sid → ToolM Sid (List (Service Sid) × List Sid)
  | [], sidList => .ok ([], sidList)
  | item :: items, sidList => do
      let connectionBased ← connectionBased frameworkVersion item
      if item.sid ∈ sidList then .error (.duplicatedServiceId item.sid)
      else do
        let (services, sidList) ← validateServices frameworkVersion items (sidList ++ [item.sid])
        let service : Service Sid := ⟨item.sid, connectionBased, item.version.getD 1,
          item.versionPolicy.getD .strict, item.nonSecureClients, item.mmIovec,
          item.statelessHandle⟩
        pure (service :: services, sidList)

/-- `manifest_validation` -/
def manifestValidation [DecidableEq Sid] (manifest : Manifest Sid) (sidList : List Sid) :
    ToolM Sid (List (Service Sid) × List Sid) :=
  if manifest.psaFrameworkVersion = .other then .error .invalidFrameworkVersion
  else validateServices manifest.psaFrameworkVersion manifest.services sidList

/-- The services of all manifests after validation. -/
def validateManifests [DecidableEq Sid] : List (Manifest Sid) → List Sid →
    ToolM Sid (List (Service Sid))
  | [], _ => .ok []
  | manifest :: manifests, sidList => do
      let (services, sidList) ← manifestValidation manifest sidList
      let rest ← validateManifests manifests sidList
      pure (services ++ rest)

/-! ## Stateless services -/

/-- A service table. -/
abbrev ServiceTable (α : Type) : Type := Fin 32 → Option α

/-- Put the services with a number in their places, and collect the others. -/
def placeServices : List (Service Sid) → ServiceTable (Service Sid) → List (Service Sid) →
    ToolM Sid (ServiceTable (Service Sid) × List (Service Sid))
  | [], table, autoAlloc => .ok (table, autoAlloc)
  | service :: services, table, autoAlloc =>
      match service.statelessHandle with
      | .unset | .auto => placeServices services table (autoAlloc ++ [service])
      | .number handle =>
          if range : 1 ≤ handle ∧ handle ≤ 32 then
            let index : Fin 32 := ⟨(handle - 1).toNat, by omega⟩
            if table index ≠ none then .error (.duplicatedHandle handle)
            else placeServices services (Function.update table index (some service)) autoAlloc
          else .error (.invalidHandle service.statelessHandle)
      | .other => .error (.invalidHandle service.statelessHandle)

/-- Fill the free places in the order of the indexes. -/
def autoAllocate : List (Fin 32) → ServiceTable (Service Sid) → List (Service Sid) →
    ServiceTable (Service Sid)
  | index :: indexes, table, service :: autoAlloc =>
      if table index = none then
        autoAllocate indexes (Function.update table index (some service)) autoAlloc
      else autoAllocate indexes table (service :: autoAlloc)
  | _, table, _ => table

/-- `process_stateless_services`, for all services.  Services of manifests for version 1.0 are
connection-based. -/
def processStatelessServices (services : List (Service Sid)) :
    ToolM Sid (ServiceTable (Service Sid)) := do
  let collected := services.filter fun service ↦ !service.connectionBased
  if collected = [] then pure fun _ ↦ none
  else if 32 < collected.length then .error .tooManyServices
  else do
    let (reordered, autoAlloc) ← placeServices collected (fun _ ↦ none) []
    pure (autoAllocate (List.finRange 32) reordered autoAlloc)

/-- `process_partition_manifests`, as far as services are concerned: the services and the table of
stateless services. -/
def processPartitionManifests [DecidableEq Sid] (manifests : List (Manifest Sid)) :
    ToolM Sid (List (Service Sid) × ServiceTable (Service Sid)) := do
  let services ← validateManifests manifests []
  let table ← processStatelessServices services
  pure (services, table)

/-- `stateless_handle_index` -/
def statelessHandleIndex [DecidableEq Sid] (table : ServiceTable (Service Sid))
    (service : Service Sid) :
    Option (Fin 32) :=
  (List.finRange 32).find? fun index ↦ table index = some service

/-- `stateless_handle_value` -/
def statelessHandleValue (index : Fin 32) (version : ℤ) : ℕ :=
  (index.val &&& 0x1F ||| 1 <<< 30) ||| (version % 256).toNat <<< 8

/-- The handle of a service in `sid.h`. -/
def generatedHandle [DecidableEq Sid] (table : ServiceTable (Service Sid))
    (service : Service Sid) : Option Word :=
  (statelessHandleIndex table service).map fun index ↦
    BitVec.ofNat 32 (statelessHandleValue index service.version)

/-! ## Load information -/

/-- `flags` in the load information of a service, as the template generates them. -/
def loadFlags [DecidableEq Sid] (table : ServiceTable (Service Sid))
    (service : Service Sid) : Word :=
  let index : Word := ((statelessHandleIndex table service).map fun index ↦
    BitVec.ofNat 32 index.val).getD 0
  (if service.nonSecureClients then 0x100 else 0) |||
    (if service.connectionBased then 0 else 0x200 ||| index) |||
    (if service.mmIovec then 0x800 else 0) |||
    (if service.versionPolicy = .strict then 0x400 else 0)

/-- The load information of a service, with what does not come from its manifest entry. -/
def loadInfo (sid signal : Word) (partition : Pt) (service : Service Sid) : ServiceLoadInfo Pt where
  sid := sid
  signal := signal
  version := BitVec.ofInt 32 service.version
  policy := service.versionPolicy
  nsAccessible := service.nonSecureClients
  stateless := !service.connectionBased
  mmIovec := service.mmIovec
  partition := partition

/-- `load_services_assuredly`, for the services of all partitions in the order in which they are
loaded; there is no table after a panic. -/
def loadServicesAssuredly (flags : Service Sid → Word) : List (Service Sid) →
    ServiceTable (Service Sid) → Option (ServiceTable (Service Sid))
  | [], table => some table
  | service :: services, table =>
      if flags service &&& 0x200 ≠ 0 then
        let hidx := flags service &&& 0xFF
        if range : hidx.toNat < 32 then
          if table ⟨hidx.toNat, range⟩ ≠ none then none
          else loadServicesAssuredly flags services
            (Function.update table ⟨hidx.toNat, range⟩ (some service))
        else none
      else loadServicesAssuredly flags services table

/-! ## Services are distinct -/

theorem validateServices_sids [DecidableEq Sid] {frameworkVersion : FrameworkVersion}
    {items : List (ServiceItem Sid)}
    {sidList sidList' : List Sid} {services : List (Service Sid)}
    (accepted : validateServices frameworkVersion items sidList = .ok (services, sidList')) :
    sidList' = sidList ++ services.map Service.sid ∧
      (sidList.Nodup → sidList'.Nodup) := by
  induction items generalizing sidList sidList' services with
  | nil =>
      cases accepted
      exact ⟨by simp, id⟩
  | cons item items ih =>
      rw [validateServices] at accepted
      cases connection : connectionBased frameworkVersion item with
      | error err =>
          rw [connection] at accepted
          cases accepted
      | ok connectionBased =>
          rw [connection] at accepted
          dsimp only [bind, Except.bind] at accepted
          split at accepted
          · cases accepted
          · next new =>
              cases rest : validateServices frameworkVersion items (sidList ++ [item.sid]) with
              | error err =>
                  rw [rest] at accepted
                  cases accepted
              | ok result =>
                  obtain ⟨services', sids⟩ := result
                  rw [rest] at accepted
                  cases accepted
                  obtain ⟨rfl, nodup⟩ := ih rest
                  refine ⟨by simp, fun distinct ↦ nodup ?_⟩
                  rw [List.nodup_append]
                  refine ⟨distinct, List.nodup_singleton _, fun a old b here eq ↦ ?_⟩
                  rw [List.mem_singleton] at here
                  exact new (here ▸ eq ▸ old)

theorem validateManifests_sids [DecidableEq Sid] {manifests : List (Manifest Sid)}
    {sidList : List Sid}
    {services : List (Service Sid)} (accepted : validateManifests manifests sidList = .ok services)
    (distinct : sidList.Nodup) : (sidList ++ services.map Service.sid).Nodup := by
  induction manifests generalizing sidList services with
  | nil =>
      cases accepted
      simpa using distinct
  | cons manifest manifests ih =>
      rw [validateManifests] at accepted
      cases validated : manifestValidation manifest sidList with
      | error err =>
          rw [validated] at accepted
          cases accepted
      | ok result =>
          obtain ⟨services', sids⟩ := result
          rw [validated] at accepted
          dsimp only [bind, Except.bind] at accepted
          cases rest : validateManifests manifests sids with
          | error err =>
              rw [rest] at accepted
              cases accepted
          | ok services'' =>
              rw [rest] at accepted
              cases accepted
              rw [manifestValidation] at validated
              split at validated
              · cases validated
              · obtain ⟨rfl, nodup⟩ := validateServices_sids validated
                simpa using ih rest (nodup distinct)

/-- Accepted services are distinct. -/
theorem nodup_of_validateManifests [DecidableEq Sid] {manifests : List (Manifest Sid)}
    {services : List (Service Sid)}
    (accepted : validateManifests manifests [] = .ok services) : services.Nodup :=
  List.Nodup.of_map _ (validateManifests_sids accepted List.nodup_nil)

/-! ## Placing services -/

/-- The number of free places among some indexes. -/
def vacant (table : ServiceTable (Service Sid)) (indexes : List (Fin 32)) : ℕ :=
  indexes.countP fun index ↦ table index = none

theorem vacant_update {table : ServiceTable (Service Sid)} {index : Fin 32} (service : Service Sid)
    {indexes : List (Fin 32)} (other : index ∉ indexes) :
    vacant (Function.update table index (some service)) indexes = vacant table indexes := by
  refine List.countP_congr fun i here ↦ ?_
  have ne : i ≠ index := by
    rintro rfl
    exact other here
  rw [Function.update_of_ne ne]

theorem vacant_update_finRange {table : ServiceTable (Service Sid)} {index : Fin 32}
    (service : Service Sid) (free : table index = none) :
    vacant (Function.update table index (some service)) (List.finRange 32) + 1 =
      vacant table (List.finRange 32) := by
  have nodup := List.nodup_finRange 32
  obtain ⟨before, after, split⟩ := List.append_of_mem (List.mem_finRange index)
  rw [split] at nodup ⊢
  rw [List.nodup_middle, List.nodup_cons, List.mem_append, not_or] at nodup
  have here : vacant (Function.update table index (some service)) (index :: after) =
      vacant table after := by
    rw [vacant, List.countP_cons_of_neg (by simp), ← vacant, vacant_update service nodup.1.2]
  have there : vacant table (index :: after) = vacant table after + 1 := by
    rw [vacant, List.countP_cons_of_pos (by simpa using free), vacant]
  have first : vacant (Function.update table index (some service)) before = vacant table before :=
    vacant_update service nodup.1.1
  simp only [vacant, List.countP_append] at here there first ⊢
  omega

/-- Services with the given numbers have been placed, and the others are still to be placed. -/
structure Placing (done : List (Service Sid)) (table : ServiceTable (Service Sid))
    (autoAlloc : List (Service Sid)) : Prop where
  /-- The table holds the services with a number. -/
  placed : ∀ (index : Fin 32) service, table index = some service ↔
    service ∈ done ∧ service.statelessHandle = .number (index + 1)
  /-- The others have no number. -/
  waiting : ∀ service, service ∈ autoAlloc ↔
    service ∈ done ∧ ∀ handle, service.statelessHandle ≠ .number handle
  /-- Numbers are in range. -/
  range : ∀ service ∈ done, ∀ handle, service.statelessHandle = .number handle →
    ∃ index : Fin 32, handle = index + 1
  /-- The others are distinct. -/
  nodup : autoAlloc.Nodup
  /-- Places and services are counted. -/
  count : vacant table (List.finRange 32) + done.length = 32 + autoAlloc.length

theorem placing_nil : Placing ([] : List (Service Sid)) (fun _ ↦ none) [] := by
  refine ⟨fun index service ↦ ?_, fun service ↦ ?_, ?_, List.nodup_nil, ?_⟩
  · simp
  · simp
  · rintro _ ⟨⟩
  · simp [vacant]

/-- A service without a number waits. -/
theorem Placing.wait {done autoAlloc : List (Service Sid)} {table : ServiceTable (Service Sid)}
    {service : Service Sid} (placing : Placing done table autoAlloc) (new : service ∉ done)
    (free : ∀ handle, service.statelessHandle ≠ .number handle) :
    Placing (done ++ [service]) table (autoAlloc ++ [service]) where
  placed index other := by
    rw [placing.placed, List.mem_append, List.mem_singleton]
    constructor
    · rintro ⟨here, number⟩
      exact ⟨.inl here, number⟩
    · rintro ⟨here | rfl, number⟩
      · exact ⟨here, number⟩
      · exact absurd number (free _)
  waiting other := by
    rw [List.mem_append, List.mem_append, List.mem_singleton, placing.waiting]
    constructor
    · rintro (⟨here, number⟩ | rfl)
      · exact ⟨.inl here, number⟩
      · exact ⟨.inr rfl, free⟩
    · rintro ⟨here | rfl, number⟩
      · exact .inl ⟨here, number⟩
      · exact .inr rfl
  range other here handle number := by
    rw [List.mem_append, List.mem_singleton] at here
    rcases here with here | rfl
    · exact placing.range other here handle number
    · exact absurd number (free handle)
  nodup := by
    rw [List.nodup_append]
    refine ⟨placing.nodup, List.nodup_singleton _, fun a waiting b here eq ↦ ?_⟩
    rw [List.mem_singleton] at here
    exact new (((placing.waiting _).1 (here ▸ eq ▸ waiting)).1)
  count := by
    have := placing.count
    simp only [List.length_append, List.length_singleton]
    omega

/-- A service with a number takes its place. -/
theorem Placing.place {done autoAlloc : List (Service Sid)} {table : ServiceTable (Service Sid)}
    {service : Service Sid} {index : Fin 32} (placing : Placing done table autoAlloc)
    (number : service.statelessHandle = .number (index + 1)) (free : table index = none) :
    Placing (done ++ [service]) (Function.update table index (some service)) autoAlloc where
  placed i other := by
    rw [List.mem_append, List.mem_singleton]
    by_cases here : i = index
    · subst here
      rw [Function.update_self, Option.some_inj]
      constructor
      · rintro rfl
        exact ⟨.inr rfl, number⟩
      · rintro ⟨held | rfl, number'⟩
        · have placed := (placing.placed i other).2 ⟨held, number'⟩
          rw [free] at placed
          cases placed
        · rfl
    · rw [Function.update_of_ne here, placing.placed]
      constructor
      · rintro ⟨held, number'⟩
        exact ⟨.inl held, number'⟩
      · rintro ⟨held | rfl, number'⟩
        · exact ⟨held, number'⟩
        · rw [number] at number'
          injection number' with eq
          exact absurd (Fin.ext (by omega)) here
  waiting other := by
    rw [placing.waiting, List.mem_append, List.mem_singleton]
    constructor
    · rintro ⟨here, none⟩
      exact ⟨.inl here, none⟩
    · rintro ⟨here | rfl, none⟩
      · exact ⟨here, none⟩
      · exact absurd number (none _)
  range other here handle number' := by
    rw [List.mem_append, List.mem_singleton] at here
    rcases here with here | rfl
    · exact placing.range other here handle number'
    · rw [number] at number'
      injection number' with eq
      exact ⟨index, eq.symm⟩
  nodup := placing.nodup
  count := by
    have := placing.count
    have := vacant_update_finRange service free
    simp only [List.length_append, List.length_singleton]
    omega

/-- The places of the services with a number, and the services that wait for a place. -/
theorem Placing.placeServices {services done autoAlloc autoAlloc' : List (Service Sid)}
    {table table' : ServiceTable (Service Sid)} (placing : Placing done table autoAlloc)
    (distinct : (done ++ services).Nodup)
    (accepted : placeServices services table autoAlloc = .ok (table', autoAlloc')) :
    Placing (done ++ services) table' autoAlloc' := by
  induction services generalizing done table autoAlloc with
  | nil =>
      cases accepted
      rwa [List.append_nil]
  | cons service services ih =>
      have new : service ∉ done := by
        rw [List.nodup_append] at distinct
        intro held
        exact distinct.2.2 service held service List.mem_cons_self rfl
      rw [List.append_cons] at distinct ⊢
      rw [Tool.placeServices] at accepted
      cases setting : service.statelessHandle with
      | unset =>
          rw [setting] at accepted
          exact ih (placing.wait new fun handle eq ↦ by cases setting.symm.trans eq) distinct
            accepted
      | auto =>
          rw [setting] at accepted
          exact ih (placing.wait new fun handle eq ↦ by cases setting.symm.trans eq) distinct
            accepted
      | number handle =>
          rw [setting] at accepted
          dsimp only at accepted
          split at accepted
          · next range =>
              split at accepted
              · cases accepted
              · next free =>
                  refine ih (placing.place ?_ (not_not.1 free)) distinct accepted
                  rw [setting]
                  refine congrArg HandleSetting.number ?_
                  change handle = ((handle - 1).toNat : ℤ) + 1
                  omega
          · cases accepted
      | other =>
          rw [setting] at accepted
          cases accepted

/-! ## Filling the free places -/

/-- Services that have their places keep them. -/
theorem autoAllocate_of_some {indexes : List (Fin 32)} {table : ServiceTable (Service Sid)}
    {autoAlloc : List (Service Sid)} {index : Fin 32} {service : Service Sid}
    (placed : table index = some service) :
    autoAllocate indexes table autoAlloc index = some service := by
  induction indexes generalizing table autoAlloc with
  | nil => exact placed
  | cons first indexes ih =>
      cases autoAlloc with
      | nil => exact placed
      | cons next autoAlloc =>
          rw [autoAllocate]
          split
          · next free =>
              have ne : index ≠ first := by
                rintro rfl
                rw [free] at placed
                cases placed
              exact ih (by rwa [Function.update_of_ne ne])
          · exact ih placed

/-- Only services that wait are added, each once and in a free place. -/
theorem autoAllocate_eq_some {indexes : List (Fin 32)} {table : ServiceTable (Service Sid)}
    {autoAlloc : List (Service Sid)} {index : Fin 32} {service : Service Sid}
    (distinct : indexes.Nodup) (nodup : autoAlloc.Nodup)
    (added : autoAllocate indexes table autoAlloc index = some service) :
    table index = some service ∨ table index = none ∧ index ∈ indexes ∧ service ∈ autoAlloc := by
  induction indexes generalizing table autoAlloc with
  | nil => exact .inl added
  | cons first indexes ih =>
      rw [List.nodup_cons] at distinct
      cases autoAlloc with
      | nil => exact .inl added
      | cons next autoAlloc =>
          rw [autoAllocate] at added
          split at added
          · next free =>
              by_cases here : index = first
              · subst here
                rw [autoAllocate_of_some (Function.update_self ..)] at added
                cases added
                exact .inr ⟨free, List.mem_cons_self, List.mem_cons_self⟩
              · rcases ih distinct.2 (List.nodup_cons.1 nodup).2 added with
                  old | ⟨free, there, waits⟩
                · rw [Function.update_of_ne here] at old
                  exact .inl old
                · rw [Function.update_of_ne here] at free
                  exact .inr ⟨free, List.mem_cons_of_mem _ there, List.mem_cons_of_mem _ waits⟩
          · rcases ih distinct.2 nodup added with old | ⟨free, there, waits⟩
            · exact .inl old
            · exact .inr ⟨free, List.mem_cons_of_mem _ there, waits⟩

/-- With enough free places every service that waits gets one. -/
theorem exists_autoAllocate {indexes : List (Fin 32)} {table : ServiceTable (Service Sid)}
    {autoAlloc : List (Service Sid)} (distinct : indexes.Nodup)
    (room : autoAlloc.length ≤ vacant table indexes) {service : Service Sid}
    (waits : service ∈ autoAlloc) :
    ∃ index, autoAllocate indexes table autoAlloc index = some service := by
  induction indexes generalizing table autoAlloc with
  | nil =>
      rw [vacant, List.countP_nil, Nat.le_zero, List.length_eq_zero_iff] at room
      rw [room] at waits
      cases waits
  | cons first indexes ih =>
      rw [List.nodup_cons] at distinct
      cases autoAlloc with
      | nil => cases waits
      | cons next autoAlloc =>
          rw [autoAllocate]
          split
          · next free =>
              rcases List.mem_cons.1 waits with rfl | waits
              · exact ⟨first, autoAllocate_of_some (Function.update_self ..)⟩
              · refine ih distinct.2 ?_ waits
                rw [vacant_update _ distinct.1]
                rw [vacant, List.countP_cons_of_pos (by simpa using free), ← vacant,
                  List.length_cons] at room
                exact Nat.le_of_succ_le_succ room
          · next used =>
              refine ih distinct.2 ?_ waits
              rwa [vacant, List.countP_cons_of_neg (by simpa using used), ← vacant] at room

/-- A service that waits gets one place only. -/
theorem autoAllocate_inj {indexes : List (Fin 32)} {table : ServiceTable (Service Sid)}
    {autoAlloc : List (Service Sid)} {service : Service Sid} {i j : Fin 32}
    (distinct : indexes.Nodup)
    (nodup : autoAlloc.Nodup) (absent : ∀ index, table index ≠ some service)
    (first : autoAllocate indexes table autoAlloc i = some service)
    (second : autoAllocate indexes table autoAlloc j = some service) : i = j := by
  induction indexes generalizing table autoAlloc with
  | nil => exact absurd first (absent i)
  | cons index indexes ih =>
      rw [List.nodup_cons] at distinct
      cases autoAlloc with
      | nil => exact absurd first (absent i)
      | cons next autoAlloc =>
          rw [List.nodup_cons] at nodup
          rw [autoAllocate] at first second
          split at first
          · next free =>
              rw [if_pos free] at second
              by_cases same : next = service
              · subst same
                -- the service has been taken out of the list, so it is added nowhere else
                have here : ∀ k, autoAllocate indexes (Function.update table index (some next))
                    autoAlloc k = some next → k = index := by
                  intro k added
                  rcases autoAllocate_eq_some distinct.2 nodup.2 added with old | ⟨-, -, waits⟩
                  · by_contra ne
                    rw [Function.update_of_ne ne] at old
                    exact absent k old
                  · exact absurd waits nodup.1
                rw [here i first, here j second]
              · refine ih distinct.2 nodup.2 (fun k ↦ ?_) first second
                by_cases here : k = index
                · rw [here, Function.update_self]
                  exact fun eq ↦ same (Option.some.inj eq)
                · rw [Function.update_of_ne here]
                  exact absent k
          · next used =>
              rw [if_neg used] at second
              exact ih distinct.2 (List.nodup_cons.2 nodup) absent first second

/-- Every stateless service has exactly one place, a service with a number the one before that
number, and nothing else is in the table. -/
structure Places (services : List (Service Sid)) (table : ServiceTable (Service Sid)) : Prop where
  /-- Each service has a place. -/
  complete : ∀ service ∈ services, service.connectionBased = false →
    ∃! index, table index = some service
  /-- A number is one more than the place. -/
  fixed : ∀ service ∈ services, service.connectionBased = false →
    ∀ handle, service.statelessHandle = .number handle →
      ∃ index : Fin 32, handle = index + 1 ∧ table index = some service
  /-- Only stateless services are in the table. -/
  sound : ∀ index service, table index = some service →
    service ∈ services ∧ service.connectionBased = false

theorem places_of_processStatelessServices {services : List (Service Sid)}
    {table : ServiceTable (Service Sid)} (distinct : services.Nodup)
    (accepted : processStatelessServices services = .ok table) : Places services table := by
  have collected : ∀ service, service ∈ services.filter (fun service ↦ !service.connectionBased) ↔
      service ∈ services ∧ service.connectionBased = false := by
    intro service
    rw [List.mem_filter, Bool.not_eq_true']
  have nodup : (services.filter fun service ↦ !service.connectionBased).Nodup := distinct.filter _
  rw [processStatelessServices] at accepted
  generalize services.filter (fun service ↦ !service.connectionBased) = stateless at *
  dsimp only at accepted
  split at accepted
  · next empty =>
      cases accepted
      subst empty
      exact ⟨fun service here based ↦ absurd ((collected service).2 ⟨here, based⟩) (by rintro ⟨⟩),
        fun service here based ↦ absurd ((collected service).2 ⟨here, based⟩) (by rintro ⟨⟩),
        by rintro _ _ ⟨⟩⟩
  · split at accepted
    · cases accepted
    · next few =>
        cases result : placeServices stateless (fun _ ↦ none) [] with
        | error err =>
            rw [result] at accepted
            cases accepted
        | ok placed =>
            obtain ⟨reordered, autoAlloc⟩ := placed
            rw [result] at accepted
            cases accepted
            have placing := placing_nil.placeServices (by simpa using nodup) result
            rw [List.nil_append] at placing
            have indexes := List.nodup_finRange 32
            have room : autoAlloc.length ≤ vacant reordered (List.finRange 32) := by
              have := placing.count
              omega
            refine ⟨fun service here based ↦ ?_, fun service here based handle number ↦ ?_,
              fun index service held ↦ ?_⟩
            · have member := (collected service).2 ⟨here, based⟩
              by_cases number : ∃ handle, service.statelessHandle = .number handle
              · obtain ⟨handle, number⟩ := number
                obtain ⟨index, rfl⟩ := placing.range service member handle number
                refine ⟨index, autoAllocate_of_some ((placing.placed ..).2 ⟨member, number⟩),
                  fun other held ↦ ?_⟩
                rcases autoAllocate_eq_some indexes placing.nodup held with old | ⟨-, -, waits⟩
                · have number' := ((placing.placed ..).1 old).2
                  rw [number] at number'
                  injection number' with eq
                  exact Fin.ext (by omega)
                · exact absurd number (((placing.waiting _).1 waits).2 _)
              · rw [not_exists] at number
                have waits := (placing.waiting service).2 ⟨member, number⟩
                obtain ⟨index, held⟩ := exists_autoAllocate indexes room waits
                refine ⟨index, held, fun other held' ↦ ?_⟩
                refine autoAllocate_inj indexes placing.nodup (fun i old ↦ ?_) held' held
                exact number _ ((placing.placed ..).1 old).2
            · have member := (collected service).2 ⟨here, based⟩
              obtain ⟨index, rfl⟩ := placing.range service member handle number
              exact ⟨index, rfl, autoAllocate_of_some ((placing.placed ..).2 ⟨member, number⟩)⟩
            · rcases autoAllocate_eq_some indexes placing.nodup held with old | ⟨-, -, waits⟩
              · exact (collected service).1 ((placing.placed ..).1 old).1
              · exact (collected service).1 ((placing.waiting _).1 waits).1

/-! ## Loading -/

section

variable [DecidableEq Sid] {services : List (Service Sid)} {table : ServiceTable (Service Sid)}

/-- The index of a stateless service is its place. -/
theorem Places.statelessHandleIndex_eq (places : Places services table) {service : Service Sid}
    (here : service ∈ services) (stateless : service.connectionBased = false) {index : Fin 32} :
    statelessHandleIndex table service = some index ↔ table index = some service := by
  obtain ⟨place, held, unique⟩ := places.complete service here stateless
  have found : statelessHandleIndex table service = some place := by
    obtain ⟨i, find⟩ : ∃ i, statelessHandleIndex table service = some i := by
      rw [← Option.isSome_iff_exists, statelessHandleIndex, List.find?_isSome]
      exact ⟨place, List.mem_finRange _, decide_eq_true held⟩
    rw [find]
    rw [statelessHandleIndex] at find
    have there := List.find?_some find
    rw [decide_eq_true_eq] at there
    rw [unique i there]
  rw [found, Option.some_inj]
  constructor
  · rintro rfl
    exact held
  · exact fun there ↦ (unique index there).symm

/-- The loader reads the index of a stateless service back from its flags. -/
theorem loadFlags_stateless {service : Service Sid} {index : Fin 32}
    (stateless : service.connectionBased = false)
    (found : statelessHandleIndex table service = some index) :
    loadFlags table service &&& 0x200 ≠ 0 ∧ (loadFlags table service &&& 0xFF).toNat = index := by
  have bits : ∀ (index : Fin 32) (nonSecure mm strict : Bool),
      let flags : Word :=
        (if nonSecure then 0x100 else 0) ||| (0x200 ||| BitVec.ofNat 32 index.val) |||
        (if mm then 0x800 else 0) ||| (if strict then 0x400 else 0)
      flags &&& 0x200 ≠ 0 ∧ (flags &&& 0xFF).toNat = index := by
    decide +kernel
  have := bits index service.nonSecureClients service.mmIovec (service.versionPolicy = .strict)
  simp only [decide_eq_true_eq] at this
  simpa only [loadFlags, stateless, found, Option.map_some, Option.getD_some, Bool.false_eq_true,
    if_false] using this

theorem loadFlags_connectionBased {service : Service Sid} (based : service.connectionBased = true) :
    loadFlags table service &&& 0x200 = 0 := by
  have bits : ∀ nonSecure mm strict : Bool,
      let flags : Word := (if nonSecure then 0x100 else 0) ||| 0 |||
        (if mm then 0x800 else 0) ||| (if strict then 0x400 else 0)
      flags &&& 0x200 = 0 := by
    decide
  have := bits service.nonSecureClients service.mmIovec (service.versionPolicy = .strict)
  simp only [decide_eq_true_eq] at this
  simpa only [loadFlags, based, if_true] using this

/-- Loading some of the services enters the stateless ones at their places. -/
theorem Places.load (places : Places services table) {order done : List (Service Sid)}
    {loaded : ServiceTable (Service Sid)} (known : ∀ service ∈ order, service ∈ services)
    (distinct : (done ++ order).Nodup)
    (entered : ∀ index service, loaded index = some service ↔
      table index = some service ∧ service ∈ done) :
    ∃ loaded', loadServicesAssuredly (loadFlags table) order loaded = some loaded' ∧
      ∀ index service, loaded' index = some service ↔
        table index = some service ∧ service ∈ done ++ order := by
  induction order generalizing done loaded with
  | nil =>
      refine ⟨loaded, rfl, ?_⟩
      simpa using entered
  | cons service order ih =>
      have new : service ∉ done := by
        rw [List.nodup_append] at distinct
        exact fun held ↦ distinct.2.2 service held service List.mem_cons_self rfl
      have known' := fun other here ↦ known other (List.mem_cons_of_mem _ here)
      rw [List.append_cons] at distinct ⊢
      rw [loadServicesAssuredly]
      cases based : service.connectionBased with
      | true =>
          rw [if_neg (not_not.2 (loadFlags_connectionBased based))]
          refine ih known' distinct fun index other ↦ ?_
          rw [entered, List.mem_append, List.mem_singleton]
          refine and_congr_right fun held ↦ ⟨.inl, ?_⟩
          rintro (here | rfl)
          · exact here
          · rw [(places.sound index other held).2] at based
            cases based
      | false =>
          have here := known service List.mem_cons_self
          obtain ⟨index, held, unique⟩ := places.complete service here based
          obtain ⟨flag, hidx⟩ := loadFlags_stateless based
            ((places.statelessHandleIndex_eq here based).2 held)
          have place : (⟨(loadFlags table service &&& 0xFF).toNat, hidx ▸ index.isLt⟩ : Fin 32) =
              index := Fin.ext hidx
          have free : loaded index = none := by
            cases old : loaded index with
            | none => rfl
            | some other =>
                obtain ⟨held', member⟩ := (entered index other).1 old
                rw [held] at held'
                cases held'
                exact absurd member new
          rw [if_pos flag]
          dsimp only
          rw [dif_pos (hidx ▸ index.isLt), place, if_neg (not_not.2 free)]
          refine ih known' distinct fun i other ↦ ?_
          rw [List.mem_append, List.mem_singleton]
          by_cases same : i = index
          · subst same
            rw [Function.update_self, held, Option.some_inj]
            exact ⟨fun eq ↦ ⟨eq, .inr eq.symm⟩, fun both ↦ both.1⟩
          · rw [Function.update_of_ne same, entered]
            refine and_congr_right fun held' ↦ ⟨.inl, ?_⟩
            rintro (member | rfl)
            · exact member
            · exact absurd (unique i held') same

/-- The loader builds the table of the tool, in whatever order it loads the services. -/
theorem Places.loadServicesAssuredly_eq (places : Places services table)
    (distinct : services.Nodup) {order : List (Service Sid)} (perm : order.Perm services) :
    loadServicesAssuredly (loadFlags table) order (fun _ ↦ none) = some table := by
  have distinct' : ([] ++ order).Nodup := perm.nodup_iff.2 distinct
  have empty : ∀ index service, (fun _ ↦ none : ServiceTable (Service Sid)) index = some service ↔
      table index = some service ∧ service ∈ ([] : List (Service Sid)) := by simp
  obtain ⟨loaded, load, entered⟩ := places.load (fun _ here ↦ perm.mem_iff.1 here) distinct' empty
  rw [load]
  refine congrArg some (funext fun index ↦ Option.ext fun service ↦ ?_)
  rw [entered, List.nil_append, and_iff_left_iff_imp]
  exact fun held ↦ perm.mem_iff.2 (places.sound index service held).1

end

/-! ## Decoding -/

theorem statelessHandleValue_eq (index : Fin 32) (version : ℤ) :
    statelessHandleValue index version = 2 ^ 30 + ((version % 256).toNat * 2 ^ 8 + index) := by
  have small : (version % 256).toNat < 256 := by omega
  have mask : index.val &&& 0x1F = index.val := by
    rw [Nat.and_two_pow_sub_one_eq_mod index.val 5]
    omega
  have order : (index.val ||| 1 <<< 30) ||| (version % 256).toNat <<< 8 =
      1 <<< 30 ||| ((version % 256).toNat <<< 8 ||| index.val) := by
    rw [Nat.or_comm index.val, Nat.or_assoc, Nat.or_comm index.val]
  rw [statelessHandleValue, mask, order,
    ← Nat.shiftLeft_add_eq_or_of_lt (by omega : index.val < 2 ^ 8),
    ← Nat.shiftLeft_add_eq_or_of_lt, Nat.shiftLeft_eq, Nat.shiftLeft_eq]
  · omega
  · rw [Nat.shiftLeft_eq]
    omega

/-- The macros of the secure partition manager take a generated handle apart. -/
theorem decode_statelessHandleValue (index : Fin 32) (version : ℤ) :
    let handle := BitVec.ofNat 32 (statelessHandleValue index version)
    isStaticHandle handle = true ∧ getIndexFromStaticHandle handle = index ∧
      (getVersionFromStaticHandle handle).toNat = (version % 256).toNat := by
  have small : (version % 256).toNat < 256 := by omega
  intro handle
  have value : handle.toNat = 2 ^ 30 + ((version % 256).toNat * 2 ^ 8 + index) := by
    rw [BitVec.toNat_ofNat, statelessHandleValue_eq]
    omega
  refine ⟨?_, Fin.ext ?_, ?_⟩
  · rw [isStaticHandle, BitVec.getLsbD, value, Nat.testBit_eq_decide_div_mod_eq]
    exact decide_eq_true (by omega)
  · change handle.toNat % 32 = index
    omega
  · rw [getVersionFromStaticHandle, BitVec.toNat_and, BitVec.toNat_ushiftRight, value,
      Nat.shiftRight_eq_div_pow]
    change _ &&& 2 ^ 8 - 1 = _
    rw [Nat.and_two_pow_sub_one_eq_mod]
    omega

/-- The version in a handle passes the check unless the policy is strict and the version too large
for the handle. -/
theorem tfmSpmCheckClientVersion_iff (info : ServiceLoadInfo Pt) (requested : Word) {version : ℤ}
    (own : info.version = BitVec.ofInt 32 version)
    (packed : requested.toNat = (version % 256).toNat) :
    tfmSpmCheckClientVersion info requested = true ↔
      (info.policy = .strict → info.version.toNat < 256) := by
  have value : info.version.toNat = (version % 2 ^ 32).toNat := by
    rw [own, BitVec.toNat_ofInt]
    rfl
  rw [tfmSpmCheckClientVersion]
  cases policy : info.policy with
  | relaxed =>
      refine ⟨(by rintro - ⟨⟩), fun _ ↦ decide_eq_true ?_⟩
      rw [BitVec.le_def]
      omega
  | strict =>
      simp only [decide_eq_true_eq, ← BitVec.toNat_inj, true_implies]
      omega

/-! ## Agreement -/

section

variable [DecidableEq Sid]

/-- The handle of a service leads `psa_call` to that service and passes its version check. -/
structure Leads (P : Platform Pt (Service Sid)) (table : ServiceTable (Service Sid))
    (service : Service Sid) (handle : Word) : Prop where
  /-- The handle has been generated for the service. -/
  generated : generatedHandle table service = some handle
  /-- The handle is a static one. -/
  static : isStaticHandle handle = true
  /-- The table has the service at its index. -/
  entry : P.statelessServicesRefTbl (getIndexFromStaticHandle handle) = some service
  /-- Its version is accepted. -/
  version : tfmSpmCheckClientVersion (P.service service) (getVersionFromStaticHandle handle) = true

/-- A handle that leads to a service gives authorised clients a new connection to it, if there is
room for one, and refuses all others. -/
theorem Leads.spmGetIdleConnection_eq {P : Platform Pt (Service Sid)}
    {table : ServiceTable (Service Sid)} {service : Service Sid} {handle : Word}
    (leads : Leads P table service handle) (s : State Pt (Service Sid)) (caller : Pt)
    (clientId : ℤ) :
    spmGetIdleConnection P s caller handle clientId =
      if tfmSpmCheckAuthorization P caller (P.service service) (P.partition caller).nsAgent then
        match tfmPoolAlloc s with
        | none => .error psaErrorConnectionBusy
        | some (c, s) => .ok (c, spmInitIdleConnection P s caller c service clientId)
      else .error psaErrorConnectionRefused := by
  have nonzero : handle ≠ 0 := by
    rintro rfl
    cases leads.static
  rw [spmGetIdleConnection, if_neg nonzero, if_pos leads.static, leads.entry]
  dsimp only
  cases allowed : tfmSpmCheckAuthorization P caller (P.service service)
      (P.partition caller).nsAgent with
  | false => rw [if_pos Bool.false_ne_true, if_neg Bool.false_ne_true]
  | true =>
      rw [if_neg (not_not.2 rfl), if_neg (not_not.2 leads.version)]
      cases tfmPoolAlloc s with
      | none => exact (if_pos rfl).symm
      | some value => exact (if_pos rfl).symm

/-- Stateless services of accepted manifests are all placed, once each, a number giving the place.
The loader builds the same table in every order of loading.  The handles lead `psa_call` to the
services that they were generated for if and only if no strict version is too large for a handle;
such a handle opens connections to its own service only. -/
theorem handles_lead_iff (manifests : List (Manifest Sid)) (services : List (Service Sid))
    (table : ServiceTable (Service Sid))
    (accepted : processPartitionManifests manifests = .ok (services, table)) :
    Places services table ∧
    (∀ order : List (Service Sid), order.Perm services →
      loadServicesAssuredly (loadFlags table) order (fun _ ↦ none) = some table) ∧
    ∀ P : Platform Pt (Service Sid), P.statelessServicesRefTbl = table →
      (∀ service ∈ services, ∃ sid signal partition,
        P.service service = loadInfo sid signal partition service) →
      ((∀ service ∈ services, service.connectionBased = false →
          ∃ handle, Leads P table service handle) ↔
        ∀ service ∈ services, service.connectionBased = false → service.versionPolicy = .strict →
          (BitVec.ofInt 32 service.version).toNat < 256) ∧
      ∀ service handle, Leads P table service handle → ∀ s caller clientId,
        spmGetIdleConnection P s caller handle clientId =
          if tfmSpmCheckAuthorization P caller (P.service service) (P.partition caller).nsAgent then
            match tfmPoolAlloc s with
            | none => .error psaErrorConnectionBusy
            | some (c, s) => .ok (c, spmInitIdleConnection P s caller c service clientId)
          else .error psaErrorConnectionRefused := by
  rw [processPartitionManifests] at accepted
  cases validated : validateManifests manifests [] with
  | error err =>
      rw [validated] at accepted
      cases accepted
  | ok services' =>
      rw [validated] at accepted
      dsimp only [bind, Except.bind] at accepted
      cases processed : processStatelessServices services' with
      | error err =>
          rw [processed] at accepted
          cases accepted
      | ok table' =>
          rw [processed] at accepted
          cases accepted
          have distinct := nodup_of_validateManifests validated
          have places := places_of_processStatelessServices distinct processed
          refine ⟨places, fun order ↦ places.loadServicesAssuredly_eq distinct,
            fun P same described ↦
              ⟨forall₂_congr fun service here ↦ forall_congr' fun stateless ↦ ?_,
              fun _ _ leads s caller clientId ↦ leads.spmGetIdleConnection_eq s caller clientId⟩⟩
          obtain ⟨sid, signal, partition, info⟩ := described service here
          obtain ⟨index, held, -⟩ := places.complete service here stateless
          have generated : generatedHandle table service =
              some (BitVec.ofNat 32 (statelessHandleValue index service.version)) := by
            rw [generatedHandle, (places.statelessHandleIndex_eq here stateless).2 held,
              Option.map_some]
          obtain ⟨static, decoded, packed⟩ := decode_statelessHandleValue index service.version
          have version := tfmSpmCheckClientVersion_iff (P.service service) _
            (by rw [info]; rfl) packed
          constructor
          · rintro ⟨handle, leads⟩ strict
            have handle_eq := leads.generated
            rw [generated] at handle_eq
            cases handle_eq
            have small := version.1 leads.version (by rw [info]; exact strict)
            rw [info] at small
            exact small
          · intro small
            refine ⟨_, generated, static, ?_, version.2 fun strict ↦ ?_⟩
            · rw [decoded, same, held]
            · rw [info] at strict ⊢
              exact small strict

end

/-! ## Small sets of manifests -/

/-- A stateless service. -/
def sampleItem (sid : ℕ) (version : Option ℤ) (setting : HandleSetting) : ServiceItem ℕ where
  sid := sid
  connectionBased := some false
  version := version
  versionPolicy := none
  nonSecureClients := true
  mmIovec := false
  statelessHandle := setting

/-- Two services without a number around one with a number. -/
def sampleManifests : List (Manifest ℕ) :=
  [⟨.v11, [sampleItem 7 none .auto, sampleItem 8 (some 2) (.number 1)]⟩,
    ⟨.v11, [sampleItem 9 (some 255) .unset]⟩]

/-- A platform with one partition that depends on the services of a table and provides them. -/
def tablePlatform (table : ServiceTable (Service ℕ))
    (stateless : ∀ index service, table index = some service → service.connectionBased = false) :
    Platform Unit (Service ℕ) where
  partition := fun _ ↦ {
    pid := 1
    nsAgentTz := false
    nsAgentMailbox := false
    deps := [7, 8, 9]
    clientIdBase := 0
    clientIdLimit := 0 }
  service := fun service ↦ loadInfo (BitVec.ofNat 32 service.sid) 0x10 () service
  partitionList := [()]
  serviceList := (List.finRange 32).filterMap table
  statelessServicesRefTbl := table
  clientIdRegions := (0, 0)
  memoryCheck := fun _ _ _ _ ↦ true
  irqSignals := fun _ ↦ 0
  poolBase := 0x2000
  chunksz := 120
  connHandleMaxNum := 4
  scrub := id
  trailer := 0
  pid_nonneg := by decide
  pid_injective := by decide
  ranges_disjoint := by decide
  regions_registered := by decide
  signal_reserved := fun _ ↦ (by decide : (0x10 : Word) &&& (asyncMsgReply ||| psaDoorbell) = 0)
  irq_reserved := by decide
  table_stateless := fun index service entry ↦ by
    rw [loadInfo, stateless index service entry]
    rfl
  mailbox_no_service := fun _ ↦ Bool.false_ne_true
  chunksz_pos := Nat.succ_pos _
  pool_fits := by decide
  handle_fits := by decide

/-- The services of `sampleManifests` are placed, the loader builds their table, and their handles
lead to them. -/
theorem handles_lead_sampleManifests :
    ∃ services table, processPartitionManifests sampleManifests = .ok (services, table) ∧
      Places services table ∧
      loadServicesAssuredly (loadFlags table) services (fun _ ↦ none) = some table ∧
      ∃ P : Platform Unit (Service ℕ), P.statelessServicesRefTbl = table ∧
        ∀ service ∈ services, ∃ handle, Leads P table service handle := by
  refine ⟨_, _, rfl, ?_⟩
  obtain ⟨places, load, leads⟩ := @handles_lead_iff ℕ Unit _ sampleManifests _ _ rfl
  refine ⟨places, load _ (.refl _), tablePlatform _ fun index service entry ↦
    (places.sound index service entry).2, rfl, ?_⟩
  obtain ⟨lead_iff, -⟩ := leads (tablePlatform _ fun index service entry ↦
    (places.sound index service entry).2) rfl fun _ _ ↦ ⟨_, _, _, rfl⟩
  intro service here
  refine lead_iff.2 ?_ service here ?_
  · decide +kernel
  · revert service
    decide +kernel

/-- A service with version 256 under the strict policy, which is the default.  Its handle asks for
version 0. -/
theorem not_handles_lead :
    ¬∀ (manifests : List (Manifest ℕ)) services table,
      processPartitionManifests manifests = .ok (services, table) →
        ∀ service ∈ services, service.connectionBased = false →
          ∃ handle, generatedHandle table service = some handle ∧
            tfmSpmCheckClientVersion (loadInfo 7 16 () service)
              (getVersionFromStaticHandle handle) = true := by
  intro agree
  have refused : (processPartitionManifests [⟨.v11, [sampleItem 7 (some 256) .auto]⟩]).toOption.any
      (fun (services, table) ↦ services.any fun service ↦ !service.connectionBased &&
        (generatedHandle table service).all fun handle ↦ !tfmSpmCheckClientVersion
          (loadInfo 7 16 () service) (getVersionFromStaticHandle handle)) = true := by
    decide +kernel
  cases result : processPartitionManifests [⟨.v11, [sampleItem 7 (some 256) .auto]⟩] with
  | error err =>
      rw [result] at refused
      cases refused
  | ok both =>
      obtain ⟨services, table⟩ := both
      rw [result] at refused
      obtain ⟨service, here, refused⟩ := List.any_eq_true.1 refused
      obtain ⟨stateless, refused⟩ := Bool.and_eq_true_iff.1 refused
      obtain ⟨handle, generated, accepted⟩ := agree _ services table result service here
        (Bool.not_eq_true' _ ▸ stateless)
      have := (Option.all_eq_true ..).1 refused handle generated
      rw [accepted] at this
      cases this

end TrustedFirmwareM.Spm.Tool
