import TrustedFirmwareM.Lib.Settled
import Mathlib.Data.List.Nodup
import Mathlib.Data.List.Perm.Subperm
import Mathlib.Logic.Function.Basic

/-!
# Circular dependencies between partitions

The manifest tool refuses partitions that depend on each other in a circle.  The partitions are gone
through depth first, with a flag for those that have been left and one list for all that have been
entered in a search, from which nothing is taken out again.
-/

namespace TrustedFirmwareM.Tools

open Relation

variable {Name Service : Type} [DecidableEq Name] [DecidableEq Service]

/-- What dependencies need of the manifest of a partition. -/
structure Manifest (Name Service : Type) where
  /-- `name`. -/
  name : Name
  /-- The names in `services`. -/
  services : List Service
  /-- `dependencies`. -/
  dependencies : List Service
  /-- `weak_dependencies`. -/
  weakDependencies : List Service

/-- A set of partitions. -/
structure Partitions (Name Service : Type) where
  /-- Their manifests. -/
  manifests : List (Manifest Name Service)
  /-- Each has a name of its own. -/
  nodup : (manifests.map Manifest.name).Nodup

/-- `service_partition_map`: a service belongs to the last partition that has it. -/
def servicePartitionMap (manifests : List (Manifest Name Service)) : Service → Option Name :=
  manifests.foldl (fun owner manifest ↦ manifest.services.foldl
    (fun owner service ↦ Function.update owner service (some manifest.name)) owner) fun _ ↦ none

/-- The owners of the services that a partition depends on, as far as they are there. -/
def ownersOf (owner : Service → Option Name) (manifest : Manifest Name Service) : List Name :=
  (manifest.dependencies ++ manifest.weakDependencies).filterMap owner

/-- `dependencies` in `dependency_table`. -/
def dependencyTable (owner : Service → Option Name) (manifests : List (Manifest Name Service)) :
    Name → Option (List Name) :=
  manifests.foldl (fun table manifest ↦
    Function.update table manifest.name (some (ownersOf owner manifest))) fun _ ↦ none

/-- The flags in `dependency_table`, and the chain. -/
structure Search (Name : Type) where
  /-- `validated`. -/
  validated : Name → Bool
  /-- `dependency_chain`. -/
  chain : List Name

/-- How a search ends. -/
inductive Outcome (Name : Type)
  /-- It is done. -/
  | done (s : Search Name)
  /-- It exits with a circular dependency in the chain. -/
  | circular (chain : List Name)
  /-- A partition is not in the table. -/
  | keyError
  /-- It has not ended after a number of calls within each other. -/
  | unfinished

/-- The loop of `validate_dependency_chain`. -/
def validateDependencies (validate : Name → Search Name → Outcome Name) :
    List Name → Search Name → Outcome Name
  | [], s => .done s
  | dependency :: dependencies, s =>
    if s.validated dependency then validateDependencies validate dependencies s
    else
      match validate dependency s with
      | .done s' => validateDependencies validate dependencies s'
      | outcome => outcome

/-- `validate_dependency_chain`, for a number of calls within each other. -/
def validateDependencyChain (table : Name → Option (List Name)) :
    ℕ → Name → Search Name → Outcome Name
  | 0, _, _ => .unfinished
  | calls + 1, name, s =>
    if name ∈ s.chain then .circular (s.chain ++ [name])
    else
      match table name with
      | none => .keyError
      | some dependencies =>
        match validateDependencies (validateDependencyChain table calls) dependencies
            { s with chain := s.chain ++ [name] } with
        | .done s' => .done { s' with validated := Function.update s'.validated name true }
        | outcome => outcome

/-- The loop of `check_circular_dependency`, with a chain of its own for each partition. -/
def validateAll (table : Name → Option (List Name)) (calls : ℕ) :
    List Name → (Name → Bool) → Outcome Name
  | [], validated => .done ⟨validated, []⟩
  | name :: names, validated =>
    match validateDependencyChain table calls name ⟨validated, []⟩ with
    | .done s => validateAll table calls names s.validated
    | outcome => outcome

/-- `check_circular_dependency`. -/
def checkCircularDependency (calls : ℕ) (manifests : List (Manifest Name Service))
    (owner : Service → Option Name) : Outcome Name :=
  validateAll (dependencyTable owner manifests) calls (manifests.map Manifest.name) fun _ ↦ false

/-- A partition depends on a service, strongly or weakly, and another one has this service. -/
def DependsOn (P : Partitions Name Service) (name name' : Name) : Prop :=
  ∃ manifest ∈ P.manifests, manifest.name = name ∧
    ∃ service, (service ∈ manifest.dependencies ∨ service ∈ manifest.weakDependencies) ∧
      servicePartitionMap P.manifests service = some name'

/-- The dependencies go in a circle. -/
def Circular (P : Partitions Name Service) : Prop := ∃ name, TransGen (DependsOn P) name name

/-! ### One search -/

section

variable {table : Name → Option (List Name)} {names : List Name}

/-- An entry of the table leads to a partition. -/
def Leads (table : Name → Option (List Name)) (name name' : Name) : Prop :=
  ∃ dependencies, table name = some dependencies ∧ name' ∈ dependencies

/-- The table has an entry for each of the names, and leads to these only. -/
def Complete (table : Name → Option (List Name)) (names : List Name) : Prop :=
  ∀ name ∈ names, ∃ dependencies, table name = some dependencies ∧ ∀ d ∈ dependencies, d ∈ names

/-- What holds of a search: what has been entered has been validated or is on the way to the
partition that is looked at. -/
structure Search.Inv (table : Name → Option (List Name)) (names : List Name) (onWay : Name → Prop)
    (s : Search Name) : Prop where
  /-- What has been validated is settled. -/
  settled : Settled (Leads table) fun name ↦ s.validated name = true
  /-- No name is twice in the chain. -/
  nodup : s.chain.Nodup
  /-- The chain has names of partitions. -/
  subset : ∀ name ∈ s.chain, name ∈ names
  /-- What is in the chain. -/
  entered : ∀ name ∈ s.chain, s.validated name = true ∨ onWay name

/-- What a part of a search adds. -/
structure Search.Extends (s s' : Search Name) : Prop where
  /-- Flags stay. -/
  validated : ∀ name, s.validated name = true → s'.validated name = true
  /-- The chain gets longer. -/
  chain : s.chain.length ≤ s'.chain.length

/-- A search is done with a property, or there is a cycle. -/
def Outcome.Ends (outcome : Outcome Name) (table : Name → Option (List Name))
    (Q : Search Name → Prop) : Prop :=
  match outcome with
  | .done s => Q s
  | .circular _ => ∃ name, TransGen (Leads table) name name
  | .keyError | .unfinished => False

variable {onWay : Name → Prop} {s s' : Search Name} {name : Name} {calls : ℕ}

omit [DecidableEq Name] in
theorem Search.Extends.refl : s.Extends s := ⟨fun _ validated ↦ validated, Nat.le_refl _⟩

omit [DecidableEq Name] in
theorem Search.Extends.trans {s'' : Search Name} (first : s.Extends s') (second : s'.Extends s'') :
    s.Extends s'' :=
  ⟨fun name validated ↦ second.validated name (first.validated name validated),
    Nat.le_trans first.chain second.chain⟩

omit [DecidableEq Name] in
/-- A search goes on when a part of it is done. -/
theorem Outcome.Ends.bind {outcome : Outcome Name} {next : Search Name → Outcome Name}
    {P Q : Search Name → Prop} (ends : outcome.Ends table P)
    (goes_on : ∀ s, P s → (next s).Ends table Q) :
    Outcome.Ends (match outcome with | .done s => next s | outcome => outcome) table Q := by
  cases outcome with
  | done s => exact goes_on s ends
  | circular chain => exact ends
  | keyError => exact ends
  | unfinished => exact ends

omit [DecidableEq Name] in
theorem Outcome.Ends.mono {outcome : Outcome Name} {P Q : Search Name → Prop}
    (ends : outcome.Ends table P) (weaker : ∀ s, P s → Q s) : outcome.Ends table Q := by
  cases outcome with
  | done s => exact weaker s ends
  | circular chain => exact ends
  | keyError => exact ends
  | unfinished => exact ends

omit [DecidableEq Name] in
theorem Search.Inv.length_le (inv : s.Inv table names onWay) : s.chain.length ≤ names.length :=
  (List.subperm_of_subset inv.nodup inv.subset).length_le

omit [DecidableEq Name] in
/-- A partition is entered that is not in the chain. -/
theorem Search.Inv.enter (inv : s.Inv table names onWay) (mem : name ∈ names)
    (fresh : name ∉ s.chain) :
    Search.Inv table names (fun name' ↦ name' = name ∨ onWay name')
      { s with chain := s.chain ++ [name] } where
  settled := inv.settled
  nodup := by
    rw [List.nodup_append]
    refine ⟨inv.nodup, by simp, ?_⟩
    rintro other other_mem _ last rfl
    exact fresh (List.mem_singleton.mp last ▸ other_mem)
  subset := by
    intro other other_mem
    rcases List.mem_append.mp other_mem with other_mem | last
    · exact inv.subset other other_mem
    · exact List.mem_singleton.mp last ▸ mem
  entered := by
    intro other other_mem
    rcases List.mem_append.mp other_mem with other_mem | last
    · exact (inv.entered other other_mem).imp_right .inr
    · exact .inr (.inl (List.mem_singleton.mp last))

/-- A partition is left when its dependencies have been validated. -/
theorem Search.Inv.leave
    (inv : s.Inv table names fun name' ↦ name' = name ∨ onWay name')
    (validated : ∀ d, Leads table name d → s.validated d = true) :
    Search.Inv table names onWay
      { s with validated := Function.update s.validated name true } where
  settled := by
    apply (inv.settled.insert validated).congr
    intro other
    rcases eq_or_ne other name with rfl | ne
    · simp
    · simp [ne]
  nodup := inv.nodup
  subset := inv.subset
  entered := by
    intro other other_mem
    rcases eq_or_ne other name with rfl | ne
    · simp
    · simpa [ne] using inv.entered other other_mem

/-- What a search for a partition does, with enough calls for the names not in the chain. -/
def Searches (table : Name → Option (List Name)) (names : List Name) (calls : ℕ) : Prop :=
  ∀ name ∈ names, ∀ (s : Search Name) (onWay : Name → Prop), s.Inv table names onWay →
    (∀ other, onWay other → TransGen (Leads table) other name) →
      (name ∈ s.chain → s.validated name = false) → names.length + 1 ≤ calls + s.chain.length →
        (validateDependencyChain table calls name s).Ends table fun s' ↦
          s'.Inv table names onWay ∧ s.Extends s' ∧ s'.validated name = true

/-- The dependencies of a partition are validated one after another. -/
theorem validateDependencies_ends (searches : Searches table names calls) {dependencies : List Name}
    (inv : s.Inv table names onWay) (enough : names.length + 1 ≤ calls + s.chain.length)
    (subset : ∀ d ∈ dependencies, d ∈ names)
    (leads : ∀ d ∈ dependencies, ∀ other, onWay other → TransGen (Leads table) other d) :
    (validateDependencies (validateDependencyChain table calls) dependencies s).Ends table
      fun s' ↦ s'.Inv table names onWay ∧ s.Extends s' ∧ ∀ d ∈ dependencies,
        s'.validated d = true := by
  induction dependencies generalizing s with
  | nil => exact ⟨inv, .refl, by simp⟩
  | cons d dependencies induction =>
      simp only [List.mem_cons, forall_eq_or_imp] at subset leads
      rw [validateDependencies]
      split
      · next validated =>
          apply (induction inv enough subset.2 leads.2).mono
          intro s' holds
          refine ⟨holds.1, holds.2.1, ?_⟩
          simpa using ⟨holds.2.1.validated d validated, holds.2.2⟩
      · next not_validated =>
          have first := searches d subset.1 s onWay inv leads.1
            (fun _ ↦ Bool.eq_false_iff.mpr not_validated) enough
          apply first.bind
          intro s' holds
          have enough' : names.length + 1 ≤ calls + s'.chain.length := by
            have longer := holds.2.1.chain
            omega
          apply (induction holds.1 enough' subset.2 leads.2).mono
          intro s'' holds'
          refine ⟨holds'.1, holds.2.1.trans holds'.2.1, ?_⟩
          simpa using ⟨holds'.2.1.validated d holds.2.2, holds'.2.2⟩

/-- A search ends, with a cycle or with the partition validated. -/
theorem searches (complete : Complete table names) (calls : ℕ) : Searches table names calls := by
  induction calls with
  | zero =>
      intro name mem s onWay inv _ _ enough
      have short := inv.length_le
      omega
  | succ calls induction =>
      intro name mem s onWay inv leads not_validated enough
      rw [validateDependencyChain]
      split
      · next again =>
          rcases inv.entered name again with validated | on_way
          · rw [not_validated again] at validated
            exact nomatch validated
          · exact ⟨name, leads name on_way⟩
      · next fresh =>
          obtain ⟨dependencies, entry, subset⟩ := complete name mem
          simp only [entry]
          have enough' : names.length + 1 ≤ calls + (s.chain ++ [name]).length := by
            rw [List.length_append, List.length_singleton]
            omega
          have leads' : ∀ d ∈ dependencies, ∀ other, other = name ∨ onWay other →
              TransGen (Leads table) other d := by
            intro d d_mem other on_way
            have step : Leads table name d := ⟨dependencies, entry, d_mem⟩
            rcases on_way with rfl | on_way
            · exact .single step
            · exact (leads other on_way).tail step
          apply (validateDependencies_ends induction
            (inv.enter mem fresh) enough' subset leads').bind
          intro s' holds
          obtain ⟨inv', extends', validated⟩ := holds
          refine ⟨inv'.leave ?_, ⟨?_, ?_⟩, by simp⟩
          · rintro d ⟨dependencies', entry', d_mem⟩
            obtain rfl := Option.some.inj (entry.symm.trans entry')
            exact validated d d_mem
          · intro other other_validated
            rcases eq_or_ne other name with rfl | ne
            · simp
            · simpa [ne] using extends'.validated other other_validated
          · have longer := extends'.chain
            rw [List.length_append] at longer
            exact Nat.le_trans (Nat.le_add_right _ _) longer

/-- The searches for a list of partitions end, with a cycle or with all of them validated. -/
theorem validateAll_ends (complete : Complete table names) (enough : names.length + 1 ≤ calls)
    {rest : List Name} {validated : Name → Bool} (subset : ∀ name ∈ rest, name ∈ names)
    (settled : Settled (Leads table) fun name ↦ validated name = true) :
    (validateAll table calls rest validated).Ends table fun s ↦
      Settled (Leads table) (fun name ↦ s.validated name = true) ∧
        (∀ name, validated name = true → s.validated name = true) ∧
          ∀ name ∈ rest, s.validated name = true := by
  induction rest generalizing validated with
  | nil => exact ⟨settled, fun _ held ↦ held, by simp⟩
  | cons name rest induction =>
      simp only [List.mem_cons, forall_eq_or_imp] at subset
      have inv : Search.Inv table names (fun _ ↦ False) ⟨validated, []⟩ :=
        ⟨settled, List.nodup_nil, by simp, by simp⟩
      have first := searches complete calls name subset.1 ⟨validated, []⟩ _ inv (by simp)
        (by simp) enough
      rw [validateAll]
      apply first.bind
      intro s holds
      apply (induction subset.2 holds.1.settled).mono
      intro s' holds'
      refine ⟨holds'.1, fun other held ↦ holds'.2.1 other (holds.2.1.validated other held), ?_⟩
      simpa using ⟨holds'.2.1 name holds.2.2, holds'.2.2⟩

end

/-! ### The table of dependencies -/

section

variable {manifests : List (Manifest Name Service)} {owner : Service → Option Name} {name : Name}

omit [DecidableEq Name] in
/-- The services of one partition belong to this one, or to the owner they had. -/
theorem eq_or_of_foldl_services {services : List Service} {service : Service} {name' : Name}
    (owned : services.foldl (fun owner service ↦ Function.update owner service (some name')) owner
      service = some name) :
    name = name' ∨ owner service = some name := by
  induction services generalizing owner with
  | nil => exact .inr owned
  | cons first services induction =>
      rw [List.foldl_cons] at owned
      rcases induction owned with same | held
      · exact .inl same
      · rcases eq_or_ne service first with rfl | other
        · rw [Function.update_self] at held
          exact .inl (Option.some.inj held).symm
        · rw [Function.update_of_ne other] at held
          exact .inr held

omit [DecidableEq Name] in
/-- Services belong to partitions. -/
theorem name_mem_of_servicePartitionMap {service : Service}
    (owned : servicePartitionMap manifests service = some name) :
    name ∈ manifests.map Manifest.name := by
  suffices general : ∀ owner : Service → Option Name,
      manifests.foldl (fun owner manifest ↦ manifest.services.foldl
        (fun owner service ↦ Function.update owner service (some manifest.name)) owner) owner
          service = some name →
        owner service = some name ∨ name ∈ manifests.map Manifest.name by
    simpa using general _ owned
  clear owned
  intro owner owned
  induction manifests generalizing owner with
  | nil => exact .inl owned
  | cons manifest manifests induction =>
      rcases induction _ owned with before | mem
      · rcases eq_or_of_foldl_services before with rfl | before
        · simp
        · exact .inl before
      · exact .inr (List.mem_cons_of_mem _ mem)

omit [DecidableEq Service] in
theorem foldl_update_of_notMem {table : Name → Option (List Name)}
    (absent : name ∉ manifests.map Manifest.name) :
    manifests.foldl (fun (table : Name → Option (List Name)) manifest ↦
      Function.update table manifest.name (some (ownersOf owner manifest))) table name =
        table name := by
  induction manifests generalizing table with
  | nil => rfl
  | cons manifest manifests induction =>
      simp only [List.map_cons, List.mem_cons, not_or] at absent
      rw [List.foldl_cons, induction absent.2, Function.update_of_ne absent.1]

omit [DecidableEq Service] in
/-- The entry of a partition has the owners of what it depends on. -/
theorem dependencyTable_of_mem (nodup : (manifests.map Manifest.name).Nodup)
    {manifest : Manifest Name Service} (mem : manifest ∈ manifests) :
    dependencyTable owner manifests manifest.name = some (ownersOf owner manifest) := by
  rw [dependencyTable]
  generalize (fun _ ↦ none : Name → Option (List Name)) = table
  induction manifests generalizing table with
  | nil => exact nomatch mem
  | cons first manifests induction =>
      simp only [List.map_cons, List.nodup_cons] at nodup
      rw [List.foldl_cons]
      rcases List.mem_cons.mp mem with rfl | mem
      · rw [foldl_update_of_notMem nodup.1, Function.update_self]
      · exact induction nodup.2 mem _

omit [DecidableEq Service] in
/-- Other names have no entry. -/
theorem dependencyTable_eq_none (absent : name ∉ manifests.map Manifest.name) :
    dependencyTable owner manifests name = none :=
  foldl_update_of_notMem absent

omit [DecidableEq Name] [DecidableEq Service] in
theorem mem_ownersOf {manifest : Manifest Name Service} :
    name ∈ ownersOf owner manifest ↔
      ∃ service, (service ∈ manifest.dependencies ∨ service ∈ manifest.weakDependencies) ∧
        owner service = some name := by
  simp only [ownersOf, List.mem_filterMap, List.mem_append]

variable (P : Partitions Name Service)

/-- The table leads from partition to partition as the dependencies do. -/
theorem leads_dependencyTable {name' : Name} :
    Leads (dependencyTable (servicePartitionMap P.manifests) P.manifests) name name' ↔
      DependsOn P name name' := by
  constructor
  · rintro ⟨dependencies, entry, mem⟩
    have present : name ∈ P.manifests.map Manifest.name := by
      by_contra absent
      rw [dependencyTable_eq_none absent] at entry
      exact nomatch entry
    obtain ⟨manifest, manifest_mem, rfl⟩ := List.mem_map.mp present
    rw [dependencyTable_of_mem P.nodup manifest_mem] at entry
    obtain rfl := Option.some.inj entry
    exact ⟨manifest, manifest_mem, rfl, mem_ownersOf.mp mem⟩
  · rintro ⟨manifest, manifest_mem, rfl, owned⟩
    exact ⟨_, dependencyTable_of_mem P.nodup manifest_mem, mem_ownersOf.mpr owned⟩

/-- The table has an entry for each partition, and for each partition that one depends on. -/
theorem dependencyTable_complete :
    Complete (dependencyTable (servicePartitionMap P.manifests) P.manifests)
      (P.manifests.map Manifest.name) := by
  intro name mem
  obtain ⟨manifest, manifest_mem, rfl⟩ := List.mem_map.mp mem
  refine ⟨_, dependencyTable_of_mem P.nodup manifest_mem, ?_⟩
  intro dependency dependency_mem
  obtain ⟨service, _, owned⟩ := mem_ownersOf.mp dependency_mem
  exact name_mem_of_servicePartitionMap owned

omit [DecidableEq Name] in
/-- Partitions on a circle are partitions of the set. -/
theorem name_mem_of_cycle (cycle : TransGen (DependsOn P) name name) :
    name ∈ P.manifests.map Manifest.name := by
  obtain ⟨_, ⟨manifest, mem, rfl, _⟩, _⟩ := TransGen.head'_iff.mp cycle
  exact List.mem_map_of_mem mem

/-- The search ends, and with an error exactly when the dependencies go in a circle: as many calls
within each other as there are partitions, and one more, are enough. -/
theorem checkCircularDependency_decides (more : ℕ) :
    ((∃ chain, checkCircularDependency (P.manifests.length + 1 + more) P.manifests
        (servicePartitionMap P.manifests) = .circular chain) ↔ Circular P) ∧
      ((∃ s, checkCircularDependency (P.manifests.length + 1 + more) P.manifests
        (servicePartitionMap P.manifests) = .done s) ↔ ¬Circular P) := by
  have enough : (P.manifests.map Manifest.name).length + 1 ≤ P.manifests.length + 1 + more := by
    rw [List.length_map]
    exact Nat.le_add_right _ _
  have start : Settled (Leads (dependencyTable (servicePartitionMap P.manifests) P.manifests))
      fun _ : Name ↦ false = true :=
    settled_empty.congr fun _ ↦ by simp
  have ends := validateAll_ends (dependencyTable_complete P) enough (fun _ mem ↦ mem) start
  have same : Leads (dependencyTable (servicePartitionMap P.manifests) P.manifests) = DependsOn P :=
    funext fun _ ↦ funext fun _ ↦ propext (leads_dependencyTable P)
  rw [same] at ends
  rw [checkCircularDependency]
  cases outcome : validateAll (dependencyTable (servicePartitionMap P.manifests) P.manifests)
      (P.manifests.length + 1 + more) (P.manifests.map Manifest.name) (fun _ ↦ false) with
  | done s =>
      rw [outcome] at ends
      have acyclic : ¬Circular P := by
        rintro ⟨name, cycle⟩
        exact ends.1.acyclic name (ends.2.2 name (name_mem_of_cycle P cycle)) cycle
      simp [acyclic]
  | circular chain =>
      rw [outcome, Outcome.Ends, same] at ends
      have circular : Circular P := ends
      simp [circular]
  | keyError =>
      rw [outcome] at ends
      exact ends.elim
  | unfinished =>
      rw [outcome] at ends
      exact ends.elim

end

end TrustedFirmwareM.Tools
