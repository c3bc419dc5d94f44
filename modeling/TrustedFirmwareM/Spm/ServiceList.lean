import TrustedFirmwareM.Lib.LinkedList
import TrustedFirmwareM.Spm.Client

/-!
# The list of services

Services are looked up by their identifier in a singly linked list.  The service that has been found
is moved to the front, in place and while the list is gone through.
-/

namespace TrustedFirmwareM.Spm.ServiceList

open LinkedList

variable {Pt Svc : Type} [DecidableEq Svc]

/-- The links of the services. -/
structure Links (Svc : Type) where
  /-- `services_listhead.next`. -/
  head : Option Svc
  /-- `next` of a service. -/
  next : Svc → Option Svc

/-- `UNI_LIST_MOVE_AFTER`, behind the head of the list. -/
def Links.moveAfter (links : Links Svc) (prev : Option Svc) (node : Svc) : Links Svc :=
  match prev with
  | none => links
  | some holder =>
    { head := some node
      next := Function.update
        (Function.update links.next holder (links.next node)) node links.head }

/-- The loop of `tfm_spm_get_service_by_sid`, which gives up after a number of turns. -/
def findServiceBySid (sidOf : Svc → Word) (links : Links Svc) (sid : Word) :
    ℕ → Option Svc → Option Svc → Option (Option Svc × Links Svc)
  | _, _, none => some (none, links)
  | 0, _, some _ => none
  | turns + 1, prev, some curr =>
    if sidOf curr = sid then some (some curr, links.moveAfter prev curr)
    else findServiceBySid sidOf links sid turns (some curr) (links.next curr)

/-- `tfm_spm_get_service_by_sid`. -/
def getServiceBySid (sidOf : Svc → Word) (turns : ℕ) (links : Links Svc) (sid : Word) :
    Option (Option Svc × Links Svc) :=
  findServiceBySid sidOf links sid turns none links.head

/-- Services are looked up one after another. -/
def getServices (sidOf : Svc → Word) (turns : ℕ) :
    Links Svc → List Word → Option (List (Option Svc) × Links Svc)
  | links, [] => some ([], links)
  | links, sid :: sids => do
    let (found, links') ← getServiceBySid sidOf turns links sid
    let (rest, links'') ← getServices sidOf turns links' sids
    pure (found :: rest, links'')

/-- The links go through some services and end in `NULL`. -/
def Links.Lists (links : Links Svc) (services : List Svc) : Prop :=
  Chain links.next links.head services

/-- A list of services in memory. -/
structure Services (Svc : Type) [DecidableEq Svc] where
  /-- The links. -/
  links : Links Svc
  /-- The services, in order. -/
  services : List Svc
  /-- The links go through these services. -/
  lists : links.Lists services

/-- A service is found exactly when there is one. -/
def Answers (sidOf : Svc → Word) (services : List Svc) (sid : Word) (found : Option Svc) : Prop :=
  match found with
  | none => ∀ service ∈ services, sidOf service ≠ sid
  | some service => service ∈ services ∧ sidOf service = sid

variable {sidOf : Svc → Word} {links : Links Svc} {sid : Word}

omit [DecidableEq Svc] in
theorem Answers.perm {services services' : List Svc} {found : Option Svc}
    (answers : Answers sidOf services sid found) (perm : services.Perm services') :
    Answers sidOf services' sid found := by
  cases found with
  | none => exact fun service mem ↦ answers service (perm.mem_iff.mpr mem)
  | some service => exact ⟨perm.mem_iff.mp answers.1, answers.2⟩

/-- A service is moved to the front. -/
theorem lists_moveAfter {before after : List Svc} {node : Svc}
    (lists : links.Lists (before ++ node :: after)) :
    (links.moveAfter before.getLast? node).Lists (node :: (before ++ after)) := by
  have fresh : node ∉ before ++ after := by
    have distinct := lists.nodup
    rw [List.nodup_middle] at distinct
    exact (List.nodup_cons.mp distinct).1
  have moved := (Chain.unlink lists).push fresh
  rcases List.eq_nil_or_concat' before with rfl | ⟨front, holder, rfl⟩
  · exact lists
  · simpa [Links.Lists, Links.moveAfter, unlink] using moved

/-- What the loop finds in the rest of a list, behind the services that it has passed. -/
theorem findServiceBySid_eq (visited : List Svc) {rest : List Svc} {curr : Option Svc} {turns : ℕ}
    (chain : Chain links.next curr rest) (enough : rest.length ≤ turns) :
    (∀ service ∈ rest, sidOf service ≠ sid) ∧
        findServiceBySid sidOf links sid turns visited.getLast? curr = some (none, links) ∨
      ∃ before node after, rest = before ++ node :: after ∧
        (∀ service ∈ before, sidOf service ≠ sid) ∧ sidOf node = sid ∧
          findServiceBySid sidOf links sid turns visited.getLast? curr =
            some (some node, links.moveAfter (visited ++ before).getLast? node) := by
  induction chain generalizing visited turns with
  | nil =>
      apply Or.inl
      cases turns with
      | zero => simp [findServiceBySid]
      | succ turns => simp [findServiceBySid]
  | @cons node nodes tail induction =>
      cases turns with
      | zero => simp at enough
      | succ turns =>
          rw [findServiceBySid]
          split
          · next found => exact .inr ⟨[], node, nodes, rfl, by simp, found, by simp⟩
          · next other =>
              have enough' : nodes.length ≤ turns := by simpa using enough
              have step := induction (visited ++ [node]) enough'
              rw [List.getLast?_concat] at step
              rcases step with ⟨none_found, run⟩ | ⟨before, found, after, rfl, passed, eq, run⟩
              · exact .inl ⟨by simpa [other] using none_found, run⟩
              · refine .inr ⟨node :: before, found, after,
                  rfl, by simpa [other] using passed, eq, ?_⟩
                simpa using run

/-- One look-up: the service is found, and is the first one afterwards. -/
theorem getServiceBySid_eq (sidOf : Svc → Word) (sid : Word) {services : List Svc} {turns : ℕ}
    (lists : links.Lists services)
    (enough : services.length ≤ turns) :
    (∀ service ∈ services, sidOf service ≠ sid) ∧
        getServiceBySid sidOf turns links sid = some (none, links) ∨
      ∃ before node after, services = before ++ node :: after ∧
        (∀ service ∈ before, sidOf service ≠ sid) ∧ sidOf node = sid ∧ ∃ links',
          getServiceBySid sidOf turns links sid = some (some node, links') ∧
            links'.Lists (node :: (before ++ after)) := by
  rcases findServiceBySid_eq [] lists enough with none_found | found
  · exact .inl none_found
  · obtain ⟨before, node, after, rfl, passed, eq, run⟩ := found
    exact .inr ⟨before, node, after, rfl, passed, eq, _, run, lists_moveAfter lists⟩

/-- More turns change nothing once the loop has ended. -/
theorem findServiceBySid_succ {prev curr : Option Svc} {turns : ℕ}
    {result : Option Svc × Links Svc}
    (run : findServiceBySid sidOf links sid turns prev curr = some result) :
    findServiceBySid sidOf links sid (turns + 1) prev curr = some result := by
  induction turns generalizing prev curr with
  | zero =>
      cases curr with
      | none => exact run
      | some node => exact nomatch run
  | succ turns induction =>
      cases curr with
      | none => exact run
      | some node =>
          rw [findServiceBySid] at run ⊢
          split
          · next found => rwa [if_pos found] at run
          · next other =>
              rw [if_neg other] at run
              exact induction run

theorem getServiceBySid_of_le {turns turns' : ℕ} {result : Option Svc × Links Svc}
    (run : getServiceBySid sidOf turns links sid = some result) (le : turns ≤ turns') :
    getServiceBySid sidOf turns' links sid = some result := by
  induction le with
  | refl => exact run
  | step _ induction => exact findServiceBySid_succ induction

/-- A look-up keeps the list up to its order and answers right. -/
theorem getServiceBySid_answers (sidOf : Svc → Word) (sid : Word) {services : List Svc}
    (lists : links.Lists services) :
    ∃ found links' services', (∀ turns, services.length ≤ turns →
        getServiceBySid sidOf turns links sid = some (found, links')) ∧
      links'.Lists services' ∧ services'.Perm services ∧ Answers sidOf services sid found := by
  rcases getServiceBySid_eq sidOf sid lists le_rfl with
    ⟨none_found, run⟩ | ⟨before, node, after, rfl, -, eq, links', run, lists'⟩
  · exact ⟨none, links, services, fun _ ↦ getServiceBySid_of_le run, lists,
      .refl services, none_found⟩
  · exact ⟨some node, links', _, fun _ ↦ getServiceBySid_of_le run, lists', List.perm_middle.symm,
      by simp, eq⟩

/-- The abstract service list of the partition manager is what the links give. -/
theorem getServiceBySid_refines {P : Platform Pt Svc} {s : State Pt Svc} {turns : ℕ}
    (lists : links.Lists s.services) (enough : s.services.length ≤ turns) :
    match tfmSpmGetServiceBySid P s sid with
    | none => getServiceBySid (fun σ ↦ (P.service σ).sid) turns links sid = some (none, links)
    | some (σ, s') => ∃ links',
        getServiceBySid (fun σ ↦ (P.service σ).sid) turns links sid = some (some σ, links') ∧
          links'.Lists s'.services := by
  rcases getServiceBySid_eq (fun σ ↦ (P.service σ).sid) sid lists enough with
    ⟨none_found, run⟩ | ⟨before, node, after, services_eq, passed, eq, links', run, lists'⟩
  · have clear : s.services.find? (fun σ ↦ decide ((P.service σ).sid = sid)) = none := by
      simpa [List.find?_eq_none] using none_found
    simpa [tfmSpmGetServiceBySid, clear] using run
  · have found : s.services.find? (fun σ ↦ decide ((P.service σ).sid = sid)) = some node := by
      rw [services_eq, List.find?_append, List.find?_eq_none.mpr (by simpa using passed)]
      simp [eq]
    have erased : s.services.eraseP (fun σ ↦ decide ((P.service σ).sid = sid)) =
        before ++ after := by
      rw [services_eq, List.eraseP_append_right _ (by simpa using passed)]
      simp [eq]
    simp only [tfmSpmGetServiceBySid, found, erased]
    exact ⟨links', run, lists'⟩

/-- The look-ups that follow a first one. -/
theorem getServices_cons {turns : ℕ} {sids : List Word} {found : Option Svc} {links' : Links Svc}
    (run : getServiceBySid sidOf turns links sid = some (found, links')) :
    getServices sidOf turns links (sid :: sids) =
      (getServices sidOf turns links' sids).map fun rest ↦ (found :: rest.1, rest.2) := by
  rw [getServices, run]
  cases later : getServices sidOf turns links' sids with
  | none => simp [later]
  | some rest => simp [later]

/-- However often services are looked up, the list stays well-formed with the same services, and
each service is found exactly when it is there. -/
theorem getServices_answers (sidOf : Svc → Word) (L : Services Svc) (sids : List Word) :
    ∃ found links' services', (∀ turns, L.services.length ≤ turns →
        getServices sidOf turns L.links sids = some (found, links')) ∧
      links'.Lists services' ∧ services'.Perm L.services ∧
        List.Forall₂ (Answers sidOf L.services) sids found := by
  obtain ⟨links, services, lists⟩ := L
  simp only
  induction sids generalizing links services with
  | nil => exact ⟨[], links, services, fun _ _ ↦ rfl, lists, .refl services, .nil⟩
  | cons sid sids induction =>
      obtain ⟨found, links', services', run, lists', perm, answers⟩ :=
        getServiceBySid_answers sidOf sid lists
      obtain ⟨rest, links'', services'', run', lists'', perm', answers'⟩ :=
        induction links' services' lists'
      refine ⟨found :: rest, links'', services'', ?_, lists'', perm'.trans perm, .cons answers ?_⟩
      · intro turns enough
        rw [getServices_cons (run turns enough), run' turns (perm.length_eq.trans_le enough)]
        rfl
      · exact answers'.imp fun _ _ right ↦ right.perm perm

end TrustedFirmwareM.Spm.ServiceList
