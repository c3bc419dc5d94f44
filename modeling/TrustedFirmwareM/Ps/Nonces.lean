import TrustedFirmwareM.Ps.Durability
import Mathlib.Data.List.Pairwise

/-!
# Uniqueness of initialisation vectors

Initialisation vectors are counted in volatile memory, and a boot goes on from the one in the object
table.  They are never used twice as long as every boot finds a table that is as recent as the
latest encryption.  An object is encrypted before the table is saved, and a save that fails leaves
the table behind: after a power loss the vector of the object is used again.
-/

namespace TrustedFirmwareM.Ps

open Program

variable {Tag : Type} {m : ℕ}

/-- All initialisation vectors are different. -/
def Distinct (w : World Tag m) : Prop := w.encryptions.Pairwise fun e e' ↦ e.iv ≠ e'.iv

/-- No initialisation vector has been used that comes after the one in memory. -/
def Fresh (ram : Ram Tag m) (w : World Tag m) : Prop :=
  Distinct w ∧ ∀ e ∈ w.encryptions, e.iv.toNat ≤ ram.ivBuf.toNat

variable {cfg : Config} {crypto : Crypto Tag m}

theorem Fresh.congr {ram ram' : Ram Tag m} {w w' : World Tag m} (fresh : Fresh ram w)
    (encryptions : w'.encryptions = w.encryptions) (ivBuf : ram'.ivBuf = ram.ivBuf) :
    Fresh ram' w' := by
  rw [Fresh, Distinct, encryptions, ivBuf]
  exact fresh

/-- An encryption under the next initialisation vector. -/
theorem Fresh.encrypt {ram ram' : Ram Tag m} {w w' : World Tag m} (fresh : Fresh ram w)
    {e : Encryption Tag m} (get : psCryptoGetIv ram.ivBuf = some e.iv)
    (encryptions : w'.encryptions = e :: w.encryptions) (ivBuf : ram'.ivBuf = e.iv) :
    Fresh ram' w' := by
  have next := psCryptoGetIv_toNat get
  rw [Fresh, Distinct, encryptions, ivBuf, List.pairwise_cons]
  refine ⟨⟨fun e' member eq ↦ ?_, fresh.1⟩, fun e' member ↦ ?_⟩
  · have le := fresh.2 e' member
    rw [← eq] at le
    omega
  · rcases List.mem_cons.1 member with rfl | member
    · exact le_rfl
    · have le := fresh.2 e' member
      omega

/-- An initialisation vector is left out. -/
theorem Fresh.skip {ram ram' : Ram Tag m} {w w' : World Tag m} {iv : Iv} (fresh : Fresh ram w)
    (get : psCryptoGetIv ram.ivBuf = some iv) (encryptions : w'.encryptions = w.encryptions)
    (ivBuf : ram'.ivBuf = iv) : Fresh ram' w' := by
  have next := psCryptoGetIv_toNat get
  rw [Fresh, Distinct, encryptions, ivBuf]
  refine ⟨fresh.1, fun e member ↦ ?_⟩
  have le := fresh.2 e member
  omega

/-- A save uses one initialisation vector, which the saved table carries. -/
theorem Fresh.save {ram : Ram Tag m} {w : World Tag m} (fresh : Fresh ram w) :
    Spec (Op.handle cfg) Distinct (psObjectTableSaveTable cfg crypto)
      (fun err ram' w' ↦ Fresh ram' w' ∧ (err = .success →
        w'.window = false ∧ w'.tables ram'.activeTable = some ram'.objTable ∧
          ram'.objTable.iv = ram'.ivBuf)) ram w := by
  have saved : ∀ iv, psCryptoGetIv ram.ivBuf = some iv → ∀ {w'},
      w'.encryptions = ⟨tableLabel cfg ram.objTable.gen, iv, w.savedAd ram.objTable.data, none⟩ ::
        w.encryptions → Fresh (ram.authenticated cfg crypto w iv).switched w' :=
    fun iv get _ encryptions ↦ fresh.encrypt get encryptions rfl
  refine spec_saveTable
    (fun _ ↦ ⟨fresh.1, fun _ ne _ ↦ ⟨fresh, fun eq ↦ absurd eq ne⟩⟩)
    (fun _ _ ↦ ⟨fresh.1, fun _ ne _ ↦ ⟨fresh, fun eq ↦ absurd eq ne⟩⟩)
    (fun _ _ ↦ ⟨fresh.1, fun _ ram' ne untagged ↦ ⟨?_, fun eq ↦ absurd eq ne⟩⟩)
    (fun _ iv get _ ↦ ⟨(saved iv get rfl).1, fun _ ram' ne same _ ↦ ⟨?_, fun eq ↦ absurd eq ne⟩⟩)
    (fun _ iv get _ _ _ _ _ ↦ ⟨(saved iv get rfl).1, fun _ ne _ ↦
      ⟨saved iv get rfl, fun eq ↦ absurd eq ne⟩⟩)
    fun _ iv get _ ↦ ⟨(saved iv get rfl).1, fun _ ↦ ⟨saved iv get rfl, fun _ ↦
      ⟨rfl, Function.update_self .., rfl⟩⟩⟩
  · rcases untagged with ⟨-, rfl⟩ | ⟨iv, get, rfl, -⟩
    · exact fresh
    · exact fresh.skip get rfl rfl
  · rcases same with rfl | rfl
    · exact (saved iv get rfl).congr rfl rfl
    · exact (saved iv get rfl).congr rfl rfl

/-- A boot goes on from the table that is chosen. -/
theorem Distinct.prepare {ram : Ram Tag m} {w : World Tag m} (distinct : Distinct w)
    (store : StoreInv cfg crypto w) (reliable : ¬w.Faulty)
    (refused : w.chosen cfg crypto = none → Fresh ram w)
    (taken : ∀ active table, w.chosen cfg crypto = some (active, table) →
      ∀ e ∈ w.encryptions, e.iv.toNat ≤ table.iv.toNat) :
    Spec (Op.handle cfg) (fun w' ↦ StoreInv cfg crypto w' ∧ Distinct w')
      (psSystemPrepare cfg crypto)
      (fun err ram' w' ↦ w'.fails = w.fails ∧ Fresh ram' w' ∧
        (err = .success → RunInv cfg crypto ram' w')) ram w := by
  rw [psSystemPrepare, spec_bind]
  have still : ∀ {w' : World Tag m}, w'.encryptions = w.encryptions → Distinct w' := by
    intro w' encryptions
    rw [Distinct, encryptions]
    exact distinct
  refine Prog.Spec.mono (store.init ram reliable)
    (fun _ inv ↦ ⟨inv.1, still inv.2.2.2⟩) ?_
  rintro ⟨err, ram'⟩ w' ⟨store', -, -, encryptions⟩ ⟨fails, outcome⟩
  have fresh : Fresh ram' w' := by
    rcases outcome with ⟨-, none, rfl⟩ | ⟨-, -, ivBuf, active, chosen⟩
    · exact (refused none).congr encryptions rfl
    · refine ⟨still encryptions, ?_⟩
      rw [encryptions, ivBuf]
      exact taken active _ chosen
  dsimp only
  split
  · exact ⟨⟨store', fresh.1⟩, fails, fresh, by rintro ⟨⟩⟩
  · refine ⟨⟨store', fresh.1⟩, fails, fresh, fun eq ↦ ?_⟩
    rcases outcome with ⟨ne, -⟩ | ⟨-, run, -⟩
    · exact absurd eq ne
    · exact run

section

variable [Inhabited Tag]

/-- Wiping the storage area goes on with the initialisation vectors in memory. -/
theorem Fresh.wipeAll {ram : Ram Tag m} {w : World Tag m} (fresh : Fresh ram w)
    (store : StoreInv cfg crypto w) :
    Spec (Op.handle cfg) (fun w' ↦ StoreInv cfg crypto w' ∧ Distinct w')
      (psSystemWipeAll cfg crypto)
      (fun err ram' w' ↦ (w'.fails = w.fails ∧ (err = .success → RunInv cfg crypto ram' w')) ∧
        Fresh ram' w' ∧ (err = .success →
          w'.window = false ∧ w'.tables ram'.activeTable = some ram'.objTable ∧
            ram'.objTable.iv = ram'.ivBuf)) ram w := by
  refine (store.wipeAll ram).and ?_
  rw [psSystemWipeAll, psObjectTableCreate, spec_bind]
  refine ⟨fresh.1, Fresh.save ?_⟩
  exact fresh.congr rfl rfl

/-- A boot from an up-to-date table does not use an initialisation vector twice. -/
theorem Distinct.boot {ram : Ram Tag m} {w : World Tag m} (distinct : Distinct w)
    (store : StoreInv cfg crypto w) (reliable : ¬w.Faulty)
    (refused : w.chosen cfg crypto = none → Fresh ram w)
    (taken : ∀ active table, w.chosen cfg crypto = some (active, table) →
      ∀ e ∈ w.encryptions, e.iv.toNat ≤ table.iv.toNat) :
    Spec (Op.handle cfg) (fun w' ↦ StoreInv cfg crypto w' ∧ Distinct w') (tfmPsInit cfg crypto)
      (fun err ram' w' ↦ err = .success → RunInv cfg crypto ram' w' ∧ Fresh ram' w') ram w := by
  rw [tfmPsInit, spec_bind]
  refine (distinct.prepare store reliable refused taken).mono ?_
  rintro err ram' w' ⟨store', distinct'⟩ ⟨fails, fresh, run⟩
  split
  · rw [spec_bind]
    refine (fresh.wipeAll store').mono ?_
    rintro err ram'' w'' ⟨store'', distinct''⟩ ⟨⟨fails', run'⟩, fresh', saved⟩
    refine spec_onSuccess (fun eq ↦ ?_) fun ne ↦ ⟨⟨store'', distinct''⟩, fun eq ↦ absurd eq ne⟩
    obtain ⟨closed, held, iv_eq⟩ := saved eq
    have reliable' : ¬w''.Faulty := by
      rw [World.Faulty, fails', fails]
      exact reliable
    -- the table that has just been saved is found, with the latest initialisation vector
    obtain ⟨table, -, -, here, tagged, version, -, -, only⟩ := (run' eq).active closed
    cases held.symm.trans here
    have chosen := chosen_of_current store'' held tagged version only
    refine (distinct''.prepare store'' reliable' (fun none ↦ ?_) fun active table chosen' ↦ ?_).mono
      fun _ _ _ _ post ok ↦ ⟨post.2.2 ok, post.2.1⟩
    · exact absurd (chosen.symm.trans none) (by rintro ⟨⟩)
    · cases chosen.symm.trans chosen'
      rw [iv_eq]
      exact fresh'.2
  · exact ⟨⟨store', distinct'⟩, fun eq ↦ ⟨run eq, fresh⟩⟩

/-! ## Runs -/

end

end TrustedFirmwareM.Ps
