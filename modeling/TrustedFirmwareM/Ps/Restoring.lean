import TrustedFirmwareM.Ps.Faultless

/-!
# The table in memory after a failed update

An update of the object table changes the entries in memory first and puts them back when the save
fails.  It restores the table, and the clean-up spares the files in use, exactly when the file of
the update belongs to a free entry.
-/

namespace TrustedFirmwareM.Ps

open Program

variable {Tag : Type} {m : ℕ}

/-- The same entries are live, with the same contents. -/
def SameLive (db db' : Fin (m + 1) → Entry Tag) : Prop :=
  ∀ i, db' i = db i ∨ (db i).uid = tfmPsInvalidUid ∧ (db' i).uid = tfmPsInvalidUid

/-- The table in memory and the files of its entries are as before. -/
structure Restored (ram : Ram Tag m) (w : World Tag m) (ram' : Ram Tag m) (w' : World Tag m) :
    Prop where
  /-- The same entries are live. -/
  live : SameLive ram.objTable.data.objDb ram'.objTable.data.objDb
  /-- Their files are as before. -/
  files : ∀ i, (ram.objTable.data.objDb i).uid ≠ tfmPsInvalidUid →
    w'.objects (psObjectFsId i) = w.objects (psObjectFsId i)

theorem SameLive.refl (db : Fin (m + 1) → Entry Tag) : SameLive db db := fun _ ↦ .inl rfl

/-! ## What a save leaves alone -/

section

variable {cfg : Config} {crypto : Crypto Tag m} {ram : Ram Tag m} {w : World Tag m}

/-- A save, successful or not, changes neither the entries in memory nor object files. -/
theorem returns_saveTable_frame :
    Returns (Op.handle cfg) (psObjectTableSaveTable cfg crypto) (fun _ ram' w' ↦
      ram'.objTable.data = ram.objTable.data ∧ ram'.fid = ram.fid ∧ w'.objects = w.objects)
      ram w := by
  have spec : Spec (Op.handle cfg) (fun _ ↦ True) (psObjectTableSaveTable cfg crypto)
      (fun _ ram' w' ↦ ram'.objTable.data = ram.objTable.data ∧ ram'.fid = ram.fid ∧
        w'.objects = w.objects) ram w :=
    spec_saveTable (fun _ ↦ ⟨trivial, fun _ _ _ ↦ ⟨rfl, rfl, rfl⟩⟩)
      (fun _ _ ↦ ⟨trivial, fun _ _ _ ↦ ⟨rfl, rfl, rfl⟩⟩)
      (fun _ _ ↦ ⟨trivial, by rintro _ _ - (⟨-, rfl⟩ | ⟨_, -, rfl, -⟩) <;> exact ⟨rfl, rfl, rfl⟩⟩)
      (fun _ _ _ _ ↦ ⟨trivial, by rintro _ _ - (rfl | rfl) - <;> exact ⟨rfl, rfl, rfl⟩⟩)
      (fun _ _ _ _ _ _ _ _ ↦ ⟨trivial, fun _ _ _ ↦ ⟨rfl, rfl, rfl⟩⟩)
      (fun _ _ _ _ ↦ ⟨trivial, fun _ ↦ ⟨rfl, rfl, rfl⟩⟩)
  exact spec.returns total_psObjectTableSaveTable

/-! ## What the rollback leaves -/

variable [Inhabited Tag]

/-- The entries after `ps_object_table_set_obj_tbl_info` has failed. -/
def rolledBack (db : Fin (m + 1) → Entry Tag) (old : Option (Fin (m + 1))) (idx : Fin (m + 1)) :
    Fin (m + 1) → Entry Tag :=
  match old with
  | some old =>
      if (db old).uid = tfmPsInvalidUid then
        Function.update (Function.update db old .empty) idx .empty
      else Function.update db idx .empty
  | none => Function.update db idx .empty

theorem rolledBack_idx (db : Fin (m + 1) → Entry Tag) (old : Option (Fin (m + 1)))
    (idx : Fin (m + 1)) : (rolledBack db old idx idx).uid = tfmPsInvalidUid := by
  rw [rolledBack.eq_def]
  split
  · split <;> rw [Function.update_self] <;> rfl
  · rw [Function.update_self]
    rfl

/-- The rollback empties the entry of the new file and keeps every other live entry. -/
theorem sameLive_rolledBack (db : Fin (m + 1) → Entry Tag) (old : Option (Fin (m + 1)))
    (idx : Fin (m + 1)) :
    SameLive db (rolledBack db old idx) ↔ (db idx).uid = tfmPsInvalidUid := by
  constructor
  · intro same
    rcases same idx with eq | free
    · rw [← eq]
      exact rolledBack_idx db old idx
    · exact free.1
  · intro free i
    by_cases here : i = idx
    · subst here
      exact .inr ⟨free, rolledBack_idx db old i⟩
    · rw [rolledBack.eq_def]
      split
      · next old =>
          split
          · next unused =>
              rw [Function.update_of_ne here]
              by_cases first : i = old
              · subst first
                rw [Function.update_self]
                exact .inr ⟨unused, rfl⟩
              · exact .inl (Function.update_of_ne first ..)
          · exact .inl (Function.update_of_ne here ..)
      · exact .inl (Function.update_of_ne here ..)

omit [Inhabited Tag] in
/-- Putting an entry back undoes its removal, whatever else has changed. -/
theorem update_restored (db : Fin (m + 1) → Entry Tag) (old idx : Fin (m + 1))
    (removed added last : Entry Tag) :
    Function.update
      (Function.update (Function.update (Function.update db old removed) idx added) old
      (db old)) idx last = Function.update db idx last := by
  funext i
  by_cases here : i = idx
  · rw [here, Function.update_self, Function.update_self]
  · rw [Function.update_of_ne here, Function.update_of_ne here]
    by_cases first : i = old
    · rw [first, Function.update_self]
    · rw [Function.update_of_ne first, Function.update_of_ne here, Function.update_of_ne first]

/-- A failed update leaves the rolled back entries, and object files as they were. -/
theorem returns_setObjTblInfo_failed (uid : Uid) (clientId : ℤ) {idx : Fin (m + 1)}
    (fid : ram.fid = psObjectFsId idx) :
    Returns (Op.handle cfg) (psObjectTableSetObjTblInfo cfg crypto uid clientId)
      (fun err ram' w' ↦ err ≠ .success →
        ram'.objTable.data.objDb = rolledBack ram.objTable.data.objDb
          (psGetObjectEntryIdx ram.objTable.data.objDb uid clientId) idx ∧
        ram'.fid = ram.fid ∧ w'.objects = w.objects) ram w := by
  rw [psObjectTableSetObjTblInfo, returns_bind, returns_get, returns_bind, returns_modify,
    returns_bind, fid, psObjectFsIdToIdx_psObjectFsId]
  cases psGetObjectEntryIdx ram.objTable.data.objDb uid clientId with
  | none =>
      refine returns_saveTable_frame.mono fun err ram' w' frame ↦ ?_
      obtain ⟨data, fid', objects⟩ := frame
      split
      · next success => exact fun failed ↦ absurd success failed
      · refine fun _ ↦ ⟨?_, fid'.trans fid, objects⟩
        dsimp only [Option.map_none, Ram.setEntry, rolledBack] at data ⊢
        rw [data, Function.update_idem]
  | some old =>
      refine returns_saveTable_frame.mono fun err ram' w' frame ↦ ?_
      obtain ⟨data, fid', objects⟩ := frame
      split
      · next success => exact fun failed ↦ absurd success failed
      · rw [returns_bind, returns_modify]
        intro _
        dsimp only [Option.map_some, Ram.setEntry, rolledBack] at data ⊢
        by_cases unused : (ram.objTable.data.objDb old).uid = tfmPsInvalidUid
        · rw [if_neg (not_not.2 unused), if_pos unused]
          refine ⟨?_, fid'.trans fid, objects⟩
          dsimp only
          rw [data, Function.update_idem]
        · rw [if_pos unused, if_neg unused]
          refine ⟨?_, fid'.trans fid, objects⟩
          dsimp only
          rw [data]
          exact update_restored ..

/-- A failed removal of an entry leaves the entries and object files as they were. -/
theorem returns_deleteObject_failed (uid : Uid) (clientId : ℤ) :
    Returns (Op.handle cfg) (psObjectTableDeleteObject cfg crypto uid clientId)
      (fun err ram' w' ↦ err ≠ .success →
        ram'.objTable.data.objDb = ram.objTable.data.objDb ∧ w'.objects = w.objects) ram w := by
  rw [psObjectTableDeleteObject, returns_bind, returns_get]
  cases psGetObjectEntryIdx ram.objTable.data.objDb uid clientId with
  | none => exact fun _ ↦ ⟨rfl, rfl⟩
  | some idx =>
      dsimp only
      rw [returns_bind, returns_modify, returns_bind]
      refine returns_saveTable_frame.mono fun err ram' w' frame ↦ ?_
      obtain ⟨data, -, objects⟩ := frame
      split
      · next success => exact fun failed ↦ absurd success failed
      · rw [returns_bind, returns_modify]
        refine fun _ ↦ ⟨?_, objects⟩
        dsimp only [Ram.setEntry] at data ⊢
        rw [data, Function.update_idem, Function.update_eq_self]

omit [Inhabited Tag] in
/-- The clean-up of a failed update removes at most the file of the update. -/
theorem handle_removeObject_of_ne (cfg : Config) (w : World Tag m) {fid other : ℕ}
    (ne : other ≠ fid) :
    ((Op.removeObject fid).handle cfg w).2.objects other = w.objects other := by
  simp only [Op.handle, Op.isInternal, Bool.false_eq_true, if_false]
  split
  · rfl
  · simp only [Op.perform]
    split
    · rfl
    · exact Function.update_of_ne ne ..

/-! ## Updates and removals -/

/-- An update that fails, with the clean-up of `ps_update_table`, restores the table in memory and
spares the files in use if and only if the entry of its file was free.  A removal that fails always
restores the table. -/
theorem restored_iff (cfg : Config) (crypto : Crypto Tag m) (uid : Uid) (clientId : ℤ)
    (ram : Ram Tag m) (w : World Tag m) (idx : Fin (m + 1)) (fid : ram.fid = psObjectFsId idx) :
    Returns (Op.handle cfg) (psObjectTableSetObjTblInfo cfg crypto uid clientId)
      (fun err ram' w' ↦ err ≠ .success →
        let w'' := ((Op.removeObject ram.fid).handle cfg w').2
        (psUpdateTable cfg crypto uid clientId ram).run (Op.handle cfg) w =
          (some (err, ram'), w'') ∧
        (∀ file, file ≠ ram.fid → w''.objects file = w.objects file) ∧
        (Restored ram w ram' w'' ↔ (ram.objTable.data.objDb idx).uid = tfmPsInvalidUid)) ram w ∧
    Returns (Op.handle cfg) (psObjectTableDeleteObject cfg crypto uid clientId)
      (fun err ram' w' ↦ err ≠ .success →
        Restored ram w ram' w' ∧ w'.objects = w.objects) ram w := by
  refine ⟨?_, (returns_deleteObject_failed uid clientId).mono fun err ram' w' failed ne ↦ ?_⟩
  · refine (returns_setObjTblInfo_failed uid clientId fid).runs.mono fun err ram' w' post ne ↦ ?_
    obtain ⟨run, failed⟩ := post
    obtain ⟨db, fid', objects⟩ := failed ne
    have others : ∀ file, file ≠ ram.fid →
        ((Op.removeObject ram.fid).handle cfg w').2.objects file = w.objects file := by
      intro file other
      rw [handle_removeObject_of_ne cfg w' other, objects]
    refine ⟨?_, others, fun restored ↦ ?_, fun free ↦ ⟨?_, fun i used ↦ others _ ?_⟩⟩
    · refine (Prog.run_bind run).trans ?_
      dsimp only
      rw [if_neg ne, ← fid']
      rfl
    · have live := restored.live
      rw [db] at live
      exact (sameLive_rolledBack ..).1 live
    · rw [db]
      exact (sameLive_rolledBack ..).2 free
    · rw [fid, Ne, psObjectFsId_inj]
      rintro rfl
      exact used free
  · obtain ⟨db, objects⟩ := failed ne
    exact ⟨⟨db ▸ .refl _, fun _ _ ↦ congrFun objects _⟩, objects⟩

end

/-- Incrementing the first counter fails. -/
def firstFails : Op Tag m → ℕ → Bool
  | .incrementNvCounter c, _ => c = 0
  | _, _ => false

/-- Encryptions fail. -/
def encryptionFails : Op Tag m → ℕ → Bool
  | .encrypted _, _ => true
  | _, _ => false

/-- A memory whose table has one live entry, and the update of another object in the free entry. -/
def sampleRam : Ram Code 1 :=
  { (Ram.reset : Ram Code 1).setEntry (1 : Fin 2) ⟨.nat 0, 0, 7, 5⟩ with
    fid := psObjectFsId (m := 1) (0 : Fin 2) }

/-- The update fails, and its clean-up leaves the entries and files as they were. -/
def SampleRestored (fails : Op Code 1 → ℕ → Bool) : Prop :=
  ∃ ram' w', (psObjectTableSetObjTblInfo sampleConfig sampleCrypto 8 5 sampleRam).run
      (Op.handle sampleConfig) (World.blank.arm fails) = (some (.genericError, ram'), w') ∧
    Restored sampleRam (World.blank.arm fails) ram'
      ((Op.removeObject sampleRam.fid).handle sampleConfig w').2

/-- The first counter or the tag of the table fails during the update of the free entry. -/
theorem restored_sampleRam : SampleRestored firstFails ∧ SampleRestored encryptionFails := by
  have restores (fails : Op Code 1 → ℕ → Bool)
      (failed : ((psObjectTableSetObjTblInfo sampleConfig sampleCrypto 8 5 sampleRam).run
        (Op.handle sampleConfig) (World.blank.arm fails)).1.map Prod.fst = some .genericError) :
      SampleRestored fails := by
    obtain ⟨⟨err, ram'⟩, w', run, post⟩ := (restored_iff sampleConfig sampleCrypto 8 5 sampleRam
      (World.blank.arm fails) 0 rfl).1.run
    rw [run] at failed
    cases failed
    exact ⟨ram', w', run, (post (by rintro ⟨⟩)).2.2.2 rfl⟩
  exact ⟨restores firstFails rfl, restores encryptionFails rfl⟩

/-- An object that may be written once is set again, and saving the table fails.  The refused
request drops the entry of the object in memory and removes its file. -/
theorem not_restored :
    ¬∀ x y, Run.Reaches (step sampleConfig sampleCrypto) (fun _ a ↦ a.Honest) ⟨.blank, none⟩ x →
      ∀ r fails ram ram', step sampleConfig sampleCrypto x (.request r fails none) = some y →
        x.ram = some ram → y.ram = some ram' → y.world.written = x.world.written →
          Restored ram x.world ram' (y.world : World Code 1) := by
  intro restores
  have lost : (sampleRun [.boot noFails none, .request (.set 5 7 1 1 [1]) noFails none]).any
      (fun x ↦ (step sampleConfig sampleCrypto x (.request (.set 5 7 1 0 [2]) firstFails none)).any
        fun y ↦ y.world.written = x.world.written ∧ x.ram.any (fun ram ↦ y.ram.any fun ram' ↦
          (ram.objTable.data.objDb 1).uid = 7 ∧ (ram'.objTable.data.objDb 1).uid = 0)) = true := by
    decide +kernel
  obtain ⟨x, run, lost⟩ := (Option.any_eq_true ..).1 lost
  obtain ⟨y, step_eq, lost⟩ := (Option.any_eq_true ..).1 lost
  obtain ⟨written, lost⟩ := of_decide_eq_true lost
  obtain ⟨ram, here, lost⟩ := (Option.any_eq_true ..).1 lost
  obtain ⟨ram', there, lost⟩ := (Option.any_eq_true ..).1 lost
  obtain ⟨used, free⟩ := of_decide_eq_true lost
  have reaches : Run.Reaches (step sampleConfig sampleCrypto) (fun _ a ↦ a.Honest)
      ⟨.blank, none⟩ x :=
    Run.exec_reaches run ⟨rfl, fun _ _ ↦ ⟨rfl, fun _ _ ↦ trivial⟩⟩
  have restored := restores x y reaches _ _ ram ram' step_eq here there written
  rcases restored.live 1 with same | unused
  · rw [same, used] at free
    cases free
  · rw [used] at unused
    cases unused.1

end TrustedFirmwareM.Ps
