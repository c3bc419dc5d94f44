import TrustedFirmwareM.Ps.System

/-!
# What a save and a boot do to the storage

A save passes through a fixed sequence of worlds, and a boot only removes a table file and raises
counters.  The rules below reduce specifications of the functions to facts about these worlds.
-/

namespace TrustedFirmwareM.Ps

open Program

variable {Tag : Type} {m : ℕ} {cfg : Config} {crypto : Crypto Tag m} {C : World Tag m → Prop}

/-- Some operations have been issued. -/
def World.tick (w : World Tag m) (k : ℕ) : World Tag m := { w with ops := k }

/-- One of the two other counters has been raised. -/
def World.raise (w : World Tag m) (c : Fin 3) (j : ℕ) : World Tag m :=
  { w with nvc := Function.update w.nvc c (w.nvc c + j) }

theorem World.tick_tick (w : World Tag m) (k l : ℕ) : (w.tick k).tick l = w.tick l := rfl

theorem World.tick_ops (w : World Tag m) : w.tick w.ops = w := rfl

theorem World.tick_raise (w : World Tag m) (c : Fin 3) (j k : ℕ) :
    (w.tick k).raise c j = (w.raise c j).tick k := rfl

theorem World.raise_zero (w : World Tag m) (c : Fin 3) : w.raise c 0 = w := by
  simp [World.raise]

theorem World.raise_raise (w : World Tag m) (c : Fin 3) (i j : ℕ) :
    (w.raise c i).raise c j = w.raise c (i + j) := by
  simp [World.raise, Nat.add_assoc]

/-! ## Operations -/

/-- Operations on object files and keys change these files and the record of decryptions only. -/
theorem handle_object (cfg : Config) {o : Op Tag m} (object : o.isObject = true) (w : World Tag m) :
    ∃ objects decryptions k, (o.handle cfg w).2 =
      { w with objects := objects, decryptions := decryptions, ops := k } := by
  rw [Op.handle]
  split
  · cases o with
    | mark save => cases object
    | _ => contradiction
  · split
    · cases o with
      | decrypted decryption => exact ⟨w.objects, _, w.ops + 1, rfl⟩
      | encrypted encryption => cases object
      | _ => exact ⟨w.objects, w.decryptions, w.ops + 1, rfl⟩
    · cases o with
      | setObject fid file => exact ⟨_, w.decryptions, w.ops + 1, rfl⟩
      | removeObject fid =>
          simp only [Op.perform]
          split
          · exact ⟨w.objects, w.decryptions, w.ops + 1, rfl⟩
          · exact ⟨_, w.decryptions, w.ops + 1, rfl⟩
      | decrypted decryption => exact ⟨w.objects, _, w.ops + 1, rfl⟩
      | getObject _ | setKey _ | destroyKey => exact ⟨w.objects, w.decryptions, w.ops + 1, rfl⟩
      | _ => cases object

/-- An encryption is recorded, also if it fails. -/
theorem handle_encrypted (cfg : Config) (e : Encryption Tag m) (w : World Tag m) :
    ((Op.encrypted e).handle cfg w).2 =
      { w with encryptions := e :: w.encryptions, ops := w.ops + 1 } := by
  rw [Op.handle, if_neg (by rintro ⟨⟩)]
  split <;> rfl

/-- An operation fails or is performed. -/
theorem spec_op {o : Op Tag m} {Q : o.Result → Ram Tag m → World Tag m → Prop} {ram : Ram Tag m}
    {w : World Tag m} (external : o.isInternal = false) (before : C w)
    (fail : w.fails o w.ops = true → C (o.attempt (w.tick (w.ops + 1))) ∧
      Q o.failure ram (o.attempt (w.tick (w.ops + 1))))
    (perform : C (o.perform cfg (w.tick (w.ops + 1))).2 ∧
      Q (o.perform cfg (w.tick (w.ops + 1))).1 ram (o.perform cfg (w.tick (w.ops + 1))).2) :
    Spec (Op.handle cfg) C (Proc.call o) Q ram w := by
  rw [spec_call, Op.handle, external]
  refine ⟨before, ?_⟩
  cases fails : w.fails o w.ops with
  | true => exact fail fails
  | false => exact perform

theorem spec_mark {s : Save Tag m} {Q : Unit → Ram Tag m → World Tag m → Prop}
    {ram : Ram Tag m} {w : World Tag m} (before : C w)
    (after : C { w with saves := s :: w.saves } ∧ Q () ram { w with saves := s :: w.saves }) :
    Spec (Op.handle cfg) C (mark s) Q ram w := ⟨before, after⟩

theorem spec_onSuccess {err : Status} {next : PsM Tag m Status}
    {Q : Status → Ram Tag m → World Tag m → Prop} {ram : Ram Tag m} {w : World Tag m}
    (success : err = .success → Spec (Op.handle cfg) C next Q ram w)
    (failure : err ≠ .success → C w ∧ Q err ram w) :
    Spec (Op.handle cfg) C (onSuccess err next) Q ram w := by
  rw [onSuccess]
  split
  · next eq => exact success eq
  · next ne => exact failure ne

/-! ## Aligning counters -/

/-- Writing a file. -/
def Op.isSet : Op Tag m → Bool
  | .setTable _ _ | .setObject _ _ => true
  | _ => false

/-- A call of the crypto service. -/
def Op.isCrypto : Op Tag m → Bool
  | .setKey _ | .encrypted _ | .decrypted _ | .destroyKey => true
  | _ => false

/-- An operation may fail that neither writes a file nor calls the crypto service. -/
def World.Faulty (w : World Tag m) : Prop :=
  ∃ o k, o.isSet = false ∧ o.isCrypto = false ∧ w.fails o k = true

/-- Reading and incrementing the counters that follow the first one. -/
def Op.isAlign : Op Tag m → Bool
  | .readNvCounter c | .incrementNvCounter c => c ≠ 0
  | _ => false

/-- An operation of some kind has failed among those issued up to a number. -/
def World.Failed (w : World Tag m) (k : ℕ) (kind : Op Tag m → Prop) : Prop :=
  ∃ o j, kind o ∧ w.ops ≤ j ∧ j < k ∧ w.fails o j = true

theorem World.Failed.faulty {w : World Tag m} {k : ℕ} {kind : Op Tag m → Prop}
    (failed : w.Failed k kind) (other : ∀ o, kind o → o.isSet = false ∧ o.isCrypto = false) :
    w.Faulty := by
  obtain ⟨o, j, kind, -, -, fails⟩ := failed
  exact ⟨o, j, (other o kind).1, (other o kind).2, fails⟩

theorem World.Failed.of_tick {w : World Tag m} {k l : ℕ} {kind : Op Tag m → Prop}
    (le : w.ops ≤ l) (failed : (w.tick l).Failed k kind) : w.Failed k kind := by
  obtain ⟨o, j, kind, le', lt, fails⟩ := failed
  exact ⟨o, j, kind, le.trans le', lt, fails⟩

/-- Why aligning the counters with a value can fail. -/
def CountersFail (cfg : Config) (w : World Tag m) (nvc1 k : ℕ) : Prop :=
  w.Failed k (fun o ↦ o.isAlign = true) ∨ cfg.nvMax < nvc1

theorem CountersFail.faulty {w : World Tag m} {nvc1 k : ℕ} (fault : CountersFail cfg w nvc1 k) :
    w.Faulty ∨ cfg.nvMax < nvc1 := by
  refine fault.imp_left fun failed ↦ failed.faulty fun o align ↦ ?_
  cases o with
  | readNvCounter c | incrementNvCounter c => exact ⟨rfl, rfl⟩
  | _ => cases align

section

variable {Q : Status → Ram Tag m → World Tag m → Prop} {ram : Ram Tag m}

theorem spec_readNvCounter {c : Fin 3} {Q : Except Status ℕ → Ram Tag m → World Tag m → Prop}
    {w : World Tag m} (before : ∀ k, C (w.tick k))
    (fail : ∀ k, w.Failed k (fun o ↦ o = .readNvCounter c) →
      Q (.error .genericError) ram (w.tick k))
    (ok : ∀ k, w.ops ≤ k → Q (.ok (w.nvc c)) ram (w.tick k)) :
    Spec (Op.handle cfg) C (psReadNvCounter c) Q ram w :=
  spec_op rfl (before w.ops)
    (fun fails ↦ ⟨before _, fail _ ⟨_, _, rfl, le_rfl, Nat.lt_succ_self _, fails⟩⟩)
    ⟨before _, ok _ (Nat.le_succ _)⟩

theorem spec_incrementBy {c : Fin 3} (other : c ≠ 0) {n nvc1 : ℕ} {w : World Tag m}
    (goal : 0 < n → w.nvc c + n ≤ nvc1)
    (crash : ∀ j k, j ≤ n → C ((w.raise c j).tick k))
    (failure : ∀ j k, j ≤ n → CountersFail cfg w nvc1 k →
      Q .genericError ram ((w.raise c j).tick k))
    (success : ∀ k, w.ops ≤ k → Q .success ram ((w.raise c n).tick k)) :
    Spec (Op.handle cfg) C (incrementBy c n) Q ram w := by
  have here : C w := by simpa only [World.raise_zero, World.tick_ops] using crash 0 w.ops n.zero_le
  induction n generalizing w with
  | zero =>
      refine ⟨here, ?_⟩
      simpa only [World.raise_zero, World.tick_ops] using success w.ops le_rfl
  | succ n ih =>
      have stay := fun fault ↦ failure 0 (w.ops + 1) (Nat.zero_le _) fault
      have stays := crash 0 (w.ops + 1) (Nat.zero_le _)
      rw [World.raise_zero] at stay stays
      rw [incrementBy, spec_bind]
      refine spec_op rfl here (fun fails ↦ ⟨stays, ?_⟩) ?_
      · exact spec_onSuccess (fun eq ↦ by cases eq) fun _ ↦
          ⟨stays, stay (.inl ⟨.incrementNvCounter c, w.ops, decide_eq_true other, le_rfl,
            Nat.lt_succ_self _, fails⟩)⟩
      · simp only [Op.perform, other, if_false]
        split
        · next room =>
            have raised : C ((w.raise c 1).tick (w.ops + 1)) := crash 1 _ (by omega)
            refine ⟨raised, spec_onSuccess (fun _ ↦ ?_) fun ne ↦ absurd rfl ne⟩
            refine ih (w := (w.raise c 1).tick (w.ops + 1)) ?_ ?_ ?_ ?_ raised
            · intro _
              simp only [World.raise, World.tick, Function.update_self]
              omega
            · intro j k le
              rw [World.tick_raise, World.raise_raise, World.tick_tick]
              exact crash (1 + j) k (by omega)
            · intro j k le fault
              rw [World.tick_raise, World.raise_raise, World.tick_tick]
              refine failure (1 + j) k (by omega) (fault.imp_left fun failed ↦ ?_)
              exact failed.of_tick (w := w.raise c 1) (Nat.le_succ _)
            · intro k le
              rw [World.tick_raise, World.raise_raise, World.tick_tick, Nat.add_comm]
              exact success k (Nat.le_of_succ_le le)
        · next full =>
            refine ⟨stays, spec_onSuccess (fun eq ↦ by cases eq) fun _ ↦ ⟨stays, stay (.inr ?_)⟩⟩
            change ¬w.nvc c < cfg.nvMax at full
            have := goal n.succ_pos
            omega

theorem spec_alignNvCounter {c : Fin 3} (other : c ≠ 0) {nvc1 : ℕ} {w : World Tag m}
    (crash : ∀ j k, j ≤ nvc1 - w.nvc c → C ((w.raise c j).tick k))
    (failure : ∀ j k, j ≤ nvc1 - w.nvc c → CountersFail cfg w nvc1 k →
      Q .genericError ram ((w.raise c j).tick k))
    (success : ∀ k, w.ops ≤ k → Q .success ram ((w.raise c (nvc1 - w.nvc c)).tick k)) :
    Spec (Op.handle cfg) C (alignNvCounter c nvc1) Q ram w := by
  have here := fun k ↦ crash 0 k (Nat.zero_le _)
  simp only [World.raise_zero] at here
  rw [alignNvCounter, spec_bind]
  refine spec_readNvCounter here (fun k failed ↦ ⟨here k, ?_⟩) fun k le ↦ ?_
  · have fault : CountersFail cfg w nvc1 k := by
      obtain ⟨o, j, rfl, le, lt, fails⟩ := failed
      exact .inl ⟨.readNvCounter c, j, decide_eq_true other, le, lt, fails⟩
    simpa only [World.raise_zero] using failure 0 k (Nat.zero_le _) fault
  · refine spec_incrementBy (w := w.tick k) other (fun pos ↦ ?_) (fun j k ↦ crash j k)
      (fun j k le' fault ↦ failure j k le' (fault.imp_left fun failed ↦ failed.of_tick le))
      fun k' le' ↦ success k' (le.trans le')
    change 0 < nvc1 - w.nvc c at pos
    change w.nvc c + (nvc1 - w.nvc c) ≤ nvc1
    omega

/-- Aligning the counters raises the two others, at most up to the first one. -/
theorem spec_alignNvCounters {nvc1 : ℕ} {w : World Tag m}
    (crash : ∀ i j k, i ≤ nvc1 - w.nvc 1 → j ≤ nvc1 - w.nvc 2 →
      C (((w.raise 1 i).raise 2 j).tick k))
    (failure : ∀ i j k, i ≤ nvc1 - w.nvc 1 → j ≤ nvc1 - w.nvc 2 → CountersFail cfg w nvc1 k →
      Q .genericError ram (((w.raise 1 i).raise 2 j).tick k))
    (success : ∀ k, w.ops ≤ k → Q .success ram
      (((w.raise 1 (nvc1 - w.nvc 1)).raise 2 (nvc1 - w.nvc 2)).tick k)) :
    Spec (Op.handle cfg) C (psObjectTableAlignNvCounters nvc1) Q ram w := by
  have crash1 := fun i k le ↦ crash i 0 k le (Nat.zero_le _)
  simp only [World.raise_zero] at crash1
  rw [psObjectTableAlignNvCounters, spec_bind]
  refine spec_alignNvCounter (by decide) crash1 (fun i k le fault ↦ ?_) fun k le ↦ ?_
  · refine spec_onSuccess (fun eq ↦ by cases eq) fun _ ↦ ⟨crash1 i k le, ?_⟩
    simpa only [World.raise_zero] using failure i 0 k le (Nat.zero_le _) fault
  · refine spec_onSuccess (fun _ ↦ ?_) fun ne ↦ absurd rfl ne
    exact spec_alignNvCounter (w := (w.raise 1 (nvc1 - w.nvc 1)).tick k) (by decide)
      (fun j k le' ↦ crash _ j k le_rfl le') (fun j k le' fault ↦ failure _ j k le_rfl le'
        (fault.imp_left fun failed ↦ failed.of_tick (w := w.raise 1 (nvc1 - w.nvc 1)) le))
      fun k' le' ↦ success k' (le.trans le')

end

/-! ## Saving -/

/-- The first counter has been incremented. -/
def World.counted (w : World Tag m) : World Tag m :=
  { w with nvc := Function.update w.nvc 0 (w.nvc 0 + 1), window := true }

/-- The save of some data has begun. -/
def World.begun (w : World Tag m) (data : TableData Tag m) : World Tag m :=
  { w.counted with saves := .saving (w.nvc 0 + 1) data :: w.saves }

/-- Associated data of the table that is saved. -/
def World.savedAd (w : World Tag m) (data : TableData Tag m) : Ad Tag m := .table data (w.nvc 0 + 1)

/-- The tag of the table has been generated. -/
def World.authenticated (w : World Tag m) (cfg : Config) (table : Table Tag m) (iv : Iv) :
    World Tag m :=
  { w.begun table.data with encryptions :=
      ⟨tableLabel cfg table.gen, iv, w.savedAd table.data, none⟩ :: w.encryptions }

/-- The table with its tag. -/
def World.savedTable (w : World Tag m) (cfg : Config) (crypto : Crypto Tag m) (table : Table Tag m)
    (iv : Iv) : Table Tag m :=
  { table with
    iv := iv
    tag := crypto.authTag (tableLabel cfg table.gen) iv (w.savedAd table.data) }

/-- The table has been written to a file. -/
def World.stored (w : World Tag m) (cfg : Config) (crypto : Crypto Tag m) (i : Fin 2)
    (table : Table Tag m) (iv : Iv) : World Tag m :=
  { w.authenticated cfg table iv with
    tables := Function.update w.tables i (some (w.savedTable cfg crypto table iv))
    written := w.savedTable cfg crypto table iv :: w.written
    window := false }

/-- The save has been completed. -/
def World.completed (w : World Tag m) (cfg : Config) (crypto : Crypto Tag m) (i : Fin 2)
    (table : Table Tag m) (iv : Iv) : World Tag m :=
  let aligned := ((w.stored cfg crypto i table iv).raise 1 (w.nvc 0 + 1 - w.nvc 1)).raise 2
    (w.nvc 0 + 1 - w.nvc 2)
  { aligned with saves := .saved (w.nvc 0 + 1) table.data :: aligned.saves }

/-- The memory after the tag of the table has been generated. -/
def Ram.authenticated (ram : Ram Tag m) (cfg : Config) (crypto : Crypto Tag m) (w : World Tag m)
    (iv : Iv) : Ram Tag m :=
  { ram with ivBuf := iv, objTable := w.savedTable cfg crypto ram.objTable iv }

/-- The memory after the next initialisation vector has been taken for the table. -/
def Ram.taken (ram : Ram Tag m) (iv : Iv) : Ram Tag m :=
  { ram with ivBuf := iv, objTable := { ram.objTable with iv := iv } }

/-- The memory after the table has been written. -/
def Ram.switched (ram : Ram Tag m) : Ram Tag m :=
  { ram with scratchTable := ram.activeTable, activeTable := ram.scratchTable }

/-- An encryption has taken place. -/
def World.encrypted (w : World Tag m) (e : Encryption Tag m) : World Tag m :=
  { w with encryptions := e :: w.encryptions }

theorem spec_aeadEncrypt {Q : Status → Ram Tag m → World Tag m → Prop} {ram : Ram Tag m}
    {w : World Tag m} {e : Encryption Tag m} (before : C w) (used : ∀ k, C ((w.encrypted e).tick k))
    (fail : w.fails (.encrypted e) w.ops = true →
      Q .genericError ram ((w.encrypted e).tick (w.ops + 1)))
    (ok : Q .success ram ((w.encrypted e).tick (w.ops + 1))) :
    Spec (Op.handle cfg) C (psaAeadEncrypt e) Q ram w :=
  spec_op rfl before (fun fails ↦ ⟨used _, fail fails⟩) ⟨used _, ok⟩

/-- The outputs of an encryption are in place unless the key cannot be set up or the encryption
fails. -/
theorem spec_encryptWithKey {Q : Status → Ram Tag m → World Tag m → Prop} {ram : Ram Tag m}
    {w : World Tag m} {e : Encryption Tag m} {output : Ram Tag m → Ram Tag m}
    (before : ∀ k, C (w.tick k)) (used : ∀ k, C ((w.encrypted e).tick k))
    (unkeyed : ∀ k, w.Failed k (fun o ↦ o.isCrypto = true) → Q .genericError ram (w.tick k))
    (failed : ∀ k, w.Failed k (fun o ↦ o.isCrypto = true) →
      Q .genericError ram ((w.encrypted e).tick k))
    (kept : ∀ k, w.Failed k (fun o ↦ o.isCrypto = true) →
      Q .genericError (output ram) ((w.encrypted e).tick k))
    (success : ∀ k, w.ops ≤ k → Q .success (output ram) ((w.encrypted e).tick k)) :
    Spec (Op.handle cfg) C (encryptWithKey e output) Q ram w := by
  rw [encryptWithKey, spec_bind]
  refine spec_op rfl (before w.ops) (fun fails ↦ ⟨before _, ?_⟩) ⟨before _, ?_⟩
  · exact spec_onSuccess (fun eq ↦ by cases eq) fun _ ↦ ⟨before _, unkeyed _
      ⟨.setKey e.label, w.ops, rfl, le_rfl, Nat.lt_succ_self _, fails⟩⟩
  refine spec_onSuccess (fun _ ↦ ?_) fun ne ↦ absurd rfl ne
  rw [spec_bind]
  refine spec_aeadEncrypt (w := w.tick (w.ops + 1)) (before _) used (fun fails ↦ ?_) ?_
  · have reason : w.Failed (w.ops + 3) fun o ↦ o.isCrypto = true :=
      ⟨.encrypted e, w.ops + 1, rfl, Nat.le_succ _, Nat.lt_succ_of_lt (Nat.lt_succ_self _), fails⟩
    rw [if_pos (by decide), spec_bind]
    exact spec_op rfl (used _) (fun _ ↦ ⟨used _, used _, failed _ reason⟩)
      ⟨used _, used _, failed _ reason⟩
  · rw [if_neg (by decide), spec_bind, spec_modify, destroyKeyAfter, spec_bind]
    refine ⟨used _, spec_op rfl (used _) (fun fails ↦ ⟨used _, used _, ?_⟩) ⟨used _, used _, ?_⟩⟩
    · exact kept _ ⟨.destroyKey, w.ops + 2, rfl, Nat.le_add_right .., Nat.lt_succ_self _, fails⟩
    · exact success (w.ops + 3) (Nat.le_add_right ..)

theorem spec_generateAuthTag {Q : Status → Ram Tag m → World Tag m → Prop} {ram : Ram Tag m}
    {w : World Tag m} {nvc1 : ℕ} (before : ∀ k, C (w.tick k))
    (exhausted : psCryptoGetIv ram.ivBuf = none → Q .genericError ram w)
    (taken : ∀ iv, psCryptoGetIv ram.ivBuf = some iv → ∀ k,
      let label := tableLabel cfg ram.objTable.gen
      let ad := Ad.table ram.objTable.data nvc1
      let w' := (w.encrypted ⟨label, iv, ad, none⟩).tick k
      let tagged := { ram with
        ivBuf := iv
        objTable := { ram.objTable with iv := iv, tag := crypto.authTag label iv ad } }
      C w' ∧
      (w.Failed k (fun o ↦ o.isCrypto = true) → Q .genericError (ram.taken iv) (w.tick k) ∧
        Q .genericError (ram.taken iv) w' ∧ Q .genericError tagged w') ∧
      (w.ops ≤ k → Q .success tagged w')) :
    Spec (Op.handle cfg) C (psObjectTableNvcGenerateAuthTag cfg crypto nvc1) Q ram w := by
  have here := before w.ops
  rw [psObjectTableNvcGenerateAuthTag, spec_bind, spec_get]
  refine ⟨here, ?_⟩
  split
  · next none => exact ⟨here, exhausted none⟩
  · next iv get =>
      have taken := taken iv get
      rw [spec_bind, spec_modify, psCryptoGenerateAuthTag]
      exact ⟨here, spec_encryptWithKey before (fun k ↦ (taken k).1)
        (fun k failed ↦ ((taken k).2.1 failed).1) (fun k failed ↦ ((taken k).2.1 failed).2.1)
        (fun k failed ↦ ((taken k).2.1 failed).2.2) fun k ↦ (taken k).2.2⟩

theorem spec_writeTable {Q : Status → Ram Tag m → World Tag m → Prop} {ram : Ram Tag m}
    {w : World Tag m} (before : ∀ k, C (w.tick k))
    (failure : ∀ k, w.Failed k (fun o ↦ ∃ i table, o = .setTable i table) →
      Q .storageFailure ram (w.tick k))
    (success : ∀ k,
      let w' := { w with
        tables := Function.update w.tables ram.scratchTable (some ram.objTable)
        written := ram.objTable :: w.written
        window := false }
      C (w'.tick k) ∧ (w.ops ≤ k → Q .success ram.switched (w'.tick k))) :
    Spec (Op.handle cfg) C psObjectTableFsWriteTable Q ram w := by
  rw [psObjectTableFsWriteTable, spec_bind, spec_get]
  refine ⟨before w.ops, ?_⟩
  rw [spec_bind]
  refine spec_op rfl (before w.ops) (fun fails ↦ ⟨before _, ?_⟩) ⟨(success _).1, ?_⟩
  · exact spec_onSuccess (fun eq ↦ by cases eq) fun _ ↦ ⟨before _, failure _
      ⟨_, w.ops, ⟨_, _, rfl⟩, le_rfl, Nat.lt_succ_self _, fails⟩⟩
  · refine spec_onSuccess (fun _ ↦ ?_) fun ne ↦ absurd rfl ne
    rw [spec_bind]
    exact ⟨(success _).1, (success _).1, (success _).2 (Nat.le_succ _)⟩

/-- What a save calls between the two accesses to counters. -/
def Op.Saves (o : Op Tag m) : Prop := o.isCrypto = true ∨ ∃ i table, o = .setTable i table

/-- There is no initialisation vector for a tag, or the key for it cannot be set up. -/
def Ram.Untagged (ram : Ram Tag m) (w : World Tag m) (k : ℕ) (ram' : Ram Tag m) : Prop :=
  psCryptoGetIv ram.ivBuf = none ∧ ram' = ram ∨
    ∃ iv, psCryptoGetIv ram.ivBuf = some iv ∧ ram' = ram.taken iv ∧ w.Failed k Op.Saves

theorem World.Failed.imp {w : World Tag m} {k : ℕ} {kind kind' : Op Tag m → Prop}
    (failed : w.Failed k kind) (implies : ∀ o, kind o → kind' o) : w.Failed k kind' := by
  obtain ⟨o, j, kind, le, lt, fails⟩ := failed
  exact ⟨o, j, implies o kind, le, lt, fails⟩

theorem Ram.Untagged.of_tick {ram ram' : Ram Tag m} {w : World Tag m} {k l : ℕ} (le : w.ops ≤ l)
    (untagged : ram.Untagged (w.tick l) k ram') : ram.Untagged w k ram' := by
  refine untagged.imp_right ?_
  rintro ⟨iv, get, same, failed⟩
  exact ⟨iv, get, same, failed.of_tick le⟩

theorem spec_saveUnder {Q : Status → Ram Tag m → World Tag m → Prop} {ram : Ram Tag m}
    {w : World Tag m} (counted : C w.counted)
    (begun : ∀ k, C ((w.begun ram.objTable.data).tick k) ∧ ∀ err ram', err ≠ .success →
      ram.Untagged w k ram' → Q err ram' ((w.begun ram.objTable.data).tick k))
    (authenticated : ∀ iv, psCryptoGetIv ram.ivBuf = some iv → ∀ k,
      C ((w.authenticated cfg ram.objTable iv).tick k) ∧ ∀ err ram', err ≠ .success →
        ram' = ram.taken iv ∨ ram' = ram.authenticated cfg crypto w iv → w.Failed k Op.Saves →
        Q err ram' ((w.authenticated cfg ram.objTable iv).tick k))
    (stored : ∀ iv, psCryptoGetIv ram.ivBuf = some iv → ∀ i j k,
      i ≤ w.nvc 0 + 1 - w.nvc 1 → j ≤ w.nvc 0 + 1 - w.nvc 2 →
      C ((((w.stored cfg crypto ram.scratchTable ram.objTable iv).raise 1 i).raise 2 j).tick k) ∧
      ∀ err, err ≠ .success → CountersFail cfg w (w.nvc 0 + 1) k →
        Q err (ram.authenticated cfg crypto w iv).switched
          ((((w.stored cfg crypto ram.scratchTable ram.objTable iv).raise 1 i).raise 2 j).tick k))
    (completed : ∀ iv, psCryptoGetIv ram.ivBuf = some iv → ∀ k,
      C ((w.completed cfg crypto ram.scratchTable ram.objTable iv).tick k) ∧ (w.ops ≤ k →
        Q .success (ram.authenticated cfg crypto w iv).switched
          ((w.completed cfg crypto ram.scratchTable ram.objTable iv).tick k))) :
    Spec (Op.handle cfg) C (saveUnder cfg crypto (w.nvc 0 + 1)) Q ram w.counted := by
  rw [saveUnder, spec_bind, spec_get]
  refine ⟨counted, ?_⟩
  rw [spec_bind]
  refine spec_mark counted ⟨(begun w.ops).1, ?_⟩
  rw [spec_bind]
  refine spec_generateAuthTag (w := w.begun ram.objTable.data) (fun k ↦ (begun k).1) (fun none ↦ ?_)
    fun iv get k ↦ ?_
  · exact spec_onSuccess (fun eq ↦ by cases eq) fun ne ↦
      ⟨(begun w.ops).1, (begun w.ops).2 _ _ ne (.inl ⟨none, rfl⟩)⟩
  have authenticated := authenticated iv get
  have stored := stored iv get
  have completed := completed iv get
  have written := fun k ↦ (stored 0 0 k (Nat.zero_le _) (Nat.zero_le _)).1
  simp only [World.raise_zero] at written
  refine ⟨(authenticated k).1, fun failed ↦ ?_, fun le ↦ ?_⟩
  · have failed : w.Failed k Op.Saves := failed.imp fun _ ↦ .inl
    refine ⟨spec_onSuccess (fun eq ↦ by cases eq) fun ne ↦ ?_,
      spec_onSuccess (fun eq ↦ by cases eq) fun ne ↦ ?_,
      spec_onSuccess (fun eq ↦ by cases eq) fun ne ↦ ?_⟩
    · exact ⟨(begun k).1, (begun k).2 _ _ ne (.inr ⟨iv, get, rfl, failed⟩)⟩
    · exact ⟨(authenticated k).1, (authenticated k).2 _ _ ne (.inl rfl) failed⟩
    · exact ⟨(authenticated k).1, (authenticated k).2 _ _ ne (.inr rfl) failed⟩
  refine spec_onSuccess (fun _ ↦ ?_) fun ne ↦ absurd rfl ne
  rw [spec_bind]
  refine spec_writeTable (w := (w.authenticated cfg ram.objTable iv).tick k)
    (fun k ↦ (authenticated k).1) (fun k' failed ↦ ?_) fun k' ↦ ⟨written k', fun le' ↦ ?_⟩
  · have failed : w.Failed k' Op.Saves :=
      World.Failed.of_tick (w := w) le (failed.imp fun _ ↦ .inr)
    exact spec_onSuccess (fun eq ↦ by cases eq) fun ne ↦
      ⟨(authenticated k').1, (authenticated k').2 _ _ ne (.inr rfl) failed⟩
  have le : w.ops ≤ k' := le.trans le'
  refine spec_onSuccess (fun _ ↦ ?_) fun ne ↦ absurd rfl ne
  rw [spec_bind]
  refine spec_alignNvCounters
    (w := (w.stored cfg crypto ram.scratchTable ram.objTable iv).tick k')
    (fun i j k le le' ↦ (stored i j k le le').1) (fun i j k' le1 le2 fault ↦ ?_) fun k' le' ↦ ?_
  · exact spec_onSuccess (fun eq ↦ by cases eq) fun ne ↦ ⟨(stored i j k' le1 le2).1,
      (stored i j k' le1 le2).2 _ ne (fault.imp_left fun failed ↦ failed.of_tick (w := w) le)⟩
  · refine spec_onSuccess (fun _ ↦ ?_) fun ne ↦ absurd rfl ne
    rw [spec_bind]
    exact spec_mark (stored _ _ k' le_rfl le_rfl).1
      ⟨(completed k').1, (completed k').1, (completed k').2 (le.trans le')⟩

/-- A save passes through the worlds above.  In each of them it can stop, and there is a reason if
it does. -/
theorem spec_saveTable {Q : Status → Ram Tag m → World Tag m → Prop} {ram : Ram Tag m}
    {w : World Tag m}
    (idle : ∀ k, C (w.tick k) ∧ ∀ err, err ≠ .success →
      w.Failed k (fun o ↦ o = .incrementNvCounter 0) ∨ cfg.nvMax ≤ w.nvc 0 → Q err ram (w.tick k))
    (counted : w.nvc 0 < cfg.nvMax → ∀ k, C (w.counted.tick k) ∧ ∀ err, err ≠ .success →
      w.Failed k (fun o ↦ o = .readNvCounter 0) → Q err ram (w.counted.tick k))
    (begun : w.nvc 0 < cfg.nvMax → ∀ k, C ((w.begun ram.objTable.data).tick k) ∧
      ∀ err ram', err ≠ .success → ram.Untagged w k ram' →
        Q err ram' ((w.begun ram.objTable.data).tick k))
    (authenticated : w.nvc 0 < cfg.nvMax → ∀ iv, psCryptoGetIv ram.ivBuf = some iv → ∀ k,
      C ((w.authenticated cfg ram.objTable iv).tick k) ∧ ∀ err ram', err ≠ .success →
        ram' = ram.taken iv ∨ ram' = ram.authenticated cfg crypto w iv → w.Failed k Op.Saves →
        Q err ram' ((w.authenticated cfg ram.objTable iv).tick k))
    (stored : w.nvc 0 < cfg.nvMax → ∀ iv, psCryptoGetIv ram.ivBuf = some iv → ∀ i j k,
      i ≤ w.nvc 0 + 1 - w.nvc 1 → j ≤ w.nvc 0 + 1 - w.nvc 2 →
      C ((((w.stored cfg crypto ram.scratchTable ram.objTable iv).raise 1 i).raise 2 j).tick k) ∧
      ∀ err, err ≠ .success → CountersFail cfg w (w.nvc 0 + 1) k →
        Q err (ram.authenticated cfg crypto w iv).switched
          ((((w.stored cfg crypto ram.scratchTable ram.objTable iv).raise 1 i).raise 2 j).tick k))
    (completed : w.nvc 0 < cfg.nvMax → ∀ iv, psCryptoGetIv ram.ivBuf = some iv → ∀ k,
      C ((w.completed cfg crypto ram.scratchTable ram.objTable iv).tick k) ∧ (w.ops ≤ k →
        Q .success (ram.authenticated cfg crypto w iv).switched
          ((w.completed cfg crypto ram.scratchTable ram.objTable iv).tick k))) :
    Spec (Op.handle cfg) C (psObjectTableSaveTable cfg crypto) Q ram w := by
  rw [psObjectTableSaveTable, spec_bind]
  refine spec_op rfl (idle w.ops).1 (fun fails ↦ ⟨(idle _).1, ?_⟩) ?_
  · exact spec_onSuccess (fun eq ↦ by cases eq) fun ne ↦ ⟨(idle _).1, (idle _).2 _ ne
      (.inl ⟨_, w.ops, rfl, le_rfl, Nat.lt_succ_self _, fails⟩)⟩
  simp only [Op.perform]
  split
  case isFalse full =>
    exact ⟨(idle _).1, spec_onSuccess (fun eq ↦ by cases eq) fun ne ↦
      ⟨(idle _).1, (idle _).2 _ ne (.inr (Nat.le_of_not_lt full))⟩⟩
  case isTrue room =>
    have counted := counted room
    refine ⟨(counted _).1, spec_onSuccess (fun _ ↦ ?_) fun ne ↦ absurd rfl ne⟩
    rw [spec_bind]
    refine spec_readNvCounter (w := w.counted.tick (w.ops + 1)) (fun k ↦ (counted k).1)
      (fun k failed ↦ ⟨(counted k).1, (counted k).2 _ (by rintro ⟨⟩)
        (failed.of_tick (w := w) (Nat.le_succ _))⟩) fun k le ↦ ?_
    have le : w.ops ≤ k := Nat.le_of_succ_le le
    exact spec_saveUnder (w := w.tick k) (counted k).1
      (fun k' ↦ ⟨(begun room k').1, fun err ram' ne untagged ↦
        (begun room k').2 err ram' ne (untagged.of_tick (w := w) le)⟩)
      (fun iv get k' ↦ ⟨(authenticated room iv get k').1, fun err ram' ne same failed ↦
        (authenticated room iv get k').2 err ram' ne same (failed.of_tick (w := w) le)⟩)
      (fun iv get i j k' le1 le2 ↦ ⟨(stored room iv get i j k' le1 le2).1, fun err ne fault ↦
        (stored room iv get i j k' le1 le2).2 err ne
          (fault.imp_left fun failed ↦ failed.of_tick (w := w) le)⟩)
      fun iv get k' ↦ ⟨(completed room iv get k').1, fun le' ↦
        (completed room iv get k').2 (le.trans le')⟩

/-! ## Choosing a table -/

/-- A table carries the tag for a value of the first counter. -/
def Table.Tagged (table : Table Tag m) (cfg : Config) (crypto : Crypto Tag m) (nvc : ℕ) : Prop :=
  table.tag = crypto.authTag (tableLabel cfg table.gen) table.iv (.table table.data nvc)

theorem Table.Tagged.authentic_iff {table : Table Tag m} {v : ℕ}
    (tagged : table.Tagged cfg crypto v)
    (nvc : ℕ) : crypto.authentic (tableLabel cfg table.gen) table.iv (.table table.data nvc)
      table.tag = true ↔ nvc = v := by
  rw [tagged, crypto.authentic_authTag]
  simp

theorem Table.Tagged.unique {table : Table Tag m} {v v' : ℕ} (tagged : table.Tagged cfg crypto v)
    (tagged' : table.Tagged cfg crypto v') : v = v' :=
  (tagged'.authentic_iff v).1 ((tagged.authentic_iff v).2 rfl)

theorem tableState_eq_nvc1Valid {table : Table Tag m} {v nvc1 : ℕ} (nvc3 : ℕ)
    (tagged : table.Tagged cfg crypto v) :
    tableState cfg crypto nvc1 nvc3 (.ok table) = .nvc1Valid ↔
      table.data.version = psObjectSystemVersion ∧ nvc1 = v := by
  simp only [tableState, psObjectTableAuthenticate, tagged.authentic_iff]
  split
  · next bad => exact ⟨fun eq ↦ (by cases eq), fun ok ↦ absurd ok.1 bad⟩
  · next good =>
      rw [not_not] at good
      split
      · next eq => exact ⟨fun _ ↦ ⟨good, eq⟩, fun _ ↦ rfl⟩
      · next ne =>
          refine ⟨fun eq ↦ ?_, fun ok ↦ absurd ok.2 ne⟩
          split at eq
          · cases eq
          · split at eq <;> cases eq

/-- A table that is not refused carries the tag for the first counter, or for the third one if that
may be used. -/
theorem authentic_of_tableState {table : Table Tag m} {nvc1 nvc3 : ℕ}
    (state : tableState cfg crypto nvc1 nvc3 (.ok table) ≠ .invalid) :
    table.data.version = psObjectSystemVersion ∧ ∃ nvc, (nvc = nvc1 ∨ nvc = nvc3 ∧ nvc3 ≠ 0) ∧
      crypto.authentic (tableLabel cfg table.gen) table.iv
        (.table table.data nvc) table.tag = true := by
  simp only [tableState, psObjectTableAuthenticate] at state
  split at state
  · exact absurd rfl state
  · next version =>
      refine ⟨not_not.1 version, ?_⟩
      split at state
      · next authentic => exact ⟨nvc1, .inl rfl, authentic⟩
      · split at state
        · exact absurd rfl state
        · next positive =>
            split at state
            · next authentic => exact ⟨nvc3, .inr ⟨rfl, positive⟩, authentic⟩
            · exact absurd rfl state

theorem state_of_psSetActiveObjectTable {state0 state1 : TableState} {active : Fin 2}
    (set : psSetActiveObjectTable state0 state1 = some active) :
    (if active = 0 then state0 else state1) ≠ .invalid := by
  revert active
  cases state0 <;> cases state1 <;> decide

theorem psSetActiveObjectTable_of_current {state0 state1 : TableState} {active : Fin 2}
    (current : (if active = 0 then state0 else state1) = .nvc1Valid)
    (other : (if active = 0 then state1 else state0) ≠ .nvc1Valid) :
    psSetActiveObjectTable state0 state1 = some active := by
  revert active
  cases state0 <;> cases state1 <;> decide

/-- A chosen table has been read and has the right version, and it is authentic for the first
counter or for the third one. -/
theorem chooseTable_eq_some {result0 result1 : Except Status (Table Tag m)} {nvc1 nvc2 nvc3 : ℕ}
    {active : Fin 2} {table : Table Tag m}
    (choose : chooseTable cfg crypto result0 result1 nvc1 nvc2 nvc3 = some (active, table)) :
    (if active = 0 then result0 else result1) = .ok table ∧
      table.data.version = psObjectSystemVersion ∧ ∃ nvc, (nvc = nvc1 ∨ nvc = nvc3) ∧
        crypto.authentic (tableLabel cfg table.gen) table.iv (.table table.data nvc) table.tag =
          true := by
  simp only [chooseTable] at choose
  generalize usable : (if nvc3 ≠ nvc2 then 0 else nvc3) = nvc at choose
  have nvc_eq : nvc ≠ 0 → nvc = nvc3 := by
    split at usable
    · exact fun ne ↦ absurd usable.symm ne
    · exact fun _ ↦ usable.symm
  split at choose
  · cases choose
  · next active' set =>
      split at choose
      · cases choose
      · next table' read =>
          cases choose
          refine ⟨read, ?_⟩
          have valid : tableState cfg crypto nvc1 nvc (.ok table) ≠ .invalid := by
            rw [← read, apply_ite (tableState cfg crypto nvc1 nvc)]
            exact state_of_psSetActiveObjectTable set
          obtain ⟨version, n, from_counter, authentic⟩ := authentic_of_tableState valid
          refine ⟨version, n, from_counter.imp_right ?_, authentic⟩
          rintro ⟨rfl, positive⟩
          exact nvc_eq positive

/-- A table with the tag for the first counter is chosen if the other file has no such table. -/
theorem chooseTable_of_current {result0 result1 : Except Status (Table Tag m)} {nvc1 nvc2 nvc3 : ℕ}
    {active : Fin 2} {table : Table Tag m} (nvc1_tagged : table.Tagged cfg crypto nvc1)
    (version : table.data.version = psObjectSystemVersion)
    (read : (if active = 0 then result0 else result1) = .ok table)
    (other : ∀ nvc3, tableState cfg crypto nvc1 nvc3 (if active = 0 then result1 else result0) ≠
      .nvc1Valid) :
    chooseTable cfg crypto result0 result1 nvc1 nvc2 nvc3 = some (active, table) := by
  rw [chooseTable]
  generalize (if nvc3 ≠ nvc2 then 0 else nvc3) = nvc
  have current := (tableState_eq_nvc1Valid nvc nvc1_tagged).2 ⟨version, rfl⟩
  have other := other nvc
  rw [← read, apply_ite (tableState cfg crypto nvc1 nvc)] at current
  rw [apply_ite (tableState cfg crypto nvc1 nvc)] at other
  simp only [psSetActiveObjectTable_of_current current other, read]

/-! ## Booting -/

/-- What a table file holds. -/
def World.readTable (w : World Tag m) (i : Fin 2) : Except Status (Table Tag m) :=
  match w.tables i with
  | none => .error .doesNotExist
  | some table => .ok table

theorem World.readTable_of_some {w : World Tag m} {i : Fin 2} {table : Table Tag m}
    (here : w.tables i = some table) : w.readTable i = .ok table := by
  rw [World.readTable, here]

theorem World.readTable_ite (w : World Tag m) (i : Fin 2) :
    (if i = 0 then w.readTable 0 else w.readTable 1) = w.readTable i := by
  split
  · next eq => rw [eq]
  · next ne => rw [Fin.eq_one_of_ne_zero i ne]

theorem World.readTable_ite_other (w : World Tag m) (i : Fin 2) :
    (if i = 0 then w.readTable 1 else w.readTable 0) = w.readTable (otherTable i) := by
  rw [otherTable]
  split <;> rfl

/-- A table file is read, unless this fails. -/
def World.Reads (w : World Tag m) (i : Fin 2) (result : Except Status (Table Tag m)) : Prop :=
  result = w.readTable i ∨ w.Faulty ∧ result = .error .storageFailure

theorem World.Reads.stored {w : World Tag m} {i : Fin 2} {table : Table Tag m}
    (read : w.Reads i (.ok table)) : w.tables i = some table := by
  rcases read with read | ⟨-, ⟨⟩⟩
  rw [World.readTable] at read
  split at read
  · cases read
  · next held =>
      cases read
      exact held

/-- The table that a boot takes. -/
def World.chosen (w : World Tag m) (cfg : Config) (crypto : Crypto Tag m) :
    Option (Fin 2 × Table Tag m) :=
  chooseTable cfg crypto (w.readTable 0) (w.readTable 1) (w.nvc 0) (w.nvc 1) (w.nvc 2)

/-- A table file has been removed, if it was there. -/
def World.removed (w : World Tag m) (i : Fin 2) : World Tag m :=
  { w with tables := Function.update w.tables i none }

/-- The memory after a table has been taken. -/
def Ram.took (ram : Ram Tag m) (active : Fin 2) (table : Table Tag m) : Ram Tag m :=
  { ram with objTable := table, activeTable := active, scratchTable := otherTable active }

theorem spec_getTable {i : Fin 2} {Q : Except Status (Table Tag m) → Ram Tag m → World Tag m → Prop}
    {ram : Ram Tag m} {w : World Tag m} (before : ∀ k, C (w.tick k))
    (read : ∀ result k, w.Reads i result → Q result ram (w.tick k)) :
    Spec (Op.handle cfg) C (psaItsGetTable i) Q ram w :=
  spec_op rfl (before w.ops)
    (fun fails ↦ ⟨before _, read _ _ (.inr ⟨⟨_, _, rfl, rfl, fails⟩, rfl⟩)⟩)
    ⟨before _, read _ _ (.inl rfl)⟩

theorem World.removed_of_none {w : World Tag m} {i : Fin 2} (absent : w.tables i = none) :
    w.removed i = w := by
  simp [World.removed, ← absent]

theorem handle_removeTable (cfg : Config) (w : World Tag m) (i : Fin 2) :
    ((Op.removeTable i).handle cfg w).2 = w.tick (w.ops + 1) ∨
      ((Op.removeTable i).handle cfg w).2 = (w.removed i).tick (w.ops + 1) := by
  rw [Op.handle, if_neg (by rintro ⟨⟩)]
  split
  · exact .inl rfl
  · simp only [Op.perform]
    split
    · exact .inl rfl
    · exact .inr rfl

theorem spec_removeTable {i : Fin 2} {Q : Status → Ram Tag m → World Tag m → Prop}
    {ram : Ram Tag m} {w : World Tag m} (before : ∀ k, C (w.tick k))
    (after : ∀ k, C ((w.removed i).tick k))
    (fail : ∀ k, w.Faulty → Q .storageFailure ram (w.tick k))
    (absent : ∀ k, Q .doesNotExist ram ((w.removed i).tick k))
    (removed : ∀ k, Q .success ram ((w.removed i).tick k)) :
    Spec (Op.handle cfg) C (psaItsRemoveTable i) Q ram w := by
  refine spec_op rfl (before w.ops) (fun fails ↦ ⟨before _, fail _ ⟨_, _, rfl, rfl, fails⟩⟩) ?_
  simp only [Op.perform]
  split
  · next here =>
      have absent := absent (w.ops + 1)
      rw [World.removed_of_none (w := w) here] at absent
      exact ⟨before _, absent⟩
  · exact ⟨after _, removed _⟩

theorem spec_takeTable {Q : Status → Ram Tag m → World Tag m → Prop} {ram : Ram Tag m}
    {w : World Tag m} {active : Fin 2} {table : Table Tag m} (crash : ∀ k, C (w.tick k))
    (unremoved : ∀ k, w.Faulty → Q .storageFailure (ram.took active table) (w.tick k))
    (raised : ∀ i j k, i ≤ w.nvc 0 - w.nvc 1 → j ≤ w.nvc 0 - w.nvc 2 →
      C ((((w.removed (otherTable active)).raise 1 i).raise 2 j).tick k))
    (unaligned : ∀ i j k, w.Faulty ∨ cfg.nvMax < w.nvc 0 → Q .genericError (ram.took active table)
      ((((w.removed (otherTable active)).raise 1 i).raise 2 j).tick k))
    (success : ∀ k, Q .success { ram.took active table with ivBuf := table.iv }
      ((((w.removed (otherTable active)).raise 1 (w.nvc 0 - w.nvc 1)).raise 2
        (w.nvc 0 - w.nvc 2)).tick k)) :
    Spec (Op.handle cfg) C (takeTable active table (w.nvc 0)) Q ram w := by
  have removed := fun k ↦ raised 0 0 k (Nat.zero_le _) (Nat.zero_le _)
  simp only [World.raise_zero] at removed
  rw [takeTable, spec_bind]
  refine ⟨crash w.ops, ?_⟩
  have aligned : ∀ k, Spec (Op.handle cfg) C (do
      let err ← psObjectTableAlignNvCounters (w.nvc 0)
      onSuccess err do
        Proc.modify fun ram ↦ { ram with ivBuf := ram.objTable.iv }
        pure .success) Q (ram.took active table) ((w.removed (otherTable active)).tick k) := by
    intro k
    rw [spec_bind]
    refine spec_alignNvCounters (w := (w.removed (otherTable active)).tick k)
      (fun i j k le le' ↦ raised i j k le le') (fun i j k le le' fault ↦ ?_) fun k _ ↦ ?_
    · exact spec_onSuccess (fun eq ↦ by cases eq) fun _ ↦
        ⟨raised i j k le le', unaligned i j k fault.faulty⟩
    · refine spec_onSuccess (fun _ ↦ ?_) fun ne ↦ absurd rfl ne
      rw [spec_bind]
      exact ⟨raised _ _ k le_rfl le_rfl, raised _ _ k le_rfl le_rfl, success k⟩
  refine spec_bind.2 (spec_removeTable crash removed (fun k fault ↦ ?_) (fun k ↦ ?_) fun k ↦ ?_)
  · rw [if_pos (by decide)]
    exact ⟨crash k, unremoved k fault⟩
  · rw [if_neg (by decide)]
    exact aligned k
  · rw [if_neg (by decide)]
    exact aligned k

/-- A boot refuses what is stored, or it takes a table, removes the other file and aligns the
counters. -/
theorem spec_init {Q : Status → Ram Tag m → World Tag m → Prop} {ram : Ram Tag m} {w : World Tag m}
    (crash : ∀ k, C (w.tick k))
    (refused : ∀ err k, err ≠ .success → w.Faulty ∨ w.chosen cfg crypto = none →
      Q err ram (w.tick k))
    (taken : ∀ result0 result1 active table, w.Reads 0 result0 → w.Reads 1 result1 →
      chooseTable cfg crypto result0 result1 (w.nvc 0) (w.nvc 1) (w.nvc 2) = some (active, table) →
      (∀ k, w.Faulty → Q .storageFailure (ram.took active table) (w.tick k)) ∧
      (∀ i j k, i ≤ w.nvc 0 - w.nvc 1 → j ≤ w.nvc 0 - w.nvc 2 →
        C ((((w.removed (otherTable active)).raise 1 i).raise 2 j).tick k)) ∧
      (∀ i j k, w.Faulty ∨ cfg.nvMax < w.nvc 0 → Q .genericError (ram.took active table)
        ((((w.removed (otherTable active)).raise 1 i).raise 2 j).tick k)) ∧
      ∀ k, Q .success { ram.took active table with ivBuf := table.iv }
        ((((w.removed (otherTable active)).raise 1 (w.nvc 0 - w.nvc 1)).raise 2
          (w.nvc 0 - w.nvc 2)).tick k)) :
    Spec (Op.handle cfg) C (psObjectTableInit cfg crypto) Q ram w := by
  rw [psObjectTableInit, spec_bind]
  refine spec_getTable crash fun result0 k read0 ↦ ?_
  rw [spec_bind]
  refine spec_getTable (w := w.tick k) crash fun result1 k read1 ↦ ?_
  have unread : ∀ l k' c, (w.tick l).Failed k' (fun o ↦ o = .readNvCounter c) →
      C (w.tick k') ∧ Q .genericError ram (w.tick k') := by
    intro l k' c failed
    obtain ⟨o, j, rfl, -, -, fails⟩ := failed
    exact ⟨crash k', refused _ k' (by rintro ⟨⟩) (.inl ⟨_, j, rfl, rfl, fails⟩)⟩
  rw [spec_bind]
  refine spec_readNvCounter (w := w.tick k) crash (fun k' failed ↦ unread k k' 0 failed)
    fun k _ ↦ ?_
  rw [spec_bind]
  refine spec_readNvCounter (w := w.tick k) crash (fun k' failed ↦ unread k k' 1 failed)
    fun k _ ↦ ?_
  rw [spec_bind]
  refine spec_readNvCounter (w := w.tick k) crash (fun k' failed ↦ unread k k' 2 failed)
    fun k _ ↦ ?_
  dsimp only
  split
  · next none =>
      refine ⟨crash k, refused _ k (by rintro ⟨⟩) ?_⟩
      rcases read0 with rfl | ⟨fault, -⟩
      · rcases read1 with rfl | ⟨fault, -⟩
        · exact .inr none
        · exact .inl fault
      · exact .inl fault
  · next active table choose =>
      obtain ⟨unremoved, raised, unaligned, success⟩ :=
        taken result0 result1 active table read0 read1 choose
      exact spec_takeTable (w := w.tick k) crash unremoved raised unaligned success

theorem total_psObjectTableAlignNvCounters (nvc1 : ℕ) :
    Total (psObjectTableAlignNvCounters nvc1 : PsM Tag m Status) := by
  have increments : ∀ c n, Total (incrementBy c n : PsM Tag m Status) := by
    intro c n
    induction n with
    | zero => exact total_pure _
    | succ n ih => exact total_bind (total_call _) fun _ ↦ total_ite ih (total_pure _)
  have align : ∀ c, Total (alignNvCounter c nvc1 : PsM Tag m Status) := by
    refine fun c ↦ total_bind (total_call _) fun result ↦ ?_
    split
    · exact total_pure _
    · exact increments c _
  exact total_bind (align 1) fun _ ↦ total_ite (align 2) (total_pure _)

/-- `ps_object_table_init` returns. -/
theorem total_psObjectTableInit (cfg : Config) (crypto : Crypto Tag m) :
    Total (psObjectTableInit cfg crypto) := by
  have take : ∀ active table nvc1, Total (takeTable active table nvc1 : PsM Tag m Status) :=
    fun active table nvc1 ↦ total_bind (total_modify _) fun _ ↦ total_bind (total_call _) fun _ ↦
      total_ite (total_pure _) <| total_bind (total_psObjectTableAlignNvCounters nvc1) fun _ ↦
        total_ite (total_bind (total_modify _) fun _ ↦ total_pure _) (total_pure _)
  refine total_bind (total_call _) fun _ ↦ total_bind (total_call _) fun _ ↦
    total_bind (total_call _) fun nvc1 ↦ ?_
  split
  · exact total_pure _
  · refine total_bind (total_call _) fun nvc2 ↦ ?_
    split
    · exact total_pure _
    · refine total_bind (total_call _) fun nvc3 ↦ ?_
      split
      · exact total_pure _
      · split
        · exact total_pure _
        · exact take _ _ _

end TrustedFirmwareM.Ps
