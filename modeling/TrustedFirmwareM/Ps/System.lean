import TrustedFirmwareM.Lib.Run
import TrustedFirmwareM.Ps.ObjectSystem

/-!
# Protected Storage as a transition system

The system boots, serves requests and loses power at any point between two operations.  An invariant
that is kept by object file operations, by an encryption under the next initialisation vector and by
saving the table is kept by every request.
-/

namespace TrustedFirmwareM.Ps

open Program

variable {Tag : Type} {m : ℕ} [Inhabited Tag]

/-- Requests to Protected Storage. -/
inductive Request
  /-- `tfm_ps_set`. -/
  | set (clientId : ℤ) (uid : Uid) (dataLength createFlags : Word) (asset : List (BitVec 8))
  /-- `tfm_ps_get`. -/
  | get (clientId : ℤ) (uid : Uid) (dataOffset dataSize : Word)
  /-- `tfm_ps_get_info`. -/
  | getInfo (clientId : ℤ) (uid : Uid)
  /-- `tfm_ps_remove`. -/
  | remove (clientId : ℤ) (uid : Uid)
  /-- `ps_object_write`, which no request message reaches. -/
  | write (clientId : ℤ) (uid : Uid) (offset size : Word) (asset : List (BitVec 8))

/-- The function behind a request, and its status. -/
def Request.prog (cfg : Config) (crypto : Crypto Tag m) : Request → PsM Tag m Status
  | .set clientId uid dataLength createFlags asset =>
      tfmPsSet cfg crypto clientId uid dataLength createFlags asset
  | .get clientId uid dataOffset dataSize => do
      let result ← tfmPsGet cfg crypto clientId uid dataOffset dataSize
      pure result.1
  | .getInfo clientId uid => do
      let result ← tfmPsGetInfo cfg crypto clientId uid
      pure result.1
  | .remove clientId uid => tfmPsRemove cfg crypto clientId uid
  | .write clientId uid offset size asset => psObjectWrite cfg crypto uid clientId offset size asset

/-- The system: what is stored, and the volatile memory while it runs. -/
structure Machine (Tag : Type) (m : ℕ) where
  /-- Storage and history. -/
  world : World Tag m
  /-- Volatile memory, if the system is running. -/
  ram : Option (Ram Tag m)

/-- What happens to the system.  Operations fail as given, and power is lost after the given number
of operations. -/
inductive Action (Tag : Type) (m : ℕ)
  /-- The system is reset and boots. -/
  | boot (fails : Op Tag m → ℕ → Bool) (cut : Option ℕ)
  /-- A request is served. -/
  | request (r : Request) (fails : Op Tag m → ℕ → Bool) (cut : Option ℕ)
  /-- The storage area is wiped by the running system, which stops if this fails. -/
  | wipe (fails : Op Tag m → ℕ → Bool) (cut : Option ℕ)
  /-- Power is lost between requests. -/
  | powerOff
  /-- The table files are replaced while the system is off. -/
  | replace (tables : Fin 2 → Option (Table Tag m))

/-- Failures and the place of a power loss. -/
def Action.fails : Action Tag m → Op Tag m → ℕ → Bool
  | .boot fails _ | .request _ fails _ | .wipe fails _ => fails
  | _ => fun _ _ ↦ false

/-- The world with the operations of an action still to come. -/
def World.arm (w : World Tag m) (fails : Op Tag m → ℕ → Bool) : World Tag m :=
  { w with ops := 0, fails := fails }

/-- Execute a function, or part of it. -/
def execute (cfg : Config) (p : PsM Tag m Status) (ram : Ram Tag m) (w : World Tag m) :
    Option ℕ → Option (Status × Ram Tag m) × World Tag m
  | none => (p ram).run (Op.handle cfg) w
  | some n => (none, (p ram).cut (Op.handle cfg) n w)

/-- The system runs after `tfm_ps_init` or `ps_system_wipe_all` has succeeded. -/
def running : Option (Status × Ram Tag m) → Option (Ram Tag m)
  | some (.success, ram) => some ram
  | _ => none

omit [Inhabited Tag] in
theorem running_eq_some {result : Option (Status × Ram Tag m)} {ram : Ram Tag m} :
    running result = some ram ↔ result = some (.success, ram) := by
  constructor
  · intro run
    simp only [running] at run
    split at run
    · cases run
      rfl
    · cases run
  · rintro rfl
    rfl

/-- One step of the system. -/
def step (cfg : Config) (crypto : Crypto Tag m) (x : Machine Tag m) :
    Action Tag m → Option (Machine Tag m)
  | .boot fails cut =>
      let (result, w) := execute cfg (tfmPsInit cfg crypto) .reset (x.world.arm fails) cut
      some ⟨w, running result⟩
  | .request r fails cut =>
      match x.ram with
      | none => none
      | some ram =>
          let (result, w) := execute cfg (r.prog cfg crypto) ram (x.world.arm fails) cut
          some ⟨w, result.map Prod.snd⟩
  | .wipe fails cut =>
      match x.ram with
      | none => none
      | some ram =>
          let (result, w) := execute cfg (psSystemWipeAll cfg crypto) ram (x.world.arm fails) cut
          some ⟨w, running result⟩
  | .powerOff => some ⟨x.world, none⟩
  | .replace tables =>
      match x.ram with
      | none => some ⟨{ x.world with tables := tables }, none⟩
      | some _ => none

/-- A storage area that has never been used. -/
def World.blank : World Tag m where
  tables := fun _ ↦ none
  objects := fun _ ↦ none
  nvc := fun _ ↦ 0
  ops := 0
  fails := fun _ _ ↦ false
  encryptions := []
  decryptions := []
  saves := []
  written := []
  window := false

/-! ## Specifications of executions -/

omit [Inhabited Tag] in
/-- An execution satisfies what its specification says of the end or of an interruption. -/
theorem execute_spec {cfg : Config} {p : PsM Tag m Status} {ram : Ram Tag m} {w : World Tag m}
    {C : World Tag m → Prop} {Q : Status → Ram Tag m → World Tag m → Prop}
    (spec : Spec (Op.handle cfg) C p Q ram w) (cut : Option ℕ) :
    C (execute cfg p ram w cut).2 ∧ ∀ err ram', (execute cfg p ram w cut).1 = some (err, ram') →
      Q err ram' (execute cfg p ram w cut).2 := by
  cases cut with
  | none =>
      obtain ⟨crash, post⟩ := Prog.Spec.run spec
      exact ⟨crash, fun err ram' result ↦ post (err, ram') result⟩
  | some n =>
      refine ⟨Prog.Spec.cut spec n, ?_⟩
      rintro _ _ ⟨⟩

/-! ## Invariants of requests -/

/-- Operations on object files, keys and decryptions of objects. -/
def Op.isObject : Op Tag m → Bool
  | .getObject _ | .setObject _ _ | .removeObject _ | .setKey _ | .decrypted _ | .destroyKey => true
  | _ => false

/-- An invariant that depends on the files and indexes of the table, its version and the
initialisation vector, and that is kept by what requests do with them. -/
structure Closed (cfg : Config) (crypto : Crypto Tag m) (C : World Tag m → Prop)
    (I : Ram Tag m → World Tag m → Prop) : Prop where
  /-- The invariant is about the world alone when power is lost. -/
  crash : ∀ {ram w}, I ram w → C w
  /-- Other parts of the memory do not matter. -/
  frame : ∀ {ram ram' w}, I ram w → ram'.activeTable = ram.activeTable →
    ram'.scratchTable = ram.scratchTable → ram'.ivBuf = ram.ivBuf →
    ram'.objTable.data.version = ram.objTable.data.version → I ram' w
  /-- Object files, keys and decryptions do not matter. -/
  object : ∀ {ram w} (o : Op Tag m), o.isObject = true → I ram w → I ram (o.handle cfg w).2
  /-- An initialisation vector may be left out. -/
  skip : ∀ {ram w iv}, psCryptoGetIv ram.ivBuf = some iv → I ram w → I { ram with ivBuf := iv } w
  /-- An encryption uses the next initialisation vector. -/
  encrypt : ∀ {ram w iv} (label : Label) (ad : Ad Tag m) (plain : Option Payload),
    psCryptoGetIv ram.ivBuf = some iv → I ram w →
    I { ram with ivBuf := iv } ((Op.encrypted ⟨label, iv, ad, plain⟩).handle cfg w).2
  /-- The table is saved. -/
  save : ∀ {ram w}, I ram w →
    Spec (Op.handle cfg) C (psObjectTableSaveTable cfg crypto) (fun _ ↦ I) ram w
  /-- The scratch file is removed. -/
  remove : ∀ {ram w}, I ram w → I ram ((Op.removeTable ram.scratchTable).handle cfg w).2

/-- A function keeps an invariant, also when it is interrupted. -/
def Keeps (cfg : Config) (C : World Tag m → Prop) (I : Ram Tag m → World Tag m → Prop) {α : Type}
    (p : PsM Tag m α) : Prop :=
  ∀ ram w, I ram w → Spec (Op.handle cfg) C p (fun _ ↦ I) ram w

section

variable {cfg : Config} {crypto : Crypto Tag m} {C : World Tag m → Prop}
  {I : Ram Tag m → World Tag m → Prop} {α β : Type}

omit [Inhabited Tag] in
theorem Keeps.bind {p : PsM Tag m α} {next : α → PsM Tag m β} (first : Keeps cfg C I p)
    (rest : ∀ value, Keeps cfg C I (next value)) : Keeps cfg C I (p >>= next) := by
  intro ram w inv
  rw [spec_bind]
  exact (first ram w inv).mono fun value ram w _ inv ↦ rest value ram w inv

omit [Inhabited Tag] in
theorem Keeps.ite {condition : Prop} [Decidable condition] {p q : PsM Tag m α}
    (left : Keeps cfg C I p) (right : Keeps cfg C I q) :
    Keeps cfg C I (if condition then p else q) := by
  split
  · exact left
  · exact right

omit [Inhabited Tag] in
theorem Keeps.onSuccess {p : PsM Tag m Status} (err : Status) (keeps : Keeps cfg C I p)
    (crash : ∀ ram w, I ram w → C w) : Keeps cfg C I (Ps.onSuccess err p) :=
  .ite keeps fun ram w inv ↦ ⟨crash ram w inv, inv⟩

namespace Closed

set_option linter.unusedSectionVars false

variable (closed : Closed cfg crypto C I)

include closed

/-- Invariants that are kept separately are kept together. -/
theorem and {C' : World Tag m → Prop} {I' : Ram Tag m → World Tag m → Prop}
    (closed' : Closed cfg crypto C' I') :
    Closed cfg crypto (fun w ↦ C w ∧ C' w) (fun ram w ↦ I ram w ∧ I' ram w) where
  crash inv := ⟨closed.crash inv.1, closed'.crash inv.2⟩
  frame inv active scratch ivBuf version :=
    ⟨closed.frame inv.1 active scratch ivBuf version,
      closed'.frame inv.2 active scratch ivBuf version⟩
  object o object inv := ⟨closed.object o object inv.1, closed'.object o object inv.2⟩
  skip get inv := ⟨closed.skip get inv.1, closed'.skip get inv.2⟩
  encrypt label ad plain get inv :=
    ⟨closed.encrypt label ad plain get inv.1, closed'.encrypt label ad plain get inv.2⟩
  save inv := (closed.save inv.1).and (closed'.save inv.2)
  remove inv := ⟨closed.remove inv.1, closed'.remove inv.2⟩

theorem pure (value : α) : Keeps cfg C I (Pure.pure value : PsM Tag m α) :=
  fun _ _ inv ↦ ⟨closed.crash inv, inv⟩

theorem get : Keeps cfg C I (Proc.get : PsM Tag m (Ram Tag m)) :=
  fun _ _ inv ↦ ⟨closed.crash inv, inv⟩

theorem modify {f : Ram Tag m → Ram Tag m}
    (same : ∀ ram, (f ram).activeTable = ram.activeTable ∧
      (f ram).scratchTable = ram.scratchTable ∧ (f ram).ivBuf = ram.ivBuf ∧
      (f ram).objTable.data.version = ram.objTable.data.version) :
    Keeps cfg C I (Proc.modify f) := by
  intro ram w inv
  obtain ⟨active, scratch, ivBuf, version⟩ := same ram
  exact ⟨closed.crash inv, closed.frame inv active scratch ivBuf version⟩

theorem halt : Keeps cfg C I (Proc.halt : PsM Tag m α) := fun _ _ inv ↦ closed.crash inv

theorem callObject (o : Op Tag m) (object : o.isObject = true) :
    Keeps cfg C I (Proc.call o : PsM Tag m o.Result) := by
  intro ram w inv
  have kept := closed.object o object inv
  exact ⟨closed.crash inv, closed.crash kept, kept⟩

theorem saveTable : Keeps cfg C I (psObjectTableSaveTable cfg crypto) := fun _ _ ↦ closed.save

theorem deleteOldTable : Keeps cfg C I (psObjectTableDeleteOldTable : PsM Tag m Status) := by
  intro ram w inv
  have kept := closed.remove inv
  exact ⟨closed.crash inv, closed.crash kept, kept⟩

theorem destroyKeyAfter : Keeps cfg C I (Ps.destroyKeyAfter : PsM Tag m Status) :=
  .bind (closed.callObject _ rfl) fun _ ↦ closed.pure _

/-- The next initialisation vector has been taken, and it is used if the key can be set up. -/
theorem encryptWithKey {ram ram' : Ram Tag m} {w : World Tag m} {e : Encryption Tag m}
    {output : Ram Tag m → Ram Tag m} (get : psCryptoGetIv ram.ivBuf = some e.iv) (inv : I ram w)
    (taken : ram'.activeTable = ram.activeTable ∧ ram'.scratchTable = ram.scratchTable ∧
      ram'.ivBuf = e.iv ∧ ram'.objTable.data.version = ram.objTable.data.version)
    (same : ∀ ram, (output ram).activeTable = ram.activeTable ∧
      (output ram).scratchTable = ram.scratchTable ∧ (output ram).ivBuf = ram.ivBuf ∧
      (output ram).objTable.data.version = ram.objTable.data.version) :
    Spec (Op.handle cfg) C (Ps.encryptWithKey e output) (fun _ ↦ I) ram' w := by
  obtain ⟨active, scratch, ivBuf, version⟩ := taken
  have keyed := closed.object (.setKey e.label) rfl inv
  have used := closed.encrypt e.label e.ad e.plain get keyed
  rw [Ps.encryptWithKey, spec_bind]
  refine ⟨closed.crash inv, closed.crash keyed, ?_⟩
  dsimp only [Ps.onSuccess]
  split
  · rw [spec_bind]
    refine ⟨closed.crash keyed, closed.crash used, ?_⟩
    exact Keeps.ite (.bind (closed.callObject _ rfl) fun _ ↦ closed.pure _)
      (.bind (closed.modify same) fun _ ↦ closed.destroyKeyAfter) _ _
      (closed.frame used active scratch ivBuf version)
  · exact closed.pure _ _ _ (closed.frame (closed.skip get keyed) active scratch ivBuf version)

theorem encryptedObjectWrite (fid : ℕ) : Keeps cfg C I (psEncryptedObjectWrite crypto fid) := by
  intro ram w inv
  rw [psEncryptedObjectWrite, spec_bind, spec_get]
  refine ⟨closed.crash inv, ?_⟩
  split
  · exact closed.pure _ ram w inv
  · next iv get =>
      rw [spec_bind, spec_modify]
      refine ⟨closed.crash inv, ?_⟩
      rw [spec_bind, psCryptoEncryptAndTag]
      refine Spec.mono (closed.encryptWithKey get inv ⟨rfl, rfl, rfl, rfl⟩ fun _ ↦
        ⟨rfl, rfl, rfl, rfl⟩) fun err ram' w' _ inv' ↦ ?_
      split
      · exact closed.pure _ _ _ inv'
      · exact Keeps.bind closed.get (fun ram ↦ closed.callObject (.setObject fid _) rfl) _ _ inv'

theorem authAndDecrypt (ad : Ad Tag m) : Keeps cfg C I (psCryptoAuthAndDecrypt crypto ad) := by
  refine .bind closed.get fun ram ↦ .bind (closed.callObject _ rfl) fun status ↦
    .ite (.bind (closed.callObject _ rfl) fun status ↦ ?_) (closed.pure _)
  split
  · exact .bind (closed.callObject _ rfl) fun _ ↦ closed.pure _
  · exact .bind (closed.modify fun _ ↦ ⟨rfl, rfl, rfl, rfl⟩) fun _ ↦ closed.destroyKeyAfter

theorem encryptedObjectRead (fid : ℕ) : Keeps cfg C I (psEncryptedObjectRead crypto fid) := by
  refine .bind (closed.callObject _ rfl) fun result ↦ ?_
  split
  · exact closed.pure _
  · exact .bind (closed.modify fun _ ↦ ⟨rfl, rfl, rfl, rfl⟩) fun _ ↦
      .bind (closed.authAndDecrypt _) fun _ ↦ closed.pure _

/-! ### The object table -/

theorem getObjTblInfo (uid : Uid) (clientId : ℤ) :
    Keeps cfg C I (psObjectTableGetObjTblInfo uid clientId : PsM Tag m Status) := by
  refine .bind closed.get fun ram ↦ ?_
  split
  · exact closed.pure _
  · exact .bind (closed.modify fun _ ↦ ⟨rfl, rfl, rfl, rfl⟩) fun _ ↦ closed.pure _

theorem getFreeFid (fidNum : ℕ) :
    Keeps cfg C I (psObjectTableGetFreeFid fidNum : PsM Tag m (Except Status ℕ)) := by
  refine .bind closed.get fun ram ↦ ?_
  split
  · exact closed.pure _
  · exact .bind (closed.callObject _ rfl) fun _ ↦ .ite (closed.pure _) (closed.pure _)

theorem setObjTblInfo (uid : Uid) (clientId : ℤ) :
    Keeps cfg C I (psObjectTableSetObjTblInfo cfg crypto uid clientId) := by
  refine .bind closed.get fun ram ↦ .bind (closed.modify fun ram ↦ ?_) fun _ ↦
    .bind closed.saveTable fun _ ↦ .ite (closed.pure _) <|
      .bind (closed.modify fun ram ↦ ?_) fun _ ↦ closed.pure _
  · split <;> exact ⟨rfl, rfl, rfl, rfl⟩
  · split
    · split <;> exact ⟨rfl, rfl, rfl, rfl⟩
    · exact ⟨rfl, rfl, rfl, rfl⟩

theorem deleteObject (uid : Uid) (clientId : ℤ) :
    Keeps cfg C I (psObjectTableDeleteObject cfg crypto uid clientId) := by
  refine .bind closed.get fun ram ↦ ?_
  split
  · exact closed.pure _
  · exact .bind (closed.modify fun _ ↦ ⟨rfl, rfl, rfl, rfl⟩) fun _ ↦
      .bind closed.saveTable fun _ ↦ .ite (closed.pure _) <|
        .bind (closed.modify fun _ ↦ ⟨rfl, rfl, rfl, rfl⟩) fun _ ↦ closed.pure _

theorem setGen (newGen : Word) : Keeps cfg C I (psObjectTableSetGen newGen : PsM Tag m Unit) :=
  .bind closed.get fun _ ↦ .ite closed.halt (closed.modify fun _ ↦ ⟨rfl, rfl, rfl, rfl⟩)

/-! ### The object system -/

theorem updateTable (uid : Uid) (clientId : ℤ) :
    Keeps cfg C I (psUpdateTable cfg crypto uid clientId) :=
  .bind (closed.setObjTblInfo uid clientId) fun _ ↦ .ite closed.deleteOldTable <|
    .bind closed.get fun _ ↦ .bind (closed.callObject _ rfl) fun _ ↦ closed.pure _

theorem switchKey : Keeps cfg C I (psSwitchKey : PsM Tag m Unit) :=
  .bind closed.get fun _ ↦ .ite closed.halt (closed.modify fun _ ↦ ⟨rfl, rfl, rfl, rfl⟩)

theorem addBlocks (blocks : Word) : Keeps cfg C I (Ps.addBlocks cfg blocks : PsM Tag m Unit) :=
  .ite (closed.pure _) (closed.modify fun _ ↦ ⟨rfl, rfl, rfl, rfl⟩)

theorem switchKeysIfNecessary (blocks : Word) :
    Keeps cfg C I (psSwitchKeysIfNecessary cfg crypto blocks) :=
  .bind closed.get fun _ ↦ .ite
    (.bind closed.switchKey fun _ ↦ .bind (closed.encryptedObjectWrite _) fun _ ↦
      .bind (closed.addBlocks blocks) fun _ ↦ closed.pure _)
    (closed.pure _)

theorem switchKeyBeforeWrite (newBlocks : Word) :
    Keeps cfg C I (Ps.switchKeyBeforeWrite cfg newBlocks : PsM Tag m Unit) :=
  .bind closed.get fun _ ↦ .ite closed.switchKey (closed.pure _)

theorem storeObject (blocks : Word) : Keeps cfg C I (psStoreObject cfg crypto blocks) :=
  .bind closed.get fun _ ↦ .ite
    (.bind (closed.encryptedObjectWrite _) fun _ ↦ closed.pure _)
    (.bind (closed.switchKeyBeforeWrite _) fun _ ↦
      .bind (closed.encryptedObjectWrite _) fun _ ↦
        .bind (closed.addBlocks _) fun _ ↦ closed.pure _)

theorem readObject (uid : Uid) (clientId : ℤ) :
    Keeps cfg C I (Ps.readObject cfg crypto uid clientId) :=
  .bind (closed.modify fun _ ↦ ⟨rfl, rfl, rfl, rfl⟩) fun _ ↦ .bind closed.get fun _ ↦
    .bind (closed.encryptedObjectRead _) fun _ ↦ .bind (closed.addBlocks _) fun _ ↦ closed.pure _

theorem modifyPayload (f : Payload → Payload) :
    Keeps cfg C I (Ps.modifyPayload f : PsM Tag m Unit) :=
  closed.modify fun _ ↦ ⟨rfl, rfl, rfl, rfl⟩

theorem storeInNewFile (fidNum : ℕ) (oldFid : Option ℕ) (blocks size : Word) :
    Keeps cfg C I (Ps.storeInNewFile cfg crypto fidNum oldFid blocks size) := by
  refine .bind (closed.getFreeFid fidNum) fun result ↦ ?_
  split
  · exact closed.pure _
  · exact .bind (closed.modify fun _ ↦ ⟨rfl, rfl, rfl, rfl⟩) fun _ ↦
      .bind (closed.modifyPayload _) fun _ ↦ .bind (closed.storeObject _) fun _ ↦
        .ite (closed.pure _) <|
          .bind (closed.modify fun _ ↦ ⟨rfl, rfl, rfl, rfl⟩) fun _ ↦ closed.pure _

theorem clearObject : Keeps cfg C I (Ps.clearObject : PsM Tag m Unit) :=
  closed.modify fun _ ↦ ⟨rfl, rfl, rfl, rfl⟩

theorem createBody (uid : Uid) (clientId : ℤ) (createFlags size : Word)
    (asset : List (BitVec 8)) (objectExists : Bool) :
    Keeps cfg C I
      (Ps.createBody cfg crypto uid clientId createFlags size asset objectExists) := by
  have store : ∀ fidNum oldFid blocks, Keeps cfg C I
      (do
        let read := psReqMngrReadAssetData asset size
        Ps.modifyPayload fun payload ↦ { payload with data := overwrite payload.data 0 read.2 }
        if read.1 ≠ .success then Pure.pure ⟨read.1, oldFid, blocks, true⟩
        else Ps.storeInNewFile cfg crypto fidNum oldFid blocks size) := fun _ _ _ ↦
    .bind (closed.modifyPayload _) fun _ ↦ .ite (closed.pure _) (closed.storeInNewFile _ _ _ _)
  exact .ite
    (.bind (closed.readObject uid clientId) fun _ ↦ .ite (closed.pure _) <|
      .bind closed.get fun _ ↦ .ite (closed.pure _) <|
        .bind (closed.modifyPayload _) fun _ ↦ store _ _ _)
    (.bind (closed.modify fun _ ↦ ⟨rfl, rfl, rfl, rfl⟩) fun _ ↦ store _ _ _)

theorem exitSwitchKeys (exit : Exit) : Keeps cfg C I (exit.switchKeysIfNecessary cfg crypto) :=
  .ite (closed.switchKeysIfNecessary _) (closed.pure _)

theorem exitUpdateTable (exit : Exit) (uid : Uid) (clientId : ℤ) (objectExists : Bool) :
    Keeps cfg C I (exit.updateTable cfg crypto uid clientId objectExists) :=
  .ite (closed.updateTable uid clientId) <| .ite
    (.bind (closed.updateTable uid clientId) fun _ ↦ closed.pure _) (closed.pure _)

theorem exitRemoveOldFile (exit : Exit) (err : Status) :
    Keeps cfg C I (exit.removeOldFile err : PsM Tag m Status) := by
  rw [Exit.removeOldFile]
  split
  · exact .ite (closed.callObject _ rfl) (closed.pure _)
  · exact closed.pure _

theorem objectCreate (uid : Uid) (clientId : ℤ) (createFlags size : Word)
    (asset : List (BitVec 8)) :
    Keeps cfg C I (psObjectCreate cfg crypto uid clientId createFlags size asset) :=
  .ite (closed.pure _) <| .bind (closed.getObjTblInfo uid clientId) fun _ ↦
    .bind (closed.createBody _ _ _ _ _ _) fun _ ↦ .bind (closed.exitSwitchKeys _) fun _ ↦
      .bind (closed.exitUpdateTable _ _ _ _) fun _ ↦
        .bind (closed.exitRemoveOldFile _ _) fun _ ↦
          .bind closed.clearObject fun _ ↦ closed.pure _

theorem writeBody (uid : Uid) (clientId : ℤ) (offset size : Word) (asset : List (BitVec 8)) :
    Keeps cfg C I (Ps.writeBody cfg crypto uid clientId offset size asset) :=
  .bind (closed.readObject uid clientId) fun _ ↦ .ite (closed.pure _) <|
    .bind closed.get fun _ ↦ .ite (closed.pure _) <| .ite (closed.pure _) <|
      .ite (closed.pure _) <| .bind (closed.modifyPayload _) fun _ ↦
        .ite (closed.pure _) (closed.storeInNewFile _ _ _ _)

theorem objectWrite (uid : Uid) (clientId : ℤ) (offset size : Word) (asset : List (BitVec 8)) :
    Keeps cfg C I (psObjectWrite cfg crypto uid clientId offset size asset) :=
  .bind (closed.getObjTblInfo uid clientId) fun _ ↦ .ite
    (.bind (closed.writeBody _ _ _ _ _) fun _ ↦ .bind (closed.exitSwitchKeys _) fun _ ↦
      .bind (closed.exitUpdateTable _ _ _ _) fun _ ↦
        .bind (closed.exitRemoveOldFile _ _) fun _ ↦
          .bind closed.clearObject fun _ ↦ closed.pure _)
    (closed.pure _)

theorem updateUsage (uid : Uid) (clientId : ℤ) (err : Status) :
    Keeps cfg C I (Ps.updateUsage cfg crypto uid clientId err) :=
  .ite (closed.pure _) (.bind (closed.updateTable uid clientId) fun _ ↦ closed.pure _)

theorem objectRead (uid : Uid) (clientId : ℤ) (offset size : Word) :
    Keeps cfg C I (psObjectRead cfg crypto uid clientId offset size) :=
  .bind (closed.getObjTblInfo uid clientId) fun _ ↦ .ite (closed.pure _) <|
    .bind (closed.readObject uid clientId) fun _ ↦ .ite
      (.bind (closed.updateUsage _ _ _) fun _ ↦ .bind closed.clearObject fun _ ↦ closed.pure _)
      (.bind closed.get fun _ ↦ .bind (closed.switchKeysIfNecessary _) fun _ ↦
        .bind (closed.updateUsage _ _ _) fun _ ↦ .bind closed.clearObject fun _ ↦ closed.pure _)

theorem objectGetInfo (uid : Uid) (clientId : ℤ) :
    Keeps cfg C I (psObjectGetInfo cfg crypto uid clientId) :=
  .bind (closed.getObjTblInfo uid clientId) fun _ ↦ .ite (closed.pure _) <|
    .bind (closed.readObject uid clientId) fun _ ↦ .ite
      (.bind (closed.updateUsage _ _ _) fun _ ↦ .bind closed.clearObject fun _ ↦ closed.pure _)
      (.bind closed.get fun _ ↦ .bind (closed.switchKeysIfNecessary _) fun _ ↦
        .bind (closed.updateUsage _ _ _) fun _ ↦ .bind closed.clearObject fun _ ↦ closed.pure _)

theorem setGenAfterDelete : Keeps cfg C I (Ps.setGenAfterDelete cfg : PsM Tag m Unit) :=
  .bind closed.get fun _ ↦ .ite (closed.setGen _) (closed.pure _)

theorem deleteBody (uid : Uid) (clientId : ℤ) :
    Keeps cfg C I (Ps.deleteBody cfg crypto uid clientId) :=
  .bind closed.get fun _ ↦ .ite (closed.pure _) <|
    .bind (closed.deleteObject uid clientId) fun _ ↦ .ite
      (.bind closed.setGenAfterDelete fun _ ↦ .bind closed.deleteOldTable fun _ ↦
        .ite (closed.callObject _ rfl) (closed.pure _))
      (closed.pure _)

theorem updateUndeleted (uid : Uid) (clientId : ℤ) (err : Status) :
    Keeps cfg C I (Ps.updateUndeleted cfg crypto uid clientId err) :=
  .ite (closed.updateTable uid clientId) (closed.pure _)

theorem objectDelete (uid : Uid) (clientId : ℤ) :
    Keeps cfg C I (psObjectDelete cfg crypto uid clientId) :=
  .bind (closed.getObjTblInfo uid clientId) fun _ ↦ .ite
    (.bind (closed.readObject uid clientId) fun _ ↦ .ite
      (.bind (closed.updateUndeleted _ _ _) fun _ ↦
        .bind closed.clearObject fun _ ↦ closed.pure _)
      (.bind (closed.deleteBody uid clientId) fun _ ↦ .bind (closed.exitSwitchKeys _) fun _ ↦
        .bind (closed.updateUndeleted _ _ _) fun _ ↦
          .bind closed.clearObject fun _ ↦ closed.pure _))
    (closed.pure _)

/-- Every request keeps a closed invariant. -/
theorem request (r : Request) : Keeps cfg C I (r.prog cfg crypto) := by
  cases r with
  | set => exact .ite (closed.pure _) (.ite (closed.pure _) (closed.objectCreate _ _ _ _ _))
  | get =>
      exact .bind (.ite (closed.pure _) (closed.objectRead _ _ _ _)) fun _ ↦ closed.pure _
  | getInfo =>
      exact .bind (.ite (closed.pure _) (closed.objectGetInfo _ _)) fun _ ↦ closed.pure _
  | remove =>
      exact .ite (closed.pure _) (.bind (closed.objectDelete _ _) fun _ ↦ closed.pure _)
  | write => exact closed.objectWrite _ _ _ _ _

end Closed

end

/-! ## A small system -/

/-- Trees that stand for what has been authenticated. -/
inductive Code
  /-- A number. -/
  | nat (n : ℕ)
  /-- Two parts. -/
  | pair (left right : Code)
  deriving DecidableEq

namespace Code

instance : Inhabited Code := ⟨nat 0⟩

/-- The tree of an integer. -/
def ofInt : ℤ → Code
  | .ofNat n => pair (nat 0) (nat n)
  | .negSucc n => pair (nat 1) (nat n)

/-- The tree of a list of trees. -/
def ofList : List Code → Code
  | [] => nat 0
  | code :: rest => pair code (ofList rest)

/-- The tree of a key label. -/
def ofLabel (label : Label) : Code :=
  pair (nat label.uid.toNat) (pair (ofInt label.clientId) (nat label.gen.toNat))

/-- The tree of an initialisation vector. -/
def ofIv (iv : Iv) : Code := pair (nat iv.low.toNat) (nat iv.high.toNat)

/-- The tree of a plaintext. -/
def ofPayload (payload : Payload) : Code :=
  pair (nat payload.currentSize.toNat) (pair (nat payload.maxSize.toNat)
    (pair (nat payload.createFlags.toNat) (ofList (payload.data.map fun byte ↦ nat byte.toNat))))

/-- The tree of a table entry. -/
def ofEntry (entry : Entry Code) : Code :=
  pair entry.tag (pair (nat entry.numBlocks.toNat) (pair (nat entry.uid.toNat)
    (ofInt entry.clientId)))

/-- The tree of associated data. -/
def ofAd : Ad Code m → Code
  | .object fid gen => pair (nat 0) (pair (nat fid) (nat gen.toNat))
  | .table data nvCounter =>
      pair (nat 1) (pair (nat data.version.toNat)
        (pair (ofList (List.ofFn fun i ↦ ofEntry (data.objDb i))) (nat nvCounter)))

/-- The tree of what is authenticated without a plaintext. -/
def ofTag (label : Label) (iv : Iv) (ad : Ad Code m) : Code :=
  pair (ofLabel label) (pair (ofIv iv) (ofAd ad))

theorem ofInt_inj {a b : ℤ} : ofInt a = ofInt b ↔ a = b := by
  cases a <;> cases b <;> simp [ofInt]

theorem ofList_inj {a b : List Code} : ofList a = ofList b ↔ a = b := by
  induction a generalizing b with
  | nil => cases b <;> simp [ofList]
  | cons x xs ih => cases b <;> simp [ofList, ih]

theorem ofLabel_inj {a b : Label} : ofLabel a = ofLabel b ↔ a = b := by
  cases a
  cases b
  simp [ofLabel, ofInt_inj, BitVec.toNat_inj]

theorem ofIv_inj {a b : Iv} : ofIv a = ofIv b ↔ a = b := by
  cases a
  cases b
  simp [ofIv, BitVec.toNat_inj]

theorem ofPayload_inj {a b : Payload} : ofPayload a = ofPayload b ↔ a = b := by
  have bytes : Function.Injective fun byte : BitVec 8 ↦ nat byte.toNat := by
    intro x y eq
    simpa [BitVec.toNat_inj] using eq
  cases a
  cases b
  simp [ofPayload, ofList_inj, BitVec.toNat_inj, List.map_inj_right bytes]

theorem ofEntry_inj {a b : Entry Code} : ofEntry a = ofEntry b ↔ a = b := by
  cases a
  cases b
  simp [ofEntry, ofInt_inj, BitVec.toNat_inj]

theorem ofAd_inj {a b : Ad Code m} : ofAd a = ofAd b ↔ a = b := by
  cases a with
  | object fid gen => cases b <;> simp [ofAd, BitVec.toNat_inj]
  | table data nvCounter =>
      cases b with
      | object fid gen => simp [ofAd]
      | table data' nvCounter' =>
          cases data
          cases data'
          simp only [ofAd, pair.injEq, nat.injEq, ofList_inj, List.ofFn_inj, funext_iff,
            ofEntry_inj, BitVec.toNat_inj, Ad.table.injEq, TableData.mk.injEq, true_and, and_assoc]

theorem ofTag_inj {label label' : Label} {iv iv' : Iv} {ad ad' : Ad Code m} :
    ofTag label iv ad = ofTag label' iv' ad' ↔ label = label' ∧ iv = iv' ∧ ad = ad' := by
  simp [ofTag, ofLabel_inj, ofIv_inj, ofAd_inj]

end Code

/-- Ciphertexts that show their plaintext, with tags that name everything they authenticate. -/
def sampleCrypto : Crypto Code m where
  encrypt label iv ad plain := (plain, .pair (.ofTag label iv ad) (.ofPayload plain))
  decrypt label iv ad cipher tag :=
    if tag = .pair (.ofTag label iv ad) (.ofPayload cipher) then some cipher else none
  authTag label iv ad := .ofTag label iv ad
  authentic label iv ad tag := decide (tag = .ofTag label iv ad)
  encrypt_length := fun _ _ _ _ ↦ rfl
  decrypt_encrypt := fun _ _ _ _ ↦ if_pos rfl
  encrypt_of_decrypt := by
    intro label iv ad plain label' iv' ad' cipher plain' decrypted
    split at decrypted
    · next eq =>
        cases decrypted
        simp only [Code.pair.injEq, Code.ofTag_inj, Code.ofPayload_inj] at eq
        exact ⟨eq.1.1.symm, eq.1.2.1.symm, eq.1.2.2.symm, eq.2.symm⟩
    · cases decrypted
  authentic_authTag := by
    intro label iv ad label' iv' ad'
    simp only [decide_eq_true_eq, Code.ofTag_inj]
    exact ⟨fun ⟨l, i, a⟩ ↦ ⟨l.symm, i.symm, a.symm⟩, fun ⟨l, i, a⟩ ↦ ⟨l.symm, i.symm, a.symm⟩⟩

/-- A configuration without a key usage limit that creates its storage area. -/
def sampleConfig : Config where
  maxAssetSize := 256
  keyUsageLimit := 0
  createFlashLayout := true
  tfmSpPs := 1
  nvMax := 100
  nvMax_pos := by decide

/-- Run the small system, for one object, from a storage area that has never been used. -/
def sampleRun (actions : List (Action Code 1)) : Option (Machine Code 1) :=
  Run.exec (step sampleConfig sampleCrypto) ⟨.blank, none⟩ actions

end TrustedFirmwareM.Ps
