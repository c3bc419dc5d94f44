import TrustedFirmwareM.Ps.Durability

/-!
# Rollback protection

An attacker may put back any earlier contents of the table files while the system is off.  A boot
never accepts a table older than that of the last completed save.  It can accept the table of any
save that has been cut off since then, not only that of the latest one.
-/

namespace TrustedFirmwareM.Ps

open Program

variable {Tag : Type} {m : ℕ}

/-- The tables of the last completed save and of the saves that began after it. -/
def sinceLastSaved : List (Save Tag m) → List (TableData Tag m)
  | [] => []
  | .saved _ data :: _ => [data]
  | .saving _ data :: rest => data :: sinceLastSaved rest

/-- Table files are replaced by earlier contents of table files only. -/
def EarlierContents (x : Machine Tag m) : Action Tag m → Prop
  | .replace tables => ∀ i table, tables i = some table → table ∈ x.world.written
  | _ => True

/-! ## Saves in order -/

/-- Value of the first counter in a save. -/
def Save.nvc : Save Tag m → ℕ
  | .saving nvc _ | .saved nvc _ => nvc

/-- Every save has a value of its own, and values increase. -/
def Ordered : List (Save Tag m) → Prop
  | [] => True
  | .saving nvc _ :: rest => (∀ s ∈ rest, s.nvc < nvc) ∧ Ordered rest
  | .saved nvc data :: rest =>
      (∀ s ∈ rest, s.nvc ≤ nvc ∧ (s.nvc = nvc → s.data = data)) ∧ Ordered rest

/-- A save whose value is not below that of any completed save is the last completed one or began
after it. -/
theorem Ordered.mem_sinceLastSaved {saves : List (Save Tag m)} {v : ℕ} {data : TableData Tag m}
    (ordered : Ordered saves) (here : Save.saving v data ∈ saves)
    (recent : ∀ nvc data, Save.saved nvc data ∈ saves → nvc ≤ v) :
    data ∈ sinceLastSaved saves := by
  induction saves with
  | nil => cases here
  | cons s rest ih =>
      cases s with
      | saving nvc data' =>
          rcases List.mem_cons.1 here with eq | later
          · cases eq
            exact List.mem_cons_self
          · exact List.mem_cons_of_mem _ <|
              ih ordered.2 later fun nvc data member ↦ recent nvc data (.tail _ member)
      | saved nvc data' =>
          have before : Save.saving v data ∈ rest := by simpa using here
          obtain ⟨le, same⟩ := ordered.1 _ before
          have le' : nvc ≤ v := recent nvc data' List.mem_cons_self
          have eq : data = data' := same (Nat.le_antisymm le le')
          rw [eq]
          exact List.mem_cons_self

/-! ## The invariant -/

/-- What holds of the storage and its history, whatever is put back. -/
structure HistoryInv (cfg : Config) (crypto : Crypto Tag m) (w : World Tag m) : Prop where
  /-- A table that has been written carries the tag of a save. -/
  written : ∀ table ∈ w.written, ∃ v, table.Tagged cfg crypto v ∧ .saving v table.data ∈ w.saves
  /-- Table files hold tables that have been written. -/
  tables : ∀ i table, w.tables i = some table → table ∈ w.written
  /-- Saves are in order. -/
  ordered : Ordered w.saves
  /-- The first counter has reached the values of all saves. -/
  bounded : ∀ s ∈ w.saves, s.nvc ≤ w.nvc 0
  /-- All counters have reached the values of completed saves. -/
  completed : ∀ nvc data, .saved nvc data ∈ w.saves → ∀ c, nvc ≤ w.nvc c

variable {cfg : Config} {crypto : Crypto Tag m}

/-- Raising counters and putting back earlier tables keep the invariant. -/
theorem HistoryInv.of_le {w w' : World Tag m} (inv : HistoryInv cfg crypto w)
    (written : w'.written = w.written) (saves : w'.saves = w.saves) (nvc : ∀ c, w.nvc c ≤ w'.nvc c)
    (tables : ∀ i table, w'.tables i = some table → table ∈ w.written) :
    HistoryInv cfg crypto w' where
  written := by
    rw [written, saves]
    exact inv.written
  tables := by
    rw [written]
    exact tables
  ordered := saves ▸ inv.ordered
  bounded := by
    rw [saves]
    exact fun s member ↦ (inv.bounded s member).trans (nvc 0)
  completed := by
    rw [saves]
    exact fun v data member c ↦ (inv.completed v data member c).trans (nvc c)

theorem HistoryInv.congr {w w' : World Tag m} (inv : HistoryInv cfg crypto w)
    (written : w'.written = w.written) (saves : w'.saves = w.saves) (nvc : w'.nvc = w.nvc)
    (tables : w'.tables = w.tables) : HistoryInv cfg crypto w' :=
  inv.of_le written saves (fun c ↦ by rw [nvc]) (by rw [tables]; exact inv.tables)

theorem World.le_raise (w : World Tag m) (c c' : Fin 3) (j : ℕ) :
    w.nvc c' ≤ (w.raise c j).nvc c' := by
  rcases eq_or_ne c' c with rfl | ne
  · simp [World.raise]
  · simp [World.raise, ne]

theorem HistoryInv.raise {w : World Tag m} (inv : HistoryInv cfg crypto w) (i j k : ℕ) :
    HistoryInv cfg crypto (((w.raise 1 i).raise 2 j).tick k) :=
  inv.of_le rfl rfl (fun c ↦ (w.le_raise 1 c i).trans ((w.raise 1 i).le_raise 2 c j)) inv.tables

theorem HistoryInv.removed {w : World Tag m} (inv : HistoryInv cfg crypto w) (i : Fin 2) :
    HistoryInv cfg crypto (w.removed i) := by
  refine inv.of_le rfl rfl (fun _ ↦ le_rfl) fun j table here ↦ ?_
  rcases eq_or_ne j i with rfl | ne
  · simp [World.removed] at here
  · refine inv.tables j table ?_
    rw [← here]
    exact (Function.update_of_ne ne ..).symm

theorem HistoryInv.counted {w : World Tag m} (inv : HistoryInv cfg crypto w) :
    HistoryInv cfg crypto w.counted := by
  refine inv.of_le rfl rfl (fun c ↦ ?_) inv.tables
  rcases eq_or_ne c 0 with rfl | ne
  · simp [World.counted]
  · simp [World.counted, ne]

theorem HistoryInv.begun {w : World Tag m} (inv : HistoryInv cfg crypto w)
    (data : TableData Tag m) : HistoryInv cfg crypto (w.begun data) where
  written := by
    intro table member
    obtain ⟨v, tagged, save⟩ := inv.written table member
    exact ⟨v, tagged, .tail _ save⟩
  tables := inv.tables
  ordered := ⟨fun s member ↦ Nat.lt_succ_of_le (inv.bounded s member), inv.ordered⟩
  bounded := by
    rintro s (_ | ⟨_, member⟩)
    · exact le_rfl
    · exact (inv.counted).bounded s member
  completed := by
    rintro nvc data' (_ | ⟨_, member⟩)
    exact inv.counted.completed nvc data' member

theorem HistoryInv.stored {w : World Tag m} (inv : HistoryInv cfg crypto w) (i : Fin 2)
    (table : Table Tag m) (iv : Iv) :
    HistoryInv cfg crypto (w.stored cfg crypto i table iv) where
  written := by
    rintro other (_ | ⟨_, member⟩)
    · exact ⟨w.nvc 0 + 1, rfl, List.mem_cons_self⟩
    · exact (inv.begun table.data).written other member
  tables := by
    intro j other here
    rcases eq_or_ne j i with rfl | ne
    · have eq : other = w.savedTable cfg crypto table iv := by
        simpa [World.stored] using here.symm
      rw [eq]
      exact List.mem_cons_self
    · refine .tail _ (inv.tables j other ?_)
      rw [← here]
      exact (Function.update_of_ne ne ..).symm
  ordered := (inv.begun table.data).ordered
  bounded := (inv.begun table.data).bounded
  completed := (inv.begun table.data).completed

theorem World.le_completed (w : World Tag m) (i : Fin 2) (table : Table Tag m) (iv : Iv) :
    ∀ c, w.nvc 0 + 1 ≤ (w.completed cfg crypto i table iv).nvc c
  | 0 => le_rfl
  | 1 => by
      change _ ≤ w.nvc 1 + (w.nvc 0 + 1 - w.nvc 1)
      omega
  | 2 => by
      change _ ≤ w.nvc 2 + (w.nvc 0 + 1 - w.nvc 2)
      omega

theorem HistoryInv.completeSave {w : World Tag m} (inv : HistoryInv cfg crypto w) (i : Fin 2)
    (table : Table Tag m) (iv : Iv) :
    HistoryInv cfg crypto (w.completed cfg crypto i table iv) := by
  have stored := (inv.stored i table iv).raise (w.nvc 0 + 1 - w.nvc 1) (w.nvc 0 + 1 - w.nvc 2) w.ops
  refine ⟨?_, stored.tables, ⟨?_, stored.ordered⟩, ?_, ?_⟩
  · intro other member
    obtain ⟨v, tagged, save⟩ := stored.written other member
    exact ⟨v, tagged, .tail _ save⟩
  · rintro s (_ | ⟨_, member⟩)
    · exact ⟨le_rfl, fun _ ↦ rfl⟩
    · have le := inv.bounded s member
      exact ⟨Nat.le_succ_of_le le, fun eq ↦ absurd eq (Nat.ne_of_lt (Nat.lt_succ_of_le le))⟩
  · rintro s (_ | ⟨_, member⟩)
    · exact le_rfl
    · exact stored.bounded s member
  · rintro nvc data (_ | ⟨_, member⟩) c
    · exact w.le_completed i table iv c
    · exact stored.completed nvc data member c

/-- Requests keep the history in order. -/
theorem closed_historyInv :
    Closed cfg crypto (HistoryInv cfg crypto) (fun _ ↦ HistoryInv cfg crypto) where
  crash inv := inv
  frame inv _ _ _ _ := inv
  object {_ w} o object inv := by
    obtain ⟨objects, decryptions, k, after⟩ := handle_object cfg object w
    rw [after]
    exact inv.congr rfl rfl rfl rfl
  skip _ inv := inv
  encrypt _ _ _ _ inv := by
    rw [handle_encrypted]
    exact inv.congr rfl rfl rfl rfl
  save {ram w} inv := by
    have idle : ∀ k, HistoryInv cfg crypto (w.tick k) := fun k ↦ inv.congr rfl rfl rfl rfl
    have counted : ∀ k, HistoryInv cfg crypto (w.counted.tick k) := fun k ↦
      inv.counted.congr rfl rfl rfl rfl
    have begun : ∀ k, HistoryInv cfg crypto ((w.begun ram.objTable.data).tick k) := fun k ↦
      (inv.begun _).congr rfl rfl rfl rfl
    have completed : ∀ iv k, HistoryInv cfg crypto
        ((w.completed cfg crypto ram.scratchTable ram.objTable iv).tick k) := fun iv k ↦
      (inv.completeSave ..).congr rfl rfl rfl rfl
    exact spec_saveTable (fun k ↦ ⟨idle k, fun _ _ _ ↦ idle k⟩)
      (fun _ k ↦ ⟨counted k, fun _ _ _ ↦ counted k⟩) (fun _ k ↦ ⟨begun k, fun _ _ _ _ ↦ begun k⟩)
      (fun _ iv _ k ↦ ⟨(begun k).congr rfl rfl rfl rfl, fun _ _ _ _ _ ↦
        (begun k).congr rfl rfl rfl rfl⟩)
      (fun _ iv _ i j k _ _ ↦
        ⟨(inv.stored ..).raise i j k, fun _ _ _ ↦ (inv.stored ..).raise i j k⟩)
      fun _ iv _ k ↦ ⟨completed iv k, fun _ ↦ completed iv k⟩
  remove {ram w} inv := by
    rcases handle_removeTable cfg w ram.scratchTable with after | after
    · rw [after]
      exact inv.congr rfl rfl rfl rfl
    · rw [after]
      exact (inv.removed _).congr rfl rfl rfl rfl

/-! ## Boots -/

/-- A boot keeps the history in order, whatever fails. -/
theorem keeps_psSystemPrepare :
    Keeps cfg (HistoryInv cfg crypto) (fun _ ↦ HistoryInv cfg crypto)
      (psSystemPrepare cfg crypto) := by
  refine .bind (fun ram w inv ↦ ?_) fun err ↦ ?_
  · have idle : ∀ k, HistoryInv cfg crypto (w.tick k) := fun k ↦ inv.congr rfl rfl rfl rfl
    have removed := fun active i j k ↦ (inv.removed (otherTable active)).raise i j k
    exact spec_init idle (fun _ k _ _ ↦ idle k) fun _ _ active _ _ _ _ ↦
      ⟨fun k _ ↦ idle k, fun i j k _ _ ↦ removed active i j k,
        fun i j k _ ↦ removed active i j k, fun k ↦ removed active _ _ k⟩
  · exact .ite (fun _ _ inv ↦ ⟨inv, inv⟩) fun _ _ inv ↦ ⟨inv, inv⟩

section

variable [Inhabited Tag]

theorem keeps_psSystemWipeAll :
    Keeps cfg (HistoryInv cfg crypto) (fun _ ↦ HistoryInv cfg crypto)
      (psSystemWipeAll cfg crypto) :=
  .bind (fun _ _ inv ↦ ⟨inv, inv⟩) fun _ ↦ closed_historyInv.saveTable

theorem keeps_tfmPsInit :
    Keeps cfg (HistoryInv cfg crypto) (fun _ ↦ HistoryInv cfg crypto) (tfmPsInit cfg crypto) :=
  .bind keeps_psSystemPrepare fun _ ↦ .ite
    (.bind keeps_psSystemWipeAll fun _ ↦ .ite keeps_psSystemPrepare fun _ _ inv ↦ ⟨inv, inv⟩)
    fun _ _ inv ↦ ⟨inv, inv⟩

/-- An accepted table is not older than that of the last completed save. -/
theorem HistoryInv.mem_sinceLastSaved {w : World Tag m} (inv : HistoryInv cfg crypto w)
    {fails : Op Tag m → ℕ → Bool} {data : TableData Tag m}
    (accept : accepted cfg crypto fails w = some data) : data ∈ sinceLastSaved w.saves := by
  obtain ⟨ram, run, rfl⟩ := Option.map_eq_some_iff.1 accept
  have spec : Spec (Op.handle cfg) (fun _ ↦ True) (psObjectTableInit cfg crypto)
      (fun err ram' _ ↦ err = .success → ram'.objTable.data ∈ sinceLastSaved w.saves) .reset
      (w.arm fails) := by
    refine spec_init (fun _ ↦ trivial) (fun err k ne _ eq ↦ absurd eq ne) ?_
    intro result0 result1 active table read0 read1 choose
    refine ⟨fun _ _ ↦ by rintro ⟨⟩, fun _ _ _ _ _ ↦ trivial, fun _ _ _ _ ↦ by rintro ⟨⟩,
      fun _ _ ↦ ?_⟩
    obtain ⟨read, -, nvc, counter, authentic⟩ := chooseTable_eq_some choose
    have stored : ∃ i, w.tables i = some table := by
      split at read
      · exact ⟨0, World.Reads.stored (w := w.arm fails) (read ▸ read0)⟩
      · exact ⟨1, World.Reads.stored (w := w.arm fails) (read ▸ read1)⟩
    obtain ⟨i, stored⟩ := stored
    obtain ⟨v, tagged, save⟩ := inv.written table (inv.tables i table stored)
    cases (tagged.authentic_iff nvc).1 authentic
    refine inv.ordered.mem_sinceLastSaved save fun nvc' data' completed ↦ ?_
    rcases counter with rfl | rfl
    · exact inv.completed nvc' data' completed 0
    · exact inv.completed nvc' data' completed 2
  exact (execute_spec spec none).2 _ _ (running_eq_some.1 run) rfl

/-! ## Runs -/

theorem historyInv_step {x y : Machine Tag m} {a : Action Tag m}
    (inv : HistoryInv cfg crypto x.world) (earlier : EarlierContents x a)
    (step_eq : step cfg crypto x a = some y) : HistoryInv cfg crypto y.world := by
  have armed : ∀ fails, HistoryInv cfg crypto (x.world.arm fails) := fun fails ↦
    inv.congr rfl rfl rfl rfl
  cases a with
  | boot fails cut =>
      cases step_eq
      exact (execute_spec (keeps_tfmPsInit .reset _ (armed fails)) cut).1
  | request r fails cut =>
      rw [step] at step_eq
      split at step_eq
      · cases step_eq
      · next ram _ =>
          cases step_eq
          exact (execute_spec (closed_historyInv.request r ram _ (armed fails)) cut).1
  | wipe fails cut =>
      rw [step] at step_eq
      split at step_eq
      · cases step_eq
      · next ram _ =>
          cases step_eq
          exact (execute_spec (keeps_psSystemWipeAll ram _ (armed fails)) cut).1
  | powerOff =>
      cases step_eq
      exact inv
  | replace tables =>
      rw [step] at step_eq
      split at step_eq
      · cases step_eq
        exact inv.of_le rfl rfl (fun _ ↦ le_rfl) earlier
      · cases step_eq

omit [Inhabited Tag] in
theorem historyInv_blank : HistoryInv cfg crypto (.blank : World Tag m) where
  written := by rintro _ ⟨⟩
  tables := by rintro _ _ ⟨⟩
  ordered := trivial
  bounded := by rintro _ ⟨⟩
  completed := by rintro _ _ ⟨⟩

theorem historyInv_of_reaches {x : Machine Tag m}
    (reaches : Run.Reaches (step cfg crypto) EarlierContents ⟨.blank, none⟩ x) :
    HistoryInv cfg crypto x.world :=
  reaches.invariant historyInv_blank fun _ _ _ ↦ historyInv_step

/-- Whatever is put back and whatever fails, a boot accepts the table of the last completed save or
of a save that began after it. -/
theorem accepted_mem_sinceLastSaved (cfg : Config) (crypto : Crypto Tag m) (x : Machine Tag m)
    (reaches : Run.Reaches (step cfg crypto) EarlierContents ⟨.blank, none⟩ x)
    (fails : Op Tag m → ℕ → Bool) (data : TableData Tag m)
    (accept : accepted cfg crypto fails x.world = some data) :
    data ∈ sinceLastSaved x.world.saves :=
  (historyInv_of_reaches reaches).mem_sinceLastSaved accept

end

/-- A save is cut off after the table has been written, and the older table is put back.  The system
boots with it, and the next save is cut off before its table is written.  Now the first table is
accepted, although its save has neither been completed nor is it in progress. -/
theorem not_accepted_mem_durable :
    ¬∀ (x : Machine Code 1) (data : TableData Code 1),
      Run.Reaches (step sampleConfig sampleCrypto) EarlierContents ⟨.blank, none⟩ x →
      accepted sampleConfig sampleCrypto noFails x.world = some data →
      data ∈ durable x.world.saves := by
  intro latest
  have attack : (sampleRun [.boot noFails none,
      .request (.set 5 7 1 0 [1]) noFails (some 12)]).any (fun x ↦
        (Run.exec (step sampleConfig sampleCrypto) x [.replace fun _ ↦ x.world.tables 0,
          .boot noFails none, .request (.set 5 7 1 0 [2]) noFails (some 8)]).any fun y ↦
          (x.world.tables 1).all (fun table ↦ table ∈ y.world.written) ∧
          (step sampleConfig sampleCrypto y (.replace fun _ ↦ x.world.tables 1)).any fun z ↦
            (accepted sampleConfig sampleCrypto noFails z.world).any fun data ↦
              data ∉ durable z.world.saves) = true := by
    decide +kernel
  obtain ⟨x, run, attack⟩ := (Option.any_eq_true ..).1 attack
  obtain ⟨y, run', attack⟩ := (Option.any_eq_true ..).1 attack
  obtain ⟨kept, attack⟩ := of_decide_eq_true attack
  obtain ⟨z, last, attack⟩ := (Option.any_eq_true ..).1 attack
  obtain ⟨data, accept, old⟩ := (Option.any_eq_true ..).1 attack
  have reaches : Run.Reaches (step sampleConfig sampleCrypto) EarlierContents ⟨.blank, none⟩ x :=
    Run.exec_reaches run ⟨trivial, fun _ _ ↦ ⟨trivial, fun _ _ ↦ trivial⟩⟩
  have reaches' := reaches.trans (Run.exec_reaches run' ⟨fun _ table held ↦
    (historyInv_of_reaches reaches).tables 0 table held,
    fun _ _ ↦ ⟨trivial, fun _ _ ↦ ⟨trivial, fun _ _ ↦ trivial⟩⟩⟩)
  have earlier : EarlierContents y (.replace fun _ ↦ x.world.tables 1) := fun _ table held ↦
    of_decide_eq_true ((Option.all_eq_true ..).1 kept table held)
  exact of_decide_eq_true old (latest z data (.tail reaches' earlier last) accept)

/-- The table of the last completed save is put back over that of a save that has been cut off, and
it is accepted. -/
theorem accepted_put_back :
    ∃ x y data, sampleRun [.boot noFails none,
      .request (.set 5 7 1 0 [1]) noFails (some 12)] = some x ∧
      step sampleConfig sampleCrypto x (.replace fun _ ↦ x.world.tables 0) = some y ∧
      accepted sampleConfig sampleCrypto noFails y.world = some data ∧
      data ∈ sinceLastSaved y.world.saves := by
  have accept : (sampleRun [.boot noFails none,
      .request (.set 5 7 1 0 [1]) noFails (some 12)]).any (fun x ↦
        (step sampleConfig sampleCrypto x (.replace fun _ ↦ x.world.tables 0)).any fun y ↦
          (accepted sampleConfig sampleCrypto noFails y.world).isSome) = true := by
    decide +kernel
  obtain ⟨x, run, accept⟩ := (Option.any_eq_true ..).1 accept
  obtain ⟨y, replaced, accept⟩ := (Option.any_eq_true ..).1 accept
  obtain ⟨data, accept⟩ := Option.isSome_iff_exists.1 accept
  have reaches : Run.Reaches (step sampleConfig sampleCrypto) EarlierContents ⟨.blank, none⟩ x :=
    Run.exec_reaches run ⟨trivial, fun _ _ ↦ ⟨trivial, fun _ _ ↦ trivial⟩⟩
  have earlier : EarlierContents x (.replace fun _ ↦ x.world.tables 0) := fun _ table held ↦
    (historyInv_of_reaches reaches).tables 0 table held
  exact ⟨x, y, data, run, replaced, accept, accepted_mem_sinceLastSaved sampleConfig sampleCrypto y
    (.tail reaches earlier replaced) noFails data accept⟩

end TrustedFirmwareM.Ps
