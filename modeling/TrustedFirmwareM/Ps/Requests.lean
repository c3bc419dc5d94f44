import TrustedFirmwareM.Ps.Serving

/-!
# Requests without faults

What a request returns and does to the slots, when no operation fails.
-/

namespace TrustedFirmwareM.Ps

open Program

variable {Tag : Type} {m : ℕ} {cfg : Config} {crypto : Crypto Tag m}

/-! ## Responses -/

/-- What a client gets back. -/
inductive Response
  /-- A status. -/
  | status (err : Status)
  /-- A status, and data of an object. -/
  | data (err : Status) (data : List (BitVec 8))
  /-- A status, and the size and the flags of an object. -/
  | info (err : Status) (size flags : Word)
  deriving DecidableEq

/-- The function behind a request, and what the client gets back. -/
def Request.serve [Inhabited Tag] (cfg : Config) (crypto : Crypto Tag m) :
    Request → PsM Tag m Response
  | .set clientId uid dataLength createFlags asset => do
      let err ← tfmPsSet cfg crypto clientId uid dataLength createFlags asset
      pure (.status err)
  | .get clientId uid dataOffset dataSize => do
      let result ← tfmPsGet cfg crypto clientId uid dataOffset dataSize
      pure (.data result.1 result.2)
  | .getInfo clientId uid => do
      let result ← tfmPsGetInfo cfg crypto clientId uid
      pure (.info result.1 result.2.1 result.2.2)
  | .remove clientId uid => do
      let err ← tfmPsRemove cfg crypto clientId uid
      pure (.status err)
  | .write clientId uid offset size asset => do
      let err ← psObjectWrite cfg crypto uid clientId offset size asset
      pure (.status err)

/-- The identifier that a request addresses. -/
def Request.uid : Request → Uid
  | .set _ uid _ _ _ | .get _ uid _ _ | .getInfo _ uid | .remove _ uid | .write _ uid _ _ _ => uid

/-- The client of a request. -/
def Request.clientId : Request → ℤ
  | .set clientId _ _ _ _ | .get clientId _ _ _ | .getInfo clientId _ | .remove clientId _
  | .write clientId _ _ _ _ => clientId

/-- The response of a request that fails. -/
def Request.failure (err : Status) : Request → Response
  | .get _ _ _ _ => .data err []
  | .getInfo _ _ => .info err 0 0
  | .set _ _ _ _ _ | .remove _ _ | .write _ _ _ _ _ => .status err

/-- Arguments that are refused before an object is looked up. -/
def Request.refusal (cfg : Config) : Request → Option Status
  | .set _ uid dataLength createFlags _ =>
      if uid = tfmPsInvalidUid then some .invalidArgument
      else if createFlags &&& ~~~7 ≠ 0 then some .notSupported
      else if cfg.maxAssetSize < dataLength then some .invalidArgument
      else none
  | .get _ uid _ _ | .getInfo _ uid | .remove _ uid =>
      if uid = tfmPsInvalidUid then some .invalidArgument else none
  | .write _ _ _ _ _ => none

/-- What reading an object returns. -/
def Payload.readResponse (plain : Payload) (offset size : Word) : Response :=
  if offset ≤ plain.currentSize then
    .data .success ((plain.data.drop offset.toNat).take
      (min size.toNat (plain.currentSize.toNat - offset.toNat)))
  else .data .invalidArgument []

/-- The object that is in memory after the data of a request has been read. -/
def Payload.received (plain : Payload) (offset : ℕ) (asset : List (BitVec 8)) (size : Word) :
    Payload :=
  { plain with data := overwrite plain.data offset (asset.take size.toNat) }

/-- What the client of a request gets back and what happens to the slots, for the key generation of
the table. -/
inductive Serves (cfg : Config) (slots : Slots m) (gen : Word) : Request → Response →
    Effect m → Prop
  /-- The arguments are refused. -/
  | refused {r : Request} {err : Status} (refusal : r.refusal cfg = some err) :
      Serves cfg slots gen r (r.failure err) .idle
  /-- There is no such object. -/
  | absent {r : Request} (refusal : r.refusal cfg = none)
      (other : ∀ clientId uid dataLength createFlags asset,
        r ≠ .set clientId uid dataLength createFlags asset)
      (lacks : slots.Lacks r.uid r.clientId) :
      Serves cfg slots gen r (r.failure .doesNotExist) .idle
  /-- An object is read. -/
  | read {idx : Fin (m + 1)} {s : Slot} {offset size : Word} (here : slots idx = some s) :
      Serves cfg slots gen (.get s.clientId s.uid offset size) (s.plain.readResponse offset size)
        (.kept idx s ((s.read cfg).switchKeys cfg s.plain))
  /-- Size and flags of an object are read. -/
  | info {idx : Fin (m + 1)} {s : Slot} (here : slots idx = some s) :
      Serves cfg slots gen (.getInfo s.clientId s.uid)
        (.info .success s.plain.currentSize s.plain.createFlags)
        (.kept idx s ((s.read cfg).switchKeys cfg s.plain))
  /-- An object may not be replaced.  The keys are not switched here. -/
  | unreplaceable {idx : Fin (m + 1)} {s : Slot} {size flags : Word} {asset : List (BitVec 8)}
      (refusal : (Request.set s.clientId s.uid size flags asset).refusal cfg = none)
      (here : slots idx = some s) (once : s.plain.createFlags &&& psaStorageFlagWriteOnce ≠ 0) :
      Serves cfg slots gen (.set s.clientId s.uid size flags asset) (.status .notPermitted)
        (.kept idx s (s.read cfg))
  /-- There is too little data to replace an object. -/
  | unreplaced {idx : Fin (m + 1)} {s : Slot} {size flags : Word} {asset : List (BitVec 8)}
      (refusal : (Request.set s.clientId s.uid size flags asset).refusal cfg = none)
      (here : slots idx = some s) (many : s.plain.createFlags &&& psaStorageFlagWriteOnce = 0)
      (short : asset.length < size.toNat) :
      Serves cfg slots gen (.set s.clientId s.uid size flags asset) (.status .programmerError)
        (.kept idx s ((s.read cfg).switchKeys cfg (Payload.received
          { s.plain with createFlags := flags, maxSize := size } 0 asset size).trim))
  /-- An object is replaced. -/
  | replaced {idx new : Fin (m + 1)} {s : Slot} {size flags : Word} {asset : List (BitVec 8)}
      (refusal : (Request.set s.clientId s.uid size flags asset).refusal cfg = none)
      (here : slots idx = some s) (many : s.plain.createFlags &&& psaStorageFlagWriteOnce = 0)
      (enough : size.toNat ≤ asset.length) (free : slots new = none) :
      Serves cfg slots gen (.set s.clientId s.uid size flags asset) (.status .success)
        (.moved idx new s ((s.read cfg).store cfg ⟨size, size, flags, asset.take size.toNat⟩))
  /-- There is too little data for a new object. -/
  | uncreated {clientId : ℤ} {uid : Uid} {size flags : Word} {asset : List (BitVec 8)}
      (refusal : (Request.set clientId uid size flags asset).refusal cfg = none)
      (lacks : slots.Lacks uid clientId) (short : asset.length < size.toNat) :
      Serves cfg slots gen (.set clientId uid size flags asset) (.status .programmerError) .idle
  /-- There is no room for a new object. -/
  | full {clientId : ℤ} {uid : Uid} {size flags : Word} {asset : List (BitVec 8)}
      (refusal : (Request.set clientId uid size flags asset).refusal cfg = none)
      (lacks : slots.Lacks uid clientId) (enough : size.toNat ≤ asset.length)
      (few : slots.freeCount < 2) :
      Serves cfg slots gen (.set clientId uid size flags asset) (.status .insufficientStorage) .idle
  /-- An object is created. -/
  | created {new : Fin (m + 1)} {clientId : ℤ} {uid : Uid} {size flags : Word}
      {asset : List (BitVec 8)}
      (refusal : (Request.set clientId uid size flags asset).refusal cfg = none)
      (lacks : slots.Lacks uid clientId) (enough : size.toNat ≤ asset.length)
      (room : 2 ≤ slots.freeCount) (free : slots new = none) :
      Serves cfg slots gen (.set clientId uid size flags asset) (.status .success)
        (.created new (Slot.store cfg ⟨uid, clientId, gen, 0, ⟨0, size, flags, []⟩⟩
          ⟨size, size, flags, asset.take size.toNat⟩))
  /-- An object may not be removed or written. -/
  | unchangeable {r : Request} {idx : Fin (m + 1)} {s : Slot}
      (kind : r = .remove s.clientId s.uid ∨
        ∃ offset size asset, r = .write s.clientId s.uid offset size asset)
      (here : slots idx = some s) (once : s.plain.createFlags &&& psaStorageFlagWriteOnce ≠ 0) :
      Serves cfg slots gen r (.status .notPermitted)
        (.kept idx s ((s.read cfg).switchKeys cfg s.plain))
  /-- An object is removed. -/
  | removed {idx : Fin (m + 1)} {s : Slot} (here : slots idx = some s)
      (many : s.plain.createFlags &&& psaStorageFlagWriteOnce = 0) :
      Serves cfg slots gen (.remove s.clientId s.uid) (.status .success) (.deleted idx s)
  /-- A range of an object may not be written. -/
  | outside {idx : Fin (m + 1)} {s : Slot} {offset size : Word} {asset : List (BitVec 8)}
      (here : slots idx = some s) :
      Serves cfg slots gen (.write s.clientId s.uid offset size asset) (.status .invalidArgument)
        (.kept idx s ((s.read cfg).switchKeys cfg s.plain))
  /-- There is too little data to write. -/
  | unwritten {idx : Fin (m + 1)} {s : Slot} {offset size : Word} {asset : List (BitVec 8)}
      (here : slots idx = some s) (short : asset.length < size.toNat) :
      Serves cfg slots gen (.write s.clientId s.uid offset size asset) (.status .programmerError)
        (.kept idx s ((s.read cfg).switchKeys cfg (s.plain.received offset.toNat asset size).trim))
  /-- A range of an object is written. -/
  | written {idx new : Fin (m + 1)} {s : Slot} {offset size : Word} {asset : List (BitVec 8)}
      (here : slots idx = some s) (free : slots new = none) :
      Serves cfg slots gen (.write s.clientId s.uid offset size asset) (.status .success)
        (.moved idx new s ((s.read cfg).store cfg (Payload.trim
          { s.plain.received offset.toNat asset size with currentSize :=
              if s.plain.currentSize < offset + size then offset + size
              else s.plain.currentSize })))

/-- The key generation of the table after a request. -/
def Effect.gen (cfg : Config) (gen : Word) : Effect m → Word
  | .deleted _ s => if cfg.keyUsageLimit ≠ 0 ∧ gen ≤ s.gen then s.gen + 1 else gen
  | _ => gen

/-- A request has been served. -/
def Served (cfg : Config) (crypto : Crypto Tag m) (slots : Slots m) (r : Request) (ram : Ram Tag m)
    (w : World Tag m) (response : Response) (ram' : Ram Tag m) (w' : World Tag m) : Prop :=
  ∃ effect : Effect m, Serves cfg slots ram.objTable.gen r response effect ∧
    Serving cfg crypto (effect.apply slots) ram' w' ∧
    ram'.objTable.gen = effect.gen cfg ram.objTable.gen ∧
    ∀ label, w'.blocksUnder label = w.blocksUnder label + effect.blocksUnder label

theorem length_overwrite {buffer : List (BitVec 8)} {offset : ℕ} (inside : offset ≤ buffer.length)
    (data : List (BitVec 8)) :
    (overwrite buffer offset data).length = max buffer.length (offset + data.length) := by
  simp only [overwrite, List.length_append, List.length_take, List.length_drop]
  omega

theorem Payload.valid_trim {plain : Payload} (enough : plain.currentSize.toNat ≤ plain.data.length)
    (size : plain.currentSize ≤ cfg.maxAssetSize) (maxSize : plain.maxSize ≤ cfg.maxAssetSize) :
    plain.trim.Valid cfg :=
  ⟨List.length_take_of_le enough, size, maxSize⟩

theorem Payload.Valid.trim {plain : Payload} (valid : plain.Valid cfg) : plain.trim = plain := by
  rw [Payload.trim, ← valid.length, List.take_length]

/-- Writing a range inside the largest size leaves the sizes fitting together. -/
theorem Payload.Valid.trim_written {plain : Payload} (valid : plain.Valid cfg) {offset size : Word}
    {asset : List (BitVec 8)} (inside : offset.toNat ≤ plain.data.length)
    (contained : ¬psUtilsCheckContainedIn plain.maxSize offset size ≠ .success)
    (enough : size.toNat ≤ asset.length) :
    Payload.Valid cfg (Payload.trim { plain.received offset.toNat asset size with currentSize :=
      if plain.currentSize < offset + size then offset + size else plain.currentSize }) := by
  have length := valid.length
  have maxSize := valid.maxSize
  rw [psUtilsCheckContainedIn] at contained
  split at contained
  · exact absurd (by rintro ⟨⟩) contained
  next low =>
  split at contained
  · exact absurd (by rintro ⟨⟩) contained
  next high =>
  have sum : (offset + size).toNat = offset.toNat + size.toNat := by bv_omega
  refine Payload.valid_trim ?_ ?_ maxSize
  · change BitVec.toNat (if _ then _ else _) ≤ (overwrite plain.data offset.toNat _).length
    rw [length_overwrite inside, List.length_take_of_le enough]
    split <;> omega
  · change (if _ then _ else _) ≤ cfg.maxAssetSize
    split
    · bv_omega
    · exact valid.size

theorem Payload.trim_received (plain : Payload) {size : Word} {asset : List (BitVec 8)}
    (enough : size.toNat ≤ asset.length) :
    Payload.trim { plain.received 0 asset size with currentSize := size } =
      ⟨size, plain.maxSize, plain.createFlags, asset.take size.toNat⟩ := by
  have length : (asset.take size.toNat).length = size.toNat := by
    rw [List.length_take]
    omega
  simp only [Payload.trim, Payload.received, overwrite, List.take_zero, List.nil_append]
  rw [List.take_append_of_le_length length.ge, List.take_of_length_le length.le]

/-! ## Serving requests -/

section

variable [Inhabited Tag] {slots : Slots m} {ram : Ram Tag m} {w : World Tag m}

/-! ### Reading -/

theorem Serving.serve_get (serving : Serving cfg crypto slots ram w) (small : cfg.nvMax < 2 ^ 32)
    (works : w.fails = noFails) (room : w.nvc 0 < cfg.nvMax) (clientId : ℤ) (uid : Uid)
    (offset size : Word) :
    Returns (Op.handle cfg) ((Request.get clientId uid offset size).serve cfg crypto)
      (Served cfg crypto slots (.get clientId uid offset size) ram w) ram w := by
  rw [Request.serve, returns_bind, tfmPsGet]
  split
  · next invalid =>
      exact ⟨.idle, .refused (by rw [Request.refusal, if_pos invalid]), serving, rfl, fun _ ↦ rfl⟩
  next valid =>
  have refusal : (Request.get clientId uid offset size).refusal cfg = none := by
    rw [Request.refusal, if_neg valid]
  rw [psObjectRead, returns_bind]
  refine serving.returns_lookup valid
    (fun lacks _ ↦ ?_) fun idx s here uid_eq clientId_eq found ↦ ?_
  · exact ⟨.idle, .absent refusal (by rintro _ _ _ _ _ ⟨⟩) lacks, serving, rfl, fun _ ↦ rfl⟩
  subst uid_eq clientId_eq
  rw [if_neg (not_not.2 rfl), returns_bind]
  refine serving.returns_read works here fun ram₁ w₁ read ↦ ?_
  dsimp only
  rw [if_neg (not_not.2 rfl), returns_bind, returns_get]
  refine serving.returns_finishRead small works room here found read
    (fun switched ↦ if decide (offset ≤ ram₁.object.payload.currentSize) = true then switched
      else .invalidArgument) _ fun ram' w' serving' gen used ↦ ?_
  have response : ∀ data, data = (if decide (offset ≤ s.plain.currentSize) = true then
      (s.plain.data.drop offset.toNat).take
        (min size.toNat (s.plain.currentSize.toNat - offset.toNat)) else []) →
      Response.data (if decide (offset ≤ s.plain.currentSize) = true then .success
        else .invalidArgument) data = s.plain.readResponse offset size := by
    rintro _ rfl
    rw [Payload.readResponse]
    by_cases inside : offset ≤ s.plain.currentSize <;> simp [inside]
  rw [read.payload, clearObject, returns_bind, returns_modify, returns_pure, returns_pure,
    response _ rfl]
  exact ⟨_, .read here, serving'.congr rfl rfl rfl rfl rfl rfl fun _ _ ↦ rfl, gen, used⟩

theorem Serving.serve_getInfo (serving : Serving cfg crypto slots ram w)
    (small : cfg.nvMax < 2 ^ 32)
    (works : w.fails = noFails) (room : w.nvc 0 < cfg.nvMax) (clientId : ℤ) (uid : Uid) :
    Returns (Op.handle cfg) ((Request.getInfo clientId uid).serve cfg crypto)
      (Served cfg crypto slots (.getInfo clientId uid) ram w) ram w := by
  rw [Request.serve, returns_bind, tfmPsGetInfo]
  split
  · next invalid =>
      exact ⟨.idle, .refused (by rw [Request.refusal, if_pos invalid]), serving, rfl, fun _ ↦ rfl⟩
  next valid =>
  have refusal : (Request.getInfo clientId uid).refusal cfg = none := by
    rw [Request.refusal, if_neg valid]
  rw [psObjectGetInfo, returns_bind]
  refine serving.returns_lookup valid
    (fun lacks _ ↦ ?_) fun idx s here uid_eq clientId_eq found ↦ ?_
  · exact ⟨.idle, .absent refusal (by rintro _ _ _ _ _ ⟨⟩) lacks, serving, rfl, fun _ ↦ rfl⟩
  subst uid_eq clientId_eq
  rw [if_neg (not_not.2 rfl), returns_bind]
  refine serving.returns_read works here fun ram₁ w₁ read ↦ ?_
  dsimp only
  rw [if_neg (not_not.2 rfl), returns_bind, returns_get]
  refine serving.returns_finishRead small works room here found read id _
    fun ram' w' serving' gen used ↦ ?_
  rw [read.payload, clearObject, returns_bind, returns_modify, returns_pure, returns_pure]
  exact ⟨_, .info here, serving'.congr rfl rfl rfl rfl rfl rfl fun _ _ ↦ rfl, gen, used⟩

/-! ### Creating and replacing -/

/-- An object that is not there is created. -/
theorem Serving.returns_create (serving : Serving cfg crypto slots ram w)
    (small : cfg.nvMax < 2 ^ 32)
    (works : w.fails = noFails) (room : w.nvc 0 < cfg.nvMax) {clientId : ℤ} {uid : Uid}
    {size flags : Word} {asset : List (BitVec 8)}
    (refusal : (Request.set clientId uid size flags asset).refusal cfg = none)
    (valid : uid ≠ tfmPsInvalidUid) (fits : size ≤ cfg.maxAssetSize)
    (lacks : slots.Lacks uid clientId)
    (found : psGetObjectEntryIdx ram.objTable.data.objDb uid clientId = none) :
    Returns (Op.handle cfg) (do
      let exit ← createBody cfg crypto uid clientId flags size asset false
      let _ ←
        { exit with switchKeys := exit.switchKeys && exit.oldFid.isSome }.switchKeysIfNecessary
          cfg crypto
      let err ← exit.updateTable cfg crypto uid clientId false
      let err ← exit.removeOldFile err
      clearObject
      pure err) (fun err ↦ Served cfg crypto slots (.set clientId uid size flags asset) ram w
        (.status err)) ram w := by
  obtain ⟨iv, get⟩ := serving.exists_iv small room
  have gen := serving.gen
  rw [returns_bind, createBody, if_neg Bool.false_ne_true, returns_bind, psInitEmptyObject,
    returns_modify, returns_bind, modifyPayload, returns_modify]
  by_cases short : asset.length < size.toNat
  · simp only [psReqMngrReadAssetData, if_pos short]
    rw [if_pos (by rintro ⟨⟩), returns_pure]
    refine Serving.returns_exitIdle (?_ : Serving cfg crypto slots _ w)
      ⟨.programmerError, none, 0, true⟩ (by rintro ⟨⟩) uid clientId fun ram' serving' gen' ↦ ?_
    · exact serving.congr rfl rfl rfl rfl rfl rfl fun _ _ ↦ rfl
    exact ⟨.idle, .uncreated refusal lacks short, serving', gen', fun _ ↦ rfl⟩
  · simp only [psReqMngrReadAssetData, if_neg short]
    rw [if_neg (not_not.2 rfl)]
    have count := serving.holds.freeCount serving.valid
    rcases Nat.lt_or_ge slots.freeCount 2 with few | enough
    · refine returns_storeInNewFile_full (count.trans_lt few) ?_
      refine Serving.returns_exitIdle (?_ : Serving cfg crypto slots _ w)
        ⟨.insufficientStorage, none, 0, true⟩
          (by rintro ⟨⟩) uid clientId fun ram' serving' gen' ↦ ?_
      · exact serving.congr rfl rfl rfl rfl rfl rfl fun _ _ ↦ rfl
      exact ⟨.idle, .full refusal lacks (Nat.not_lt.1 short) few, serving', gen', fun _ ↦ rfl⟩
    · refine returns_storeInNewFile
        (s := ⟨uid, clientId, ram.objTable.gen, 0, ⟨0, size, flags, []⟩⟩)
        ⟨size, size, flags, asset.take size.toNat⟩ works get
          (gen_ne_allOnes gen small room) rfl rfl ?_ (by decide) (count.symm ▸ enough)
        fun new blocks' ram₂ w₂ entry storing sealed numBlocks used ↦ ?_
      · exact Payload.trim_received ⟨0, size, flags, []⟩ (Nat.not_lt.1 short)
      have plain : Payload.Valid cfg ⟨size, size, flags, asset.take size.toNat⟩ :=
        ⟨List.length_take_of_le (Nat.not_lt.1 short), fits, fits⟩
      have next := Slot.Next.store plain
        (s := ⟨uid, clientId, ram.objTable.gen, 0, ⟨0, size, flags, []⟩⟩)
      have free : slots new = none := serving.free_of_entry entry
      refine Serving.returns_exitStored
        (?_ : Serving cfg crypto slots _ w) small works room none next.uid
        next.clientId storing sealed numBlocks found (next.gen.trans (Nat.succ_le_succ gen)) ?_ free
        (by rintro _ ⟨⟩) _ rfl rfl false _ fun ram' w' serving' gen' used' ↦ ?_
      · exact serving.congr rfl rfl rfl rfl rfl rfl fun _ _ ↦ rfl
      · refine serving.valid.put (next.uid ▸ valid) next.plain
          (fun idx s here uid_eq clientId_eq ↦ ?_) ?_
        · exact absurd ⟨uid_eq.trans next.uid, clientId_eq.trans next.clientId⟩ (lacks idx s here)
        · obtain ⟨idx, ne, empty⟩ := Slots.exists_free enough new
          exact ⟨idx, ne, .inl empty⟩
      · exact ⟨_, .created refusal lacks (Nat.not_lt.1 short) enough free, serving', gen',
          fun label ↦ (used' label).trans (used label)⟩

/-- The end of a request that has moved an object to a new file. -/
theorem Serving.returns_exitMoved {Q : Status → Ram Tag m → World Tag m → Prop}
    (serving : Serving cfg crypto slots ram w) (small : cfg.nvMax < 2 ^ 32)
    (works : w.fails = noFails)
    (room : w.nvc 0 < cfg.nvMax) {idx new : Fin (m + 1)} {s s' : Slot} (here : slots idx = some s)
    (found : psGetObjectEntryIdx ram.objTable.data.objDb s.uid s.clientId = some idx)
    {plain : Payload} {ram₁ ram₂ : Ram Tag m} {w₁ w₂ : World Tag m}
    (read : HasRead cfg crypto idx s plain ram w ram₁ w₁) (next : (s.read cfg).Next cfg s')
    (entry : (ram₁.objTable.data.objDb new).uid = tfmPsInvalidUid)
    (storing : Storing (psObjectFsId new) ram₁ w₁ ram₂ w₂)
    (sealed : Sealed crypto (psObjectFsId new) s' ram₂ w₂)
    (numBlocks : ram₂.numBlocks = s'.numBlocks)
    (used : ∀ label, w₂.blocksUnder label = w₁.blocksUnder label + s'.blocksUnder label)
    (exit : Exit) (success : exit.err = .success) (oldFid : exit.oldFid = some ram₁.fid) (sw : Bool)
    (after : ∀ ram' w', slots new = none →
      Serving cfg crypto ((Effect.moved idx new s s').apply slots) ram' w' →
      ram'.objTable.gen = ram.objTable.gen →
      (∀ label, w'.blocksUnder label = w.blocksUnder label +
        (Effect.moved idx new s s').blocksUnder label) → Q .success ram' w') :
    Returns (Op.handle cfg) (do
      let _ ← { exit with switchKeys := sw }.switchKeysIfNecessary cfg crypto
      let err ← exit.updateTable cfg crypto s.uid s.clientId true
      let err ← exit.removeOldFile err
      clearObject
      pure err) Q ram₂ w₂ := by
  have next : s.Next cfg s' := ⟨next.uid, next.clientId, next.gen, next.plain⟩
  have free : slots new = none := serving.free_of_entry (read.storing.objTable ▸ entry)
  have gen : s'.gen.toNat ≤ w.nvc 0 + 1 :=
    next.gen.trans (Nat.succ_le_succ (serving.gens idx s here))
  rw [read.storing.fid] at oldFid
  refine serving.returns_exitStored small works room (some idx) next.uid next.clientId
    (read.then storing) sealed numBlocks found gen (serving.valid_moved here free next) free ?_ exit
    success oldFid true sw fun ram' w' serving' gen' used' ↦
      after ram' w' free serving' gen' fun label ↦ ?_
  · rintro _ ⟨⟩
    rw [here]
    rintro ⟨⟩
  · rw [used', used, read.blocksUnder, Nat.add_assoc]
    rfl

/-- An object that is there is replaced. -/
theorem Serving.returns_replace (serving : Serving cfg crypto slots ram w)
    (small : cfg.nvMax < 2 ^ 32)
    (works : w.fails = noFails) (room : w.nvc 0 < cfg.nvMax) {idx : Fin (m + 1)} {s : Slot}
    {size flags : Word} {asset : List (BitVec 8)}
    (refusal : (Request.set s.clientId s.uid size flags asset).refusal cfg = none)
    (fits : size ≤ cfg.maxAssetSize) (here : slots idx = some s)
    (found : psGetObjectEntryIdx ram.objTable.data.objDb s.uid s.clientId = some idx) :
    Returns (Op.handle cfg) (do
      let exit ← createBody cfg crypto s.uid s.clientId flags size asset true
      let _ ←
        { exit with switchKeys := exit.switchKeys && exit.oldFid.isSome }.switchKeysIfNecessary
          cfg crypto
      let err ← exit.updateTable cfg crypto s.uid s.clientId true
      let err ← exit.removeOldFile err
      clearObject
      pure err) (fun err ↦ Served cfg crypto slots (.set s.clientId s.uid size flags asset) ram w
        (.status err)) (ram.found idx) w := by
  have valid := serving.valid.plain idx s here
  rw [returns_bind, createBody, if_pos rfl, returns_bind]
  refine serving.returns_read works here fun ram₁ w₁ read ↦ ?_
  dsimp only
  rw [if_neg (not_not.2 rfl), returns_bind, returns_get, read.payload]
  by_cases once : s.plain.createFlags &&& psaStorageFlagWriteOnce ≠ 0
  · rw [if_pos once, returns_pure]
    refine serving.returns_exitKept small works room here found read ?_ rfl
      ⟨.notPermitted, none, s.plain.blocks, true⟩ (by rintro ⟨⟩) rfl false
      fun ram' w' serving' gen used ↦ ⟨_, .unreplaceable refusal here once, serving', gen, used⟩
    rwa [valid.trim]
  rw [if_neg once, returns_bind, modifyPayload, returns_modify, returns_bind, modifyPayload,
    returns_modify]
  have changed := read.withPayload
    (Payload.received { s.plain with createFlags := flags, maxSize := size } 0 asset size)
  by_cases short : asset.length < size.toNat
  · simp only [psReqMngrReadAssetData, if_pos short, read.payload]
    rw [if_pos (by rintro ⟨⟩), returns_pure]
    refine serving.returns_exitKept small works room here found changed ?_ rfl
      ⟨.programmerError, some ram₁.fid, s.plain.blocks, true⟩ (by rintro ⟨⟩) rfl true
      fun ram' w' serving' gen used ↦
        ⟨_, .unreplaced refusal here (not_not.1 once) short, serving', gen, used⟩
    refine Payload.valid_trim ?_ valid.size fits
    change s.plain.currentSize.toNat ≤ (overwrite s.plain.data 0 _).length
    rw [length_overwrite (Nat.zero_le _), ← valid.length]
    exact le_max_left ..
  · simp only [psReqMngrReadAssetData, if_neg short, read.payload]
    rw [if_neg (not_not.2 rfl)]
    obtain ⟨iv, get⟩ := serving.exists_iv small room
    have gen_ne := serving.gen_ne small room here
    have free := serving.valid.freeCount_pos
    rw [← serving.holds.freeCount serving.valid, ← read.storing.objTable] at free
    refine returns_storeInNewFile (s := s.read cfg)
      ⟨size, size, flags, asset.take size.toNat⟩ (changed.storing.between.fails.trans works)
      (changed.ivBuf ▸ get) gen_ne changed.label changed.numBlocks ?_ (by decide) free
      fun new blocks' ram₂ w₂ entry storing sealed numBlocks used ↦ ?_
    · exact Payload.trim_received { s.plain with createFlags := flags, maxSize := size }
        (Nat.not_lt.1 short)
    have plain : Payload.Valid cfg ⟨size, size, flags, asset.take size.toNat⟩ :=
      ⟨List.length_take_of_le (Nat.not_lt.1 short), fits, fits⟩
    exact serving.returns_exitMoved small works room here found changed (.store plain) entry storing
      sealed numBlocks used _ rfl rfl _ fun ram' w' free serving' gen used ↦
        ⟨_, .replaced refusal here (not_not.1 once) (Nat.not_lt.1 short) free, serving', gen, used⟩

theorem Serving.serve_set (serving : Serving cfg crypto slots ram w) (small : cfg.nvMax < 2 ^ 32)
    (works : w.fails = noFails) (room : w.nvc 0 < cfg.nvMax) (clientId : ℤ) (uid : Uid)
    (size flags : Word) (asset : List (BitVec 8)) :
    Returns (Op.handle cfg) ((Request.set clientId uid size flags asset).serve cfg crypto)
      (Served cfg crypto slots (.set clientId uid size flags asset) ram w) ram w := by
  have refused : ∀ err, (Request.set clientId uid size flags asset).refusal cfg = some err →
      Served cfg crypto slots (.set clientId uid size flags asset) ram w (.status err) ram w :=
    fun err refusal ↦ ⟨.idle, .refused refusal, serving, rfl, fun _ ↦ rfl⟩
  rw [Request.serve, returns_bind, tfmPsSet]
  rw [Request.refusal] at refused
  split
  · next invalid => exact refused _ (if_pos invalid)
  next valid =>
  rw [if_neg valid] at refused
  split
  · next other => exact refused _ (if_pos other)
  next known =>
  rw [if_neg known] at refused
  rw [psObjectCreate]
  split
  · next large => exact refused _ (if_pos large)
  next fits =>
  have refusal : (Request.set clientId uid size flags asset).refusal cfg = none := by
    rw [Request.refusal, if_neg valid, if_neg known, if_neg fits]
  have fits : size ≤ cfg.maxAssetSize := BitVec.not_lt.1 fits
  rw [returns_bind]
  refine serving.returns_lookup valid
    (fun lacks found ↦ ?_) fun idx s here uid_eq clientId_eq found ↦ ?_
  · exact serving.returns_create small works room refusal valid fits lacks found
  · subst uid_eq clientId_eq
    exact serving.returns_replace small works room refusal fits here found

/-! ### Removing -/

theorem Slots.Valid.delete (valid : slots.Valid cfg) (idx : Fin (m + 1)) :
    Slots.Valid cfg (Function.update slots idx none) := by
  have before : ∀ i s, Function.update slots idx none i = some s → slots i = some s := by
    intro i s here
    rcases eq_or_ne i idx with rfl | ne
    · rw [Function.update_self] at here
      cases here
    · rwa [Function.update_of_ne ne] at here
  exact ⟨fun i s here ↦ valid.uid i s (before i s here),
    fun i s here ↦ valid.plain i s (before i s here),
    fun i j s s' here here' ↦ valid.unique i j s s' (before i s here) (before j s' here'),
    ⟨idx, Function.update_self ..⟩⟩

theorem Holds.delete {db : Fin (m + 1) → Entry Tag} {objects : ℕ → Option ObjectFile}
    (holds : Holds crypto db objects slots) (idx : Fin (m + 1)) :
    Holds crypto (Function.update db idx .empty) objects (Function.update slots idx none) := by
  constructor
  case used =>
    intro i s here
    rcases eq_or_ne i idx with rfl | ne
    · rw [Function.update_self] at here
      cases here
    · rw [Function.update_of_ne ne] at here
      obtain ⟨iv, entry, file⟩ := holds.used i s here
      exact ⟨iv, (Function.update_of_ne ne ..).trans entry, file⟩
  case free =>
    intro i empty
    rcases eq_or_ne i idx with rfl | ne
    · rw [Function.update_self]
      rfl
    · rw [Function.update_of_ne ne] at empty ⊢
      exact holds.free i empty

omit [Inhabited Tag] in
theorem returns_setGenAfterDelete {Q : Unit → Ram Tag m → World Tag m → Prop} (idx : Fin (m + 1))
    {s : Slot} (gen : ram.object.gen = s.gen) (gen_ne : s.gen ≠ BitVec.allOnes 32)
    (after : Q () (ram.withGen ((Effect.deleted idx s).gen cfg ram.objTable.gen)) w) :
    Returns (Op.handle cfg) (setGenAfterDelete cfg) Q ram w := by
  rw [setGenAfterDelete, returns_bind, returns_get, gen]
  rw [Effect.gen] at after
  split
  · next raised =>
      rw [if_pos raised] at after
      rw [psObjectTableSetGen, returns_bind, returns_get, if_neg]
      · exact after
      · have last : BitVec.allOnes 32 = 4294967295 := rfl
        rw [last] at gen_ne
        bv_omega
  · next same =>
      rw [if_neg same] at after
      exact after

/-- An object that has been read is deleted. -/
theorem Serving.returns_delete {Q : Status → Ram Tag m → World Tag m → Prop}
    (serving : Serving cfg crypto slots ram w) (small : cfg.nvMax < 2 ^ 32)
    (works : w.fails = noFails)
    (room : w.nvc 0 < cfg.nvMax) {idx : Fin (m + 1)} {s : Slot} (here : slots idx = some s)
    (found : psGetObjectEntryIdx ram.objTable.data.objDb s.uid s.clientId = some idx)
    {ram₁ : Ram Tag m} {w₁ : World Tag m} (read : HasRead cfg crypto idx s s.plain ram w ram₁ w₁)
    (many : s.plain.createFlags &&& psaStorageFlagWriteOnce = 0)
    (after : ∀ ram' w', Serving cfg crypto ((Effect.deleted idx s).apply slots) ram' w' →
      ram'.objTable.gen = (Effect.deleted idx s).gen cfg ram.objTable.gen →
      (∀ label, w'.blocksUnder label = w.blocksUnder label +
        (Effect.deleted idx s).blocksUnder label) → Q .success ram' w') :
    Returns (Op.handle cfg) (deleteBody cfg crypto s.uid s.clientId) Q ram₁ w₁ := by
  obtain ⟨iv, get⟩ := serving.exists_iv small room
  obtain ⟨table, stored, -⟩ := serving.stored
  obtain ⟨_, -, file⟩ := serving.holds.used idx s here
  have gen_ne := serving.gen_ne small room here
  have works₁ : w₁.fails = noFails := read.storing.between.fails.trans works
  have nvc₁ : w₁.nvc = w.nvc := read.storing.between.nvc
  have tables₁ : w₁.tables ram₁.activeTable = some table := by
    rw [read.storing.between.tables, read.storing.active, stored]
  rw [deleteBody, returns_bind, returns_get, read.payload, if_neg (not_not.2 many), returns_bind,
    psObjectTableDeleteObject, returns_bind, returns_get]
  simp only [read.storing.objTable, found]
  rw [returns_bind, returns_modify, returns_bind]
  have scratch : ram₁.scratchTable = otherTable ram₁.activeTable := by
    rw [read.storing.scratch, read.storing.active, serving.scratch]
  refine returns_saveTable works₁ (nvc₁ ▸ room) (read.ivBuf ▸ get) scratch
    fun ram₂ w₂ saved ↦ ?_
  rw [if_pos rfl, returns_pure, onSuccess, if_pos rfl, returns_bind]
  have tableGen₁ : ram₁.objTable.gen = ram.objTable.gen := congrArg Table.gen read.storing.objTable
  have tableGen : ram₂.objTable.gen = ram.objTable.gen := saved.gen.trans tableGen₁
  have label : ram₂.object.label = s.label := (congrArg Object.label saved.object).trans read.label
  refine returns_setGenAfterDelete idx (congrArg Label.gen label) gen_ne ?_
  rw [returns_bind]
  refine Ps.returns_deleteOldTable (saved.fails.trans works₁) (saved.left.trans tables₁)
    fun w₃ tables nvc fails objects used ↦ ?_
  have saved₃ := saved.deleted scratch tables nvc fails objects used
  have objects₃ : w₃.objects = w.objects := saved₃.objects.trans read.objects
  have gen_le := serving.gens idx s here
  have serving₃ : Serving cfg crypto (Function.update slots idx none)
      (ram₂.withGen ((Effect.deleted idx s).gen cfg ram₂.objTable.gen)) w₃ := by
    refine serving.saved saved₃ read.storing.active read.storing.scratch nvc₁
      (read.ivBuf ▸ Nat.le_succ _) (congrArg (fun table ↦ table.data.version) read.storing.objTable)
      tableGen₁ ?_ (fun i s' here' ↦ ?_) ?_ (serving.valid.delete idx)
    · rw [tableGen, Effect.gen]
      have before := serving.gen
      split
      · rw [BitVec.toNat_add]
        exact (Nat.mod_le _ _).trans (Nat.succ_le_succ gen_le)
      · exact Nat.le_succ_of_le before
    · rcases eq_or_ne i idx with rfl | ne
      · rw [Function.update_self] at here'
        cases here'
      · rw [Function.update_of_ne ne] at here'
        exact Nat.le_succ_of_le (serving.gens i s' here')
    · rw [objects₃]
      change Holds crypto (Function.update ram₁.objTable.data.objDb idx .empty) _ _
      rw [read.storing.objTable]
      exact serving.holds.delete idx
  rw [onSuccess, if_pos rfl]
  refine returns_removeObject (saved₃.fails.trans works₁)
    fun err w₄ _ removed between objects₄ used₄ ↦ ?_
  rw [read.storing.fid] at removed objects₄
  cases removed (by rw [objects₃, file]; rintro ⟨⟩)
  refine after _ w₄ ?_ ?_ fun label ↦ ?_
  · refine serving₃.congr rfl rfl rfl rfl between.tables between.nvc fun i used ↦ ?_
    rw [objects₄, Function.update_of_ne]
    intro same
    cases psObjectFsId_inj.1 same
    exact used (Function.update_self ..)
  · exact congrArg (Effect.gen cfg · (Effect.deleted idx s)) tableGen
  · rw [used₄, saved₃.blocksUnder, read.blocksUnder]
    rfl

/-- The table is updated after a failed removal as it is after reading. -/
theorem returns_updateUndeleted {Q : Ram Tag m → World Tag m → Prop} {uid : Uid} {clientId : ℤ}
    {err : Status} (failure : err ≠ .success)
    (updates : Returns (Op.handle cfg) (updateUsage cfg crypto uid clientId err)
      (fun _ ↦ Q) ram w) :
    Returns (Op.handle cfg) (updateUndeleted cfg crypto uid clientId err) (fun _ ↦ Q) ram w := by
  rw [updateUsage] at updates
  rw [updateUndeleted]
  by_cases unlimited : cfg.keyUsageLimit = 0
  · rw [if_pos unlimited] at updates
    rw [if_neg fun limited ↦ limited.1 unlimited]
    exact updates
  · rw [if_neg unlimited, returns_bind] at updates
    rw [if_pos ⟨unlimited, failure⟩]
    exact updates

/-- The end of a request that fails to remove an object. -/
theorem Serving.returns_undeleted {Q : Status → Ram Tag m → World Tag m → Prop}
    (serving : Serving cfg crypto slots ram w) (small : cfg.nvMax < 2 ^ 32)
    (works : w.fails = noFails)
    (room : w.nvc 0 < cfg.nvMax) {idx : Fin (m + 1)} {s : Slot} (here : slots idx = some s)
    (found : psGetObjectEntryIdx ram.objTable.data.objDb s.uid s.clientId = some idx)
    {ram₁ : Ram Tag m} {w₁ : World Tag m} (read : HasRead cfg crypto idx s s.plain ram w ram₁ w₁)
    (after : ∀ ram' w',
      Serving cfg crypto (Function.update slots idx (some ((s.read cfg).switchKeys cfg s.plain)))
        ram' w' →
      ram'.objTable.gen = ram.objTable.gen →
      (∀ label, w'.blocksUnder label = w.blocksUnder label +
        Effect.blocksUnder label (.kept idx s ((s.read cfg).switchKeys cfg s.plain))) →
      Q .notPermitted ram' w') :
    Returns (Op.handle cfg) (do
      let _ ← (Exit.mk .notPermitted none s.plain.blocks true).switchKeysIfNecessary cfg crypto
      let _ ← updateUndeleted cfg crypto s.uid s.clientId .notPermitted
      clearObject
      pure .notPermitted) Q ram₁ w₁ := by
  have failure : Status.notPermitted ≠ .success := by rintro ⟨⟩
  have usage := serving.returns_finishRead (Q := Q) small works room here found read
    (fun _ ↦ .notPermitted) (fun _ ↦ do
      clearObject
      pure .notPermitted) fun ram' w' serving' gen used ↦
        serving'.returns_clearObject fun ram'' serving'' gen' ↦
          after ram'' w' serving'' (gen'.trans gen) used
  rw [returns_bind] at usage
  rw [returns_bind, Exit.switchKeysIfNecessary, if_pos ⟨rfl, failure⟩]
  refine usage.mono fun _ ram₂ w₂ updates ↦ ?_
  rw [returns_bind] at updates ⊢
  exact returns_updateUndeleted failure updates

theorem Serving.serve_remove (serving : Serving cfg crypto slots ram w) (small : cfg.nvMax < 2 ^ 32)
    (works : w.fails = noFails) (room : w.nvc 0 < cfg.nvMax) (clientId : ℤ) (uid : Uid) :
    Returns (Op.handle cfg) ((Request.remove clientId uid).serve cfg crypto)
      (Served cfg crypto slots (.remove clientId uid) ram w) ram w := by
  rw [Request.serve, returns_bind, tfmPsRemove]
  split
  · next invalid =>
      exact ⟨.idle, .refused (by rw [Request.refusal, if_pos invalid]), serving, rfl, fun _ ↦ rfl⟩
  next valid =>
  have refusal : (Request.remove clientId uid).refusal cfg = none := by
    rw [Request.refusal, if_neg valid]
  rw [returns_bind, psObjectDelete, returns_bind]
  refine serving.returns_lookup valid
    (fun lacks _ ↦ ?_) fun idx s here uid_eq clientId_eq found ↦ ?_
  · exact ⟨.idle, .absent refusal (by rintro _ _ _ _ _ ⟨⟩) lacks, serving, rfl, fun _ ↦ rfl⟩
  subst uid_eq clientId_eq
  rw [onSuccess, if_pos rfl, returns_bind]
  refine serving.returns_read works here fun ram₁ w₁ read ↦ ?_
  dsimp only
  rw [if_neg (not_not.2 rfl), returns_bind]
  by_cases once : s.plain.createFlags &&& psaStorageFlagWriteOnce ≠ 0
  · rw [deleteBody, returns_bind, returns_get, read.payload, if_pos once, returns_pure]
    exact serving.returns_undeleted small works room here found read fun ram' w' serving' gen used ↦
      ⟨_, .unchangeable (.inl rfl) here once, serving', gen, used⟩
  · refine serving.returns_delete small works room here found read (not_not.1 once)
      fun ram' w' serving' gen used ↦ ?_
    rw [returns_bind, Exit.switchKeysIfNecessary, if_neg fun failed ↦ failed.2 rfl, returns_pure,
      returns_bind, updateUndeleted, if_neg fun failed ↦ failed.2 rfl, returns_pure]
    refine serving'.returns_clearObject fun ram'' serving'' gen' ↦ ?_
    exact ⟨_, .removed here (not_not.1 once), serving'', gen'.trans gen, used⟩

/-! ### Writing -/

theorem Serving.serve_write (serving : Serving cfg crypto slots ram w) (small : cfg.nvMax < 2 ^ 32)
    (works : w.fails = noFails) (room : w.nvc 0 < cfg.nvMax) (clientId : ℤ) {uid : Uid}
    (valid_uid : uid ≠ tfmPsInvalidUid) (offset size : Word) (asset : List (BitVec 8)) :
    Returns (Op.handle cfg) ((Request.write clientId uid offset size asset).serve cfg crypto)
      (Served cfg crypto slots (.write clientId uid offset size asset) ram w) ram w := by
  rw [Request.serve, returns_bind, psObjectWrite, returns_bind]
  refine serving.returns_lookup valid_uid (fun lacks _ ↦ ?_)
    fun idx s here uid_eq clientId_eq found ↦ ?_
  · exact ⟨.idle, .absent rfl (by rintro _ _ _ _ _ ⟨⟩) lacks, serving, rfl, fun _ ↦ rfl⟩
  subst uid_eq clientId_eq
  have valid := serving.valid.plain idx s here
  rw [onSuccess, if_pos rfl, returns_bind, writeBody, returns_bind]
  refine serving.returns_read works here fun ram₁ w₁ read ↦ ?_
  dsimp only
  rw [if_neg (not_not.2 rfl), returns_bind, returns_get, read.payload]
  have same : s.failed cfg true s.plain.trim = (s.read cfg).switchKeys cfg s.plain := by
    rw [valid.trim]
    rfl
  have kept : ∀ err, err ≠ .success →
      Serves cfg slots ram.objTable.gen (.write s.clientId s.uid offset size asset) (.status err)
        (.kept idx s ((s.read cfg).switchKeys cfg s.plain)) →
      Returns (Op.handle cfg) (do
        let _ ← (Exit.mk err none s.plain.blocks true).switchKeysIfNecessary cfg crypto
        let err ← (Exit.mk err none s.plain.blocks true).updateTable cfg crypto s.uid s.clientId
          true
        let err ← (Exit.mk err none s.plain.blocks true).removeOldFile err
        clearObject
        pure err) (fun err ↦
          Served cfg crypto slots (.write s.clientId s.uid offset size asset) ram w
          (.status err)) ram₁ w₁ := by
    intro err failure serves
    refine serving.returns_exitKept small works room here found read ?_ rfl
      ⟨err, none, s.plain.blocks, true⟩ failure rfl true fun ram' w' serving' gen used ↦ ?_
    · rwa [valid.trim]
    · rw [same] at serving' used
      exact ⟨_, serves, serving', gen, used⟩
  by_cases once : s.plain.createFlags &&& psaStorageFlagWriteOnce ≠ 0
  · rw [if_pos once, returns_pure]
    exact kept .notPermitted (by rintro ⟨⟩) (.unchangeable (.inr ⟨_, _, _, rfl⟩) here once)
  rw [if_neg once]
  by_cases beyond : s.plain.currentSize < offset
  · rw [if_pos beyond, returns_pure]
    exact kept .invalidArgument (by rintro ⟨⟩) (.outside here)
  rw [if_neg beyond]
  by_cases outside : psUtilsCheckContainedIn s.plain.maxSize offset size ≠ .success
  · rw [if_pos outside, returns_pure]
    exact kept .invalidArgument (by rintro ⟨⟩) (.outside here)
  rw [if_neg outside, returns_bind, modifyPayload, returns_modify]
  have inside : offset.toNat ≤ s.plain.data.length := by
    rw [valid.length]
    exact BitVec.not_lt.1 beyond
  have changed := read.withPayload (s.plain.received offset.toNat asset size)
  by_cases short : asset.length < size.toNat
  · simp only [psReqMngrReadAssetData, if_pos short, read.payload]
    rw [if_pos (by rintro ⟨⟩), returns_pure]
    refine serving.returns_exitKept small works room here found changed ?_ rfl
      ⟨.programmerError, none, s.plain.blocks, true⟩ (by rintro ⟨⟩) rfl true
      fun ram' w' serving' gen used ↦ ⟨_, .unwritten here short, serving', gen, used⟩
    refine Payload.valid_trim ?_ valid.size valid.maxSize
    change s.plain.currentSize.toNat ≤ (overwrite s.plain.data offset.toNat _).length
    rw [length_overwrite inside, ← valid.length]
    exact le_max_left ..
  · simp only [psReqMngrReadAssetData, if_neg short, read.payload]
    rw [if_neg (not_not.2 rfl)]
    obtain ⟨iv, get⟩ := serving.exists_iv small room
    have gen_ne := serving.gen_ne small room here
    have free := serving.valid.freeCount_pos
    rw [← serving.holds.freeCount serving.valid, ← read.storing.objTable] at free
    refine returns_storeInNewFile (s := s.read cfg) _ (changed.storing.between.fails.trans works)
      (changed.ivBuf ▸ get) gen_ne changed.label changed.numBlocks rfl (by decide) free
      fun new blocks' ram₂ w₂ entry storing sealed numBlocks used ↦ ?_
    refine serving.returns_exitMoved small works room here found changed (.store ?_) entry storing
      sealed numBlocks used ⟨.success, some ram₁.fid, blocks', true⟩ rfl rfl true
      fun ram' w' free serving' gen used ↦ ⟨_, .written here free, serving', gen, used⟩
    exact valid.trim_written inside outside (Nat.not_lt.1 short)

/-- Without faults a request returns what the slots say, and leaves other slots stored. -/
theorem Serving.serve (serving : Serving cfg crypto slots ram w) (small : cfg.nvMax < 2 ^ 32)
    (works : w.fails = noFails) (room : w.nvc 0 < cfg.nvMax) (r : Request)
    (named : ∀ clientId uid offset size asset, r = .write clientId uid offset size asset →
      uid ≠ tfmPsInvalidUid) :
    Returns (Op.handle cfg) (r.serve cfg crypto) (Served cfg crypto slots r ram w) ram w := by
  cases r with
  | set clientId uid size flags asset =>
      exact serving.serve_set small works room clientId uid size flags asset
  | get clientId uid offset size =>
      exact serving.serve_get small works room clientId uid offset size
  | getInfo clientId uid => exact serving.serve_getInfo small works room clientId uid
  | remove clientId uid => exact serving.serve_remove small works room clientId uid
  | write clientId _ offset size asset =>
      exact serving.serve_write small works room clientId (named _ _ _ _ _ rfl) offset size asset

end

end TrustedFirmwareM.Ps
