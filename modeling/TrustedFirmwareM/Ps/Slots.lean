import TrustedFirmwareM.Ps.Durability
import Mathlib.Algebra.BigOperators.Group.List.Basic

/-!
# Objects in slots

A table entry and the file behind it hold one object.  A slot collects what they hold, and the
storage as a whole is a vector of slots.  What each request does is described on slots.
-/

namespace TrustedFirmwareM.Ps

open Program

variable {Tag : Type} {m : ℕ}

/-! ## Entries -/

theorem psObjectFsId_inj {i j : Fin (m + 1)} : psObjectFsId i = psObjectFsId j ↔ i = j := by
  simp [psObjectFsId, Fin.ext_iff]

theorem psObjectFsIdToIdx_psObjectFsId (idx : Fin (m + 1)) :
    psObjectFsIdToIdx (psObjectFsId idx) = idx := by
  apply Fin.ext
  simp [psObjectFsIdToIdx, psObjectFsId]

theorem psGetObjectEntryIdx_eq_some {db : Fin (m + 1) → Entry Tag} {uid : Uid} {clientId : ℤ}
    {idx : Fin (m + 1)} (found : psGetObjectEntryIdx db uid clientId = some idx) :
    (db idx).uid = uid ∧ (db idx).clientId = clientId := by
  simpa using List.find?_some found

theorem psGetObjectEntryIdx_eq_none {db : Fin (m + 1) → Entry Tag} {uid : Uid} {clientId : ℤ} :
    psGetObjectEntryIdx db uid clientId = none ↔
      ∀ i, ¬((db i).uid = uid ∧ (db i).clientId = clientId) := by
  simp [psGetObjectEntryIdx]

/-- Free entries among some indexes. -/
def freeCount (db : Fin (m + 1) → Entry Tag) (indices : List (Fin (m + 1))) : ℕ :=
  indices.countP fun i ↦ (db i).uid = tfmPsInvalidUid

/-- The search finds as many free entries as there are, up to the number wanted. -/
theorem freeIdx_fst (db : Fin (m + 1) → Entry Tag) (indices : List (Fin (m + 1))) (idxNum : ℕ)
    (lastFree : Fin (m + 1)) :
    (freeIdx db indices idxNum lastFree).1 = idxNum - freeCount db indices := by
  induction indices generalizing idxNum lastFree with
  | nil => simp [freeIdx, freeCount]
  | cons i rest ih =>
      cases idxNum with
      | zero => simp [freeIdx]
      | succ idxNum =>
          rw [freeIdx]
          split
          · next empty =>
              rw [ih, freeCount, freeCount, List.countP_cons_of_pos (by simpa using empty)]
              omega
          · next used =>
              rw [ih, freeCount, freeCount, List.countP_cons_of_neg (by simpa using used)]

/-- The search ends at a free entry. -/
theorem freeIdx_snd {db : Fin (m + 1) → Entry Tag} {indices : List (Fin (m + 1))} {idxNum : ℕ}
    {lastFree : Fin (m + 1)} (positive : idxNum ≠ 0) (enough : idxNum ≤ freeCount db indices) :
    (db (freeIdx db indices idxNum lastFree).2).uid = tfmPsInvalidUid := by
  induction indices generalizing idxNum lastFree with
  | nil => simp_all [freeCount]
  | cons i rest ih =>
      obtain ⟨idxNum, rfl⟩ := Nat.exists_eq_succ_of_ne_zero positive
      rw [freeIdx]
      split
      · next empty =>
          rw [freeCount, List.countP_cons_of_pos (by simpa using empty)] at enough
          cases idxNum with
          | zero =>
              cases rest with
              | nil => exact empty
              | cons _ _ => exact empty
          | succ idxNum => exact ih (Nat.succ_ne_zero _) (by rw [freeCount]; omega)
      · next used =>
          rw [freeCount, List.countP_cons_of_neg (by simpa using used)] at enough
          exact ih positive enough

/-- `ps_table_free_idx` finds a free entry if there are enough of them. -/
theorem psTableFreeIdx_of_enough {db : Fin (m + 1) → Entry Tag} {idxNum : ℕ} (positive : idxNum ≠ 0)
    (enough : idxNum ≤ freeCount db (List.finRange (m + 1))) :
    ∃ idx, psTableFreeIdx db idxNum = .ok idx ∧ (db idx).uid = tfmPsInvalidUid := by
  have count := freeIdx_fst db (List.finRange (m + 1)) idxNum 0
  rw [Nat.sub_eq_zero_of_le enough] at count
  refine ⟨(freeIdx db (List.finRange (m + 1)) idxNum 0).2, ?_, freeIdx_snd positive enough⟩
  rw [psTableFreeIdx, if_neg positive]
  generalize freeIdx db (List.finRange (m + 1)) idxNum 0 = found at count
  obtain ⟨missing, idx⟩ := found
  cases count
  rfl

theorem psTableFreeIdx_of_few {db : Fin (m + 1) → Entry Tag} {idxNum : ℕ}
    (few : freeCount db (List.finRange (m + 1)) < idxNum) :
    psTableFreeIdx db idxNum = .error .insufficientStorage := by
  have count := freeIdx_fst db (List.finRange (m + 1)) idxNum 0
  rw [psTableFreeIdx, if_neg (by omega)]
  generalize freeIdx db (List.finRange (m + 1)) idxNum 0 = found at count
  obtain ⟨missing, idx⟩ := found
  cases missing with
  | zero =>
      change 0 = _ at count
      omega
  | succ missing => rfl

/-! ## Slots -/

/-- An object in the storage, as its table entry and its file hold it. -/
structure Slot where
  /-- Object identifier. -/
  uid : Uid
  /-- Owner of the object. -/
  clientId : ℤ
  /-- Generation of the key. -/
  gen : Word
  /-- Blocks encrypted or decrypted with the key. -/
  numBlocks : Word
  /-- Information and data. -/
  plain : Payload

/-- Label of the key of an object. -/
def Slot.label (s : Slot) : Label := ⟨s.uid, s.clientId, s.gen⟩

/-- The slots of all table entries. -/
abbrev Slots (m : ℕ) : Type := Fin (m + 1) → Option Slot

/-- The entry and the file at an index hold an object. -/
def SlotAt (crypto : Crypto Tag m) (db : Fin (m + 1) → Entry Tag) (objects : ℕ → Option ObjectFile)
    (idx : Fin (m + 1)) (s : Slot) : Prop :=
  ∃ iv, let sealed := crypto.encrypt s.label iv (.object (psObjectFsId idx) s.gen) s.plain
    db idx = ⟨sealed.2, s.numBlocks, s.uid, s.clientId⟩ ∧
      objects (psObjectFsId idx) = some ⟨iv, s.gen, sealed.1⟩

/-- A table and object files hold the objects of some slots. -/
structure Holds (crypto : Crypto Tag m) (db : Fin (m + 1) → Entry Tag)
    (objects : ℕ → Option ObjectFile) (slots : Slots m) : Prop where
  /-- Objects in use. -/
  used : ∀ idx s, slots idx = some s → SlotAt crypto db objects idx s
  /-- Free entries. -/
  free : ∀ idx, slots idx = none → (db idx).uid = tfmPsInvalidUid

/-- The sizes of an object fit together. -/
structure Payload.Valid (cfg : Config) (plain : Payload) : Prop where
  /-- The data has the current size. -/
  length : plain.data.length = plain.currentSize.toNat
  /-- The current size is in range. -/
  size : plain.currentSize ≤ cfg.maxAssetSize
  /-- The largest size is in range. -/
  maxSize : plain.maxSize ≤ cfg.maxAssetSize

/-- Slots as requests leave them. -/
structure Slots.Valid (cfg : Config) (slots : Slots m) : Prop where
  /-- Objects have identifiers. -/
  uid : ∀ idx s, slots idx = some s → s.uid ≠ tfmPsInvalidUid
  /-- The sizes of each object fit together. -/
  plain : ∀ idx s, slots idx = some s → s.plain.Valid cfg
  /-- An object is in one slot. -/
  unique : ∀ idx idx' s s', slots idx = some s → slots idx' = some s' → s.uid = s'.uid →
    s.clientId = s'.clientId → idx = idx'
  /-- A slot is free. -/
  free : ∃ idx, slots idx = none

/-- Number of free slots. -/
def Slots.freeCount (slots : Slots m) : ℕ :=
  (List.finRange (m + 1)).countP fun idx ↦ (slots idx).isNone

/-- No slot has an object. -/
def Slots.Lacks (slots : Slots m) (uid : Uid) (clientId : ℤ) : Prop :=
  ∀ idx s, slots idx = some s → ¬(s.uid = uid ∧ s.clientId = clientId)

section

variable {crypto : Crypto Tag m} {db : Fin (m + 1) → Entry Tag} {objects : ℕ → Option ObjectFile}
  {slots : Slots m} {cfg : Config}

theorem SlotAt.uid_eq {idx : Fin (m + 1)} {s : Slot} (at_idx : SlotAt crypto db objects idx s) :
    (db idx).uid = s.uid ∧ (db idx).clientId = s.clientId := by
  obtain ⟨iv, entry, -⟩ := at_idx
  rw [entry]
  exact ⟨rfl, rfl⟩

theorem Holds.freeCount (holds : Holds crypto db objects slots) (valid : slots.Valid cfg) :
    freeCount db (List.finRange (m + 1)) = slots.freeCount := by
  refine List.countP_congr fun idx _ ↦ ?_
  cases here : slots idx with
  | none => simp [holds.free idx here]
  | some s => simp [(holds.used idx s here).uid_eq, valid.uid idx s here]

/-- The search for an entry finds the slot of an object. -/
theorem Holds.find (holds : Holds crypto db objects slots) {uid : Uid}
    (uid_ne : uid ≠ tfmPsInvalidUid) (clientId : ℤ) :
    (∃ idx s, slots idx = some s ∧ s.uid = uid ∧ s.clientId = clientId ∧
      psGetObjectEntryIdx db uid clientId = some idx) ∨
    slots.Lacks uid clientId ∧ psGetObjectEntryIdx db uid clientId = none := by
  cases found : psGetObjectEntryIdx db uid clientId with
  | none =>
      refine .inr ⟨fun idx s here same ↦ ?_, rfl⟩
      have entry := (holds.used idx s here).uid_eq
      exact psGetObjectEntryIdx_eq_none.1 found idx ⟨entry.1.trans same.1, entry.2.trans same.2⟩
  | some idx =>
      obtain ⟨uid_eq, clientId_eq⟩ := psGetObjectEntryIdx_eq_some found
      cases here : slots idx with
      | none => exact absurd (uid_eq.symm.trans (holds.free idx here)) uid_ne
      | some s =>
          have entry := (holds.used idx s here).uid_eq
          exact .inl ⟨idx, s, here, entry.1.symm.trans uid_eq, entry.2.symm.trans clientId_eq, rfl⟩

theorem Slots.Valid.freeCount_pos (valid : slots.Valid cfg) : 0 < slots.freeCount := by
  obtain ⟨idx, free⟩ := valid.free
  exact List.countP_pos_iff.2 ⟨idx, List.mem_finRange idx, by simp [free]⟩

/-- With two free slots there is one besides another one. -/
theorem Slots.exists_free (room : 2 ≤ slots.freeCount) (new : Fin (m + 1)) :
    ∃ idx, idx ≠ new ∧ slots idx = none := by
  by_contra none_free
  push Not at none_free
  have le : slots.freeCount ≤ (List.finRange (m + 1)).count new := by
    refine List.countP_mono_left fun idx _ free ↦ ?_
    by_contra ne
    exact none_free idx (by simpa using ne) (by simpa using free)
  have one := List.nodup_iff_count_le_one.1 (List.nodup_finRange (m + 1)) new
  omega

end

/-! ## Blocks -/

/-- Blocks that the encryption or decryption of an object processes: those of the object information
and the data, and one for the tag. -/
def objectBlocks (length : ℕ) : ℕ := 1 + (length + 16 + 15) / 16

/-- Blocks that the encryption of an object has processed under a key. -/
def Encryption.blocksUnder (label : Label) (e : Encryption Tag m) : ℕ :=
  match e.plain with
  | some plain => if e.label = label then objectBlocks plain.data.length else 0
  | none => 0

/-- Blocks that a decryption has processed under a key. -/
def Decryption.blocksUnder (label : Label) (d : Decryption) : ℕ :=
  if d.label = label then objectBlocks d.cipher.data.length else 0

/-- Blocks of objects that have been processed under a key. -/
def World.blocksUnder (w : World Tag m) (label : Label) : ℕ :=
  (w.encryptions.map (Encryption.blocksUnder label)).sum +
    (w.decryptions.map (Decryption.blocksUnder label)).sum

/-- Blocks that one encryption or decryption of an object processes under a key. -/
def Slot.blocksUnder (s : Slot) (label : Label) : ℕ :=
  if s.label = label then objectBlocks s.plain.data.length else 0

/-- The count of `ps_encrypted_object_blocks` for an object. -/
def Payload.blocks (plain : Payload) : Word := psEncryptedObjectBlocks plain.currentSize

/-! ## Changes of a slot -/

section

variable (cfg : Config)

/-- A slot after its object has been decrypted. -/
def Slot.read (s : Slot) : Slot :=
  { s with numBlocks :=
      if cfg.keyUsageLimit = 0 then s.numBlocks else s.numBlocks + s.plain.blocks }

/-- A slot with an object encrypted under the next key. -/
def Slot.rekey (s : Slot) (plain : Payload) : Slot :=
  { s with gen := s.gen + 1, numBlocks := plain.blocks, plain := plain }

/-- A slot after `ps_switch_keys_if_necessary`, with an object in memory. -/
def Slot.switchKeys (s : Slot) (plain : Payload) : Slot :=
  if cfg.keyUsageLimit ≠ 0 ∧ cfg.keyUsageLimit < s.numBlocks + s.plain.blocks then s.rekey plain
  else s

/-- A slot after `ps_store_object`, with an object in memory. -/
def Slot.store (s : Slot) (plain : Payload) : Slot :=
  if cfg.keyUsageLimit = 0 then { s with plain := plain }
  else if cfg.keyUsageLimit - s.numBlocks ≤ 2 * plain.blocks then s.rekey plain
  else { s with numBlocks := s.numBlocks + plain.blocks, plain := plain }

end

/-- What a request does to the slots. -/
inductive Effect (m : ℕ)
  /-- Nothing. -/
  | idle
  /-- An object is read and stays in its slot, possibly under a new key. -/
  | kept (idx : Fin (m + 1)) (s s' : Slot)
  /-- An object is read and written to another slot. -/
  | moved (idx new : Fin (m + 1)) (s s' : Slot)
  /-- An object is written to a free slot. -/
  | created (new : Fin (m + 1)) (s' : Slot)
  /-- An object is read and deleted. -/
  | deleted (idx : Fin (m + 1)) (s : Slot)

/-- The slots after a request. -/
def Effect.apply : Effect m → Slots m → Slots m
  | .idle, slots => slots
  | .kept idx _ s', slots => Function.update slots idx (some s')
  | .moved idx new _ s', slots => Function.update (Function.update slots idx none) new (some s')
  | .created new s', slots => Function.update slots new (some s')
  | .deleted idx _, slots => Function.update slots idx none

/-- Blocks that a request processes under a key. -/
def Effect.blocksUnder (label : Label) : Effect m → ℕ
  | .idle => 0
  | .kept _ s s' => s.blocksUnder label + if s'.gen = s.gen then 0 else s'.blocksUnder label
  | .moved _ _ s s' => s.blocksUnder label + s'.blocksUnder label
  | .created _ s' => s'.blocksUnder label
  | .deleted _ s => s.blocksUnder label

end TrustedFirmwareM.Ps
