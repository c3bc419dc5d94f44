import TrustedFirmwareM.Ps.Sessions

/-!
# Key usage

The blocks that are processed under one key are counted in the table entry of its object, and the
object moves to the next key before the limit is passed.  Two places break this: a refused
replacement counts its reading without moving to the next key, and the key generation that a removal
raises is saved only with the next save of the table.
-/

namespace TrustedFirmwareM.Ps

open Program

variable {Tag : Type} {m : ℕ} {cfg : Config} {crypto : Crypto Tag m}

/-! ## Blocks -/

/-- The largest object and its information fit into the address space. -/
def Config.Fits (cfg : Config) : Prop := cfg.maxAssetSize.toNat + 31 < 2 ^ 32

theorem psEncryptedObjectBlocks_toNat (fits : cfg.Fits) {size : Word}
    (le : size ≤ cfg.maxAssetSize) :
    (psEncryptedObjectBlocks size).toNat = objectBlocks size.toNat := by
  have le : size.toNat ≤ cfg.maxAssetSize.toNat := le
  rw [Config.Fits] at fits
  have one : (1 : Word).toNat = 1 := rfl
  have fifteen : (15 : Word).toNat = 15 := rfl
  have sixteen : (16 : Word).toNat = 16 := rfl
  simp only [psEncryptedObjectBlocks, psCryptoToBlocks, psEncryptSize, objectBlocks,
    BitVec.toNat_add,
    BitVec.toNat_udiv, one, fifteen, sixteen]
  omega

/-- The block count of an object. -/
theorem Payload.Valid.blocks_toNat {plain : Payload} (valid : plain.Valid cfg) (fits : cfg.Fits) :
    plain.blocks.toNat = objectBlocks plain.data.length := by
  rw [valid.length, Payload.blocks, psEncryptedObjectBlocks_toNat fits valid.size]

theorem objectBlocks_mono {a b : ℕ} (le : a ≤ b) : objectBlocks a ≤ objectBlocks b := by
  rw [objectBlocks, objectBlocks]
  omega

/-- A key has room for writing and reading an object, also in 32 bits. -/
theorem Config.Sane.blocks_le (sane : cfg.Sane) (limited : cfg.keyUsageLimit ≠ 0) (fits : cfg.Fits)
    {plain : Payload} (valid : plain.Valid cfg) :
    2 * plain.blocks.toNat ≤ cfg.keyUsageLimit.toNat ∧
      cfg.keyUsageLimit.toNat + plain.blocks.toNat < 2 ^ 32 := by
  rw [Config.Sane, not_and_or, not_or] at sane
  obtain ⟨enough, inside⟩ := sane.resolve_left (not_not.2 limited)
  have largest := psEncryptedObjectBlocks_toNat fits (BitVec.le_refl cfg.maxAssetSize)
  have size : plain.currentSize.toNat ≤ cfg.maxAssetSize.toNat := valid.size
  have mono := objectBlocks_mono size
  have blocks := valid.blocks_toNat fits
  rw [valid.length] at blocks
  rw [Config.Fits] at fits
  have bound : objectBlocks cfg.maxAssetSize.toNat < 2 ^ 29 := by
    rw [objectBlocks]
    omega
  have last : (BitVec.allOnes 32).toNat = 2 ^ 32 - 1 := rfl
  rw [BitVec.not_lt, BitVec.le_def, BitVec.toNat_mul] at enough
  rw [BitVec.not_lt, BitVec.le_def,
    BitVec.toNat_sub_of_le (BitVec.le_def.2 (by rw [last]; omega)), last]
    at inside
  have two : (2 : Word).toNat = 2 := rfl
  rw [two] at enough
  omega

/-! ## One object -/

/-- The blocks under the keys of an object, given the blocks under each key. -/
structure Slot.Accounted (cfg : Config) (used : Label → ℕ) (s : Slot) : Prop where
  /-- The count covers the current key. -/
  label : used s.label ≤ s.numBlocks.toNat
  /-- The count is in range. -/
  count : s.numBlocks.toNat ≤ cfg.keyUsageLimit.toNat
  /-- Later keys have not been used. -/
  later : ∀ g, s.gen < g → used ⟨s.uid, s.clientId, g⟩ = 0
  /-- No key of the object has been used too often. -/
  limit : ∀ g, used ⟨s.uid, s.clientId, g⟩ ≤ cfg.keyUsageLimit.toNat

/-- The key of an object has room for reading it. -/
def Slot.Readable (cfg : Config) (s : Slot) : Prop :=
  s.numBlocks.toNat + s.plain.blocks.toNat ≤ cfg.keyUsageLimit.toNat

section

variable {used used' : Label → ℕ} {s : Slot}

theorem Slot.blocksUnder_label (valid : s.plain.Valid cfg) (fits : cfg.Fits) :
    s.blocksUnder s.label = s.plain.blocks.toNat := by
  rw [Slot.blocksUnder, if_pos rfl, valid.blocks_toNat fits]

theorem Slot.blocksUnder_of_ne {label : Label} (ne : s.label ≠ label) : s.blocksUnder label = 0 :=
  if_neg ne

/-- The object is encrypted or decrypted under its key, and the blocks are counted. -/
theorem Slot.Accounted.use {s' : Slot} (accounted : s.Accounted cfg used) (uid : s'.uid = s.uid)
    (clientId : s'.clientId = s.clientId) (gen : s'.gen = s.gen) (valid : s'.plain.Valid cfg)
    (fits : cfg.Fits) (count : s'.numBlocks.toNat = s.numBlocks.toNat + s'.plain.blocks.toNat)
    (room : s'.numBlocks.toNat ≤ cfg.keyUsageLimit.toNat)
    (uses : ∀ label, used' label = used label + s'.blocksUnder label) : s'.Accounted cfg used' := by
  have same : s'.label = s.label := by rw [Slot.label, uid, clientId, gen, Slot.label]
  have now : used' s'.label ≤ s'.numBlocks.toNat := by
    have before := accounted.label
    rw [uses, Slot.blocksUnder_label valid fits, same]
    omega
  have others : ∀ g, g ≠ s.gen → used' ⟨s'.uid, s'.clientId, g⟩ = used ⟨s.uid, s.clientId, g⟩ := by
    intro g ne
    rw [uses, Slot.blocksUnder_of_ne, uid, clientId, Nat.add_zero]
    intro eq
    exact ne ((congrArg Label.gen eq).symm.trans gen)
  refine ⟨now, room, fun g later ↦ ?_, fun g ↦ ?_⟩
  · rw [gen] at later
    rw [others g (by bv_omega), accounted.later g later]
  · rcases eq_or_ne g s.gen with rfl | ne
    · rw [← gen]
      exact now.trans room
    · rw [others g ne]
      exact accounted.limit g

/-- The object is encrypted under the next key. -/
theorem Slot.Accounted.rekey {plain : Payload} (accounted : s.Accounted cfg used)
    (last : s.gen ≠ BitVec.allOnes 32) (valid : plain.Valid cfg) (fits : cfg.Fits)
    (room : plain.blocks.toNat ≤ cfg.keyUsageLimit.toNat)
    (uses : ∀ label, used' label = used label + (s.rekey plain).blocksUnder label) :
    (s.rekey plain).Accounted cfg used' := by
  have max : BitVec.allOnes 32 = 4294967295 := rfl
  rw [max] at last
  have next : s.gen < s.gen + 1 := by bv_omega
  have now : used' (s.rekey plain).label ≤ plain.blocks.toNat := by
    have unused : used (s.rekey plain).label = 0 := accounted.later _ next
    have here := Slot.blocksUnder_label (s := s.rekey plain) valid fits
    rw [uses, here, unused, Nat.zero_add]
    rfl
  have others : ∀ g, g ≠ s.gen + 1 →
      used' ⟨s.uid, s.clientId, g⟩ = used ⟨s.uid, s.clientId, g⟩ := by
    intro g ne
    rw [uses, Slot.blocksUnder_of_ne, Nat.add_zero]
    intro eq
    exact ne (congrArg Label.gen eq).symm
  refine ⟨now, room, fun g later ↦ ?_, fun g ↦ ?_⟩
  · have later : s.gen + 1 < g := later
    exact (others g (by bv_omega)).trans (accounted.later g (by bv_omega))
  · rcases eq_or_ne g (s.gen + 1) with rfl | ne
    · exact now.trans room
    · exact (others g ne).trans_le (accounted.limit g)

section

variable (sane : cfg.Sane) (limited : cfg.keyUsageLimit ≠ 0) (fits : cfg.Fits)

include sane limited fits

omit sane in
theorem Slot.Accounted.read (accounted : s.Accounted cfg used) (readable : s.Readable cfg)
    (valid : s.plain.Valid cfg)
    (uses : ∀ label, used' label = used label + s.blocksUnder label) :
    (s.read cfg).Accounted cfg used' := by
  have count : (s.read cfg).numBlocks.toNat = s.numBlocks.toNat + s.plain.blocks.toNat := by
    rw [Slot.Readable] at readable
    rw [Slot.read, if_neg limited]
    bv_omega
  exact accounted.use rfl rfl rfl valid fits count (count.trans_le readable) uses

/-- After `ps_switch_keys_if_necessary` the object can be read again. -/
theorem Slot.Accounted.switchKeys {plain : Payload} (accounted : s.Accounted cfg used)
    (last : s.gen ≠ BitVec.allOnes 32) (valid : s.plain.Valid cfg)
    (valid' : (s.switchKeys cfg plain).plain.Valid cfg)
    (size : plain.currentSize = s.plain.currentSize)
    (uses : ∀ label, used' label = used label +
      if (s.switchKeys cfg plain).gen = s.gen then 0 else
        (s.switchKeys cfg plain).blocksUnder label) :
    (s.switchKeys cfg plain).Accounted cfg used' ∧ (s.switchKeys cfg plain).Readable cfg := by
  obtain ⟨twice, inside⟩ := sane.blocks_le limited fits valid
  have blocks : plain.blocks = s.plain.blocks := by rw [Payload.blocks, size, Payload.blocks]
  have count := accounted.count
  rw [Slot.switchKeys] at uses valid' ⊢
  split
  · next above =>
      rw [if_pos above] at valid'
      simp only [if_pos above, if_neg (Slot.gen_rekey_ne plain)] at uses
      refine ⟨accounted.rekey last valid' fits (by rw [blocks]; omega) uses, ?_⟩
      change plain.blocks.toNat + plain.blocks.toNat ≤ _
      rw [blocks]
      omega
  · next under =>
      simp only [if_neg under, if_true, Nat.add_zero] at uses
      rw [← funext uses] at accounted
      refine ⟨accounted, ?_⟩
      rw [not_and, BitVec.not_lt, BitVec.le_def, BitVec.toNat_add] at under
      have under := under limited
      rw [Slot.Readable]
      omega

/-- After `ps_store_object` the object can be read. -/
theorem Slot.Accounted.store {plain : Payload} (accounted : s.Accounted cfg used)
    (last : s.gen ≠ BitVec.allOnes 32) (valid : plain.Valid cfg)
    (uses : ∀ label, used' label = used label + (s.store cfg plain).blocksUnder label) :
    (s.store cfg plain).Accounted cfg used' ∧ (s.store cfg plain).Readable cfg := by
  obtain ⟨twice, inside⟩ := sane.blocks_le limited fits valid
  have count := accounted.count
  rw [Slot.store, if_neg limited] at uses ⊢
  split
  · next above =>
      simp only [if_pos above] at uses
      refine ⟨accounted.rekey last valid fits (by omega) uses, ?_⟩
      change plain.blocks.toNat + plain.blocks.toNat ≤ _
      omega
  · next under =>
      simp only [if_neg under] at uses
      have room : s.numBlocks.toNat + 2 * plain.blocks.toNat < cfg.keyUsageLimit.toNat := by
        bv_omega
      have sum : (s.numBlocks + plain.blocks).toNat = s.numBlocks.toNat + plain.blocks.toNat := by
        bv_omega
      refine ⟨accounted.use rfl rfl rfl valid fits sum (by rw [sum]; omega) uses, ?_⟩
      change (s.numBlocks + plain.blocks).toNat + plain.blocks.toNat ≤ _
      omega

end

end

/-! ## All objects -/

/-- The blocks under the keys of all objects, for the key generation of new objects. -/
structure KeysKept (cfg : Config) (slots : Slots m) (gen : Word) (used : Label → ℕ) : Prop where
  /-- Objects that are there. -/
  held : ∀ idx s, slots idx = some s → s.Accounted cfg used ∧ s.Readable cfg
  /-- Objects that are not there. -/
  lacking : ∀ uid clientId, slots.Lacks uid clientId →
    (∀ g, gen ≤ g → used ⟨uid, clientId, g⟩ = 0) ∧
      ∀ g, used ⟨uid, clientId, g⟩ ≤ cfg.keyUsageLimit.toNat

section

variable {used used' : Label → ℕ} {slots : Slots m} {gen : Word}

/-- No key has been used too often. -/
theorem KeysKept.le_limit (kept : KeysKept cfg slots gen used) (label : Label) :
    used label ≤ cfg.keyUsageLimit.toNat := by
  by_cases lacks : slots.Lacks label.uid label.clientId
  · exact (kept.lacking _ _ lacks).2 label.gen
  · simp only [Slots.Lacks, not_forall, not_not] at lacks
    obtain ⟨idx, s, here, uid, clientId⟩ := lacks
    have limit := (kept.held idx s here).1.limit label.gen
    rw [uid, clientId] at limit
    exact limit

theorem Slot.Accounted.congr {s : Slot} (accounted : s.Accounted cfg used)
    (same : ∀ g, used' ⟨s.uid, s.clientId, g⟩ = used ⟨s.uid, s.clientId, g⟩) :
    s.Accounted cfg used' where
  label := (same s.gen).trans_le accounted.label
  count := accounted.count
  later g later := (same g).trans (accounted.later g later)
  limit g := (same g).trans_le (accounted.limit g)

/-- An object is put into a slot. -/
theorem KeysKept.put (kept : KeysKept cfg slots gen used) (old : Option (Fin (m + 1)))
    {new : Fin (m + 1)} {s : Slot} (accounted : s.Accounted cfg used') (readable : s.Readable cfg)
    (others : ∀ label, ¬(label.uid = s.uid ∧ label.clientId = s.clientId) →
      used' label = used label)
    (only : ∀ idx s', slots idx = some s' →
      (s'.uid = s.uid ∧ s'.clientId = s.clientId ↔ old = some idx))
    (free : slots new = none ∨ old = some new) :
    KeysKept cfg (slots.put old new s) gen used' := by
  constructor
  case held =>
    intro idx s' here
    rcases eq_or_ne idx new with rfl | ne
    · rw [Slots.put_new] at here
      cases here
      exact ⟨accounted, readable⟩
    · rcases slots.put_of_ne old s ne with ⟨-, gone⟩ | ⟨other, same⟩
      · cases here.symm.trans gone
      · have before := same.symm.trans here
        obtain ⟨accounted', readable'⟩ := kept.held idx s' before
        exact ⟨accounted'.congr fun g ↦ others _ fun eq ↦
          other ((only idx s' before).1 eq), readable'⟩
  case lacking =>
    intro uid clientId lacks
    have differs : ¬(uid = s.uid ∧ clientId = s.clientId) := fun eq ↦
      lacks new s (Slots.put_new ..) ⟨eq.1.symm, eq.2.symm⟩
    have lacked : slots.Lacks uid clientId := by
      rintro idx s' here ⟨rfl, rfl⟩
      have other : old ≠ some idx := fun eq ↦ differs ((only idx s' here).2 eq)
      rcases eq_or_ne idx new with rfl | ne
      · rcases free with empty | eq
        · cases here.symm.trans empty
        · exact other eq
      · rcases slots.put_of_ne old s ne with ⟨eq, -⟩ | ⟨-, same⟩
        · exact other eq
        · exact lacks idx s' (same.trans here) ⟨rfl, rfl⟩
    obtain ⟨fresh, limit⟩ := kept.lacking uid clientId lacked
    refine ⟨fun g le ↦ ?_, fun g ↦ ?_⟩
    · rw [others _ differs, fresh g le]
    · rw [others _ differs]
      exact limit g

/-- An object is deleted, and the generation of new objects is raised above that of its key. -/
theorem KeysKept.delete (kept : KeysKept cfg slots gen used) (valid : slots.Valid cfg)
    {idx : Fin (m + 1)} {s : Slot} (here : slots idx = some s) {gen' : Word} (raised : s.gen < gen')
    (le : gen ≤ gen') (later : ∀ g, s.gen < g → used' ⟨s.uid, s.clientId, g⟩ = 0)
    (limit : ∀ g, used' ⟨s.uid, s.clientId, g⟩ ≤ cfg.keyUsageLimit.toNat)
    (others : ∀ label, ¬(label.uid = s.uid ∧ label.clientId = s.clientId) →
      used' label = used label) :
    KeysKept cfg (Function.update slots idx none) gen' used' := by
  constructor
  case held =>
    intro i s' here'
    rcases eq_or_ne i idx with rfl | ne
    · rw [Function.update_self] at here'
      cases here'
    · rw [Function.update_of_ne ne] at here'
      obtain ⟨accounted', readable'⟩ := kept.held i s' here'
      refine ⟨accounted'.congr fun g ↦ others _ fun eq ↦ ne ?_, readable'⟩
      exact valid.unique i idx s' s here' here eq.1 eq.2
  case lacking =>
    intro uid clientId lacks
    by_cases eq : uid = s.uid ∧ clientId = s.clientId
    · obtain ⟨rfl, rfl⟩ := eq
      exact ⟨fun g le ↦ later g (by bv_omega), limit⟩
    · have lacked : slots.Lacks uid clientId := by
        rintro i s' here' ⟨rfl, rfl⟩
        refine lacks i s' ?_ ⟨rfl, rfl⟩
        rw [Function.update_of_ne, here']
        rintro rfl
        cases here.symm.trans here'
        exact eq ⟨rfl, rfl⟩
      obtain ⟨fresh, limit⟩ := kept.lacking uid clientId lacked
      refine ⟨fun g le' ↦ ?_, fun g ↦ ?_⟩
      · rw [others _ eq, fresh g (by bv_omega)]
      · rw [others _ eq]
        exact limit g

/-- An object that has been read and possibly encrypted again is put in place of itself. -/
theorem KeysKept.replace (kept : KeysKept cfg slots gen used) (valid : slots.Valid cfg)
    {idx new : Fin (m + 1)} {s s' : Slot} (here : slots idx = some s)
    (free : slots new = none ∨ idx = new) (uid : s'.uid = s.uid)
    (clientId : s'.clientId = s.clientId)
    (accounted : s'.Accounted cfg used' ∧ s'.Readable cfg)
    (others : ∀ label, ¬(label.uid = s.uid ∧ label.clientId = s.clientId) →
      used' label = used label) :
    KeysKept cfg (slots.put (some idx) new s') gen used' := by
  refine kept.put _ accounted.1 accounted.2 (by rwa [uid, clientId]) (fun i s'' here'' ↦ ?_)
    (free.imp_right (congrArg some))
  rw [uid, clientId]
  constructor
  · rintro ⟨uid', clientId'⟩
    rw [valid.unique i idx s'' s here'' here uid' clientId']
  · rintro ⟨⟩
    cases here.symm.trans here''
    exact ⟨rfl, rfl⟩

theorem Slot.blocksUnder_other {s : Slot} {label : Label}
    (other : ¬(label.uid = s.uid ∧ label.clientId = s.clientId)) : s.blocksUnder label = 0 := by
  refine Slot.blocksUnder_of_ne ?_
  rintro rfl
  exact other ⟨rfl, rfl⟩

theorem Slot.uid_switchKeys {s : Slot}
    (plain : Payload) : (s.switchKeys cfg plain).uid = s.uid := by
  rw [Slot.switchKeys]
  split <;> rfl

theorem Slot.clientId_switchKeys {s : Slot} (plain : Payload) :
    (s.switchKeys cfg plain).clientId = s.clientId := by
  rw [Slot.switchKeys]
  split <;> rfl

theorem Slot.uid_store {s : Slot} (plain : Payload) : (s.store cfg plain).uid = s.uid := by
  rw [Slot.store]
  split
  · rfl
  · split <;> rfl

theorem Slot.clientId_store {s : Slot} (plain : Payload) :
    (s.store cfg plain).clientId = s.clientId := by
  rw [Slot.store]
  split
  · rfl
  · split <;> rfl

section

variable (sane : cfg.Sane) (limited : cfg.keyUsageLimit ≠ 0) (fits : cfg.Fits)
  (valid : slots.Valid cfg)

include sane limited fits valid

/-- An object is read, and its key is switched if necessary. -/
theorem KeysKept.kept (keys : KeysKept cfg slots gen used) {idx : Fin (m + 1)} {s : Slot}
    {plain : Payload} (here : slots idx = some s) (last : s.gen ≠ .allOnes 32)
    (size : plain.currentSize = s.plain.currentSize)
    (valid' : ((s.read cfg).switchKeys cfg plain).plain.Valid cfg)
    (uses : ∀ label, used' label = used label +
      Effect.blocksUnder label (.kept idx s ((s.read cfg).switchKeys cfg plain) : Effect m)) :
    KeysKept cfg (Effect.apply
      (.kept idx s ((s.read cfg).switchKeys cfg plain)) slots) gen used' := by
  obtain ⟨accounted, readable⟩ := keys.held idx s here
  have plain_valid := valid.plain idx s here
  have read := accounted.read limited fits
    readable plain_valid fun _ ↦ rfl
  have after := read.switchKeys sane limited fits last plain_valid valid' size
    fun label ↦ (uses label).trans (Nat.add_assoc ..).symm
  have uid : ((s.read cfg).switchKeys cfg plain).uid = s.uid := Slot.uid_switchKeys plain
  have clientId : ((s.read cfg).switchKeys cfg plain).clientId = s.clientId :=
    Slot.clientId_switchKeys plain
  have put := keys.replace valid here (.inr rfl) uid clientId after
    fun label other ↦ ?_
  · rwa [Slots.put_self] at put
  · have none_read : s.blocksUnder label = 0 := Slot.blocksUnder_other other
    have none_written : ((s.read cfg).switchKeys cfg plain).blocksUnder label = 0 := by
      refine Slot.blocksUnder_other ?_
      rw [uid, clientId]
      exact other
    rw [uses, Effect.blocksUnder, none_read, none_written, ite_self, Nat.add_zero]

/-- An object is read and stored in a new file. -/
theorem KeysKept.moved (keys : KeysKept cfg slots gen used) {idx new : Fin (m + 1)} {s : Slot}
    {plain : Payload} (here : slots idx = some s) (free : slots new = none)
    (last : s.gen ≠ .allOnes 32) (valid' : plain.Valid cfg)
    (uses : ∀ label, used' label = used label +
      Effect.blocksUnder label (.moved idx new s ((s.read cfg).store cfg plain) : Effect m)) :
    KeysKept cfg (Effect.apply
      (.moved idx new s ((s.read cfg).store cfg plain)) slots) gen used' := by
  obtain ⟨accounted, readable⟩ := keys.held idx s here
  have read := accounted.read limited fits
    readable (valid.plain idx s here) fun _ ↦ rfl
  have after := read.store sane limited fits last valid'
    fun label ↦ (uses label).trans (Nat.add_assoc ..).symm
  have uid : ((s.read cfg).store cfg plain).uid = s.uid := Slot.uid_store plain
  have clientId : ((s.read cfg).store cfg plain).clientId = s.clientId := Slot.clientId_store plain
  refine keys.replace valid here (.inl free) uid clientId after
    fun label other ↦ ?_
  have none_read : s.blocksUnder label = 0 := Slot.blocksUnder_other other
  have none_written : ((s.read cfg).store cfg plain).blocksUnder label = 0 := by
    refine Slot.blocksUnder_other ?_
    rw [uid, clientId]
    exact other
  rw [uses, Effect.blocksUnder, none_read, none_written, Nat.add_zero]

omit valid in
/-- A new object is stored. -/
theorem KeysKept.created (keys : KeysKept cfg slots gen used) {new : Fin (m + 1)} {uid : Uid}
    {clientId : ℤ} {plain plain' : Payload} (lacks : slots.Lacks uid clientId)
    (free : slots new = none)
    (last : gen ≠ .allOnes 32) (valid' : plain'.Valid cfg)
    (uses : ∀ label, used' label = used label + Effect.blocksUnder label
      (.created new (Slot.store cfg ⟨uid, clientId, gen, 0, plain⟩ plain') : Effect m)) :
    KeysKept cfg (Effect.apply
      (.created new (Slot.store cfg ⟨uid, clientId, gen, 0, plain⟩ plain')) slots) gen used' := by
  obtain ⟨fresh, limit⟩ := keys.lacking uid clientId lacks
  have accounted : Slot.Accounted cfg used ⟨uid, clientId, gen, 0, plain⟩ :=
    ⟨(fresh gen (BitVec.le_refl _)).le, Nat.zero_le _,
      fun g later ↦ fresh g (BitVec.le_of_lt later),
      limit⟩
  obtain ⟨accounted', readable'⟩ := accounted.store sane limited fits last valid' uses
  refine keys.put none accounted' readable' (fun label other ↦ ?_) (fun idx s' here ↦ ?_)
    (.inl free)
  · rw [uses, Effect.blocksUnder, Slot.blocksUnder_other other, Nat.add_zero]
  · rw [Slot.uid_store, Slot.clientId_store]
    exact ⟨fun same ↦ absurd same (lacks idx s' here), by rintro ⟨⟩⟩

omit sane in
/-- An object is read and deleted. -/
theorem KeysKept.deleted (keys : KeysKept cfg slots gen used) {idx : Fin (m + 1)} {s : Slot}
    (here : slots idx = some s) (last : s.gen ≠ .allOnes 32)
    (uses : ∀ label, used' label = used label + Effect.blocksUnder label
      (.deleted idx s : Effect m)) :
    KeysKept cfg (Effect.apply (.deleted idx s) slots)
      (Effect.gen cfg gen (.deleted idx s : Effect m))
      used' := by
  obtain ⟨accounted, readable⟩ := keys.held idx s here
  have read := accounted.read limited fits readable (valid.plain idx s here) uses
  have max : BitVec.allOnes 32 = 4294967295 := rfl
  rw [max] at last
  refine keys.delete valid here ?_ ?_ read.later read.limit fun label other ↦ ?_
  · rw [Effect.gen]
    split
    · bv_omega
    · next above =>
        have above : ¬gen ≤ s.gen := fun le ↦ above ⟨limited, le⟩
        bv_omega
  · rw [Effect.gen]
    split
    · next below =>
        have below := below.2
        bv_omega
    · exact BitVec.le_refl _
  · rw [uses, Effect.blocksUnder, Slot.blocksUnder_other other, Nat.add_zero]

end

/-- The keys are kept by a request, unless it is a refused replacement that needs the next key. -/
theorem KeysKept.serve (keys : KeysKept cfg slots gen used) (sane : cfg.Sane)
    (limited : cfg.keyUsageLimit ≠ 0) (fits : cfg.Fits) (valid : slots.Valid cfg) {r : Request}
    {response : Response} {effect : Effect m} (serves : Serves cfg slots gen r response effect)
    (valid' : (effect.apply slots).Valid cfg)
    (gens : ∀ idx s, slots idx = some s → s.gen ≠ .allOnes 32)
    (last : gen ≠ .allOnes 32)
    (switched : ∀ clientId uid size flags asset, r = .set clientId uid size flags asset →
      ∀ idx s, slots idx = some s → s.uid = uid → s.clientId = clientId →
        s.plain.createFlags &&& psaStorageFlagWriteOnce ≠ 0 →
        (s.read cfg).switchKeys cfg s.plain = s.read cfg)
    (uses : ∀ label, used' label = used label + effect.blocksUnder label) :
    KeysKept cfg (effect.apply slots) (effect.gen cfg gen) used' := by
  have idle : (∀ label, used' label = used label + Effect.blocksUnder label (.idle : Effect m)) →
      KeysKept cfg slots gen used' := fun uses ↦ by rwa [show used' = used from funext uses]
  -- whatever is in memory when the keys are switched is stored as it should be
  have reads : ∀ idx s (plain : Payload), slots idx = some s →
      plain.currentSize = s.plain.currentSize →
      (Effect.apply (.kept idx s ((s.read cfg).switchKeys cfg plain)) slots).Valid cfg →
      (∀ label, used' label = used label + Effect.blocksUnder label
        (.kept idx s ((s.read cfg).switchKeys cfg plain) : Effect m)) →
      KeysKept cfg (Effect.apply
        (.kept idx s ((s.read cfg).switchKeys cfg plain)) slots) gen used' :=
    fun idx s plain here size valid' uses ↦ keys.kept sane limited fits valid here
      (gens idx s here) size
      (valid'.plain idx _ (Function.update_self ..)) uses
  have stored : ∀ (slots' : Slots m) new s plain,
      Slots.Valid cfg (Function.update slots' new (some (Slot.store cfg s plain))) →
        plain.Valid cfg := by
    intro slots' new s plain valid'
    have plain_valid := valid'.plain new _ (Function.update_self ..)
    rw [Slot.store] at plain_valid
    split at plain_valid
    · exact plain_valid
    · split at plain_valid <;> exact plain_valid
  cases serves with
  | refused | absent | uncreated | full => exact idle uses
  | read here | info here | unchangeable _ here | outside here =>
      exact reads _ _ _ here rfl valid' uses
  | unreplaced _ here | unwritten here => exact reads _ _ _ here rfl valid' uses
  | unreplaceable refusal here once =>
      have same := switched _ _ _ _ _ rfl _ _ here rfl rfl once
      rw [← same] at valid' uses ⊢
      exact reads _ _ _ here rfl valid' uses
  | replaced refusal here many enough free =>
      exact keys.moved sane limited fits valid here free (gens _ _ here)
        (stored _ _ _ _ valid') uses
  | written here free =>
      exact keys.moved sane limited fits valid here free (gens _ _ here)
        (stored _ _ _ _ valid') uses
  | created refusal lacks enough room free =>
      exact keys.created sane limited fits lacks free last (stored _ _ _ _ valid') uses
  | removed here many => exact keys.deleted limited fits valid here (gens _ _ here) uses

end

/-! ## Sessions -/

/-- The entry and the object of a client, as the table in memory and the object file hold them. -/
def World.object (w : World Tag m) (crypto : Crypto Tag m)
    (db : Fin (m + 1) → Entry Tag) (uid : Uid)
    (clientId : ℤ) : Option (Entry Tag × Payload) :=
  match psGetObjectEntryIdx db uid clientId with
  | none => none
  | some idx =>
      match w.objects (psObjectFsId idx) with
      | none => none
      | some file =>
          (crypto.decrypt ⟨uid, clientId, file.gen⟩ file.iv (.object (psObjectFsId idx) file.gen)
            file.cipher (db idx).tag).map fun plain ↦ (db idx, plain)

/-- No boot forgets a key generation that a removal has raised and no save has stored, and no
replacement is refused for an object whose key has no room for reading it twice. -/
def Session.KeepsKeys (cfg : Config) (crypto : Crypto Tag m) (x : Session Tag m) : Event → Prop
  | .boot => ∀ ram table, x.machine.ram = some ram →
      x.machine.world.tables ram.activeTable = some table → table.gen = ram.objTable.gen
  | .request (.set clientId uid _ _ _) => ∀ ram entry plain, x.machine.ram = some ram →
      x.machine.world.object crypto ram.objTable.data.objDb uid clientId = some (entry, plain) →
      plain.createFlags &&& psaStorageFlagWriteOnce ≠ 0 →
      entry.numBlocks + plain.blocks + plain.blocks ≤ cfg.keyUsageLimit
  | .request _ => True

/-- Objects that requests address have identifiers; the service checks this for all but
`ps_object_write`. -/
def Event.Named : Event → Prop
  | .request (.write _ uid _ _ _) => uid ≠ tfmPsInvalidUid
  | _ => True

/-- No key is used too often, the counts in the stored table cover the uses of the current keys and
are in range, and the objects that the stored table names decrypt under their keys. -/
def KeyUsageSafe (cfg : Config) (crypto : Crypto Tag m) (w : World Tag m) : Prop :=
  (∀ label, w.blocksUnder label ≤ cfg.keyUsageLimit.toNat) ∧
  ∀ i table idx, w.tables i = some table → (table.data.objDb idx).uid ≠ tfmPsInvalidUid →
    let entry := table.data.objDb idx
    ∃ file plain, w.objects (psObjectFsId idx) = some file ∧
      crypto.decrypt ⟨entry.uid, entry.clientId, file.gen⟩ file.iv
        (.object (psObjectFsId idx) file.gen)
        file.cipher entry.tag = some plain ∧
      w.blocksUnder ⟨entry.uid, entry.clientId, file.gen⟩ ≤ entry.numBlocks.toNat ∧
      entry.numBlocks.toNat ≤ cfg.keyUsageLimit.toNat

/-- The invariant of sessions that keep the keys. -/
def KeysInv (cfg : Config) (crypto : Crypto Tag m) (x : Session Tag m) : Prop :=
  (x.machine.ram = none ∧ Unused x.machine.world ∧ ∀ label, x.machine.world.blocksUnder label = 0) ∨
  ∃ ram slots, x.machine.ram = some ram ∧ x.machine.world.nvc 0 ≤ cfg.nvMax ∧
    Serving cfg crypto slots ram x.machine.world ∧
    KeysKept cfg slots ram.objTable.gen x.machine.world.blocksUnder

section

variable {slots : Slots m} {ram : Ram Tag m} {w : World Tag m}

/-- The object of a slot is what the table and the file hold. -/
theorem Serving.object_eq (serving : Serving cfg crypto slots ram w) {idx : Fin (m + 1)} {s : Slot}
    (here : slots idx = some s) : ∃ entry, entry.numBlocks = s.numBlocks ∧
      w.object crypto ram.objTable.data.objDb s.uid s.clientId = some (entry, s.plain) := by
  obtain ⟨iv, entry, file⟩ := serving.holds.used idx s here
  rcases serving.holds.find (serving.valid.uid idx s here) s.clientId with
    ⟨i, s', here', uid, clientId, found⟩ | ⟨lacks, -⟩
  · cases serving.valid.unique i idx s' s here' here uid clientId
    refine ⟨_, congrArg Entry.numBlocks entry, ?_⟩
    have decrypted := crypto.decrypt_encrypt s.label iv (.object (psObjectFsId idx) s.gen) s.plain
    rw [World.object, found]
    simp only [file, entry]
    rw [← Slot.label, decrypted]
    rfl
  · exact absurd ⟨rfl, rfl⟩ (lacks idx s here)

theorem eq_otherTable {i j : Fin 2} (ne : i ≠ j) : i = otherTable j := by
  revert i j
  decide

/-- The keys are as they should be while the system runs. -/
theorem Serving.keyUsageSafe (serving : Serving cfg crypto slots ram w)
    (keys : KeysKept cfg slots ram.objTable.gen w.blocksUnder) : KeyUsageSafe cfg crypto w := by
  refine ⟨keys.le_limit, fun i table idx here used ↦ ?_⟩
  obtain ⟨table', stored, -⟩ := serving.stored_table
  rcases eq_or_ne i ram.activeTable with rfl | other
  · cases here.symm.trans stored.here
    cases held : slots idx with
    | none => exact absurd (stored.holds.free idx held) used
    | some s =>
        obtain ⟨iv, entry, file⟩ := stored.holds.used idx s held
        obtain ⟨accounted, -⟩ := keys.held idx s held
        refine ⟨_, s.plain, file, ?_, ?_, ?_⟩
        · rw [entry]
          exact crypto.decrypt_encrypt s.label iv (.object (psObjectFsId idx) s.gen) s.plain
        · rw [entry]
          exact accounted.label
        · rw [entry]
          exact accounted.count
  · rw [eq_otherTable other, stored.left] at here
    cases here

variable [Inhabited Tag]

theorem KeysInv.step {x y : Session Tag m} {event : Event} (inv : KeysInv cfg crypto x)
    (small : cfg.nvMax < 2 ^ 32) (sane : cfg.Sane) (limited : cfg.keyUsageLimit ≠ 0)
    (fits : cfg.Fits) (counts : x.CanCount cfg event) (named : event.Named)
    (keeps : x.KeepsKeys cfg crypto event) (step_eq : x.step cfg crypto event = some y) :
    KeysInv cfg crypto y := by
  cases event with
  | boot =>
      rcases inv with ⟨-, unused, used⟩ | ⟨ram, slots, run, bounded, serving, keys⟩
      · obtain ⟨-, bounded, ⟨ram', run', -, serving, -, same⟩ | ⟨stopped, unused'⟩⟩ :=
          Session.step_first_boot unused step_eq
        · have zero : ∀ label, y.machine.world.blocksUnder label = 0 := fun label ↦
            (same label).trans (used label)
          refine .inr ⟨ram', _, run', bounded, serving, (by rintro _ _ ⟨⟩), fun uid clientId _ ↦
            ⟨fun g _ ↦ zero _, fun g ↦ ?_⟩⟩
          rw [zero]
          exact Nat.zero_le _
        · exact .inl ⟨stopped, (unused' sane).1, fun label ↦
            ((unused' sane).2 label).trans (used label)⟩
      · obtain ⟨table, stored, -⟩ := serving.stored_table
        obtain ⟨ram', run', -, serving', same, -, used, bounded'⟩ :=
          Session.step_boot stored bounded sane step_eq
        have gen : table.gen = ram.objTable.gen := keeps ram table run stored.here
        refine .inr ⟨ram', slots, run', bounded', serving', ?_⟩
        rw [same, gen, show y.machine.world.blocksUnder = _ from funext used]
        exact keys
  | request r =>
      rcases inv with ⟨stopped, -⟩ | ⟨ram, slots, run, bounded, serving, keys⟩
      · simp only [Session.step, stopped] at step_eq
        cases step_eq
      · obtain ⟨ram', response, run', -, ⟨effect, serves, serving', gen, used⟩, bounded'⟩ :=
          Session.step_request run serving small counts (by rintro _ _ _ _ _ rfl; exact named)
            step_eq
        refine .inr ⟨ram', effect.apply slots, run', bounded', serving', ?_⟩
        rw [gen]
        refine keys.serve sane limited fits serving.valid serves serving'.valid
          (fun idx s here ↦ serving.gen_ne small counts here)
          (gen_ne_allOnes serving.gen small counts) ?_ used
        rintro clientId uid size flags asset rfl idx s here rfl rfl once
        obtain ⟨entry, numBlocks, object⟩ := serving.object_eq here
        have room := keeps ram entry s.plain run object once
        rw [numBlocks] at room
        rw [Slot.switchKeys, if_neg]
        rintro ⟨-, above⟩
        rw [Slot.read, if_neg limited] at above
        exact absurd room (BitVec.not_le.2 above)

/-- With a key usage limit that passes the check of `ps_system_prepare`, no key is used too often as
long as no boot forgets a key generation and no refused replacement needs the next key. -/
theorem keyUsageSafe_of_keepsKeys (cfg : Config) (crypto : Crypto Tag m)
    (small : cfg.nvMax < 2 ^ 32)
    (limited : cfg.keyUsageLimit ≠ 0) (sane : cfg.Sane) (fits : cfg.Fits) (x : Session Tag m)
    (reaches : Run.Reaches (Session.step cfg crypto)
      (fun x event ↦ x.CanCount cfg event ∧ event.Named ∧ x.KeepsKeys cfg crypto event) .start x) :
    KeyUsageSafe cfg crypto x.machine.world := by
  have inv : KeysInv cfg crypto x :=
    reaches.invariant (.inl ⟨rfl, ⟨rfl, rfl⟩, fun _ ↦ rfl⟩) fun _ _ _ inv allowed ↦
      inv.step small sane limited fits allowed.1 allowed.2.1 allowed.2.2
  rcases inv with ⟨-, unused, used⟩ | ⟨ram, slots, -, -, serving, keys⟩
  · refine ⟨fun label ↦ (used label).trans_le (Nat.zero_le _), fun i table idx here ↦ ?_⟩
    rw [unused.tables] at here
    cases here
  · exact serving.keyUsageSafe keys

end

/-- The small system with the least key usage limit that it boots with. -/
def limitedConfig : Config := { sampleConfig with keyUsageLimit := 36 }

theorem limitedConfig_sane : limitedConfig.Sane := by
  rw [Config.Sane]
  decide

/-- Run the small system with a key usage limit. -/
def limitedRun (events : List Event) : Option (Session Code 1) :=
  Run.exec (Session.step limitedConfig sampleCrypto) .start events

/-- Every event of a list happens while the counter can count, to an object with an identifier. -/
def limitedAllowed (x : Session Code 1) : List Event → Bool
  | [] => true
  | event :: events =>
      decide (x.machine.world.nvc 0 < 100) && (match event with
        | .request (.write _ _ _ _ _) => false
        | _ => true) &&
      match x.step limitedConfig sampleCrypto event with
      | none => true
      | some y => limitedAllowed y events

theorem allowed_of_limitedAllowed {x : Session Code 1} {events : List Event}
    (allowed : limitedAllowed x events = true) :
    Run.Allowed (Session.step limitedConfig sampleCrypto)
      (fun x event ↦ x.CanCount limitedConfig event ∧ event.Named) x events := by
  induction events generalizing x with
  | nil => trivial
  | cons event events ih =>
      simp only [limitedAllowed, Bool.and_eq_true, decide_eq_true_eq] at allowed
      obtain ⟨⟨room, named⟩, rest⟩ := allowed
      refine ⟨⟨?_, ?_⟩, fun y step_eq ↦ ?_⟩
      · cases event with
        | boot => trivial
        | request r => exact room
      · cases event with
        | boot => trivial
        | request r =>
            cases r with
            | write => cases named
            | _ => trivial
      · rw [step_eq] at rest
        exact ih rest

theorem exists_overused (events : List Event)
    (above : (limitedRun events).any (fun x ↦ 36 < x.machine.world.blocksUnder ⟨7, 5, 0⟩) = true)
    (allowed : limitedAllowed .start events = true) :
    ∃ x, Run.Reaches (Session.step limitedConfig sampleCrypto)
      (fun x event ↦ x.CanCount limitedConfig event ∧ event.Named) .start x ∧
      ¬KeyUsageSafe limitedConfig sampleCrypto (x.machine.world : World Code 1) := by
  obtain ⟨x, run, above⟩ := (Option.any_eq_true ..).1 above
  refine ⟨x, Run.exec_reaches run (allowed_of_limitedAllowed allowed), fun safe ↦ ?_⟩
  exact absurd (safe.1 ⟨7, 5, 0⟩) (Nat.not_le.2 (of_decide_eq_true above))

/-- An object that may be written once is set, and then replacements are refused until its key has
been used too often. -/
theorem not_keyUsageSafe :
    ¬∀ x, Run.Reaches (Session.step limitedConfig sampleCrypto)
      (fun x event ↦ x.CanCount limitedConfig event ∧ event.Named) .start x →
      KeyUsageSafe limitedConfig sampleCrypto (x.machine.world : World Code 1) := by
  intro safe
  obtain ⟨x, reaches, unsafe_keys⟩ := exists_overused [.boot,
    .request (.set 5 7 100 1 (.replicate 100 9)), .request (.set 5 7 1 0 [8]),
    .request (.set 5 7 1 0 [8]), .request (.set 5 7 1 0 [8]), .request (.set 5 7 1 0 [8])]
    (by decide +kernel) (by decide +kernel)
  exact unsafe_keys (safe x reaches)

/-- An object is set and removed and the system boots, again and again: the same key is used each
time. -/
theorem not_keyUsageSafe_boots :
    ¬∀ x, Run.Reaches (Session.step limitedConfig sampleCrypto)
      (fun x event ↦ x.CanCount limitedConfig event ∧ event.Named) .start x →
      KeyUsageSafe limitedConfig sampleCrypto (x.machine.world : World Code 1) := by
  intro safe
  obtain ⟨x, reaches, unsafe_keys⟩ := exists_overused [.boot,
    .request (.set 5 7 100 0 (.replicate 100 9)), .request (.remove 5 7), .boot,
    .request (.set 5 7 100 0 (.replicate 100 9)), .request (.remove 5 7), .boot,
    .request (.set 5 7 100 0 (.replicate 100 9))]
    (by decide +kernel) (by decide +kernel)
  exact unsafe_keys (safe x reaches)

/-- An object is set and the system boots again. -/
theorem keyUsageSafe_second_boot :
    ∃ x, limitedRun [.boot, .request (.set 5 7 1 0 [9]), .boot] = some x ∧
      KeyUsageSafe limitedConfig sampleCrypto x.machine.world := by
  have small : limitedConfig.nvMax < 2 ^ 32 := by decide
  have limited : limitedConfig.keyUsageLimit ≠ 0 := by decide
  have fits : limitedConfig.Fits := by
    rw [Config.Fits]
    decide
  have runs : (limitedRun [.boot, .request (.set 5 7 1 0 [9]), .boot]).isSome = true := by
    decide +kernel
  have facts : ((Session.start : Session Code 1).step limitedConfig sampleCrypto .boot).all (fun x ↦
      x.machine.world.nvc 0 < 100 && x.machine.ram.all (fun ram ↦
        (x.machine.world.object sampleCrypto ram.objTable.data.objDb 7 5).isNone) &&
      (x.step limitedConfig sampleCrypto (.request (.set 5 7 1 0 [9]))).all fun y ↦
        y.machine.ram.all fun ram ↦ (y.machine.world.tables ram.activeTable).all fun table ↦
          table.gen = ram.objTable.gen) = true := by
    decide +kernel
  obtain ⟨x, run⟩ := Option.isSome_iff_exists.1 runs
  refine ⟨x, run, keyUsageSafe_of_keepsKeys limitedConfig sampleCrypto small limited
    limitedConfig_sane fits x (Run.exec_reaches run ⟨⟨trivial, trivial, ?_⟩, fun y eq ↦
      ⟨⟨?_, trivial, ?_⟩, fun z eq' ↦ ⟨⟨trivial, trivial, ?_⟩, fun _ _ ↦ trivial⟩⟩⟩)⟩
  · rintro _ _ ⟨⟩
  · have facts := (Option.all_eq_true ..).1 facts y eq
    simp only [Bool.and_eq_true, decide_eq_true_eq] at facts
    exact facts.1.1
  · have facts := (Option.all_eq_true ..).1 facts y eq
    simp only [Bool.and_eq_true] at facts
    intro ram entry plain run object
    have absent := (Option.all_eq_true ..).1 facts.1.2 ram run
    rw [object] at absent
    cases absent
  · have facts := (Option.all_eq_true ..).1 facts y eq
    simp only [Bool.and_eq_true] at facts
    intro ram table run here
    have facts := (Option.all_eq_true ..).1 facts.2 z eq'
    have facts := (Option.all_eq_true ..).1 facts ram run
    exact of_decide_eq_true ((Option.all_eq_true ..).1 facts table here)

end TrustedFirmwareM.Ps
