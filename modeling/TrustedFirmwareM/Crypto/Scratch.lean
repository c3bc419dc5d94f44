import TrustedFirmwareM.Crypto.Outputs
import TrustedFirmwareM.Lib.ByteMemory

/-!
# The scratch memory of the crypto service

A request comes with input and output vectors.  The service copies the inputs into a scratch buffer,
lets the dispatcher write the outputs there, copies them back and clears the buffer.  Vectors get
consecutive pieces of the buffer.
-/

namespace TrustedFirmwareM.Crypto.Scratch

/-- What the build settles: the configuration and the address of `scratch.buf`. -/
structure Build where
  /-- The configuration. -/
  cfg : Config
  /-- `scratch.buf`. -/
  buf : BitVec 32
  /-- `__attribute__((__aligned__(TFM_CRYPTO_IOVEC_ALIGNMENT)))`. -/
  aligned : 4 ∣ buf.toNat
  /-- The buffer is an object of `CRYPTO_IOVEC_BUFFER_SIZE` bytes in memory. -/
  fits : buf.toNat + cfg.iovecBufferSize < 2 ^ 32

/-- `sizeof(scratch.buf)`. -/
def Build.bufSize (b : Build) : BitVec 32 := BitVec.ofNat 32 b.cfg.iovecBufferSize

/-- `psa_invec` and `psa_outvec`. -/
structure Vec where
  /-- Start address. -/
  base : BitVec 32
  /-- Size in bytes. -/
  len : BitVec 32
  deriving DecidableEq

/-- `psa_msg_t`, with the data of the client. -/
structure Msg where
  /-- `type`. -/
  type : ℤ
  /-- `client_id`. -/
  clientId : ℤ
  /-- The data of the input vectors, whose lengths are `in_size`. -/
  inVec : List Bytes
  /-- `out_size`. -/
  outSize : List (BitVec 32)
  /-- There are at most `PSA_MAX_IOVEC` input vectors. -/
  inVec_length : inVec.length ≤ 4
  /-- There are at most `PSA_MAX_IOVEC` output vectors. -/
  outSize_length : outSize.length ≤ 4
  /-- The sizes are `size_t`. -/
  inSize_lt : ∀ input ∈ inVec, input.length < 2 ^ 32

/-- The partition: `struct tfm_crypto_scratch` with the buffer in memory, and the modules. -/
@[ext]
structure State (Ctx L : Type) (n : ℕ) where
  /-- Memory with the buffer. -/
  memory : ByteMemory
  /-- `alloc_index`. -/
  allocIndex : BitVec 32
  /-- `owner`. -/
  owner : ℤ
  /-- The modules of the service. -/
  service : Service Ctx L n

/-- `ALIGN(x, TFM_CRYPTO_IOVEC_ALIGNMENT)`. -/
def align (x : BitVec 32) : BitVec 32 := (x + 3) &&& ~~~3

/-- `tfm_crypto_alloc_scratch`: the space and the new `alloc_index`. -/
def tfmCryptoAllocScratch (b : Build) (requestedSize allocIndex : BitVec 32) :
    Option (BitVec 32 × BitVec 32) :=
  -- prevent the alignment from overflowing
  if 0xFFFFFFFF - 3 < requestedSize then none
  else
    let requestedSize := align requestedSize
    if b.bufSize - allocIndex < requestedSize then none
    else some (b.buf + allocIndex, allocIndex + requestedSize)

section

variable {Ctx L : Type} {n : ℕ}

/-- `tfm_crypto_clear_scratch`. -/
def tfmCryptoClearScratch (b : Build) (s : State Ctx L n) : State Ctx L n :=
  { s with
    owner := 0
    memory := s.memory.write b.buf (List.replicate s.allocIndex.toNat 0)
    allocIndex := 0 }

/-- `psa_read` of at most `numBytes` bytes of an input vector that nothing has been read of. -/
def psaRead (memory : ByteMemory) (input : Bytes) (buffer numBytes : BitVec 32) :
    BitVec 32 × ByteMemory :=
  let bytes := input.take numBytes.toNat
  (BitVec.ofNat 32 bytes.length, memory.write buffer bytes)

/-- `tfm_crypto_init_iovecs`, the loop over the input vectors after the first. -/
def initInVecs (b : Build) : List Bytes → State Ctx L n → Status × List Vec × State Ctx L n
  | [], s => (.success, [], s)
  | input :: inputs, s =>
      let inSize := BitVec.ofNat 32 input.length
      match tfmCryptoAllocScratch b inSize s.allocIndex with
      | none => (.insufficientMemory, [], tfmCryptoClearScratch b s)
      | some (base, allocIndex) =>
          let (len, memory) := psaRead s.memory input base inSize
          let (status, inVec, s) := initInVecs b inputs { s with allocIndex, memory }
          (status, ⟨base, len⟩ :: inVec, s)

/-- `tfm_crypto_init_iovecs`, the loop over the output vectors. -/
def initOutVecs (b : Build) : List (BitVec 32) → State Ctx L n → Status × List Vec × State Ctx L n
  | [], s => (.success, [], s)
  | outSize :: outSizes, s =>
      match tfmCryptoAllocScratch b outSize s.allocIndex with
      | none => (.insufficientMemory, [], tfmCryptoClearScratch b s)
      | some (base, allocIndex) =>
          let (status, outVec, s) := initOutVecs b outSizes { s with allocIndex }
          (status, ⟨base, outSize⟩ :: outVec, s)

/-- `tfm_crypto_init_iovecs`: the status, and the input and output vectors filled in so far. -/
def tfmCryptoInitIovecs (b : Build) (inputs : List Bytes) (outSizes : List (BitVec 32))
    (s : State Ctx L n) : Status × List Vec × List Vec × State Ctx L n :=
  match initInVecs b inputs s with
  | (.success, inVec, s) =>
      let (status, outVec, s) := initOutVecs b outSizes s
      (status, inVec, outVec, s)
  | (status, inVec, s) => (status, inVec, [], s)

/-- The little-endian number at an offset. -/
def field (bytes : Bytes) (offset size : ℕ) : ℕ :=
  ((bytes.drop offset).take size).foldr (fun byte word ↦ byte.toNat + 256 * word) 0

/-- `sizeof(struct tfm_crypto_pack_iovec)`. -/
def sizeofPackIovec : ℕ := 56

/-- The layout of `struct tfm_crypto_pack_iovec`. -/
def packIovec (bytes : Bytes) : PackIovec where
  keyId := field bytes 0 4
  alg := field bytes 4 4
  opHandle := field bytes 8 4
  adLength := field bytes 12 4
  plaintextLength := field bytes 16 4
  nonce := (bytes.drop 20).take 16
  nonceLength := field bytes 36 4
  functionId := BitVec.ofNat 16 (field bytes 40 2)
  step := field bytes 42 2
  value := BitVec.ofNat 64 (field bytes 48 8)

end

/-- What is in the space of an output vector afterwards.  The crypto library may leave anything in
the part for which it reports nothing. -/
def outBytes (left : ByteMemory) (v : Vec) (contents : Contents) : Bytes :=
  contents.bytes ++ (left.read v.base v.len.toNat).drop contents.bytes.length

/-- Write output vectors to memory. -/
def storeOutVec (left : ByteMemory) : List Vec → List OutVec → ByteMemory → ByteMemory
  | v :: outVec, out :: outs, memory =>
      storeOutVec left outVec outs (memory.write v.base (outBytes left v out.contents))
  | _, _, memory => memory

section

variable {Ctx L : Type} {n : ℕ} [Zero Ctx] (lib : Library Ctx L)
  (left : State Ctx L n → PackIovec → ByteMemory) (b : Build)

/-- `tfm_crypto_api_dispatcher` on vectors in memory. -/
def dispatch (iov : PackIovec) (inVec outVec : List Vec) (s : State Ctx L n) :
    Status × List Vec × State Ctx L n :=
  let inputs := inVec.map fun v ↦ s.memory.read v.base v.len.toNat
  let (status, outs, service) :=
    tfmCryptoApiDispatcher lib b.cfg s.owner iov inputs
      (outVec.map fun v ↦ ⟨v.len.toNat, .unwritten⟩) s.service
  (status, List.zipWith (fun v out ↦ { v with len := BitVec.ofNat 32 out.len }) outVec outs,
    { s with service, memory := storeOutVec (left s iov) outVec outs s.memory })

/-- `psa_write` to an output vector that nothing has been written to.  The partition panics if the
vector is too small. -/
def psaWrite (memory : ByteMemory) (outSize : BitVec 32) (v : Vec) : Option Bytes :=
  if outSize < v.len then none else some (memory.read v.base v.len.toNat)

/-- The loop that writes the outputs back. -/
def writeOutputs (memory : ByteMemory) : List (BitVec 32) → List Vec → Option (List Bytes)
  | outSize :: outSizes, v :: outVec => do
      let output ← psaWrite memory outSize v
      let outputs ← writeOutputs memory outSizes outVec
      return output :: outputs
  | _, _ => some []

/-- What happens in a request. -/
structure Outcome where
  /-- The status that the client gets. -/
  status : Status
  /-- The input vectors that space was allocated for. -/
  inVec : List Vec
  /-- The output vectors that space was allocated for. -/
  outVec : List Vec
  /-- The vectors that were copied back. -/
  written : List Vec
  /-- The outputs that the client gets. -/
  outputs : List Bytes
  /-- Memory when the service is done with the request, before it clears the buffer. -/
  memory : ByteMemory

/-- The outcome of a request that gets no space. -/
def Outcome.refused (status : Status) (s : State Ctx L n) : Outcome :=
  ⟨status, [], [], [], [], s.memory⟩

/-- `tfm_crypto_call_srv`.  There is no outcome if the partition panics. -/
def tfmCryptoCallSrv (msg : Msg) (s : State Ctx L n) : Option (Outcome × State Ctx L n) :=
  -- the number of vectors filled
  let inputs := msg.inVec.rdropWhile List.isEmpty
  let outSizes := msg.outSize.rdropWhile (· == 0)
  match inputs with
  | [] => some (.refused .genericError s, s)
  | first :: inputs =>
      if first.length < sizeofPackIovec then some (.refused .genericError s, s)
      else
        match tfmCryptoInitIovecs b inputs outSizes s with
        | (.success, inVec, outVec, s) =>
            let s := { s with owner := msg.clientId }
            let (status, written, s) :=
              dispatch lib left b (packIovec (first.take sizeofPackIovec)) inVec outVec s
            if status = .success then do
              let outputs ← writeOutputs s.memory outSizes written
              return (⟨status, inVec, outVec, written, outputs, s.memory⟩,
                tfmCryptoClearScratch b s)
            else some (⟨status, inVec, outVec, [], [], s.memory⟩, tfmCryptoClearScratch b s)
        | (status, inVec, outVec, s) => some (⟨status, inVec, outVec, [], [], s.memory⟩, s)

/-- `PSA_IPC_CALL`. -/
def psaIpcCall : ℤ := 0

/-- `tfm_crypto_sfn`. -/
def tfmCryptoSfn (msg : Msg) (s : State Ctx L n) : Option (Outcome × State Ctx L n) :=
  if msg.type = psaIpcCall then tfmCryptoCallSrv lib left b msg s
  else some (.refused .notSupported s, s)

/-- Serve requests one after the other. -/
def serveAll : List Msg → State Ctx L n → Option (State Ctx L n)
  | [], s => some s
  | msg :: msgs, s => do
      let (_, s) ← tfmCryptoSfn lib left b msg s
      serveAll msgs s

end

variable {b : Build}

theorem align_toNat {x : BitVec 32} (x_le : x.toNat ≤ 2 ^ 32 - 1 - 3) :
    (align x).toNat = (x.toNat + 3) / 4 * 4 := by
  -- clearing the low bits is a shift forth and back
  have masked : align x = (x + 3) >>> 2 <<< 2 := by
    have mask : ∀ i < 32, BitVec.getLsbD (3 : BitVec 32) i = decide (i < 2) := by decide
    apply BitVec.eq_of_getLsbD_eq
    intro i i_lt
    simp only [align, BitVec.getLsbD_and, BitVec.getLsbD_not, BitVec.getLsbD_shiftLeft,
      BitVec.getLsbD_ushiftRight, mask i i_lt]
    cases Nat.lt_or_ge i 2 with
    | inl low => simp [low]
    | inr high => simp [i_lt, show ¬i < 2 by omega, show 2 + (i - 2) = i by omega]
  have sum : (x + 3).toNat = x.toNat + 3 := by bv_omega
  rw [masked, BitVec.toNat_shiftLeft, BitVec.toNat_ushiftRight, sum, Nat.shiftLeft_eq,
    Nat.shiftRight_eq_div_pow]
  omega

theorem Build.bufSize_toNat (b : Build) : b.bufSize.toNat = b.cfg.iovecBufferSize := by
  have := b.fits
  simp only [Build.bufSize, BitVec.toNat_ofNat]
  omega

theorem tfmCryptoAllocScratch_eq_some {requestedSize allocIndex base index : BitVec 32}
    (index_le : allocIndex.toNat ≤ b.cfg.iovecBufferSize) (index_dvd : 4 ∣ allocIndex.toNat)
    (allocated : tfmCryptoAllocScratch b requestedSize allocIndex = some (base, index)) :
    base.toNat = b.buf.toNat + allocIndex.toNat ∧
      allocIndex.toNat + requestedSize.toNat ≤ index.toNat ∧
      index.toNat ≤ b.cfg.iovecBufferSize ∧ 4 ∣ index.toNat := by
  rw [tfmCryptoAllocScratch] at allocated
  split at allocated
  · contradiction
  next no_overflow =>
  dsimp only at allocated
  split at allocated
  · contradiction
  next room =>
  obtain ⟨rfl, rfl⟩ := Prod.mk.inj (Option.some.inj allocated)
  have size_le : requestedSize.toNat ≤ 2 ^ 32 - 1 - 3 := by bv_omega
  have aligned := align_toNat size_le
  have size := b.bufSize_toNat
  have fits := b.fits
  have sum : (allocIndex + align requestedSize).toNat =
      allocIndex.toNat + (align requestedSize).toNat := by bv_omega
  rw [sum, aligned]
  refine ⟨by bv_omega, by omega, by bv_omega, by omega⟩


/-- A pointer into the buffer. -/
theorem sub_buf_toNat {base a : BitVec 32} {offset len : ℕ}
    (at_offset : base.toNat = b.buf.toNat + offset) (beyond : offset + len ≤ (a - b.buf).toNat) :
    len ≤ (a - base).toNat := by
  have := b.fits
  bv_omega

/-- The buffer as it is between requests. -/
structure Clean (b : Build) (memory : ByteMemory) (s : State Ctx L n) : Prop where
  /-- Nothing is left in memory. -/
  memory : s.memory = memory
  /-- Nothing is allocated. -/
  allocIndex : s.allocIndex = 0
  /-- There is no owner. -/
  owner : s.owner = 0

/-- The buffer while a request is served: only the space that is allocated has changed. -/
structure Pending (b : Build) (memory : ByteMemory) (s : State Ctx L n) : Prop where
  /-- The space is in the buffer. -/
  index_le : s.allocIndex.toNat ≤ b.cfg.iovecBufferSize
  /-- The next space is aligned. -/
  index_dvd : 4 ∣ s.allocIndex.toNat
  /-- Memory beyond the space has not changed. -/
  beyond : ∀ a, s.allocIndex.toNat ≤ (a - b.buf).toNat → s.memory a = memory a

/-- Vectors occupy consecutive pieces of the buffer between two offsets. -/
def Consecutive (b : Build) : ℕ → List Vec → ℕ → Prop
  | start, [], stop => start = stop
  | start, v :: vs, stop =>
      v.base.toNat = b.buf.toNat + start ∧ 4 ∣ start ∧
        ∃ next, start + v.len.toNat ≤ next ∧ Consecutive b next vs stop

/-- The buffer holds zeros. -/
def Zeroed (b : Build) (memory : ByteMemory) : Prop :=
  ∀ a, (a - b.buf).toNat < b.cfg.iovecBufferSize → memory a = 0

section

variable {Ctx L : Type} {n : ℕ} {memory : ByteMemory} {s : State Ctx L n}

theorem Clean.pending (clean : Clean b memory s) : Pending b memory s := by
  constructor
  case index_le => simp [clean.allocIndex]
  case index_dvd => simp [clean.allocIndex]
  case beyond => exact fun a _ ↦ congrFun clean.memory a

/-- Clearing covers all that was allocated. -/
theorem Pending.clean (pending : Pending b memory s) (zeroed : Zeroed b memory) :
    Clean b memory (tfmCryptoClearScratch b s) := by
  constructor
  case memory =>
    funext a
    cases Nat.lt_or_ge (a - b.buf).toNat s.allocIndex.toNat with
    | inl inside =>
        have zero := zeroed a (inside.trans_le pending.index_le)
        simp only [tfmCryptoClearScratch, ByteMemory.write, List.getElem?_replicate, inside,
          if_true,
          Option.getD_some, zero]
    | inr beyond =>
        have outside : (List.replicate s.allocIndex.toNat (0 : BitVec 8)).length ≤
            (a - b.buf).toNat := by
          rw [List.length_replicate]
          exact beyond
        exact (ByteMemory.write_of_le outside).trans (pending.beyond a beyond)
  case allocIndex => rfl
  case owner => rfl

theorem Consecutive.le {start stop : ℕ} {vs : List Vec} (placed : Consecutive b start vs stop) :
    start ≤ stop := by
  induction vs generalizing start with
  | nil => exact Nat.le_of_eq placed
  | cons v vs ih =>
      obtain ⟨-, -, next, next_ge, placed⟩ := placed
      exact (Nat.le_add_right _ _).trans (next_ge.trans (ih placed))

theorem Consecutive.append {start middle stop : ℕ} {vs ws : List Vec}
    (placed : Consecutive b start vs middle) (placed' : Consecutive b middle ws stop) :
    Consecutive b start (vs ++ ws) stop := by
  induction vs generalizing start with
  | nil =>
      cases placed
      exact placed'
  | cons v vs ih =>
      obtain ⟨base, aligned, next, next_ge, placed⟩ := placed
      exact ⟨base, aligned, next, next_ge, ih placed⟩

/-- Each vector lies between the offsets, and it is aligned. -/
theorem Consecutive.mem {start stop : ℕ} {vs : List Vec} (placed : Consecutive b start vs stop)
    {v : Vec} (v_mem : v ∈ vs) :
    4 ∣ v.base.toNat ∧ b.buf.toNat + start ≤ v.base.toNat ∧
      v.base.toNat + v.len.toNat ≤ b.buf.toNat + stop := by
  induction vs generalizing start with
  | nil => contradiction
  | cons w vs ih =>
      obtain ⟨base, start_dvd, next, next_ge, placed⟩ := placed
      have next_le := placed.le
      cases v_mem with
      | head =>
          refine ⟨?_, base.ge, by omega⟩
          rw [base]
          exact Nat.dvd_add b.aligned start_dvd
      | tail _ v_mem =>
          obtain ⟨aligned, ge, le⟩ := ih placed v_mem
          exact ⟨aligned, by omega, le⟩

/-- Vectors in consecutive pieces do not overlap. -/
theorem Consecutive.pairwise {start stop : ℕ} {vs : List Vec}
    (placed : Consecutive b start vs stop) :
    vs.Pairwise fun v w ↦ v.base.toNat + v.len.toNat ≤ w.base.toNat := by
  induction vs generalizing start with
  | nil => exact .nil
  | cons v vs ih =>
      obtain ⟨base, -, next, next_ge, placed⟩ := placed
      apply List.Pairwise.cons
      · intro w w_mem
        have := (placed.mem w_mem).2.1
        omega
      · exact ih placed

/-- An allocation leads to a longer space that may be written. -/
theorem Pending.alloc (pending : Pending b memory s) {requestedSize base index : BitVec 32}
    (allocated : tfmCryptoAllocScratch b requestedSize s.allocIndex = some (base, index))
    {bytes : Bytes} (bytes_le : bytes.length ≤ requestedSize.toNat) :
    Pending b memory { s with allocIndex := index, memory := s.memory.write base bytes } := by
  obtain ⟨at_index, size_le, index_le, index_dvd⟩ :=
    tfmCryptoAllocScratch_eq_some pending.index_le pending.index_dvd allocated
  constructor
  case index_le => exact index_le
  case index_dvd => exact index_dvd
  case beyond =>
    intro a index_le_a
    have outside : bytes.length ≤ (a - base).toNat :=
      sub_buf_toNat at_index ((Nat.add_le_add_left bytes_le _).trans (size_le.trans index_le_a))
    have old_le : s.allocIndex.toNat ≤ index.toNat := (Nat.le_add_right _ _).trans size_le
    have old_le : s.allocIndex.toNat ≤ index.toNat := (Nat.le_add_right _ _).trans size_le
    exact (ByteMemory.write_of_le outside).trans (pending.beyond a (old_le.trans index_le_a))

/-- The vectors made so far lie in consecutive pieces, and a failure clears the buffer. -/
structure Inited (b : Build) (memory : ByteMemory) (s : State Ctx L n) (status : Status)
    (vs : List Vec) (s' : State Ctx L n) : Prop where
  /-- The vectors lie in consecutive pieces. -/
  placed : ∃ stop, Consecutive b s.allocIndex.toNat vs stop ∧ stop ≤ b.cfg.iovecBufferSize ∧
    (status = .success → stop = s'.allocIndex.toNat)
  /-- The buffer is ready for the next vector. -/
  pending : status = .success → Pending b memory s'
  /-- A failure leaves the buffer as it is between requests. -/
  clean : status ≠ .success → Clean b memory s'
  /-- The modules are not involved. -/
  service : s'.service = s.service

theorem inited_nil (pending : Pending b memory s) : Inited b memory s .success [] s := by
  constructor
  case placed => exact ⟨_, rfl, pending.index_le, fun _ ↦ rfl⟩
  case pending => exact fun _ ↦ pending
  case clean => exact fun failed ↦ absurd rfl failed
  case service => rfl

theorem inited_full (pending : Pending b memory s) (zeroed : Zeroed b memory) :
    Inited b memory s .insufficientMemory [] (tfmCryptoClearScratch b s) := by
  constructor
  case placed => exact ⟨_, rfl, pending.index_le, fun success ↦ by contradiction⟩
  case pending => exact fun success ↦ by contradiction
  case clean => exact fun _ ↦ pending.clean zeroed
  case service => rfl

/-- A vector for which there is room, and those after it. -/
theorem Inited.cons (pending : Pending b memory s) {requestedSize base index len : BitVec 32}
    (allocated : tfmCryptoAllocScratch b requestedSize s.allocIndex = some (base, index))
    (len_le : len.toNat ≤ requestedSize.toNat) {memory' : ByteMemory} {status : Status}
    {vs : List Vec}
    {s' : State Ctx L n}
    (inited : Inited b memory { s with allocIndex := index, memory := memory' } status vs s') :
    Inited b memory s status (⟨base, len⟩ :: vs) s' := by
  obtain ⟨at_index, size_le, index_le, index_dvd⟩ :=
    tfmCryptoAllocScratch_eq_some pending.index_le pending.index_dvd allocated
  obtain ⟨stop, placed, stop_le, stop_eq⟩ := inited.placed
  constructor
  case placed =>
    refine ⟨stop, ⟨at_index, pending.index_dvd, index.toNat, ?_, placed⟩, stop_le, stop_eq⟩
    exact (Nat.add_le_add_left len_le _).trans size_le
  case pending => exact inited.pending
  case clean => exact inited.clean
  case service => exact inited.service

theorem initInVecs_inited (zeroed : Zeroed b memory) (inputs : List Bytes)
    (pending : Pending b memory s) :
    Inited b memory s (initInVecs b inputs s).1 (initInVecs b inputs s).2.1
      (initInVecs b inputs s).2.2 := by
  induction inputs generalizing s with
  | nil => exact inited_nil pending
  | cons input inputs ih =>
      rw [initInVecs]
      dsimp only
      split
      · exact inited_full pending zeroed
      · next base index allocated =>
          apply Inited.cons pending allocated
          · rw [psaRead, BitVec.toNat_ofNat]
            exact (Nat.mod_le _ _).trans (List.length_take_le _ _)
          · exact ih (pending.alloc allocated (List.length_take_le _ _))

theorem initOutVecs_inited (zeroed : Zeroed b memory) (outSizes : List (BitVec 32))
    (pending : Pending b memory s) :
    Inited b memory s (initOutVecs b outSizes s).1 (initOutVecs b outSizes s).2.1
      (initOutVecs b outSizes s).2.2 := by
  induction outSizes generalizing s with
  | nil => exact inited_nil pending
  | cons outSize outSizes ih =>
      rw [initOutVecs]
      dsimp only
      split
      · exact inited_full pending zeroed
      · next base index allocated =>
          have unwritten : s.memory.write base [] = s.memory := rfl
          apply Inited.cons pending allocated le_rfl
          apply ih
          rw [← unwritten]
          exact pending.alloc allocated (Nat.zero_le _)

theorem initOutVecs_len {outSizes : List (BitVec 32)}
    (success : (initOutVecs b outSizes s).1 = .success) :
    (initOutVecs b outSizes s).2.1.map Vec.len = outSizes := by
  induction outSizes generalizing s with
  | nil => rfl
  | cons outSize outSizes ih =>
      rw [initOutVecs] at success ⊢
      dsimp only at success ⊢
      split at success
      · contradiction
      · next base index allocated => exact congrArg (outSize :: ·) (ih success)

theorem tfmCryptoInitIovecs_inited (zeroed : Zeroed b memory) (inputs : List Bytes)
    (outSizes : List (BitVec 32)) (pending : Pending b memory s)
    {status : Status} {inVec outVec : List Vec} {s' : State Ctx L n}
    (made : tfmCryptoInitIovecs b inputs outSizes s = (status, inVec, outVec, s')) :
    Inited b memory s status (inVec ++ outVec) s' ∧
      (status = .success → outVec.map Vec.len = outSizes ∧
        ∃ start, Consecutive b start outVec s'.allocIndex.toNat) := by
  have ins := initInVecs_inited zeroed inputs pending
  rw [tfmCryptoInitIovecs] at made
  split at made
  · next inVec' s₁ made_in =>
      rw [made_in] at ins
      obtain ⟨stop, placed, -, stop_eq⟩ := ins.placed
      obtain rfl := stop_eq rfl
      have outs := initOutVecs_inited zeroed outSizes (ins.pending rfl)
      obtain ⟨stop, placed', stop_le, stop_eq⟩ := outs.placed
      obtain ⟨rfl, rfl, rfl, rfl⟩ : _ = status ∧ inVec' = inVec ∧ _ = outVec ∧ _ = s' := by
        simpa only [Prod.mk.injEq] using made
      constructor
      · exact ⟨⟨stop, placed.append placed', stop_le, stop_eq⟩, outs.pending, outs.clean,
          outs.service.trans ins.service⟩
      · intro success
        obtain rfl := stop_eq success
        exact ⟨initOutVecs_len success, _, placed'⟩
  · next status' inVec' s₁ failed made_in =>
      rw [made_in] at ins
      obtain ⟨rfl, rfl, rfl, rfl⟩ : status' = status ∧ inVec' = inVec ∧ [] = outVec ∧ s₁ = s' := by
        simpa only [Prod.mk.injEq] using made
      rw [List.append_nil]
      exact ⟨ins, fun success ↦ absurd success failed⟩

/-- Each output vector stays within the space that it has. -/
abbrev Within : List Vec → List OutVec → Prop := List.Forall₂ fun v out ↦ out.Fits v.len.toNat

theorem length_outBytes {left : ByteMemory} {v : Vec} {contents : Contents}
    (fits : contents.bytes.length ≤ v.len.toNat) :
    (outBytes left v contents).length = v.len.toNat := by
  simp [outBytes, ByteMemory.read, Nat.add_sub_cancel' fits]

/-- Outputs are written to the space of their vectors only. -/
theorem storeOutVec_beyond {left : ByteMemory} {outVec : List Vec} {outs : List OutVec}
    (within : Within outVec outs) {start stop : ℕ} (placed : Consecutive b start outVec stop)
    {a : BitVec 32} (beyond : stop ≤ (a - b.buf).toNat) (m : ByteMemory) :
    storeOutVec left outVec outs m a = m a := by
  induction within generalizing start m with
  | nil => rfl
  | cons fits _ ih =>
      obtain ⟨base, -, next, next_ge, placed⟩ := placed
      rw [storeOutVec, ih placed, ByteMemory.write_of_le]
      rw [length_outBytes fits.bytes_le]
      exact sub_buf_toNat base (next_ge.trans (placed.le.trans beyond))

/-- What is copied back lies in the space of an output vector. -/
def Copied (written outVec : List Vec) : Prop :=
  List.Forall₂ (fun w v ↦ w.base = v.base ∧ w.len.toNat ≤ v.len.toNat) written outVec

theorem copied_of_within {outVec : List Vec} {outs : List OutVec} (within : Within outVec outs) :
    Copied (List.zipWith (fun v out ↦ { v with len := BitVec.ofNat 32 out.len }) outVec outs)
      outVec := by
  induction within with
  | nil => exact .nil
  | cons fits _ ih =>
      apply List.Forall₂.cons _ ih
      constructor
      · rfl
      · rw [BitVec.toNat_ofNat]
        exact (Nat.mod_le _ _).trans fits.len_le

/-- The client has room for the outputs. -/
theorem Copied.writeOutputs {written outVec : List Vec} (copied : Copied written outVec)
    (m : ByteMemory) : writeOutputs m (outVec.map Vec.len) written =
      some (written.map fun w ↦ m.read w.base w.len.toNat) := by
  induction copied with
  | nil => rfl
  | cons here _ ih =>
      rw [List.map_cons, Scratch.writeOutputs, ih, psaWrite, if_neg]
      · rfl
      · exact BitVec.not_lt.2 (BitVec.le_def.2 here.2)

theorem Copied.mem {written outVec : List Vec} (copied : Copied written outVec) {w : Vec}
    (w_mem : w ∈ written) : ∃ v ∈ outVec, w.base = v.base ∧ w.len.toNat ≤ v.len.toNat := by
  induction copied with
  | nil => contradiction
  | cons here _ ih =>
      cases w_mem with
      | head => exact ⟨_, List.mem_cons_self, here⟩
      | tail _ w_mem =>
          obtain ⟨v, v_mem, inside⟩ := ih w_mem
          exact ⟨v, List.mem_cons_of_mem _ v_mem, inside⟩

end

section

variable {Ctx L : Type} {n : ℕ} [Zero Ctx] {lib : Library Ctx L} {memory : ByteMemory}
  {left : State Ctx L n → PackIovec → ByteMemory} {s : State Ctx L n}

theorem within_of_fit {outVec : List Vec} {outs : List OutVec}
    (fit : OutVecsFit (outVec.map fun v ↦ v.len.toNat) outs) : Within outVec outs := by
  rw [Within, List.forall₂_iff_get]
  constructor
  · rw [fit.length, List.length_map]
  · intro i i_lt i_lt'
    have fits := fit.fits i outs[i] (List.getElem?_eq_getElem i_lt')
    simpa [i_lt] using fits

/-- The dispatcher keeps to the space of the output vectors. -/
theorem dispatcher_within (bounded : lib.Bounded) (cfg : Config) (caller : ℤ) (iov : PackIovec)
    (inputs : List Bytes) (outVec : List Vec) (service : Service Ctx L n) :
    Within outVec (tfmCryptoApiDispatcher lib cfg caller iov inputs
      (outVec.map fun v ↦ ⟨v.len.toNat, .unwritten⟩) service).2.1 := by
  have sizes : (outVec.map fun v ↦ (⟨v.len.toNat, .unwritten⟩ : OutVec)).map OutVec.len =
      outVec.map fun v ↦ v.len.toNat := by
    simp [Function.comp_def]
  have unwritten : OutVecsFit (outVec.map fun v ↦ v.len.toNat)
      (outVec.map fun v ↦ ⟨v.len.toNat, .unwritten⟩) := by
    constructor
    case length => simp
    case fits =>
      intro i out there
      rw [List.getElem?_map, Option.map_eq_some_iff] at there
      obtain ⟨v, there, rfl⟩ := there
      constructor
      case len_le => simp [there]
      case bytes_le => exact Nat.zero_le _
  rw [← sizes] at unwritten
  apply within_of_fit
  rw [← sizes]
  exact tfmCryptoApiDispatcher_fit bounded cfg caller iov inputs unwritten service

variable (left) in
/-- The dispatcher leaves the buffer ready to be cleared. -/
theorem dispatch_pending (bounded : lib.Bounded) (pending : Pending b memory s) (iov : PackIovec)
    (inVec : List Vec) {outVec : List Vec} {start : ℕ}
    (placed : Consecutive b start outVec s.allocIndex.toNat) :
    Pending b memory (dispatch lib left b iov inVec outVec s).2.2 ∧
      Copied (dispatch lib left b iov inVec outVec s).2.1 outVec := by
  have within := dispatcher_within bounded b.cfg s.owner iov
    (inVec.map fun v ↦ s.memory.read v.base v.len.toNat) outVec s.service
  constructor
  · constructor
    case index_le => exact pending.index_le
    case index_dvd => exact pending.index_dvd
    case beyond =>
      intro a beyond
      exact (storeOutVec_beyond within placed beyond s.memory).trans (pending.beyond a beyond)
  · exact copied_of_within within

/-- A request uses the buffer as it should. -/
structure ScratchSafe (b : Build) (memory : ByteMemory) (o : Outcome)
    (s' : State Ctx L n) : Prop where
  /-- The allocations are aligned. -/
  aligned : ∀ v ∈ o.inVec ++ o.outVec, 4 ∣ v.base.toNat
  /-- The allocations do not overlap. -/
  disjoint : (o.inVec ++ o.outVec).Pairwise fun v w ↦ v.base.toNat + v.len.toNat ≤ w.base.toNat
  /-- The allocations are inside the buffer. -/
  inside : ∀ v ∈ o.inVec ++ o.outVec, b.buf.toNat ≤ v.base.toNat ∧
    v.base.toNat + v.len.toNat ≤ b.buf.toNat + b.cfg.iovecBufferSize
  /-- The outputs are what is copied back. -/
  outputs : o.outputs = o.written.map fun w ↦ o.memory.read w.base w.len.toNat
  /-- What is copied back lies in an allocation for an output vector of the request. -/
  written : ∀ w ∈ o.written, ∃ v ∈ o.outVec, w.base = v.base ∧ w.len.toNat ≤ v.len.toNat
  /-- Afterwards nothing is allocated, and memory is as it was before the request. -/
  clean : Clean b memory s'
  /-- Afterwards the buffer holds zeros. -/
  cleared : Zeroed b s'.memory

omit [Zero Ctx] in
/-- A request that gets no space. -/
theorem scratchSafe_refused (zeroed : Zeroed b memory) (clean : Clean b memory s)
    (status : Status) : ScratchSafe b memory (.refused status s) s where
  aligned _ v_mem := by contradiction
  disjoint := .nil
  inside _ v_mem := by contradiction
  outputs := rfl
  written _ w_mem := by contradiction
  clean := clean
  cleared := clean.memory ▸ zeroed

omit [Zero Ctx] in
/-- A request whose vectors have been allocated. -/
theorem Inited.scratchSafe {o : Outcome} {s' s'' : State Ctx L n} {status : Status}
    (inited : Inited b memory s status (o.inVec ++ o.outVec) s') (zeroed : Zeroed b memory)
    (clean : Clean b memory s'')
    (outputs : o.outputs = o.written.map fun w ↦ o.memory.read w.base w.len.toNat)
    (written : ∀ w ∈ o.written, ∃ v ∈ o.outVec, w.base = v.base ∧ w.len.toNat ≤ v.len.toNat) :
    ScratchSafe b memory o s'' := by
  obtain ⟨stop, placed, stop_le, -⟩ := inited.placed
  constructor
  case aligned => exact fun v v_mem ↦ (placed.mem v_mem).1
  case disjoint => exact placed.pairwise
  case inside =>
    intro v v_mem
    obtain ⟨-, ge, le⟩ := placed.mem v_mem
    omega
  case outputs => exact outputs
  case written => exact written
  case clean => exact clean
  case cleared => exact clean.memory ▸ zeroed

variable (left) in
theorem tfmCryptoCallSrv_safe (bounded : lib.Bounded) (zeroed : Zeroed b memory)
    (clean : Clean b memory s) (msg : Msg) :
    ∃ o s', tfmCryptoCallSrv lib left b msg s = some (o, s') ∧ ScratchSafe b memory o s' := by
  rw [tfmCryptoCallSrv]
  dsimp only
  split
  · exact ⟨_, _, rfl, scratchSafe_refused zeroed clean _⟩
  split
  · exact ⟨_, _, rfl, scratchSafe_refused zeroed clean _⟩
  next first inputs _ _ =>
  split
  · next inVec outVec s₁ made =>
      obtain ⟨inited, allocated⟩ := tfmCryptoInitIovecs_inited zeroed _ _ clean.pending made
      obtain ⟨lens, start, placed⟩ := allocated rfl
      have owned : Pending b memory { s₁ with owner := msg.clientId } :=
        ⟨(inited.pending rfl).index_le, (inited.pending rfl).index_dvd, (inited.pending rfl).beyond⟩
      have dispatched := dispatch_pending left bounded owned
        (packIovec (first.take sizeofPackIovec)) inVec placed
      generalize dispatch lib left b (packIovec (first.take sizeofPackIovec)) inVec outVec
        { s₁ with owner := msg.clientId } = result at dispatched ⊢
      obtain ⟨status, written, s₂⟩ := result
      obtain ⟨served, copied⟩ := dispatched
      have cleared := served.clean zeroed
      dsimp only
      split
      · next success =>
          have outputs := copied.writeOutputs s₂.memory
          rw [lens] at outputs
          rw [outputs]
          exact ⟨_, _, rfl, inited.scratchSafe zeroed cleared rfl fun w w_mem ↦ copied.mem w_mem⟩
      · exact ⟨_, _, rfl, inited.scratchSafe zeroed cleared rfl fun w w_mem ↦ by contradiction⟩
  · next status inVec outVec s₁ failed made =>
      obtain ⟨inited, -⟩ := tfmCryptoInitIovecs_inited zeroed _ _ clean.pending made
      exact ⟨_, _, rfl, inited.scratchSafe zeroed (inited.clean failed) rfl
        fun w w_mem ↦ by contradiction⟩

variable (left) in
theorem tfmCryptoSfn_safe (bounded : lib.Bounded) (zeroed : Zeroed b memory)
    (clean : Clean b memory s) (msg : Msg) :
    ∃ o s', tfmCryptoSfn lib left b msg s = some (o, s') ∧ ScratchSafe b memory o s' := by
  rw [tfmCryptoSfn]
  split
  · exact tfmCryptoCallSrv_safe left bounded zeroed clean msg
  · exact ⟨_, _, rfl, scratchSafe_refused zeroed clean _⟩

variable (left) in
/-- The buffer is clean after any requests. -/
theorem serveAll_clean (bounded : lib.Bounded) (zeroed : Zeroed b memory) (msgs : List Msg)
    (clean : Clean b memory s) :
    ∃ s', serveAll lib left b msgs s = some s' ∧ Clean b memory s' := by
  induction msgs generalizing s with
  | nil => exact ⟨s, rfl, clean⟩
  | cons msg msgs ih =>
      obtain ⟨o, s₁, served, safe⟩ := tfmCryptoSfn_safe left bounded zeroed clean msg
      rw [serveAll, served]
      exact ih safe.clean

/-- The state after boot, when the buffer has its initial value. -/
structure Booted (b : Build) (s : State Ctx L n) : Prop where
  /-- The buffer holds zeros. -/
  zeroed : Zeroed b s.memory
  /-- Nothing is allocated. -/
  allocIndex : s.allocIndex = 0
  /-- There is no owner. -/
  owner : s.owner = 0

/-- After any requests every request uses the buffer as it should, and its outcome is what it would
be after any other requests that leave the same state of the modules. -/
theorem scratchSafe_of_booted (bounded : lib.Bounded) {s₀ : State Ctx L n} (booted : Booted b s₀)
    (earlier : List Msg) (msg : Msg) :
    ∃ s o s', serveAll lib left b earlier s₀ = some s ∧
      tfmCryptoSfn lib left b msg s = some (o, s') ∧ ScratchSafe b s₀.memory o s' ∧
      ∀ earlier' t, serveAll lib left b earlier' s₀ = some t → t.service = s.service →
        tfmCryptoSfn lib left b msg t = some (o, s') := by
  have clean : Clean b s₀.memory s₀ := ⟨rfl, booted.allocIndex, booted.owner⟩
  obtain ⟨s, run, clean_s⟩ := serveAll_clean left bounded booted.zeroed earlier clean
  obtain ⟨o, s', served, safe⟩ := tfmCryptoSfn_safe left bounded booted.zeroed clean_s msg
  refine ⟨s, o, s', run, served, safe, ?_⟩
  intro earlier' t run' same
  obtain ⟨t', run'', clean_t⟩ := serveAll_clean left bounded booted.zeroed earlier' clean
  obtain rfl : t = t' := Option.some.inj (run'.symm.trans run'')
  have eq : t = s := State.ext (clean_t.memory.trans clean_s.memory.symm)
    (clean_t.allocIndex.trans clean_s.allocIndex.symm) (clean_t.owner.trans clean_s.owner.symm) same
  rw [eq]
  exact served

end

/-- A library that sets up hash operations. -/
def sampleLibrary : Library ℕ Unit where
  call
    | .hashSetup alg, _, l => (⟨.success, []⟩, alg, l)
    | _, ctx, l => (⟨.badState, []⟩, ctx, l)
  hashClone _ ctx l := (.badState, ctx, l)
  singlePart _ l := (⟨.notSupported, []⟩, l)
  key _ l := (.notSupported, 0, l)
  fill _ l := (.notSupported, fun _ ↦ 0, l)

theorem bounded_sampleLibrary : sampleLibrary.Bounded where
  call call ctx l success := by
    cases call with
    | hashSetup alg => exact .nil
    | _ => contradiction
  singlePart call l success := by contradiction

/-- A buffer for 5120 bytes. -/
def sampleBuild : Build where
  cfg := ⟨false, 5120, 36⟩
  buf := 0x30000000
  aligned := by decide
  fits := by decide

/-- The partition after boot. -/
def sampleState : State ℕ Unit 2 := ⟨fun _ ↦ 0, 0, 0, ⟨tfmCryptoInitAlloc, ()⟩⟩

/-- `psa_hash_setup` with `PSA_ALG_SHA_256`. -/
def sampleSetup (clientId : ℤ) : Msg where
  type := psaIpcCall
  clientId := clientId
  inVec := [List.replicate 4 0 ++ [0x09, 0, 0, 0x02] ++ List.replicate 32 0 ++ [0x02, 0x03] ++
    List.replicate 14 0]
  outSize := [4]
  inVec_length := by decide
  outSize_length := by decide
  inSize_lt := by simp

theorem scratchSafe_sampleSetup :
    ∃ s o s',
      serveAll sampleLibrary (fun _ _ _ ↦ 0) sampleBuild [sampleSetup 1] sampleState = some s ∧
      tfmCryptoSfn sampleLibrary (fun _ _ _ ↦ 0) sampleBuild (sampleSetup (-1)) s = some (o, s') ∧
      ScratchSafe sampleBuild sampleState.memory o s' ∧
      ∀ earlier' t,
        serveAll sampleLibrary (fun _ _ _ ↦ 0) sampleBuild earlier' sampleState = some t →
        t.service = s.service →
        tfmCryptoSfn sampleLibrary (fun _ _ _ ↦ 0) sampleBuild (sampleSetup (-1)) t =
          some (o, s') :=
  scratchSafe_of_booted bounded_sampleLibrary ⟨fun _ _ ↦ rfl, rfl, rfl⟩ [sampleSetup 1]
    (sampleSetup (-1))

end TrustedFirmwareM.Crypto.Scratch
