import TrustedFirmwareM.Spm.Step

/-!
# What a step can do

Each interface function is described once, by the connections and partitions that it changes.  The
invariants of the later modules are derived from these descriptions and never unfold the functions.
-/

namespace TrustedFirmwareM.Spm

open LinkedList

variable {Pt Svc : Type}

/-- A chunk is allocated. -/
def State.Allocated (s : State Pt Svc) (c : ℕ) : Prop := s.magic c = poolMagicAllocated

/-! ## Vector functions -/

/-- Two connections agree in the fields that tie them to their client, service and lists. -/
structure SameIdentity (k k' : Connection Pt Svc) : Prop where
  /-- Status of the handle. -/
  status : k'.status = k.status
  /-- Caller partition. -/
  pClient : k'.pClient = k.pClient
  /-- Service. -/
  service : k'.service = k.service
  /-- Message handle. -/
  handle : k'.msg.handle = k.msg.handle
  /-- Client identifier. -/
  clientId : k'.msg.clientId = k.msg.clientId
  /-- Private data of a mailbox client. -/
  clientData : k'.clientData = k.clientData
  /-- Link of the message list. -/
  pHandles : k'.pHandles = k.pHandles

/-- The vectors of a connection are not used beyond their lengths. -/
structure VectorBounds (k : Connection Pt Svc) : Prop where
  /-- Input vectors. -/
  accessed_le : ∀ i, k.invecAccessed i ≤ k.msg.inSize i
  /-- Output vectors. -/
  written_le : ∀ i, k.outvecWritten i ≤ k.msg.outSize i

/-- An access to the vectors or the reverse handle of the connection on a chunk; `rhandle` is the
reverse handle after it. -/
structure MessageMove (s : State Pt Svc) (c : ℕ) (rhandle : Word) (s' : State Pt Svc) : Prop where
  /-- Only the connection and the memory change. -/
  state : ∃ k memory, s' = { s.setConnection c k with memory := memory }
  /-- The connection keeps its identity. -/
  identity : SameIdentity (s.connections c) (s'.connections c)
  /-- The connection keeps its message type. -/
  type : (s'.connections c).msg.type = (s.connections c).msg.type
  /-- The connection keeps its input vector lengths. -/
  inSize : (s'.connections c).msg.inSize = (s.connections c).msg.inSize
  /-- The connection keeps its output vector lengths. -/
  outSize : (s'.connections c).msg.outSize = (s.connections c).msg.outSize
  /-- The reverse handle afterwards. -/
  rhandle_eq : (s'.connections c).msg.rhandle = rhandle
  /-- The connection keeps the address of the client's output vectors. -/
  callerOutvec : (s'.connections c).callerOutvec = (s.connections c).callerOutvec
  /-- The connection keeps its result. -/
  replyValue : (s'.connections c).replyValue = (s.connections c).replyValue
  /-- Vectors of a request that are used within their lengths stay so. -/
  bounds : VectorBounds (s.connections c) → VectorBounds (s'.connections c)

/-- A vector function changes the mapping status and the counters of a connection. -/
theorem MessageMove.of_counters {s : State Pt Svc} {c : ℕ} {status : Word}
    {accessed written : Fin 4 → Word} {memory : Word → BitVec 8}
    (accessed_le : (∀ i, (s.connections c).invecAccessed i ≤ (s.connections c).msg.inSize i) →
      ∀ i, accessed i ≤ (s.connections c).msg.inSize i)
    (written_le : (∀ i, (s.connections c).outvecWritten i ≤ (s.connections c).msg.outSize i) →
      ∀ i, written i ≤ (s.connections c).msg.outSize i) :
    MessageMove s c (s.connections c).msg.rhandle { s.setConnection c { s.connections c with
      iovecStatus := status, invecAccessed := accessed, outvecWritten := written } with
      memory := memory } := by
  have connection : ({ s.setConnection c { s.connections c with
      iovecStatus := status, invecAccessed := accessed, outvecWritten := written } with
      memory := memory } : State Pt Svc).connections c = { s.connections c with
      iovecStatus := status, invecAccessed := accessed, outvecWritten := written } :=
    Function.update_self ..
  refine ⟨⟨_, _, rfl⟩, ?_, ?_, ?_, ?_, ?_, ?_, ?_, ?_⟩
  · rw [connection]
    exact ⟨rfl, rfl, rfl, rfl, rfl, rfl, rfl⟩
  · rw [connection]
  · rw [connection]
  · rw [connection]
  · rw [connection]
  · rw [connection]
  · rw [connection]
  · rw [connection]
    exact fun bounds ↦ ⟨accessed_le bounds.accessed_le, written_le bounds.written_le⟩

/-- Advancing one counter by at most the remaining length keeps every counter within its length. -/
theorem update_add_le {sizes counters : Fin 4 → Word} {i : Fin 4} {bytes : Word}
    (bytes_le : bytes ≤ sizes i - counters i)
    (counters_le : ∀ i, counters i ≤ sizes i) (j : Fin 4) :
    Function.update counters i (counters i + bytes) j ≤ sizes j := by
  by_cases j_eq : j = i
  · subst j_eq
    have before := counters_le j
    rw [Function.update_self]
    bv_omega
  · rw [Function.update_of_ne j_eq]
    exact counters_le j

theorem read_bytes_le (numBytes remaining : Word) :
    (if numBytes < remaining then numBytes else remaining) ≤ remaining := by
  split <;> bv_omega

theorem skip_bytes_le (numBytes remaining : Word) :
    (if remaining < numBytes then remaining else numBytes) ≤ remaining := by
  split <;> bv_omega

theorem requestVector_eq_some {P : Platform Pt Svc} {s : State Pt Svc} {caller : Pt}
    {handle idx : Word} {c : ℕ} {i : Fin 4}
    (request : requestVector P s caller handle idx = some (c, i)) :
    spmMsgHandleToConnection P s caller handle = some c ∧
      psaIpcCall ≤ (s.connections c).msg.type := by
  simp only [requestVector, Option.bind_eq_bind, Option.bind_eq_some_iff] at request
  obtain ⟨d, connection, j, -, rest⟩ := request
  split at rest
  · cases rest
  · next type =>
      cases rest
      exact ⟨connection, not_lt.1 type⟩

theorem mappableVector_eq_some {P : Platform Pt Svc} {s : State Pt Svc} {caller : Pt}
    {handle idx : Word} {c : ℕ} {i : Fin 4} {info : ServiceLoadInfo Pt}
    (request : mappableVector P s caller handle idx = some (c, i, info)) :
    spmMsgHandleToConnection P s caller handle = some c ∧
      psaIpcCall ≤ (s.connections c).msg.type := by
  simp only [mappableVector, Option.bind_eq_bind, Option.bind_eq_some_iff, Prod.exists] at request
  obtain ⟨d, j, vector, σ, -, rest⟩ := request
  split at rest
  · cases rest
    exact requestVector_eq_some vector
  · cases rest

theorem psaRead_spec {P : Platform Pt Svc} {s : State Pt Svc} {caller : Pt}
    {handle idx buffer numBytes : Word} {outcome : Outcome Pt Svc}
    (run : tfmSpmPartitionPsaRead P s caller handle idx buffer numBytes = some outcome) :
    outcome.effect = .quiet ∧ ∃ c, spmMsgHandleToConnection P s caller handle = some c ∧
      MessageMove s c (s.connections c).msg.rhandle outcome.state := by
  simp only [tfmSpmPartitionPsaRead, Option.bind_eq_bind, Option.bind_eq_some_iff,
    Prod.exists] at run
  obtain ⟨c, i, request, run⟩ := run
  obtain ⟨connection, -⟩ := requestVector_eq_some request
  split at run
  · cases run
  · split at run
    · cases run
      exact ⟨rfl, c, connection, .of_counters id id⟩
    · split at run
      · cases run
      · cases run
        exact ⟨rfl, c, connection, .of_counters (update_add_le (read_bytes_le _ _)) id⟩

theorem psaSkip_spec {P : Platform Pt Svc} {s : State Pt Svc} {caller : Pt}
    {handle idx numBytes : Word} {outcome : Outcome Pt Svc}
    (run : tfmSpmPartitionPsaSkip P s caller handle idx numBytes = some outcome) :
    outcome.effect = .quiet ∧ ∃ c, spmMsgHandleToConnection P s caller handle = some c ∧
      MessageMove s c (s.connections c).msg.rhandle outcome.state := by
  simp only [tfmSpmPartitionPsaSkip, Option.bind_eq_bind, Option.bind_eq_some_iff,
    Prod.exists] at run
  obtain ⟨c, i, request, run⟩ := run
  obtain ⟨connection, -⟩ := requestVector_eq_some request
  split at run
  · cases run
  · split at run
    · cases run
      exact ⟨rfl, c, connection, .of_counters id id⟩
    · cases run
      exact ⟨rfl, c, connection, .of_counters (update_add_le (skip_bytes_le _ _)) id⟩

theorem psaWrite_spec {P : Platform Pt Svc} {s : State Pt Svc} {caller : Pt}
    {handle idx buffer numBytes : Word} {outcome : Outcome Pt Svc}
    (run : tfmSpmPartitionPsaWrite P s caller handle idx buffer numBytes = some outcome) :
    outcome.effect = .quiet ∧ ∃ c, spmMsgHandleToConnection P s caller handle = some c ∧
      MessageMove s c (s.connections c).msg.rhandle outcome.state := by
  simp only [tfmSpmPartitionPsaWrite, Option.bind_eq_bind, Option.bind_eq_some_iff,
    Prod.exists] at run
  obtain ⟨c, i, request, run⟩ := run
  obtain ⟨connection, -⟩ := requestVector_eq_some request
  split at run
  · cases run
  · next fits =>
      split at run
      · cases run
      · split at run
        · cases run
        · cases run
          exact ⟨rfl, c, connection, .of_counters id (update_add_le (BitVec.not_lt.1 fits))⟩

theorem psaMapInvec_spec {P : Platform Pt Svc} {s : State Pt Svc} {caller : Pt}
    {handle idx : Word} {outcome : Outcome Pt Svc}
    (run : tfmSpmPartitionPsaMapInvec P s caller handle idx = some outcome) :
    outcome.effect = .quiet ∧ ∃ c, spmMsgHandleToConnection P s caller handle = some c ∧
      MessageMove s c (s.connections c).msg.rhandle outcome.state := by
  simp only [tfmSpmPartitionPsaMapInvec, Option.bind_eq_bind, Option.bind_eq_some_iff,
    Prod.exists] at run
  obtain ⟨c, i, info, request, run⟩ := run
  obtain ⟨connection, -⟩ := mappableVector_eq_some request
  repeat' split at run
  all_goals cases run
  exact ⟨rfl, c, connection, .of_counters id id⟩

theorem psaUnmapInvec_spec {P : Platform Pt Svc} {s : State Pt Svc} {caller : Pt}
    {handle idx : Word} {outcome : Outcome Pt Svc}
    (run : tfmSpmPartitionPsaUnmapInvec P s caller handle idx = some outcome) :
    outcome.effect = .quiet ∧ ∃ c, spmMsgHandleToConnection P s caller handle = some c ∧
      MessageMove s c (s.connections c).msg.rhandle outcome.state := by
  simp only [tfmSpmPartitionPsaUnmapInvec, Option.bind_eq_bind, Option.bind_eq_some_iff,
    Prod.exists] at run
  obtain ⟨c, i, info, request, run⟩ := run
  obtain ⟨connection, -⟩ := mappableVector_eq_some request
  repeat' split at run
  all_goals cases run
  exact ⟨rfl, c, connection, .of_counters id id⟩

theorem psaMapOutvec_spec {P : Platform Pt Svc} {s : State Pt Svc} {caller : Pt}
    {handle idx : Word} {outcome : Outcome Pt Svc}
    (run : tfmSpmPartitionPsaMapOutvec P s caller handle idx = some outcome) :
    outcome.effect = .quiet ∧ ∃ c, spmMsgHandleToConnection P s caller handle = some c ∧
      MessageMove s c (s.connections c).msg.rhandle outcome.state := by
  simp only [tfmSpmPartitionPsaMapOutvec, Option.bind_eq_bind, Option.bind_eq_some_iff,
    Prod.exists] at run
  obtain ⟨c, i, info, request, run⟩ := run
  obtain ⟨connection, -⟩ := mappableVector_eq_some request
  repeat' split at run
  all_goals cases run
  exact ⟨rfl, c, connection, .of_counters id id⟩

theorem psaUnmapOutvec_spec {P : Platform Pt Svc} {s : State Pt Svc} {caller : Pt}
    {handle idx len : Word} {outcome : Outcome Pt Svc}
    (run : tfmSpmPartitionPsaUnmapOutvec P s caller handle idx len = some outcome) :
    outcome.effect = .quiet ∧ ∃ c, spmMsgHandleToConnection P s caller handle = some c ∧
      MessageMove s c (s.connections c).msg.rhandle outcome.state := by
  simp only [tfmSpmPartitionPsaUnmapOutvec, Option.bind_eq_bind, Option.bind_eq_some_iff,
    Prod.exists] at run
  obtain ⟨c, i, info, request, run⟩ := run
  obtain ⟨connection, -⟩ := mappableVector_eq_some request
  split at run
  · cases run
  · next len_le =>
      repeat' split at run
      all_goals cases run
      refine ⟨rfl, c, connection, .of_counters id fun written_le j ↦ ?_⟩
      by_cases j_eq : j = i
      · subst j_eq
        rw [Function.update_self]
        exact BitVec.not_lt.1 len_le
      · rw [Function.update_of_ne j_eq]
        exact written_le j

theorem psaSetRhandle_spec {P : Platform Pt Svc} {s : State Pt Svc} {caller : Pt}
    {handle rhandle : Word} {outcome : Outcome Pt Svc}
    (run : tfmSpmPartitionPsaSetRhandle P s caller handle rhandle = some outcome) :
    outcome.effect = .quiet ∧ ∃ c, spmMsgHandleToConnection P s caller handle = some c ∧
      MessageMove s c rhandle outcome.state := by
  simp only [tfmSpmPartitionPsaSetRhandle, Option.bind_eq_bind, Option.bind_eq_some_iff] at run
  obtain ⟨c, connection, σ, -, run⟩ := run
  split at run
  · cases run
  · cases run
    refine ⟨rfl, c, connection, ⟨⟨_, s.memory, rfl⟩, ?_, ?_, ?_, ?_, ?_, ?_, ?_, ?_⟩⟩ <;>
      simp only [setConnection_connections, Function.update_self]
    · exact ⟨rfl, rfl, rfl, rfl, rfl, rfl, rfl⟩
    · exact fun bounds ↦ ⟨bounds.accessed_le, bounds.written_le⟩

/-! ## Call parameters -/

theorem SameIdentity.refl (k : Connection Pt Svc) : SameIdentity k k :=
  ⟨rfl, rfl, rfl, rfl, rfl, rfl, rfl⟩

theorem SameIdentity.trans {k k' k'' : Connection Pt Svc} (first : SameIdentity k k')
    (second : SameIdentity k' k'') : SameIdentity k k'' :=
  ⟨second.status.trans first.status, second.pClient.trans first.pClient,
    second.service.trans first.service, second.handle.trans first.handle,
    second.clientId.trans first.clientId, second.clientData.trans first.clientData,
    second.pHandles.trans first.pHandles⟩

theorem mem_vecIndexes {count : ℕ} {i : Fin 4} : i ∈ vecIndexes count ↔ i.val < count := by
  rcases count with _ | _ | _ | _ | count <;> fin_cases i <;> simp [vecIndexes, List.finRange]

/-- Entering vectors leaves everything but the vector fields alone. -/
structure SameBesideVectors (k k' : Connection Pt Svc) : Prop where
  /-- The connection keeps its identity. -/
  identity : SameIdentity k k'
  /-- Message type. -/
  type : k'.msg.type = k.msg.type
  /-- Mapping status. -/
  iovecStatus : k'.iovecStatus = k.iovecStatus
  /-- Reverse handle. -/
  rhandle : k'.msg.rhandle = k.msg.rhandle

theorem associateInvecs_spec {check : Word → Word → Bool} {memory : Word → BitVec 8}
    {inptr : Word} {indexes : List (Fin 4)} {k k' : Connection Pt Svc} {status : ℤ}
    (run : associateInvecs check memory inptr indexes k = (status, k')) :
    SameBesideVectors k k' ∧ k'.msg.outSize = k.msg.outSize ∧
      k'.outvecWritten = k.outvecWritten ∧
      (status = psaSuccess →
        (∀ i, k'.msg.inSize i = if i ∈ indexes then vecLen memory inptr i else k.msg.inSize i) ∧
        ∀ i, k'.invecAccessed i = if i ∈ indexes then 0 else k.invecAccessed i) := by
  induction indexes generalizing k with
  | nil =>
      cases run
      exact ⟨⟨.refl _, rfl, rfl, rfl⟩, rfl, rfl, fun _ ↦ ⟨by simp, by simp⟩⟩
  | cons j rest ih =>
      rw [associateInvecs] at run
      split at run
      · obtain ⟨same, outSize, written, entered⟩ := ih run
        refine ⟨⟨?_, same.type, same.iovecStatus, same.rhandle⟩, outSize, written, fun success ↦ ?_⟩
        · exact ⟨same.identity.status, same.identity.pClient, same.identity.service,
            same.identity.handle, same.identity.clientId, same.identity.clientData,
            same.identity.pHandles⟩
        · obtain ⟨inSize, accessed⟩ := entered success
          constructor
          · intro i
            rw [inSize]
            by_cases i_eq : i = j
            · subst i_eq
              simp
            · simp [i_eq]
          · intro i
            rw [accessed]
            by_cases i_eq : i = j
            · subst i_eq
              simp
            · simp [i_eq]
      · cases run
        exact ⟨⟨.refl _, rfl, rfl, rfl⟩, rfl, rfl, fun success ↦ absurd success (by decide)⟩

theorem associateOutvecs_spec {check : Word → Word → Bool} {memory : Word → BitVec 8}
    {outptr : Word} {indexes : List (Fin 4)} {k k' : Connection Pt Svc} {status : ℤ}
    (run : associateOutvecs check memory outptr indexes k = (status, k')) :
    SameBesideVectors k k' ∧ k'.msg.inSize = k.msg.inSize ∧
      k'.invecAccessed = k.invecAccessed ∧
      (status = psaSuccess →
        (∀ i, k'.msg.outSize i = if i ∈ indexes then vecLen memory outptr i else k.msg.outSize i) ∧
        ∀ i, k'.outvecWritten i = if i ∈ indexes then 0 else k.outvecWritten i) := by
  induction indexes generalizing k with
  | nil =>
      cases run
      exact ⟨⟨.refl _, rfl, rfl, rfl⟩, rfl, rfl, fun _ ↦ ⟨by simp, by simp⟩⟩
  | cons j rest ih =>
      rw [associateOutvecs] at run
      split at run
      · obtain ⟨same, inSize, accessed, entered⟩ := ih run
        refine ⟨⟨?_, same.type, same.iovecStatus, same.rhandle⟩, inSize, accessed, fun success ↦ ?_⟩
        · exact ⟨same.identity.status, same.identity.pClient, same.identity.service,
            same.identity.handle, same.identity.clientId, same.identity.clientData,
            same.identity.pHandles⟩
        · obtain ⟨outSize, written⟩ := entered success
          constructor
          · intro i
            rw [outSize]
            by_cases i_eq : i = j
            · subst i_eq
              simp
            · simp [i_eq]
          · intro i
            rw [written]
            by_cases i_eq : i = j
            · subst i_eq
              simp
            · simp [i_eq]
      · cases run
        exact ⟨⟨.refl _, rfl, rfl, rfl⟩, rfl, rfl, fun success ↦ absurd success (by decide)⟩

/-- What a successful association enters: the type, and for a control word with vectors their
lengths and fresh counters, below the counts. -/
structure Associated (memory : Word → BitVec 8) (ctrl inptr outptr : Word)
    (k k' : Connection Pt Svc) : Prop where
  /-- The request type is not negative. -/
  type_nonneg : psaIpcCall ≤ k'.msg.type
  /-- There is no vector without the vector part of the control word. -/
  counts : paramHasIovec ctrl = false → paramUnpackInLen ctrl = 0 ∧ paramUnpackOutLen ctrl = 0
  /-- Lengths of the input vectors. -/
  inSize : ∀ i, k'.msg.inSize i = if paramHasIovec ctrl then
    callerLen memory inptr (paramUnpackInLen ctrl) i else k.msg.inSize i
  /-- Lengths of the output vectors. -/
  outSize : ∀ i, k'.msg.outSize i = if paramHasIovec ctrl then
    callerLen memory outptr (paramUnpackOutLen ctrl) i else k.msg.outSize i
  /-- Counters of the input vectors. -/
  accessed : ∀ i, k'.invecAccessed i =
    if i.val < paramUnpackInLen ctrl then 0 else k.invecAccessed i
  /-- Counters of the output vectors. -/
  written : ∀ i, k'.outvecWritten i =
    if i.val < paramUnpackOutLen ctrl then 0 else k.outvecWritten i
  /-- Mapping status. -/
  iovecStatus : k'.iovecStatus = k.iovecStatus
  /-- Address of the output vectors. -/
  callerOutvec : paramHasIovec ctrl = true → k'.callerOutvec = outptr

/-- A control word without vectors has no vector counts. -/
theorem counts_of_not_hasIovec {ctrl : Word} (type_nonneg : 0 ≤ paramUnpackType ctrl)
    (no_iovec : paramHasIovec ctrl = false) :
    paramUnpackInLen ctrl = 0 ∧ paramUnpackOutLen ctrl = 0 := by
  have word : ctrl = BitVec.ofInt 32 (paramUnpackType ctrl) := by
    simpa [paramHasIovec] using no_iovec
  have type_lt : paramUnpackType ctrl < 2 ^ 15 := by
    have := BitVec.toInt_lt (x := ctrl.extractLsb' 0 16)
    simpa [paramUnpackType] using this
  have value : ctrl.toNat < 2 ^ 16 := by
    have := congrArg BitVec.toNat word
    rw [BitVec.toNat_ofInt] at this
    omega
  simp only [paramUnpackInLen, paramUnpackOutLen, BitVec.extractLsb'_toNat,
    Nat.shiftRight_eq_div_pow]
  omega

theorem spmAssociateCallParams_spec {P : Platform Pt Svc} {memory : Word → BitVec 8} {caller : Pt}
    {k k' : Connection Pt Svc} {ctrl inptr outptr : Word} {status : ℤ}
    (run : spmAssociateCallParams P memory caller k ctrl inptr outptr = (status, k')) :
    SameIdentity k k' ∧ k'.msg.rhandle = k.msg.rhandle ∧
      (status = psaSuccess → Associated memory ctrl inptr outptr k k') := by
  have failed : ∀ {Q : Prop}, psaErrorProgrammerError = psaSuccess → Q :=
    fun impossible ↦ absurd impossible (by decide)
  have same : ∀ type : ℤ, SameIdentity k { k with msg := { k.msg with type := type } } :=
    fun _ ↦ ⟨rfl, rfl, rfl, rfl, rfl, rfl, rfl⟩
  dsimp only [spmAssociateCallParams] at run
  split at run
  · cases run
    exact ⟨.refl _, rfl, failed⟩
  next type_nonneg =>
  rw [not_lt] at type_nonneg
  split at run
  · next no_iovec =>
      cases run
      rw [Bool.not_eq_true] at no_iovec
      obtain ⟨inNum, outNum⟩ := counts_of_not_hasIovec type_nonneg no_iovec
      refine ⟨same _, rfl,
        fun _ ↦ ⟨type_nonneg, fun _ ↦ ⟨inNum, outNum⟩, ?_, ?_, ?_, ?_, rfl, ?_⟩⟩ <;>
        simp [no_iovec, inNum, outNum]
  next has_iovec =>
  rw [Bool.not_eq_true, Bool.not_eq_false] at has_iovec
  split at run
  · cases run
    exact ⟨same _, rfl, failed⟩
  split at run
  · cases run
    exact ⟨same _, rfl, failed⟩
  split at run
  · cases run
    exact ⟨same _, rfl, failed⟩
  split at run
  · cases run
    exact ⟨same _, rfl, failed⟩
  -- the vector loops start from cleared lengths
  generalize invecs : associateInvecs _ memory inptr (vecIndexes (paramUnpackInLen ctrl)) _ =
    entered at run
  obtain ⟨inStatus, kIn⟩ := entered
  dsimp only at run
  obtain ⟨sameIn, outSizeIn, writtenIn, enteredIn⟩ := associateInvecs_spec invecs
  have sameIn' : SameIdentity k kIn := by
    refine SameIdentity.trans ?_ sameIn.identity
    exact ⟨rfl, rfl, rfl, rfl, rfl, rfl, rfl⟩
  split at run
  · next inFailed =>
      cases run
      exact ⟨sameIn', sameIn.rhandle, fun success ↦ absurd success inFailed⟩
  next inSuccess =>
  rw [not_not] at inSuccess
  generalize outvecs : associateOutvecs _ memory outptr (vecIndexes (paramUnpackOutLen ctrl)) _ =
    entered at run
  obtain ⟨outStatus, kOut⟩ := entered
  dsimp only at run
  obtain ⟨sameOut, inSizeOut, accessedOut, enteredOut⟩ := associateOutvecs_spec outvecs
  split at run
  · next outFailed =>
      cases run
      exact ⟨sameIn'.trans sameOut.identity, sameOut.rhandle.trans sameIn.rhandle,
        fun success ↦ absurd success outFailed⟩
  next outSuccess =>
  rw [not_not] at outSuccess
  cases run
  obtain ⟨inSize, accessed⟩ := enteredIn inSuccess
  obtain ⟨outSize, written⟩ := enteredOut outSuccess
  refine ⟨?_, sameOut.rhandle.trans sameIn.rhandle,
    fun _ ↦ ⟨?_, by simp [has_iovec], ?_, ?_, ?_, ?_, ?_, fun _ ↦ rfl⟩⟩
  · exact (sameIn'.trans sameOut.identity).trans ⟨rfl, rfl, rfl, rfl, rfl, rfl, rfl⟩
  · rw [sameOut.type, sameIn.type]
    exact type_nonneg
  · intro i
    rw [inSizeOut, inSize, has_iovec]
    simp [mem_vecIndexes, callerLen]
  · intro i
    rw [outSize, outSizeIn, has_iovec]
    simp [mem_vecIndexes, callerLen]
  · intro i
    rw [accessedOut, accessed]
    simp [mem_vecIndexes]
  · intro i
    rw [written, writtenIn]
    simp [mem_vecIndexes]
  · rw [sameOut.iovecStatus, sameIn.iovecStatus]

end TrustedFirmwareM.Spm
