import TrustedFirmwareM.Mailbox.Spe
import TrustedFirmwareM.Spm.AgentCalls
import TrustedFirmwareM.Spm.Memory

/-!
# What the mailbox does with a message

Dispatching the message of a slot touches the record and the vectors of that slot only.  Either the
manager queues one new request for the agent, or the message is answered at once; the null handle,
closed with success and without a request, falls between the two.
-/

namespace TrustedFirmwareM.Mailbox

open Spm

variable {Pt Svc : Type}

/-! ## Status words -/

theorem getLsbD_slotBit (k j : ℕ) : (slotBit k).getLsbD j = decide (j = k ∧ j < 32) := by
  simp only [slotBit, BitVec.getLsbD_shiftLeft]
  by_cases j_eq : j = k
  · subst j_eq
    simp
  · have apart : ¬(j - k = 0 ∧ k ≤ j) := by omega
    simp only [j_eq, false_and, decide_false]
    by_cases j_lt : j < k
    · simp [j_lt]
    · simp [show j - k ≠ 0 by omega]

theorem and_slotBit_eq_zero {mask : Word} {k : ℕ} (k_lt : k < 32) :
    mask &&& slotBit k = 0 ↔ mask.getLsbD k = false := by
  constructor
  · intro zero
    have bit := congrArg (fun word : Word ↦ word.getLsbD k) zero
    simp only [BitVec.getLsbD_and, getLsbD_slotBit, k_lt] at bit
    simpa using bit
  · intro clear
    apply BitVec.eq_of_getLsbD_eq
    intro j j_lt
    rw [BitVec.getLsbD_and, getLsbD_slotBit]
    by_cases j_eq : j = k
    · subst j_eq
      simp [clear]
    · simp [j_eq]

theorem getLsbD_or_slotBit {mask : Word} {k j : ℕ} (k_lt : k < 32) :
    (mask ||| slotBit k).getLsbD j = (mask.getLsbD j || decide (j = k)) := by
  rw [BitVec.getLsbD_or, getLsbD_slotBit]
  by_cases j_eq : j = k
  · simp [j_eq, k_lt]
  · simp [j_eq]

theorem getLsbD_and_not_slotBit {mask : Word} {k j : ℕ} :
    (mask &&& ~~~slotBit k).getLsbD j = (mask.getLsbD j && !decide (j = k)) := by
  rw [BitVec.getLsbD_and, BitVec.getLsbD_not, getLsbD_slotBit]
  by_cases j_lt : j < 32
  · by_cases j_eq : j = k <;> simp [j_eq, j_lt]
  · simp [BitVec.getLsbD_of_ge mask j (by omega)]

/-! ## Vectors -/

/-- A vector of a request, cleared from the count on. -/
def vecEntry (vec : Fin 4 → Word × Word) (count : ℕ) (i : Fin 4) : Word × Word :=
  if i.val < count then vec i else (0, 0)

theorem vectorWords_eq (vec : Fin 4 → Word × Word) (count : ℕ) :
    vectorWords vec count = [(vecEntry vec count 0).1, (vecEntry vec count 0).2,
      (vecEntry vec count 1).1, (vecEntry vec count 1).2, (vecEntry vec count 2).1,
      (vecEntry vec count 2).2, (vecEntry vec count 3).1, (vecEntry vec count 3).2] := by
  have entry (i : Fin 4) : (if i.val < count then [(vec i).1, (vec i).2] else [0, 0]) =
      [(vecEntry vec count i).1, (vecEntry vec count i).2] := by
    rw [vecEntry]
    split <;> rfl
  have indexes : List.finRange 4 = [0, 1, 2, 3] := rfl
  rw [vectorWords, indexes]
  simp only [entry, List.flatMap_cons, List.flatMap_nil, List.append_nil,
    List.cons_append, List.nil_append]

theorem length_vectorWords (vec : Fin 4 → Word × Word) (count : ℕ) :
    (vectorWords vec count).length = 8 := by
  rw [vectorWords_eq]
  rfl

theorem getElem_vectorWords (vec : Fin 4 → Word × Word) (count : ℕ) (i : Fin 4) :
    (vectorWords vec count)[2 * i.val + 1]? = some (vecEntry vec count i).2 := by
  rw [vectorWords_eq]
  fin_cases i <;> rfl

theorem paramUnpackOutLen_packControl {params : CallParams} (outLen_le : params.outLen.toNat ≤ 4) :
    paramUnpackOutLen (packControl params) = params.outLen.toNat := by
  have bits : (packControl params).extractLsb' 16 3 = params.outLen.setWidth 3 := by
    apply BitVec.eq_of_getLsbD_eq
    intro i i_lt
    rw [BitVec.getLsbD_extractLsb', packControl]
    have : i = 0 ∨ i = 1 ∨ i = 2 := by omega
    rcases this with rfl | rfl | rfl <;> simp
  rw [paramUnpackOutLen, bits, BitVec.toNat_setWidth]
  omega

theorem paramHasIovec_packControl (params : CallParams) :
    paramHasIovec (packControl params) = true := by
  have set : (packControl params).getLsbD 27 = true := by simp [packControl]
  have clear : (packControl params).getLsbD 31 = false := by simp [packControl]
  simp only [paramHasIovec, ne_eq, decide_not, Bool.not_eq_true', decide_eq_false_iff_not]
  intro same
  rw [paramUnpackType, ← BitVec.signExtend] at same
  rw [same, BitVec.getLsbD_signExtend] at set clear
  simp at set clear
  rw [set] at clear
  cases clear

/-- The vectors of a request are copied to the slot. -/
def CallParams.Copied (params : CallParams) : Prop :=
  params.inLen.toNat + params.outLen.toNat ≤ psaMaxIovec

/-- The output vector lengths of a request. -/
def CallParams.outVecLen (params : CallParams) (i : Fin 4) : Word :=
  (vecEntry params.outVec params.outLen.toNat i).2

/-- The words that `local_copy_vects` stores. -/
def CallParams.words (params : CallParams) : List Word :=
  vectorWords params.inVec params.inLen.toNat ++ vectorWords params.outVec params.outLen.toNat

theorem CallParams.length_words (params : CallParams) : params.words.length = 16 := by
  simp [words, length_vectorWords]

/-- The stored output vectors have the lengths of the request. -/
theorem vecLen_storeWords (memory : Word → BitVec 8) (address : Word) (params : CallParams)
    (i : Fin 4) :
    vecLen (storeWords memory address params.words) (address + 32) i = params.outVecLen i := by
  have at_i : params.words[8 + (2 * i.val + 1)]? = some (params.outVecLen i) := by
    rw [CallParams.words, List.getElem?_append_right (by rw [length_vectorWords]; omega),
      length_vectorWords, Nat.add_sub_cancel_left]
    exact getElem_vectorWords ..
  have load : loadWord (storeWords memory address params.words)
      (address + BitVec.ofNat 32 (4 * (8 + (2 * i.val + 1)))) = params.outVecLen i :=
    loadWord_storeWords (by rw [params.length_words]; omega) at_i
  have offset : address + 32 + BitVec.ofNat 32 (8 * i.val + 4) =
      address + BitVec.ofNat 32 (4 * (8 + (2 * i.val + 1))) := by
    rw [show 4 * (8 + (2 * i.val + 1)) = 32 + (8 * i.val + 4) by omega]
    exact add_add_ofNat address 32 (8 * i.val + 4)
  rw [vecLen, offset]
  exact load

/-- Output vectors whose bytes stay keep their lengths. -/
theorem vecLen_congr {cfg : Config Pt Svc} {memory memory' : Word → BitVec 8} {k : ℕ}
    (same : ∀ n, n < 64 → memory' (cfg.vectorsAddress k + BitVec.ofNat 32 n) =
      memory (cfg.vectorsAddress k + BitVec.ofNat 32 n)) (i : Fin 4) :
    vecLen memory' (cfg.outVecAddress k) i = vecLen memory (cfg.outVecAddress k) i := by
  refine loadWord_congr fun n n_lt ↦ ?_
  have offset : cfg.outVecAddress k + BitVec.ofNat 32 (8 * i.val + 4) + BitVec.ofNat 32 n =
      cfg.vectorsAddress k + BitVec.ofNat 32 (32 + (8 * i.val + 4) + n) := by
    have start : cfg.outVecAddress k = cfg.vectorsAddress k + BitVec.ofNat 32 32 := rfl
    rw [start, add_add_ofNat, add_add_ofNat, Nat.add_assoc 32 (8 * i.val + 4) n]
  rw [offset]
  exact same _ (by omega)

/-- The memory after `local_copy_vects`. -/
def copiedMemory (cfg : Config Pt Svc) (memory : Word → BitVec 8) (params : CallParams) (idx : ℕ) :
    Word → BitVec 8 :=
  storeWords memory (cfg.vectorsAddress idx) params.words

/-- The memory when the request is handed to the manager. -/
def callMemory (cfg : Config Pt Svc) (memory : Word → BitVec 8) (params : CallParams) (idx : ℕ)
    (clientId : ℤ) : Word → BitVec 8 :=
  storeWords (copiedMemory cfg memory params idx) cfg.paramsAddress
    [BitVec.ofInt 32 clientId, cfg.vectorsAddress idx, cfg.outVecAddress idx]

theorem copiedMemory_other {cfg : Config Pt Svc} {memory : Word → BitVec 8} {params : CallParams}
    {idx k n : ℕ} (idx_lt : idx < cfg.numSlots) (k_lt : k < cfg.numSlots) (k_ne : k ≠ idx)
    (n_lt : n < 64) :
    copiedMemory cfg memory params idx (cfg.vectorsAddress k + BitVec.ofNat 32 n) =
      memory (cfg.vectorsAddress k + BitVec.ofNat 32 n) := by
  refine storeWords_of_apart fun m m_lt ↦ ?_
  rw [params.length_words] at m_lt
  exact cfg.vectors_apart k idx k_lt idx_lt k_ne n m n_lt (by omega)

theorem callMemory_vectors {cfg : Config Pt Svc} {memory : Word → BitVec 8} {params : CallParams}
    {idx k n : ℕ} {clientId : ℤ} (k_lt : k < cfg.numSlots) (n_lt : n < 64) :
    callMemory cfg memory params idx clientId (cfg.vectorsAddress k + BitVec.ofNat 32 n) =
      copiedMemory cfg memory params idx (cfg.vectorsAddress k + BitVec.ofNat 32 n) := by
  refine storeWords_of_apart fun m m_lt ↦ ?_
  exact cfg.params_apart k k_lt n m n_lt (by simpa using m_lt)

/-- The parameters as the manager reads them. -/
theorem loadWord_callMemory (cfg : Config Pt Svc) (memory : Word → BitVec 8) (params : CallParams)
    (idx : ℕ) (clientId : ℤ) :
    loadWord (callMemory cfg memory params idx clientId) cfg.paramsAddress =
        BitVec.ofInt 32 clientId ∧
      loadWord (callMemory cfg memory params idx clientId) (cfg.paramsAddress + 8) =
        cfg.outVecAddress idx := by
  have load (k : ℕ) (value : Word)
      (at_k : [BitVec.ofInt 32 clientId, cfg.vectorsAddress idx, cfg.outVecAddress idx][k]? =
        some value) :
      loadWord (callMemory cfg memory params idx clientId)
        (cfg.paramsAddress + BitVec.ofNat 32 (4 * k)) = value :=
    loadWord_storeWords (by simp) at_k
  refine ⟨?_, load 2 _ rfl⟩
  simpa [callMemory] using load 0 _ rfl

/-! ## The manager -/

/-- A slot record is not in use. -/
def Spe.Empty (s : Spe Pt Svc) (k : ℕ) : Prop := s.emptySlots.getLsbD k = true

instance (s : Spe Pt Svc) (k : ℕ) : Decidable (s.Empty k) := inferInstanceAs (Decidable (_ = _))

/-- The manager is in a state that disciplined runs reach. -/
def Managed (cfg : Config Pt Svc) (s : State Pt Svc) : Prop := ∃ L, LifeInv cfg.platform s L

theorem Managed.pool {cfg : Config Pt Svc} {s : State Pt Svc} (managed : Managed cfg s) :
    PoolInv cfg.platform s := by
  obtain ⟨L, life⟩ := managed
  exact life.pool

theorem Managed.quiet {cfg : Config Pt Svc} {s s' : State Pt Svc} (managed : Managed cfg s)
    (quiet : Quiet cfg.platform s s') : Managed cfg s' := by
  obtain ⟨L, life⟩ := managed
  exact ⟨L, life.quiet quiet⟩

theorem quiet_of_memory {P : Platform Pt Svc} {s : State Pt Svc} (pool : PoolInv P s)
    (memory : Word → BitVec 8) : Quiet P s { s with memory := memory } :=
  ⟨pool.congr rfl rfl rfl, fun _ ↦ .rfl, rfl, fun _ _ ↦ .refl _, fun _ _ _ ↦ rfl, fun _ _ ↦ rfl⟩

/-- A translated identifier is one of the registered range. -/
theorem translate_range {cfg : Config Pt Svc} {clientIdIn clientId : ℤ}
    (run : tfmMultiCoreHalClientIdTranslate cfg clientIdIn = some clientId) :
    cfg.clientIdRegion.1 ≤ clientId ∧ clientId ≤ cfg.clientIdRegion.2 := by
  rw [tfmMultiCoreHalClientIdTranslate, tzNsAgentClientIdTranslate] at run
  split at run
  · cases run
  split at run
  · cases run
  · cases run
    omega

theorem translate_owns {cfg : Config Pt Svc} {clientIdIn clientId : ℤ}
    (run : tfmMultiCoreHalClientIdTranslate cfg clientIdIn = some clientId) :
    (cfg.platform.partition cfg.agent).Owns clientId := by
  have range := translate_range run
  have base := cfg.region_base
  have limit := cfg.region_limit
  have negative := cfg.region_neg
  simp only [PartitionLoadInfo.Owns, PartitionLoadInfo.nsAgent, cfg.agent_mailbox, Bool.or_true,
    if_true]
  omega

theorem toInt_translate {cfg : Config Pt Svc} {clientIdIn clientId : ℤ}
    (run : tfmMultiCoreHalClientIdTranslate cfg clientIdIn = some clientId) :
    (BitVec.ofInt 32 clientId).toInt = clientId := by
  have range := translate_range run
  have word := cfg.region_word
  have negative := cfg.region_neg
  rw [BitVec.toInt_ofInt]
  exact Int.bmod_eq_of_le (by omega) (by omega)

variable [DecidableEq Pt]

theorem agentApi_ok {cfg : Config Pt Svc} {s : Spe Pt Svc} {call : Api}
    {outcome : Outcome Pt Svc} (run : agentApi cfg s call = .ok outcome) :
    call.run cfg.platform s.spm cfg.agent = some outcome ∧
      Spm.step cfg.platform s.spm (.api cfg.agent call) =
        some (outcome.effect, outcome.state) := by
  rw [agentApi] at run
  split at run
  · cases run
  · next running =>
      generalize result : call.run cfg.platform s.spm cfg.agent = option at run
      cases option with
      | none => cases run
      | some found =>
          cases run
          refine ⟨rfl, ?_⟩
          have agent : (cfg.platform.partition cfg.agent).nsAgent = true := by
            simp [PartitionLoadInfo.nsAgent, cfg.agent_mailbox]
          rw [Spm.step, if_neg running, result]
          simp [backendAbiLeavingSpm, agent]

/-- A disciplined call of the agent is a move. -/
def Moved (cfg : Config Pt Svc) (s : State Pt Svc) (call : Api) (outcome : Outcome Pt Svc) : Prop :=
  ∃ L L', LifeInv cfg.platform s L ∧
    Move cfg.platform s L outcome.state (.api cfg.agent call) outcome.effect L'

theorem Managed.api {cfg : Config Pt Svc} {s : Spe Pt Svc} {call : Api} {outcome : Outcome Pt Svc}
    (managed : Managed cfg s.spm) (run : agentApi cfg s call = .ok outcome)
    (disciplined : call.Disciplined cfg.platform s.spm cfg.agent) :
    Moved cfg s.spm call outcome := by
  obtain ⟨L, life⟩ := managed
  have step_eq := (agentApi_ok run).2
  exact ⟨L, _, life, move_of_step life (a := .api cfg.agent call) disciplined step_eq⟩

/-- A move keeps the manager in order. -/
theorem Moved.managed {cfg : Config Pt Svc} {s : State Pt Svc} {call : Api}
    {outcome : Outcome Pt Svc} (moved : Moved cfg s call outcome) : Managed cfg outcome.state := by
  obtain ⟨L, L', life, move⟩ := moved
  exact ⟨L', life.move move⟩

/-! ## Requests -/

theorem psaErrorProgrammerError_ne : psaErrorProgrammerError ≠ psaSuccess := by decide

/-- What a call of the agent interface does to the agent's requests.  `entered` says what private
data the connection of a new request has, given the data before. -/
structure Requested (cfg : Config Pt Svc) (s : State Pt Svc) (outcome : Outcome Pt Svc)
    (clientId : ℤ) (data : Option Word) : Prop where
  /-- The manager stays in order. -/
  managed : Managed cfg outcome.state
  /-- The memory does not change. -/
  memory : outcome.state.memory = s.memory
  /-- No other reply waits. -/
  waits : ∀ c, outcome.state.ReplyWaits cfg.platform cfg.agent c →
    s.ReplyWaits cfg.platform cfg.agent c
  /-- Nothing was queued and the status is an error, or the new request was. -/
  cases : outcome.effect = .quiet ∧ outcome.result ≠ psaSuccess ∧
    Quiet cfg.platform s outcome.state ∨
    ∃ c σ, outcome.effect = .sent c ∧ outcome.result = psaSuccess ∧
      SendMove cfg.platform cfg.agent clientId data s outcome.state c σ

/-- A queued request of the agent is one that is replied to later. -/
theorem Requested.of_send {cfg : Config Pt Svc} {s : State Pt Svc} {outcome : Outcome Pt Svc}
    {call : Api} {clientId : ℤ} {data : Option Word} {c : ℕ} {σ : Svc}
    (moved : Moved cfg s call outcome) (owns : (cfg.platform.partition cfg.agent).Owns clientId)
    (status : Status s outcome) (effect : outcome.effect = .sent c)
    (move : SendMove cfg.platform cfg.agent clientId data s outcome.state c σ) :
    Requested cfg s outcome clientId data := by
  have managed' := moved.managed
  obtain ⟨L, L', life, step⟩ := moved
  obtain ⟨-, -, others⟩ := move.underWay life owns
  rw [effect] at step
  refine ⟨managed', status.memory, fun d waits ↦ ?_, .inr ⟨c, σ, effect, ?_, move⟩⟩
  · by_cases d_eq : d = c
    · subst d_eq
      exact absurd waits (step.not_replyWaits_of_sent life cfg.agent_mailbox)
    · rcases step.replyWaits life cfg.agent_mailbox (others d d_eq _) waits with
        before | ⟨_, impossible⟩
      · exact before
      · cases impossible
  · refine status.queued c effect (by simp [move.service]) ?_
    exact (life.move step).isRpcMsg_of_agent cfg.agent_mailbox move.allocated
      (move.pClient_eq life owns)

/-- A refused call queues nothing. -/
theorem Requested.of_quiet {cfg : Config Pt Svc} {s : State Pt Svc} {outcome : Outcome Pt Svc}
    {call : Api} {clientId : ℤ} {data : Option Word} (moved : Moved cfg s call outcome)
    (memory : outcome.state.memory = s.memory) (effect : outcome.effect = .quiet)
    (failed : outcome.result ≠ psaSuccess) (quiet : Quiet cfg.platform s outcome.state) :
    Requested cfg s outcome clientId data := by
  have managed' := moved.managed
  obtain ⟨L, L', life, step⟩ := moved
  refine ⟨managed', memory, fun d waits ↦ ?_, .inl ⟨effect, failed, quiet⟩⟩
  rcases step.replyWaits life cfg.agent_mailbox (quiet.agentFrame ..) waits with
    before | ⟨_, impossible⟩
  · exact before
  · rw [effect] at impossible
    cases impossible

theorem agentCall_requested {cfg : Config Pt Svc} {s : Spe Pt Svc} {clientId : ℤ}
    {handle control params data : Word} {outcome : Outcome Pt Svc} (managed : Managed cfg s.spm)
    (owns : (cfg.platform.partition cfg.agent).Owns clientId)
    (params_id : paramsClientId s.spm.memory params = clientId) (data_ne : data ≠ 0)
    (run : agentApi cfg s (.agentCall handle control params data) = .ok outcome) :
    Requested cfg s.spm outcome clientId (some data) := by
  have moved := managed.api run ⟨cfg.agent_mailbox, by rw [params_id]; exact owns, data_ne⟩
  obtain ⟨api, -⟩ := agentApi_ok run
  simp only [Api.run, tfmSpmAgentPsaCall, params_id] at api
  split at api
  · cases api
    exact .of_quiet moved rfl rfl psaErrorProgrammerError_ne (.refl managed.pool)
  · have status := call_status managed.pool api
    rcases call_cases managed.pool api with ⟨effect, quiet⟩ | ⟨c, σ, effect, move⟩
    · exact .of_quiet moved status.memory effect (status.failed effect) quiet
    · exact .of_send moved owns status effect move.send

theorem agentConnect_requested {cfg : Config Pt Svc} {s : Spe Pt Svc} {clientId : ℤ}
    {sid version data : Word} {outcome : Outcome Pt Svc} (managed : Managed cfg s.spm)
    (owns : (cfg.platform.partition cfg.agent).Owns clientId) (data_ne : data ≠ 0)
    (run : agentApi cfg s (.agentConnect sid version clientId data) = .ok outcome) :
    Requested cfg s.spm outcome clientId (some data) := by
  have moved := managed.api run ⟨owns, data_ne⟩
  obtain ⟨api, -⟩ := agentApi_ok run
  simp only [Api.run, tfmSpmAgentPsaConnect] at api
  split at api
  · cases api
  · have status := connect_status api
    rcases connect_cases managed.pool api with ⟨effect, quiet⟩ | ⟨c, σ, effect, move, -⟩
    · exact .of_quiet moved status.memory effect (status.failed effect) quiet
    · exact .of_send moved owns status effect move

/-- Closing takes the connection that `spm_get_idle_connection` finds. -/
theorem close_sent {P : Platform Pt Svc} {s : State Pt Svc} {caller : Pt} {clientId : ℤ}
    {handle : Word} {outcome : Outcome Pt Svc} {c : ℕ}
    (run : spmPsaCloseClientIdAssociated P s caller handle clientId = some outcome)
    (effect : outcome.effect = .sent c) :
    isStaticHandle handle = false ∧
      ∃ s₀, spmGetIdleConnection P s caller handle clientId = .ok (c, s₀) := by
  rw [spmPsaCloseClientIdAssociated] at run
  split at run
  · cases run
    cases effect
  split at run
  · cases run
    cases effect
  next dynamic =>
  split at run
  · cases run
    cases effect
  next d s₀ ok =>
  simp only [sendRequest, Option.bind_eq_bind, Option.bind_eq_some_iff, Prod.exists] at run
  obtain ⟨ret, s', -, run⟩ := run
  cases run
  cases effect
  exact ⟨by simpa using dynamic, s₀, ok⟩

theorem agentClose_requested {cfg : Config Pt Svc} {s : Spe Pt Svc} {clientId : ℤ} {handle : Word}
    {outcome : Outcome Pt Svc} (managed : Managed cfg s.spm)
    (owns : (cfg.platform.partition cfg.agent).Owns clientId) (not_null : handle ≠ 0)
    (run : agentApi cfg s (.agentClose handle clientId) = .ok outcome) :
    Requested cfg s.spm outcome clientId none := by
  have moved := managed.api run owns
  obtain ⟨api, -⟩ := agentApi_ok run
  simp only [Api.run, tfmSpmAgentPsaClose] at api
  split at api
  · cases api
  · have status := close_status managed.pool not_null api
    rcases close_cases managed.pool api with ⟨effect, quiet⟩ | ⟨c, σ, effect, move, -⟩
    · exact .of_quiet moved status.memory effect (status.failed effect) quiet
    · exact .of_send moved owns status effect move

/-! ## Dispatch -/

/-- The private data of a new request leads to the slot, unless the message closes a connection:
then it is what the connection has from earlier. -/
def LeadsBack (cfg : Config Pt Svc) (s s' : State Pt Svc) (msg : MailboxMsg) (idx c : ℕ) : Prop :=
  (s'.connections c).clientData = cfg.msgHandleAddress idx ∨
    ∃ handle clientId s₀, msg.request = .close handle ∧
      tfmMultiCoreHalClientIdTranslate cfg msg.clientId = some clientId ∧
      isStaticHandle handle = false ∧
      spmGetIdleConnection cfg.platform s cfg.agent handle clientId = .ok (c, s₀) ∧
      (s'.connections c).clientData = (s.connections c).clientData

/-- The connection of a new request knows the vectors of a call. -/
def KnowsVectors (cfg : Config Pt Svc) (k : Connection Pt Svc) (idx : ℕ) : Request → Prop
  | .call params => psaIpcCall ≤ k.msg.type ∧ k.callerOutvec = cfg.outVecAddress idx ∧
      ∀ i, k.msg.outSize i = params.outVecLen i
  | _ => k.msg.type < psaIpcCall

/-- A new request of the agent, made for a message of a slot. -/
structure NewRequest (cfg : Config Pt Svc) (s s' : State Pt Svc) (msg : MailboxMsg) (idx c : ℕ) :
    Prop where
  /-- The chunk carried no request. -/
  before : ¬s.UnderWay cfg.agent c
  /-- The request is under way. -/
  after : s'.UnderWay cfg.agent c
  /-- No other request of the agent changes. -/
  others : ∀ d, d ≠ c → ∀ effect, AgentFrame s s' cfg.agent effect d
  /-- The private data leads back to the slot. -/
  leadsBack : LeadsBack cfg s s' msg idx c
  /-- The connection knows the vectors. -/
  vectors : KnowsVectors cfg (s'.connections c) idx msg.request

/-- The vectors of a slot hold the lengths of a call whose vectors are copied. -/
def HoldsVectors (cfg : Config Pt Svc) (s s' : Spe Pt Svc) (idx : ℕ) : Request → Prop
  | .call params => params.Copied →
      s'.inUse idx = true ∧ ∀ i, s'.outVecLen cfg idx i = params.outVecLen i
  | _ => s'.inUse idx = s.inUse idx

/-- What the dispatch of a message does. -/
structure Dispatches (cfg : Config Pt Svc) (s : Spe Pt Svc) (msg : MailboxMsg) (idx : ℕ)
    (d : Dispatched Pt Svc) : Prop where
  /-- The free slot records stay. -/
  emptySlots : d.state.emptySlots = s.emptySlots
  /-- The slot records stay. -/
  queue : d.state.queue = s.queue
  /-- The loop stays. -/
  loop : d.state.loop = s.loop
  /-- The shared memory stays. -/
  shared : d.state.shared = s.shared
  /-- The vectors of other slots stay in use, or not. -/
  inUse_other : ∀ k, k ≠ idx → d.state.inUse k = s.inUse k
  /-- The vectors of other slots stay. -/
  vectors_other : ∀ k, k < cfg.numSlots → k ≠ idx → ∀ n, n < 64 →
    d.state.spm.memory (cfg.vectorsAddress k + BitVec.ofNat 32 n) =
      s.spm.memory (cfg.vectorsAddress k + BitVec.ofNat 32 n)
  /-- The vectors of the slot. -/
  vectors : HoldsVectors cfg s d.state idx msg.request
  /-- The manager stays in order. -/
  managed : Managed cfg d.state.spm
  /-- No other reply waits. -/
  waits : ∀ c, d.state.spm.ReplyWaits cfg.platform cfg.agent c →
    s.spm.ReplyWaits cfg.platform cfg.agent c
  /-- Nothing was queued and the message is answered, or closes the null handle; or a request was
  queued. -/
  cases : d.sent = none ∧ (d.answer = none → msg.request = .close 0) ∧
      (∀ c effect, AgentFrame s.spm d.state.spm cfg.agent effect c) ∨
    ∃ c, d.sent = some c ∧ d.answer = none ∧ NewRequest cfg s.spm d.state.spm msg idx c

theorem dispatchCall_ok {cfg : Config Pt Svc} {s : Spe Pt Svc} {call : Api}
    {d : Dispatched Pt Svc} (run : dispatchCall cfg s call = .ok d) :
    ∃ outcome, agentApi cfg s call = .ok outcome ∧ d.state = { s with spm := outcome.state } ∧
      (outcome.effect = .quiet → d.sent = none) ∧
      (∀ c, outcome.effect = .sent c → d.sent = some c) ∧
      (d.answer = none ↔ outcome.result = psaSuccess) := by
  rw [dispatchCall] at run
  generalize api : agentApi cfg s call = result at run
  cases result with
  | error stop => cases run
  | ok outcome =>
      cases run
      refine ⟨outcome, rfl, rfl, ?_, ?_, ?_⟩
      · intro effect
        rw [effect]
      · intro c effect
        rw [effect]
      · dsimp only
        split <;> simp_all

/-- From the outcome of an agent call to the requests of the agent. -/
theorem Requested.dispatched {cfg : Config Pt Svc} {s : Spe Pt Svc} (msg : MailboxMsg) (idx : ℕ)
    {outcome : Outcome Pt Svc} {clientId : ℤ} {data : Option Word} {d : Dispatched Pt Svc}
    (managed : Managed cfg s.spm) (owns : (cfg.platform.partition cfg.agent).Owns clientId)
    (requested : Requested cfg s.spm outcome clientId data)
    (state : d.state = { s with spm := outcome.state })
    (quiet : outcome.effect = .quiet → d.sent = none)
    (sent : ∀ c, outcome.effect = .sent c → d.sent = some c)
    (answer : d.answer = none ↔ outcome.result = psaSuccess)
    (entered : ∀ c σ, outcome.effect = .sent c →
      SendMove cfg.platform cfg.agent clientId data s.spm outcome.state c σ →
      LeadsBack cfg s.spm outcome.state msg idx c ∧
        KnowsVectors cfg (outcome.state.connections c) idx msg.request) :
    d.sent = none ∧ (d.answer = none → msg.request = .close 0) ∧
        (∀ c effect, AgentFrame s.spm d.state.spm cfg.agent effect c) ∨
      ∃ c, d.sent = some c ∧ d.answer = none ∧ NewRequest cfg s.spm d.state.spm msg idx c := by
  rw [state]
  rcases requested.cases with ⟨effect, failed, still⟩ | ⟨c, σ, effect, success, move⟩
  · refine .inl ⟨quiet effect, fun none ↦ absurd (answer.1 none) failed, fun c effect ↦ ?_⟩
    exact still.agentFrame cfg.agent effect c
  · obtain ⟨L, life⟩ := managed
    obtain ⟨before, after, others⟩ := move.underWay life owns
    obtain ⟨leadsBack, vectors⟩ := entered c σ effect move
    exact .inr ⟨c, sent c effect, answer.2 success, before, after, others, leadsBack, vectors⟩

omit [DecidableEq Pt] in
/-- A message that is answered without a call of the manager. -/
theorem Dispatches.of_answer {cfg : Config Pt Svc} {s : Spe Pt Svc} {msg : MailboxMsg} {idx : ℕ}
    {answer : ℤ} (managed : Managed cfg s.spm)
    (vectors : HoldsVectors cfg s s idx msg.request) :
    Dispatches cfg s msg idx ⟨s, none, some answer⟩ :=
  ⟨rfl, rfl, rfl, rfl, fun _ _ ↦ rfl, fun _ _ _ _ _ ↦ rfl, vectors, managed, fun _ waits ↦ waits,
    .inl ⟨rfl, fun impossible ↦ absurd impossible (by simp),
      fun c effect ↦ (Quiet.refl managed.pool).agentFrame cfg.agent effect c⟩⟩

/-- The connection of a new request has the data given with it. -/
theorem SendMove.clientData_of_some {P : Platform Pt Svc} {caller : Pt} {clientId : ℤ} {data : Word}
    {s s' : State Pt Svc} {c : ℕ} {σ : Svc}
    (move : SendMove P caller clientId (some data) s s' c σ) :
    (s'.connections c).clientData = data := by
  by_cases allocated : s.Allocated c
  · exact (move.reused allocated).2.2.2.2.2
  · exact (move.fresh allocated).2.2

theorem dispatch_connect {cfg : Config Pt Svc} {s : Spe Pt Svc} {msg : MailboxMsg} {idx : ℕ}
    {sid version : Word} {clientId : ℤ} {d : Dispatched Pt Svc} (idx_lt : idx < cfg.numSlots)
    (managed : Managed cfg s.spm) (request : msg.request = .connect sid version)
    (translate : tfmMultiCoreHalClientIdTranslate cfg msg.clientId = some clientId)
    (run : dispatchCall cfg s (.agentConnect sid version clientId (cfg.msgHandleAddress idx)) =
      .ok d) : Dispatches cfg s msg idx d := by
  obtain ⟨outcome, api, state, quiet, sent, answer⟩ := dispatchCall_ok run
  have owns := translate_owns translate
  have requested :=
    agentConnect_requested managed owns (cfg.msgHandleAddress_ne_zero idx idx_lt) api
  have cases := requested.dispatched msg idx managed owns state quiet sent answer
    fun c σ effect move ↦ by
      refine ⟨.inl (SendMove.clientData_of_some move), ?_⟩
      have connected := (agentApi_ok api).1
      simp only [Api.run, tfmSpmAgentPsaConnect] at connected
      split at connected
      · cases connected
      rcases connect_cases managed.pool connected with ⟨still, -⟩ | ⟨c', σ', same, -, -, -, type⟩
      · rw [effect] at still
        cases still
      · rw [effect] at same
        cases same
        rw [request]
        show _ < _
        rw [type]
        decide
  rw [state] at cases
  refine ⟨?_, ?_, ?_, ?_, ?_, ?_, ?_, ?_, ?_, by rw [state]; exact cases⟩ <;> rw [state]
  · exact fun _ _ ↦ rfl
  · intro k _ _ n _
    rw [requested.memory]
  · rw [request]
    rfl
  · exact requested.managed
  · exact requested.waits

theorem dispatch_close {cfg : Config Pt Svc} {s : Spe Pt Svc} {msg : MailboxMsg} {idx : ℕ}
    {handle : Word} {clientId : ℤ} {d : Dispatched Pt Svc} (managed : Managed cfg s.spm)
    (request : msg.request = .close handle)
    (translate : tfmMultiCoreHalClientIdTranslate cfg msg.clientId = some clientId)
    (run : dispatchCall cfg s (.agentClose handle clientId) = .ok d) :
    Dispatches cfg s msg idx d := by
  obtain ⟨outcome, api, state, quiet, sent, answer⟩ := dispatchCall_ok run
  have owns := translate_owns translate
  have closed := (agentApi_ok api).1
  simp only [Api.run, tfmSpmAgentPsaClose] at closed
  split at closed
  · cases closed
  by_cases null : handle = 0
  · -- the null handle closes nothing
    rw [spmPsaCloseClientIdAssociated, if_pos null] at closed
    cases closed
    rw [null] at request
    have unchanged : d.state = s := state
    refine ⟨?_, ?_, ?_, ?_, ?_, ?_, ?_, ?_, ?_, .inl ⟨quiet rfl, fun _ ↦ request, ?_⟩⟩ <;>
      rw [unchanged]
    · exact fun _ _ ↦ rfl
    · exact fun _ _ _ _ _ ↦ rfl
    · rw [request]
      rfl
    · exact managed
    · exact fun _ waits ↦ waits
    · exact fun c effect ↦ (Quiet.refl managed.pool).agentFrame cfg.agent effect c
  · have requested := agentClose_requested managed owns null api
    have cases := requested.dispatched msg idx managed owns state quiet sent answer
      fun c σ effect move ↦ by
        obtain ⟨dynamic, s₀, ok⟩ := close_sent closed effect
        rcases close_cases managed.pool closed with ⟨still, -⟩ | ⟨c', σ', same, -, here, type⟩
        · rw [effect] at still
          cases still
        · rw [effect] at same
          cases same
          refine ⟨.inr ⟨handle, clientId, s₀, request, translate, dynamic, ok, ?_⟩, ?_⟩
          · exact (move.reused here).2.2.2.2.2
          · rw [request]
            show _ < _
            rw [type]
            decide
    rw [state] at cases
    refine ⟨?_, ?_, ?_, ?_, ?_, ?_, ?_, ?_, ?_, by rw [state]; exact cases⟩ <;> rw [state]
    · exact fun _ _ ↦ rfl
    · intro k _ _ n _
      rw [requested.memory]
    · rw [request]
      rfl
    · exact requested.managed
    · exact requested.waits

/-- The state when the request of a call is handed to the manager. -/
def callState (cfg : Config Pt Svc) (s : Spe Pt Svc) (params : CallParams) (idx : ℕ)
    (clientId : ℤ) : Spe Pt Svc :=
  { s with
    spm := { s.spm with memory := callMemory cfg s.spm.memory params idx clientId }
    inUse := Function.update s.inUse idx true }

omit [DecidableEq Pt] in
theorem callState_outVecLen {cfg : Config Pt Svc} (s : Spe Pt Svc) (params : CallParams) {idx : ℕ}
    (clientId : ℤ) (idx_lt : idx < cfg.numSlots) (i : Fin 4) :
    (callState cfg s params idx clientId).outVecLen cfg idx i = params.outVecLen i := by
  have copied : (callState cfg s params idx clientId).outVecLen cfg idx i =
      vecLen (copiedMemory cfg s.spm.memory params idx) (cfg.outVecAddress idx) i :=
    vecLen_congr (fun n n_lt ↦ callMemory_vectors idx_lt n_lt) i
  exact copied.trans (vecLen_storeWords ..)

omit [DecidableEq Pt] in
/-- What is under way does not depend on the memory. -/
theorem AgentFrame.of_memory {s s' : State Pt Svc} {memory : Word → BitVec 8} {agent : Pt}
    {effect : Effect} {d : ℕ} (frame : AgentFrame { s with memory := memory } s' agent effect d) :
    AgentFrame s s' agent effect d :=
  ⟨frame.underWay, frame.same, frame.replyValue⟩

theorem dispatch_call {cfg : Config Pt Svc} {s : Spe Pt Svc} {msg : MailboxMsg} {idx : ℕ}
    {params : CallParams} {clientId : ℤ} {d : Dispatched Pt Svc} (idx_lt : idx < cfg.numSlots)
    (managed : Managed cfg s.spm) (request : msg.request = .call params)
    (fits : params.outLen.toNat ≤ 4)
    (translate : tfmMultiCoreHalClientIdTranslate cfg msg.clientId = some clientId)
    (run : dispatchCall cfg (callState cfg s params idx clientId) (.agentCall params.handle
      (packControl params) cfg.paramsAddress (cfg.msgHandleAddress idx)) = .ok d) :
    Dispatches cfg s msg idx d := by
  obtain ⟨outcome, api, state, quiet, sent, answer⟩ := dispatchCall_ok run
  have owns := translate_owns translate
  have managed' : Managed cfg (callState cfg s params idx clientId).spm :=
    managed.quiet (quiet_of_memory managed.pool _)
  obtain ⟨load_id, load_out⟩ := loadWord_callMemory cfg s.spm.memory params idx clientId
  have params_id : paramsClientId (callState cfg s params idx clientId).spm.memory
      cfg.paramsAddress = clientId := by
    rw [paramsClientId]
    exact (congrArg BitVec.toInt load_id).trans (toInt_translate translate)
  have requested := agentCall_requested managed' owns params_id
    (cfg.msgHandleAddress_ne_zero idx idx_lt) api
  have entered : ∀ c, outcome.effect = .sent c →
      KnowsVectors cfg (outcome.state.connections c) idx msg.request := by
    intro c effect
    have called := (agentApi_ok api).1
    simp only [Api.run, tfmSpmAgentPsaCall, params_id] at called
    split at called
    · cases called
      cases effect
    rcases call_cases managed'.pool called with ⟨still, -⟩ | ⟨c', σ', same, call⟩
    · rw [effect] at still
      cases still
    · rw [effect] at same
      cases same
      obtain ⟨k, associated, -⟩ := call.associated
      have out : loadWord (callState cfg s params idx clientId).spm.memory
          (cfg.paramsAddress + 8) = cfg.outVecAddress idx := load_out
      rw [out] at associated
      rw [request]
      refine ⟨associated.type_nonneg, associated.callerOutvec (paramHasIovec_packControl params),
        fun i ↦ ?_⟩
      rw [associated.outSize, if_pos (paramHasIovec_packControl params),
        paramUnpackOutLen_packControl fits, callerLen]
      split
      · exact callState_outVecLen s params clientId idx_lt i
      · next beyond =>
          rw [CallParams.outVecLen, vecEntry, if_neg beyond]
  refine ⟨?_, ?_, ?_, ?_, ?_, ?_, ?_, ?_, ?_, ?_⟩ <;> rw [state]
  · rfl
  · rfl
  · rfl
  · rfl
  · intro k k_ne
    exact Function.update_of_ne k_ne ..
  · intro k k_lt k_ne n n_lt
    rw [requested.memory]
    exact (callMemory_vectors k_lt n_lt).trans (copiedMemory_other idx_lt k_lt k_ne n_lt)
  · rw [request]
    intro _
    refine ⟨Function.update_self .., fun i ↦ ?_⟩
    rw [← callState_outVecLen s params clientId idx_lt i]
    show vecLen outcome.state.memory _ i = _
    rw [requested.memory]
    rfl
  · exact requested.managed
  · exact requested.waits
  · rcases requested.cases with ⟨effect, failed, still⟩ | ⟨c, σ, effect, success, move⟩
    · refine .inl ⟨quiet effect, fun none ↦ absurd (answer.1 none) failed, fun c effect ↦ ?_⟩
      exact AgentFrame.of_memory (still.agentFrame cfg.agent effect c)
    · obtain ⟨L, life⟩ := managed'
      obtain ⟨before, after, others⟩ := move.underWay life owns
      refine .inr ⟨c, sent c effect, answer.2 success, before, after, fun e e_ne effect ↦ ?_,
        .inl (SendMove.clientData_of_some move), entered c effect⟩
      exact AgentFrame.of_memory (others e e_ne effect)

theorem map_eq_ok {α β : Type} {f : α → β} {x : Except Stop α} {y : β} (run : f <$> x = .ok y) :
    ∃ a, x = .ok a ∧ f a = y := by
  cases x with
  | error stop => cases run
  | ok a =>
      cases run
      exact ⟨a, rfl, rfl⟩

/-- Every dispatched message. -/
theorem dispatchRequest_spec {cfg : Config Pt Svc} {s : Spe Pt Svc} {msg : MailboxMsg} {idx : ℕ}
    {d : Dispatched Pt Svc} (idx_lt : idx < cfg.numSlots) (managed : Managed cfg s.spm)
    (run : dispatchRequest cfg s msg idx = .ok (some d)) : Dispatches cfg s msg idx d := by
  rw [dispatchRequest] at run
  split at run
  · next request =>
      cases run
      exact .of_answer managed (by rw [request]; rfl)
  · next sid request =>
      generalize version : tfmSpmClientPsaVersion cfg s.spm sid = result at run
      cases run
      have quiet : Quiet cfg.platform s.spm result.2 ∧ result.2.memory = s.spm.memory := by
        rw [← version, tfmSpmClientPsaVersion]
        split
        · exact ⟨.refl managed.pool, rfl⟩
        · next found =>
            rw [tfmSpmGetServiceBySid] at found
            split at found
            · cases found
            · cases found
              split <;> exact ⟨.of_services managed.pool _, rfl⟩
      refine ⟨rfl, rfl, rfl, rfl, fun _ _ ↦ rfl, ?_, by rw [request]; rfl, managed.quiet quiet.1,
        ?_, .inl ⟨rfl, fun impossible ↦ absurd impossible (by simp), fun c effect ↦
          quiet.1.agentFrame cfg.agent effect c⟩⟩
      · intro k _ _ n _
        exact congrFun quiet.2 _
      · intro c waits
        rw [← version, tfmSpmClientPsaVersion] at waits
        split at waits
        · exact waits
        · next found =>
            rw [tfmSpmGetServiceBySid] at found
            split at found
            · cases found
            · cases found
              split at waits <;> exact waits
  · next params request =>
      simp only [localCopyVects] at run
      split at run
      · next too_many =>
          cases run
          refine .of_answer managed ?_
          rw [request]
          intro copied
          simp only [CallParams.Copied, psaMaxIovec] at copied too_many
          omega
      · next fits =>
          rw [checkIndex, if_pos idx_lt] at run
          simp only [psaMaxIovec] at fits
          split at run
          · -- the vectors are copied before the identifier is translated
            cases run
            have quiet := quiet_of_memory managed.pool (copiedMemory cfg s.spm.memory params idx)
            refine ⟨rfl, rfl, rfl, rfl, fun k k_ne ↦ Function.update_of_ne k_ne .., ?_, ?_,
              managed.quiet quiet, fun _ waits ↦ waits,
              .inl ⟨rfl, fun impossible ↦ absurd impossible (by simp),
                fun c effect ↦ quiet.agentFrame cfg.agent effect c⟩⟩
            · intro k k_lt k_ne n n_lt
              exact copiedMemory_other idx_lt k_lt k_ne n_lt
            · rw [request]
              intro _
              exact ⟨Function.update_self .., fun i ↦ vecLen_storeWords ..⟩
          · next clientId translate =>
              obtain ⟨d', run', same⟩ := map_eq_ok run
              cases same
              exact dispatch_call idx_lt managed request (by omega) translate run'
  · next sid version request =>
      split at run
      · cases run
        exact .of_answer managed (by rw [request]; rfl)
      · next clientId translate =>
          obtain ⟨d', run', same⟩ := map_eq_ok run
          cases same
          exact dispatch_connect idx_lt managed request translate run'
  · next handle request =>
      split at run
      · cases run
        exact .of_answer managed (by rw [request]; rfl)
      · next clientId translate =>
          obtain ⟨d', run', same⟩ := map_eq_ok run
          cases same
          exact dispatch_close managed request translate run'
  · cases run

end TrustedFirmwareM.Mailbox
