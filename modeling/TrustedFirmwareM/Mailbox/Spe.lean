import TrustedFirmwareM.Spm.Step

/-!
# The secure side of the mailbox

The mailbox agent takes requests out of slots in memory that it shares with the non-secure core,
passes them to the secure partition manager and writes replies into the slots.  A request that the
manager accepts is answered later, when its reply comes out of the agent's reply queue; the slot to
answer is then found through the private data of the connection, which holds the address of the
message handle in the slot record.

The agent is a thread: other partitions run between any two of its calls, and the non-secure core
runs all the time.  A step below is the handling of one slot, of one queued reply, of one step of
the manager, or one change of the shared memory.
-/

namespace TrustedFirmwareM.Mailbox

open Spm

variable {Pt Svc : Type}

/-- `PSA_ERROR_INVALID_ARGUMENT`. -/
def psaErrorInvalidArgument : ℤ := -135

/-- `PSA_FRAMEWORK_VERSION`. -/
def psaFrameworkVersion : ℤ := 0x0101

/-- `PSA_VERSION_NONE`. -/
def psaVersionNone : ℤ := 0

/-! ## Messages and slots -/

/-- `psa_call_params`. -/
structure CallParams where
  /-- Handle of the connection, or static handle of a service. -/
  handle : Word
  /-- Request type. -/
  type : Word
  /-- Base address and length of each input vector. -/
  inVec : Fin 4 → Word × Word
  /-- Number of input vectors. -/
  inLen : Word
  /-- Base address and length of each output vector. -/
  outVec : Fin 4 → Word × Word
  /-- Number of output vectors. -/
  outLen : Word

/-- The call type of a message with the parameters that it selects. -/
inductive Request
  /-- `MAILBOX_PSA_FRAMEWORK_VERSION`. -/
  | frameworkVersion
  /-- `MAILBOX_PSA_VERSION`. -/
  | version (sid : Word)
  /-- `MAILBOX_PSA_CONNECT`. -/
  | connect (sid version : Word)
  /-- `MAILBOX_PSA_CALL`. -/
  | call (params : CallParams)
  /-- `MAILBOX_PSA_CLOSE`. -/
  | close (handle : Word)
  /-- Any other call type. -/
  | unknown

/-- `mailbox_msg_t`. -/
structure MailboxMsg where
  /-- Call type and parameters. -/
  request : Request
  /-- Client identifier of the non-secure caller. -/
  clientId : ℤ

/-- `mailbox_reply_t`. -/
structure Reply where
  /-- Return value of the call. -/
  returnVal : ℤ
  /-- Length of each output vector. -/
  outVecLen : Fin 4 → Word

/-- `mailbox_slot_t`. -/
structure NsSlot where
  /-- Message to the secure side. -/
  msg : MailboxMsg
  /-- Reply of the secure side. -/
  reply : Reply

/-- The memory shared with the non-secure core. -/
structure Shared where
  /-- Slots pending for the secure side, `pend_slots`. -/
  pendSlots : Word
  /-- Slots that contain a reply, `replied_slots`. -/
  repliedSlots : Word
  /-- The slots. -/
  slots : ℕ → NsSlot

/-- `secure_mailbox_slot_t`. -/
structure Slot where
  /-- Local copy of the message. -/
  msg : MailboxMsg
  /-- Index of the non-secure slot. -/
  nsSlotIdx : ℕ
  /-- Message handle. -/
  msgHandle : Word

/-- Local variables of `tfm_mailbox_handle_msg`. -/
structure Loop where
  /-- The slot to look at next. -/
  idx : ℕ
  /-- The pending slots when the loop was entered. -/
  pendSlots : Word
  /-- The slots replied to so far. -/
  replySlots : Word

/-- Everything that is fixed after `tfm_mailbox_init`. -/
structure Config (Pt Svc : Type) where
  /-- The partitions and services. -/
  platform : Platform Pt Svc
  /-- The partition of the mailbox agent. -/
  agent : Pt
  /-- `NUM_MAILBOX_QUEUE_SLOT`. -/
  numSlots : ℕ
  /-- Number of slots that the non-secure side has allocated. -/
  nsSlotCount : ℕ
  /-- The client identifier of a message is used, `TFM_NS_MANAGE_NSID`. -/
  manageNsid : Bool
  /-- First and last client identifier registered for the mailbox. -/
  clientIdRegion : ℤ × ℤ
  /-- Address of the message handle in a slot record. -/
  msgHandleAddress : ℕ → Word
  /-- Address of the vectors of a slot: four input vectors, then four output vectors. -/
  vectorsAddress : ℕ → Word
  /-- Address of the local `client_params_t`. -/
  paramsAddress : Word
  /-- Address of the local `psa_msg_t`. -/
  msgAddress : Word
  /-- The agent uses the agent interface. -/
  agent_mailbox : (platform.partition agent).nsAgentMailbox = true
  /-- The agent is not the TrustZone agent. -/
  agent_tz : (platform.partition agent).nsAgentTz = false
  /-- A status word has 32 bits. -/
  numSlots_le : numSlots ≤ 32
  /-- `tfm_mailbox_hal_init` refuses a larger number of slots. -/
  nsSlotCount_le : nsSlotCount ≤ numSlots
  /-- The loader refuses an interrupt whose range leaves the range of its partition. -/
  region_base : (platform.partition agent).clientIdBase ≤ clientIdRegion.1
  /-- The loader refuses an interrupt whose range leaves the range of its partition. -/
  region_limit : clientIdRegion.2 ≤ (platform.partition agent).clientIdLimit
  /-- Non-secure client identifiers are negative. -/
  region_neg : clientIdRegion.2 < 0
  /-- Client identifiers have 32 bits. -/
  region_word : -2 ^ 31 ≤ clientIdRegion.1
  /-- The records are not at address 0. -/
  msgHandleAddress_ne_zero : ∀ k, k < numSlots → msgHandleAddress k ≠ 0
  /-- Different records are at different addresses. -/
  msgHandleAddress_injective : ∀ j k, j < numSlots → k < numSlots →
    msgHandleAddress j = msgHandleAddress k → j = k
  /-- The vectors of different slots are apart. -/
  vectors_apart : ∀ j k, j < numSlots → k < numSlots → j ≠ k → ∀ m n, m < 64 → n < 64 →
    vectorsAddress j + BitVec.ofNat 32 m ≠ vectorsAddress k + BitVec.ofNat 32 n
  /-- The parameters are apart from the vectors. -/
  params_apart : ∀ k, k < numSlots → ∀ m n, m < 64 → n < 12 →
    vectorsAddress k + BitVec.ofNat 32 m ≠ paramsAddress + BitVec.ofNat 32 n
  /-- The message is apart from the vectors. -/
  msg_apart : ∀ k, k < numSlots → ∀ m n, m < 64 → n < 48 →
    vectorsAddress k + BitVec.ofNat 32 m ≠ msgAddress + BitVec.ofNat 32 n

/-- The output vectors of a slot. -/
def Config.outVecAddress (cfg : Config Pt Svc) (k : ℕ) : Word := cfg.vectorsAddress k + 32

/-- The secure side of the mailbox, with the manager and the shared memory. -/
structure Spe (Pt Svc : Type) where
  /-- The secure partition manager; its memory holds the vectors. -/
  spm : State Pt Svc
  /-- Slot records that are not in use, `empty_slots`. -/
  emptySlots : Word
  /-- The slot records, `queue`. -/
  queue : ℕ → Slot
  /-- The vectors of a slot are in use, `in_use`. -/
  inUse : ℕ → Bool
  /-- The loop over the pending slots, while the agent is in it. -/
  loop : Option Loop
  /-- Shared memory. -/
  shared : Shared

/-- The output vector lengths that the vectors of a slot hold. -/
def Spe.outVecLen (cfg : Config Pt Svc) (s : Spe Pt Svc) (k : ℕ) (i : Fin 4) : Word :=
  vecLen s.spm.memory (cfg.outVecAddress k) i

/-- The bit of a slot in a status word. -/
def slotBit (idx : ℕ) : Word := (1 : Word) <<< idx

/-- A cleared slot record. -/
def Slot.zero : Slot := ⟨⟨.unknown, 0⟩, 0, 0⟩

/-- Replace the manager's memory. -/
def Spe.setMemory (s : Spe Pt Svc) (memory : Word → BitVec 8) : Spe Pt Svc :=
  { s with spm := { s.spm with memory := memory } }

/-! ## Outcomes of a step -/

/-- Why a step does not complete. -/
inductive Stop
  /-- The step panics, or it cannot be taken. -/
  | refused
  /-- An array is accessed outside its bounds. -/
  | outOfBounds
  deriving DecidableEq

/-- A reply written into a non-secure slot. -/
structure Written where
  /-- The non-secure slot. -/
  slot : ℕ
  /-- The return value. -/
  returnVal : ℤ
  /-- The output vector lengths, for a request whose vectors were copied. -/
  outVecLen : Option (Fin 4 → Word)

/-- What a step means. -/
inductive Event
  /-- Nothing but local bookkeeping. -/
  | quiet
  /-- The message of a slot was taken: the request it became in the manager, or the status to answer
  it with at once and the reply written. -/
  | taken (idx : ℕ) (msg : MailboxMsg) (sent : Option ℕ) (answer : Option ℤ)
      (written : Option Written)
  /-- The queued reply on a chunk was collected, and a reply written. -/
  | collected (c : ℕ) (written : Option Written)
  /-- A step of the manager. -/
  | spm (effect : Effect)

/-- A step that cannot be taken is refused. -/
def orRefused {α : Type} : Option α → Except Stop α
  | some a => .ok a
  | none => .error .refused

/-- An access to the slot records or to the vectors. -/
def checkIndex (cfg : Config Pt Svc) (idx : ℕ) : Except Stop Unit :=
  if idx < cfg.numSlots then .ok () else .error .outOfBounds

/-! ## Slot records -/

/-- `set_spe_queue_empty_status`. -/
def setSpeQueueEmptyStatus (cfg : Config Pt Svc) (s : Spe Pt Svc) (idx : ℕ) : Spe Pt Svc :=
  if idx < cfg.numSlots then { s with emptySlots := s.emptySlots ||| slotBit idx } else s

/-- `clear_spe_queue_empty_status`. -/
def clearSpeQueueEmptyStatus (cfg : Config Pt Svc) (s : Spe Pt Svc) (idx : ℕ) : Spe Pt Svc :=
  if idx < cfg.numSlots then { s with emptySlots := s.emptySlots &&& ~~~slotBit idx } else s

/-- `get_spe_queue_empty_status`. -/
def getSpeQueueEmptyStatus (cfg : Config Pt Svc) (s : Spe Pt Svc) (idx : ℕ) : Bool :=
  idx < cfg.numSlots && s.emptySlots &&& slotBit idx ≠ 0

/-- `get_spe_mailbox_msg_handle`. -/
def getSpeMailboxMsgHandle (idx : ℕ) : Word := BitVec.ofNat 32 (idx + 1)

/-- `get_spe_mailbox_msg_idx`, which keeps 8 bits. -/
def getSpeMailboxMsgIdx (handle : Word) : ℕ := (handle - 1).toNat % 256

/-- `mailbox_clean_queue_slot`. -/
def mailboxCleanQueueSlot (cfg : Config Pt Svc) (s : Spe Pt Svc) (idx : ℕ) : Spe Pt Svc :=
  if idx < cfg.numSlots then
    setSpeQueueEmptyStatus cfg { s with queue := Function.update s.queue idx .zero } idx
  else s

/-- `mailbox_direct_reply`, with the checks of `get_nspe_reply_addr`. -/
def mailboxDirectReply (cfg : Config Pt Svc) (s : Spe Pt Svc) (idx : ℕ) (result : ℤ) :
    Except Stop (Spe Pt Svc × Written) :=
  if cfg.numSlots ≤ idx then .error .refused
  else
    let ns := (s.queue idx).nsSlotIdx
    if cfg.numSlots ≤ ns ∨ cfg.nsSlotCount ≤ ns then .error .refused
    else do
      checkIndex cfg idx
      let slot := s.shared.slots ns
      let lens := if s.inUse idx then some (s.outVecLen cfg idx) else none
      let reply : Reply := ⟨result, lens.getD slot.reply.outVecLen⟩
      let s := { s with
        inUse := Function.update s.inUse idx false
        shared := { s.shared with
          slots := Function.update s.shared.slots ns { slot with reply := reply } } }
      .ok (mailboxCleanQueueSlot cfg s idx, ⟨ns, result, lens⟩)

/-! ## Dispatch -/

/-- `PARAM_PACK`, `PARAM_SET_NS_INVEC` and `PARAM_SET_NS_OUTVEC`. -/
def packControl (params : CallParams) : Word :=
  ((params.type &&& 0xFFFF) ||| ((params.inLen <<< 24) &&& 0x07000000) |||
    ((params.outLen <<< 16) &&& 0x00070000)) ||| 0x08000000 ||| 0x00080000

/-- The words of a vector array, cleared from a count on. -/
def vectorWords (vec : Fin 4 → Word × Word) (count : ℕ) : List Word :=
  (List.finRange 4).flatMap fun i ↦ if i.val < count then [(vec i).1, (vec i).2] else [0, 0]

/-- `local_copy_vects`. -/
def localCopyVects (cfg : Config Pt Svc) (s : Spe Pt Svc) (params : CallParams) (idx : ℕ) :
    Except Stop (Option (Spe Pt Svc)) :=
  if psaMaxIovec < params.inLen.toNat ∨ psaMaxIovec < params.outLen.toNat ∨
      psaMaxIovec < params.inLen.toNat + params.outLen.toNat then .ok none
  else do
    checkIndex cfg idx
    let s := s.setMemory (storeWords s.spm.memory (cfg.vectorsAddress idx)
      (vectorWords params.inVec params.inLen.toNat ++
        vectorWords params.outVec params.outLen.toNat))
    .ok (some { s with inUse := Function.update s.inUse idx true })

/-- `tfm_multi_core_hal_client_id_translate`. -/
def tfmMultiCoreHalClientIdTranslate (cfg : Config Pt Svc) (clientIdIn : ℤ) : Option ℤ :=
  tzNsAgentClientIdTranslate cfg.clientIdRegion clientIdIn

/-- `tfm_spm_client_psa_version`, called by a non-secure agent. -/
def tfmSpmClientPsaVersion (cfg : Config Pt Svc) (s : State Pt Svc) (sid : Word) :
    ℤ × State Pt Svc :=
  match tfmSpmGetServiceBySid cfg.platform s sid with
  | none => (psaVersionNone, s)
  | some (σ, s) =>
      if tfmSpmCheckAuthorization cfg.platform cfg.agent (cfg.platform.service σ) true then
        (((cfg.platform.service σ).version).toInt, s)
      else (psaVersionNone, s)

/-- The message of a slot as the agent copies it. -/
def copiedMsg (cfg : Config Pt Svc) (s : Spe Pt Svc) (idx : ℕ) : MailboxMsg :=
  let msg := (s.shared.slots idx).msg
  if cfg.manageNsid then msg else { msg with clientId := -1 }

variable [DecidableEq Pt]

/-- The agent calls the manager's interface. -/
def agentApi (cfg : Config Pt Svc) (s : Spe Pt Svc) (call : Api) :
    Except Stop (Outcome Pt Svc) :=
  if (s.spm.partitions cfg.agent).signalsWaiting ≠ 0 then .error .refused
  else orRefused (call.run cfg.platform s.spm cfg.agent)

/-- What becomes of a dispatched message. -/
structure Dispatched (Pt Svc : Type) where
  /-- State after the dispatch. -/
  state : Spe Pt Svc
  /-- The request that it became in the manager. -/
  sent : Option ℕ
  /-- The status to answer it with at once. -/
  answer : Option ℤ

/-- Make a call of the agent interface; a status other than success is an immediate answer. -/
def dispatchCall (cfg : Config Pt Svc) (s : Spe Pt Svc) (call : Api) :
    Except Stop (Dispatched Pt Svc) := do
  let outcome ← agentApi cfg s call
  let sent := match outcome.effect with
    | .sent c => some c
    | _ => none
  .ok ⟨{ s with spm := outcome.state }, sent,
    if outcome.result = psaSuccess then none else some outcome.result⟩

/-- The switch of `tfm_mailbox_dispatch`; `none` is an invalid call type. -/
def dispatchRequest (cfg : Config Pt Svc) (s : Spe Pt Svc) (msg : MailboxMsg) (idx : ℕ) :
    Except Stop (Option (Dispatched Pt Svc)) :=
  match msg.request with
  | .frameworkVersion => .ok (some ⟨s, none, some psaFrameworkVersion⟩)
  | .version sid =>
      let (version, spm) := tfmSpmClientPsaVersion cfg s.spm sid
      .ok (some ⟨{ s with spm := spm }, none, some version⟩)
  | .call params => do
      match ← localCopyVects cfg s params idx with
      | none => .ok (some ⟨s, none, some psaErrorInvalidArgument⟩)
      | some s =>
          match tfmMultiCoreHalClientIdTranslate cfg msg.clientId with
          | none => .ok (some ⟨s, none, some psaErrorInvalidArgument⟩)
          | some clientId =>
              let s := s.setMemory (storeWords s.spm.memory cfg.paramsAddress
                [BitVec.ofInt 32 clientId, cfg.vectorsAddress idx, cfg.outVecAddress idx])
              some <$> dispatchCall cfg s (.agentCall params.handle (packControl params)
                cfg.paramsAddress (cfg.msgHandleAddress idx))
  | .connect sid version =>
      match tfmMultiCoreHalClientIdTranslate cfg msg.clientId with
      | none => .ok (some ⟨s, none, some psaErrorInvalidArgument⟩)
      | some clientId =>
          some <$> dispatchCall cfg s
            (.agentConnect sid version clientId (cfg.msgHandleAddress idx))
  | .close handle =>
      match tfmMultiCoreHalClientIdTranslate cfg msg.clientId with
      | none => .ok (some ⟨s, none, some psaErrorInvalidArgument⟩)
      | some clientId => some <$> dispatchCall cfg s (.agentClose handle clientId)
  | .unknown => .ok none

/-- `tfm_mailbox_dispatch` and the handling of its failure. -/
def tfmMailboxDispatch (cfg : Config Pt Svc) (s : Spe Pt Svc) (msg : MailboxMsg) (idx : ℕ)
    (replySlots : Word) : Except Stop (Spe Pt Svc × Word × Event) := do
  match ← dispatchRequest cfg s msg idx with
  | none => .ok (mailboxCleanQueueSlot cfg s idx, replySlots, .taken idx msg none none none)
  | some d =>
      match d.answer with
      | none => .ok (d.state, replySlots, .taken idx msg d.sent none none)
      | some psaRet => do
          let (s, written) ← mailboxDirectReply cfg d.state idx psaRet
          .ok (s, replySlots ||| slotBit idx, .taken idx msg d.sent (some psaRet) (some written))

/-! ## The agent -/

/-- `tfm_mailbox_handle_msg` up to its loop. -/
def handleMsgBegin (s : Spe Pt Svc) : Except Stop (Spe Pt Svc × Event) :=
  match s.loop with
  | some _ => .error .refused
  | none =>
      if s.shared.pendSlots = 0 then .ok (s, .quiet)
      else .ok ({ s with loop := some ⟨0, s.shared.pendSlots, 0⟩ }, .quiet)

/-- Take the message of a pending slot. -/
def takeSlot (cfg : Config Pt Svc) (s : Spe Pt Svc) (idx : ℕ) (replySlots : Word) :
    Except Stop (Spe Pt Svc × Word × Event) := do
  let s := clearSpeQueueEmptyStatus cfg s idx
  checkIndex cfg idx
  let msg := copiedMsg cfg s idx
  let record : Slot := ⟨msg, idx, getSpeMailboxMsgHandle idx⟩
  tfmMailboxDispatch cfg { s with queue := Function.update s.queue idx record } msg idx replySlots

/-- One round of the loop of `tfm_mailbox_handle_msg`. -/
def handleMsgNext (cfg : Config Pt Svc) (s : Spe Pt Svc) : Except Stop (Spe Pt Svc × Event) :=
  match s.loop with
  | none => .error .refused
  | some loop =>
      if cfg.nsSlotCount ≤ loop.idx then .error .refused
      else if loop.pendSlots &&& slotBit loop.idx = 0 then
        .ok ({ s with loop := some { loop with idx := loop.idx + 1 } }, .quiet)
      else do
        let (s, replySlots, event) ← takeSlot cfg s loop.idx loop.replySlots
        .ok ({ s with loop := some ⟨loop.idx + 1, loop.pendSlots, replySlots⟩ }, event)

/-- `tfm_mailbox_handle_msg` after its loop. -/
def handleMsgEnd (cfg : Config Pt Svc) (s : Spe Pt Svc) : Except Stop (Spe Pt Svc × Event) :=
  match s.loop with
  | none => .error .refused
  | some loop =>
      if loop.idx < cfg.nsSlotCount then .error .refused
      else .ok ({ s with
        loop := none
        shared := { s.shared with
          pendSlots := s.shared.pendSlots &&& ~~~loop.pendSlots
          repliedSlots := s.shared.repliedSlots ||| loop.replySlots } }, .quiet)

/-- `tfm_mailbox_reply_msg`. -/
def tfmMailboxReplyMsg (cfg : Config Pt Svc) (s : Spe Pt Svc) (handle : Word) (reply : ℤ) :
    Except Stop (Spe Pt Svc × Option Written) :=
  let idx := if handle = 0 then 0 else getSpeMailboxMsgIdx handle
  if getSpeQueueEmptyStatus cfg s idx then .ok (s, none)
  else do
    let (s, written) ← mailboxDirectReply cfg s idx reply
    .ok ({ s with shared := { s.shared with
      repliedSlots := s.shared.repliedSlots ||| slotBit idx } }, some written)

/-- The message handle that an address points to: one of a slot record, or some other word. -/
def loadMsgHandle (cfg : Config Pt Svc) (s : Spe Pt Svc) (owner : Word) : Word :=
  match (List.range cfg.numSlots).find? fun k ↦ cfg.msgHandleAddress k = owner with
  | some k => (s.queue k).msgHandle
  | none => loadWord s.spm.memory owner

/-- `mailbox_reply`. -/
def mailboxReply (cfg : Config Pt Svc) (s : Spe Pt Svc) (owner : Word) (ret : ℤ) :
    Except Stop (Spe Pt Svc × Option Written) :=
  tfmMailboxReplyMsg cfg s (if owner = 0 then 0 else loadMsgHandle cfg s owner) ret

/-- `tfm_rpc_client_call_reply`: the oldest queued reply is passed to the mailbox with the private
data of its connection. -/
def collectReply (cfg : Config Pt Svc) (s : Spe Pt Svc) : Except Stop (Spe Pt Svc × Event) :=
  match s.loop with
  | some _ => .error .refused
  | none => do
      let outcome ← agentApi cfg s (.rpcClientCallReply cfg.msgAddress)
      match outcome.effect with
      | .collected c => do
          let (s, written) ← mailboxReply cfg { s with spm := outcome.state }
            (s.spm.connections c).clientData outcome.result
          .ok (s, .collected c written)
      | _ => .error .refused

/-! ## Steps -/

/-- One step of the system. -/
inductive Action (Pt : Type)
  /-- The non-secure core changes the shared memory. -/
  | ns (shared : Shared)
  /-- The agent reads the pending slots. -/
  | handleBegin
  /-- The agent looks at the next slot. -/
  | handleNext
  /-- The agent leaves its loop. -/
  | handleEnd
  /-- The agent collects a reply. -/
  | collect
  /-- The manager makes a step that is not one of the mailbox code. -/
  | spm (a : Spm.Action Pt)

/-- A step of the manager that does not come out of the mailbox code: the agent itself waits for
signals and does nothing else. -/
def foreign (cfg : Config Pt Svc) : Spm.Action Pt → Bool
  | .api _ (.wait _ _) => true
  | .api caller _ => caller ≠ cfg.agent
  | _ => true

/-- One step: the state after it and its meaning. -/
def step (cfg : Config Pt Svc) (s : Spe Pt Svc) : Action Pt → Except Stop (Spe Pt Svc × Event)
  | .ns shared => .ok ({ s with shared := shared }, .quiet)
  | .handleBegin => handleMsgBegin s
  | .handleNext => handleMsgNext cfg s
  | .handleEnd => handleMsgEnd cfg s
  | .collect => collectReply cfg s
  | .spm a =>
      if foreign cfg a then do
        let (effect, spm) ← orRefused (Spm.step cfg.platform s.spm a)
        .ok ({ s with spm := spm }, .spm effect)
      else .error .refused

/-- The state after `tfm_mailbox_init`. -/
def initialSpe (cfg : Config Pt Svc) (spm : State Pt Svc) (shared : Shared) : Spe Pt Svc where
  spm := spm
  emptySlots := BitVec.ofNat 32 (2 ^ cfg.numSlots - 1)
  queue := fun _ ↦ .zero
  inUse := fun _ ↦ false
  loop := none
  shared := shared

end TrustedFirmwareM.Mailbox
