import TrustedFirmwareM.Lib.Numerals
import Mathlib.Algebra.Group.Defs
import Mathlib.Data.Fin.Basic
import Mathlib.Data.List.FinRange
import Mathlib.Logic.Function.Basic

/-!
# The table of multipart operations

The crypto service keeps the contexts of multipart operations in a table.  A client names an
operation by its handle, which is one more than the index of the slot that holds the context.
-/

namespace TrustedFirmwareM.Crypto

/-- `psa_status_t`, as far as the service itself returns it. -/
inductive Status
  /-- `PSA_SUCCESS`. -/
  | success
  /-- `PSA_ERROR_PROGRAMMER_ERROR`. -/
  | programmerError
  /-- `PSA_ERROR_GENERIC_ERROR`. -/
  | genericError
  /-- `PSA_ERROR_NOT_SUPPORTED`. -/
  | notSupported
  /-- `PSA_ERROR_NOT_PERMITTED`. -/
  | notPermitted
  /-- `PSA_ERROR_INVALID_ARGUMENT`. -/
  | invalidArgument
  /-- `PSA_ERROR_BAD_STATE`. -/
  | badState
  /-- `PSA_ERROR_INSUFFICIENT_MEMORY`. -/
  | insufficientMemory
  /-- Any other status, which only the crypto library returns. -/
  | other (code : ℤ)
  deriving DecidableEq

/-- `enum tfm_crypto_operation_type`. -/
inductive OperationType
  /-- `TFM_CRYPTO_OPERATION_NONE`. -/
  | none
  /-- `TFM_CRYPTO_CIPHER_OPERATION`. -/
  | cipher
  /-- `TFM_CRYPTO_MAC_OPERATION`. -/
  | mac
  /-- `TFM_CRYPTO_HASH_OPERATION`. -/
  | hash
  /-- `TFM_CRYPTO_KEY_DERIVATION_OPERATION`. -/
  | keyDerivation
  /-- `TFM_CRYPTO_AEAD_OPERATION`. -/
  | aead
  deriving DecidableEq

/-- `struct tfm_crypto_operation_s`, over the contexts of the crypto library. -/
structure Operation (Ctx : Type) where
  /-- The operation is in use. -/
  inUse : Bool
  /-- Identifier of the owner of the context. -/
  owner : ℤ
  /-- Type of the operation. -/
  type : OperationType
  /-- The context of the crypto library. -/
  operation : Ctx

/-- The `operations` of the service, of which there are `CRYPTO_CONC_OPER_NUM`. -/
abbrev Operations (Ctx : Type) (n : ℕ) := Fin n → Operation Ctx

/-- `TFM_CRYPTO_INVALID_HANDLE`. -/
def tfmCryptoInvalidHandle : ℕ := 0

/-- An entry that has been cleared. -/
def Operation.cleared {Ctx : Type} [Zero Ctx] : Operation Ctx := ⟨false, 0, .none, 0⟩

section

variable {Ctx : Type} {n : ℕ}

/-- `tfm_crypto_init_alloc`. -/
def tfmCryptoInitAlloc [Zero Ctx] : Operations Ctx n := fun _ ↦ .cleared

/-- The slot that a handle names. -/
def handleSlot (n handle : ℕ) : Option (Fin n) :=
  if h : handle ≠ tfmCryptoInvalidHandle ∧ handle ≤ n then
    some ⟨handle - 1, Nat.lt_of_lt_of_le (Nat.sub_one_lt h.1) h.2⟩
  else none

/-- The first slot that is not in use. -/
def freeSlot (operations : Operations Ctx n) : Option (Fin n) :=
  (List.finRange n).find? fun i ↦ !(operations i).inUse

/-- `tfm_crypto_operation_alloc`.  On success the handle is the one of the slot that is returned,
otherwise it is as before. -/
def tfmCryptoOperationAlloc (type : OperationType) (handle : ℕ) (partitionId : ℤ)
    (operations : Operations Ctx n) : Except Status (Fin n × Operations Ctx n) :=
  if handle ≠ tfmCryptoInvalidHandle then .error .badState
  else
    match freeSlot operations with
    | some i =>
        .ok (i, Function.update operations i
          { operations i with inUse := true, owner := partitionId, type := type })
    | none => .error .notPermitted

/-- `tfm_crypto_operation_release`.  The handle becomes invalid in any case. -/
def tfmCryptoOperationRelease [Zero Ctx] (handle : ℕ) (partitionId : ℤ)
    (operations : Operations Ctx n) : Status × Operations Ctx n :=
  match handleSlot n handle with
  | none => (.invalidArgument, operations)
  | some i =>
      if (operations i).inUse ∧ (operations i).owner = partitionId then
        (.success, Function.update operations i .cleared)
      else (.invalidArgument, operations)

/-- `tfm_crypto_operation_lookup`. -/
def tfmCryptoOperationLookup (type : OperationType) (handle : ℕ) (partitionId : ℤ)
    (operations : Operations Ctx n) : Except Status (Fin n) :=
  match handleSlot n handle with
  | none => .error .badState
  | some i =>
      if (operations i).inUse ∧ (operations i).type = type ∧ (operations i).owner = partitionId then
        .ok i
      else .error .badState

theorem handleSlot_succ (i : Fin n) : handleSlot n (i.val + 1) = some i :=
  dif_pos ⟨Nat.succ_ne_zero _, i.isLt⟩

end

end TrustedFirmwareM.Crypto
