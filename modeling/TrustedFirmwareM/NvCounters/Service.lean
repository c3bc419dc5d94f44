import TrustedFirmwareM.Lib.Counters
import TrustedFirmwareM.Lib.Numerals
import Mathlib.Data.BitVec

/-!
# Non-volatile counters

What the implementations share: the functions that are called, and what their results mean for the
counters.
-/

namespace TrustedFirmwareM.NvCounters

open Counters

/-- `enum tfm_plat_err_t`, as far as the counters return it. -/
inductive PlatErr
  /-- `TFM_PLAT_ERR_SUCCESS`. -/
  | success
  /-- `TFM_PLAT_ERR_SYSTEM_ERR`. -/
  | systemErr
  /-- `TFM_PLAT_ERR_MAX_VALUE`. -/
  | maxValue
  /-- `TFM_PLAT_ERR_INVALID_INPUT`. -/
  | invalidInput
  deriving DecidableEq

/-- `uint32_t`. -/
abbrev Word := BitVec 32

/-- What has come of a change, by the status that has been returned. -/
def outcomeOf : Option PlatErr → Outcome
  | some .success => .done
  | some .invalidInput | some .maxValue => .refused
  | some .systemErr | none => .unknown

/-- Requests. -/
inductive Request
  /-- `tfm_plat_read_nv_counter`. -/
  | read (counterId size : ℕ)
  /-- `tfm_plat_set_nv_counter`. -/
  | set (counterId : ℕ) (value : Word)
  /-- `tfm_plat_increment_nv_counter`. -/
  | increment (counterId : ℕ)

variable {n : ℕ}

/-- What a request with a result, if it has returned, means for the counters. -/
def Request.event (result : Option (PlatErr × Word)) : Request → Option (Event (Fin n) Word)
  | .read counterId _ =>
      match result with
      | some (.success, value) =>
          if h : counterId < n then some (.read ⟨counterId, h⟩ value) else none
      | _ => none
  | .set counterId value =>
      if h : counterId < n then some (.set ⟨counterId, h⟩ value (outcomeOf (result.map Prod.fst)))
      else none
  | .increment counterId =>
      if h : counterId < n then some (.increment ⟨counterId, h⟩ (outcomeOf (result.map Prod.fst)))
      else none

/-- The values after an event, if there is one. -/
def After (values : Fin n → Word) : Option (Event (Fin n) Word) → (Fin n → Word) → Prop
  | some event, values' => Counters.Step (· + 1) values event values'
  | none, values' => values' = values

end TrustedFirmwareM.NvCounters
