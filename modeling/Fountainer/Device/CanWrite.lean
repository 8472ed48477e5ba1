import Fountainer.Lib.Hex
import Fountainer.Network.DpWrite
import Fountainer.Canopen.Types

/-!
# Writes from the CAN bus

The object dictionary glue of `canopen_task.c` for a write: the point `i` is the object
`0x2000 + i`, its raw bytes become a JSON value, and the value takes the path of every
other write. Allocations succeed.
-/

namespace Fountainer.Device

open Bytes CFloat
open Datapoints
open Network (DpAnswer taskComApplyDpWrite)
open Canopen (abortReadOnly abortNoObject abortNoSubindex abortTypeMismatch abortValueRange
  abortParamIncompat)

-- The abort codes `CO_ABORT_*` that only the glue raises.
def abortTypeTooHigh : UInt32 := 0x06070012
def abortTypeTooLow : UInt32 := 0x06070013
def abortGeneral : UInt32 := 0x08000000

/-- `CO_IDX_DP_BASE`. -/
def coIdxDpBase : ℕ := 0x2000

/-- `CO_IDX_DP_COUNT`. -/
def coIdxDpCount : ℕ := 0x2FFF

/-- `CO_IDX_DESC_BASE`. -/
def coIdxDescBase : ℕ := 0x3000

/-- `abort_from_dp_error`. -/
def abortFromDpError : Option String → UInt32
  | some "out_of_range" => abortValueRange
  | some "type_mismatch" => abortTypeMismatch
  | some "read_only" => abortReadOnly
  | some "unknown_name" => abortNoObject
  | some "constraint_violation" => abortParamIncompat
  | some "invalid_network_save" => abortValueRange
  | _ => abortGeneral

/-- `0x%016llX` of a 64-bit value in memory. -/
def hexU64 (m : Mem) : CString where
  bytes := 48 :: 120 :: Hex.text Hex.upperDigit (read m 0 8).reverse
  nonzero := by
    simp only [List.forall_mem_cons]
    exact ⟨by decide, by decide, Hex.text_ne_zero Hex.upperDigit_ne_zero⟩

/-- The value of `json_from_raw` for a type other than `DP_STR`, from the bytes at the front
    of `m`. -/
def rawValue (type : DpType) (m : Mem) : Except UInt32 Json :=
  match type with
  | .bool => .ok (.bool (m 0 != 0))
  | .u8 | .enum => .ok (.number (m 0).toFloat)
  | .i8 => .ok (.number (Float.ofInt (m 0).toInt8.toInt))
  | .u16 => .ok (.number (rdU16 m 0).toFloat)
  | .i16 => .ok (.number (Float.ofInt (rdU16 m 0).toInt16.toInt))
  | .u32 => .ok (.number (rdU32 m 0).toFloat)
  | .i32 => .ok (.number (Float.ofInt (rdU32 m 0).toInt32.toInt))
  | .f32 => .ok (.number (widen (Float32.ofBits (rdU32 m 0))))
  | .u64 => .ok (.string (hexU64 m))
  | .str => .error abortTypeMismatch

/-- `json_from_raw`. -/
def jsonFromRaw (d : DpPoint) (buf : List UInt8) : Except UInt32 Json :=
  if d.type = .str then
    if dpStrMax ≤ buf.length then .error abortTypeTooHigh
    else .ok (.string ⟨buf.takeWhile (· ≠ 0), fun b hb => by
      simpa using List.all_eq_true.mp (List.all_takeWhile (p := (· ≠ 0)) (l := buf)) b hb⟩)
  else if buf.length ≠ d.type.size then
    .error (if d.type.size < buf.length then abortTypeTooHigh else abortTypeTooLow)
  else rawValue d.type (write (fun _ => 0) 0 buf)

/-- The checks of `od_write_cb` on the address: the point that is written. -/
def odWriteTarget (index : UInt16) (sub : UInt8) : Except UInt32 DpDesc :=
  let i := index.toNat
  if i = coIdxDpCount ∨ (coIdxDescBase ≤ i ∧ i < coIdxDescBase + dpList.length) then
    .error abortReadOnly
  else if i < coIdxDpBase then .error abortNoObject
  else
    match (gDp dpList)[i - coIdxDpBase]? with
    | none => .error abortNoObject
    | some d =>
      if sub ≠ 0 then .error abortNoSubindex
      else if d.access = .ro then .error abortReadOnly
      else .ok d

/-- The abort code for an answer: the error under the point's own name, the first error, or
    the error of the whole write. -/
def abortOf (name : String) (answer : DpAnswer) : UInt32 :=
  if answer.applied then 0
  else
    let own := answer.errors.lookup name
    let first := answer.errors.head?.map (·.2)
    abortFromDpError (((own <|> first).map DpError.text) <|> answer.error)

/-- `od_write_cb`: the abort code, 0 for success, and the image. -/
def odWriteCb (reboots : Bool) (img : Mem) (index : UInt16) (sub : UInt8) (buf : List UInt8) :
    UInt32 × Mem :=
  match odWriteTarget index sub with
  | .error code => (code, img)
  | .ok d =>
    match jsonFromRaw d.toDpPoint buf with
    | .error code => (code, img)
    | .ok v =>
      let r := taskComApplyDpWrite reboots img (.object [(d.name, v)])
      (abortOf d.name r.1, r.2)

end Fountainer.Device
