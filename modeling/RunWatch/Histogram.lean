import RunWatch.Fault
import RunWatch.Json.Fields
namespace RunWatch.Histogram
open Json

-- The arithmetic that bins are laid out in. Over doubles every step is rounded;
-- over the rationals the bins partition the axis.
class Axis (α : Type) where
  add : α → α → α
  sub : α → α → α
  mul : α → α → α
  div : α → α → α
  ofNat : Nat → α
  less : α → α → Bool
  floor : α → α
  ceil : α → α
  finite : α → Bool
  undefined : α → Bool
  whole : α → Nat

-- A double without what stands behind its point; from 2^52 on there is nothing. A zero keeps
-- the sign of the double.
def truncated (f : Float) : Float :=
  if f.abs < 4503599627370496.0 then
    let size := f.abs.toUInt64.toFloat
    if f.toBits >>> 63 = 0 then size else -size
  else f

def wholeBelow (f : Float) : Float :=
  let t := truncated f
  if f < t then t - 1.0 else t

def wholeAbove (f : Float) : Float :=
  let t := truncated f
  if t < f then t + 1.0 else t

instance : Axis Float where
  add a b := a + b
  sub a b := a - b
  mul a b := a * b
  div a b := a / b
  ofNat n := Float.ofNat n
  less a b := a < b
  floor := wholeBelow
  ceil := wholeAbove
  finite := Float.isFinite
  undefined := Float.isNaN
  whole a := a.toUInt64.toNat

variable {α : Type} [Axis α]
open Axis

structure Bounds (α : Type) where
  low : α
  high : α
  step : α

inductive BoundsFault (α : Type) where
  | notFinite
  | withoutRange
  | unusable
  | tooFine (bins : α)

def Bounds.steps (b : Bounds α) : α := ceil (div (sub b.high b.low) b.step)

def Bounds.count (b : Bounds α) : Except (BoundsFault α) Nat :=
  if !(finite b.low && finite b.high && finite b.step) then .error .notFinite
  else if !(less (ofNat 0) b.step) || !(less b.low b.high) then .error .withoutRange
  else if !(finite b.steps) || less b.steps (ofNat 1) then .error .unusable
  else if less (ofNat maxBins) b.steps then .error (.tooFine b.steps)
  else .ok (whole b.steps)

def clamp (low high v : α) : α := if less v low then low else if less high v then high else v

def Bounds.index? (b : Bounds α) (last : Nat) (v : α) : Option Nat :=
  if undefined v then none
  else some (whole (clamp (ofNat 0) (ofNat last) (floor (div (sub v b.low) b.step))))

structure Bin (α : Type) where
  lower : α
  upper : α
  center : α
  count : Nat

def Bounds.bin (b : Bounds α) (index count : Nat) : Bin α :=
  let lower := add b.low (mul (ofNat index) b.step)
  ⟨lower,add lower b.step,add lower (div b.step (ofNat 2)),count⟩

def Bounds.fill (b : Bounds α) (bins : Nat) (values : List α) : List (Bin α) :=
  let hits := values.filterMap (b.index? (bins - 1))
  (List.range bins).map fun index => b.bin index (hits.count index)

def Bounds.bins (b : Bounds α) (values : List α) : Except (BoundsFault α) (List (Bin α)) :=
  b.count.map fun count => b.fill count values

structure LabelledBin where
  rangeLabel : String
  center : Float
  count : UInt64

def LabelledBin.fields : List Field := [required "rangeLabel",required "center",required "count"]

def LabelledBin.ofSlots? : List (Option Json) → Option LabelledBin
  | [label,center,count] => do return ⟨← given? label,← given? center,← given? count⟩
  | _ => none

instance : Coded LabelledBin where
  encode b := record LabelledBin.fields [encode b.rangeLabel,encode b.center,encode b.count]
  decode? v := (slots? LabelledBin.fields v).bind LabelledBin.ofSlots?

def boundLabel (f : Float) : String :=
  let rounded := (f * 1e6).round / 1e6
  if rounded == 0.0 then "0" else plainNumber rounded

def Bin.labelled (b : Bin Float) : LabelledBin :=
  ⟨boundLabel b.lower ++ " to " ++ boundLabel b.upper,b.center,UInt64.ofNat b.count⟩

def BoundsFault.cause (b : Bounds Float) : BoundsFault Float → ArgumentFault
  | .notFinite => .histogramNotFinite
  | .withoutRange => .histogramWithoutRange
  | .unusable => .histogramUnusable b.low b.high b.step
  | .tooFine bins => .histogramTooFine bins

def binValues (values : List Float) (b : Bounds Float) : Except Fault (List LabelledBin) :=
  match b.bins values with
  | .ok bins => .ok (bins.map Bin.labelled)
  | .error fault => .error (.argument (fault.cause b))

structure Request where
  values : List Float
  min : Float
  max : Float
  step : Float

def Request.fields : List Field := [required "values",required "min",required "max",required "step"]

def Request.ofSlots? : List (Option Json) → Option Request
  | [values,min,max,step] => do return ⟨← given? values,← given? min,← given? max,← given? step⟩
  | _ => none

instance : Coded Request where
  encode r := record Request.fields [encode r.values,encode r.min,encode r.max,encode r.step]
  decode? v := (slots? Request.fields v).bind Request.ofSlots?

def Request.answer (r : Request) : Except Fault (List LabelledBin) :=
  binValues r.values ⟨r.min,r.max,r.step⟩

end RunWatch.Histogram
