import RunWatch.Fault
import RunWatch.Json.Fields
namespace RunWatch.Series
open Json

structure Point where
  t : Int64
  value : Float

def Point.fields : List Field := [required "t",required "value"]

def Point.ofSlots? : List (Option Json) → Option Point
  | [t,value] => do return ⟨← given? t,← given? value⟩
  | _ => none

instance : Coded Point where
  encode p := record Point.fields [encode p.t,encode p.value]
  decode? v := (slots? Point.fields v).bind Point.ofSlots?

def returns : List Point → List Float
  | p :: q :: rest =>
    (if p.value == 0.0 then 0.0 else (q.value - p.value) / p.value) :: returns (q :: rest)
  | _ => []

-- Added from left to right. Minus zero is the sum of nothing.
def sum (values : List Float) : Float := values.foldl (· + ·) (-0.0)

def meanStd (values : List Float) : Float × Float :=
  if values.isEmpty then (0.0,0.0) else
  let count := Float.ofNat values.length
  let mean := sum values / count
  let variance := sum (values.map fun v => (v - mean) * (v - mean)) / count
  (mean,variance.sqrt)

def power (product square : Float) (n : Nat) : Float :=
  let product := if n % 2 == 1 then product * square else product
  if h : n / 2 = 0 then product else power product (square * square) (n / 2)
termination_by n
decreasing_by omega

def tenTo (decimals : Int) : Float :=
  let size := power 1.0 10.0 decimals.natAbs
  if decimals < 0 then 1.0 / size else size

def roundTo (value : Float) (decimals : Int) : Float :=
  let scale := tenTo decimals
  (value * scale).round / scale

def annualDays : Float := 252.0

def ratio (trailing : List Float) : Float :=
  let (mean,std) := meanStd trailing
  roundTo (if std == 0.0 then 0.0 else mean / std * annualDays.sqrt) 3

def stretches (size : Nat) : List Float → List (List Float)
  | [] => []
  | v :: rest =>
    if size ≤ rest.length + 1 then (v :: rest).take size :: stretches size rest else []

def rolling (window : Nat) (points : List Point) : List Point :=
  if window = 0 then [] else
  List.zipWith (fun closing trailing => ⟨closing.t,ratio trailing⟩)
    (points.drop window) (stretches window (returns points))

structure RatioRequest where
  points : List Point
  window : UInt64

def RatioRequest.fields : List Field := [required "points",required "window"]

def RatioRequest.ofSlots? : List (Option Json) → Option RatioRequest
  | [points,window] => do return ⟨← given? points,← given? window⟩
  | _ => none

instance : Coded RatioRequest where
  encode r := record RatioRequest.fields [encode r.points,encode r.window]
  decode? v := (slots? RatioRequest.fields v).bind RatioRequest.ofSlots?

def rollingRatio (request : RatioRequest) : Except Fault (List Point) :=
  if request.window = 0 then .error (.argument .emptyWindow)
  else .ok (rolling request.window.toNat request.points)

def fromEnd? (values : List Float) (back : Nat) : Option Float := values.reverse[back]?

-- Whether the values moved by less than the threshold over the last `window` steps'
-- two ends. It takes one value more than the window to tell.
def converged (history : List Float) (window : Nat) (threshold : Float) : Bool :=
  if window = 0 || history.length < window + 1 then false else
  match fromEnd? history 0, fromEnd? history (window - 1) with
  | some last, some first => (last - first).abs < threshold
  | _, _ => false

end RunWatch.Series
