import RunWatch.Chart.Candle
import RunWatch.Chart.Grid
namespace RunWatch.Chart
open Json

inductive Side where
  | buy | sell
deriving DecidableEq

inductive MarkerKind where
  | entry | exit
deriving DecidableEq

instance : Coded Side where
  encode
    | .buy => .text "buy"
    | .sell => .text "sell"
  decode? := word? [("buy",.buy),("sell",.sell)]

instance : Coded MarkerKind where
  encode
    | .entry => .text "entry"
    | .exit => .text "exit"
  decode? := word? [("entry",.entry),("exit",.exit)]

structure Trade where
  time : Int64
  kind : MarkerKind
  side : Side
  label : String

def Trade.fields : List Field := [required "time",required "kind",required "side",required "label"]

def Trade.ofSlots? : List (Option Json) → Option Trade
  | [time,kind,side,label] => do return ⟨← given? time,← given? kind,← given? side,← given? label⟩
  | _ => none

instance : Coded Trade where
  encode t := record Trade.fields [encode t.time,encode t.kind,encode t.side,encode t.label]
  decode? v := (slots? Trade.fields v).bind Trade.ofSlots?

structure Marker where
  snappedTime : Int64
  eventTime : Int64
  kind : MarkerKind
  side : Side
  label : String

def Marker.fields : List Field :=
  [required "snappedTime",required "eventTime",required "kind",required "side",required "label"]

def Marker.ofSlots? : List (Option Json) → Option Marker
  | [snapped,event,kind,side,label] => do
    return ⟨← given? snapped,← given? event,← given? kind,← given? side,← given? label⟩
  | _ => none

instance : Coded Marker where
  encode m := record Marker.fields
    [encode m.snappedTime,encode m.eventTime,encode m.kind,encode m.side,encode m.label]
  decode? v := (slots? Marker.fields v).bind Marker.ofSlots?

def TimeGrid.mark (g : TimeGrid) (t : Trade) : Marker :=
  ⟨g.snap t.time,t.time,t.kind,t.side,t.label⟩

def placeMarkers (g : TimeGrid) (trades : List Trade) : List Marker :=
  (trades.map g.mark).mergeSort fun a b => a.snappedTime ≤ b.snappedTime

structure MarkerRequest where
  runId : String
  trades : List Trade

def MarkerRequest.fields : List Field := [required "runId",required "trades"]

def MarkerRequest.ofSlots? : List (Option Json) → Option MarkerRequest
  | [runId,trades] => do return ⟨← given? runId,← given? trades⟩
  | _ => none

instance : Coded MarkerRequest where
  encode r := record MarkerRequest.fields [encode r.runId,encode r.trades]
  decode? v := (slots? MarkerRequest.fields v).bind MarkerRequest.ofSlots?

def runMarkers (candles : List Candle) (request : MarkerRequest) : Except Fault (List Marker) := do
  let grid ← TimeGrid.ofOpenTimes (candles.map Candle.openTime)
  return placeMarkers grid request.trades

end RunWatch.Chart
