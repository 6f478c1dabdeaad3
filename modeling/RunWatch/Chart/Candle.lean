import RunWatch.Records.Row
namespace RunWatch.Chart
open Json

structure Candle where
  openTime : Int64
  opening : Float
  high : Float
  low : Float
  closing : Float
  volume : Float

def Candle.fields : List Field :=
  [required "openTime",required "open",required "high",required "low",required "close",required "volume"]

def Candle.ofSlots? : List (Option Json) → Option Candle
  | [openTime,opening,high,low,closing,volume] => do
    return ⟨← given? openTime,← given? opening,← given? high,← given? low,← given? closing,← given? volume⟩
  | _ => none

instance : Coded Candle where
  encode c := record Candle.fields
    [encode c.openTime,encode c.opening,encode c.high,encode c.low,encode c.closing,encode c.volume]
  decode? v := (slots? Candle.fields v).bind Candle.ofSlots?

structure CandleRow where
  values : Candle

def CandleRow.fields : List Field :=
  [required "open_time",required "open",required "high",required "low",required "close",required "volume"]

def CandleRow.accept (row : CandleRow) : Except Fault Candle :=
  let c := row.values
  if c.opening.isFinite && c.high.isFinite && c.low.isFinite && c.closing.isFinite && c.volume.isFinite
  then .ok { c with volume:=if 0.0 < c.volume then c.volume else 0.0 }
  else .error (.argument .candleNotFinite)

instance : Row CandleRow Candle where
  read? v := ((slots? CandleRow.fields v).bind Candle.ofSlots?).map CandleRow.mk
  accept := CandleRow.accept

def distinctBars : List Candle → List Candle
  | [] => []
  | c :: rest => c :: (distinctBars (rest.dropWhile fun d => d.openTime == c.openTime))
termination_by cs => cs.length
decreasing_by
  exact Nat.lt_succ_of_le (List.dropWhile_suffix _).length_le

def tidy (candles : List Candle) : List Candle :=
  distinctBars (candles.mergeSort fun a b => a.openTime ≤ b.openTime)

end RunWatch.Chart
