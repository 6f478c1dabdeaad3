import RunWatch.Records.Monitored
import RunWatch.Text.Blank
namespace RunWatch
open Json

inductive Direction where
  | long | short
deriving DecidableEq

instance : Coded Direction where
  encode
    | .long => .text "long"
    | .short => .text "short"
  decode? := word? [("long",.long),("short",.short)]

structure PositionRecord where
  symbol : String
  direction : Direction
  entryPrice : Float
  quantity : Float
  leverage : Float
  unrealizedPnl : Float
  pushedAt : Option Int64

def PositionRecord.fields : List Field :=
  [required "symbol",required "direction",required "entryPrice",required "quantity",
   required "leverage",required "unrealizedPnl",optional "pushedAt"]

def PositionRecord.ofSlots? : List (Option Json) → Option PositionRecord
  | [symbol,direction,entryPrice,quantity,leverage,pnl,pushedAt] => do
    return ⟨← given? symbol,← given? direction,← given? entryPrice,← given? quantity,
      ← given? leverage,← given? pnl,← givenOr? none pushedAt⟩
  | _ => none

instance : Coded PositionRecord where
  encode r := record PositionRecord.fields [encode r.symbol,encode r.direction,encode r.entryPrice,
    encode r.quantity,encode r.leverage,encode r.unrealizedPnl,encode r.pushedAt]
  decode? v := (slots? PositionRecord.fields v).bind PositionRecord.ofSlots?

structure PositionPatch where
  pushedAt : Int64

instance : Monitored PositionRecord where
  Patch := PositionPatch
  id := PositionRecord.symbol
  patch p r := { r with pushedAt:=some p.pushedAt }
  isStale _ _ _ := false
  carryForward _ polled := polled
  id_patch _ _ := rfl
  id_carryForward _ _ := rfl

def symbolName (s : String) : String := Text.upper (Text.trim s)

structure PositionRow where
  symbol : String
  direction : String
  entryPrice : Float
  quantity : Float
  leverage : Float
  unrealizedPnl : Float

def PositionRow.fields : List Field :=
  [required "symbol",required "direction",required "entry_price",required "quantity",
   required "leverage",required "unrealized_pnl"]

def PositionRow.ofSlots? : List (Option Json) → Option PositionRow
  | [symbol,direction,entryPrice,quantity,leverage,pnl] => do
    return ⟨← given? symbol,← given? direction,← given? entryPrice,← given? quantity,
      ← given? leverage,← given? pnl⟩
  | _ => none

def Direction.ofWord (word : String) : Except Fault Direction :=
  let word := Text.lower (Text.trim word)
  if word = "long" ∨ word = "buy" then .ok .long
  else if word = "short" ∨ word = "sell" then .ok .short
  else .error (.argument (.unknownDirection word))

def PositionRow.accept (row : PositionRow) : Except Fault PositionRecord := do
  let direction ← Direction.ofWord row.direction
  if row.entryPrice.isFinite && row.quantity.isFinite && row.leverage.isFinite && row.unrealizedPnl.isFinite
  then .ok ⟨symbolName row.symbol,direction,row.entryPrice,row.quantity,row.leverage,row.unrealizedPnl,none⟩
  else .error (.argument .positionNotFinite)

instance : Row PositionRow PositionRecord where
  read? v := (slots? PositionRow.fields v).bind PositionRow.ofSlots?
  accept := PositionRow.accept

end RunWatch
