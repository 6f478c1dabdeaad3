import RunWatch.Records.Monitored
import RunWatch.Records.Status
import RunWatch.Text.Blank
namespace RunWatch
open Json

structure SessionRecord where
  id : String
  status : JobStatus
  startedAt : Option Int64
  heartbeatAt : Option Int64
  isStaleFlag : Bool
  totalPnl : Option Float
  equity : Option Float

def SessionRecord.fields : List Field :=
  [required "id",required "status",optional "startedAt",optional "heartbeatAt",required "isStaleFlag",
   optional "totalPnl",optional "equity"]

def SessionRecord.ofSlots? : List (Option Json) → Option SessionRecord
  | [id,status,startedAt,heartbeatAt,flag,totalPnl,equity] => do
    return ⟨← given? id,← given? status,← givenOr? none startedAt,← givenOr? none heartbeatAt,
      ← given? flag,← givenOr? none totalPnl,← givenOr? none equity⟩
  | _ => none

instance : Coded SessionRecord where
  encode r := record SessionRecord.fields [encode r.id,encode r.status,encode r.startedAt,
    encode r.heartbeatAt,encode r.isStaleFlag,encode r.totalPnl,encode r.equity]
  decode? v := (slots? SessionRecord.fields v).bind SessionRecord.ofSlots?

structure SessionPatch where
  totalPnl : Option Float
  equity : Option Float

instance : Monitored SessionRecord where
  Patch := SessionPatch
  id := SessionRecord.id
  patch p r := { r with totalPnl:=p.totalPnl.or r.totalPnl, equity:=p.equity.or r.equity }
  isStale r now staleAfter := heartbeatIsStale r.status r.heartbeatAt r.isStaleFlag now staleAfter
  carryForward previous polled := { polled with status:=previous.status.advance polled.status }
  id_patch _ _ := rfl
  id_carryForward _ _ := rfl

structure SessionRow where
  sessionId : String
  status : JobStatus
  startedAt : Option Int64
  heartbeatAt : Option Int64
  isStale : Bool
  totalPnl : Option Float
  equity : Option Float

def SessionRow.fields : List Field :=
  [required "session_id",required "status",defaulted "started_at",defaulted "heartbeat_at",
   defaulted "is_stale",defaulted "total_pnl",defaulted "equity"]

def SessionRow.ofSlots? : List (Option Json) → Option SessionRow
  | [sessionId,status,startedAt,heartbeatAt,isStale,totalPnl,equity] => do
    return ⟨← given? sessionId,← given? status,← givenOr? none startedAt,← givenOr? none heartbeatAt,
      ← givenOr? false isStale,← givenOr? none totalPnl,← givenOr? none equity⟩
  | _ => none

def SessionRow.accept (row : SessionRow) : Except Fault SessionRecord :=
  if Text.allBlank row.sessionId then .error (.argument .sessionWithoutId)
  else .ok ⟨row.sessionId,row.status,row.startedAt,row.heartbeatAt,row.isStale,row.totalPnl,row.equity⟩

instance : Row SessionRow SessionRecord where
  read? v := (slots? SessionRow.fields v).bind SessionRow.ofSlots?
  accept := SessionRow.accept

end RunWatch
