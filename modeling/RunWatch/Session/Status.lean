import RunWatch.Json.Fields
import RunWatch.Settings
namespace RunWatch
open Json

inductive ConnectionState where
  | connecting | connected | disconnected | stopped
deriving DecidableEq

instance : Coded ConnectionState where
  encode
    | .connecting => .text "connecting"
    | .connected => .text "connected"
    | .disconnected => .text "disconnected"
    | .stopped => .text "stopped"
  decode? := word? [("connecting",.connecting),("connected",.connected),
    ("disconnected",.disconnected),("stopped",.stopped)]

structure MonitorStatus where
  state : ConnectionState
  pushUrl : String
  reconnectAttempt : UInt32
  lastMessageAt : Option Int64
  staleJobs : UInt64
  staleSessions : UInt64
  reason : Option String

def MonitorStatus.fields : List Field :=
  [required "state",required "pushUrl",required "reconnectAttempt",optional "lastMessageAt",
   required "staleJobs",required "staleSessions",optional "reason"]

def MonitorStatus.ofSlots? : List (Option Json) → Option MonitorStatus
  | [state,pushUrl,attempt,lastMessageAt,staleJobs,staleSessions,reason] => do
    return ⟨← given? state,← given? pushUrl,← given? attempt,← givenOr? none lastMessageAt,
      ← given? staleJobs,← given? staleSessions,← givenOr? none reason⟩
  | _ => none

instance : Coded MonitorStatus where
  encode s := record MonitorStatus.fields [encode s.state,encode s.pushUrl,encode s.reconnectAttempt,
    encode s.lastMessageAt,encode s.staleJobs,encode s.staleSessions,encode s.reason]
  decode? v := (slots? MonitorStatus.fields v).bind MonitorStatus.ofSlots?

def MonitorStatus.stopped (pushUrl : String) (reason : Option String) : MonitorStatus :=
  ⟨.stopped,pushUrl,0,none,0,0,reason⟩

def MonitorStatus.isRunning (s : MonitorStatus) : Bool := s.state != .stopped

end RunWatch
