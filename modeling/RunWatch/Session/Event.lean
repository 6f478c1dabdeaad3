import RunWatch.Board
import RunWatch.Flash
import RunWatch.Session.Status
namespace RunWatch.Session
open Json

inductive Event where
  | status (s : MonitorStatus)
  | snapshot (collection : Collection) (view : View)
  | progress (update : ProgressUpdate)
  | flash (change : FlashChange)
  | remediationFailed (failure : RemediationFailure)

def Event.name : Event → String
  | .status _ => "monitor_status"
  | .snapshot collection _ => collection.snapshotEvent
  | .progress _ => "discovery_progress"
  | .flash _ => "flash_update"
  | .remediationFailed _ => "remediation_failed"

def Event.document : Event → Json
  | .status s => encode s
  | .snapshot _ view => view.document
  | .progress update => update.document
  | .flash change => change.document
  | .remediationFailed failure => failure.document

inductive Request where
  | connect
  | fetch (collection : Collection)
  | cleanup (collection : Collection) (id : Nat)

inductive Output where
  | event (e : Event)
  | request (r : Request)

end RunWatch.Session
