import RunWatch.Api.Client
import RunWatch.Session.Status
namespace RunWatch
open Json

inductive TaskEnd where
  | cancelled
  -- Abnormally, once it is cancelled.
  | broken
  | finished
deriving DecidableEq

structure Handle where
  task : TaskEnd
  client : Api.Client
  isCancelled : Bool := false

inductive ClientSource where
  | runningMonitor (client : Api.Client)
  | surroundings (client : Api.Client)

def ClientSource.client : ClientSource → Api.Client
  | .runningMonitor client | .surroundings client => client

structure Desk where
  monitor : Option Handle
  status : MonitorStatus

namespace Desk

def fresh : Desk := ⟨none,.stopped defaultPushUrl (some "monitor idle")⟩

def start (d : Desk) (task : TaskEnd) (client : Api.Client) : Desk :=
  { d with monitor:=some { task:=task, client:=client } }

def stop (d : Desk) : Desk × Option Handle :=
  ({ d with monitor:=none },d.monitor.map fun handle => { handle with isCancelled:=true })

def setStatus (d : Desk) (status : MonitorStatus) : Desk := { d with status:=status }

def markStopped (d : Desk) (reason : String) : Desk :=
  { d with status:=.stopped d.status.pushUrl (some reason) }

def clientSource (d : Desk) (env : Environment) : Except Fault ClientSource :=
  match d.monitor with
  | some handle => .ok (.runningMonitor handle.client)
  | none => (Settings.ofRequest {} env).map fun s => .surroundings ⟨s.apiBaseUrl,s.pushUrl⟩

def client (d : Desk) (env : Environment) : Except Fault Api.Client :=
  (d.clientSource env).map ClientSource.client

def killJob (d : Desk) (env : Environment) (request : Api.KillRequest) :
    Except Fault (Api.Call Api.KillReceipt) :=
  (d.client env).bind fun client => client.kill request.runId

def chartMarkers (d : Desk) (env : Environment) (request : Chart.MarkerRequest) :
    Except Fault (Api.Call (List Chart.Marker)) :=
  (d.client env).bind fun client => client.runMarkers request

def health (d : Desk) : Json :=
  .object [("status",.text "ok"),("monitor",encode d.status.state),
    ("monitorRunning",encode d.status.isRunning)]

end Desk
end RunWatch
