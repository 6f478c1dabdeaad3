import RunWatch.Api.Exchange
import RunWatch.Chart.Marker
import RunWatch.Json.Reading
import RunWatch.Records.Job
import RunWatch.Records.Position
import RunWatch.Records.Session
import RunWatch.Roster.Collection
namespace RunWatch.Api
open Json

def isRunIdChar (c : Char) : Bool := c.isAlphanum || c == '-' || c == '_' || c == '.'

def isRunId (id : String) : Bool := !id.isEmpty && id.toList.all isRunIdChar

structure RunId where
  text : String
  allowed : isRunId text = true

def RunId.read (id : String) : Except Fault RunId :=
  let inner := Text.trim id
  if allowed : isRunId inner = true then .ok ⟨inner,allowed⟩ else .error (.argument (.runId inner))

structure Client where
  apiBaseUrl : String
  pushUrl : String

namespace Client

def collectionPath : Collection → String
  | .jobs => "/api/jobs"
  | .discoveryRuns => "/api/discovery/runs"
  | .positions => "/api/positions"
  | .sessions => "/api/sessions"

def cleanupPath? : Collection → Option String
  | .positions => none
  | c => some (collectionPath c ++ "/cleanup-stale")

def candlesPath (id : RunId) : String := "/api/runs/" ++ id.text ++ "/candles"

def killPath (id : RunId) : String := collectionPath .jobs ++ "/" ++ id.text ++ "/kill"

def request (c : Client) (method : Method) (path : String) : Request :=
  ⟨method,.ofText (c.apiBaseUrl ++ path)⟩

def readRecords (ρ : Type) {α : Type} [Row ρ α] (response : Response) : Except Fault (List α) :=
  match (Reading.polled.readBytes? response.content).bind (readRows? (ρ:=ρ)) with
  | some rows => acceptAll rows
  | none => .error (.request .undecodable)

def list (c : Client) (ρ : Type) {α : Type} [Row ρ α] (path : String) : Call (List α) :=
  ⟨c.request .get path,readRecords ρ⟩

def jobs (c : Client) : Call (List JobRecord) := c.list JobRow (collectionPath .jobs)

def discoveryRuns (c : Client) : Call (List JobRecord) := c.list JobRow (collectionPath .discoveryRuns)

def positions (c : Client) : Call (List PositionRecord) := c.list PositionRow (collectionPath .positions)

def sessions (c : Client) : Call (List SessionRecord) := c.list SessionRow (collectionPath .sessions)

def candles (c : Client) (runId : String) : Except Fault (Call (List Chart.Candle)) := do
  let id ← RunId.read runId
  return (c.list Chart.CandleRow (candlesPath id)).map Chart.tidy

end Client

structure KillRequest where
  runId : String

def KillRequest.fields : List Field := [required "runId"]

def KillRequest.ofSlots? : List (Option Json) → Option KillRequest
  | [runId] => do return ⟨← given? runId⟩
  | _ => none

instance : Coded KillRequest where
  encode r := record KillRequest.fields [encode r.runId]
  decode? v := (slots? KillRequest.fields v).bind KillRequest.ofSlots?

structure KillReceipt where
  runId : String
  accepted : Bool

def KillReceipt.document (r : KillReceipt) : Json :=
  .object [("runId",encode r.runId),("accepted",encode r.accepted)]

namespace Client

-- Whatever the body says, an answer that is no error accepts the request.
def kill (c : Client) (runId : String) : Except Fault (Call KillReceipt) := do
  let id ← RunId.read runId
  return ⟨c.request .post (killPath id),fun _ => .ok ⟨id.text,true⟩⟩

def cleanupRequest? (c : Client) (collection : Collection) : Option Request :=
  (cleanupPath? collection).map (c.request .post)

-- Has the server put the stale records of a collection away. Every fault is one of
-- the cleanup.
def cleanStale (c : Client) (collection : Collection) (network : Network) : Except Fault Unit :=
  match c.cleanupRequest? collection with
  | none => .error (.remediation collection.name "collection has no cleanup endpoint")
  | some r => match deliver network r with
    | .ok _ => .ok ()
    | .error fault => .error (.remediation collection.name fault.message)

def runMarkers (c : Client) (request : Chart.MarkerRequest) : Except Fault (Call (List Chart.Marker)) := do
  let call ← c.candles request.runId
  return call.bind fun candles => Chart.runMarkers candles request

end Client
end RunWatch.Api
