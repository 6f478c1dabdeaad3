import RunWatch.Push.Message
import RunWatch.Records.Position
import RunWatch.Records.Session
import RunWatch.Roster.Operation
import RunWatch.Settings
namespace RunWatch
open Json

structure ProgressUpdate where
  collection : Collection
  runId : String
  sample : Sample
  converged : Bool

def ProgressUpdate.document (u : ProgressUpdate) : Json :=
  .object [("collection",encode u.collection),("runId",encode u.runId),("sample",encode u.sample),
    ("converged",encode u.converged)]

structure RemediationFailure where
  collection : Collection
  reason : String

def RemediationFailure.document (f : RemediationFailure) : Json :=
  .object [("collection",encode f.collection),("reason",encode f.reason)]

structure Effects where
  changed : Option Collection := none
  remediate : Option Collection := none
  progress : Option ProgressUpdate := none
  flash : Option String := none
  refresh : Option Collection := none

def Effects.ofOutcome (collection : Collection) : Option Outcome → Effects
  | none => {}
  | some outcome =>
    { changed:=some collection, remediate:=if outcome.remediate then some collection else none }

structure Board where
  jobs : Roster JobRecord
  discoveryRuns : Roster JobRecord
  positions : Roster PositionRecord
  sessions : Roster SessionRecord
  generations : Generations
  sessionId : Option String
  lastMessageAt : Option Int64

inductive Poll where
  | jobs (result : Except Fault (List JobRecord))
  | discoveryRuns (result : Except Fault (List JobRecord))
  | positions (result : Except Fault (List PositionRecord))
  | sessions (result : Except Fault (List SessionRecord))

def Poll.collection : Poll → Collection
  | .jobs _ => .jobs
  | .discoveryRuns _ => .discoveryRuns
  | .positions _ => .positions
  | .sessions _ => .sessions

inductive View where
  | jobs (s : Snapshot JobRecord)
  | positions (s : Snapshot PositionRecord)
  | sessions (s : Snapshot SessionRecord)

def View.document : View → Json
  | .jobs s => s.document
  | .positions s => s.document
  | .sessions s => s.document

def View.revision : View → UInt64
  | .jobs s => s.revision
  | .positions s => s.revision
  | .sessions s => s.revision

def convergenceWindow : Nat := 5
def convergenceThreshold : Float := 0.001

namespace Board

def start (s : Settings) : Board :=
  let staleAfter := Int64.ofInt s.staleAfterMs.toNat
  ⟨.fresh .jobs staleAfter,.fresh .discoveryRuns staleAfter,.fresh .positions staleAfter,
    .fresh .sessions staleAfter,{},s.sessionId,none⟩

def setChannel (b : Board) (state : ChannelState) : Board × Bool :=
  let (jobs,a) := b.jobs.setChannel state
  let (discoveryRuns,c) := b.discoveryRuns.setChannel state
  let (positions,d) := b.positions.setChannel state
  let (sessions,e) := b.sessions.setChannel state
  ({ b with jobs:=jobs, discoveryRuns:=discoveryRuns, positions:=positions, sessions:=sessions },
    a || c || d || e)

def runCollection : Push.RunKind → Collection
  | .job => .jobs
  | .discovery => .discoveryRuns

def runs (b : Board) : Push.RunKind → Roster JobRecord
  | .job => b.jobs
  | .discovery => b.discoveryRuns

def withRuns (b : Board) (kind : Push.RunKind) (r : Roster JobRecord) : Board :=
  match kind with
  | .job => { b with jobs:=r }
  | .discovery => { b with discoveryRuns:=r }

def progressUpdate (b : Board) (kind : Push.RunKind) (p : Push.Progress) : ProgressUpdate :=
  ⟨runCollection kind,p.runId,p.sample,
    b.generations.converged p.runId convergenceWindow convergenceThreshold⟩

def receiveProgress (b : Board) (kind : Push.RunKind) (p : Push.Progress) (now : Int64) : Board × Effects :=
  match b.generations.record p.runId p.sample with
  | (_,false) => (b,{})
  | (generations,true) =>
    let patch : JobPatch := { progress:=some p.shown }
    let (r,outcome) := (b.runs kind).applyPush p.runId patch now
    let b := { b with generations:=generations }
    (b.withRuns kind r,
      { Effects.ofOutcome (runCollection kind) outcome with progress:=some (b.progressUpdate kind p) })

def receivePnl (b : Board) (p : Push.Pnl) (now : Int64) : Board × Effects :=
  match p.sessionId.or b.sessionId with
  | none => (b,{})
  | some id =>
    let (sessions,outcome) := b.sessions.applyPush id (⟨p.totalPnl,p.equity⟩ : SessionPatch) now
    ({ b with sessions:=sessions },.ofOutcome .sessions outcome)

-- The symbol flashes and the positions are polled again, whether it is known or not.
def receivePosition (b : Board) (p : Push.Position) (now : Int64) : Board × Effects :=
  let symbol := symbolName p.symbol
  let (positions,outcome) := b.positions.applyPush symbol (⟨now⟩ : PositionPatch) now
  ({ b with positions:=positions },
    { Effects.ofOutcome .positions outcome with flash:=some symbol, refresh:=some .positions })

def receive (b : Board) (m : Push.Message) (now : Int64) : Board × Effects :=
  let b := { b with lastMessageAt:=some now }
  match m with
  | .progress kind p => b.receiveProgress kind p now
  | .pnl p => b.receivePnl p now
  | .position p => b.receivePosition p now
  | .unknown => (b,{})

-- Forgets the generations of runs that neither list of runs shows any more, once
-- both have been polled.
def prune (b : Board) : Board :=
  let live := (b.jobs.records ++ b.discoveryRuns.records).map JobRecord.id
  if b.jobs.lastPollAt.isNone || b.discoveryRuns.lastPollAt.isNone then b
  else { b with generations:=b.generations.retain live }

def applyPoll (b : Board) (p : Poll) (now : Int64) : Board × Outcome :=
  match p with
  | .jobs result =>
    let (r,outcome) := b.jobs.applyPoll result now
    ({ b with jobs:=r },outcome)
  | .discoveryRuns result =>
    let (r,outcome) := b.discoveryRuns.applyPoll result now
    ({ b with discoveryRuns:=r },outcome)
  | .positions result =>
    let (r,outcome) := b.positions.applyPoll result now
    ({ b with positions:=r },outcome)
  | .sessions result =>
    let (r,outcome) := b.sessions.applyPoll result now
    ({ b with sessions:=r },outcome)

def evaluate (b : Board) (collection : Collection) (now : Int64) : Board × Outcome :=
  match collection with
  | .jobs =>
    let (r,outcome) := b.jobs.evaluate now
    ({ b with jobs:=r },outcome)
  | .discoveryRuns =>
    let (r,outcome) := b.discoveryRuns.evaluate now
    ({ b with discoveryRuns:=r },outcome)
  | .positions =>
    let (r,outcome) := b.positions.evaluate now
    ({ b with positions:=r },outcome)
  | .sessions =>
    let (r,outcome) := b.sessions.evaluate now
    ({ b with sessions:=r },outcome)

def recordRemediation (b : Board) (collection : Collection) (result : Except Fault Unit) :
    Board × Option RemediationFailure :=
  let b := match collection with
    | .jobs => { b with jobs:=b.jobs.recordRemediation result }
    | .discoveryRuns => { b with discoveryRuns:=b.discoveryRuns.recordRemediation result }
    | .positions => { b with positions:=b.positions.recordRemediation result }
    | .sessions => { b with sessions:=b.sessions.recordRemediation result }
  match result with
  | .ok () => (b,none)
  | .error fault => (b,some ⟨collection,fault.message⟩)

def view (b : Board) (collection : Collection) (now : Int64) : View :=
  match collection with
  | .jobs => .jobs (b.jobs.snapshot now)
  | .discoveryRuns => .jobs (b.discoveryRuns.snapshot now)
  | .positions => .positions (b.positions.snapshot now)
  | .sessions => .sessions (b.sessions.snapshot now)

def staleJobs (b : Board) (now : Int64) : Nat :=
  (b.jobs.staleIds now).length + (b.discoveryRuns.staleIds now).length

def staleSessions (b : Board) (now : Int64) : Nat := (b.sessions.staleIds now).length

end Board
end RunWatch
