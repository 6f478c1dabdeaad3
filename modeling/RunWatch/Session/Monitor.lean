import RunWatch.Push.Frame
import RunWatch.Session.Event
namespace RunWatch.Session

structure PerCollection (α : Type) where
  jobs : α
  discoveryRuns : α
  positions : α
  sessions : α

def PerCollection.each (a : α) : PerCollection α := ⟨a,a,a,a⟩

def PerCollection.get (p : PerCollection α) : Collection → α
  | .jobs => p.jobs
  | .discoveryRuns => p.discoveryRuns
  | .positions => p.positions
  | .sessions => p.sessions

def PerCollection.set (p : PerCollection α) (c : Collection) (a : α) : PerCollection α :=
  match c with
  | .jobs => { p with jobs:=a }
  | .discoveryRuns => { p with discoveryRuns:=a }
  | .positions => { p with positions:=a }
  | .sessions => { p with sessions:=a }

structure Moment where
  wall : Int64
  clock : Nat

structure Announcement where
  state : ConnectionState
  attempt : UInt32
  reason : String

inductive Next where
  | connecting (attempt : UInt32)
  | reading
  | opening
  | waiting (attempt : UInt32)
  | stopped

-- Where the channel task is. It also ends the session, after all other tasks.
inductive Phase where
  | opening (attempt : UInt32)
  | telling (a : Announcement) (next : Next)
  | connecting (attempt : UInt32)
  | reading
  | waiting (attempt : UInt32) (deadline : Nat)
  | closing
  | quiet
  | stopped

inductive PollerPhase where
  | idle
  | fetching
  | cleaning
  | stopped
deriving DecidableEq

-- A poller and the requests made to it. One request can be handed over while it
-- waits, and one more be kept for later.
structure Poller where
  phase : PollerPhase
  handed : Bool
  kept : Bool

def Poller.start : Poller := ⟨.idle,false,false⟩

def Poller.request (p : Poller) : Poller :=
  if p.phase = .idle && !p.handed then { p with handed:=true } else { p with kept:=true }

def Poller.onTick (p : Poller) : Poller := ⟨.fetching,false,p.kept || p.handed⟩

def Poller.isRequested (p : Poller) : Bool := p.handed || p.kept

def Poller.onRequest (p : Poller) : Poller :=
  if p.handed then ⟨.fetching,false,p.kept⟩ else ⟨.fetching,false,false⟩

structure Cleanup where
  id : Nat
  collection : Collection
  awaited : Bool
  calling : Bool

structure Monitor where
  board : Board
  flash : Flash
  status : MonitorStatus
  phase : Phase
  pollers : PerCollection Poller
  cleanups : List Cleanup
  cleanupCount : Nat
  flashQueue : List FlashChange
  forwarding : Bool
  beating : Bool
  cancelled : Bool

-- What a task does next. Tasks take turns between these steps and nowhere else.
inductive Step where
  | openChannel (m : Moment)
  | tell (m : Moment)
  | connected (m : Moment)
  | connectFailed (fault : Fault) (m : Moment)
  | frame (f : Push.Frame) (m : Moment)
  | streamEnded (m : Moment)
  | frameFailed (fault : SocketFault) (m : Moment)
  | retry (m : Moment)
  | leave
  | tick (c : Collection)
  | wake (c : Collection)
  | polled (p : Poll) (m : Moment)
  | stopPoller (c : Collection)
  | callCleanup (id : Nat)
  | cleaned (id : Nat) (result : Except Fault Unit) (m : Moment)
  | abandonCleanup (id : Nat)
  | heartbeat (m : Moment)
  | stopHeartbeat
  | expire (generation : UInt64) (m : Moment)
  | abandonExpiry (generation : UInt64)
  | forward
  | stopForwarder
  | cancel
  | teardown
  | farewell (m : Moment)

def maxDelay : Nat := 5000

-- How long to wait before a reconnect: twice as long each time, spread by the wall
-- clock's last digits, and never longer than the limit.
def reconnectDelay (attempt : UInt32) (wall : Int64) : Nat :=
  min (200 * (1 <<< min attempt.toNat 6) + wall.toInt.natAbs % 250) maxDelay

def nextAttempt (attempt : UInt32) : UInt32 := if attempt = 4294967295 then attempt else attempt + 1

namespace Monitor

def snapshots (board : Board) (m : Moment) : List Output :=
  Collection.all.map fun c => .event (.snapshot c (board.view c m.wall))

def setChannel (s : Monitor) (state : ChannelState) (m : Moment) : Monitor × List Output :=
  let (board,changed) := s.board.setChannel state
  ({ s with board:=board },if changed then snapshots board m else [])

def withTelemetry (s : Monitor) (status : MonitorStatus) (m : Moment) : MonitorStatus :=
  { status with
    lastMessageAt:=s.board.lastMessageAt
    staleJobs:=UInt64.ofNat (s.board.staleJobs m.wall)
    staleSessions:=UInt64.ofNat (s.board.staleSessions m.wall) }

def publish (s : Monitor) (status : MonitorStatus) (m : Moment) : Monitor × List Output :=
  let status := s.withTelemetry status m
  ({ s with status:=status },[.event (.status status)])

def announce (s : Monitor) (a : Announcement) (m : Moment) : Monitor × List Output :=
  s.publish { s.status with state:=a.state, reconnectAttempt:=a.attempt, reason:=some a.reason } m

def start (settings : Settings) (m : Moment) : Monitor × List Output :=
  announce ⟨Board.start settings,.idle settings.flashMs.toNat,.stopped settings.pushUrl none,.opening 0,
    .each .start,[],0,[],true,true,false⟩ ⟨.connecting,0,"starting monitor"⟩ m

def openingReason (attempt : UInt32) : String :=
  if attempt = 0 then "opening push channel" else "reconnect attempt " ++ toString attempt.toNat

def turn (s : Monitor) (channel : ChannelState) (a : Announcement) (next : Next) (m : Moment) :
    Monitor × List Output :=
  let (s,outputs) := s.setChannel channel m
  ({ s with phase:=.telling a next },outputs)

def lost (s : Monitor) (reason : String) (next : Next) (m : Moment) : Monitor × List Output :=
  if s.cancelled then ({ s with phase:=.closing },[])
  else s.turn .disconnected ⟨.disconnected,0,reason⟩ next m

def resume (next : Next) (m : Moment) : Phase :=
  match next with
  | .connecting attempt => .connecting attempt
  | .reading => .reading
  | .opening => .opening 0
  | .waiting attempt => .waiting attempt (m.clock + reconnectDelay attempt m.wall)
  | .stopped => .stopped

def addCleanup (s : Monitor) (c : Collection) (awaited : Bool) : Monitor :=
  { s with
    cleanups:=s.cleanups ++ [⟨s.cleanupCount,c,awaited,false⟩]
    cleanupCount:=s.cleanupCount + 1 }

def flashed (s : Monitor) (flash : Flash) (changes : List FlashChange) : Monitor :=
  { s with flash:=flash, flashQueue:=s.flashQueue ++ changes }

def requestRefresh (s : Monitor) (c : Collection) : Monitor :=
  { s with pollers:=s.pollers.set c (s.pollers.get c).request }

def handle (s : Monitor) (message : Push.Message) (m : Moment) : Monitor × List Output :=
  let (board,effects) := s.board.receive message m.wall
  let s := { s with board:=board }
  let s := match effects.flash with
    | some key =>
      let (flash,changes) := s.flash.touch key m.clock
      s.flashed flash changes
    | none => s
  let s := (effects.refresh.map s.requestRefresh).getD s
  let s := (effects.remediate.map fun c => s.addCleanup c false).getD s
  (s,(effects.changed.map fun c => .event (.snapshot c (board.view c m.wall))).toList ++
    (effects.progress.map fun update => .event (.progress update)).toList)

def onFrame (s : Monitor) (f : Push.Frame) (m : Moment) : Monitor × List Output :=
  match f with
  | .close => s.lost "push channel closed" .opening m
  | f => match f.payload? with
    | none => (s,[])
    | some payload => match Push.Message.read payload with
      | .error _ => (s,[])
      | .ok message => s.handle message m

def setPoller (s : Monitor) (c : Collection) (p : Poller) : Monitor :=
  { s with pollers:=s.pollers.set c p }

def setPollerPhase (s : Monitor) (c : Collection) (phase : PollerPhase) : Monitor :=
  s.setPoller c { s.pollers.get c with phase:=phase }

def onPolled (s : Monitor) (p : Poll) (m : Moment) : Monitor × List Output :=
  let c := p.collection
  let (board,outcome) := s.board.applyPoll p m.wall
  let board := board.prune
  let s := { s with board:=board }
  let s := if outcome.remediate then (s.addCleanup c true).setPollerPhase c .cleaning
    else s.setPollerPhase c .idle
  (s,[.event (.snapshot c (board.view c m.wall))])

def cleanup? (s : Monitor) (id : Nat) : Option Cleanup := s.cleanups.find? fun task => task.id == id

def endCleanup (s : Monitor) (task : Cleanup) : Monitor :=
  let s := { s with cleanups:=s.cleanups.filter fun other => other.id != task.id }
  if task.awaited then s.setPollerPhase task.collection .idle else s

def onCleaned (s : Monitor) (task : Cleanup) (result : Except Fault Unit) (m : Moment) :
    Monitor × List Output :=
  let (board,failure) := s.board.recordRemediation task.collection result
  let s := ({ s with board:=board }).endCleanup task
  (s,(failure.map fun f => .event (.remediationFailed f)).toList ++
    [.event (.snapshot task.collection (board.view task.collection m.wall))])

def pollersStopped (s : Monitor) : Bool :=
  Collection.all.all fun c => (s.pollers.get c).phase = .stopped

def when (condition : Bool) (result : Monitor × List Output) : Option (Monitor × List Output) :=
  if condition then some result else none

def channelStep (s : Monitor) : Step → Option (Monitor × List Output)
  | .openChannel m => match s.phase with
    | .opening attempt =>
      if s.cancelled then some ({ s with phase:=.closing },[])
      else some (s.turn .connecting ⟨.connecting,attempt,openingReason attempt⟩ (.connecting attempt) m)
    | _ => none
  | .tell m => match s.phase with
    | .telling a next =>
      let (s,outputs) := s.announce a m
      let asked := match next with
        | .connecting _ => [.request .connect]
        | _ => []
      some ({ s with phase:=resume next m },outputs ++ asked)
    | _ => none
  | .connected m => match s.phase with
    | .connecting _ =>
      some (s.turn .connected ⟨.connected,0,"push channel connected"⟩ .reading m)
    | _ => none
  | .connectFailed fault m => match s.phase with
    | .connecting attempt =>
      some (s.turn .disconnected ⟨.disconnected,attempt,"push channel connect error: " ++ fault.message⟩
        (.waiting (nextAttempt attempt)) m)
    | _ => none
  | .frame f m => match s.phase with
    | .reading => some (s.onFrame f m)
    | _ => none
  | .streamEnded m => match s.phase with
    | .reading => some (s.lost "push channel closed" (.waiting 1) m)
    | _ => none
  | .frameFailed fault m => match s.phase with
    | .reading => some (s.lost ("push channel frame error: " ++ fault.message) (.waiting 1) m)
    | _ => none
  | .retry m => match s.phase with
    | .waiting attempt deadline => when (deadline ≤ m.clock) ({ s with phase:=.opening attempt },[])
    | _ => none
  | .leave => match s.phase with
    | .connecting _ | .reading | .waiting .. => when s.cancelled ({ s with phase:=.closing },[])
    | _ => none
  | .teardown => match s.phase with
    | .closing => when (s.pollersStopped && s.cleanups.isEmpty && !s.beating)
        ({ s with flash:=s.flash.teardown, phase:=.quiet },[])
    | _ => none
  | .farewell m => match s.phase with
    | .quiet => when (!s.forwarding)
        (s.turn .disconnected ⟨.stopped,0,"monitor stopped"⟩ .stopped m)
    | _ => none
  | _ => none

def pollerStep (s : Monitor) : Step → Option (Monitor × List Output)
  | .tick c => when ((s.pollers.get c).phase = .idle)
      (s.setPoller c (s.pollers.get c).onTick,[.request (.fetch c)])
  | .wake c => when ((s.pollers.get c).phase = .idle && (s.pollers.get c).isRequested)
      (s.setPoller c (s.pollers.get c).onRequest,[.request (.fetch c)])
  | .polled p m => when ((s.pollers.get p.collection).phase = .fetching) (s.onPolled p m)
  | .stopPoller c =>
    let phase := (s.pollers.get c).phase
    when (s.cancelled && (phase = .idle || phase = .fetching)) (s.setPollerPhase c .stopped,[])
  | _ => none

def cleanupStep (s : Monitor) : Step → Option (Monitor × List Output)
  | .callCleanup id => (s.cleanup? id).bind fun task =>
    when (!task.calling)
      ({ s with cleanups:=s.cleanups.map fun t => if t.id = id then { t with calling:=true } else t },
        [.request (.cleanup task.collection id)])
  | .cleaned id result m => (s.cleanup? id).bind fun task =>
    when task.calling (s.onCleaned task result m)
  | .abandonCleanup id => (s.cleanup? id).bind fun task => when s.cancelled (s.endCleanup task,[])
  | _ => none

def displayStep (s : Monitor) : Step → Option (Monitor × List Output)
  | .heartbeat m => when s.beating (s.publish s.status m)
  | .stopHeartbeat => when s.cancelled ({ s with beating:=false },[])
  | .expire generation m => (s.flash.advance (.expire generation m.clock)).map fun (flash,changes) =>
    (s.flashed flash changes,[])
  | .abandonExpiry generation => (s.flash.advance (.abandon generation)).map fun (flash,changes) =>
    (s.flashed flash changes,[])
  | .forward => match s.forwarding, s.flashQueue with
    | true, change :: rest => some ({ s with flashQueue:=rest },[.event (.flash change)])
    | _, _ => none
  | .stopForwarder => when s.cancelled ({ s with forwarding:=false },[])
  | _ => none

def advance (s : Monitor) (step : Step) : Option (Monitor × List Output) :=
  match step with
  | .cancel => some ({ s with cancelled:=true },[])
  | .openChannel .. | .tell .. | .connected .. | .connectFailed .. | .frame .. | .streamEnded ..
  | .frameFailed .. | .retry .. | .leave | .teardown | .farewell .. => s.channelStep step
  | .tick .. | .wake .. | .polled .. | .stopPoller .. => s.pollerStep step
  | .callCleanup .. | .cleaned .. | .abandonCleanup .. => s.cleanupStep step
  | .heartbeat .. | .stopHeartbeat | .expire .. | .abandonExpiry .. | .forward | .stopForwarder =>
    s.displayStep step

end Monitor
end RunWatch.Session
