import RunWatch.Session.Script
namespace RunWatch.Session

inductive Alarm where
  | cancel
  | beat
  | tick (c : Collection)
  | connected (result : Except Fault Connection)
  | stream (rest : Connection)
  | polled (p : Poll)
  | cleaned (id : Nat) (c : Collection) (result : Except Fault Unit)

-- A session with a scripted server, on a clock that jumps to the next alarm when
-- there is nothing left to do. Alarms are kept in the order in which they go off.
structure Rehearsal where
  settings : Settings
  script : Script
  origin : Int64
  monitor : Monitor
  clock : Nat
  alarms : List (Nat × Alarm)
  owed : List Collection
  requests : List (Nat × Request)
  told : List (Nat × Event)
  cleaned : List Collection

def beatMs : Nat := 1000

def pollMs (s : Settings) : Collection → Nat
  | .jobs => s.jobsPollMs.toNat
  | .discoveryRuns => s.discoveryPollMs.toNat
  | .positions => s.positionsPollMs.toNat
  | .sessions => s.sessionsPollMs.toNat

def insertAlarm (time : Nat) (alarm : Alarm) : List (Nat × Alarm) → List (Nat × Alarm)
  | [] => [(time,alarm)]
  | other :: rest =>
    if time < other.1 then (time,alarm) :: other :: rest else other :: insertAlarm time alarm rest

def Request.isLike : Request → Request → Bool
  | .connect, .connect => true
  | .fetch c, .fetch d => c = d
  | .cleanup c _, .cleanup d _ => c = d
  | _, _ => false

def Monitor.isReading (s : Monitor) : Bool :=
  match s.phase with
  | .reading => true
  | _ => false

def Monitor.isStopped (s : Monitor) : Bool :=
  match s.phase with
  | .stopped => true
  | _ => false

def Monitor.deadline? (s : Monitor) : Option Nat :=
  let retry := match s.phase with
    | .waiting _ deadline => some deadline
    | _ => none
  (retry.toList ++ s.flash.nextDeadline?.toList).min?

namespace Rehearsal

def moment (s : Rehearsal) : Moment := ⟨s.origin + Int64.ofNat s.clock,s.clock⟩

def schedule (s : Rehearsal) (delay : Nat) (alarm : Alarm) : Rehearsal :=
  { s with alarms:=insertAlarm (s.clock + delay) alarm s.alarms }

def answer (s : Rehearsal) (r : Request) : Nat × Alarm :=
  let n := s.requests.countP fun earlier => earlier.2.isLike r
  match r with
  | .connect => (s.script.connections.get n).map id .connected
  | .fetch c => (s.script.poll c n).map id .polled
  | .cleanup c task => ((s.script.cleanups.get c).get n).map id (.cleaned task c)

def note (s : Rehearsal) : Output → Rehearsal
  | .event e => { s with told:=s.told ++ [(s.clock,e)] }
  | .request r =>
    let (delay,alarm) := s.answer r
    { s with requests:=s.requests ++ [(s.clock,r)] }.schedule delay alarm

def perform? (s : Rehearsal) (step : Step) : Option Rehearsal :=
  (s.monitor.advance step).map fun (monitor,outputs) => outputs.foldl note { s with monitor:=monitor }

def perform (s : Rehearsal) (step : Step) : Rehearsal := (s.perform? step).getD s

def await (s : Rehearsal) (rest : Connection) : Rehearsal :=
  match rest.frames with
  | (delay,_) :: _ => s.schedule delay (.stream rest)
  | [] => if rest.ends then s.schedule 0 (.stream rest) else s

def receive (s : Rehearsal) (rest : Connection) : Rehearsal :=
  match rest.frames with
  | [] => s.perform (.streamEnded s.moment)
  | (_,.error fault) :: _ => s.perform (.frameFailed fault s.moment)
  | (_,.ok f) :: frames =>
    let s := s.perform (.frame f s.moment)
    if s.monitor.isReading then s.await { rest with frames:=frames } else s

def ring (s : Rehearsal) : Alarm → Rehearsal
  | .cancel => s.perform .cancel
  | .beat => (s.perform (.heartbeat s.moment)).schedule beatMs .beat
  | .tick c => { s with owed:=c :: s.owed }
  | .connected (.ok c) => (s.perform (.connected s.moment)).await c
  | .connected (.error fault) => s.perform (.connectFailed fault s.moment)
  | .stream rest => s.receive rest
  | .polled p => s.perform (.polled p s.moment)
  | .cleaned task c result => match s.perform? (.cleaned task result s.moment) with
    | some s => { s with cleaned:=s.cleaned ++ [c] }
    | none => s

def serve? (s : Rehearsal) (c : Collection) : Option Rehearsal :=
  (s.perform? (.tick c)).map fun s =>
    let interval := pollMs s.settings c
    { s with owed:=s.owed.filter (· ≠ c) }.schedule (interval - s.clock % interval) (.tick c)

def endings (s : Rehearsal) : List Step :=
  [.leave] ++ Collection.all.map .stopPoller ++
    s.monitor.cleanups.map (fun task => .abandonCleanup task.id) ++
    (if s.monitor.beating then [.stopHeartbeat] else []) ++
    (if s.monitor.forwarding then [.stopForwarder] else []) ++ [.teardown,.farewell s.moment]

def impulses (s : Rehearsal) : List Step :=
  [.tell s.moment,.openChannel s.moment] ++
    s.monitor.cleanups.map (fun task => .callCleanup task.id) ++ [.forward] ++
    (s.monitor.flash.timers.filter FlashTimer.cancelled).map (fun t => .abandonExpiry t.generation) ++
    [.retry s.moment] ++
    (Flash.due? s.clock s.monitor.flash.timers).toList.map (fun t => .expire t.generation s.moment) ++
    (if s.monitor.cancelled then s.endings else [])

def impulse? (s : Rehearsal) : Option Rehearsal :=
  s.impulses.findSome? s.perform? <|> s.owed.findSome? s.serve? <|>
    Collection.all.findSome? fun c => s.perform? (.wake c)

def goOff (s : Rehearsal) (time : Nat) (alarm : Alarm) (rest : List (Nat × Alarm)) : Rehearsal :=
  { s with clock:=time, alarms:=rest }.ring alarm

def jump? (s : Rehearsal) : Option Rehearsal :=
  match s.alarms, s.monitor.deadline? with
  | [], none => none
  | [], some deadline => some { s with clock:=deadline }
  | (time,alarm) :: rest, none => some (s.goOff time alarm rest)
  | (time,alarm) :: rest, some deadline =>
    if deadline < time then some { s with clock:=deadline } else some (s.goOff time alarm rest)

def next? (s : Rehearsal) : Option Rehearsal :=
  if s.monitor.isStopped then none else s.impulse? <|> s.jump?

def run : Nat → Rehearsal → Rehearsal
  | 0, s => s
  | fuel + 1, s => match s.next? with
    | some s => run fuel s
    | none => s

def start (settings : Settings) (script : Script) (origin : Int64) (cancelAt : Nat) : Rehearsal :=
  let (monitor,outputs) := Monitor.start settings ⟨origin,0⟩
  let s : Rehearsal := ⟨settings,script,origin,monitor,0,[],[],[],[],[]⟩
  let s := (outputs.foldl note s).schedule cancelAt .cancel
  let s := (s.perform (.openChannel s.moment)).perform (.tell s.moment)
  (Collection.all.map Alarm.tick).foldl (fun s alarm => s.schedule 0 alarm) (s.schedule 0 .beat)

-- More than enough steps for a script of this size and a session of this length.
def enough (script : Script) (cancelAt : Nat) : Nat := 64 * (script.size + cancelAt + 64)

def play (settings : Settings) (script : Script) (origin : Int64) (cancelAt : Nat) : Rehearsal :=
  run (enough script cancelAt) (start settings script origin cancelAt)

end Rehearsal
end RunWatch.Session
