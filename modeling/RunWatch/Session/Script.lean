import RunWatch.Session.Monitor
namespace RunWatch.Session

structure Answers (α : Type) where
  first : List (Nat × α)
  later : Nat × α

def Answers.get (a : Answers α) (n : Nat) : Nat × α := (a.first[n]?).getD a.later

structure Connection where
  frames : List (Nat × Except SocketFault Push.Frame)
  ends : Bool

structure Script where
  jobs : Answers (Except Fault (List JobRecord))
  discoveryRuns : Answers (Except Fault (List JobRecord))
  positions : Answers (Except Fault (List PositionRecord))
  sessions : Answers (Except Fault (List SessionRecord))
  cleanups : PerCollection (Answers (Except Fault Unit))
  connections : Answers (Except Fault Connection)

def Script.poll (s : Script) (c : Collection) (n : Nat) : Nat × Poll :=
  match c with
  | .jobs => (s.jobs.get n).map id .jobs
  | .discoveryRuns => (s.discoveryRuns.get n).map id .discoveryRuns
  | .positions => (s.positions.get n).map id .positions
  | .sessions => (s.sessions.get n).map id .sessions

def Connection.size : Except Fault Connection → Nat
  | .ok c => c.frames.length
  | .error _ => 0

def Script.size (s : Script) : Nat :=
  s.connections.first.foldl (fun size entry => size + 1 + Connection.size entry.2) 0

end RunWatch.Session
