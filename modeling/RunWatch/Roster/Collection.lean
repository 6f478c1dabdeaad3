import RunWatch.Json.Coded
namespace RunWatch
open Json

inductive Collection where
  | jobs | discoveryRuns | positions | sessions
deriving DecidableEq

def Collection.all : List Collection := [.jobs,.discoveryRuns,.positions,.sessions]

def Collection.name : Collection → String
  | .jobs => "jobs"
  | .discoveryRuns => "discovery_runs"
  | .positions => "positions"
  | .sessions => "sessions"

def Collection.snapshotEvent : Collection → String
  | .jobs => "jobs_snapshot"
  | .discoveryRuns => "discovery_snapshot"
  | .positions => "positions_snapshot"
  | .sessions => "sessions_snapshot"

instance : Coded Collection where
  encode c := .text c.name
  decode? := word? (Collection.all.map fun c => (c.name,c))

inductive ChannelState where
  | connecting | connected | disconnected
deriving DecidableEq

instance : Coded ChannelState where
  encode
    | .connecting => .text "connecting"
    | .connected => .text "connected"
    | .disconnected => .text "disconnected"
  decode? := word? [("connecting",.connecting),("connected",.connected),("disconnected",.disconnected)]

end RunWatch
