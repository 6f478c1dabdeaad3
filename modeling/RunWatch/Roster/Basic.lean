import RunWatch.Records.Monitored
import RunWatch.Roster.Collection
namespace RunWatch

inductive Guard where
  | armed | triggered
deriving DecidableEq

inductive Directive where
  | fire | hold
deriving DecidableEq

def Guard.advance : Guard → (anyStale : Bool) → Guard × Directive
  | .armed, true => (.triggered,.fire)
  | .armed, false => (.armed,.hold)
  | .triggered, true => (.triggered,.hold)
  | .triggered, false => (.armed,.hold)

structure Outcome where
  staleCount : Nat
  directive : Directive
deriving DecidableEq

def Outcome.remediate (o : Outcome) : Bool := o.directive == .fire

-- What is known of one collection. Polls decide which records there are; pushes
-- amend records that are there.
structure Roster (ρ : Type) where
  collection : Collection
  staleAfter : Int64
  records : List ρ
  channel : ChannelState
  guard : Guard
  lastPollAt : Option Int64
  lastPollError : Option String
  lastRemediationError : Option String
  revision : UInt64

namespace Roster
open Monitored
variable {ρ : Type} [Monitored ρ]

def fresh (collection : Collection) (staleAfter : Int64) : Roster ρ :=
  ⟨collection,staleAfter,[],.connecting,.armed,none,none,none,0⟩

def find? (r : Roster ρ) (id : String) : Option ρ := r.records.find? fun record => Monitored.id record == id

def staleRecords (r : Roster ρ) (now : Int64) : List ρ :=
  r.records.filter fun record => isStale record now r.staleAfter

def staleIds (r : Roster ρ) (now : Int64) : List String := (r.staleRecords now).map Monitored.id

def evaluate (r : Roster ρ) (now : Int64) : Roster ρ × Outcome :=
  let count := (r.staleRecords now).length
  let (guard,directive) := r.guard.advance (0 < count)
  ({ r with guard:=guard },⟨count,directive⟩)

def setChannel (r : Roster ρ) (state : ChannelState) : Roster ρ × Bool :=
  if r.channel = state then (r,false)
  else ({ r with channel:=state, revision:=r.revision + 1 },true)

def patchFirst (id : String) (p : Patch ρ) : List ρ → List ρ
  | [] => []
  | record :: rest =>
    if Monitored.id record == id then patch p record :: rest else record :: patchFirst id p rest

def applyPush (r : Roster ρ) (id : String) (p : Patch ρ) (now : Int64) : Roster ρ × Option Outcome :=
  if (r.find? id).isNone then (r,none) else
  let (r,outcome) :=
    evaluate { r with records:=patchFirst id p r.records, revision:=r.revision + 1 } now
  (r,some outcome)

def admitted (r : Roster ρ) (polled : ρ) : ρ :=
  match r.find? (Monitored.id polled) with
  | some previous => carryForward previous polled
  | none => polled

def replaced (r : Roster ρ) (polled : List ρ) (now : Int64) : Roster ρ :=
  { r with records:=polled.map r.admitted, lastPollAt:=some now, lastPollError:=none }

def applyPoll (r : Roster ρ) (result : Except Fault (List ρ)) (now : Int64) : Roster ρ × Outcome :=
  let r := match result with
    | .ok polled => r.replaced polled now
    | .error fault => { r with lastPollError:=some fault.message }
  evaluate { r with revision:=r.revision + 1 } now

-- The guard is left alone: a failed cleanup is not tried again within its episode.
def remediationFailed (r : Roster ρ) (fault : Fault) : Roster ρ :=
  { r with lastRemediationError:=some fault.message, revision:=r.revision + 1 }

def remediationSucceeded (r : Roster ρ) : Roster ρ :=
  if r.lastRemediationError.isNone then r
  else { r with lastRemediationError:=none, revision:=r.revision + 1 }

def recordRemediation (r : Roster ρ) : Except Fault Unit → Roster ρ
  | .ok () => r.remediationSucceeded
  | .error fault => r.remediationFailed fault

end Roster

structure Snapshot (ρ : Type) where
  collection : Collection
  channel : ChannelState
  records : List ρ
  staleIds : List String
  lastPollAt : Option Int64
  lastPollError : Option String
  lastRemediationError : Option String
  revision : UInt64

def Roster.snapshot [Monitored ρ] (r : Roster ρ) (now : Int64) : Snapshot ρ :=
  ⟨r.collection,r.channel,r.records,r.staleIds now,r.lastPollAt,r.lastPollError,
    r.lastRemediationError,r.revision⟩

open Json in
def Snapshot.document [Coded ρ] (s : Snapshot ρ) : Json :=
  .object [("collection",encode s.collection),("channel",encode s.channel),("records",encode s.records),
    ("staleIds",encode s.staleIds),("lastPollAt",encode s.lastPollAt),
    ("lastPollError",encode s.lastPollError),("lastRemediationError",encode s.lastRemediationError),
    ("revision",encode s.revision)]

end RunWatch
