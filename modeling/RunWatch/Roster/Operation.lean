import RunWatch.Roster.Basic
namespace RunWatch

inductive Operation (ρ : Type) [Monitored ρ] where
  | poll (result : Except Fault (List ρ)) (now : Int64)
  | push (id : String) (patch : Monitored.Patch ρ) (now : Int64)
  | evaluate (now : Int64)
  | channel (state : ChannelState)
  | remediation (result : Except Fault Unit)

inductive Reply where
  | outcome (o : Outcome)
  | unknownId
  | channel (changed : Bool)
  | noted
deriving DecidableEq

namespace Roster
variable {ρ : Type} [Monitored ρ]

def perform (r : Roster ρ) : Operation ρ → Roster ρ × Reply
  | .poll result now =>
    let (r,outcome) := r.applyPoll result now
    (r,.outcome outcome)
  | .push id patch now =>
    let (r,outcome) := r.applyPush id patch now
    (r,outcome.elim .unknownId .outcome)
  | .evaluate now =>
    let (r,outcome) := r.evaluate now
    (r,.outcome outcome)
  | .channel state =>
    let (r,changed) := r.setChannel state
    (r,.channel changed)
  | .remediation result => (r.recordRemediation result,.noted)

def after (r : Roster ρ) (ops : List (Operation ρ)) : Roster ρ :=
  ops.foldl (fun r op => (r.perform op).1) r

end Roster
end RunWatch
