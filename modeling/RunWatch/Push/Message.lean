import RunWatch.Generations
import RunWatch.Json.Reading
import RunWatch.Records.Job
namespace RunWatch.Push
open Json

structure Progress where
  runId : String
  generation : UInt32
  bestFitness : Float
  avgFitness : Float
  worstFitness : Float
  bestMetrics : Option Metrics

def Progress.fields : List Field :=
  [required "run_id",required "generation",required "best_fitness",required "avg_fitness",
   required "worst_fitness",defaulted "best_metrics"]

def Progress.ofSlots? : List (Option Json) → Option Progress
  | [runId,generation,best,avg,worst,metrics] => do
    return ⟨← given? runId,← given? generation,← given? best,← given? avg,← given? worst,
      ← givenOr? none metrics⟩
  | _ => none

def Progress.sample (p : Progress) : Sample := ⟨p.generation,p.bestFitness,p.avgFitness,p.worstFitness⟩

def Progress.shown (p : Progress) : JobProgress :=
  ⟨p.generation,p.bestFitness,p.avgFitness,p.worstFitness,p.bestMetrics⟩

structure Pnl where
  totalPnl : Option Float
  equity : Option Float
  sessionId : Option String

def Pnl.fields : List Field :=
  [⟨"total_pnl",.defaulted,["pnl"]⟩,⟨"equity",.defaulted,["account_equity"]⟩,defaulted "session_id"]

def Pnl.ofSlots? : List (Option Json) → Option Pnl
  | [totalPnl,equity,sessionId] => do
    return ⟨← givenOr? none totalPnl,← givenOr? none equity,← givenOr? none sessionId⟩
  | _ => none

structure Position where
  symbol : String

def Position.fields : List Field := [required "symbol"]

def Position.ofSlots? : List (Option Json) → Option Position
  | [symbol] => do return ⟨← given? symbol⟩
  | _ => none

inductive RunKind where
  | job | discovery
deriving DecidableEq

inductive Message where
  | progress (kind : RunKind) (p : Progress)
  | pnl (p : Pnl)
  | position (p : Position)
  | unknown

inductive Topic where
  | progress (kind : RunKind)
  | pnl
  | position
  | unknown
deriving DecidableEq

def Topic.known : List (String × Topic) :=
  [("job_progress",.progress .job),("discovery_progress",.progress .discovery),
   ("pnl_update",.pnl),("position_update",.position)]

def Topic.ofTag? : Json → Option Topic
  | .text name => some ((Topic.known.lookup name).getD .unknown)
  | .int n => if 0 ≤ n then some ((Topic.known[n.toNat]?.map Prod.snd).getD .unknown) else none
  | _ => none

def Topic.body? (topic : Topic) (body : Json) : Option Message :=
  match topic with
  | .progress kind => ((slots? Progress.fields body).bind Progress.ofSlots?).map (.progress kind)
  | .pnl => ((slots? Pnl.fields body).bind Pnl.ofSlots?).map .pnl
  | .position => ((slots? Position.fields body).bind Position.ofSlots?).map .position
  | .unknown => match body with
    | .object _ | .array [] => some .unknown
    | _ => none

-- In an object the topic is the one member named type, wherever it stands; in a row
-- it comes first.
def Message.ofDocument? : Json → Option Message
  | .object members =>
    match members.filter (fun m => m.1 == "type") with
    | [(_,tag)] => (Topic.ofTag? tag).bind fun topic =>
      topic.body? (.object (members.filter fun m => !(m.1 == "type")))
    | _ => none
  | .array (tag :: row) => (Topic.ofTag? tag).bind fun topic => topic.body? (.array row)
  | _ => none

def Progress.fault? (p : Progress) : Option PayloadFault :=
  if Text.allBlank p.runId then some .progressWithoutRun
  else if p.bestFitness.isFinite && p.avgFitness.isFinite && p.worstFitness.isFinite then none
  else some .fitnessNotFinite

def Pnl.fault? (p : Pnl) : Option PayloadFault :=
  if p.totalPnl.all Float.isFinite && p.equity.all Float.isFinite then none else some .pnlNotFinite

def Position.fault? (p : Position) : Option PayloadFault :=
  if Text.allBlank p.symbol then some .positionWithoutSymbol else none

def Message.fault? : Message → Option PayloadFault
  | .progress _ p => p.fault?
  | .pnl p => p.fault?
  | .position p => p.fault?
  | .unknown => none

def Message.checked (m : Message) : Except Fault Message :=
  match m.fault? with
  | some cause => .error (.payload cause)
  | none => .ok m

def Message.ofPayload (document : Option Json) : Except Fault Message :=
  match document.bind Message.ofDocument? with
  | some m => m.checked
  | none => .error (.payload .unreadable)

def Message.read (payload : ByteArray) : Except Fault Message :=
  Message.ofPayload (Reading.pushed.readBytes? payload)

end RunWatch.Push
