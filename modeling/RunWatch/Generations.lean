import RunWatch.Histogram
import RunWatch.Series
namespace RunWatch
open Json

structure Sample where
  generation : UInt32
  best : Float
  avg : Float
  worst : Float

def Sample.fields : List Field := [required "generation",required "best",required "avg",required "worst"]

def Sample.ofSlots? : List (Option Json) → Option Sample
  | [generation,best,avg,worst] => do
    return ⟨← given? generation,← given? best,← given? avg,← given? worst⟩
  | _ => none

instance : Coded Sample where
  encode s := record Sample.fields [encode s.generation,encode s.best,encode s.avg,encode s.worst]
  decode? v := (slots? Sample.fields v).bind Sample.ofSlots?

structure Generations where
  runs : List (String × List Sample) := []

namespace Generations

def samples (g : Generations) (run : String) : List Sample := (g.runs.lookup run).getD []

def put (run : String) (samples : List Sample) : List (String × List Sample) → List (String × List Sample)
  | [] => [(run,samples)]
  | (other,kept) :: rest =>
    if run == other then (other,samples) :: rest else (other,kept) :: put run samples rest

def isNewer (g : Generations) (run : String) (sample : Sample) : Bool :=
  (g.samples run).getLast?.all fun last => last.generation < sample.generation

def record (g : Generations) (run : String) (sample : Sample) : Generations × Bool :=
  if g.isNewer run sample then (⟨put run (g.samples run ++ [sample]) g.runs⟩,true) else (g,false)

def bests (g : Generations) (run : String) : List Float := (g.samples run).map Sample.best

def converged (g : Generations) (run : String) (window : Nat) (threshold : Float) : Bool :=
  Series.converged (g.bests run) window threshold

def histogram (g : Generations) (run : String) (bounds : Histogram.Bounds Float) :
    Except Fault (List Histogram.LabelledBin) :=
  Histogram.binValues (g.bests run) bounds

def retain (g : Generations) (live : List String) : Generations :=
  ⟨g.runs.filter fun entry => live.contains entry.1⟩

end Generations
end RunWatch
