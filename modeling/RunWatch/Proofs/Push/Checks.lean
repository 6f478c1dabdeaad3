import RunWatch.Proofs.Json.Exchanged
import RunWatch.Proofs.Push.Spellings
namespace RunWatch.Push
open Json

def Message.Finite : Message → Prop
  | .progress _ p => p.bestFitness.isFinite = true ∧ p.avgFitness.isFinite = true ∧ p.worstFitness.isFinite = true
  | .pnl p => (∀ f ∈ p.totalPnl, f.isFinite = true) ∧ ∀ f ∈ p.equity, f.isFinite = true
  | .position _ | .unknown => True

def Message.spelledId? : Message → Option String
  | .progress _ p => some p.runId
  | .pnl p => p.sessionId
  | .position p => some p.symbol
  | .unknown => none

-- A message that has to spell an id and spells a blank one. A balance need not say whose
-- it is, and what it spells is not looked at.
def Message.Anonymous : Message → Prop
  | .progress _ p => Text.allBlank p.runId = true
  | .position p => Text.allBlank p.symbol = true
  | .pnl _ | .unknown => False

variable {m : Message} {slots : List (Option Json)}

theorem Message.checked_ok_iff : m.checked = .ok m ↔ m.Finite ∧ ¬ m.Anonymous := by
  have unfaulted : m.checked = .ok m ↔ m.fault? = none := by
    unfold Message.checked
    cases m.fault? <;> simp
  rw [unfaulted]
  cases m with
  | progress kind p =>
    cases blank : Text.allBlank p.runId <;>
      simp [Message.fault?,Message.Finite,Message.Anonymous,Progress.fault?,blank,and_assoc]
  | pnl p => simp [Message.fault?,Message.Finite,Message.Anonymous,Pnl.fault?,Option.all_eq_true]
  | position p => simp [Message.fault?,Message.Finite,Message.Anonymous,Position.fault?]
  | unknown => simp [Message.fault?,Message.Finite,Message.Anonymous]

theorem Position.checked_blank {p : Position} (blank : Text.allBlank p.symbol = true) :
    (Message.position p).checked = .error (.payload .positionWithoutSymbol) := by
  simp only [Message.checked,Message.fault?,Position.fault?,blank,if_true]

theorem Progress.read_finite {p : Progress} (read : Progress.ofSlots? slots = some p) (kind : RunKind) :
    (Message.progress kind p).Finite := by
  unfold Progress.ofSlots? at read
  split at read
  · simp only [bind,pure,Option.bind_eq_some_iff,Option.some.injEq] at read
    obtain ⟨_,_,_,_,best,first,avg,second,worst,third,_,_,rfl⟩ := read
    have finite {slot : Option Json} {f : Float} (given : given? slot = some f) : f.isFinite = true :=
      (Part.reads_given (p := .required f) given).1
    exact ⟨finite first,finite second,finite third⟩
  · cases read

theorem Pnl.read_finite {p : Pnl} (read : Pnl.ofSlots? slots = some p) : (Message.pnl p).Finite := by
  unfold Pnl.ofSlots? at read
  split at read
  · simp only [bind,pure,Option.bind_eq_some_iff,Option.some.injEq] at read
    obtain ⟨_,first,_,second,_,_,rfl⟩ := read
    have finite {slot : Option Json} {o : Option Float} (given : givenOr? none slot = some o) :
        ∀ f ∈ o, f.isFinite = true :=
      (Part.reads_given (p := .optional o) given).1
    exact ⟨finite first,finite second⟩
  · cases read

theorem Topic.read_finite {topic : Topic} (read : topic.body? body = some m) : m.Finite := by
  rw [Topic.body_slots] at read
  obtain ⟨slots,_,read⟩ := Option.bind_eq_some_iff.mp read
  cases topic with
  | progress kind =>
    obtain ⟨p,given,rfl⟩ := Option.map_eq_some_iff.mp read
    exact Progress.read_finite given kind
  | pnl =>
    obtain ⟨p,given,rfl⟩ := Option.map_eq_some_iff.mp read
    exact Pnl.read_finite given
  | position =>
    obtain ⟨p,_,rfl⟩ := Option.map_eq_some_iff.mp read
    trivial
  | unknown =>
    cases read
    trivial

theorem Message.read_finite (read : Message.ofDocument? document = some m) : m.Finite := by
  unfold Message.ofDocument? at read
  split at read
  · split at read
    · obtain ⟨topic,_,read⟩ := Option.bind_eq_some_iff.mp read
      exact Topic.read_finite read
    · cases read
  · obtain ⟨topic,_,read⟩ := Option.bind_eq_some_iff.mp read
    exact Topic.read_finite read
  · cases read

end RunWatch.Push
