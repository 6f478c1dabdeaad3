import RunWatch.Proofs.Session.Ledger
namespace RunWatch.Session

def firesOf (ts : List Transition) : List Collection := ts.flatMap fun t => t.before.fires t.step

def endingsOf (ts : List Transition) : List Ending := ts.flatMap fun t => t.before.endings t.step

def abandonedOf (ts : List Transition) : List Nat := ts.flatMap fun t => t.step.abandoned

def Transition.Clears (t : Transition) (c : Collection) : Prop :=
  ∃ now, t.before.looksAt? t.step c = some now ∧ (t.after.board.roster c).staleRecords now = []

namespace Transition

theorem guard_of_fire (t : Transition) (fired : c ∈ t.before.fires t.step) :
    (t.before.board.roster c).guard = .armed ∧ (t.after.board.roster c).guard = .triggered := by
  obtain ⟨armed,now,looked,stale⟩ := (Monitor.mem_fires t.taken c).mp fired
  exact ⟨armed,Monitor.guard_stale t.taken looked stale⟩

theorem guard_stays (t : Transition) (triggered : (t.before.board.roster c).guard = .triggered)
    (unclear : ¬ t.Clears c) : (t.after.board.roster c).guard = .triggered := by
  cases looked : t.before.looksAt? t.step c with
  | none =>
    obtain ⟨_,moved⟩ := Monitor.taken_looks t.taken c
    rw [moved,looked]
    exact triggered
  | some now => exact Monitor.guard_stale t.taken looked fun none => unclear ⟨now,looked,none⟩

theorem positions_hold (t : Transition) : Collection.positions ∉ t.before.fires t.step := by
  intro fired
  obtain ⟨_,now,_,stale⟩ := (Monitor.mem_fires t.taken _).mp fired
  exact stale (List.filter_eq_nil_iff.mpr fun _ _ => Bool.false_ne_true)

end Transition

namespace Path

theorem guard_stays (path : Path s ts next) (triggered : (s.board.roster c).guard = .triggered)
    (unclear : ∀ t ∈ ts, ¬ t.Clears c) : (next.board.roster c).guard = .triggered := by
  induction path with
  | nil => exact triggered
  | cons t rest ih =>
    have after := t.guard_stays triggered (unclear t List.mem_cons_self)
    exact ih after fun later member => unclear later (List.mem_cons_of_mem _ member)

-- A guard that has fired is triggered, and only a clear look arms it again.
theorem fires_apart {earlier between later : List Transition} {first second : Transition}
    (path : Path s (earlier ++ first :: (between ++ second :: later)) next)
    (one : c ∈ first.before.fires first.step) (two : c ∈ second.before.fires second.step) :
    ∃ t ∈ between, t.Clears c := by
  obtain ⟨_,sinceFirst⟩ := path.cut
  obtain ⟨gap,_⟩ := sinceFirst.cut
  by_contra none
  have triggered := gap.guard_stays (first.guard_of_fire one).2 fun t member clears =>
    none ⟨t,member,clears⟩
  have armed := (second.guard_of_fire two).1
  rw [armed] at triggered
  cases triggered

theorem ledger {fires : List Collection} {calls : List (Collection × Nat)} {endings : List Ending}
    {abandoned : List Nat} (path : Path s ts next) (ledger : Ledger s fires calls endings abandoned) :
    Ledger next (fires ++ firesOf ts) (calls ++ callsTold (ts.flatMap Transition.outputs))
      (endings ++ endingsOf ts) (abandoned ++ abandonedOf ts) := by
  induction path generalizing fires calls endings abandoned with
  | nil => simpa [firesOf,callsTold,endingsOf,abandonedOf] using ledger
  | @cons ts next t rest ih =>
    have following := ih (ledger.tended (Monitor.taken_tended t.taken))
    have calls : callsTold ((t :: ts).flatMap Transition.outputs) =
        callsTold t.outputs ++ callsTold (ts.flatMap Transition.outputs) := List.filterMap_append
    rw [calls]
    simpa only [firesOf,endingsOf,abandonedOf,List.flatMap_cons,List.append_assoc] using following

end Path

theorem path_failures (path : Path s ts next) :
    failuresTold (ts.flatMap Transition.outputs) = (endingsOf ts).filterMap Ending.failure? := by
  induction path with
  | nil => rfl
  | @cons ts next t rest ih =>
    have told : failuresTold ((t :: ts).flatMap Transition.outputs) =
        failuresTold t.outputs ++ failuresTold (ts.flatMap Transition.outputs) := List.filterMap_append
    have ended : endingsOf (t :: ts) = t.before.endings t.step ++ endingsOf ts := rfl
    rw [told,ended,List.filterMap_append,ih,(Monitor.taken_tended t.taken).tells]

theorem operations_results (ts : List Transition) (c : Collection) :
    (operations c ts).filterMap Operation.cleanupResult? =
      ((endingsOf ts).filter fun e => e.task.collection = c).map Ending.result := by
  induction ts with
  | nil => rfl
  | cons t rest ih =>
    have performed : operations c (t :: rest) = (t.before.operation? t.step c).toList ++ operations c rest := rfl
    have ended : endingsOf (t :: rest) = t.before.endings t.step ++ endingsOf rest := rfl
    rw [performed,ended,List.filterMap_append,List.filter_append,List.map_append,Monitor.noted_results,ih]

namespace Path

theorem cancelled (path : Path s ts next) (before : s.cancelled = true) : next.cancelled = true := by
  induction path with
  | nil => exact before
  | cons t rest ih => exact ih (Monitor.taken_cancelled t.taken before)

theorem live (path : Path s ts next) (running : next.cancelled = false) : abandonedOf ts = [] := by
  apply List.flatMap_eq_nil_iff.mpr
  intro t member
  by_contra abandons
  obtain ⟨earlier,later,rfl⟩ := List.append_of_mem member
  obtain ⟨_,after⟩ := path.cut
  have stopped := (Monitor.taken_abandons t.taken abandons).1
  have cancelled := after.cancelled (Monitor.taken_cancelled t.taken stopped)
  rw [cancelled] at running
  cases running

end Path

structure Accounted (settings : Settings) (ts : List Transition) (told : List Output) (s : Monitor) : Prop where
  log : ∀ c, s.board.roster c = ((Board.start settings).roster c).after (operations c ts)
  ledger : Ledger s (firesOf ts) (callsTold told) (endingsOf ts) (abandonedOf ts)
  source : ∀ t ∈ ts, t.before.fires t.step ≠ [] → (∃ p m, t.step = .polled p m) ∨ ∃ f m, t.step = .frame f m
  begun : ∀ t ∈ ts, ∀ c ∈ t.before.fires t.step,
    ∃ awaited, t.after.cleanups = t.before.cleanups ++ [⟨t.before.cleanupCount,c,awaited,false⟩]
  finished : ∀ t ∈ ts, ∀ id result m, t.step = .cleaned id result m →
    ∃ task, task.id = id ∧ t.before.endings t.step = [⟨task,result⟩]
  ready : ∀ task ∈ s.cleanups, task.calling = false →
    ∃ next, s.advance (.callCleanup task.id) = some (next,[.request (.cleanup task.collection task.id)])
  apart : ∀ c earlier first between second later, ts = earlier ++ first :: (between ++ second :: later) →
    c ∈ first.before.fires first.step → c ∈ second.before.fires second.step → ∃ t ∈ between, t.Clears c
  results : ∀ c, (operations c ts).filterMap Operation.cleanupResult? =
    ((endingsOf ts).filter fun e => e.task.collection = c).map Ending.result
  failures : failuresTold told = (endingsOf ts).filterMap Ending.failure?
  abandoned : ∀ t ∈ ts, t.step.abandoned ≠ [] →
    t.before.cancelled = true ∧ t.outputs = [] ∧ t.after.board = t.before.board
  live : s.cancelled = false → abandonedOf ts = []
  positions : Collection.positions ∉ firesOf ts ∧ ∀ call ∈ callsTold told, call.1 ≠ .positions

end RunWatch.Session
