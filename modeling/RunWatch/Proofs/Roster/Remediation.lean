import RunWatch.Proofs.Roster.Records
namespace RunWatch
open Monitored (Patch)

theorem Guard.advance_fst (g : Guard) (stale : Bool) :
    (g.advance stale).1 = if stale then .triggered else .armed := by
  cases g <;> cases stale <;> rfl

theorem Guard.advance_fire (g : Guard) (stale : Bool) :
    (g.advance stale).2 = .fire ↔ g = .armed ∧ stale = true := by
  cases g <;> cases stale <;> decide

def Guard.answers (g : Guard) : List Nat → List Outcome
  | [] => []
  | count :: rest => ⟨count,(g.advance (0 < count)).2⟩ :: (g.advance (0 < count)).1.answers rest

def Guard.shown (g : Guard) (counts : List Nat) : Guard :=
  counts.foldl (fun g count => (g.advance (0 < count)).1) g

def Guard.quietBefore (g : Guard) (counts : List Nat) : Nat → Prop
  | 0 => g = .armed
  | i + 1 => counts[i]? = some 0

namespace Guard

theorem answers_staleCount (g : Guard) (counts : List Nat) :
    (g.answers counts).map Outcome.staleCount = counts := by
  induction counts generalizing g with
  | nil => rfl
  | cons count rest ih => simp only [answers,List.map_cons,ih]

theorem answers_fire (g : Guard) (counts : List Nat) (i : Nat) :
    ((g.answers counts).map Outcome.directive)[i]? = some .fire ↔
      ∃ count, counts[i]? = some count ∧ 0 < count ∧ g.quietBefore counts i := by
  induction counts generalizing g i with
  | nil => simp [answers]
  | cons count rest ih =>
    cases i with
    | zero =>
      simp only [answers,List.map_cons,List.getElem?_cons_zero,Option.some.injEq,advance_fire,quietBefore,
        decide_eq_true_eq,exists_eq_left']
      exact and_comm
    | succ i =>
      simp only [answers,List.map_cons,List.getElem?_cons_succ,ih]
      cases i with
      | zero =>
        simp only [quietBefore,advance_fst,List.getElem?_cons_zero,Option.some.injEq]
        by_cases stale : 0 < count
        · have some_stale : count ≠ 0 := Nat.pos_iff_ne_zero.mp stale
          simp [stale,some_stale]
        · have none_stale : count = 0 := Nat.eq_zero_of_not_pos stale
          simp [none_stale]
      | succ i => simp only [quietBefore,List.getElem?_cons_succ]

theorem shown_triggered (g : Guard) (counts : List Nat) :
    g.shown counts = .triggered ↔ 0 < counts.getLast?.getD (if g = .triggered then 1 else 0) := by
  induction counts generalizing g with
  | nil => cases g <;> decide
  | cons count rest ih =>
    have step : g.shown (count :: rest) = (g.advance (0 < count)).1.shown rest := rfl
    rw [step,ih,advance_fst,List.getLast?_cons]
    cases rest.getLast? with
    | some last => rfl
    | none => by_cases stale : 0 < count <;> simp [stale]

theorem shown_append (g : Guard) (earlier later : List Nat) :
    g.shown (earlier ++ later) = (g.shown earlier).shown later := List.foldl_append

theorem answers_append (g : Guard) (earlier later : List Nat) :
    g.answers (earlier ++ later) = g.answers earlier ++ (g.shown earlier).answers later := by
  induction earlier generalizing g with
  | nil => rfl
  | cons count rest ih =>
    have step : g.shown (count :: rest) = (g.advance (0 < count)).1.shown rest := rfl
    simp only [List.cons_append,answers,ih,step]

end Guard

-- The time as of which an operation looks at the records. A poll looks at them
-- however it ends, a push only where it names a known record.
def Operation.looksAt? [Monitored ρ] (r : Roster ρ) : Operation ρ → Option Int64
  | .poll _ now => some now
  | .push id _ now => if (r.find? id).isSome then some now else none
  | .evaluate now => some now
  | .channel _ => none
  | .remediation _ => none

def Reply.outcome? : Reply → Option Outcome
  | .outcome o => some o
  | _ => none

namespace Roster

def staleCounts [Monitored ρ] (r : Roster ρ) : List (Operation ρ) → List Nat
  | [] => []
  | op :: rest =>
    let next := (r.perform op).1
    ((op.looksAt? r).map fun now => (next.staleRecords now).length).toList ++ next.staleCounts rest

def outcomes [Monitored ρ] (r : Roster ρ) : List (Operation ρ) → List Outcome
  | [] => []
  | op :: rest => (r.perform op).2.outcome?.toList ++ (r.perform op).1.outcomes rest

variable {ρ : Type} [Monitored ρ] {r s : Roster ρ} {op : Operation ρ} {id : String}

-- An operation looks at the records once or not at all, and no operation moves the
-- guard but by looking.
theorem perform_looks (r : Roster ρ) (op : Operation ρ) :
    let next := (r.perform op).1
    let counts := ((op.looksAt? r).map fun now => (next.staleRecords now).length).toList
    (r.perform op).2.outcome?.toList = r.guard.answers counts ∧ next.guard = r.guard.shown counts := by
  cases op with
  | poll result now => cases result <;> exact ⟨rfl,rfl⟩
  | push id p now =>
    cases known : r.find? id with
    | none =>
      simp [perform,applyPush_unknown known,Operation.looksAt?,known,Reply.outcome?,Guard.answers,Guard.shown]
    | some record =>
      simp only [perform,applyPush_known known,Operation.looksAt?,known]
      exact ⟨rfl,rfl⟩
  | evaluate now => exact ⟨rfl,rfl⟩
  | channel state =>
    refine ⟨rfl,?_⟩
    simp only [perform,setChannel_fst]; rfl
  | remediation result =>
    refine ⟨rfl,?_⟩
    simp only [perform,recordRemediation_eq]; rfl

theorem outcomes_eq (r : Roster ρ) (run : List (Operation ρ)) :
    r.outcomes run = r.guard.answers (r.staleCounts run) ∧
      (r.after run).guard = r.guard.shown (r.staleCounts run) := by
  induction run generalizing r with
  | nil => exact ⟨rfl,rfl⟩
  | cons op rest ih =>
    obtain ⟨answered,moved⟩ := r.perform_looks op
    obtain ⟨answers,guard⟩ := ih (r.perform op).1
    simp only [outcomes,staleCounts,Guard.answers_append,Guard.shown_append,after_cons]
    exact ⟨by rw [answered,answers,moved],by rw [guard,moved]⟩

structure Alike (r s : Roster ρ) : Prop where
  staleAfter : r.staleAfter = s.staleAfter
  records : r.records = s.records
  guard : r.guard = s.guard

theorem Alike.find? (alike : Alike r s) (id : String) : r.find? id = s.find? id := by
  rw [find?_eq,find?_eq,alike.records]

theorem Alike.looksAt? (alike : Alike r s) (op : Operation ρ) : op.looksAt? r = op.looksAt? s := by
  cases op with
  | push id p now => simp only [Operation.looksAt?,alike.find?]
  | poll result now => rfl
  | evaluate now => rfl
  | channel state => rfl
  | remediation result => rfl

theorem Alike.perform_records (alike : Alike r s) (op : Operation ρ) :
    (r.perform op).1.records = (s.perform op).1.records := by
  cases listing : op.listing? with
  | none => rw [perform_unlisted listing,perform_unlisted listing,alike.records]
  | some polled =>
    rw [perform_listing listing,perform_listing listing]
    refine List.map_congr_left fun row _ => ?_
    rw [admitted_eq,admitted_eq,alike.find?]

theorem Alike.perform (alike : Alike r s) (op : Operation ρ) :
    Alike (r.perform op).1 (s.perform op).1 ∧
      (r.perform op).2.outcome?.toList = (s.perform op).2.outcome?.toList := by
  have staleAfter : (r.perform op).1.staleAfter = (s.perform op).1.staleAfter := by
    rw [(perform_follows r op).staleAfter,(perform_follows s op).staleAfter,alike.staleAfter]
  have records := alike.perform_records op
  obtain ⟨answered,moved⟩ := r.perform_looks op
  obtain ⟨answered',moved'⟩ := s.perform_looks op
  have stale : ∀ now, (r.perform op).1.staleRecords now = (s.perform op).1.staleRecords now := by
    intro now
    unfold Roster.staleRecords
    rw [records,staleAfter]
  simp only [stale,alike.looksAt?,alike.guard] at answered moved
  exact ⟨⟨staleAfter,records,moved.trans moved'.symm⟩,answered.trans answered'.symm⟩

theorem Alike.after (alike : Alike r s) (run : List (Operation ρ)) :
    (r.after run).guard = (s.after run).guard ∧ r.outcomes run = s.outcomes run := by
  induction run generalizing r s with
  | nil => exact ⟨alike.guard,rfl⟩
  | cons op rest ih =>
    obtain ⟨next,answered⟩ := alike.perform op
    obtain ⟨guard,outcomes⟩ := ih next
    exact ⟨guard,by simp only [Roster.outcomes,answered,outcomes]⟩

theorem perform_blind (blind : op.looksAt? r = none) : Alike (r.perform op).1 r := by
  obtain ⟨_,moved⟩ := r.perform_looks op
  rw [blind] at moved
  refine ⟨(perform_follows r op).staleAfter,?_,moved⟩
  cases op with
  | poll result now => cases blind
  | push id p now =>
    cases known : r.find? id with
    | none => simp only [perform,applyPush_unknown known]
    | some record => simp [Operation.looksAt?,known] at blind
  | evaluate now => cases blind
  | channel state => simp only [perform,setChannel_fst]
  | remediation result => simp only [perform,recordRemediation_eq]

theorem outcomes_append (r : Roster ρ) (earlier later : List (Operation ρ)) :
    r.outcomes (earlier ++ later) = r.outcomes earlier ++ (r.after earlier).outcomes later := by
  induction earlier generalizing r with
  | nil => rfl
  | cons op rest ih => simp only [List.cons_append,outcomes,ih,after_cons,List.append_assoc]

-- A cleanup is called for exactly when staleness begins. What is looked up is the
-- number of stale records at each poll, push to a known record and evaluation; all
-- other operations could as well have been left out.
theorem remediation_edge_triggered (collection : Collection) (staleAfter : Int64) (run : List (Operation ρ)) :
    let start : Roster ρ := .fresh collection staleAfter
    let counts := start.staleCounts run
    let directives := (start.outcomes run).map Outcome.directive
    (start.outcomes run).map Outcome.staleCount = counts ∧
    (∀ i : Nat, directives[i]? = some .fire ↔
      ∃ count, counts[i]? = some count ∧ 0 < count ∧ (i = 0 ∨ counts[i - 1]? = some 0)) ∧
    ((start.after run).guard = .triggered ↔ ∃ count, counts.getLast? = some count ∧ 0 < count) ∧
    (∀ earlier blind later, run = earlier ++ blind :: later → blind.looksAt? (start.after earlier) = none →
      (start.after (earlier ++ [blind])).guard = (start.after earlier).guard ∧
      (start.after run).guard = (start.after (earlier ++ later)).guard ∧
      start.outcomes run = start.outcomes (earlier ++ later)) ∧
    (∀ i j : Nat, i < j → directives[i]? = some .fire → directives[j]? = some .fire →
      ∃ k, i < k ∧ k < j ∧ counts[k]? = some 0) := by
  intro start counts directives
  obtain ⟨answers,guard⟩ := start.outcomes_eq run
  have fires : ∀ i : Nat, directives[i]? = some .fire ↔
      ∃ count, counts[i]? = some count ∧ 0 < count ∧ (i = 0 ∨ counts[i - 1]? = some 0) := by
    intro i
    have fire := Guard.armed.answers_fire counts i
    have same : directives = (Guard.armed.answers counts).map Outcome.directive := by
      simp only [directives,answers]; rfl
    rw [same,fire]
    cases i with
    | zero => simp [Guard.quietBefore]
    | succ i => simp [Guard.quietBefore]
  refine ⟨?_,fires,?_,?_,?_⟩
  · rw [answers,Guard.answers_staleCount]
  · rw [guard]
    have shown := Guard.armed.shown_triggered counts
    refine Iff.trans shown ?_
    cases counts.getLast? with
    | none => simp
    | some count => simp
  · intro earlier blind later split nothing
    subst split
    have alike := perform_blind nothing
    obtain ⟨guard,outcomes⟩ := alike.after later
    obtain ⟨answered,_⟩ := (start.after earlier).perform_looks blind
    rw [nothing] at answered
    refine ⟨?_,?_,?_⟩
    · rw [after_append]; exact alike.guard
    · rw [after_append,after_append]; exact guard
    · rw [outcomes_append,outcomes_append,Roster.outcomes,answered,outcomes]; rfl
  · intro i j before first second
    obtain ⟨count,found,stale,_⟩ := (fires i).mp first
    obtain ⟨_,_,_,quiet⟩ := (fires j).mp second
    rcases quiet with zero | quiet
    · omega
    · have distinct : i ≠ j - 1 := by
        intro same
        rw [same,quiet] at found
        cases Option.some.inj found
        exact Nat.lt_irrefl 0 stale
      exact ⟨j - 1,by omega,by omega,quiet⟩

end Roster
end RunWatch
