import RunWatch.Proofs.Board.Rosters
import RunWatch.Proofs.Generations.History
import RunWatch.Proofs.Roster.Revision
namespace RunWatch
open Generations (Ascending)

namespace Board

inductive Move where
  | message (m : Push.Message) (now : Int64)
  | poll (p : Poll) (now : Int64)
  | prune
  | evaluate (c : Collection) (now : Int64)
  | channel (state : ChannelState)
  | remediation (c : Collection) (result : Except Fault Unit)

def move (b : Board) : Move → Board
  | .message m now => (b.receive m now).1
  | .poll p now => (b.applyPoll p now).1
  | .prune => b.prune
  | .evaluate c now => (b.evaluate c now).1
  | .channel state => (b.setChannel state).1
  | .remediation c result => (b.recordRemediation c result).1

def after (b : Board) (moves : List Move) : Board := moves.foldl move b

theorem after_cons (b : Board) (mv : Move) (rest : List Move) :
    b.after (mv :: rest) = (b.move mv).after rest := rfl

theorem after_append (b : Board) (earlier later : List Move) :
    b.after (earlier ++ later) = (b.after earlier).after later := List.foldl_append

def operation? (b : Board) (mv : Move) (c : Collection) : Option (Operation c.Record) :=
  match mv with
  | .message m now => b.pushTo? m now c
  | .poll p now => p.operationOn? now c
  | .prune => none
  | .evaluate d now => if d = c then some (.evaluate now) else none
  | .channel state => some (.channel state)
  | .remediation d result => if d = c then some (.remediation result) else none

theorem operation?_polled {b : Board} {mv : Move} (found : b.operation? mv c = some op) :
    (∃ p now, mv = .poll p now ∧ p.operationOn? now c = some op) ∨ op.listing? = none ∧ op.listedAt? = none := by
  cases mv with
  | message m now =>
    obtain ⟨id,p,rfl,_⟩ := pushTo?_push found
    exact Or.inr ⟨rfl,rfl⟩
  | poll p now => exact Or.inl ⟨p,now,rfl,found⟩
  | prune => cases found
  | evaluate d now =>
    obtain ⟨_,same⟩ := Option.ite_none_right_eq_some.mp found
    cases same
    exact Or.inr ⟨rfl,rfl⟩
  | channel state =>
    cases found
    exact Or.inr ⟨rfl,rfl⟩
  | remediation d result =>
    obtain ⟨_,same⟩ := Option.ite_none_right_eq_some.mp found
    cases same
    exact Or.inr ⟨rfl,rfl⟩

theorem evaluate_after (b : Board) (d : Collection) (now : Int64) (c : Collection) :
    (b.evaluate d now).1.roster c =
      (b.roster c).after (if d = c then some (.evaluate now) else none : Option (Operation c.Record)).toList := by
  cases d <;> cases c <;> rfl

theorem move_roster (b : Board) (mv : Move) (c : Collection) :
    (b.move mv).roster c = (b.roster c).after (b.operation? mv c).toList := by
  cases mv with
  | message m now => exact (b.receive_routed m now c).roster
  | poll p now => exact b.applyPoll_after p now c
  | prune => exact b.prune_roster c
  | evaluate d now => exact b.evaluate_after d now c
  | channel state => exact b.setChannel_roster state c
  | remediation d result => exact b.recordRemediation_after d result c

def operations (b : Board) (c : Collection) : List Move → List (Operation c.Record)
  | [] => []
  | mv :: rest => (b.operation? mv c).toList ++ (b.move mv).operations c rest

theorem after_roster (b : Board) (moves : List Move) (c : Collection) :
    (b.after moves).roster c = (b.roster c).after (b.operations c moves) := by
  induction moves generalizing b with
  | nil => rfl
  | cons mv rest ih => rw [after_cons,ih,b.move_roster,operations,Roster.after_append]

theorem operations_length (b : Board) (moves : List Move) (c : Collection) :
    (b.operations c moves).length ≤ moves.length := by
  induction moves generalizing b with
  | nil => exact Nat.le_refl 0
  | cons mv rest ih =>
    have few : (b.operation? mv c).toList.length ≤ 1 := by
      cases b.operation? mv c <;> simp
    have further := ih (b.move mv)
    simp only [operations,List.length_append,List.length_cons]
    omega

def Keeps (b : Board) (kind : Push.RunKind) (run : String) : Prop :=
  (b.runs kind).lastPollAt = none ∨ run ∈ (b.runs kind).records.map JobRecord.id

def Spares (b : Board) (run : String) : Prop := ∃ kind, b.Keeps kind run

variable {b : Board} {run : String}

theorem prune_samples (b : Board) (run : String) :
    b.prune.generations.samples run = b.generations.samples run ∨
      ¬ b.Spares run ∧ b.prune.generations.samples run = [] := by
  unfold prune
  dsimp only
  split
  · exact Or.inl rfl
  · rename_i polled
    simp only [Bool.or_eq_true,Option.isNone_iff_eq_none,not_or] at polled
    rw [Generations.samples_retain,List.map_append]
    split
    · exact Or.inl rfl
    · rename_i unlisted
      refine Or.inr ⟨?_,rfl⟩
      rintro ⟨kind,unpolled | shown⟩
      · cases kind with
        | job => exact polled.1 unpolled
        | discovery => exact polled.2 unpolled
      · cases kind with
        | job => exact unlisted (List.mem_append_left _ shown)
        | discovery => exact unlisted (List.mem_append_right _ shown)

theorem prune_spared (spares : b.Spares run) : b.prune.generations.samples run = b.generations.samples run :=
  (b.prune_samples run).resolve_right fun forgotten => forgotten.1 spares

theorem spares_of_prune (spares : b.prune.Spares run) : b.Spares run := by
  obtain ⟨kind,keeps⟩ := spares
  have same : b.prune.runs kind = b.runs kind := by
    cases kind
    · exact b.prune_roster .jobs
    · exact b.prune_roster .discoveryRuns
  exact ⟨kind,by rwa [Keeps,same] at keeps⟩

theorem prune_none (none : b.generations.samples run = []) : b.prune.generations.samples run = [] :=
  (b.prune_samples run).elim (·.trans none) And.right

theorem prune_ascending (ascending : ∀ run, Ascending (b.generations.samples run)) (run : String) :
    Ascending (b.prune.generations.samples run) := by
  rcases b.prune_samples run with same | ⟨_,forgotten⟩
  · exact same ▸ ascending run
  · exact forgotten ▸ .nil

theorem setChannel_generations (b : Board) (state : ChannelState) :
    (b.setChannel state).1.generations = b.generations := rfl

theorem applyPoll_generations (b : Board) (p : Poll) (now : Int64) :
    (b.applyPoll p now).1.generations = b.generations := by
  cases p <;> rfl

theorem recordRemediation_generations (b : Board) (c : Collection) (result : Except Fault Unit) :
    (b.recordRemediation c result).1.generations = b.generations := by
  cases result <;> cases c <;> rfl

theorem move_generations (b : Board) (mv : Move) :
    (b.move mv).generations =
      match mv with
      | .message (.progress _ p) _ => (b.generations.record p.runId p.sample).1
      | .prune => b.prune.generations
      | _ => b.generations := by
  cases mv with
  | message m now =>
    have received := b.receive_generations m now
    cases m <;> exact received
  | poll p now => exact b.applyPoll_generations p now
  | prune => rfl
  | evaluate c now => cases c <;> rfl
  | channel state => exact b.setChannel_generations state
  | remediation c result => exact b.recordRemediation_generations c result

-- Only pruning makes a history shorter, and it spares some.
theorem move_samples (b : Board) (mv : Move) (spares : b.Spares run) :
    b.generations.samples run <+: (b.move mv).generations.samples run := by
  rw [b.move_generations]
  split
  · rw [Generations.samples_record]
    split
    · exact List.prefix_append _ _
    · exact List.prefix_refl _
  · exact (prune_spared spares).symm ▸ List.prefix_refl _
  · exact List.prefix_refl _

theorem move_ascending (ascending : ∀ run, Ascending (b.generations.samples run)) (mv : Move) (run : String) :
    Ascending ((b.move mv).generations.samples run) := by
  rw [b.move_generations]
  split
  · exact Generations.record_ascending ascending _ _ run
  · exact prune_ascending ascending run
  · exact ascending run

end Board
end RunWatch
