import RunWatch.Proofs.Board.Pruning
import RunWatch.Proofs.Session.Display
namespace RunWatch.Session

theorem updatesTold_append (earlier later : List Output) :
    updatesTold (earlier ++ later) = updatesTold earlier ++ updatesTold later := List.filterMap_append

theorem updatesTold_snapshot (changed : Option Collection) (view : Collection → View) :
    updatesTold (changed.map fun c => .event (.snapshot c (view c))).toList = [] := by
  cases changed <;> rfl

theorem updatesTold_progress (progress : Option ProgressUpdate) :
    updatesTold (progress.map fun update => .event (.progress update)).toList = progress.toList := by
  cases progress <;> rfl

theorem updatesTold_failure (failure : Option RemediationFailure) :
    updatesTold (failure.map fun f => .event (.remediationFailed f)).toList = [] := by
  cases failure <;> rfl

theorem Reaches.turns (reaches : Reaches before after outputs) :
    after = before ∧ updatesTold outputs = [] ∨
      ∃ t, after = before.turn t ∧ updatesTold outputs = (before.update? t).toList := by
  cases reaches with
  | still silent untold => exact Or.inl ⟨rfl,untold⟩
  | channel state m =>
    refine Or.inr ⟨.channel state,rfl,?_⟩
    split <;> rfl
  | message message m =>
    refine Or.inr ⟨.message message m.wall,rfl,?_⟩
    rw [updatesTold_append,updatesTold_snapshot,updatesTold_progress]; rfl
  | polled p m => exact Or.inr ⟨.poll p m.wall,rfl,rfl⟩
  | cleaned c result m =>
    refine Or.inr ⟨.remediation c result,rfl,?_⟩
    rw [updatesTold_append,updatesTold_failure]; rfl

def PassesBy (settings : Settings) (steps : List Step) (turns : List Board.Turn) : Prop :=
  ∃ sooner rest between heard, steps = sooner ++ rest ∧ Run settings sooner between heard ∧
    between.board = (Board.start settings).drive turns ∧ updatesTold heard = (Board.start settings).updates turns

theorem Run.passesBy (run : Run settings steps s told) (board : s.board = (Board.start settings).drive turns)
    (updates : updatesTold told = (Board.start settings).updates turns) : PassesBy settings steps turns :=
  ⟨steps,[],s,told,(List.append_nil _).symm,run,board,updates⟩

theorem PassesBy.further (passes : PassesBy settings steps turns) (more : List Step) :
    PassesBy settings (steps ++ more) turns := by
  obtain ⟨sooner,rest,between,heard,rfl,there⟩ := passes
  exact ⟨sooner,rest ++ more,between,heard,List.append_assoc ..,there⟩

structure Drives (settings : Settings) (steps : List Step) (s : Monitor) (told : List Output) (turns : List Board.Turn) :
    Prop where
  board : s.board = (Board.start settings).drive turns
  updates : updatesTold told = (Board.start settings).updates turns
  points : ∀ earlier later, turns = earlier ++ later → PassesBy settings steps earlier

theorem run_drives (run : Run settings steps s told) : ∃ turns, Drives settings steps s told turns := by
  induction run with
  | start m =>
    refine ⟨[],rfl,rfl,fun earlier later split => ?_⟩
    obtain ⟨rfl,rfl⟩ := List.append_eq_nil_iff.mp split.symm
    exact (Run.start m).passesBy rfl rfl
  | @step steps s told next outputs run step took ih =>
    obtain ⟨turns,drives⟩ := ih
    have sooner (earlier later) (split : turns = earlier ++ later) : PassesBy settings (steps ++ [step]) earlier :=
      (drives.points earlier later split).further [step]
    rcases (Monitor.advance_reaches took).turns with ⟨same,untold⟩ | ⟨t,turned,news⟩
    · refine ⟨turns,same.trans drives.board,?_,sooner⟩
      rw [updatesTold_append,untold,List.append_nil,drives.updates]
    · have board : next.board = (Board.start settings).drive (turns ++ [t]) := by
        rw [turned,drives.board,Board.drive_concat]
      have updates : updatesTold (told ++ outputs) = (Board.start settings).updates (turns ++ [t]) := by
        rw [updatesTold_append,drives.updates,news,drives.board,Board.updates_concat]
      refine ⟨turns ++ [t],board,updates,fun earlier later split => ?_⟩
      rcases List.eq_nil_or_concat later with rfl | ⟨front,last,rfl⟩
      · rw [List.append_nil] at split
        exact split ▸ (run.step step took).passesBy board updates
      · rw [List.concat_eq_append,←List.append_assoc] at split
        exact sooner earlier front (List.append_inj' split rfl).1

-- A session has kept every generation that it told of a run, if one of the two lists had
-- not been polled or showed the run, at every point since the first of them.
theorem spared_run_keeps_generations (run : Run settings steps s told) (name : String)
    (spared : ∀ sooner rest between heard, steps = sooner ++ rest → Run settings sooner between heard →
      Board.samplesOf name (updatesTold heard) ≠ [] → between.board.Spares name) :
    s.board.generations.samples name = Board.samplesOf name (updatesTold told) ∧
      Generations.Ascending (Board.samplesOf name (updatesTold told)) := by
  obtain ⟨turns,drives⟩ := run_drives run
  have once : (Board.start settings).SparedOnceTold name turns := by
    intro earlier p now later split told
    obtain ⟨sooner,rest,between,heard,within,there,board,updates⟩ :=
      drives.points (earlier ++ [.poll p now]) later (by rw [split,List.append_assoc]; rfl)
    have news : Board.samplesOf name (updatesTold heard) ≠ [] := by
      rw [updates,Board.updates_concat,Board.samplesOf_append]
      exact List.append_ne_nil_of_left_ne_nil told _
    have spares := spared sooner rest between heard within there news
    rw [board,Board.drive_concat] at spares
    exact Board.spares_of_prune spares
  have kept := Board.drive_samples (b := Board.start settings) rfl once
  have ascending := Board.drive_ascending (b := Board.start settings) (fun _ => .nil) turns name
  rw [drives.board,drives.updates]
  exact ⟨kept,kept ▸ ascending⟩

end RunWatch.Session
