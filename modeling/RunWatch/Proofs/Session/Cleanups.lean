import RunWatch.Proofs.Session.History
namespace RunWatch.Session

def Output.call? : Output → Option (Collection × Nat)
  | .request (.cleanup c id) => some (c,id)
  | _ => none

def Output.failure? : Output → Option RemediationFailure
  | .event (.remediationFailed failure) => some failure
  | _ => none

def callsTold (told : List Output) : List (Collection × Nat) := told.filterMap Output.call?

def failuresTold (told : List Output) : List RemediationFailure := told.filterMap Output.failure?

structure Ending where
  task : Cleanup
  result : Except Fault Unit

def Ending.failure? (e : Ending) : Option RemediationFailure :=
  (faultText? e.result).map fun reason => ⟨e.task.collection,reason⟩

def Step.abandoned : Step → List Nat
  | .abandonCleanup id => [id]
  | _ => []

theorem cleanup?_some {s : Monitor} {id : Nat} (found : s.cleanup? id = some task) :
    task ∈ s.cleanups ∧ task.id = id :=
  ⟨List.mem_of_find?_eq_some found,by simpa using List.find?_some found⟩

namespace Monitor

def looksAt? (s : Monitor) (step : Step) (c : Collection) : Option Int64 :=
  (s.operation? step c).bind fun op => op.looksAt? (s.board.roster c)

def fires (s : Monitor) (step : Step) : List Collection :=
  Collection.all.filter fun c => ((s.board.roster c).outcomes (s.operation? step c).toList).any Outcome.remediate

def endings (s : Monitor) : Step → List Ending
  | .cleaned id result _ => (s.cleanup? id).toList.map fun task => ⟨task,result⟩
  | _ => []

theorem fires_exact {s : Monitor} (target : Option Collection)
    (fired : ∀ c, target = some c ↔
      ∃ outcome ∈ (s.board.roster c).outcomes (s.operation? step c).toList, outcome.remediate = true) :
    s.fires step = target.toList := by
  have same : s.fires step = Collection.all.filter fun c => decide (target = some c) := by
    unfold fires
    congr 1
    funext c
    rw [Bool.eq_iff_iff,List.any_eq_true,decide_eq_true_iff]
    exact (fired c).symm
  rw [same]
  rcases target with _ | c
  · rfl
  · cases c <;> rfl

theorem fires_channel {s : Monitor} (set : ∀ c, s.operation? step c = (s.channelSet? step).map .channel) :
    s.fires step = [] := by
  apply fires_exact none
  intro c
  rw [set]
  cases s.channelSet? step <;> simp [Roster.outcomes,Roster.perform,Reply.outcome?]

-- Looking at the records is all that moves a guard, and decides what it answers.
theorem taken_looks (taken : Taken s step next outputs) (c : Collection) :
    let counts := ((s.looksAt? step c).map fun now => ((next.board.roster c).staleRecords now).length).toList
    (s.board.roster c).outcomes (s.operation? step c).toList = (s.board.roster c).guard.answers counts ∧
      (next.board.roster c).guard = (s.board.roster c).guard.shown counts := by
  have moved := taken_roster taken c
  unfold looksAt?
  cases performed : s.operation? step c with
  | none =>
    rw [performed] at moved
    rw [moved]
    exact ⟨rfl,rfl⟩
  | some op =>
    rw [performed] at moved
    have moved : next.board.roster c = ((s.board.roster c).perform op).1 := moved
    obtain ⟨answered,guard⟩ := (s.board.roster c).perform_looks op
    rw [moved]
    refine ⟨?_,guard⟩
    simp only [Option.toList_some,Roster.outcomes,List.append_nil]
    exact answered

theorem guard_stale (taken : Taken s step next outputs) (looked : s.looksAt? step c = some now)
    (stale : (next.board.roster c).staleRecords now ≠ []) : (next.board.roster c).guard = .triggered := by
  obtain ⟨_,moved⟩ := taken_looks taken c
  have some_stale : 0 < ((next.board.roster c).staleRecords now).length := List.length_pos_iff.mpr stale
  rw [moved,looked]
  simp [Guard.shown,Guard.advance_fst,some_stale]

theorem mem_fires (taken : Taken s step next outputs) (c : Collection) :
    c ∈ s.fires step ↔ (s.board.roster c).guard = .armed ∧
      ∃ now, s.looksAt? step c = some now ∧ (next.board.roster c).staleRecords now ≠ [] := by
  obtain ⟨answered,_⟩ := taken_looks taken c
  have listed : c ∈ Collection.all := by cases c <;> decide
  unfold fires
  rw [List.mem_filter,answered]
  cases s.looksAt? step c with
  | none => simp [Guard.answers]
  | some now =>
    simp [listed,Guard.answers,Outcome.remediate,Guard.advance_fire,List.length_pos_iff]

end Monitor

-- All that a step can be to the cleanups: it begins one, makes its call or ends it.
inductive Tended (s next : Monitor) :
    List Collection → List (Collection × Nat) → List RemediationFailure → List Ending → List Nat → Prop where
  | still (cleanups : next.cleanups = s.cleanups) (count : next.cleanupCount = s.cleanupCount) :
      Tended s next [] [] [] [] []
  | begun (c : Collection) (awaited : Bool)
      (cleanups : next.cleanups = s.cleanups ++ [⟨s.cleanupCount,c,awaited,false⟩])
      (count : next.cleanupCount = s.cleanupCount + 1) : Tended s next [c] [] [] [] []
  | called {id : Nat} (found : s.cleanup? id = some task) (uncalled : task.calling = false)
      (cleanups : next.cleanups = s.cleanups.map fun t => if t.id = id then { t with calling:=true } else t)
      (count : next.cleanupCount = s.cleanupCount) : Tended s next [] [(task.collection,id)] [] [] []
  | ended {id : Nat} (found : s.cleanup? id = some task) (called : task.calling = true)
      (result : Except Fault Unit)
      (cleanups : next.cleanups = s.cleanups.filter fun other => other.id != task.id)
      (count : next.cleanupCount = s.cleanupCount) :
      Tended s next [] [] (Ending.failure? ⟨task,result⟩).toList [⟨task,result⟩] []
  | abandoned {id : Nat} (found : s.cleanup? id = some task)
      (cleanups : next.cleanups = s.cleanups.filter fun other => other.id != task.id)
      (count : next.cleanupCount = s.cleanupCount) : Tended s next [] [] [] [] [id]

theorem Tended.unfired (tended : Tended s next [] calls failures endings dropped)
    (set : ∀ c, s.operation? step c = (s.channelSet? step).map .channel) :
    Tended s next (s.fires step) calls failures endings dropped := by
  rwa [Monitor.fires_channel set]

theorem Tended.begins (tended : Tended s next fires calls failures endings dropped) (fired : c ∈ fires) :
    ∃ awaited, next.cleanups = s.cleanups ++ [⟨s.cleanupCount,c,awaited,false⟩] := by
  cases tended with
  | begun d awaited cleanups count =>
    cases List.mem_singleton.mp fired
    exact ⟨awaited,cleanups⟩
  | _ => cases fired

theorem Tended.tells (tended : Tended s next fires calls failures endings dropped) :
    failures = endings.filterMap Ending.failure? := by
  cases tended with
  | ended found called result cleanups count => cases result <;> rfl
  | _ => rfl

namespace Monitor

theorem endCleanup_cleanups (s : Monitor) (task : Cleanup) :
    (s.endCleanup task).cleanups = (s.cleanups.filter fun other => other.id != task.id) ∧
      (s.endCleanup task).cleanupCount = s.cleanupCount := by
  unfold endCleanup
  dsimp only
  split <;> exact ⟨rfl,rfl⟩

theorem setChannel_silent (s : Monitor) (state : ChannelState) (m : Moment) :
    callsTold (s.setChannel state m).2 = [] ∧ failuresTold (s.setChannel state m).2 = [] := by
  simp only [setChannel]
  split <;> exact ⟨rfl,rfl⟩

theorem turn_tended {s : Monitor} (turned : s.turn state a follow m = (next,outputs)) :
    Tended s next [] (callsTold outputs) (failuresTold outputs) [] [] := by
  have told : (s.setChannel state m).2 = outputs := congrArg Prod.snd turned
  obtain ⟨uncalled,unfailed⟩ := s.setChannel_silent state m
  rw [← told,uncalled,unfailed]
  cases turned
  exact .still rfl rfl

theorem lost_tended {s : Monitor} (lost : s.lost reason follow m = (next,outputs)) :
    Tended s next [] (callsTold outputs) (failuresTold outputs) [] [] := by
  rcases lost_cases lost with ⟨_,rfl,rfl⟩ | ⟨_,turned⟩
  · exact .still rfl rfl
  · exact turn_tended turned

theorem handle_tended (s : Monitor) (message : Push.Message) (m : Moment) :
    Tended s (s.handle message m).1 (s.board.receive message m.wall).2.remediate.toList
      (callsTold (s.handle message m).2) (failuresTold (s.handle message m).2) [] [] := by
  unfold handle
  rcases s.board.receive message m.wall with ⟨board,changed,remediate,progress,flash,refresh⟩
  let told : List Output := (changed.map fun c => .event (.snapshot c (board.view c m.wall))).toList ++
    (progress.map fun update => .event (.progress update)).toList
  have silent : callsTold told = [] ∧ failuresTold told = [] := by
    cases changed <;> cases progress <;> exact ⟨rfl,rfl⟩
  dsimp only
  rw [silent.1,silent.2]
  cases remediate with
  | none => cases flash <;> cases refresh <;> exact .still rfl rfl
  | some c => cases flash <;> cases refresh <;> exact .begun c false rfl rfl

theorem onPolled_tended (s : Monitor) (p : Poll) (m : Moment) :
    Tended s (s.onPolled p m).1 (if (s.board.applyPoll p m.wall).2.remediate then [p.collection] else [])
      (callsTold (s.onPolled p m).2) (failuresTold (s.onPolled p m).2) [] [] := by
  unfold onPolled
  rcases s.board.applyPoll p m.wall with ⟨board,outcome⟩
  dsimp only
  split
  · exact .begun p.collection true rfl rfl
  · exact .still rfl rfl

theorem message_fires {s : Monitor} {f : Push.Frame} (carried : f.Carries message) (m : Moment) :
    s.fires (.frame f m) = (s.board.receive message m.wall).2.remediate.toList := by
  apply fires_exact
  intro c
  simp only [operation?,carried.message?]
  exact (s.board.receive_routed message m.wall c).remediate

theorem polled_fires (s : Monitor) (p : Poll) (m : Moment) :
    s.fires (.polled p m) = if (s.board.applyPoll p m.wall).2.remediate then [p.collection] else [] := by
  have target : s.fires (.polled p m) =
      (if (s.board.applyPoll p m.wall).2.remediate then some p.collection else none).toList := by
    apply fires_exact
    intro c
    simp only [operation?]
    by_cases same : c = p.collection
    · subst same
      simp [p.operationOn?_own,Roster.outcomes,s.board.applyPoll_answer,Reply.outcome?]
    · simp [p.operationOn?_other m.wall same,Roster.outcomes,Ne.symm same]
  rw [target]
  split <;> rfl

theorem cleaned_fires (s : Monitor) (id : Nat) (result : Except Fault Unit) (m : Moment) :
    s.fires (.cleaned id result m) = [] := by
  apply fires_exact none
  intro c
  simp only [operation?]
  cases s.cleanup? id with
  | none => simp [Roster.outcomes]
  | some task =>
    by_cases same : task.collection = c <;>
      simp [same,Roster.outcomes,Roster.perform,Reply.outcome?]

theorem message_tended {s : Monitor} {f : Push.Frame} (carried : f.Carries message)
    (handled : s.handle message m = (next,outputs)) :
    Tended s next (s.fires (.frame f m)) (callsTold outputs) (failuresTold outputs) [] [] := by
  have tended := s.handle_tended message m
  rw [handled] at tended
  rw [message_fires carried]
  exact tended

theorem polled_tended {s : Monitor} {p : Poll} (merged : s.onPolled p m = (next,outputs)) :
    Tended s next (s.fires (.polled p m)) (callsTold outputs) (failuresTold outputs) [] [] := by
  have tended := s.onPolled_tended p m
  rw [merged] at tended
  rw [polled_fires]
  exact tended

theorem onCleaned_told (s : Monitor) (task : Cleanup) (result : Except Fault Unit) (m : Moment) :
    callsTold (s.onCleaned task result m).2 = [] ∧
      failuresTold (s.onCleaned task result m).2 = (Ending.failure? ⟨task,result⟩).toList := by
  cases result <;> exact ⟨rfl,rfl⟩

theorem cleaned_tended {s : Monitor} {id : Nat} (found : s.cleanup? id = some task)
    (called : task.calling = true) (noted : s.onCleaned task result m = (next,outputs)) :
    Tended s next (s.fires (.cleaned id result m)) (callsTold outputs) (failuresTold outputs)
      (s.endings (.cleaned id result m)) [] := by
  have endings : s.endings (.cleaned id result m) = [⟨task,result⟩] := by
    simp [Monitor.endings,found]
  have told : (s.onCleaned task result m).2 = outputs := congrArg Prod.snd noted
  obtain ⟨uncalled,failed⟩ := s.onCleaned_told task result m
  rw [cleaned_fires,endings,← told,uncalled,failed]
  cases noted
  obtain ⟨cleanups,count⟩ := endCleanup_cleanups { s with board:=_ } task
  exact .ended found called result cleanups count

theorem taken_tended (taken : Taken s step next outputs) :
    Tended s next (s.fires step) (callsTold outputs) (failuresTold outputs) (s.endings step) step.abandoned := by
  cases taken with
  | message phase carried handled => exact message_tended carried handled
  | polled fetching merged => exact polled_tended merged
  | cleaned found called noted => exact cleaned_tended found called noted
  | callCleanup found uncalled =>
    rw [fires_channel fun c => rfl]
    exact .called found uncalled rfl rfl
  | abandonCleanup found cancelled =>
    obtain ⟨cleanups,count⟩ := s.endCleanup_cleanups _
    exact (Tended.abandoned found cleanups count).unfired fun c => rfl
  | openChannel phase live turned => exact (turn_tended turned).unfired fun c => rfl
  | connected phase turned => exact (turn_tended turned).unfired fun c => rfl
  | connectFailed phase turned => exact (turn_tended turned).unfired fun c => rfl
  | farewell phase silent turned => exact (turn_tended turned).unfired fun c => rfl
  | closeFrame phase lost => exact (lost_tended lost).unfired fun c => rfl
  | streamEnded phase lost => exact (lost_tended lost).unfired fun c => rfl
  | frameFailed phase lost => exact (lost_tended lost).unfired fun c => rfl
  | emptyFrame phase empty =>
    refine (Tended.still rfl rfl).unfired fun c => ?_
    simp only [operation?,empty.message?]
  | @tell a follow m phase =>
    rw [fires_channel fun c => rfl]
    cases follow <;> exact .still rfl rfl
  | heartbeat beats published =>
    rw [fires_channel fun c => rfl]
    cases published; exact .still rfl rfl
  | _ =>
    rw [fires_channel fun c => rfl]
    exact .still rfl rfl

theorem lost_cancelled {s : Monitor} (lost : s.lost reason follow m = (next,outputs)) :
    next.cancelled = s.cancelled := by
  rcases lost_cases lost with ⟨_,rfl,_⟩ | ⟨_,turned⟩
  · rfl
  · cases turned; rfl

theorem taken_cancelled (taken : Taken s step next outputs) (cancelled : s.cancelled = true) :
    next.cancelled = true := by
  cases taken with
  | openChannel phase live turned => cases turned; exact cancelled
  | connected phase turned => cases turned; exact cancelled
  | connectFailed phase turned => cases turned; exact cancelled
  | farewell phase silent turned => cases turned; exact cancelled
  | closeFrame phase lost => exact (lost_cancelled lost).trans cancelled
  | streamEnded phase lost => exact (lost_cancelled lost).trans cancelled
  | frameFailed phase lost => exact (lost_cancelled lost).trans cancelled
  | message phase carried handled => exact (handle_spares handled).cancelled.trans cancelled
  | polled fetching merged => exact (polled_spares merged).cancelled.trans cancelled
  | cleaned found called noted => exact (cleaned_spares noted).cancelled.trans cancelled
  | abandonCleanup found stopped => exact (s.endCleanup_spares _).cancelled.trans cancelled
  | heartbeat beats published => cases published; exact cancelled
  | cancel => rfl
  | _ => exact cancelled

theorem taken_abandons (taken : Taken s step next outputs) (abandons : step.abandoned ≠ []) :
    s.cancelled = true ∧ outputs = [] ∧ next.board = s.board := by
  cases taken with
  | abandonCleanup found cancelled => exact ⟨cancelled,rfl,endCleanup_board _ _⟩
  | _ => exact absurd rfl abandons

theorem taken_cleaned {id : Nat} (taken : Taken s (.cleaned id result m) next outputs) :
    ∃ task, task.id = id ∧ s.endings (.cleaned id result m) = [⟨task,result⟩] := by
  cases taken with
  | @cleaned task _ _ _ _ _ found called noted =>
    exact ⟨task,(cleanup?_some found).2,by simp [Monitor.endings,found]⟩

theorem fires_source {s : Monitor} (fired : s.fires step ≠ []) :
    (∃ p m, step = .polled p m) ∨ ∃ f m, step = .frame f m := by
  cases step with
  | polled p m => exact Or.inl ⟨p,m,rfl⟩
  | frame f m => exact Or.inr ⟨f,m,rfl⟩
  | cleaned id result m => exact absurd (s.cleaned_fires id result m) fired
  | _ => exact absurd (fires_channel fun c => rfl) fired

theorem noted_results (s : Monitor) (step : Step) (c : Collection) :
    (s.operation? step c).toList.filterMap Operation.cleanupResult? =
      ((s.endings step).filter fun e => e.task.collection = c).map Ending.result := by
  have channel : ((s.channelSet? step).map (.channel : ChannelState → Operation c.Record)).toList.filterMap
      Operation.cleanupResult? = [] := by
    cases s.channelSet? step <;> rfl
  cases step with
  | polled p m =>
    by_cases same : c = p.collection
    · subst same
      simp only [Monitor.operation?,p.operationOn?_own]
      cases p <;> rfl
    · simp only [Monitor.operation?,p.operationOn?_other m.wall same]
      rfl
  | cleaned id result m =>
    simp only [Monitor.operation?,Monitor.endings]
    cases s.cleanup? id with
    | none => rfl
    | some task => by_cases same : task.collection = c <;> simp [same,Operation.cleanupResult?]
  | frame f m =>
    cases carried : f.message? with
    | none =>
      simp only [Monitor.operation?,carried]
      exact channel
    | some message =>
      simp only [Monitor.operation?,carried]
      cases pushed : s.board.pushTo? message m.wall c with
      | none => rfl
      | some op =>
        obtain ⟨id,p,rfl,_⟩ := Board.pushTo?_push pushed
        rfl
  | _ => exact channel

end Monitor

end RunWatch.Session
