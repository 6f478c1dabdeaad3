import RunWatch.Board
import RunWatch.Proofs.Roster.Remediation
namespace RunWatch
open Monitored (Patch patch)

def Collection.Record : Collection → Type
  | .jobs => JobRecord
  | .discoveryRuns => JobRecord
  | .positions => PositionRecord
  | .sessions => SessionRecord

instance (c : Collection) : Monitored c.Record :=
  match c with
  | .jobs => inferInstanceAs (Monitored JobRecord)
  | .discoveryRuns => inferInstanceAs (Monitored JobRecord)
  | .positions => inferInstanceAs (Monitored PositionRecord)
  | .sessions => inferInstanceAs (Monitored SessionRecord)

def Poll.operation (now : Int64) : (p : Poll) → Operation p.collection.Record
  | .jobs result => .poll result now
  | .discoveryRuns result => .poll result now
  | .positions result => .poll result now
  | .sessions result => .poll result now

def Poll.operationOn? (p : Poll) (now : Int64) (c : Collection) : Option (Operation c.Record) :=
  match p, c with
  | .jobs result, .jobs => some (.poll result now)
  | .discoveryRuns result, .discoveryRuns => some (.poll result now)
  | .positions result, .positions => some (.poll result now)
  | .sessions result, .sessions => some (.poll result now)
  | _, _ => none

theorem Poll.operationOn?_own (p : Poll) (now : Int64) :
    p.operationOn? now p.collection = some (p.operation now) := by
  cases p <;> rfl

theorem Poll.operationOn?_other (p : Poll) (now : Int64) (other : c ≠ p.collection) :
    p.operationOn? now c = none := by
  cases p <;> cases c <;> first | rfl | exact absurd rfl other

def Push.Message.collection? : Push.Message → Option Collection
  | .progress kind _ => some (Board.runCollection kind)
  | .pnl _ => some .sessions
  | .position _ => some .positions
  | .unknown => none

def Push.Message.amended (m : Push.Message) (now : Int64) (c : Collection) : c.Record → c.Record :=
  match m, c with
  | .progress _ p, .jobs | .progress _ p, .discoveryRuns =>
    fun (record : JobRecord) => { record with progress:=some p.shown }
  | .pnl p, .sessions => fun (record : SessionRecord) =>
    { record with totalPnl:=p.totalPnl.or record.totalPnl, equity:=p.equity.or record.equity }
  | .position _, .positions => fun (record : PositionRecord) => { record with pushedAt:=some now }
  | _, _ => fun record => record

namespace Board

def addressed? (b : Board) : Push.Message → Option String
  | .progress _ p => some p.runId
  | .pnl p => p.sessionId.or b.sessionId
  | .position p => some (symbolName p.symbol)
  | .unknown => none

def roster (b : Board) : (c : Collection) → Roster c.Record
  | .jobs => b.jobs
  | .discoveryRuns => b.discoveryRuns
  | .positions => b.positions
  | .sessions => b.sessions

theorem view_revision (b : Board) (c : Collection) (now : Int64) :
    (b.view c now).revision = (b.roster c).revision := by
  cases c <;> rfl

theorem start_roster (settings : Settings) (c : Collection) :
    ∃ staleAfter, (Board.start settings).roster c = .fresh c staleAfter := by
  cases c <;> exact ⟨_,rfl⟩

theorem setChannel_roster (b : Board) (state : ChannelState) (c : Collection) :
    (b.setChannel state).1.roster c = ((b.roster c).setChannel state).1 := by
  cases c <;> rfl

theorem setChannel_unchanged {b : Board} {state : ChannelState} (unchanged : (b.setChannel state).2 = false)
    (c : Collection) : (b.setChannel state).1.roster c = b.roster c := by
  rw [setChannel_roster]
  unfold setChannel at unchanged
  simp only [Bool.or_eq_false_iff] at unchanged
  obtain ⟨⟨⟨jobs,discoveryRuns⟩,positions⟩,sessions⟩ := unchanged
  cases c with
  | jobs => exact Roster.setChannel_same jobs
  | discoveryRuns => exact Roster.setChannel_same discoveryRuns
  | positions => exact Roster.setChannel_same positions
  | sessions => exact Roster.setChannel_same sessions

theorem prune_roster (b : Board) (c : Collection) : b.prune.roster c = b.roster c := by
  unfold prune
  dsimp only
  split
  · rfl
  · cases c <;> rfl

theorem applyPoll_roster (b : Board) (p : Poll) (now : Int64) :
    (b.applyPoll p now).1.roster p.collection = ((b.roster p.collection).perform (p.operation now)).1 := by
  cases p <;> rfl

theorem applyPoll_roster_other (b : Board) (p : Poll) (now : Int64) (other : c ≠ p.collection) :
    (b.applyPoll p now).1.roster c = b.roster c := by
  cases p <;> cases c <;> first | rfl | exact absurd rfl other

theorem applyPoll_after (b : Board) (p : Poll) (now : Int64) (c : Collection) :
    (b.applyPoll p now).1.roster c = (b.roster c).after (p.operationOn? now c).toList := by
  by_cases same : c = p.collection
  · subst same
    rw [p.operationOn?_own]
    exact b.applyPoll_roster p now
  · rw [p.operationOn?_other now same]
    exact b.applyPoll_roster_other p now same

theorem applyPoll_answer (b : Board) (p : Poll) (now : Int64) :
    ((b.roster p.collection).perform (p.operation now)).2 = .outcome (b.applyPoll p now).2 := by
  cases p <;> rfl

theorem recordRemediation_roster (b : Board) (c : Collection) (result : Except Fault Unit) :
    (b.recordRemediation c result).1.roster c = (b.roster c).recordRemediation result := by
  cases result <;> cases c <;> rfl

theorem recordRemediation_roster_other (b : Board) (result : Except Fault Unit) (other : c ≠ d) :
    (b.recordRemediation d result).1.roster c = b.roster c := by
  cases result <;> cases d <;> cases c <;> first | rfl | exact absurd rfl other

theorem recordRemediation_after (b : Board) (d : Collection) (result : Except Fault Unit) (c : Collection) :
    (b.recordRemediation d result).1.roster c = (b.roster c).after
      (if d = c then some (.remediation result) else none : Option (Operation c.Record)).toList := by
  by_cases same : d = c
  · subst same
    rw [if_pos rfl]
    exact b.recordRemediation_roster d result
  · rw [if_neg same]
    exact b.recordRemediation_roster_other result (Ne.symm same)

theorem lastMessageAt_roster (b : Board) (at? : Option Int64) (c : Collection) :
    ({ b with lastMessageAt:=at? } : Board).roster c = b.roster c := by
  cases c <;> rfl

def pushTo? (b : Board) (m : Push.Message) (now : Int64) (c : Collection) : Option (Operation c.Record) :=
  match m, c with
  | .progress .job p, .jobs | .progress .discovery p, .discoveryRuns =>
    if (b.generations.record p.runId p.sample).2 then
      some (.push p.runId ({ progress:=some p.shown } : JobPatch) now)
    else none
  | .pnl p, .sessions =>
    (p.sessionId.or b.sessionId).map fun id => .push id (⟨p.totalPnl,p.equity⟩ : SessionPatch) now
  | .position p, .positions => some (.push (symbolName p.symbol) (⟨now⟩ : PositionPatch) now)
  | _, _ => none

structure Routed (before after : Board) (effects : Effects) (c : Collection)
    (push : Option (Operation c.Record)) : Prop where
  roster : after.roster c = (before.roster c).after push.toList
  changed : effects.changed = some c ↔ ∃ outcome, outcome ∈ (before.roster c).outcomes push.toList
  remediate : effects.remediate = some c ↔
    ∃ outcome ∈ (before.roster c).outcomes push.toList, outcome.remediate = true

theorem Routed.nothing {before after : Board} {effects : Effects} (same : after.roster c = before.roster c)
    (unchanged : effects.changed ≠ some c) (unfired : effects.remediate ≠ some c) :
    Routed before after effects c none :=
  ⟨same,by simp [unchanged,Roster.outcomes],by simp [unfired,Roster.outcomes]⟩

theorem Routed.to {before after : Board} {effects : Effects}
    {push : (c : Collection) → Option (Operation c.Record)}
    (d : Collection) (id : String) (p : Patch d.Record) (pushed : push d = some (.push id p now))
    (target : after.roster d = ((before.roster d).applyPush id p now).1)
    (others : ∀ c, c ≠ d → push c = none ∧ after.roster c = before.roster c)
    (changed : effects.changed = (Effects.ofOutcome d ((before.roster d).applyPush id p now).2).changed)
    (remediate : effects.remediate = (Effects.ofOutcome d ((before.roster d).applyPush id p now).2).remediate)
    (c : Collection) : Routed before after effects c (push c) := by
  by_cases same : c = d
  · subst same
    have answered : (before.roster c).outcomes [.push id p now] =
        ((before.roster c).applyPush id p now).2.toList := by
      simp only [Roster.outcomes,Roster.perform,List.append_nil]
      cases ((before.roster c).applyPush id p now).2 <;> rfl
    rw [pushed]
    refine ⟨target,?_,?_⟩
    · simp only [Option.toList_some,answered,changed]
      cases ((before.roster c).applyPush id p now).2 <;> simp [Effects.ofOutcome]
    · simp only [Option.toList_some,answered,remediate]
      cases ((before.roster c).applyPush id p now).2 <;> simp [Effects.ofOutcome]
  · obtain ⟨unpushed,kept⟩ := others c same
    rw [unpushed]
    refine .nothing kept ?_ ?_
    · rw [changed]
      cases ((before.roster d).applyPush id p now).2 <;> simp [Effects.ofOutcome,Ne.symm same]
    · rw [remediate]
      cases ((before.roster d).applyPush id p now).2 <;> simp [Effects.ofOutcome,Ne.symm same]

theorem receiveProgress_routed (b : Board) (kind : Push.RunKind) (p : Push.Progress) (now : Int64)
    (c : Collection) :
    Routed b (b.receiveProgress kind p now).1 (b.receiveProgress kind p now).2 c
      (b.pushTo? (.progress kind p) now c) := by
  unfold receiveProgress
  split
  · rename_i old recorded
    have unpushed : b.pushTo? (.progress kind p) now c = none := by
      cases kind <;> cases c <;> simp [pushTo?,recorded]
    rw [unpushed]
    exact .nothing rfl (by simp) (by simp)
  · rename_i generations recorded
    have newer : (b.generations.record p.runId p.sample).2 = true := by rw [recorded]
    let patch : JobPatch := { progress:=some p.shown }
    cases kind with
    | job =>
      refine Routed.to .jobs p.runId patch (if_pos newer) ?_ ?_ ?_ ?_ c
      rotate_left
      · intro c other
        cases c <;> first | exact ⟨rfl,rfl⟩ | exact absurd rfl other
      all_goals rfl
    | discovery =>
      refine Routed.to .discoveryRuns p.runId patch (if_pos newer) ?_ ?_ ?_ ?_ c
      rotate_left
      · intro c other
        cases c <;> first | exact ⟨rfl,rfl⟩ | exact absurd rfl other
      all_goals rfl

theorem receivePnl_routed (b : Board) (p : Push.Pnl) (now : Int64) (c : Collection) :
    Routed b (b.receivePnl p now).1 (b.receivePnl p now).2 c (b.pushTo? (.pnl p) now c) := by
  unfold receivePnl
  cases target : p.sessionId.or b.sessionId with
  | none =>
    have unpushed : b.pushTo? (.pnl p) now c = none := by
      cases c <;> simp [pushTo?,target]
    rw [unpushed]
    exact .nothing rfl (by simp) (by simp)
  | some id =>
    let patch : SessionPatch := ⟨p.totalPnl,p.equity⟩
    have pushed : b.pushTo? (.pnl p) now .sessions = some (.push id patch now) := by
      simp only [pushTo?,target]; rfl
    refine Routed.to .sessions id patch pushed ?_ ?_ ?_ ?_ c
    rotate_left
    · intro c other
      cases c <;> first | exact ⟨rfl,rfl⟩ | exact absurd rfl other
    all_goals rfl

theorem receivePosition_routed (b : Board) (p : Push.Position) (now : Int64) (c : Collection) :
    Routed b (b.receivePosition p now).1 (b.receivePosition p now).2 c (b.pushTo? (.position p) now c) := by
  let patch : PositionPatch := ⟨now⟩
  refine Routed.to .positions (symbolName p.symbol) patch rfl ?_ ?_ ?_ ?_ c
  rotate_left
  · intro c other
    cases c <;> first | exact ⟨rfl,rfl⟩ | exact absurd rfl other
  all_goals rfl

theorem receive_routed (b : Board) (m : Push.Message) (now : Int64) (c : Collection) :
    Routed b (b.receive m now).1 (b.receive m now).2 c (b.pushTo? m now c) := by
  let dated : Board := { b with lastMessageAt:=some now }
  have same : dated.roster c = b.roster c := b.lastMessageAt_roster (some now) c
  have routed : Routed dated (b.receive m now).1 (b.receive m now).2 c (dated.pushTo? m now c) := by
    cases m with
    | progress kind p => exact dated.receiveProgress_routed kind p now c
    | pnl p => exact dated.receivePnl_routed p now c
    | position p => exact dated.receivePosition_routed p now c
    | unknown =>
      have unpushed : dated.pushTo? .unknown now c = none := by cases c <;> rfl
      rw [unpushed]
      exact .nothing rfl (by simp [receive]) (by simp [receive])
  obtain ⟨roster,changed,remediate⟩ := routed
  rw [same] at roster changed remediate
  exact ⟨roster,changed,remediate⟩

theorem pushTo?_push {b : Board} {m : Push.Message} (pushed : b.pushTo? m now c = some op) :
    ∃ id p, op = .push id p now ∧ m.collection? = some c ∧ b.addressed? m = some id ∧
      ∀ record, patch p record = m.amended now c record := by
  unfold pushTo? at pushed
  split at pushed
  · split at pushed
    · cases pushed; exact ⟨_,_,rfl,rfl,rfl,fun _ => rfl⟩
    · cases pushed
  · split at pushed
    · cases pushed; exact ⟨_,_,rfl,rfl,rfl,fun _ => rfl⟩
    · cases pushed
  · obtain ⟨id,target,rfl⟩ := Option.map_eq_some_iff.mp pushed
    exact ⟨_,_,rfl,rfl,target,fun _ => rfl⟩
  · cases pushed; exact ⟨_,_,rfl,rfl,rfl,fun _ => rfl⟩
  · cases pushed

-- What a message is to a collection: nothing, or a push to a record that it knows.
inductive Pushed (before : Board) (m : Push.Message) (now : Int64) (c : Collection) (after : Board)
    (effects : Effects) : Prop where
  | nothing (same : after.roster c = before.roster c) (unchanged : effects.changed ≠ some c)
      (unfired : effects.remediate ≠ some c) : Pushed before m now c after effects
  | push {id : String} (routed : m.collection? = some c) (addressed : before.addressed? m = some id)
      (amends : ∀ record, patch p record = m.amended now c record)
      (known : (before.roster c).find? id = some record)
      (roster : after.roster c = ((before.roster c).applyPush id p now).1) (changed : effects.changed = some c)
      (remediate : effects.remediate = some c ↔
        ∃ outcome ∈ ((before.roster c).applyPush id p now).2, outcome.remediate = true) :
      Pushed before m now c after effects

theorem receive_pushed (b : Board) (m : Push.Message) (now : Int64) (c : Collection) :
    Pushed b m now c (b.receive m now).1 (b.receive m now).2 := by
  obtain ⟨roster,changed,remediate⟩ := b.receive_routed m now c
  cases pushed : b.pushTo? m now c with
  | none =>
    simp only [pushed,Option.toList_none,Roster.outcomes,List.not_mem_nil,exists_false,false_and,
      iff_false] at roster changed remediate
    exact .nothing roster changed remediate
  | some op =>
    obtain ⟨id,p,rfl,routed,addressed,amends⟩ := pushTo?_push pushed
    simp only [pushed,Option.toList_some] at roster changed remediate
    cases known : (b.roster c).find? id with
    | none =>
      have silent : (b.roster c).outcomes [.push id p now] = [] := by
        simp only [Roster.outcomes,Roster.perform,Roster.applyPush_unknown known]; rfl
      have same : (b.roster c).after [.push id p now] = b.roster c := by
        simp only [Roster.after,List.foldl_cons,List.foldl_nil,Roster.perform,Roster.applyPush_unknown known]
      rw [same] at roster
      simp only [silent,List.not_mem_nil,exists_false,false_and,iff_false] at changed remediate
      exact .nothing roster changed remediate
    | some record =>
      have answered : (b.roster c).outcomes [.push id p now] =
          ((b.roster c).applyPush id p now).2.toList := by
        simp only [Roster.outcomes,Roster.perform,Roster.applyPush_known known]; rfl
      rw [answered] at changed remediate
      refine .push routed addressed amends known roster (changed.mpr ?_) ?_
      · rw [Roster.applyPush_known known]
        exact ⟨_,List.mem_singleton_self _⟩
      · simpa using remediate

end Board
end RunWatch
