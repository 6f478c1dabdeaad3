import Mathlib.Data.List.Chain
import RunWatch.Proofs.Session.Run
namespace RunWatch.Session

def Output.view? (c : Collection) : Output → Option View
  | .event (.snapshot d view) => if d = c then some view else none
  | _ => none

def viewsTold (c : Collection) (told : List Output) : List View := told.filterMap (Output.view? c)

def Output.update? : Output → Option ProgressUpdate
  | .event (.progress update) => some update
  | _ => none

def updatesTold (told : List Output) : List ProgressUpdate := told.filterMap Output.update?

def revisionsTold (c : Collection) (told : List Output) : List UInt64 := (viewsTold c told).map View.revision

theorem viewsTold_append (c : Collection) (earlier later : List Output) :
    viewsTold c (earlier ++ later) = viewsTold c earlier ++ viewsTold c later := List.filterMap_append

theorem revisionsTold_append (c : Collection) (earlier later : List Output) :
    revisionsTold c (earlier ++ later) = revisionsTold c earlier ++ revisionsTold c later := by
  simp only [revisionsTold,viewsTold_append,List.map_append]

theorem viewsTold_snapshots (c : Collection) (board : Board) (m : Moment) :
    viewsTold c (Monitor.snapshots board m) = [board.view c m.wall] := by
  cases c <;> rfl

theorem viewsTold_one (c d : Collection) (view : View) :
    viewsTold c [.event (.snapshot d view)] = if d = c then [view] else [] := by
  by_cases same : d = c <;> simp [viewsTold,Output.view?,same]

theorem viewsTold_changed (c : Collection) (board : Board) (changed : Option Collection) (now : Int64) :
    viewsTold c (changed.map fun d => .event (.snapshot d (board.view d now))).toList =
      if changed = some c then [board.view c now] else [] := by
  cases changed with
  | none => rfl
  | some d =>
    simp only [Option.map_some,Option.toList_some,viewsTold_one,Option.some.injEq]
    split
    · rename_i same
      rw [same]
    · rfl

theorem viewsTold_failure (c : Collection) (failure : Option RemediationFailure) :
    viewsTold c (failure.map fun f => .event (.remediationFailed f)).toList = [] := by
  cases failure <;> rfl

theorem viewsTold_progress (c : Collection) (progress : Option ProgressUpdate) :
    viewsTold c (progress.map fun update => .event (.progress update)).toList = [] := by
  cases progress <;> rfl

inductive Reaches (board : Board) : Board → List Output → Prop where
  | still (silent : ∀ c, viewsTold c outputs = []) (untold : updatesTold outputs = []) :
      Reaches board board outputs
  | channel (state : ChannelState) (m : Moment) : Reaches board (board.setChannel state).1
      (if (board.setChannel state).2 then Monitor.snapshots (board.setChannel state).1 m else [])
  | message (message : Push.Message) (m : Moment) : Reaches board (board.receive message m.wall).1
      (((board.receive message m.wall).2.changed.map fun c =>
          .event (.snapshot c ((board.receive message m.wall).1.view c m.wall))).toList ++
        ((board.receive message m.wall).2.progress.map fun update => .event (.progress update)).toList)
  | polled (p : Poll) (m : Moment) : Reaches board (board.applyPoll p m.wall).1.prune
      [.event (.snapshot p.collection ((board.applyPoll p m.wall).1.prune.view p.collection m.wall))]
  | cleaned (c : Collection) (result : Except Fault Unit) (m : Moment) :
      Reaches board (board.recordRemediation c result).1
        (((board.recordRemediation c result).2.map fun f => .event (.remediationFailed f)).toList ++
          [.event (.snapshot c ((board.recordRemediation c result).1.view c m.wall))])

namespace Monitor

theorem turn_reaches {s : Monitor} (turned : s.turn state a follow m = (next,outputs)) :
    Reaches s.board next.board outputs := by
  cases turned
  exact .channel state m

theorem lost_reaches {s : Monitor} (lost : s.lost reason follow m = (next,outputs)) :
    Reaches s.board next.board outputs := by
  rcases lost_cases lost with ⟨_,rfl,rfl⟩ | ⟨_,turned⟩
  · exact .still (fun _ => rfl) rfl
  · exact turn_reaches turned

theorem handle_reaches {s : Monitor} (handled : s.handle message m = (next,outputs)) :
    Reaches s.board next.board outputs := by
  have board := s.handle_board message m
  rw [handled] at board
  have told : (s.handle message m).2 = outputs := by rw [handled]
  rw [show next.board = _ from board,← told]
  exact .message message m

theorem polled_reaches {s : Monitor} {p : Poll} (merged : s.onPolled p m = (next,outputs)) :
    Reaches s.board next.board outputs := by
  obtain ⟨board,told⟩ := s.onPolled_eq p m
  rw [merged] at board told
  rw [show next.board = _ from board,show outputs = _ from told]
  exact .polled p m

theorem cleaned_reaches {s : Monitor} (noted : s.onCleaned task result m = (next,outputs)) :
    Reaches s.board next.board outputs := by
  cases noted
  rw [endCleanup_board]
  exact .cleaned task.collection result m

theorem taken_reaches (taken : Taken s step next outputs) : Reaches s.board next.board outputs := by
  cases taken with
  | openChannel phase live turned => exact turn_reaches turned
  | connected phase turned => exact turn_reaches turned
  | connectFailed phase turned => exact turn_reaches turned
  | farewell phase silent turned => exact turn_reaches turned
  | closeFrame phase lost => exact lost_reaches lost
  | streamEnded phase lost => exact lost_reaches lost
  | frameFailed phase lost => exact lost_reaches lost
  | message phase carried handled => exact handle_reaches handled
  | polled fetching merged => exact polled_reaches merged
  | cleaned found called noted => exact cleaned_reaches noted
  | @tell a follow m phase => exact .still (fun c => by cases follow <;> rfl) (by cases follow <;> rfl)
  | heartbeat beats published => cases published; exact .still (fun _ => rfl) rfl
  | abandonCleanup found cancelled =>
    rw [endCleanup_board]
    exact .still (fun _ => rfl) rfl
  | _ => exact .still (fun _ => rfl) rfl

theorem advance_reaches {s : Monitor} (took : s.advance step = some (next,outputs)) :
    Reaches s.board next.board outputs := taken_reaches (advance_taken took)

end Monitor

-- What a step is to one collection: nothing, or an operation on its roster that is told.
def Touches (before after : Board) (outputs : List Output) (c : Collection) : Prop :=
  (after.roster c = before.roster c ∧ viewsTold c outputs = []) ∨
    ∃ (op : Operation c.Record) (now : Int64),
      after.roster c = ((before.roster c).perform op).1 ∧ viewsTold c outputs = [after.view c now]

theorem Reaches.touches (reaches : Reaches before after outputs) (c : Collection) :
    Touches before after outputs c := by
  cases reaches with
  | still silent => exact Or.inl ⟨rfl,silent c⟩
  | channel state m =>
    cases changed : (before.setChannel state).2 with
    | false => exact Or.inl ⟨Board.setChannel_unchanged changed c,rfl⟩
    | true => exact Or.inr ⟨.channel state,m.wall,before.setChannel_roster state c,viewsTold_snapshots c _ m⟩
  | message message m =>
    simp only [Touches,viewsTold_append,viewsTold_changed,viewsTold_progress,List.append_nil]
    cases before.receive_pushed message m.wall c with
    | nothing same unchanged => exact Or.inl ⟨same,if_neg unchanged⟩
    | push routed addressed amends known roster changed => exact Or.inr ⟨.push _ _ m.wall,m.wall,roster,if_pos changed⟩
  | polled p m =>
    simp only [Touches,viewsTold_one,Board.prune_roster]
    by_cases same : p.collection = c
    · subst same
      exact Or.inr ⟨p.operation m.wall,m.wall,before.applyPoll_roster p m.wall,if_pos rfl⟩
    · exact Or.inl ⟨before.applyPoll_roster_other p m.wall (Ne.symm same),if_neg same⟩
  | cleaned d result m =>
    simp only [Touches,viewsTold_append,viewsTold_failure,viewsTold_one,List.nil_append]
    by_cases same : d = c
    · subst same
      exact Or.inr ⟨.remediation result,m.wall,before.recordRemediation_roster d result,if_pos rfl⟩
    · exact Or.inl ⟨before.recordRemediation_roster_other result (Ne.symm same),if_neg same⟩

theorem Reaches.channel_agrees (reaches : Reaches before after outputs)
    (agree : ∀ c d, (before.roster c).channel = (before.roster d).channel) (c d : Collection) :
    (after.roster c).channel = (after.roster d).channel := by
  cases reaches with
  | still silent => exact agree c d
  | channel state m =>
    have set : ∀ c, ((before.setChannel state).1.roster c).channel = state := by
      intro c
      rw [before.setChannel_roster,Roster.setChannel_fst]
    rw [set c,set d]
  | message message m =>
    have kept : ∀ c, ((before.receive message m.wall).1.roster c).channel = (before.roster c).channel := by
      intro c
      cases before.receive_pushed message m.wall c with
      | nothing same => rw [same]
      | push routed addressed amends known roster =>
        rw [roster]
        exact (Roster.perform_follows (before.roster c) (.push _ _ m.wall)).channel
    rw [kept c,kept d,agree c d]
  | polled p m =>
    have kept : ∀ c, ((before.applyPoll p m.wall).1.prune.roster c).channel = (before.roster c).channel := by
      intro c
      rw [Board.prune_roster]
      by_cases same : c = p.collection
      · subst same
        rw [before.applyPoll_roster,(Roster.perform_follows _ _).channel]
        cases p <;> rfl
      · rw [before.applyPoll_roster_other p m.wall same]
    rw [kept c,kept d,agree c d]
  | cleaned e result m =>
    have kept : ∀ c, ((before.recordRemediation e result).1.roster c).channel = (before.roster c).channel := by
      intro c
      by_cases same : c = e
      · subst same
        rw [before.recordRemediation_roster]
        exact (Roster.perform_follows (before.roster c) (.remediation result)).channel
      · rw [before.recordRemediation_roster_other result same]
    rw [kept c,kept d,agree c d]

inductive Revisions : List UInt64 → UInt64 → Prop where
  | none : Revisions [] 0
  | again (earlier : Revisions told revision) : Revisions (told ++ [revision]) revision
  | next (earlier : Revisions told revision) : Revisions (told ++ [revision + 1]) (revision + 1)

namespace Revisions

theorem last (revisions : Revisions told revision) :
    told.getLast? = some revision ∨ told = [] ∧ revision = 0 := by
  cases revisions with
  | none => exact Or.inr ⟨rfl,rfl⟩
  | again earlier => exact Or.inl List.getLast?_concat
  | next earlier => exact Or.inl List.getLast?_concat

theorem chain (revisions : Revisions told revision) :
    told.IsChain fun earlier later => later = earlier ∨ later = earlier + 1 := by
  have link {told : List UInt64} {revision following : UInt64} (revisions : Revisions told revision)
      (linked : told.IsChain fun earlier later => later = earlier ∨ later = earlier + 1)
      (follows : following = revision ∨ following = revision + 1) :
      (told ++ [following]).IsChain fun earlier later => later = earlier ∨ later = earlier + 1 := by
    refine List.isChain_append.mpr ⟨linked,List.isChain_singleton _,?_⟩
    intro earlier final later first
    cases first
    rcases revisions.last with current | ⟨nothing,_⟩
    · cases current.symm.trans final
      exact follows
    · subst nothing
      cases final
  induction revisions with
  | none => exact List.isChain_nil
  | again earlier ih => exact link earlier ih (Or.inl rfl)
  | next earlier ih => exact link earlier ih (Or.inr rfl)

-- The count starts anew after 2 ^ 64 revisions, so shorter lists ascend.
theorem ascending (revisions : Revisions told revision) (short : told.length < UInt64.size) :
    told.Pairwise (· ≤ ·) ∧ (∀ earlier ∈ told, earlier ≤ revision) ∧ revision.toNat ≤ told.length := by
  have extend {told : List UInt64} {revision : UInt64} (ascending : told.Pairwise (· ≤ ·))
      (bound : ∀ earlier ∈ told, earlier ≤ revision) :
      (told ++ [revision]).Pairwise (· ≤ ·) ∧ ∀ earlier ∈ told ++ [revision], earlier ≤ revision := by
    refine ⟨List.pairwise_append.mpr ⟨ascending,List.pairwise_singleton _ _,?_⟩,?_⟩
    · intro earlier member last same
      cases List.mem_singleton.mp same
      exact bound earlier member
    · intro earlier member
      rcases List.mem_append.mp member with prior | last
      · exact bound earlier prior
      · cases List.mem_singleton.mp last
        exact UInt64.le_refl _
  induction revisions with
  | none => exact ⟨List.Pairwise.nil,by simp,Nat.le_refl _⟩
  | again earlier ih =>
    rw [List.length_append] at short ⊢
    obtain ⟨ascending,bound,count⟩ := ih (Nat.lt_of_le_of_lt (Nat.le_add_right _ _) short)
    obtain ⟨ascending,bound⟩ := extend ascending bound
    exact ⟨ascending,bound,Nat.le_add_right_of_le count⟩
  | @next told revision earlier ih =>
    rw [List.length_append,List.length_singleton] at short ⊢
    obtain ⟨ascending,bound,count⟩ := ih (Nat.lt_of_le_of_lt (Nat.le_add_right _ _) short)
    have following : (revision + 1).toNat = revision.toNat + 1 := by
      rw [UInt64.toNat_add]
      exact Nat.mod_eq_of_lt (Nat.lt_of_le_of_lt (Nat.succ_le_succ count) short)
    have higher : ∀ earlier ∈ told, earlier ≤ revision + 1 := by
      intro earlier member
      have below := UInt64.le_iff_toNat_le.mp (bound earlier member)
      exact UInt64.le_iff_toNat_le.mpr (by omega)
    obtain ⟨ascending,bound⟩ := extend ascending higher
    exact ⟨ascending,bound,by omega⟩

end Revisions

theorem Touches.revisions (touches : Touches before after outputs c)
    (revisions : Revisions (revisionsTold c told) (before.roster c).revision) :
    Revisions (revisionsTold c (told ++ outputs)) (after.roster c).revision := by
  rw [revisionsTold_append]
  rcases touches with ⟨same,silent⟩ | ⟨op,now,performed,shown⟩
  · simpa [revisionsTold,silent,same] using revisions
  · have shows : revisionsTold c outputs = [(after.roster c).revision] := by
      simp only [revisionsTold,shown,List.map_cons,List.map_nil,Board.view_revision]
    rw [shows,performed]
    rcases (before.roster c).perform_revision op with same | next
    · rw [same]; exact .again revisions
    · rw [next]; exact .next revisions

theorem run_revisions (run : Run settings steps s told) (c : Collection) :
    Revisions (revisionsTold c told) (s.board.roster c).revision := by
  induction run with
  | start m =>
    obtain ⟨staleAfter,fresh⟩ := Board.start_roster settings c
    have revision : ((Monitor.start settings m).1.board.roster c).revision = 0 := by
      rw [show (Monitor.start settings m).1.board.roster c = _ from fresh]; rfl
    rw [revision]
    exact .none
  | step run step took ih => exact ((Monitor.advance_reaches took).touches c).revisions ih

theorem run_channels (run : Run settings steps s told) (c d : Collection) :
    (s.board.roster c).channel = (s.board.roster d).channel := by
  induction run generalizing c d with
  | start m => cases c <;> cases d <;> rfl
  | step run step took ih => exact (Monitor.advance_reaches took).channel_agrees ih c d

-- The display never falls behind: after every step it has been told the revision that
-- each collection is at.
theorem display_misses_nothing (run : Run settings steps s told) :
    (∀ c, (revisionsTold c told).getLast? = some (s.board.roster c).revision ∨
      revisionsTold c told = [] ∧ (s.board.roster c).revision = 0) ∧
    (∀ c, (revisionsTold c told).IsChain fun earlier later => later = earlier ∨ later = earlier + 1) ∧
    (∀ c, (revisionsTold c told).length < UInt64.size → (revisionsTold c told).Pairwise (· ≤ ·)) ∧
    (∀ c d, (s.board.roster c).channel = (s.board.roster d).channel) ∧
    ∀ f m, f.Empty → s.phase = .reading → s.advance (.frame f m) = some (s,[]) := by
  refine ⟨?_,?_,?_,?_,?_⟩
  · intro c
    exact (run_revisions run c).last
  · intro c
    exact (run_revisions run c).chain
  · intro c short
    exact ((run_revisions run c).ascending short).1
  · exact run_channels run
  · intro f m empty phase
    exact Monitor.taken_advance (.emptyFrame phase empty)

theorem display_misses_no_poll : ∃ s told,
    Run ⟨defaultApiBaseUrl,defaultPushUrl,5000,10000,15000,15000,60000,600,none⟩
      [.openChannel ⟨0,0⟩,.tell ⟨0,0⟩,.connected ⟨0,0⟩,.tell ⟨0,0⟩,.tick .jobs,.polled (.jobs (.ok [])) ⟨0,0⟩]
      s told ∧
    revisionsTold .jobs told = [1,2] ∧ s.board.jobs.revision = 2 ∧ [(1 : UInt64),2].Pairwise (· ≤ ·) ∧
    s.board.positions.channel = s.board.jobs.channel ∧
    s.advance (.frame (.ping ⟨#[]⟩) ⟨0,0⟩) = some (s,[]) := by
  let settings : Settings := ⟨defaultApiBaseUrl,defaultPushUrl,5000,10000,15000,15000,60000,600,none⟩
  let m : Moment := ⟨0,0⟩
  have started : Run settings [] _ _ := .start m
  have opened := (started.step (.openChannel m) rfl).step (.tell m) rfl
  have connected := (opened.step (.connected m) rfl).step (.tell m) rfl
  have polled := (connected.step (.tick .jobs) rfl).step (.polled (.jobs (.ok [])) m) rfl
  obtain ⟨current,_,ascending,agree,quiet⟩ := display_misses_nothing polled
  refine ⟨_,_,polled,by decide,?_,?_,?_,?_⟩
  · have shown := (current .jobs).resolve_right fun nothing => absurd nothing.1 (by decide)
    exact Option.some.inj (shown.symm.trans (by decide))
  · exact ascending .jobs (by decide)
  · exact agree .positions .jobs
  · exact quiet _ m .ping rfl

end RunWatch.Session
