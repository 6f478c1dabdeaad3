import RunWatch.Proofs.Board.Effects
import RunWatch.Proofs.Roster.Pushes
namespace RunWatch
open Monitored (Patch patch isStale Inert)

structure Effects.SaysAs (e f : Effects) : Prop where
  changed : e.changed = f.changed
  progress : e.progress = f.progress
  flash : e.flash = f.flash
  refresh : e.refresh = f.refresh

theorem Generations.isNewer_congr {g h : Generations} (same : g.samples run = h.samples run) (sample : Sample) :
    g.isNewer run sample = h.isNewer run sample := by
  simp only [isNewer,same]

theorem Push.Message.amended_isStale (m : Push.Message) (now : Int64) (c : Collection) (record : c.Record)
    (asOf staleAfter : Int64) : isStale (m.amended now c record) asOf staleAfter = isStale record asOf staleAfter := by
  cases m <;> cases c <;> rfl

namespace Board

-- Messages that do not meet: not two generations of one run, nor two balances of one
-- session.
structure Independent (b : Board) (m n : Push.Message) : Prop where
  runs : ∀ run, m.run? = some run → n.run? ≠ some run
  sessions : ∀ p q id, m = .pnl p → n = .pnl q → b.addressed? m = some id → b.addressed? n ≠ some id

-- Boards that hold the same, whichever of their runs was heard of first.
structure Agrees (b d : Board) : Prop where
  rosters : ∀ c, b.roster c = d.roster c
  histories : ∀ run, b.generations.samples run = d.generations.samples run
  sessionId : b.sessionId = d.sessionId
  lastMessageAt : b.lastMessageAt = d.lastMessageAt

variable {b d : Board} {m n : Push.Message} {now : Int64} {c : Collection}

theorem Independent.symm (independent : b.Independent m n) : b.Independent n m where
  runs run second first := independent.runs run first second
  sessions p q id second first two one := independent.sessions q p id first second one two

theorem pushTo?_inert {id : String} {p : Patch c.Record} (pushed : b.pushTo? m now c = some (.push id p now)) :
    Inert p := by
  obtain ⟨_,_,same,_,_,amends⟩ := pushTo?_push pushed
  cases same
  intro record asOf staleAfter
  rw [amends,m.amended_isStale]

theorem receive_staleMarks (b : Board) (m : Push.Message) (now : Int64) (c : Collection) (later : Int64) :
    ((b.receive m now).1.roster c).staleMarks later = (b.roster c).staleMarks later := by
  cases b.receive_pushed m now c with
  | nothing same => rw [same]
  | push routed addressed amends known roster =>
    rw [roster]
    refine Roster.applyPush_staleMarks (fun record asOf staleAfter => ?_) _ _ _ _
    rw [amends,m.amended_isStale]

theorem receive_isSome (b : Board) (m : Push.Message) (now : Int64) (c : Collection) (id : String) :
    (((b.receive m now).1.roster c).find? id).isSome ↔ ((b.roster c).find? id).isSome := by
  cases b.receive_pushed m now c with
  | nothing same => rw [same]
  | push routed addressed amends known roster =>
    rw [roster]
    exact Roster.applyPush_isSome _ _ _ _ _

theorem pushTo?_congr (history : ∀ run, n.run? = some run → d.generations.samples run = b.generations.samples run)
    (sessionId : d.sessionId = b.sessionId) (now : Int64) (c : Collection) :
    d.pushTo? n now c = b.pushTo? n now c := by
  cases n with
  | progress kind q =>
    have newer := Generations.isNewer_congr (history q.runId rfl) q.sample
    cases kind <;> cases c <;> simp only [pushTo?,Generations.record_snd,newer]
  | pnl q => cases c <;> simp only [pushTo?,sessionId]
  | position q => cases c <;> rfl
  | unknown => cases c <;> rfl

theorem receive_samples_congr (same : d.generations.samples run = b.generations.samples run) (n : Push.Message)
    (now : Int64) :
    (d.receive n now).1.generations.samples run = (b.receive n now).1.generations.samples run := by
  rw [receive_generations,receive_generations]
  cases n with
  | progress kind q =>
    simp only [Generations.samples_record]
    by_cases named : run = q.runId
    · subst named
      rw [Generations.isNewer_congr same,same]
    · simp only [named,false_and,if_false,same]
  | pnl q => exact same
  | position q => exact same
  | unknown => exact same

theorem progressUpdate_congr {q : Push.Progress}
    (same : d.generations.samples q.runId = b.generations.samples q.runId) (kind : Push.RunKind) :
    d.progressUpdate kind q = b.progressUpdate kind q := by
  simp only [progressUpdate,Generations.converged,Generations.bests,same]

theorem receive_changed_known (b : Board) (m : Push.Message) (now : Int64) (c : Collection) :
    (b.receive m now).2.changed = some c ↔
      ∃ id p, b.pushTo? m now c = some (.push id p now) ∧ ((b.roster c).find? id).isSome := by
  rw [(b.receive_routed m now c).changed]
  cases pushed : b.pushTo? m now c with
  | none => simp [Roster.outcomes]
  | some op =>
    obtain ⟨id,p,rfl,_⟩ := pushTo?_push pushed
    simp only [Option.toList_some,Roster.outcomes,Roster.perform,Option.some.injEq,Operation.push.injEq]
    cases known : (b.roster c).find? id with
    | none => simp [Roster.applyPush_unknown known,Reply.outcome?,known]
    | some record => simp [Roster.applyPush_known known,Reply.outcome?,known]

theorem pushTo?_after (independent : b.Independent m n) (now : Int64) (c : Collection) :
    (b.receive m now).1.pushTo? n now c = b.pushTo? n now c :=
  pushTo?_congr (fun run named => receive_histories now (independent.symm.runs run named))
    (b.receive_lastMessageAt m now).2 now c

theorem changed_after (independent : b.Independent m n) (now : Int64) :
    ((b.receive m now).1.receive n now).2.changed = (b.receive n now).2.changed := by
  refine Option.ext fun c => ?_
  rw [receive_changed_known,receive_changed_known,pushTo?_after independent]
  simp only [receive_isSome]

theorem progress_after (independent : b.Independent m n) (now : Int64) :
    ((b.receive m now).1.receive n now).2.progress = (b.receive n now).2.progress := by
  rw [receive_update,receive_update]
  cases n with
  | progress kind q =>
    have same : (b.receive m now).1.generations.samples q.runId = b.generations.samples q.runId :=
      receive_histories now (independent.symm.runs q.runId rfl)
    have longer := receive_samples_congr same (.progress kind q) now
    simp only [Generations.isNewer_congr same,progressUpdate_congr longer]
  | pnl q => rfl
  | position q => rfl
  | unknown => rfl

theorem saysAs_after (independent : b.Independent m n) (now : Int64) :
    ((b.receive m now).1.receive n now).2.SaysAs (b.receive n now).2 where
  changed := changed_after independent now
  progress := progress_after independent now
  flash := Option.ext fun symbol => by rw [receive_flash,receive_flash]
  refresh := Option.ext fun c => by rw [receive_refresh,receive_refresh]

theorem pushTo?_apart (independent : b.Independent m n) {id other : String} {p q : Patch c.Record}
    (one : b.pushTo? m now c = some (.push id p now)) (two : b.pushTo? n now c = some (.push other q now)) :
    id ≠ other ∨ ∀ record, patch p (patch q record) = patch q (patch p record) := by
  obtain ⟨_,_,first,routed,addressed,amends⟩ := pushTo?_push one
  obtain ⟨_,_,second,routed',addressed',amends'⟩ := pushTo?_push two
  cases first
  cases second
  cases m with
  | progress kind p =>
    cases n with
    | progress kind' q =>
      left
      rintro rfl
      exact independent.runs id addressed addressed'
    | pnl q => cases kind <;> cases routed.trans routed'.symm
    | position q => cases kind <;> cases routed.trans routed'.symm
    | unknown => cases routed'
  | pnl p =>
    cases n with
    | progress kind q => cases kind <;> cases routed.trans routed'.symm
    | pnl q =>
      left
      rintro rfl
      exact independent.sessions p q id rfl rfl addressed addressed'
    | position q => cases routed.trans routed'.symm
    | unknown => cases routed'
  | position p =>
    cases n with
    | progress kind q => cases kind <;> cases routed.trans routed'.symm
    | pnl q => cases routed.trans routed'.symm
    | position q =>
      right
      intro record
      simp only [amends,amends']
      cases c <;> rfl
    | unknown => cases routed'
  | unknown => cases routed

theorem receive_comm_roster (independent : b.Independent m n) (now : Int64) (c : Collection) :
    ((b.receive m now).1.receive n now).1.roster c = ((b.receive n now).1.receive m now).1.roster c := by
  rw [((b.receive m now).1.receive_routed n now c).roster,((b.receive n now).1.receive_routed m now c).roster,
    (b.receive_routed m now c).roster,(b.receive_routed n now c).roster,pushTo?_after independent,
    pushTo?_after independent.symm]
  cases first : b.pushTo? m now c with
  | none => rfl
  | some one =>
    cases second : b.pushTo? n now c with
    | none => rfl
    | some two =>
      obtain ⟨id,p,rfl,_⟩ := pushTo?_push first
      obtain ⟨other,q,rfl,_⟩ := pushTo?_push second
      exact Roster.applyPush_comm (pushTo?_inert first) (pushTo?_inert second)
        (pushTo?_apart independent first second) (b.roster c) now

theorem receive_comm_samples (independent : b.Independent m n) (now : Int64) (run : String) :
    ((b.receive m now).1.receive n now).1.generations.samples run =
      ((b.receive n now).1.receive m now).1.generations.samples run := by
  by_cases named : m.run? = some run
  · have elsewhere := independent.runs run named
    rw [receive_histories now elsewhere]
    exact (receive_samples_congr (receive_histories now elsewhere) m now).symm
  · rw [receive_histories (m := m) now named]
    exact receive_samples_congr (receive_histories now named) n now

theorem receive_comm (independent : b.Independent m n) (now : Int64) :
    ((b.receive m now).1.receive n now).1.Agrees ((b.receive n now).1.receive m now).1 where
  rosters := receive_comm_roster independent now
  histories := receive_comm_samples independent now
  sessionId := by simp only [receive_lastMessageAt]
  lastMessageAt := by simp only [receive_lastMessageAt]

theorem receive_guard (b : Board) (m : Push.Message) (now : Int64) (c : Collection) :
    ((b.receive m now).1.roster c).guard =
      if (b.receive m now).2.changed = some c then (b.roster c).guardAt now else (b.roster c).guard := by
  cases b.receive_pushed m now c with
  | nothing same unchanged => rw [same,if_neg unchanged]
  | push routed addressed amends known roster changed =>
    rw [if_pos changed,roster,Roster.applyPush_inert]
    · intro record asOf staleAfter
      rw [amends,m.amended_isStale]
    · rw [known]; rfl

theorem receive_remediate_stale (b : Board) (m : Push.Message) (now : Int64) (c : Collection) :
    (b.receive m now).2.remediate = some c ↔
      (b.receive m now).2.changed = some c ∧ (b.roster c).guard = .armed ∧ (b.roster c).staleIds now ≠ [] := by
  rw [receive_remediate]
  refine and_congr_right fun changed => and_congr_right fun _ => ?_
  rw [receive_guard,if_pos changed,Roster.guardAt]
  split <;> simp_all

theorem receive_staleIds (b : Board) (m : Push.Message) (now : Int64) (c : Collection) (later : Int64) :
    ((b.receive m now).1.roster c).staleIds later = (b.roster c).staleIds later := by
  rw [Roster.staleIds_marks,Roster.staleIds_marks,receive_staleMarks]

theorem remediate_count (independent : b.Independent m n) (now : Int64) (c : Collection) :
    ((b.receive m now).2.remediate.toList ++
      ((b.receive m now).1.receive n now).2.remediate.toList).count c =
      if ((b.receive m now).2.changed = some c ∨ (b.receive n now).2.changed = some c) ∧
        (b.roster c).guard = .armed ∧ (b.roster c).staleIds now ≠ [] then 1 else 0 := by
  have once (target : Option Collection) : target.toList.count c = if target = some c then 1 else 0 := by
    cases target with
    | none => rfl
    | some d => by_cases same : d = c <;> simp [same]
  simp only [List.count_append,once,receive_remediate_stale,receive_staleIds,receive_guard,
    changed_after independent,Roster.guardAt]
  by_cases stale : (b.roster c).staleIds now = []
  · simp [stale]
  · by_cases first : (b.receive m now).2.changed = some c
    · simp [first,stale]
    · simp [first,stale]

theorem remediate_perm (independent : b.Independent m n) (now : Int64) :
    ((b.receive m now).2.remediate.toList ++ ((b.receive m now).1.receive n now).2.remediate.toList).Perm
      ((b.receive n now).2.remediate.toList ++ ((b.receive n now).1.receive m now).2.remediate.toList) := by
  refine List.perm_iff_count.mpr fun c => ?_
  simp only [remediate_count independent,remediate_count independent.symm,or_comm]

-- Independent messages that come at one time may come in either order. The boards agree,
-- each says what it would have said, and the same cleanups are called for, be it by the
-- other. For no message moves staleness.
theorem independent_messages_commute (b : Board) (m n : Push.Message) (now : Int64)
    (independent : b.Independent m n) :
    ((b.receive m now).1.receive n now).1.Agrees ((b.receive n now).1.receive m now).1 ∧
    (b.receive m now).2.SaysAs ((b.receive n now).1.receive m now).2 ∧
    ((b.receive m now).1.receive n now).2.SaysAs (b.receive n now).2 ∧
    ((b.receive m now).2.remediate.toList ++ ((b.receive m now).1.receive n now).2.remediate.toList).Perm
      ((b.receive n now).2.remediate.toList ++ ((b.receive n now).1.receive m now).2.remediate.toList) ∧
    ∀ (message : Push.Message) (arrival later : Int64) (c : Collection),
      ((b.receive message arrival).1.roster c).staleMarks later = (b.roster c).staleMarks later := by
  refine ⟨receive_comm independent now,?_,saysAs_after independent now,remediate_perm independent now,?_⟩
  · obtain ⟨changed,progress,flash,refresh⟩ := saysAs_after independent.symm now
    exact ⟨changed.symm,progress.symm,flash.symm,refresh.symm⟩
  · exact fun message arrival later c => b.receive_staleMarks message arrival c later

theorem stale_list_commutes :
    let settings : Settings := ⟨defaultApiBaseUrl,defaultPushUrl,5000,10000,15000,15000,60000,600,none⟩
    let run (id : String) : JobRecord := ⟨id,"train",.running,none,some 0,false,none⟩
    let b := (Board.start settings).after [.poll (.jobs (.ok [run "a",run "b"])) 0]
    let m : Push.Message := .progress .job ⟨"a",1,0.5,0.25,0,none⟩
    let n : Push.Message := .progress .job ⟨"b",1,0.5,0.25,0,none⟩
    b.Independent m n ∧ (b.receive m 100000).2.remediate = some .jobs ∧
      ((b.receive m 100000).1.receive n 100000).2.remediate = none ∧
      ((b.receive n 100000).1.receive m 100000).2.remediate = none ∧
      (b.receive n 100000).2.remediate = some .jobs ∧
      ((b.receive m 100000).1.receive n 100000).1.Agrees ((b.receive n 100000).1.receive m 100000).1 := by
  intro settings run b m n
  have independent : b.Independent m n := by
    refine ⟨?_,?_⟩
    · rintro _ ⟨⟩ same
      exact absurd (Option.some.inj same) (by decide)
    · intro p q id balance
      exact absurd balance (by simp [m])
  obtain ⟨agrees,_,_,same,_⟩ := independent_messages_commute b m n 100000 independent
  have first : (b.receive m 100000).2.remediate = some .jobs := by decide
  have other : (b.receive n 100000).2.remediate = some .jobs := by decide
  have later : ((b.receive m 100000).1.receive n 100000).2.remediate = none := by decide
  rw [first,later,other] at same
  have last : ((b.receive n 100000).1.receive m 100000).2.remediate = none := by
    have single := List.perm_singleton.mp same.symm
    simpa using single
  exact ⟨independent,first,later,last,other,agrees⟩

end Board
end RunWatch
