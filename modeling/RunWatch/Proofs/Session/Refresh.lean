import RunWatch.Proofs.Board.Effects
import RunWatch.Proofs.Push.Spellings
import RunWatch.Proofs.Session.Episodes
namespace RunWatch.Session

theorem PerCollection.get_set (p : PerCollection α) (c : Collection) (a : α) (d : Collection) :
    (p.set c a).get d = if d = c then a else p.get d := by
  cases c <;> cases d <;> rfl

def Poller.pending (p : Poller) : Nat := p.handed.toNat + p.kept.toNat

namespace Poller

theorem isRequested_iff (p : Poller) : p.isRequested = true ↔ 0 < p.pending := by
  rcases p with ⟨phase,handed,kept⟩
  cases handed <;> cases kept <;> simp [isRequested,pending]

-- A request is noted, but one that is kept already stands for any more of them.
theorem request_pending (p : Poller) : 0 < p.request.pending ∧ p.request.pending ≤ p.pending + 1 := by
  rcases p with ⟨phase,handed,kept⟩
  unfold request
  split <;> cases handed <;> cases kept <;> simp_all [pending]

theorem request_busy {p : Poller} (busy : p.phase ≠ .idle) : p.request = { p with kept:=true } := by
  simp [request,busy]

theorem onTick_pending (p : Poller) : p.onTick.pending ≤ p.pending := by
  rcases p with ⟨phase,handed,kept⟩
  cases handed <;> cases kept <;> simp [onTick,pending]

theorem onRequest_pending {p : Poller} (requested : p.isRequested = true) :
    p.onRequest.pending + 1 = p.pending := by
  rcases p with ⟨phase,handed,kept⟩
  cases handed <;> cases kept <;> first | rfl | cases requested

theorem onRequest_phase (p : Poller) : p.onRequest.phase = .fetching ∧ p.onRequest.handed = false := by
  unfold onRequest
  split <;> exact ⟨rfl,rfl⟩

end Poller

def Output.fetch? : Output → Option Collection
  | .request (.fetch c) => some c
  | _ => none

def fetchesTold (told : List Output) : List Collection := told.filterMap Output.fetch?

namespace Step

def fetches : Step → List Collection
  | .tick c | .wake c => [c]
  | _ => []

def updates : Step → Bool
  | .frame f _ => match f.message? with
    | some (.position _) => true
    | _ => false
  | _ => false

def refreshes : Step → Bool
  | .wake .positions => true
  | _ => false

def completes : Step → Bool
  | .polled (.positions _) _ => true
  | _ => false

def forPositions : Step → Bool
  | .tick .positions | .wake .positions | .polled (.positions _) _ | .stopPoller .positions => true
  | step => step.updates

end Step

inductive Attends : Poller → Step → Poller → Prop where
  | asked (update : step.updates = true) : Attends p step p.request
  | tick (idle : p.phase = .idle) : Attends p (.tick .positions) p.onTick
  | wake (idle : p.phase = .idle) (requested : p.isRequested = true) : Attends p (.wake .positions) p.onRequest
  | merged (fetching : p.phase = .fetching) : Attends p (.polled (.positions result) m) { p with phase:=.idle }
  | stopped (free : p.phase = .idle ∨ p.phase = .fetching) :
      Attends p (.stopPoller .positions) { p with phase:=.stopped }
  | other (apart : step.forPositions = false) : Attends p step p

namespace Monitor

theorem turn_attends {s : Monitor} (turned : s.turn state a follow m = (next,outputs)) :
    next.pollers = s.pollers ∧ fetchesTold outputs = [] := by
  have told : (s.setChannel state m).2 = outputs := congrArg Prod.snd turned
  have silent : fetchesTold (s.setChannel state m).2 = [] := by
    simp only [setChannel]
    split <;> rfl
  rw [← told,silent]
  cases turned
  exact ⟨rfl,rfl⟩

theorem lost_attends {s : Monitor} (lost : s.lost reason follow m = (next,outputs)) :
    next.pollers = s.pollers ∧ fetchesTold outputs = [] := by
  rcases lost_cases lost with ⟨_,rfl,rfl⟩ | ⟨_,turned⟩
  · exact ⟨rfl,rfl⟩
  · exact turn_attends turned

theorem handle_pollers (s : Monitor) (message : Push.Message) (m : Moment) (c : Collection) :
    (s.handle message m).1.pollers.get c =
      if (s.board.receive message m.wall).2.refresh = some c then (s.pollers.get c).request
      else s.pollers.get c := by
  unfold handle
  rcases s.board.receive message m.wall with ⟨board,changed,remediate,progress,flash,refresh⟩
  cases refresh with
  | none => cases remediate <;> cases flash <;> rfl
  | some d =>
    have asked : ((s.pollers.set d (s.pollers.get d).request).get c) =
        if d = c then (s.pollers.get c).request else s.pollers.get c := by
      rw [PerCollection.get_set]
      by_cases same : d = c
      · subst same; simp
      · simp [same,Ne.symm same]
    simp only [Option.some.injEq]
    rw [← asked]
    cases remediate <;> cases flash <;> rfl

theorem message_fetches {s : Monitor} {message : Push.Message}
    (handled : s.handle message m = (next,outputs)) : fetchesTold outputs = [] := by
  have silent : fetchesTold (s.handle message m).2 = [] := by
    unfold handle
    rcases s.board.receive message m.wall with ⟨board,changed,remediate,progress,flash,refresh⟩
    cases changed <;> cases progress <;> rfl
  rwa [handled] at silent

theorem message_attends {s : Monitor} {f : Push.Frame} (carried : f.Carries message)
    (handled : s.handle message m = (next,outputs)) :
    Attends (s.pollers.get .positions) (.frame f m) (next.pollers.get .positions) := by
  have asked := s.handle_pollers message m .positions
  rw [handled] at asked
  have asked : next.pollers.get .positions = _ := asked
  rw [asked]
  split
  · rename_i refresh
    obtain ⟨⟨p,rfl⟩,_⟩ := (s.board.receive_refresh message m.wall .positions).mp refresh
    exact .asked (by simp only [Step.updates,carried.message?])
  · rename_i unasked
    refine .other ?_
    simp only [Step.forPositions,Step.updates,carried.message?]
    cases message with
    | position p => exact (unasked rfl).elim
    | _ => rfl

theorem endCleanup_poller (s : Monitor) {task : Cleanup} (other : task.collection ≠ c) :
    (s.endCleanup task).pollers.get c = s.pollers.get c := by
  unfold endCleanup setPollerPhase setPoller
  dsimp only
  split
  · rw [PerCollection.get_set,if_neg other.symm]
  · rfl

theorem onPolled_poller (s : Monitor) (p : Poll) (m : Moment) (c : Collection) :
    (s.onPolled p m).1.pollers.get c =
      if c = p.collection then
        { s.pollers.get c with
          phase:=if (s.board.applyPoll p m.wall).2.remediate then .cleaning else .idle }
      else s.pollers.get c := by
  unfold onPolled setPollerPhase setPoller addCleanup
  rcases s.board.applyPoll p m.wall with ⟨board,outcome⟩
  dsimp only
  cases outcome.remediate with
  | true => rw [if_pos rfl,PerCollection.get_set]; split <;> simp_all
  | false => rw [if_neg Bool.false_ne_true,PerCollection.get_set]; split <;> simp_all

-- Positions are never stale, so their poller has no cleanup to wait for.
theorem applyPoll_positions (b : Board) (result : Except Fault (List PositionRecord)) (now : Int64) :
    (b.applyPoll (.positions result) now).2.remediate = false := by
  have calm (r : Roster PositionRecord) : (r.evaluate now).2.remediate = false := by
    have fresh : r.staleRecords now = [] := List.filter_eq_nil_iff.mpr fun _ _ => Bool.false_ne_true
    simp only [Roster.evaluate,fresh,Outcome.remediate]
    cases r.guard <;> rfl
  cases result <;> exact calm _

theorem polled_attends {s : Monitor} {p : Poll} (fetching : (s.pollers.get p.collection).phase = .fetching)
    (merged : s.onPolled p m = (next,outputs)) :
    Attends (s.pollers.get .positions) (.polled p m) (next.pollers.get .positions) := by
  have after := s.onPolled_poller p m .positions
  rw [merged] at after
  have after : next.pollers.get .positions = _ := after
  rw [after]
  cases p with
  | positions result =>
    rw [if_pos (show Collection.positions = (Poll.positions result).collection from rfl),applyPoll_positions]
    exact .merged fetching
  | _ => exact .other rfl

theorem cleaned_poller {s : Monitor} (apart : task.collection ≠ .positions)
    (noted : s.onCleaned task result m = (next,outputs)) :
    next.pollers.get .positions = s.pollers.get .positions := by
  cases noted
  exact endCleanup_poller { s with board:=_ } apart

theorem cleaned_fetches {s : Monitor} (noted : s.onCleaned task result m = (next,outputs)) :
    fetchesTold outputs = [] := by
  have silent : fetchesTold (s.onCleaned task result m).2 = [] := by
    cases result <;> rfl
  rwa [noted] at silent

theorem setPoller_attends (s : Monitor) (c : Collection) (p : Poller)
    (own : c = .positions → Attends (s.pollers.get .positions) step p)
    (other : c ≠ .positions → step.forPositions = false) :
    Attends (s.pollers.get .positions) step ((s.setPoller c p).pollers.get .positions) := by
  unfold setPoller
  rw [PerCollection.get_set]
  split
  · rename_i same
    exact own same.symm
  · rename_i different
    exact .other (other (Ne.symm different))

theorem polled_fetches {s : Monitor} {p : Poll} (merged : s.onPolled p m = (next,outputs)) :
    fetchesTold outputs = [] := by
  have told := (s.onPolled_eq p m).2
  rw [merged] at told
  have told : outputs = _ := told
  rw [told]; rfl

theorem taken_fetches (taken : Taken s step next outputs) : fetchesTold outputs = step.fetches := by
  cases taken with
  | openChannel phase live turned => exact (turn_attends turned).2
  | @tell a follow m phase => cases follow <;> rfl
  | connected phase turned => exact (turn_attends turned).2
  | connectFailed phase turned => exact (turn_attends turned).2
  | closeFrame phase lost => exact (lost_attends lost).2
  | message phase carried handled => exact message_fetches handled
  | streamEnded phase lost => exact (lost_attends lost).2
  | frameFailed phase lost => exact (lost_attends lost).2
  | farewell phase silent turned => exact (turn_attends turned).2
  | polled fetching merged => exact polled_fetches merged
  | cleaned found called noted => exact cleaned_fetches noted
  | heartbeat beats published => cases published; rfl
  | _ => rfl

theorem taken_attends (apart : ∀ task ∈ s.cleanups, task.collection ≠ .positions)
    (taken : Taken s step next outputs) :
    Attends (s.pollers.get .positions) step (next.pollers.get .positions) := by
  cases taken with
  | openChannel phase live turned => rw [(turn_attends turned).1]; exact .other rfl
  | connected phase turned => rw [(turn_attends turned).1]; exact .other rfl
  | connectFailed phase turned => rw [(turn_attends turned).1]; exact .other rfl
  | closeFrame phase lost => rw [(lost_attends lost).1]; exact .other rfl
  | emptyFrame phase empty =>
    exact .other (by simp only [Step.forPositions,Step.updates,empty.message?])
  | message phase carried handled => exact message_attends carried handled
  | streamEnded phase lost => rw [(lost_attends lost).1]; exact .other rfl
  | frameFailed phase lost => rw [(lost_attends lost).1]; exact .other rfl
  | farewell phase silent turned => rw [(turn_attends turned).1]; exact .other rfl
  | @tick c idle =>
    refine s.setPoller_attends c _ ?_ ?_
    · rintro rfl; exact .tick idle
    · intro other; cases c <;> first | rfl | exact absurd rfl other
  | @wake c idle requested =>
    refine s.setPoller_attends c _ ?_ ?_
    · rintro rfl; exact .wake idle requested
    · intro other; cases c <;> first | rfl | exact absurd rfl other
  | polled fetching merged => exact polled_attends fetching merged
  | @stopPoller c cancelled free =>
    refine s.setPoller_attends c _ ?_ ?_
    · rintro rfl; exact .stopped free
    · intro other; cases c <;> first | rfl | exact absurd rfl other
  | cleaned found called noted =>
    rw [cleaned_poller (apart _ (cleanup?_some found).1) noted]
    exact .other rfl
  | abandonCleanup found cancelled =>
    rw [s.endCleanup_poller (apart _ (cleanup?_some found).1)]
    exact .other rfl
  | heartbeat beats published => cases published; exact .other rfl
  | _ => exact .other rfl

end Monitor

theorem Step.updates_frame {step : Step} (updates : step.updates = true) :
    ∃ f m, step = .frame f m := by
  cases step with
  | frame f m => exact ⟨f,m,rfl⟩
  | _ => cases updates

namespace Attends

theorem asks (attends : Attends p step after) (updates : step.updates = true) : after = p.request := by
  obtain ⟨f,m,rfl⟩ := Step.updates_frame updates
  cases attends with
  | asked update => rfl
  | other apart => cases updates.symm.trans apart

theorem fetches (attends : Attends p step after) (fetches : .positions ∈ step.fetches) :
    after.phase = .fetching ∧ after.handed = false := by
  cases attends with
  | asked update =>
    obtain ⟨f,m,rfl⟩ := Step.updates_frame update
    cases fetches
  | tick idle => exact ⟨rfl,rfl⟩
  | wake idle requested => exact p.onRequest_phase
  | merged fetching => cases fetches
  | stopped free => cases fetches
  | other apart =>
    cases step with
    | tick c => cases List.mem_singleton.mp fetches; cases apart
    | wake c => cases List.mem_singleton.mp fetches; cases apart
    | _ => cases fetches

theorem completes (attends : Attends p step after) (completes : step.completes = true) :
    after = { p with phase:=.idle } := by
  cases attends with
  | asked update =>
    obtain ⟨f,m,rfl⟩ := Step.updates_frame update
    cases completes
  | merged fetching => rfl
  | other apart =>
    cases step with
    | polled q m =>
      cases q with
      | positions result => cases apart
      | _ => cases completes
    | _ => cases completes
  | _ => cases completes

theorem keeps (attends : Attends p step after) (requested : p.isRequested = true) :
    .positions ∈ step.fetches ∨ after.isRequested = true := by
  cases attends with
  | asked update =>
    exact Or.inr (p.request.isRequested_iff.mpr p.request_pending.1)
  | tick idle => exact Or.inl List.mem_cons_self
  | wake idle requested => exact Or.inl List.mem_cons_self
  | merged fetching => exact Or.inr requested
  | stopped free => exact Or.inr requested
  | other apart => exact Or.inr requested

theorem counts (attends : Attends p step after) :
    (if step.refreshes then 1 else 0) + after.pending ≤ p.pending + if step.updates then 1 else 0 := by
  cases attends with
  | asked update =>
    have added := p.request_pending.2
    have quiet : step.refreshes = false := by
      obtain ⟨f,m,rfl⟩ := Step.updates_frame update
      rfl
    simpa [update,quiet] using added
  | tick idle => simpa [Step.refreshes,Step.updates] using p.onTick_pending
  | wake idle requested =>
    have served := p.onRequest_pending requested
    simp only [Step.refreshes,if_true]
    omega
  | merged fetching => simp [Step.refreshes,Poller.pending]
  | stopped free => simp [Step.refreshes,Poller.pending]
  | other apart =>
    have quiet : step.refreshes = false := by
      cases step with
      | wake c => cases c <;> first | rfl | cases apart
      | _ => rfl
    simp [quiet]

theorem busy (attends : Attends p step after) (unfinished : step.completes = false) (busy : p.phase ≠ .idle)
    (unhanded : p.handed = false) : after.phase ≠ .idle ∧ after.handed = false ∧
      (p.kept = true ∨ step.updates = true → after.kept = true) := by
  cases attends with
  | asked update =>
    rw [Poller.request_busy busy]
    exact ⟨busy,unhanded,fun _ => rfl⟩
  | tick idle => exact absurd idle busy
  | wake idle requested => exact absurd idle busy
  | merged fetching => cases unfinished
  | stopped free => exact ⟨nofun,unhanded,fun asked => asked.resolve_right nofun⟩
  | other apart =>
    refine ⟨busy,unhanded,fun asked => asked.resolve_right fun updates => ?_⟩
    obtain ⟨f,m,rfl⟩ := Step.updates_frame updates
    cases updates.symm.trans apart

end Attends

theorem path_uncleaned (path : Path (Monitor.start settings m).1 ts s) :
    ∀ task ∈ s.cleanups, task.collection ≠ .positions := by
  intro task member same
  have ledger := path.ledger (Ledger.start settings m)
  have caused := List.mem_of_getElem? (ledger.pending task member)
  rw [same,List.nil_append] at caused
  obtain ⟨t,_,fires⟩ := List.mem_flatMap.mp caused
  exact t.positions_hold fires

theorem path_attends {t : Transition} (path : Path (Monitor.start settings m).1 ts t.before) :
    Attends (t.before.pollers.get .positions) t.step (t.after.pollers.get .positions) :=
  Monitor.taken_attends (path_uncleaned path) t.taken

theorem path_counts (path : Path (Monitor.start settings m).1 ts s) :
    (ts.countP fun t => t.step.refreshes) + (s.pollers.get .positions).pending ≤
      ts.countP fun t => t.step.updates := by
  refine path.preserves (motive := fun s ts => (ts.countP fun t => t.step.refreshes) +
    (s.pollers.get .positions).pending ≤ ts.countP fun t => t.step.updates) (Nat.le_refl 0) ?_
  intro earlier t _ path counted
  have step := (path_attends path).counts
  rw [List.countP_append,List.countP_append,List.countP_singleton,List.countP_singleton]
  omega

theorem path_keeps {before : List Transition} (start : Path (Monitor.start settings m).1 before s)
    (path : Path s ts next) (requested : (s.pollers.get .positions).isRequested = true) :
    (∃ t ∈ ts, .positions ∈ t.step.fetches) ∨ (next.pollers.get .positions).isRequested = true := by
  refine path.preserves (motive := fun s ts => (∃ t ∈ ts, .positions ∈ t.step.fetches) ∨
    (s.pollers.get .positions).isRequested = true) (Or.inr requested) ?_
  rintro earlier t _ path (⟨u,member,fetches⟩ | requested)
  · exact Or.inl ⟨u,List.mem_append_left _ member,fetches⟩
  · rcases (path_attends (start.append path)).keeps requested with fetches | still
    · exact Or.inl ⟨t,List.mem_concat_self,fetches⟩
    · exact Or.inr still

theorem path_busy {before : List Transition} (start : Path (Monitor.start settings m).1 before s)
    (path : Path s ts next) (unfinished : ∀ t ∈ ts, t.step.completes = false)
    (busy : (s.pollers.get .positions).phase ≠ .idle) (unhanded : (s.pollers.get .positions).handed = false) :
    (next.pollers.get .positions).phase ≠ .idle ∧ (next.pollers.get .positions).handed = false ∧
      ((∃ t ∈ ts, t.step.updates = true) → (next.pollers.get .positions).kept = true) := by
  refine path.preserves (motive := fun s ts => (s.pollers.get .positions).phase ≠ .idle ∧
    (s.pollers.get .positions).handed = false ∧
    ((∃ t ∈ ts, t.step.updates = true) → (s.pollers.get .positions).kept = true))
    ⟨busy,unhanded,fun ⟨_,member,_⟩ => nomatch member⟩ ?_
  rintro earlier t member path ⟨busy,unhanded,kept⟩
  obtain ⟨still,free,keeps⟩ := (path_attends (start.append path)).busy (unfinished t member) busy unhanded
  refine ⟨still,free,?_⟩
  rintro ⟨u,among,updates⟩
  rcases List.mem_append.mp among with earlier | latest
  · exact keeps (Or.inl (kept ⟨u,earlier,updates⟩))
  · cases List.mem_singleton.mp latest
    exact keeps (Or.inr updates)

structure Refreshed (ts : List Transition) (s : Monitor) : Prop where
  fetches : ∀ t ∈ ts, fetchesTold t.outputs = t.step.fetches
  -- A poller that waits and has nothing to do has begun to fetch since the latest news.
  kept : (s.pollers.get .positions).phase = .idle → (s.pollers.get .positions).pending = 0 →
    ∀ earlier t later, ts = earlier ++ t :: later → t.step.updates = true →
      ∃ u ∈ later, .positions ∈ fetchesTold u.outputs
  coalesced : ∀ earlier first between last later, ts = earlier ++ first :: (between ++ last :: later) →
    .positions ∈ fetchesTold first.outputs → last.step.completes = true →
    (∀ t ∈ between, t.step.completes = false) → (∃ t ∈ between, t.step.updates = true) →
      (last.after.pollers.get .positions).phase = .idle ∧ (last.after.pollers.get .positions).pending = 1
  counted : (ts.countP fun t => t.step.refreshes) ≤ ts.countP fun t => t.step.updates

-- The news of a position is followed by a fetch, and any amount of it during one fetch by
-- one more.
theorem refresh_follows_news (path : Path (Monitor.start settings m).1 ts s) : Refreshed ts s := by
  refine ⟨fun t _ => Monitor.taken_fetches t.taken,?_,?_,?_⟩
  · rintro idle none earlier t later rfl updates
    obtain ⟨before,after⟩ := path.cut
    have asked := (path_attends before).asks updates
    have requested : (t.after.pollers.get .positions).isRequested = true := by
      rw [asked,Poller.isRequested_iff]
      exact (Poller.request_pending _).1
    rcases path_keeps (before.append (.cons t .nil)) after requested with ⟨u,member,fetches⟩ | still
    · exact ⟨u,member,by rwa [Monitor.taken_fetches u.taken]⟩
    · have positive := (Poller.isRequested_iff _).mp still
      omega
  · rintro earlier first between last later rfl begins completes unfinished news
    obtain ⟨before,since⟩ := path.cut
    obtain ⟨during,_⟩ := since.cut
    have start := before.append (.cons first .nil)
    rw [Monitor.taken_fetches first.taken] at begins
    obtain ⟨fetching,unhanded⟩ := (path_attends before).fetches begins
    have busy : (first.after.pollers.get .positions).phase ≠ .idle := by rw [fetching]; nofun
    obtain ⟨_,free,kept⟩ := path_busy start during unfinished busy unhanded
    rw [(path_attends (start.append during)).completes completes]
    refine ⟨rfl,?_⟩
    simp [Poller.pending,free,kept news]
  · have counted := path_counts path
    omega

theorem read_position_update :
    Push.Frame.Carries (.text "\x7b\"type\":\"position_update\",\"symbol\":\"BTC\"\x7d")
      (.position ⟨"BTC"⟩) := by
  let word (s : String) : Json.Token := .text (some s)
  have spells : Json.Reading.pushed.Spells "\x7b\"type\":\"position_update\",\"symbol\":\"BTC\"\x7d".toUTF8
      (.object [("type",.text "position_update"),("symbol",.text "BTC")]) :=
    Json.Reading.spells_toUTF8 [.openObject,word "type",.colon,word "position_update",.comma,
      word "symbol",.colon,word "BTC",.closeObject] _ (by decide +kernel) rfl
  have symbol : Text.allBlank "BTC" = false := by decide +kernel
  refine ⟨_,rfl,(Push.Message.read_ok spells).mpr ⟨rfl,_,rfl,?_⟩⟩
  simp [Push.Message.checked,Push.Message.fault?,Push.Position.fault?,symbol]

theorem two_updates_one_refresh : ∃ ts s,
    let settings : Settings := ⟨defaultApiBaseUrl,defaultPushUrl,5000,10000,15000,15000,60000,600,none⟩
    let m : Moment := ⟨0,0⟩
    let news : Step := .frame (.text "\x7b\"type\":\"position_update\",\"symbol\":\"BTC\"\x7d") m
    Path (Monitor.start settings m).1 ts s ∧
      ts.map Transition.step = [.openChannel m,.tell m,.connected m,.tell m,.tick .positions,news,news,
        .polled (.positions (.ok [])) m,.wake .positions,.polled (.positions (.ok [])) m] ∧
      news.updates = true ∧ (s.pollers.get .positions).pending = 0 ∧
      (∃ t ∈ ts.drop 7, .positions ∈ fetchesTold t.outputs) ∧
      (ts[7]?.map fun t => (t.after.pollers.get .positions).pending) = some 1 := by
  let settings : Settings := ⟨defaultApiBaseUrl,defaultPushUrl,5000,10000,15000,15000,60000,600,none⟩
  let m : Moment := ⟨0,0⟩
  let f : Push.Frame := .text "\x7b\"type\":\"position_update\",\"symbol\":\"BTC\"\x7d"
  let opened : Transition := ⟨(Monitor.start settings m).1,.openChannel m,_,_,rfl⟩
  let dial : Transition := ⟨opened.after,.tell m,_,_,rfl⟩
  let connected : Transition := ⟨dial.after,.connected m,_,_,rfl⟩
  let told : Transition := ⟨connected.after,.tell m,_,_,rfl⟩
  let fetch : Transition := ⟨told.after,.tick .positions,_,_,rfl⟩
  let one : Transition :=
    ⟨fetch.after,.frame f m,_,_,Monitor.taken_advance (.message rfl read_position_update rfl)⟩
  let two : Transition :=
    ⟨one.after,.frame f m,_,_,Monitor.taken_advance (.message rfl read_position_update rfl)⟩
  let done : Transition := ⟨two.after,.polled (.positions (.ok [])) m,_,_,rfl⟩
  let again : Transition := ⟨done.after,.wake .positions,_,_,rfl⟩
  let final : Transition := ⟨again.after,.polled (.positions (.ok [])) m,_,_,rfl⟩
  have path : Path (Monitor.start settings m).1
      ([opened,dial,connected,told] ++ fetch :: ([one,two] ++ done :: [again,final])) final.after :=
    .cons opened (.cons dial (.cons connected (.cons told (.cons fetch (.cons one (.cons two (.cons done
      (.cons again (.cons final .nil)))))))))
  have news : one.step.updates = true := by
    simp only [one,f,Step.updates,read_position_update.message?]
  obtain ⟨_,kept,coalesced,_⟩ := refresh_follows_news path
  have following := kept rfl rfl [opened,dial,connected,told,fetch,one] two [done,again,final] rfl news
  have left := (coalesced _ fetch [one,two] done [again,final] rfl List.mem_cons_self rfl
    (by simp [one,two,Step.completes]) ⟨one,List.mem_cons_self,news⟩).2
  exact ⟨_,_,path,rfl,news,rfl,following,congrArg some left⟩

end RunWatch.Session
