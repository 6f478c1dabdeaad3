import Mathlib.Data.List.Chain
import RunWatch.Proofs.Session.Channel
import RunWatch.Proofs.Session.Cleanups
namespace RunWatch.Session

inductive Leads : ConnectionState → ConnectionState → Prop where
  | connected : Leads .connecting .connected
  | refused : Leads .connecting .disconnected
  | lost : Leads .connected .disconnected
  | again : Leads .disconnected .connecting
  | stopped (running : state ≠ .stopped) : Leads state .stopped

-- What the channel task may tell after what it told last. Before it tells anything the
-- session has told that it is connecting, which the channel task then tells again.
def Admits : Option ConnectionState → ConnectionState → Prop
  | none, state => state = .connecting ∨ state = .stopped
  | some last, state => Leads last state

structure Legal (states : List ConnectionState) : Prop where
  first : ∀ state ∈ states.head?, state = .connecting ∨ state = .stopped
  chain : states.IsChain Leads

theorem Legal.concat (legal : Legal states) (admitted : Admits states.getLast? state) :
    Legal (states ++ [state]) := by
  cases states using List.reverseRecOn with
  | nil =>
    refine ⟨?_,List.isChain_singleton _⟩
    intro first same
    cases same
    exact admitted
  | append_singleton earlier last =>
    rw [List.getLast?_concat] at admitted
    refine ⟨?_,List.isChain_append.mpr ⟨legal.chain,List.isChain_singleton _,?_⟩⟩
    · intro first same
      refine legal.first first ?_
      simpa using same
    · intro final told next following
      rw [List.getLast?_concat] at told
      cases told
      cases following
      exact admitted

-- What was told last, by where the channel task is.
def Phase.Follows (last : Option ConnectionState) : Phase → Prop
  | .opening _ => last = none ∨ last = some .disconnected
  | .telling a _ => Admits last a.state
  | .connecting _ => last = some .connecting
  | .reading => last = some .connected
  | .waiting .. => last = some .disconnected
  | .closing | .quiet => last ≠ some .stopped
  | .stopped => last = some .stopped

theorem Passes.follows (passes : Passes cancelled phase step after) (voiced : phase.Voiced)
    (follows : phase.Follows last) :
    after.Follows (((phase.announces? step).map Announcement.state).or last) := by
  cases passes with
  | givesUp quits =>
    rcases follows with rfl | rfl
    · exact nofun
    · exact nofun
  | opens live =>
    rcases follows with rfl | rfl
    · exact Or.inl rfl
    · exact .again
  | tells =>
    cases voiced with
    | opening => exact Or.inr rfl
    | _ => rfl
  | connects => cases follows; exact .connected
  | refused => cases follows; exact .refused
  | reads goes => exact follows
  | loses live loses => cases follows; exact .lost
  | hushed quits loses => cases follows; exact nofun
  | retries due => cases follows; exact Or.inr rfl
  | leavesConnecting quits => cases follows; exact nofun
  | leavesReading quits => cases follows; exact nofun
  | leavesWaiting quits => cases follows; exact nofun
  | teardown => exact follows
  | farewell =>
    cases last with
    | none => exact Or.inr rfl
    | some last => exact .stopped fun same => follows (congrArg some same)
  | other stays =>
    have untold : ∀ m, step ≠ .tell m := by
      rintro m rfl
      cases stays
    rw [announces?_none phase untold]
    exact follows

def statesPublished (ts : List Transition) : List ConnectionState :=
  (ts.flatMap Transition.published).map MonitorStatus.state

theorem path_protocol (path : Path (Monitor.start settings m).1 ts s) :
    Legal (statesPublished ts) ∧ s.phase.Follows (statesPublished ts).getLast? := by
  refine path.preserves (motive := fun s ts => Legal (statesPublished ts) ∧
    s.phase.Follows (statesPublished ts).getLast?) ?_ ?_
  · exact ⟨⟨nofun,List.isChain_nil⟩,Or.inl rfl⟩
  · rintro earlier t _ path ⟨legal,follows⟩
    have onward := t.passes.follows (path_voiced path) follows
    have states : statesPublished (earlier ++ [t]) =
        statesPublished earlier ++ t.published.map MonitorStatus.state := by
      simp [statesPublished]
    rw [states]
    rcases t.published_cases with ⟨silent,none⟩ | ⟨a,told,announced,state,_⟩
    · rw [none] at onward
      rw [silent,List.map_nil,List.append_nil]
      exact ⟨legal,onward⟩
    · obtain ⟨follow,_,phase,_⟩ := announces?_some announced
      rw [announced] at onward
      rw [phase] at follows
      rw [told,List.map_singleton,state,List.getLast?_concat]
      exact ⟨legal.concat follows,onward⟩

structure AtRest (s : Monitor) : Prop where
  cancelled : s.cancelled = true
  pollers : s.pollersStopped = true
  cleanups : s.cleanups = []
  beat : s.beating = false

namespace AtRest

theorem poller (rest : AtRest s) (c : Collection) : (s.pollers.get c).phase = .stopped := by
  have stopped := List.all_eq_true.mp rest.pollers c (by cases c <;> decide)
  exact of_decide_eq_true stopped

theorem unpolled (rest : AtRest s) (phase : (s.pollers.get c).phase = works)
    (working : works ≠ PollerPhase.stopped) : False :=
  working (phase.symm.trans (rest.poller c))

theorem uncleaned (rest : AtRest s) {id : Nat} (found : s.cleanup? id = some task) : False := by
  have listed := List.mem_of_find?_eq_some found
  rw [rest.cleanups] at listed
  cases listed

-- The tasks that are over do nothing. Only flashes that are queued may still be shown.
theorem others (rest : AtRest s) (other : step.ofChannel = false) (taken : Taken s step next outputs) :
    AtRest next ∧ next.phase = s.phase ∧ (next.forwarding = true → s.forwarding = true) ∧
      (s.forwarding = false → outputs = []) := by
  have ⟨cancelled,pollers,cleanups,beat⟩ := rest
  cases taken with
  | tick idle => exact (rest.unpolled idle nofun).elim
  | wake idle => exact (rest.unpolled idle nofun).elim
  | polled fetching => exact (rest.unpolled fetching nofun).elim
  | stopPoller _ free =>
    rcases free with idle | fetching
    · exact (rest.unpolled idle nofun).elim
    · exact (rest.unpolled fetching nofun).elim
  | callCleanup found => exact (rest.uncleaned found).elim
  | cleaned found => exact (rest.uncleaned found).elim
  | abandonCleanup found => exact (rest.uncleaned found).elim
  | heartbeat beats =>
    rw [beat] at beats
    cases beats
  | stopHeartbeat => exact ⟨⟨cancelled,pollers,cleanups,rfl⟩,rfl,id,fun _ => rfl⟩
  | expire ran => exact ⟨⟨cancelled,pollers,cleanups,beat⟩,rfl,id,fun _ => rfl⟩
  | abandonExpiry ran => exact ⟨⟨cancelled,pollers,cleanups,beat⟩,rfl,id,fun _ => rfl⟩
  | forward listening =>
    refine ⟨⟨cancelled,pollers,cleanups,beat⟩,rfl,id,fun silent => ?_⟩
    rw [silent] at listening
    cases listening
  | stopForwarder => exact ⟨⟨cancelled,pollers,cleanups,beat⟩,rfl,nofun,fun _ => rfl⟩
  | cancel => exact ⟨⟨rfl,pollers,cleanups,beat⟩,rfl,id,fun _ => rfl⟩
  | _ => cases other

theorem told (rest : AtRest s) (taken : Taken s (.tell m) next outputs) :
    AtRest next ∧ next.forwarding = s.forwarding := by
  cases taken
  exact ⟨⟨rest.cancelled,rest.pollers,rest.cleanups,rest.beat⟩,rfl⟩

theorem farewell (rest : AtRest s) (taken : Taken s (.farewell m) next outputs) :
    AtRest next ∧ next.forwarding = s.forwarding ∧ s.forwarding = false := by
  cases taken with
  | farewell phase silent turned =>
    cases turned
    exact ⟨⟨rest.cancelled,rest.pollers,rest.cleanups,rest.beat⟩,rfl,silent⟩

end AtRest

namespace Phase

def isLate : Phase → Bool
  | .quiet | .telling _ .stopped | .stopped => true
  | _ => false

def isLast : Phase → Bool
  | .telling _ .stopped | .stopped => true
  | _ => false

theorem isLate_of_isLast {phase : Phase} (last : phase.isLast = true) : phase.isLate = true := by
  unfold isLast at last
  split at last
  · rfl
  · rfl
  · cases last

end Phase

namespace Passes

theorem late (passes : Passes cancelled phase step after) (voiced : phase.Voiced) (late : after.isLate = true) :
    phase.isLate = true ∨ step = .teardown := by
  cases passes with
  | tells => cases voiced <;> first | exact Or.inl rfl | cases late
  | loses live loses => cases loses <;> cases late
  | teardown => exact Or.inr rfl
  | farewell => exact Or.inl rfl
  | other stays => exact Or.inl late
  | _ => cases late

theorem last (passes : Passes cancelled phase step after) (voiced : phase.Voiced) (last : after.isLast = true) :
    phase.isLast = true ∨ ∃ m, step = .farewell m := by
  cases passes with
  | tells => cases voiced <;> first | exact Or.inl rfl | cases last
  | loses live loses => cases loses <;> cases last
  | farewell => exact Or.inr ⟨_,rfl⟩
  | other stays => exact Or.inl last
  | _ => cases last

theorem ofLate (passes : Passes cancelled phase step after) (late : phase.isLate = true)
    (own : step.ofChannel = true) : (∃ m, step = .tell m) ∨ ∃ m, step = .farewell m := by
  cases passes with
  | tells => exact Or.inl ⟨_,rfl⟩
  | farewell => exact Or.inr ⟨_,rfl⟩
  | other stays => cases own.symm.trans stays
  | _ => cases late

theorem ofStopped (passes : Passes cancelled .stopped step after) : step.ofChannel = false ∧ after = .stopped := by
  cases passes with
  | other stays => exact ⟨stays,rfl⟩

end Passes

theorem AtRest.taken (rest : AtRest s) (late : s.phase.isLate = true) (taken : Taken s step next outputs) :
    AtRest next ∧ (next.forwarding = true → s.forwarding = true) := by
  cases own : step.ofChannel with
  | false =>
    obtain ⟨stays,_,forwards,_⟩ := rest.others own taken
    exact ⟨stays,forwards⟩
  | true =>
    rcases (Monitor.taken_passes taken).ofLate late own with ⟨m,rfl⟩ | ⟨m,rfl⟩
    · obtain ⟨stays,same⟩ := rest.told taken
      exact ⟨stays,fun forwards => same.symm.trans forwards⟩
    · obtain ⟨stays,same,_⟩ := rest.farewell taken
      exact ⟨stays,fun forwards => same.symm.trans forwards⟩

theorem Passes.closing (passes : Passes cancelled phase step after) (closing : after = .closing) :
    phase = .closing ∨ cancelled = true := by
  cases passes with
  | givesUp quits => exact Or.inr quits
  | @tells a follow m => cases follow <;> cases closing
  | hushed quits loses => exact Or.inr quits
  | leavesConnecting quits => exact Or.inr quits
  | leavesReading quits => exact Or.inr quits
  | leavesWaiting quits => exact Or.inr quits
  | other stays => exact Or.inl closing
  | _ => cases closing

structure Winding (s : Monitor) : Prop where
  closing : s.phase = .closing → s.cancelled = true
  rest : s.phase.isLate = true → AtRest s
  hushed : s.phase.isLast = true → s.forwarding = false

theorem Winding.taken (winding : Winding s) (voiced : s.phase.Voiced) (taken : Taken s step next outputs) :
    Winding next := by
  have passes := Monitor.taken_passes taken
  refine ⟨?_,?_,?_⟩
  · intro closing
    have cancelled := (passes.closing closing).elim winding.closing id
    exact Monitor.taken_cancelled taken cancelled
  · intro late
    rcases passes.late voiced late with late | rfl
    · exact ((winding.rest late).taken late taken).1
    · cases taken with
      | teardown phase pollers cleanups beat => exact ⟨winding.closing phase,pollers,cleanups,beat⟩
  · intro last
    rcases passes.last voiced last with last | ⟨m,rfl⟩
    · have late := Phase.isLate_of_isLast last
      have forwards := ((winding.rest late).taken late taken).2
      have silent := winding.hushed last
      exact Bool.eq_false_iff.mpr fun forwarding => Bool.eq_false_iff.mp silent (forwards forwarding)
    · cases taken with
      | farewell phase silent turned =>
        cases turned
        exact silent

theorem path_winding (path : Path (Monitor.start settings m).1 ts s) : Winding s := by
  refine path.preserves (motive := fun s _ => Winding s) ⟨nofun,nofun,nofun⟩ ?_
  intro _ t _ path winding
  exact winding.taken (path_voiced path) t.taken

theorem Winding.ended (winding : Winding s) (stopped : s.phase = .stopped) (taken : Taken s step next outputs) :
    outputs = [] ∧ next.phase = .stopped := by
  have late : s.phase.isLate = true := by rw [stopped]; rfl
  have last : s.phase.isLast = true := by rw [stopped]; rfl
  have passes := Monitor.taken_passes taken
  rw [stopped] at passes
  obtain ⟨other,after⟩ := passes.ofStopped
  obtain ⟨_,_,_,silent⟩ := (winding.rest late).others other taken
  exact ⟨silent (winding.hushed last),after⟩

theorem path_over (path : Path s ts next) (winding : Winding s) (stopped : s.phase = .stopped) :
    ts.flatMap Transition.outputs = [] := by
  induction path with
  | nil => rfl
  | cons t rest ih =>
    obtain ⟨silent,stays⟩ := winding.ended stopped t.taken
    have voiced : t.before.phase.Voiced := by rw [stopped]; trivial
    rw [List.flatMap_cons,silent,ih (winding.taken voiced t.taken) stays]
    rfl

theorem Passes.stops (passes : Passes cancelled phase step after) (stops : after = .stopped)
    (still : step.publishes = false) : phase = .stopped := by
  cases passes with
  | tells => cases still
  | other stays => exact stops
  | _ => cases stops

theorem Voices.stops (voices : Voices a follow) :
    a.state = .stopped ∧ a.attempt = 0 ∧ follow = .stopped ∨
      a.state ≠ .stopped ∧ ∀ m, Monitor.resume follow m ≠ .stopped := by
  cases voices with
  | stopped => exact Or.inl ⟨rfl,rfl,rfl⟩
  | _ => exact Or.inr ⟨nofun,nofun⟩

inductive Tolled (s : Monitor) (told : List Output) : Prop where
  | running (runs : s.phase ≠ .stopped)
      (untold : ∀ status, .status status ∈ eventsTold told → status.state ≠ .stopped) : Tolled s told
  | stopped (stopped : s.phase = .stopped) (last : eventsTold told = earlier ++ [.status final])
      (state : final.state = .stopped) (attempt : final.reconnectAttempt = 0)
      (untold : ∀ status, .status status ∈ earlier → status.state ≠ .stopped) : Tolled s told

theorem Tolled.taken (tolled : Tolled s told) (winding : Winding s) (voiced : s.phase.Voiced)
    (current : (statusesTold told).getLast? = some s.status) (taken : Taken s step next outputs) :
    Tolled next (told ++ outputs) := by
  cases tolled with
  | stopped stopped last state attempt untold =>
    obtain ⟨rfl,stays⟩ := winding.ended stopped taken
    exact .stopped stays (by rw [List.append_nil]; exact last) state attempt untold
  | running runs untold =>
    have further (goes : next.phase ≠ .stopped)
        (silent : ∀ status, .status status ∈ eventsTold outputs → status.state ≠ .stopped) :
        Tolled next (told ++ outputs) := by
      refine .running goes fun status member => ?_
      rw [eventsTold_append] at member
      exact (List.mem_append.mp member).elim (untold status) (silent status)
    cases Monitor.taken_tells taken with
    | silent quiet same still =>
      refine further (fun stops => ?_) fun status member => ?_
      · have stopped := (Monitor.taken_passes taken).stops stops still
        exact runs stopped
      · rw [← mem_statusesTold,quiet] at member
        cases member
    | @told a follow m _ phase goes status events =>
      rw [phase] at voiced
      have state : next.status.state = a.state := by rw [status]; rfl
      have attempt : next.status.reconnectAttempt = a.attempt := by rw [status]; rfl
      rcases Voices.stops voiced with ⟨stops,zero,rfl⟩ | ⟨runs,resumes⟩
      · have last : eventsTold (told ++ outputs) = eventsTold told ++ [.status next.status] := by
          rw [eventsTold_append,events]
        exact .stopped goes last (state.trans stops) (attempt.trans zero) untold
      · refine further (fun stops => resumes m (goes.symm.trans stops)) fun shown member => ?_
        rw [events] at member
        cases List.mem_singleton.mp member
        rwa [state]
    | beat stays status =>
      refine further (fun stops => runs (stays.symm.trans stops)) fun shown member => ?_
      have before := untold s.status (mem_statusesTold.mp (List.mem_of_getLast? current))
      cases List.mem_singleton.mp member
      rw [status]
      exact before

theorem path_tolled (path : Path (Monitor.start settings m).1 ts s) : Tolled s (toldBy settings m ts) := by
  refine path.preserves (motive := fun s ts => Tolled s (toldBy settings m ts)) ?_ ?_
  · refine .running nofun fun status member => ?_
    cases List.mem_singleton.mp member
    exact nofun
  · intro earlier t _ path tolled
    rw [toldBy_concat]
    exact tolled.taken (path_winding path) (path_voiced path) (path_status path) t.taken

theorem path_first (settings : Settings) (m : Moment) (ts : List Transition) :
    ∃ status later, eventsTold (toldBy settings m ts) = .status status :: later ∧ status.state = .connecting :=
  ⟨(Monitor.start settings m).1.status,_,rfl,rfl⟩

theorem beat_repeats {ts : List Transition} (path : Path (Monitor.start settings m).1 ts s)
    (cut : ts = earlier ++ t :: later) (beats : t.step.beats = true) :
    ∃ last beat, (statusesTold (toldBy settings m earlier)).getLast? = some last ∧
      t.outputs = [.event (.status beat)] ∧
      beat = { last with
        lastMessageAt:=beat.lastMessageAt, staleJobs:=beat.staleJobs, staleSessions:=beat.staleSessions } := by
  subst cut
  obtain ⟨before,_⟩ := path.cut
  obtain ⟨now,told,status⟩ := t.tells.ofBeat beats
  refine ⟨t.before.status,t.after.status,path_status before,told,?_⟩
  rw [status]
  rfl

structure Concluded (settings : Settings) (m : Moment) (ts : List Transition) (s : Monitor) : Prop where
  cancelled : s.cancelled = true
  first : ∃ status later, eventsTold (toldBy settings m ts) = .status status :: later ∧ status.state = .connecting
  last : ∃ earlier final, eventsTold (toldBy settings m ts) = earlier ++ [.status final] ∧
    final.state = .stopped ∧ final.reconnectAttempt = 0 ∧
      ∀ status, .status status ∈ earlier → status.state ≠ .stopped
  silence : ∀ later next, Path s later next → later.flatMap Transition.outputs = []
  protocol : Legal (statesPublished ts)
  beats : ∀ earlier t later, ts = earlier ++ t :: later → t.step.beats = true →
    ∃ last beat, (statusesTold (toldBy settings m earlier)).getLast? = some last ∧
      t.outputs = [.event (.status beat)] ∧
      beat = { last with
        lastMessageAt:=beat.lastMessageAt, staleJobs:=beat.staleJobs, staleSessions:=beat.staleSessions }

theorem session_ends_with_one_stop (path : Path (Monitor.start settings m).1 ts s)
    (returned : s.phase = .stopped) : Concluded settings m ts s := by
  have winding := path_winding path
  have late : s.phase.isLate = true := by rw [returned]; rfl
  refine ⟨(winding.rest late).cancelled,path_first settings m ts,?_,?_,(path_protocol path).1,?_⟩
  · cases path_tolled path with
    | running runs => exact (runs returned).elim
    | stopped _ last state attempt untold => exact ⟨_,_,last,state,attempt,untold⟩
  · intro later next onward
    exact path_over onward winding returned
  · intro earlier t later cut beats
    exact beat_repeats path cut beats

theorem session_cancelled_in_dial : ∃ ts s,
    let settings : Settings := ⟨defaultApiBaseUrl,defaultPushUrl,5000,10000,15000,15000,60000,600,none⟩
    let m : Moment := ⟨0,0⟩
    let late : Moment := ⟨1001,1001⟩
    Path (Monitor.start settings m).1 ts s ∧ s.phase = .stopped ∧
      ts.map Transition.step = [.openChannel m,.tell m,.heartbeat m,.cancel,.stopPoller .jobs,
        .stopPoller .discoveryRuns,.stopPoller .positions,.stopPoller .sessions,.stopHeartbeat,.leave,.teardown,
        .stopForwarder,.farewell late,.tell late] ∧
      statesPublished ts = [.connecting,.stopped] ∧ Concluded settings m ts s := by
  let settings : Settings := ⟨defaultApiBaseUrl,defaultPushUrl,5000,10000,15000,15000,60000,600,none⟩
  let m : Moment := ⟨0,0⟩
  let late : Moment := ⟨1001,1001⟩
  let opened : Transition := ⟨(Monitor.start settings m).1,.openChannel m,_,_,rfl⟩
  let dial : Transition := ⟨opened.after,.tell m,_,_,rfl⟩
  let beat : Transition := ⟨dial.after,.heartbeat m,_,_,rfl⟩
  let cancel : Transition := ⟨beat.after,.cancel,_,_,rfl⟩
  let jobs : Transition := ⟨cancel.after,.stopPoller .jobs,_,_,rfl⟩
  let runs : Transition := ⟨jobs.after,.stopPoller .discoveryRuns,_,_,rfl⟩
  let positions : Transition := ⟨runs.after,.stopPoller .positions,_,_,rfl⟩
  let sessions : Transition := ⟨positions.after,.stopPoller .sessions,_,_,rfl⟩
  let silenced : Transition := ⟨sessions.after,.stopHeartbeat,_,_,rfl⟩
  let left : Transition := ⟨silenced.after,.leave,_,_,rfl⟩
  let torn : Transition := ⟨left.after,.teardown,_,_,rfl⟩
  let hushed : Transition := ⟨torn.after,.stopForwarder,_,_,rfl⟩
  let farewell : Transition := ⟨hushed.after,.farewell late,_,_,rfl⟩
  let told : Transition := ⟨farewell.after,.tell late,_,_,rfl⟩
  have dialled : Path opened.before [opened,dial,beat] cancel.before := .cons opened (.cons dial (.cons beat .nil))
  have stopped : Path cancel.before [cancel,jobs,runs,positions,sessions,silenced] left.before :=
    .cons cancel (.cons jobs (.cons runs (.cons positions (.cons sessions (.cons silenced .nil)))))
  have ended : Path left.before [left,torn,hushed,farewell,told] told.after :=
    .cons left (.cons torn (.cons hushed (.cons farewell (.cons told .nil))))
  have path : Path (Monitor.start settings m).1 _ told.after := dialled.append (stopped.append ended)
  exact ⟨_,_,path,rfl,rfl,rfl,session_ends_with_one_stop path rfl⟩

end RunWatch.Session
