import RunWatch.Proofs.Session.History
namespace RunWatch.Session

def Output.event? : Output → Option Event
  | .event e => some e
  | .request _ => none

def Event.status? : Event → Option MonitorStatus
  | .status s => some s
  | _ => none

def eventsTold (told : List Output) : List Event := told.filterMap Output.event?

def statusesTold (told : List Output) : List MonitorStatus := (eventsTold told).filterMap Event.status?

theorem eventsTold_append (earlier later : List Output) :
    eventsTold (earlier ++ later) = eventsTold earlier ++ eventsTold later := List.filterMap_append

theorem statusesTold_append (earlier later : List Output) :
    statusesTold (earlier ++ later) = statusesTold earlier ++ statusesTold later := by
  simp only [statusesTold,eventsTold_append,List.filterMap_append]

theorem mem_statusesTold {told : List Output} : status ∈ statusesTold told ↔ .status status ∈ eventsTold told := by
  unfold statusesTold
  rw [List.mem_filterMap]
  constructor
  · rintro ⟨event,member,same⟩
    cases event with
    | status other => cases same; exact member
    | _ => cases same
  · intro member
    exact ⟨_,member,rfl⟩

namespace Step

def ofChannel : Step → Bool
  | .openChannel .. | .tell .. | .connected .. | .connectFailed .. | .frame .. | .streamEnded ..
  | .frameFailed .. | .retry .. | .leave | .teardown | .farewell .. => true
  | _ => false

def beats : Step → Bool
  | .heartbeat _ => true
  | _ => false

def publishes : Step → Bool
  | .tell _ | .heartbeat _ => true
  | _ => false

inductive Loses : Step → String → Next → Prop where
  | closed : Loses (.frame .close m) "push channel closed" .opening
  | ended : Loses (.streamEnded m) "push channel closed" (.waiting 1)
  | failed : Loses (.frameFailed fault m) ("push channel frame error: " ++ fault.message) (.waiting 1)

end Step

-- The channel task from one place to the next, rule by rule, by whether the session is
-- cancelled. The steps of other tasks leave it where it is.
inductive Passes (cancelled : Bool) : Phase → Step → Phase → Prop where
  | givesUp (quits : cancelled = true) : Passes cancelled (.opening attempt) (.openChannel m) .closing
  | opens (live : cancelled = false) : Passes cancelled (.opening attempt) (.openChannel m)
      (.telling ⟨.connecting,attempt,Monitor.openingReason attempt⟩ (.connecting attempt))
  | tells : Passes cancelled (.telling a follow) (.tell m) (Monitor.resume follow m)
  | connects : Passes cancelled (.connecting attempt) (.connected m)
      (.telling ⟨.connected,0,"push channel connected"⟩ .reading)
  | refused : Passes cancelled (.connecting attempt) (.connectFailed fault m)
      (.telling ⟨.disconnected,attempt,"push channel connect error: " ++ fault.message⟩
        (.waiting (nextAttempt attempt)))
  | reads (goes : f ≠ .close) : Passes cancelled .reading (.frame f m) .reading
  | loses (live : cancelled = false) (loses : step.Loses reason follow) :
      Passes cancelled .reading step (.telling ⟨.disconnected,0,reason⟩ follow)
  | hushed (quits : cancelled = true) (loses : step.Loses reason follow) :
      Passes cancelled .reading step .closing
  | retries (due : deadline ≤ m.clock) :
      Passes cancelled (.waiting attempt deadline) (.retry m) (.opening attempt)
  | leavesConnecting (quits : cancelled = true) : Passes cancelled (.connecting attempt) .leave .closing
  | leavesReading (quits : cancelled = true) : Passes cancelled .reading .leave .closing
  | leavesWaiting (quits : cancelled = true) : Passes cancelled (.waiting attempt deadline) .leave .closing
  | teardown : Passes cancelled .closing .teardown .quiet
  | farewell : Passes cancelled .quiet (.farewell m) (.telling ⟨.stopped,0,"monitor stopped"⟩ .stopped)
  | other (stays : step.ofChannel = false) : Passes cancelled phase step phase

namespace Monitor

theorem turn_phase {s : Monitor} (turned : s.turn state a follow m = (next,outputs)) :
    next.phase = .telling a follow := by
  cases turned
  rfl

theorem lost_passes {s : Monitor} (phase : s.phase = .reading) (loses : step.Loses reason follow)
    (lost : s.lost reason follow m = (next,outputs)) : Passes s.cancelled s.phase step next.phase := by
  rw [phase]
  rcases lost_cases lost with ⟨cancelled,rfl,_⟩ | ⟨live,turned⟩
  · exact .hushed cancelled loses
  · rw [turn_phase turned]
    exact .loses live loses

theorem carries_goes {f : Push.Frame} (carried : f.Carries message) : f ≠ .close := by
  rintro rfl
  obtain ⟨_,found,_⟩ := carried
  cases found

theorem empty_goes {f : Push.Frame} (empty : f.Empty) : f ≠ .close := by
  rintro rfl
  cases empty

theorem taken_passes (taken : Taken s step next outputs) : Passes s.cancelled s.phase step next.phase := by
  cases taken with
  | giveUp phase cancelled => rw [phase]; exact .givesUp cancelled
  | openChannel phase live turned => rw [phase,turn_phase turned]; exact .opens live
  | tell phase => rw [phase]; exact .tells
  | connected phase turned => rw [phase,turn_phase turned]; exact .connects
  | connectFailed phase turned => rw [phase,turn_phase turned]; exact .refused
  | closeFrame phase lost => exact lost_passes phase .closed lost
  | streamEnded phase lost => exact lost_passes phase .ended lost
  | frameFailed phase lost => exact lost_passes phase .failed lost
  | emptyFrame phase empty => rw [phase]; exact .reads (empty_goes empty)
  | message phase carried handled =>
    rw [(handle_spares handled).phase,phase]
    exact .reads (carries_goes carried)
  | retry phase due => rw [phase]; exact .retries due
  | leaveConnecting phase cancelled => rw [phase]; exact .leavesConnecting cancelled
  | leaveReading phase cancelled => rw [phase]; exact .leavesReading cancelled
  | leaveWaiting phase cancelled => rw [phase]; exact .leavesWaiting cancelled
  | teardown phase pollers cleanups beat => rw [phase]; exact .teardown
  | farewell phase silent turned => rw [phase,turn_phase turned]; exact .farewell
  | polled fetching merged => rw [(polled_spares merged).phase]; exact .other rfl
  | cleaned found called noted => rw [(cleaned_spares noted).phase]; exact .other rfl
  | abandonCleanup found cancelled => rw [(endCleanup_spares s _).phase]; exact .other rfl
  | heartbeat beats published => cases published; exact .other rfl
  | _ => exact .other rfl

end Monitor

inductive Voices : Announcement → Next → Prop where
  | connecting : Voices ⟨.connecting,attempt,reason⟩ (.connecting attempt)
  | reading : Voices ⟨.connected,0,reason⟩ .reading
  | opening : Voices ⟨.disconnected,0,reason⟩ .opening
  | waiting : Voices ⟨.disconnected,attempt,reason⟩ (.waiting next)
  | stopped : Voices ⟨.stopped,0,reason⟩ .stopped

def Phase.Voiced : Phase → Prop
  | .telling a follow => Voices a follow
  | _ => True

theorem resume_voiced (follow : Next) (m : Moment) : (Monitor.resume follow m).Voiced := by
  cases follow <;> trivial

theorem Passes.voiced (passes : Passes cancelled phase step after) (voiced : phase.Voiced) : after.Voiced := by
  cases passes with
  | opens => exact .connecting
  | tells => exact resume_voiced _ _
  | connects => exact .reading
  | refused => exact .waiting
  | loses live loses =>
    cases loses with
    | closed => exact .opening
    | ended => exact .waiting
    | failed => exact .waiting
  | farewell => exact .stopped
  | other stays => exact voiced
  | _ => trivial

def Phase.announces? : Phase → Step → Option Announcement
  | .telling a _, .tell _ => some a
  | _, _ => none

theorem announces?_none (phase : Phase) (untold : ∀ m, step ≠ .tell m) : phase.announces? step = none := by
  cases phase with
  | telling a follow =>
    cases step with
    | tell m => exact (untold m rfl).elim
    | _ => rfl
  | _ => rfl

theorem announces?_some {phase : Phase} (announced : phase.announces? step = some a) :
    ∃ follow m, phase = .telling a follow ∧ step = .tell m := by
  cases phase with
  | telling b follow =>
    cases step with
    | tell m => cases announced; exact ⟨follow,m,rfl,rfl⟩
    | _ => cases announced
  | _ => cases announced

-- What a step tells of the status: nothing, what the channel task has come to, or what
-- was told last with new numbers beside it.
inductive Tells (s next : Monitor) : Step → List Output → Prop where
  | silent (quiet : statusesTold outputs = []) (same : next.status = s.status) (still : step.publishes = false) :
      Tells s next step outputs
  | told (phase : s.phase = .telling a follow) (goes : next.phase = Monitor.resume follow m)
      (status : next.status = s.withTelemetry
        { s.status with state:=a.state, reconnectAttempt:=a.attempt, reason:=some a.reason } m)
      (events : eventsTold outputs = [.status next.status]) : Tells s next (.tell m) outputs
  | beat (stays : next.phase = s.phase) (status : next.status = s.withTelemetry s.status m) :
      Tells s next (.heartbeat m) [.event (.status next.status)]

theorem Tells.status {status : MonitorStatus} (tells : Tells s next step outputs)
    (told : .status status ∈ eventsTold outputs) :
    (∃ a follow, s.phase = .telling a follow ∧ status.state = a.state ∧ status.reconnectAttempt = a.attempt) ∨
      status.state = s.status.state ∧ status.reconnectAttempt = s.status.reconnectAttempt := by
  cases tells with
  | silent quiet same still =>
    rw [← mem_statusesTold,quiet] at told
    cases told
  | told phase goes shown events =>
    rw [events,shown] at told
    cases List.mem_singleton.mp told
    exact Or.inl ⟨_,_,phase,rfl,rfl⟩
  | beat stays shown =>
    rw [shown] at told
    cases List.mem_singleton.mp told
    exact Or.inr ⟨rfl,rfl⟩

theorem Tells.ofBeat (tells : Tells s next step outputs) (beats : step.beats = true) :
    ∃ m, outputs = [.event (.status next.status)] ∧ next.status = s.withTelemetry s.status m := by
  cases tells with
  | silent quiet same still =>
    cases step with
    | heartbeat m => cases still
    | _ => cases beats
  | told phase goes status events => cases beats
  | beat stays status => exact ⟨_,rfl,status⟩

namespace Monitor

theorem turn_tells {s : Monitor} (turned : s.turn state a follow m = (next,outputs))
    (still : step.publishes = false) : Tells s next step outputs := by
  have told : (s.setChannel state m).2 = outputs := congrArg Prod.snd turned
  have quiet : statusesTold (s.setChannel state m).2 = [] := by
    simp only [setChannel]
    split <;> rfl
  rw [told] at quiet
  cases turned
  exact .silent quiet rfl still

theorem lost_tells {s : Monitor} (lost : s.lost reason follow m = (next,outputs))
    (still : step.publishes = false) : Tells s next step outputs := by
  rcases lost_cases lost with ⟨_,rfl,rfl⟩ | ⟨_,turned⟩
  · exact .silent rfl rfl still
  · exact turn_tells turned still

theorem handle_quiet {s : Monitor} {message : Push.Message}
    (handled : s.handle message m = (next,outputs)) : statusesTold outputs = [] := by
  have quiet : statusesTold (s.handle message m).2 = [] := by
    unfold handle
    rcases s.board.receive message m.wall with ⟨board,changed,remediate,progress,flash,refresh⟩
    cases changed <;> cases progress <;> rfl
  rwa [handled] at quiet

theorem cleaned_quiet {s : Monitor} (noted : s.onCleaned task result m = (next,outputs)) :
    statusesTold outputs = [] := by
  have quiet : statusesTold (s.onCleaned task result m).2 = [] := by
    cases result <;> rfl
  rwa [noted] at quiet

theorem taken_tells (taken : Taken s step next outputs) : Tells s next step outputs := by
  cases taken with
  | @tell a follow m phase =>
    exact .told phase rfl rfl (by cases follow <;> rfl)
  | heartbeat beats published => cases published; exact .beat rfl rfl
  | openChannel phase live turned => exact turn_tells turned rfl
  | connected phase turned => exact turn_tells turned rfl
  | connectFailed phase turned => exact turn_tells turned rfl
  | farewell phase silent turned => exact turn_tells turned rfl
  | closeFrame phase lost => exact lost_tells lost rfl
  | streamEnded phase lost => exact lost_tells lost rfl
  | frameFailed phase lost => exact lost_tells lost rfl
  | message phase carried handled => exact .silent (handle_quiet handled) (handle_spares handled).status rfl
  | @polled p m next outputs fetching merged =>
    have told := (s.onPolled_eq p m).2
    rw [merged] at told
    have told : outputs = _ := told
    exact .silent (by rw [told]; rfl) (polled_spares merged).status rfl
  | cleaned found called noted => exact .silent (cleaned_quiet noted) (cleaned_spares noted).status rfl
  | abandonCleanup found cancelled => exact .silent rfl (endCleanup_spares s _).status rfl
  | _ => exact .silent rfl rfl rfl

end Monitor

namespace Transition

def published (t : Transition) : List MonitorStatus := if t.step.beats then [] else statusesTold t.outputs

theorem passes (t : Transition) : Passes t.before.cancelled t.before.phase t.step t.after.phase :=
  Monitor.taken_passes t.taken

theorem tells (t : Transition) : Tells t.before t.after t.step t.outputs := Monitor.taken_tells t.taken

theorem published_cases (t : Transition) :
    t.published = [] ∧ t.before.phase.announces? t.step = none ∨
      ∃ a, t.published = [t.after.status] ∧ t.before.phase.announces? t.step = some a ∧
        t.after.status.state = a.state ∧ t.after.status.reconnectAttempt = a.attempt := by
  rcases t with ⟨before,step,after,outputs,took⟩
  have tells : Tells before after step outputs := Monitor.taken_tells (Monitor.advance_taken took)
  unfold published
  cases tells with
  | silent quiet same still =>
    refine Or.inl ⟨by simp only [quiet,ite_self],announces?_none before.phase ?_⟩
    rintro m rfl
    cases still
  | told phase goes status events =>
    refine Or.inr ⟨_,?_,by simp only [phase]; rfl,by rw [status]; rfl,by rw [status]; rfl⟩
    simp only [Step.beats,statusesTold,events]; rfl
  | beat stays status => exact Or.inl ⟨rfl,announces?_none before.phase nofun⟩

end Transition

def toldBy (settings : Settings) (m : Moment) (ts : List Transition) : List Output :=
  (Monitor.start settings m).2 ++ ts.flatMap Transition.outputs

theorem toldBy_concat (settings : Settings) (m : Moment) (ts : List Transition) (t : Transition) :
    toldBy settings m (ts ++ [t]) = toldBy settings m ts ++ t.outputs := by
  simp [toldBy]

theorem path_voiced (path : Path (Monitor.start settings m).1 ts s) : s.phase.Voiced := by
  refine path.preserves (motive := fun s _ => s.phase.Voiced) trivial ?_
  intro _ t _ _ voiced
  exact t.passes.voiced voiced

theorem path_status (path : Path (Monitor.start settings m).1 ts s) :
    (statusesTold (toldBy settings m ts)).getLast? = some s.status := by
  refine path.preserves
    (motive := fun s ts => (statusesTold (toldBy settings m ts)).getLast? = some s.status) rfl ?_
  intro earlier t _ _ current
  rw [toldBy_concat,statusesTold_append]
  rcases t with ⟨before,step,after,outputs,took⟩
  have tells : Tells before after step outputs := Monitor.taken_tells (Monitor.advance_taken took)
  cases tells with
  | silent quiet same still =>
    simp only [quiet,List.append_nil]
    rw [current,same]
  | told phase goes status events =>
    have one : statusesTold outputs = [after.status] := by simp only [statusesTold,events]; rfl
    simp only [one]
    exact List.getLast?_concat
  | beat stays status => exact List.getLast?_concat

end RunWatch.Session
