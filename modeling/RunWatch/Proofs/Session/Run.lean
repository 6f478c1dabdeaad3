import RunWatch.Proofs.Board.Rosters
import RunWatch.Session.Monitor
namespace RunWatch

inductive Push.Frame.Empty : Push.Frame → Prop where
  | ping : Empty (.ping content)
  | pong : Empty (.pong content)
  | raw : Empty (.raw content)
  | text : Push.Message.read content.toUTF8 = .error fault → Empty (.text content)
  | binary : Push.Message.read content = .error fault → Empty (.binary content)

def Push.Frame.Carries (f : Push.Frame) (message : Push.Message) : Prop :=
  ∃ payload, f.payload? = some payload ∧ Push.Message.read payload = .ok message

namespace Session

def Next.requests : Next → List Output
  | .connecting _ => [.request .connect]
  | _ => []

inductive Taken (s : Monitor) : Step → Monitor → List Output → Prop where
  | giveUp (phase : s.phase = .opening attempt) (cancelled : s.cancelled = true) :
      Taken s (.openChannel m) { s with phase:=.closing } []
  | openChannel (phase : s.phase = .opening attempt) (live : s.cancelled = false)
      (turned : s.turn .connecting ⟨.connecting,attempt,Monitor.openingReason attempt⟩ (.connecting attempt) m =
        (next,outputs)) : Taken s (.openChannel m) next outputs
  | tell (phase : s.phase = .telling a next) :
      Taken s (.tell m) { (s.announce a m).1 with phase:=Monitor.resume next m }
        ((s.announce a m).2 ++ next.requests)
  | connected (phase : s.phase = .connecting attempt)
      (turned : s.turn .connected ⟨.connected,0,"push channel connected"⟩ .reading m = (next,outputs)) :
      Taken s (.connected m) next outputs
  | connectFailed (phase : s.phase = .connecting attempt)
      (turned : s.turn .disconnected
        ⟨.disconnected,attempt,"push channel connect error: " ++ fault.message⟩
        (.waiting (nextAttempt attempt)) m = (next,outputs)) : Taken s (.connectFailed fault m) next outputs
  | closeFrame (phase : s.phase = .reading)
      (lost : s.lost "push channel closed" .opening m = (next,outputs)) : Taken s (.frame .close m) next outputs
  | emptyFrame (phase : s.phase = .reading) (empty : f.Empty) : Taken s (.frame f m) s []
  | message (phase : s.phase = .reading) (carried : f.Carries message)
      (handled : s.handle message m = (next,outputs)) : Taken s (.frame f m) next outputs
  | streamEnded (phase : s.phase = .reading)
      (lost : s.lost "push channel closed" (.waiting 1) m = (next,outputs)) :
      Taken s (.streamEnded m) next outputs
  | frameFailed (phase : s.phase = .reading)
      (lost : s.lost ("push channel frame error: " ++ fault.message) (.waiting 1) m = (next,outputs)) :
      Taken s (.frameFailed fault m) next outputs
  | retry (phase : s.phase = .waiting attempt deadline) (due : deadline ≤ m.clock) :
      Taken s (.retry m) { s with phase:=.opening attempt } []
  | leaveConnecting (phase : s.phase = .connecting attempt) (cancelled : s.cancelled = true) :
      Taken s .leave { s with phase:=.closing } []
  | leaveReading (phase : s.phase = .reading) (cancelled : s.cancelled = true) :
      Taken s .leave { s with phase:=.closing } []
  | leaveWaiting (phase : s.phase = .waiting attempt deadline) (cancelled : s.cancelled = true) :
      Taken s .leave { s with phase:=.closing } []
  | teardown (phase : s.phase = .closing) (pollers : s.pollersStopped = true) (cleanups : s.cleanups = [])
      (beat : s.beating = false) : Taken s .teardown { s with flash:=s.flash.teardown, phase:=.quiet } []
  | farewell (phase : s.phase = .quiet) (silent : s.forwarding = false)
      (turned : s.turn .disconnected ⟨.stopped,0,"monitor stopped"⟩ .stopped m = (next,outputs)) :
      Taken s (.farewell m) next outputs
  | tick (idle : (s.pollers.get c).phase = .idle) :
      Taken s (.tick c) (s.setPoller c (s.pollers.get c).onTick) [.request (.fetch c)]
  | wake (idle : (s.pollers.get c).phase = .idle) (requested : (s.pollers.get c).isRequested = true) :
      Taken s (.wake c) (s.setPoller c (s.pollers.get c).onRequest) [.request (.fetch c)]
  | polled (fetching : (s.pollers.get p.collection).phase = .fetching)
      (merged : s.onPolled p m = (next,outputs)) : Taken s (.polled p m) next outputs
  | stopPoller (cancelled : s.cancelled = true)
      (free : (s.pollers.get c).phase = .idle ∨ (s.pollers.get c).phase = .fetching) :
      Taken s (.stopPoller c) (s.setPollerPhase c .stopped) []
  | callCleanup {id : Nat} (found : s.cleanup? id = some task) (uncalled : task.calling = false) :
      Taken s (.callCleanup id)
        { s with cleanups:=s.cleanups.map fun t => if t.id = id then { t with calling:=true } else t }
        [.request (.cleanup task.collection id)]
  | cleaned {id : Nat} (found : s.cleanup? id = some task) (called : task.calling = true)
      (noted : s.onCleaned task result m = (next,outputs)) : Taken s (.cleaned id result m) next outputs
  | abandonCleanup {id : Nat} (found : s.cleanup? id = some task) (cancelled : s.cancelled = true) :
      Taken s (.abandonCleanup id) (s.endCleanup task) []
  | heartbeat (beats : s.beating = true) (published : s.publish s.status m = (next,outputs)) :
      Taken s (.heartbeat m) next outputs
  | stopHeartbeat (cancelled : s.cancelled = true) : Taken s .stopHeartbeat { s with beating:=false } []
  | expire (ran : s.flash.advance (.expire generation m.clock) = some (flash,changes)) :
      Taken s (.expire generation m) (s.flashed flash changes) []
  | abandonExpiry (ran : s.flash.advance (.abandon generation) = some (flash,changes)) :
      Taken s (.abandonExpiry generation) (s.flashed flash changes) []
  | forward (listening : s.forwarding = true) (queued : s.flashQueue = change :: rest) :
      Taken s .forward { s with flashQueue:=rest } [.event (.flash change)]
  | stopForwarder (cancelled : s.cancelled = true) : Taken s .stopForwarder { s with forwarding:=false } []
  | cancel : Taken s .cancel { s with cancelled:=true } []

namespace Monitor

theorem when_some {condition : Bool} :
    when condition result = some taken ↔ condition = true ∧ result = taken := by
  unfold when
  cases condition <;> simp

theorem onFrame_empty (s : Monitor) {f : Push.Frame} (empty : f.Empty) (m : Moment) :
    s.onFrame f m = (s,[]) := by
  cases empty with
  | ping => rfl
  | pong => rfl
  | raw => rfl
  | text refused => simp only [onFrame,Push.Frame.payload?,refused]
  | binary refused => simp only [onFrame,Push.Frame.payload?,refused]

theorem onFrame_carries (s : Monitor) {f : Push.Frame} (carried : f.Carries message) (m : Moment) :
    s.onFrame f m = s.handle message m := by
  obtain ⟨payload,found,read⟩ := carried
  cases f with
  | close => cases found
  | ping content => cases found
  | pong content => cases found
  | raw content => cases found
  | text content =>
    cases Option.some.inj found
    simp only [onFrame,Push.Frame.payload?,read]
  | binary content =>
    cases Option.some.inj found
    simp only [onFrame,Push.Frame.payload?,read]

theorem handle_board (s : Monitor) (message : Push.Message) (m : Moment) :
    (s.handle message m).1.board = (s.board.receive message m.wall).1 := by
  unfold handle
  rcases s.board.receive message m.wall with ⟨board,changed,remediate,progress,flash,refresh⟩
  cases remediate <;> cases flash <;> cases refresh <;> rfl

theorem endCleanup_board (s : Monitor) (task : Cleanup) : (s.endCleanup task).board = s.board := by
  unfold endCleanup
  dsimp only
  split <;> rfl

theorem onPolled_eq (s : Monitor) (p : Poll) (m : Moment) :
    (s.onPolled p m).1.board = (s.board.applyPoll p m.wall).1.prune ∧
      (s.onPolled p m).2 =
        [.event (.snapshot p.collection ((s.board.applyPoll p m.wall).1.prune.view p.collection m.wall))] := by
  unfold onPolled
  rcases s.board.applyPoll p m.wall with ⟨board,outcome⟩
  dsimp only
  split <;> exact ⟨rfl,rfl⟩

-- A session that loses its stream turns, unless it is cancelled: then it closes in silence.
theorem lost_cases {s : Monitor} (lost : s.lost reason follow m = (next,outputs)) :
    (s.cancelled = true ∧ next = { s with phase:=.closing } ∧ outputs = []) ∨
      (s.cancelled = false ∧
        s.turn .disconnected ⟨.disconnected,0,reason⟩ follow m = (next,outputs)) := by
  unfold Monitor.lost at lost
  split at lost
  · rename_i cancelled
    cases lost
    exact Or.inl ⟨cancelled,rfl,rfl⟩
  · rename_i live
    exact Or.inr ⟨Bool.eq_false_iff.mpr live,lost⟩

theorem frame_cases (f : Push.Frame) : f = .close ∨ f.Empty ∨ ∃ message, f.Carries message := by
  cases f with
  | close => exact Or.inl rfl
  | ping content => exact Or.inr (Or.inl .ping)
  | pong content => exact Or.inr (Or.inl .pong)
  | raw content => exact Or.inr (Or.inl .raw)
  | text content =>
    cases read : Push.Message.read content.toUTF8 with
    | error fault => exact Or.inr (Or.inl (.text read))
    | ok message => exact Or.inr (Or.inr ⟨message,_,rfl,read⟩)
  | binary content =>
    cases read : Push.Message.read content with
    | error fault => exact Or.inr (Or.inl (.binary read))
    | ok message => exact Or.inr (Or.inr ⟨message,_,rfl,read⟩)

theorem channelStep_taken (took : s.channelStep step = some (next,outputs)) : Taken s step next outputs := by
  cases step with
  | openChannel m =>
    simp only [channelStep] at took
    split at took
    · rename_i attempt phase
      split at took
      · rename_i cancelled
        cases Option.some.inj took; exact .giveUp phase cancelled
      · rename_i live
        exact .openChannel phase (by simpa using live) (Option.some.inj took)
    · cases took
  | tell m =>
    simp only [channelStep] at took
    split at took
    · rename_i a next phase
      cases next <;> (cases Option.some.inj took; exact .tell phase)
    · cases took
  | connected m =>
    simp only [channelStep] at took
    split at took
    · rename_i attempt phase
      exact .connected phase (Option.some.inj took)
    · cases took
  | connectFailed fault m =>
    simp only [channelStep] at took
    split at took
    · rename_i attempt phase
      exact .connectFailed phase (Option.some.inj took)
    · cases took
  | frame f m =>
    simp only [channelStep] at took
    split at took
    · rename_i phase
      have framed := Option.some.inj took
      rcases frame_cases f with rfl | empty | ⟨message,carried⟩
      · exact .closeFrame phase framed
      · rw [onFrame_empty s empty] at framed
        cases framed; exact .emptyFrame phase empty
      · rw [onFrame_carries s carried] at framed
        exact .message phase carried framed
    · cases took
  | streamEnded m =>
    simp only [channelStep] at took
    split at took
    · rename_i phase
      exact .streamEnded phase (Option.some.inj took)
    · cases took
  | frameFailed fault m =>
    simp only [channelStep] at took
    split at took
    · rename_i phase
      exact .frameFailed phase (Option.some.inj took)
    · cases took
  | retry m =>
    simp only [channelStep] at took
    split at took
    · rename_i attempt deadline phase
      obtain ⟨due,equal⟩ := when_some.mp took
      cases equal; exact .retry phase (by simpa using due)
    · cases took
  | leave =>
    simp only [channelStep] at took
    split at took
    · rename_i attempt phase
      obtain ⟨cancelled,equal⟩ := when_some.mp took
      cases equal; exact .leaveConnecting phase cancelled
    · rename_i phase
      obtain ⟨cancelled,equal⟩ := when_some.mp took
      cases equal; exact .leaveReading phase cancelled
    · rename_i attempt deadline phase
      obtain ⟨cancelled,equal⟩ := when_some.mp took
      cases equal; exact .leaveWaiting phase cancelled
    · cases took
  | teardown =>
    simp only [channelStep] at took
    split at took
    · rename_i phase
      obtain ⟨ready,equal⟩ := when_some.mp took
      simp only [Bool.and_eq_true,List.isEmpty_iff,Bool.not_eq_true'] at ready
      cases equal; exact .teardown phase ready.1.1 ready.1.2 ready.2
    · cases took
  | farewell m =>
    simp only [channelStep] at took
    split at took
    · rename_i phase
      obtain ⟨silent,equal⟩ := when_some.mp took
      exact .farewell phase (by simpa using silent) equal
    · cases took
  | _ => cases took

theorem pollerStep_taken (took : s.pollerStep step = some (next,outputs)) : Taken s step next outputs := by
  cases step with
  | tick c =>
    obtain ⟨idle,equal⟩ := when_some.mp took
    cases equal; exact .tick (by simpa using idle)
  | wake c =>
    obtain ⟨ready,equal⟩ := when_some.mp took
    simp only [Bool.and_eq_true,decide_eq_true_eq] at ready
    cases equal; exact .wake ready.1 ready.2
  | polled p m =>
    obtain ⟨fetching,equal⟩ := when_some.mp took
    exact .polled (by simpa using fetching) equal
  | stopPoller c =>
    obtain ⟨ready,equal⟩ := when_some.mp took
    simp only [Bool.and_eq_true,Bool.or_eq_true,decide_eq_true_eq] at ready
    cases equal; exact .stopPoller ready.1 ready.2
  | _ => cases took

theorem cleanupStep_taken (took : s.cleanupStep step = some (next,outputs)) : Taken s step next outputs := by
  cases step with
  | callCleanup id =>
    obtain ⟨task,found,called⟩ := Option.bind_eq_some_iff.mp took
    obtain ⟨uncalled,equal⟩ := when_some.mp called
    cases equal; exact .callCleanup found (by simpa using uncalled)
  | cleaned id result m =>
    obtain ⟨task,found,ended⟩ := Option.bind_eq_some_iff.mp took
    obtain ⟨called,equal⟩ := when_some.mp ended
    exact .cleaned found called equal
  | abandonCleanup id =>
    obtain ⟨task,found,ended⟩ := Option.bind_eq_some_iff.mp took
    obtain ⟨cancelled,equal⟩ := when_some.mp ended
    cases equal; exact .abandonCleanup found cancelled
  | _ => cases took

theorem displayStep_taken (took : s.displayStep step = some (next,outputs)) : Taken s step next outputs := by
  cases step with
  | heartbeat m =>
    obtain ⟨beats,equal⟩ := when_some.mp took
    exact .heartbeat beats equal
  | stopHeartbeat =>
    obtain ⟨cancelled,equal⟩ := when_some.mp took
    cases equal; exact .stopHeartbeat cancelled
  | expire generation m =>
    obtain ⟨⟨flash,changes⟩,ran,equal⟩ := Option.map_eq_some_iff.mp took
    cases equal; exact .expire ran
  | abandonExpiry generation =>
    obtain ⟨⟨flash,changes⟩,ran,equal⟩ := Option.map_eq_some_iff.mp took
    cases equal; exact .abandonExpiry ran
  | forward =>
    simp only [displayStep] at took
    split at took
    · rename_i change rest listening queued
      cases Option.some.inj took; exact .forward listening queued
    · cases took
  | stopForwarder =>
    obtain ⟨cancelled,equal⟩ := when_some.mp took
    cases equal; exact .stopForwarder cancelled
  | _ => cases took

theorem advance_taken (took : s.advance step = some (next,outputs)) : Taken s step next outputs := by
  unfold advance at took
  split at took
  · cases Option.some.inj took; exact .cancel
  all_goals first
    | exact channelStep_taken took
    | exact pollerStep_taken took
    | exact cleanupStep_taken took
    | exact displayStep_taken took

theorem taken_advance (taken : Taken s step next outputs) : s.advance step = some (next,outputs) := by
  cases taken with
  | giveUp phase cancelled => simp [advance,channelStep,phase,cancelled]
  | openChannel phase live turned => simp [advance,channelStep,phase,live,turned]
  | @tell a follow m phase => cases follow <;> simp [advance,channelStep,phase,Next.requests]
  | connected phase turned => simp [advance,channelStep,phase,turned]
  | connectFailed phase turned => simp [advance,channelStep,phase,turned]
  | closeFrame phase lost => simp [advance,channelStep,phase,onFrame,lost]
  | emptyFrame phase empty => simp [advance,channelStep,phase,onFrame_empty s empty]
  | message phase carried handled => simp [advance,channelStep,phase,onFrame_carries s carried,handled]
  | streamEnded phase lost => simp [advance,channelStep,phase,lost]
  | frameFailed phase lost => simp [advance,channelStep,phase,lost]
  | retry phase due => simp [advance,channelStep,phase,due,when]
  | leaveConnecting phase cancelled => simp [advance,channelStep,phase,cancelled,when]
  | leaveReading phase cancelled => simp [advance,channelStep,phase,cancelled,when]
  | leaveWaiting phase cancelled => simp [advance,channelStep,phase,cancelled,when]
  | teardown phase pollers cleanups beat => simp [advance,channelStep,phase,pollers,cleanups,beat,when]
  | farewell phase silent turned => simp [advance,channelStep,phase,silent,turned,when]
  | tick idle => simp [advance,pollerStep,idle,when]
  | wake idle requested => simp [advance,pollerStep,idle,requested,when]
  | polled fetching merged => simp [advance,pollerStep,fetching,merged,when]
  | stopPoller cancelled free =>
    rcases free with idle | fetching
    · simp [advance,pollerStep,cancelled,idle,when]
    · simp [advance,pollerStep,cancelled,fetching,when]
  | callCleanup found uncalled => simp [advance,cleanupStep,found,uncalled,when]
  | cleaned found called noted => simp [advance,cleanupStep,found,called,noted,when]
  | abandonCleanup found cancelled => simp [advance,cleanupStep,found,cancelled,when]
  | heartbeat beats published => simp [advance,displayStep,beats,published,when]
  | stopHeartbeat cancelled => simp [advance,displayStep,cancelled,when]
  | expire ran => simp [advance,displayStep,ran]
  | abandonExpiry ran => simp [advance,displayStep,ran]
  | forward listening queued => simp [advance,displayStep,listening,queued]
  | stopForwarder cancelled => simp [advance,displayStep,cancelled,when]
  | cancel => rfl

theorem advance_exact : s.advance step = some (next,outputs) ↔ Taken s step next outputs :=
  ⟨advance_taken,taken_advance⟩

end Monitor

structure Spares (s next : Monitor) : Prop where
  phase : next.phase = s.phase
  status : next.status = s.status
  forwarding : next.forwarding = s.forwarding
  beating : next.beating = s.beating
  cancelled : next.cancelled = s.cancelled

namespace Monitor

theorem handle_spares {s : Monitor} {message : Push.Message}
    (handled : s.handle message m = (next,outputs)) : Spares s next := by
  have spares : Spares s (s.handle message m).1 := by
    unfold handle
    rcases s.board.receive message m.wall with ⟨board,changed,remediate,progress,flash,refresh⟩
    cases remediate <;> cases flash <;> cases refresh <;> exact ⟨rfl,rfl,rfl,rfl,rfl⟩
  rwa [handled] at spares

theorem polled_spares {s : Monitor} {p : Poll} (merged : s.onPolled p m = (next,outputs)) :
    Spares s next := by
  have spares : Spares s (s.onPolled p m).1 := by
    unfold onPolled
    dsimp only
    split <;> exact ⟨rfl,rfl,rfl,rfl,rfl⟩
  rwa [merged] at spares

theorem endCleanup_spares (s : Monitor) (task : Cleanup) : Spares s (s.endCleanup task) := by
  unfold endCleanup
  dsimp only
  split <;> exact ⟨rfl,rfl,rfl,rfl,rfl⟩

theorem cleaned_spares {s : Monitor} (noted : s.onCleaned task result m = (next,outputs)) :
    Spares s next := by
  cases noted
  obtain ⟨phase,status,forwarding,beating,cancelled⟩ := endCleanup_spares { s with board:=_ } task
  exact ⟨phase,status,forwarding,beating,cancelled⟩

end Monitor

inductive Run (settings : Settings) : List Step → Monitor → List Output → Prop where
  | start (m : Moment) : Run settings [] (Monitor.start settings m).1 (Monitor.start settings m).2
  | step (run : Run settings steps s told) (step : Step) (took : s.advance step = some (next,outputs)) :
      Run settings (steps ++ [step]) next (told ++ outputs)

end Session
end RunWatch
