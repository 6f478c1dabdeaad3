import RunWatch.Proofs.Session.Run
namespace RunWatch

def Push.Frame.message? (f : Push.Frame) : Option Push.Message :=
  f.payload?.bind fun payload => (Push.Message.read payload).toOption

theorem Push.Frame.Carries.message? {f : Push.Frame} (carried : f.Carries message) :
    f.message? = some message := by
  obtain ⟨payload,found,read⟩ := carried
  simp [Push.Frame.message?,found,read,Except.toOption]

theorem Push.Frame.Empty.message? {f : Push.Frame} (empty : f.Empty) : f.message? = none := by
  cases empty with
  | ping => rfl
  | pong => rfl
  | raw => rfl
  | text refused => simp only [Push.Frame.message?,Push.Frame.payload?,Option.bind_some,refused]; rfl
  | binary refused => simp only [Push.Frame.message?,Push.Frame.payload?,Option.bind_some,refused]; rfl

namespace Session

namespace Monitor

def channelSet? (s : Monitor) : Step → Option ChannelState
  | .openChannel _ => if s.cancelled then none else some .connecting
  | .connected _ => some .connected
  | .connectFailed .. | .farewell _ => some .disconnected
  | .frame .close _ | .streamEnded _ | .frameFailed .. =>
    if s.cancelled then none else some .disconnected
  | _ => none

def operation? (s : Monitor) (step : Step) (c : Collection) : Option (Operation c.Record) :=
  match step with
  | .polled p m => p.operationOn? m.wall c
  | .cleaned id result _ => (s.cleanup? id).bind fun task =>
    if task.collection = c then some (.remediation result) else none
  | .frame f m => match f.message? with
    | some message => s.board.pushTo? message m.wall c
    | none => (s.channelSet? step).map .channel
  | step => (s.channelSet? step).map .channel

theorem turn_roster {s : Monitor} (turned : s.turn state a follow m = (next,outputs)) (c : Collection) :
    next.board.roster c = (s.board.roster c).after [.channel state] := by
  cases turned
  exact s.board.setChannel_roster state c

theorem lost_roster {s : Monitor} (lost : s.lost reason follow m = (next,outputs)) (c : Collection) :
    next.board.roster c = (s.board.roster c).after
      ((if s.cancelled then none else some .disconnected : Option ChannelState).map .channel).toList := by
  rcases lost_cases lost with ⟨cancelled,rfl,_⟩ | ⟨live,turned⟩
  · rw [if_pos cancelled]; rfl
  · rw [if_neg (Bool.eq_false_iff.mp live)]
    exact turn_roster turned c

theorem message_roster {s : Monitor} {message : Push.Message}
    (handled : s.handle message m = (next,outputs)) (c : Collection) :
    next.board.roster c = (s.board.roster c).after (s.board.pushTo? message m.wall c).toList := by
  have board := s.handle_board message m
  rw [handled] at board
  rw [show next.board = _ from board]
  exact (s.board.receive_routed message m.wall c).roster

theorem polled_roster {s : Monitor} {p : Poll} (merged : s.onPolled p m = (next,outputs)) (c : Collection) :
    next.board.roster c = (s.board.roster c).after (p.operationOn? m.wall c).toList := by
  have board := (s.onPolled_eq p m).1
  rw [merged] at board
  rw [show next.board = _ from board,Board.prune_roster]
  exact s.board.applyPoll_after p m.wall c

theorem cleaned_roster {s : Monitor} (noted : s.onCleaned task result m = (next,outputs)) (c : Collection) :
    next.board.roster c = (s.board.roster c).after
      (if task.collection = c then some (.remediation result) else none : Option (Operation c.Record)).toList := by
  cases noted
  rw [endCleanup_board]
  exact s.board.recordRemediation_after task.collection result c

theorem taken_roster (taken : Taken s step next outputs) (c : Collection) :
    next.board.roster c = (s.board.roster c).after (s.operation? step c).toList := by
  cases taken with
  | giveUp phase cancelled => simp [operation?,channelSet?,cancelled,Roster.after]
  | openChannel phase live turned =>
    simp only [operation?,channelSet?,live]
    exact turn_roster turned c
  | connected phase turned => exact turn_roster turned c
  | connectFailed phase turned => exact turn_roster turned c
  | farewell phase silent turned => exact turn_roster turned c
  | closeFrame phase lost => exact lost_roster lost c
  | streamEnded phase lost => exact lost_roster lost c
  | frameFailed phase lost => exact lost_roster lost c
  | emptyFrame phase empty =>
    simp only [operation?,empty.message?]
    cases empty <;> rfl
  | message phase carried handled =>
    simp only [operation?,carried.message?]
    exact message_roster handled c
  | polled fetching merged => exact polled_roster merged c
  | cleaned found called noted =>
    simp only [operation?,found]
    exact cleaned_roster noted c
  | abandonCleanup found cancelled =>
    rw [endCleanup_board]; rfl
  | heartbeat beats published =>
    cases published; rfl
  | _ => rfl

end Monitor

structure Transition where
  before : Monitor
  step : Step
  after : Monitor
  outputs : List Output
  took : before.advance step = some (after,outputs)

theorem Transition.taken (t : Transition) : Taken t.before t.step t.after t.outputs :=
  Monitor.advance_taken t.took

inductive Path : Monitor → List Transition → Monitor → Prop where
  | nil : Path s [] s
  | cons (t : Transition) (rest : Path t.after ts next) : Path t.before (t :: ts) next

namespace Path

theorem append (one : Path s first middle) (two : Path middle second next) :
    Path s (first ++ second) next := by
  induction one with
  | nil => exact two
  | cons t rest ih => exact .cons t (ih two)

theorem split (path : Path s (first ++ second) next) :
    ∃ middle, Path s first middle ∧ Path middle second next := by
  induction first generalizing s with
  | nil => exact ⟨s,.nil,path⟩
  | cons t rest ih =>
    cases path with
    | cons _ following =>
      obtain ⟨middle,one,two⟩ := ih following
      exact ⟨middle,.cons t one,two⟩

theorem cut (path : Path s (earlier ++ t :: later) next) :
    Path s earlier t.before ∧ Path t.after later next := by
  obtain ⟨_,before,rest⟩ := path.split
  cases rest with
  | cons _ after => exact ⟨before,after⟩

theorem preserves {motive : Monitor → List Transition → Prop} (path : Path s ts next) (start : motive s [])
    (step : ∀ earlier, ∀ t ∈ ts, Path s earlier t.before → motive t.before earlier → motive t.after (earlier ++ [t])) :
    motive next ts := by
  have onward {middle later} (onwards : Path middle later next) (part : ∀ t ∈ later, t ∈ ts) :
      ∀ earlier, Path s earlier middle → motive middle earlier → motive next (earlier ++ later) := by
    induction onwards with
    | nil =>
      intro earlier _ holds
      rwa [List.append_nil]
    | @cons later next t rest ih =>
      intro earlier before holds
      have after := step earlier t (part t List.mem_cons_self) before holds
      rw [List.append_cons]
      exact ih path (fun u member => part u (List.mem_cons_of_mem _ member)) (earlier ++ [t])
        (before.append (.cons t .nil)) after
  exact onward path (fun _ member => member) [] .nil start

end Path

theorem Run.path (run : Run settings steps s told) :
    ∃ m ts, Path (Monitor.start settings m).1 ts s ∧ ts.map Transition.step = steps ∧
      told = (Monitor.start settings m).2 ++ ts.flatMap Transition.outputs := by
  induction run with
  | start m => exact ⟨m,[],.nil,rfl,by simp⟩
  | @step steps s told next outputs run step took ih =>
    obtain ⟨m,ts,path,labels,said⟩ := ih
    let t : Transition := ⟨s,step,next,outputs,took⟩
    refine ⟨m,ts ++ [t],path.append (.cons t .nil),?_,?_⟩
    · rw [List.map_append,labels]; rfl
    · rw [said,List.flatMap_append,List.append_assoc]
      simp [t]

def Transition.operation? (t : Transition) (c : Collection) : Option (Operation c.Record) :=
  t.before.operation? t.step c

theorem Transition.roster (t : Transition) (c : Collection) :
    (t.after.board.roster c) = (t.before.board.roster c).after (t.operation? c).toList :=
  Monitor.taken_roster t.taken c

def operations (c : Collection) (ts : List Transition) : List (Operation c.Record) :=
  ts.flatMap fun t => (t.operation? c).toList

theorem path_log (path : Path s ts next) (c : Collection) :
    next.board.roster c = (s.board.roster c).after (operations c ts) := by
  induction path with
  | nil => rfl
  | @cons ts next t rest ih =>
    have split : operations c (t :: ts) = (t.operation? c).toList ++ operations c ts := rfl
    rw [split,Roster.after_append,← t.roster c]
    exact ih

end Session
end RunWatch
