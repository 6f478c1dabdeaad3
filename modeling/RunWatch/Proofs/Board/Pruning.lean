import RunWatch.Proofs.Board.Effects
import RunWatch.Proofs.Board.Progress
namespace RunWatch
open Generations (Ascending)

namespace Board

inductive Turn where
  | message (m : Push.Message) (now : Int64)
  | poll (p : Poll) (now : Int64)
  | channel (state : ChannelState)
  | remediation (c : Collection) (result : Except Fault Unit)

def Turn.run? : Turn → Option String
  | .message m _ => m.run?
  | _ => none

def Turn.listing? (kind : Push.RunKind) : Turn → Option (List JobRecord)
  | .poll p _ => p.listing? kind
  | _ => none

def turn (b : Board) : Turn → Board
  | .message m now => (b.receive m now).1
  | .poll p now => (b.applyPoll p now).1.prune
  | .channel state => (b.setChannel state).1
  | .remediation c result => (b.recordRemediation c result).1

def drive (b : Board) (turns : List Turn) : Board := turns.foldl turn b

def update? (b : Board) : Turn → Option ProgressUpdate
  | .message m now => (b.receive m now).2.progress
  | _ => none

def updates (b : Board) : List Turn → List ProgressUpdate
  | [] => []
  | t :: rest => (b.update? t).toList ++ (b.turn t).updates rest

def samplesOf (run : String) (updates : List ProgressUpdate) : List Sample :=
  (updates.filter fun update => update.runId == run).map ProgressUpdate.sample

theorem drive_concat (b : Board) (earlier : List Turn) (t : Turn) :
    b.drive (earlier ++ [t]) = (b.drive earlier).turn t := by
  simp [drive]

theorem updates_concat (b : Board) (earlier : List Turn) (t : Turn) :
    b.updates (earlier ++ [t]) = b.updates earlier ++ ((b.drive earlier).update? t).toList := by
  induction earlier generalizing b with
  | nil => exact List.append_nil _
  | cons first rest ih =>
    rw [List.cons_append,updates,updates,ih,List.append_assoc]; rfl

theorem samplesOf_append (run : String) (earlier later : List ProgressUpdate) :
    samplesOf run (earlier ++ later) = samplesOf run earlier ++ samplesOf run later := by
  simp only [samplesOf,List.filter_append,List.map_append]

variable {b : Board} {run : String} {t : Turn}

theorem receive_samples (b : Board) (m : Push.Message) (now : Int64) (run : String) :
    (b.receive m now).1.generations.samples run =
      b.generations.samples run ++ samplesOf run (b.receive m now).2.progress.toList := by
  cases told : (b.receive m now).2.progress with
  | none => simp [receive_untold now told,samplesOf]
  | some update =>
    by_cases same : update.runId = run
    · subst same
      simp [receive_longer told,samplesOf]
    · obtain ⟨kind,p,rfl,_,reported⟩ := receive_told told
      have elsewhere : (Push.Message.progress kind p).run? ≠ some run := by
        intro named
        exact same (reported ▸ Option.some.inj named)
      simp [receive_histories now elsewhere,samplesOf,same]

theorem update?_run (told : b.update? t = some update) : t.run? = some update.runId := by
  cases t with
  | message m now =>
    obtain ⟨kind,p,rfl,_,rfl⟩ := receive_told told
    rfl
  | _ => cases told

theorem operation?_unlisted {mv : Move} (unlisted : mv.listing? kind = none)
    (found : b.operation? mv (runCollection kind) = some op) : op.listedAt? = none := by
  rcases operation?_polled found with ⟨p,now,rfl,polled⟩ | ⟨_,none⟩
  · rcases p with (fault | records) | (fault | records) | result | result <;> cases kind <;> cases polled <;>
      first | rfl | cases unlisted
  · exact none

theorem move_lastPollAt {mv : Move} (unlisted : mv.listing? kind = none) (b : Board) :
    ((b.move mv).runs kind).lastPollAt = (b.runs kind).lastPollAt := by
  have follows : ((b.move mv).roster (runCollection kind)).lastPollAt =
      (b.roster (runCollection kind)).lastPollAt := by
    rw [b.move_roster]
    cases found : b.operation? mv (runCollection kind) with
    | none => rfl
    | some op =>
      have same := (Roster.perform_follows (b.roster (runCollection kind)) op).lastPollAt
      rw [operation?_unlisted unlisted found] at same
      exact same
  cases kind <;> exact follows

theorem move_keeps (mv : Move) (keeps : b.Keeps kind run)
    (listed : ∀ records, mv.listing? kind = some records → run ∈ records.map JobRecord.id) :
    (b.move mv).Keeps kind run := by
  cases listing : mv.listing? kind with
  | some records =>
    have ids := (b.runs kind).ids_admitted records
    right
    rw [move_listing listing b]
    exact ids ▸ listed records listing
  | none =>
    rcases keeps with unpolled | shown
    · exact Or.inl ((move_lastPollAt listing b).trans unpolled)
    · right
      rw [move_unlisted listing b]
      cases b.progressPush? kind mv with
      | none => exact shown
      | some p =>
        have ids := Roster.patchFirst_ids p.runId ({ progress:=some p.shown } : JobPatch) (b.runs kind).records
        exact ids ▸ shown

theorem turn_keeps (keeps : b.Keeps kind run)
    (listed : ∀ records, t.listing? kind = some records → run ∈ records.map JobRecord.id) :
    (b.turn t).Keeps kind run := by
  cases t with
  | message m now => exact move_keeps (.message m now) keeps fun _ none => nomatch none
  | poll p now =>
    have polled : (b.move (.poll p now)).Keeps kind run := move_keeps _ keeps listed
    exact move_keeps .prune polled fun _ none => nomatch none
  | channel state => exact move_keeps (.channel state) keeps fun _ none => nomatch none
  | remediation c result => exact move_keeps (.remediation c result) keeps fun _ none => nomatch none

def ListedSince (kind : Push.RunKind) (run : String) (turns : List Turn) : Prop :=
  ∀ earlier t later records, turns = earlier ++ t :: later → (∃ push ∈ earlier, push.run? = some run) →
    t.listing? kind = some records → run ∈ records.map JobRecord.id

def KeptAtFirst (b : Board) (kind : Push.RunKind) (run : String) (turns : List Turn) : Prop :=
  ∀ earlier t later, turns = earlier ++ t :: later → t.run? = some run →
    (∀ push ∈ earlier, push.run? ≠ some run) → (b.drive earlier).Keeps kind run

def SparedSince (b : Board) (run : String) (turns : List Turn) : Prop :=
  ∀ earlier p now later, turns = earlier ++ .poll p now :: later → (∃ push ∈ earlier, push.run? = some run) →
    ((b.drive earlier).applyPoll p now).1.Spares run

def SparedOnceTold (b : Board) (run : String) (turns : List Turn) : Prop :=
  ∀ earlier p now later, turns = earlier ++ .poll p now :: later → samplesOf run (b.updates earlier) ≠ [] →
    ((b.drive earlier).applyPoll p now).1.Spares run

section
variable {earlier later : List Turn}

theorem ListedSince.part (listed : ListedSince kind run (earlier ++ later)) : ListedSince kind run earlier :=
  fun sooner t further records split => listed sooner t (further ++ later) records (by simp [split])

theorem KeptAtFirst.part (kept : b.KeptAtFirst kind run (earlier ++ later)) : b.KeptAtFirst kind run earlier :=
  fun sooner t further split => kept sooner t (further ++ later) (by simp [split])

theorem SparedOnceTold.part (spared : b.SparedOnceTold run (earlier ++ later)) : b.SparedOnceTold run earlier :=
  fun sooner p now further split => spared sooner p now (further ++ later) (by simp [split])

end

theorem drive_kept {turns : List Turn} (listed : ListedSince kind run turns)
    (kept : b.KeptAtFirst kind run turns) (pushed : ∃ push ∈ turns, push.run? = some run) :
    (b.drive turns).Keeps kind run := by
  induction turns using List.reverseRecOn with
  | nil => obtain ⟨push,member,_⟩ := pushed; cases member
  | append_singleton earlier t ih =>
    rw [drive_concat]
    by_cases before : ∃ push ∈ earlier, push.run? = some run
    · exact turn_keeps (ih listed.part kept.part before) fun records => listed earlier t [] records rfl before
    · simp only [not_exists,not_and] at before
      have first : t.run? = some run := by
        obtain ⟨push,member,named⟩ := pushed
        rcases List.mem_append.mp member with sooner | last
        · exact absurd named (before push sooner)
        · cases List.mem_singleton.mp last
          exact named
      refine turn_keeps (kept earlier t [] rfl first before) fun records listing => ?_
      cases t <;> first | cases listing | cases first

theorem spared_of_kept {turns : List Turn} (listed : ListedSince kind run turns)
    (kept : b.KeptAtFirst kind run turns) : b.SparedSince run turns := by
  rintro earlier p now later rfl pushed
  have keeps : (b.drive earlier).Keeps kind run := drive_kept listed.part kept.part pushed
  refine ⟨kind,move_keeps (.poll p now) keeps fun records => ?_⟩
  exact listed earlier (.poll p now) later records rfl pushed

theorem updates_unpushed {turns : List Turn} (unpushed : ∀ push ∈ turns, push.run? ≠ some run) :
    samplesOf run (b.updates turns) = [] := by
  induction turns generalizing b with
  | nil => rfl
  | cons t rest ih =>
    have silent := ih (b := b.turn t) fun push member => unpushed push (List.mem_cons_of_mem _ member)
    rw [updates,samplesOf_append,silent,List.append_nil]
    cases told : b.update? t with
    | none => rfl
    | some update =>
      have elsewhere : update.runId ≠ run := fun same =>
        unpushed t List.mem_cons_self (same ▸ update?_run told)
      simp [samplesOf,elsewhere]

theorem SparedSince.onceTold {turns : List Turn} (spared : b.SparedSince run turns) : b.SparedOnceTold run turns := by
  intro earlier p now later split told
  refine spared earlier p now later split (Classical.byContradiction fun unpushed => told (updates_unpushed ?_))
  simpa using unpushed

-- A turn adds what it tells. Only a poll could take anything away, and it does not where
-- the history is spared, or there is none.
theorem turn_samples (b : Board) (t : Turn)
    (spares : ∀ p now, t = .poll p now →
      (b.applyPoll p now).1.Spares run ∨ b.generations.samples run = []) :
    (b.turn t).generations.samples run = b.generations.samples run ++ samplesOf run (b.update? t).toList := by
  cases t with
  | message m now => exact b.receive_samples m now run
  | poll p now =>
    have polled := b.applyPoll_generations p now
    have nothing : samplesOf run (b.update? (.poll p now)).toList = [] := rfl
    rw [nothing,List.append_nil,turn]
    rcases spares p now rfl with spared | none
    · rw [prune_spared spared,polled]
    · rw [prune_none (polled.symm ▸ none),none]
  | channel state => exact (List.append_nil _).symm
  | remediation c result =>
    have nothing : samplesOf run (b.update? (.remediation c result)).toList = [] := rfl
    rw [nothing,List.append_nil,turn,recordRemediation_generations]

theorem drive_samples {turns : List Turn} (start : b.generations.samples run = [])
    (spared : b.SparedOnceTold run turns) :
    (b.drive turns).generations.samples run = samplesOf run (b.updates turns) := by
  induction turns using List.reverseRecOn with
  | nil => exact start
  | append_singleton earlier t ih =>
    have known := ih spared.part
    rw [drive_concat,updates_concat,samplesOf_append,←known]
    refine (b.drive earlier).turn_samples t ?_
    rintro p now rfl
    by_cases told : samplesOf run (b.updates earlier) = []
    · exact Or.inr (known.trans told)
    · exact Or.inl (spared earlier p now [] rfl told)

theorem drive_ascending (ascending : ∀ run, Ascending (b.generations.samples run)) (turns : List Turn) :
    ∀ run, Ascending ((b.drive turns).generations.samples run) := by
  induction turns generalizing b with
  | nil => exact ascending
  | cons t rest ih =>
    refine ih ?_
    cases t with
    | message m now => exact move_ascending ascending (.message m now)
    | poll p now => exact move_ascending (move_ascending ascending (.poll p now)) .prune
    | channel state => exact move_ascending ascending (.channel state)
    | remediation c result => exact move_ascending ascending (.remediation c result)

theorem spared_history_lasts (settings : Settings) (run : String) (turns : List Turn)
    (spared : (Board.start settings).SparedSince run turns ∨
      ∃ kind, ListedSince kind run turns ∧ (Board.start settings).KeptAtFirst kind run turns) :
    (∀ earlier later, turns = earlier ++ later →
      ((Board.start settings).drive earlier).generations.samples run =
        samplesOf run ((Board.start settings).updates earlier)) ∧
    Ascending (samplesOf run ((Board.start settings).updates turns)) ∧
    (∀ (b : Board) p now other, (∀ kind, p.listing? kind = none) → b.Spares other →
      (b.applyPoll p now).1.prune.generations.samples other = b.generations.samples other) := by
  have spared : (Board.start settings).SparedOnceTold run turns :=
    (spared.elim id fun ⟨_,listed,kept⟩ => spared_of_kept listed kept).onceTold
  refine ⟨?_,?_,?_⟩
  · rintro earlier later rfl
    exact drive_samples rfl spared.part
  · have ascending : ∀ run, Ascending ((Board.start settings).generations.samples run) := fun _ => .nil
    rw [←drive_samples rfl spared]
    exact drive_ascending ascending turns run
  · intro b p now other unlisted ⟨kind,keeps⟩
    have kept : (b.applyPoll p now).1.Keeps kind other :=
      move_keeps (.poll p now) keeps fun records listing => nomatch (unlisted kind).symm.trans listing
    rw [prune_spared ⟨kind,kept⟩,b.applyPoll_generations]

-- A run that starts once both lists have been polled is shown by neither of them yet. The
-- next poll of anything at all takes its history away, and the same generation is told twice.
theorem starting_run_is_forgotten :
    let settings : Settings := ⟨defaultApiBaseUrl,defaultPushUrl,5000,10000,15000,15000,60000,600,none⟩
    let push : Turn := .message (.progress .job ⟨"run",1,0.5,0.25,0,none⟩) 2
    let listed : JobRecord := ⟨"run","backtest",.running,none,none,false,none⟩
    let turns : List Turn :=
      [.poll (.jobs (.ok [])) 0,.poll (.discoveryRuns (.ok [])) 1,push,.poll (.positions (.ok [])) 3,push,
        .poll (.jobs (.ok [listed])) 4]
    let b := Board.start settings
    ListedSince .job "run" turns ∧
      ((b.drive (turns.take 3)).generations.samples "run").map Sample.generation = [1] ∧
      (b.drive (turns.take 4)).generations.samples "run" = [] ∧
      (samplesOf "run" (b.updates turns)).map Sample.generation = [1,1] ∧
      ¬ Ascending (samplesOf "run" (b.updates turns)) := by
  intro settings push listed turns b
  have forgotten : ((b.drive (turns.take 4)).generations.samples "run").map Sample.generation = [] := by decide
  have told : (samplesOf "run" (b.updates turns)).map Sample.generation = [1,1] := by decide
  refine ⟨?_,by decide,List.map_eq_nil_iff.mp forgotten,told,?_⟩
  · intro earlier t later records split pushed listing
    rcases earlier with _ | ⟨first,_ | ⟨second,earlier⟩⟩
    · simp at pushed
    · rw [←(List.cons.inj split).1] at pushed
      simp [Turn.run?] at pushed
    · have member : t ∈ [push,.poll (.positions (.ok [])) 3,push,.poll (.jobs (.ok [listed])) 4] := by
        rw [(List.cons.inj (List.cons.inj split).2).2]
        simp
      simp only [List.mem_cons,List.not_mem_nil,or_false] at member
      rcases member with rfl | rfl | rfl | rfl <;> cases listing
      exact List.mem_singleton_self _
  · intro ascending
    have generations : ((samplesOf "run" (b.updates turns)).map Sample.generation).Pairwise (· < ·) :=
      List.pairwise_map.mpr ascending
    rw [told] at generations
    revert generations
    decide

theorem listed_run_keeps_generations :
    let settings : Settings := ⟨defaultApiBaseUrl,defaultPushUrl,5000,10000,15000,15000,60000,600,none⟩
    let push (n : UInt32) : Turn := .message (.progress .job ⟨"run",n,0.5,0.25,0,none⟩) 2
    let listed : JobRecord := ⟨"run","backtest",.running,none,none,false,none⟩
    let turns : List Turn :=
      [push 1,.poll (.positions (.ok [])) 3,.poll (.discoveryRuns (.ok [])) 4,.poll (.jobs (.ok [listed])) 5,
        push 1,.poll (.positions (.ok [])) 6,push 3]
    let b := Board.start settings
    (∃ kind, ListedSince kind "run" turns ∧ b.KeptAtFirst kind "run" turns) ∧
      ((b.drive turns).generations.samples "run").map Sample.generation = [1,3] ∧
      (b.drive turns).generations.samples "run" = samplesOf "run" (b.updates turns) ∧
      Ascending (samplesOf "run" (b.updates turns)) := by
  intro settings push listed turns b
  have lists : ListedSince .job "run" turns := by
    intro earlier t later records split _ listing
    have member : t ∈ turns := by rw [split]; simp
    simp only [turns,List.mem_cons,List.not_mem_nil,or_false] at member
    rcases member with rfl | rfl | rfl | rfl | rfl | rfl | rfl <;> cases listing
    exact List.mem_singleton_self _
  have kept : b.KeptAtFirst .job "run" turns := by
    intro earlier t later split _ unpushed
    rcases earlier with _ | ⟨first,earlier⟩
    · exact Or.inl rfl
    · rw [←(List.cons.inj split).1] at unpushed
      exact absurd rfl (unpushed (push 1) List.mem_cons_self)
  obtain ⟨told,ascending,_⟩ := spared_history_lasts settings "run" turns (Or.inr ⟨.job,lists,kept⟩)
  exact ⟨⟨.job,lists,kept⟩,by decide,told turns [] (List.append_nil _).symm,ascending⟩

end Board
end RunWatch
