import RunWatch.Proofs.Api.Rows
import RunWatch.Proofs.Board.Run
namespace RunWatch
open Generations (Ascending)

def JobProgress.sample (p : JobProgress) : Sample := ⟨p.generation,p.bestFitness,p.avgFitness,p.worstFitness⟩

def FromRows (ρ : Type) [Row ρ α] (result : Except Fault (List α)) : Prop :=
  ∀ records, result = .ok records → ∃ rows : List ρ, acceptAll rows = .ok records

def Poll.Admitted : Poll → Prop
  | .jobs result => FromRows JobRow result
  | .discoveryRuns result => FromRows JobRow result
  | .positions result => FromRows PositionRow result
  | .sessions result => FromRows SessionRow result

theorem JobRow.accept_progress {row : JobRow} (accepted : row.accept = .ok record) :
    record.progress = none := by
  unfold JobRow.accept at accepted
  split at accepted
  · cases accepted
  · cases accepted; rfl

theorem Roster.admitted_progress (r : Roster JobRecord) (row : JobRecord) :
    (r.admitted row).progress = row.progress := by
  unfold Roster.admitted
  split <;> rfl

def Poll.listing? (kind : Push.RunKind) : Poll → Option (List JobRecord)
  | .jobs (.ok records) => if kind = .job then some records else none
  | .discoveryRuns (.ok records) => if kind = .discovery then some records else none
  | _ => none

theorem Poll.Admitted.unprogressed {p : Poll} (admitted : p.Admitted)
    (listing : p.listing? kind = some records) : ∀ record ∈ records, record.progress = none := by
  have fresh : ∀ {result : Except Fault (List JobRecord)}, FromRows JobRow result → result = .ok records →
      ∀ record ∈ records, record.progress = none := by
    intro result rows ok record member
    obtain ⟨rows,accepted⟩ := rows records ok
    obtain ⟨row,same⟩ := (acceptAll_ok.mp accepted).origin member
    exact JobRow.accept_progress same
  rcases p with (fault | rows) | (fault | rows) | result | result <;> cases kind <;> cases listing
  · exact fresh admitted rfl
  · exact fresh admitted rfl

theorem Generations.ascending_last {samples : List Sample} {sample : Sample} (ascending : Ascending samples)
    (present : sample ∈ samples) :
    ∃ last, samples.getLast? = some last ∧ sample.generation ≤ last.generation := by
  rcases List.eq_nil_or_concat samples with none | ⟨before,last,split⟩
  · rw [none] at present
    cases present
  · rw [List.concat_eq_append] at split
    subst split
    refine ⟨last,List.getLast?_concat,?_⟩
    rcases List.mem_append.mp present with earlier | final
    · have below := (List.pairwise_append.mp ascending).2.2 sample earlier last (List.mem_singleton_self last)
      exact UInt32.le_of_lt below
    · cases List.mem_singleton.mp final
      exact UInt32.le_refl _

namespace Board

def Move.listing? (kind : Push.RunKind) : Move → Option (List JobRecord)
  | .poll p _ => p.listing? kind
  | _ => none

def Move.Admitted : Move → Prop
  | .poll p _ => p.Admitted
  | _ => True

theorem Move.Admitted.unprogressed {mv : Move} (admitted : mv.Admitted)
    (listing : mv.listing? kind = some records) : ∀ record ∈ records, record.progress = none := by
  cases mv with
  | poll p now => exact Poll.Admitted.unprogressed admitted listing
  | _ => cases listing

def progressPush? (b : Board) (kind : Push.RunKind) : Move → Option Push.Progress
  | .message (.progress named p) _ =>
    if named = kind ∧ b.generations.isNewer p.runId p.sample then some p else none
  | _ => none

variable {b : Board} {mv : Move}

theorem move_listing {records : List JobRecord} (listing : mv.listing? kind = some records) (b : Board) :
    ((b.move mv).runs kind).records = records.map (b.runs kind).admitted := by
  cases mv with
  | poll p now =>
    rcases p with (fault | rows) | (fault | rows) | result | result <;> cases kind <;> cases listing <;> rfl
  | _ => cases listing

theorem receive_runs (b : Board) (m : Push.Message) (now : Int64) (kind : Push.RunKind) :
    ((b.receive m now).1.runs kind).records =
      (b.progressPush? kind (.message m now)).elim (b.runs kind).records fun p =>
        Roster.patchFirst p.runId ({ progress:=some p.shown } : JobPatch) (b.runs kind).records := by
  cases m with
  | progress named p =>
    cases newer : b.generations.isNewer p.runId p.sample with
    | false =>
      rw [receive_older newer]
      simp only [progressPush?,newer,Bool.false_eq_true,and_false,if_false]
      cases kind <;> rfl
    | true =>
      rw [receive_newer newer]
      simp only [progressPush?,newer,and_true]
      by_cases same : named = kind
      · subst same
        rw [if_pos rfl]
        have patched := (b.runs named).applyPush_records p.runId ({ progress:=some p.shown } : JobPatch) now
        cases named <;> exact patched
      · rw [if_neg same]
        cases named <;> cases kind <;> first | rfl | exact absurd rfl same
  | pnl p =>
    simp only [receive,receivePnl]
    split <;> cases kind <;> rfl
  | position p => cases kind <;> rfl
  | unknown => cases kind <;> rfl

theorem applyPoll_unlisted {p : Poll} (unlisted : p.listing? kind = none) (b : Board) (now : Int64) :
    ((b.applyPoll p now).1.runs kind).records = (b.runs kind).records := by
  rcases p with (fault | records) | (fault | records) | result | result <;> cases kind <;>
    first | rfl | cases unlisted

theorem move_unlisted (unlisted : mv.listing? kind = none) (b : Board) :
    ((b.move mv).runs kind).records =
      (b.progressPush? kind mv).elim (b.runs kind).records fun p =>
        Roster.patchFirst p.runId ({ progress:=some p.shown } : JobPatch) (b.runs kind).records := by
  cases mv with
  | message m now => exact b.receive_runs m now kind
  | poll p now => exact applyPoll_unlisted unlisted b now
  | prune =>
    cases kind with
    | job => exact congrArg Roster.records (b.prune_roster .jobs)
    | discovery => exact congrArg Roster.records (b.prune_roster .discoveryRuns)
  | evaluate c now => cases c <;> cases kind <;> rfl
  | channel state =>
    have kept : ∀ r : Roster JobRecord, (r.perform (.channel state)).1.records = r.records :=
      fun _ => Roster.perform_unlisted rfl
    cases kind <;> exact kept _
  | remediation c result =>
    have kept : ∀ r : Roster JobRecord, (r.perform (.remediation result)).1.records = r.records :=
      fun _ => Roster.perform_unlisted rfl
    cases result <;> cases c <;> cases kind <;> first | rfl | exact kept _

-- A displayed progress shows a sample of its run, and histories are in order.
structure Backed (b : Board) : Prop where
  ascending : ∀ run, Ascending (b.generations.samples run)
  shown : ∀ kind, ∀ record ∈ (b.runs kind).records, ∀ p, record.progress = some p →
    p.sample ∈ b.generations.samples record.id

theorem start_backed (settings : Settings) : (Board.start settings).Backed where
  ascending _ := .nil
  shown kind _ member := by cases kind <;> cases member

theorem progressPush?_some {p : Push.Progress} (pushed : b.progressPush? kind mv = some p) :
    b.generations.isNewer p.runId p.sample = true ∧
      (b.move mv).generations = (b.generations.record p.runId p.sample).1 := by
  unfold progressPush? at pushed
  split at pushed
  · split at pushed
    · rename_i taken
      cases pushed
      exact ⟨taken.2,b.move_generations _⟩
    · cases pushed
  · cases pushed

theorem move_place (unlisted : mv.listing? kind = none) (b : Board) (i : Nat) :
    ((b.move mv).runs kind).records[i]? = (b.runs kind).records[i]? ∨
      ∃ p record, b.progressPush? kind mv = some p ∧ (b.runs kind).records[i]? = some record ∧
        record.id = p.runId ∧
        ((b.move mv).runs kind).records[i]? = some { record with progress:=some p.shown } := by
  rw [move_unlisted unlisted b]
  cases pushed : b.progressPush? kind mv with
  | none => exact Or.inl rfl
  | some p =>
    let patch : JobPatch := { progress:=some p.shown }
    rcases Roster.patchFirst_getElem? p.runId patch (b.runs kind).records i with
      same | ⟨record,place,named,amended⟩
    · exact Or.inl same
    · exact Or.inr ⟨p,record,rfl,place,named,amended⟩

theorem move_backed (backed : b.Backed) (admitted : mv.Admitted) : (b.move mv).Backed where
  ascending := move_ascending backed.ascending mv
  shown kind record member p shown := by
    cases listing : mv.listing? kind with
    | some records =>
      rw [move_listing listing b] at member
      obtain ⟨row,listed,rfl⟩ := List.mem_map.mp member
      rw [Roster.admitted_progress,admitted.unprogressed listing row listed] at shown
      cases shown
    | none =>
      obtain ⟨i,place⟩ := List.mem_iff_getElem?.mp member
      rcases move_place listing b i with same | ⟨pushed,old,push,found,named,amended⟩
      · have present := List.mem_iff_getElem?.mpr ⟨i,same.symm.trans place⟩
        have spares : b.Spares record.id := ⟨kind,Or.inr (List.mem_map_of_mem present)⟩
        exact (b.move_samples mv spares).subset (backed.shown kind record present p shown)
      · obtain ⟨newer,recorded⟩ := progressPush?_some push
        cases amended.symm.trans place
        cases shown
        rw [recorded,Generations.samples_record,if_pos ⟨named,newer⟩]
        exact List.mem_append_right _ (List.mem_singleton_self _)

def Forward (before after : List JobRecord) : Prop :=
  ∀ (i : Nat) (record : JobRecord) p, before[i]? = some record → record.progress = some p →
    ∃ next : JobRecord, ∃ q, after[i]? = some next ∧ next.id = record.id ∧ next.progress = some q ∧
      p.generation ≤ q.generation

theorem Forward.refl (records : List JobRecord) : Forward records records :=
  fun _ record p place shown => ⟨record,p,place,rfl,shown,UInt32.le_refl _⟩

theorem Forward.trans {first second third : List JobRecord} (earlier : Forward first second)
    (later : Forward second third) : Forward first third := by
  intro i record p place shown
  obtain ⟨next,q,reached,same,displayed,covered⟩ := earlier i record p place shown
  obtain ⟨last,r,final,alike,visible,above⟩ := later i next q reached displayed
  exact ⟨last,r,final,alike.trans same,visible,UInt32.le_trans covered above⟩

theorem move_forward (backed : b.Backed) (unlisted : mv.listing? kind = none) :
    Forward (b.runs kind).records ((b.move mv).runs kind).records := by
  intro i record p place shown
  rcases move_place unlisted b i with same | ⟨pushed,old,push,found,named,amended⟩
  · exact ⟨record,p,same.trans place,rfl,shown,UInt32.le_refl _⟩
  · cases found.symm.trans place
    refine ⟨_,pushed.shown,amended,rfl,rfl,?_⟩
    -- The push was newer than all of the history, and what it replaces is part of that.
    obtain ⟨newer,_⟩ := progressPush?_some push
    have kept := backed.shown kind record (List.mem_iff_getElem?.mpr ⟨i,place⟩) p shown
    rw [named] at kept
    exact UInt32.le_of_lt ((Generations.isNewer_iff (backed.ascending _) _).mp newer _ kept)

theorem after_backed {moves : List Move} (backed : b.Backed) (admitted : ∀ mv ∈ moves, mv.Admitted) :
    (b.after moves).Backed := by
  induction moves generalizing b with
  | nil => exact backed
  | cons mv rest ih =>
    have first := move_backed backed (admitted mv List.mem_cons_self)
    exact ih first fun mv member => admitted mv (List.mem_cons_of_mem _ member)

theorem after_forward {moves : List Move} (backed : b.Backed) (admitted : ∀ mv ∈ moves, mv.Admitted)
    (unlisted : ∀ mv ∈ moves, mv.listing? kind = none) :
    Forward (b.runs kind).records ((b.after moves).runs kind).records := by
  induction moves generalizing b with
  | nil => exact .refl _
  | cons mv rest ih =>
    have first := move_backed backed (admitted mv List.mem_cons_self)
    have later := ih first (fun mv member => admitted mv (List.mem_cons_of_mem _ member))
      fun mv member => unlisted mv (List.mem_cons_of_mem _ member)
    exact (move_forward backed (unlisted mv List.mem_cons_self)).trans later

-- What a list of runs displays of a run is in the history of that run, and from one
-- listing to the next a place displays later generations only.
theorem progress_backed (settings : Settings) (moves : List Move) (admitted : ∀ mv ∈ moves, mv.Admitted) :
    let b := (Board.start settings).after moves
    (∀ kind, ∀ record ∈ (b.runs kind).records, ∀ p, record.progress = some p →
      (∃ sample ∈ b.generations.samples record.id, sample.generation = p.generation ∧
        sample.best = p.bestFitness ∧ sample.avg = p.avgFitness ∧ sample.worst = p.worstFitness) ∧
      ∃ last, (b.generations.samples record.id).getLast? = some last ∧ p.generation ≤ last.generation) ∧
    (∀ kind earlier between, moves = earlier ++ between → (∀ mv ∈ between, mv.listing? kind = none) →
      Forward (((Board.start settings).after earlier).runs kind).records (b.runs kind).records) := by
  intro b
  have backed : b.Backed := after_backed (start_backed settings) admitted
  refine ⟨?_,?_⟩
  · intro kind record member p shown
    have kept := backed.shown kind record member p shown
    exact ⟨⟨p.sample,kept,rfl,rfl,rfl,rfl⟩,Generations.ascending_last (backed.ascending _) kept⟩
  · rintro kind earlier between rfl unlisted
    have sooner : ∀ mv ∈ earlier, mv.Admitted := fun mv member => admitted mv (List.mem_append_left _ member)
    have later : ∀ mv ∈ between, mv.Admitted := fun mv member => admitted mv (List.mem_append_right _ member)
    have forward := after_forward (after_backed (start_backed settings) sooner) later unlisted
    rw [←after_append] at forward
    exact forward

theorem listed_run_displays_later_generation :
    let row : JobRow := ⟨"run","backtest",.running,none,none,false⟩
    let listed : JobRecord := ⟨"run","backtest",.running,none,none,false,none⟩
    let generation (n : UInt32) : Push.Message := .progress .job ⟨"run",n,0.5,0.25,0,none⟩
    let earlier : List Move := [.poll (.jobs (.ok [listed])) 0,.message (generation 1) 1]
    let between : List Move := [.poll (.discoveryRuns (.ok [])) 2,.prune,.message (generation 3) 3,.prune]
    let settings : Settings := ⟨defaultApiBaseUrl,defaultPushUrl,5000,10000,15000,15000,60000,600,none⟩
    let b := (Board.start settings).after (earlier ++ between)
    acceptAll [row] = .ok [listed] ∧ (∀ mv ∈ earlier ++ between, mv.Admitted) ∧
      (∀ mv ∈ between, mv.listing? .job = none) ∧
      ∃ next : JobRecord, ∃ p, (b.runs .job).records[0]? = some next ∧ next.id = "run" ∧
        next.progress = some p ∧ 1 ≤ p.generation ∧
        ∃ last, (b.generations.samples "run").getLast? = some last ∧ p.generation ≤ last.generation := by
  intro row listed generation earlier between settings b
  have nonblank : Text.allBlank "run" = false := by decide +kernel
  have accepted : acceptAll [row] = .ok [listed] := by
    simp [acceptAll,Row.accept,JobRow.accept,row,nonblank,listed]
  have admitted : ∀ mv ∈ earlier ++ between, mv.Admitted := by
    simp only [earlier,between,List.cons_append,List.nil_append,List.forall_mem_cons]
    have rows : FromRows JobRow (.ok [listed]) := fun records ok => ⟨[row],(Except.ok.inj ok) ▸ accepted⟩
    have none : FromRows JobRow (.ok []) := fun records ok => ⟨[],(Except.ok.inj ok) ▸ rfl⟩
    exact ⟨rows,trivial,none,trivial,trivial,trivial,fun _ member => absurd member List.not_mem_nil⟩
  have unlisted : ∀ mv ∈ between, mv.listing? .job = none := by
    simp [between,Move.listing?,Poll.listing?]
  have shown : (((Board.start settings).after earlier).runs .job).records[0]? =
      some { listed with progress:=some ⟨1,0.5,0.25,0,none⟩ } := by rfl
  obtain ⟨backed,forward⟩ := progress_backed settings (earlier ++ between) admitted
  obtain ⟨next,p,place,same,progress,later⟩ := forward .job earlier between rfl unlisted 0 _ _ shown rfl
  obtain ⟨last,newest,covers⟩ := (backed .job next (List.mem_of_getElem? place) p progress).2
  rw [same] at newest
  exact ⟨accepted,admitted,unlisted,next,p,place,same,progress,later,last,newest,covers⟩

end Board
end RunWatch
