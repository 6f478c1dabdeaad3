import Mathlib.Data.List.DropRight
import RunWatch.Board
import RunWatch.Proofs.Lookup
namespace RunWatch

theorem Series.converged_iff (history : List Float) {window : Nat} (positive : 0 < window) (threshold : Float) :
    Series.converged history window threshold = true ↔
      ∃ enough : window + 1 ≤ history.length,
        (history[history.length - 1] - history[history.length - window]).abs < threshold := by
  unfold Series.converged
  by_cases enough : window + 1 ≤ history.length
  · have long : ¬ history.length < window + 1 := Nat.not_lt.mpr enough
    have last : Series.fromEnd? history 0 = some history[history.length - 1] := by
      rw [Series.fromEnd?,List.getElem?_reverse (by omega)]
      exact List.getElem?_eq_getElem _
    have first : Series.fromEnd? history (window - 1) = some history[history.length - window] := by
      have place : history.length - 1 - (window - 1) = history.length - window := by omega
      rw [Series.fromEnd?,List.getElem?_reverse (by omega),place]
      exact List.getElem?_eq_getElem _
    have some_window : window ≠ 0 := Nat.pos_iff_ne_zero.mp positive
    simp [some_window,long,last,first,enough]
  · have short : history.length < window + 1 := Nat.lt_of_not_le enough
    simp [short,enough]

namespace Generations

variable {run other : String} {sample : Sample}

theorem lookup_put (run : String) (kept : List Sample) (runs : List (String × List Sample)) (other : String) :
    (put run kept runs).lookup other = if other = run then some kept else runs.lookup other := by
  induction runs with
  | nil => simp [put,lookup_entry]
  | cons entry rest ih =>
    obtain ⟨held,samples⟩ := entry
    by_cases replaced : run = held
    · subst replaced
      by_cases same : other = run <;> simp [put,lookup_entry,same]
    · by_cases same : other = held
      · subst same
        simp [put,replaced,Ne.symm replaced]
      · simp [put,lookup_entry,replaced,same,ih]

theorem record_newer {g : Generations} (newer : g.isNewer run sample = true) :
    g.record run sample = (⟨put run (g.samples run ++ [sample]) g.runs⟩,true) := if_pos newer

theorem record_older {g : Generations} (older : g.isNewer run sample = false) :
    g.record run sample = (g,false) := by
  simp [record,older]

theorem record_snd (g : Generations) (run : String) (sample : Sample) :
    (g.record run sample).2 = g.isNewer run sample := by
  cases newer : g.isNewer run sample with
  | true => rw [record_newer newer]
  | false => rw [record_older newer]

theorem samples_record (g : Generations) (run : String) (sample : Sample) (other : String) :
    (g.record run sample).1.samples other =
      if other = run ∧ g.isNewer run sample = true then g.samples other ++ [sample] else g.samples other := by
  cases newer : g.isNewer run sample with
  | false => simp [record_older newer]
  | true =>
    simp only [record_newer newer,samples,lookup_put,and_true]
    by_cases same : other = run
    · simp [same]
    · simp [same]

theorem samples_record_other (g : Generations) (sample : Sample) (distinct : other ≠ run) :
    (g.record run sample).1.samples other = g.samples other := by
  simp [samples_record,distinct]

theorem samples_retain (g : Generations) (live : List String) (run : String) :
    (g.retain live).samples run = if run ∈ live then g.samples run else [] := by
  simp only [samples,retain,lookup_kept live.contains,List.contains_iff_mem]
  split <;> rfl

theorem record_kept (g : Generations) (run : String) (sample : Sample) :
    (g.record run sample).2 = true ↔ (g.record run sample).1.samples run = g.samples run ++ [sample] := by
  rw [record_snd,samples_record]
  cases g.isNewer run sample <;> simp

def Ascending (samples : List Sample) : Prop :=
  samples.Pairwise fun earlier later => earlier.generation < later.generation

-- Only the last sample is looked at, but in an ascending history it stands for all.
theorem isNewer_iff {g : Generations} (ascending : Ascending (g.samples run)) (sample : Sample) :
    g.isNewer run sample = true ↔ ∀ kept ∈ g.samples run, kept.generation < sample.generation := by
  unfold isNewer
  rcases List.eq_nil_or_concat (g.samples run) with none | ⟨before,last,split⟩
  · simp [none]
  · rw [List.concat_eq_append] at split
    rw [split] at ascending ⊢
    obtain ⟨_,_,below⟩ := List.pairwise_append.mp ascending
    have top : ∀ kept ∈ before, kept.generation < last.generation :=
      fun kept member => below kept member last (List.mem_singleton_self last)
    simp only [List.getLast?_append,List.getLast?_singleton,Option.some_or,Option.all_some,decide_eq_true_eq]
    constructor
    · intro newer kept member
      rcases List.mem_append.mp member with earlier | final
      · exact UInt32.lt_trans (top kept earlier) newer
      · cases List.mem_singleton.mp final
        exact newer
    · intro newer
      exact newer last (List.mem_append_right _ (List.mem_singleton_self last))

theorem ascending_concat {samples : List Sample} (ascending : Ascending samples)
    (newer : ∀ kept ∈ samples, kept.generation < sample.generation) : Ascending (samples ++ [sample]) := by
  refine List.pairwise_append.mpr ⟨ascending,List.pairwise_singleton _ _,?_⟩
  intro kept member last final
  cases List.mem_singleton.mp final
  exact newer kept member

theorem record_ascending {g : Generations} (ascending : ∀ run, Ascending (g.samples run)) (run : String)
    (sample : Sample) (other : String) : Ascending ((g.record run sample).1.samples other) := by
  rw [samples_record]
  split
  · rename_i taken
    obtain ⟨rfl,newer⟩ := taken
    exact ascending_concat (ascending other) ((isNewer_iff (ascending other) sample).mp newer)
  · exact ascending other

inductive Event where
  | delivered (run : String) (sample : Sample)
  | retained (live : List String)

def advance (g : Generations) : Event → Generations
  | .delivered run sample => (g.record run sample).1
  | .retained live => g.retain live

def after (g : Generations) (log : List Event) : Generations := log.foldl advance g

def Event.forgets (run : String) : Event → Bool
  | .delivered .. => false
  | .retained live => !live.contains run

def Event.sampleOf? (run : String) : Event → Option Sample
  | .delivered named sample => if named = run then some sample else none
  | .retained _ => none

def offered (run : String) (log : List Event) : List Sample :=
  (log.rtakeWhile fun event => !event.forgets run).filterMap (Event.sampleOf? run)

def keep (kept : List Sample) (sample : Sample) : List Sample :=
  if ∀ earlier ∈ kept, earlier.generation < sample.generation then kept ++ [sample] else kept

def rising (samples : List Sample) : List Sample := samples.foldl keep []

theorem rising_concat (samples : List Sample) (sample : Sample) :
    rising (samples ++ [sample]) = keep (rising samples) sample := by
  simp [rising]

theorem rising_ascending (samples : List Sample) : Ascending (rising samples) := by
  induction samples using List.reverseRecOn with
  | nil => exact .nil
  | append_singleton samples sample ih =>
    rw [rising_concat,keep]
    split
    · rename_i newer
      exact ascending_concat ih newer
    · exact ih

theorem rising_covers {samples : List Sample} (member : sample ∈ samples) :
    ∃ kept ∈ rising samples, sample.generation ≤ kept.generation := by
  induction samples using List.reverseRecOn with
  | nil => cases member
  | append_singleton samples last ih =>
    rw [rising_concat,keep]
    rcases List.mem_append.mp member with earlier | final
    · obtain ⟨kept,present,covered⟩ := ih earlier
      split
      · exact ⟨kept,List.mem_append_left _ present,covered⟩
      · exact ⟨kept,present,covered⟩
    · cases List.mem_singleton.mp final
      split
      · exact ⟨sample,List.mem_append_right _ (List.mem_singleton_self _),UInt32.le_refl _⟩
      · rename_i older
        simp only [not_forall] at older
        obtain ⟨kept,present,older⟩ := older
        exact ⟨kept,present,UInt32.not_lt.mp older⟩

theorem rising_first {samples : List Sample} (present : sample ∈ rising samples) :
    samples.find? (fun s => s.generation == sample.generation) = some sample := by
  induction samples using List.reverseRecOn with
  | nil => cases present
  | append_singleton samples last ih =>
    rw [List.find?_append]
    rw [rising_concat,keep] at present
    split at present
    · rename_i newer
      rcases List.mem_append.mp present with earlier | final
      · rw [ih earlier,Option.some_or]
      · cases List.mem_singleton.mp final
        have unseen : samples.find? (fun s => s.generation == sample.generation) = none := by
          refine List.find?_eq_none.mpr fun other member same => ?_
          obtain ⟨kept,held,covered⟩ := rising_covers member
          have same : other.generation = sample.generation := eq_of_beq same
          rw [same] at covered
          exact UInt32.not_lt.mpr covered (newer kept held)
        simp [unseen]
    · rw [ih present,Option.some_or]

theorem offered_delivered (run : String) (log : List Event) (named : String) (sample : Sample) :
    offered run (log ++ [.delivered named sample]) =
      if named = run then offered run log ++ [sample] else offered run log := by
  unfold offered
  rw [List.rtakeWhile_concat_pos _ _ _ rfl,List.filterMap_append]
  by_cases same : named = run <;> simp [Event.sampleOf?,same]

theorem offered_retained (run : String) (log : List Event) (live : List String) :
    offered run (log ++ [.retained live]) = if run ∈ live then offered run log else [] := by
  unfold offered
  by_cases listed : run ∈ live
  · rw [List.rtakeWhile_concat_pos _ _ _ (by simp [Event.forgets,listed]),List.filterMap_append]
    simp [Event.sampleOf?,listed]
  · rw [List.rtakeWhile_concat_neg _ _ _ (by simp [Event.forgets,listed])]
    simp [listed]

theorem after_concat (g : Generations) (log : List Event) (event : Event) :
    g.after (log ++ [event]) = (g.after log).advance event := by
  simp [after]

theorem after_samples (log : List Event) (run : String) :
    (after {} log).samples run = rising (offered run log) := by
  induction log using List.reverseRecOn with
  | nil => simp [after,samples,offered,rising]
  | append_singleton log event ih =>
    rw [after_concat]
    cases event with
    | delivered named sample =>
      simp only [advance,offered_delivered,samples_record]
      by_cases same : named = run
      · subst same
        have ascending : Ascending ((after {} log).samples named) := ih ▸ rising_ascending _
        have newer := isNewer_iff ascending sample
        simp only [newer,true_and,if_true,rising_concat,keep,ih]
      · simp [same,Ne.symm same,ih]
    | retained live =>
      simp only [advance,offered_retained,samples_retain,ih]
      split <;> rfl

end Generations

@[simp] theorem Effects.ofOutcome_progress (c : Collection) (outcome : Option Outcome) :
    (Effects.ofOutcome c outcome).progress = none := by
  cases outcome <;> rfl

@[simp] theorem Effects.ofOutcome_flash (c : Collection) (outcome : Option Outcome) :
    (Effects.ofOutcome c outcome).flash = none := by
  cases outcome <;> rfl

@[simp] theorem Effects.ofOutcome_refresh (c : Collection) (outcome : Option Outcome) :
    (Effects.ofOutcome c outcome).refresh = none := by
  cases outcome <;> rfl

namespace Board

theorem receive_older {b : Board} {p : Push.Progress}
    (older : b.generations.isNewer p.runId p.sample = false) (kind : Push.RunKind) (now : Int64) :
    b.receive (.progress kind p) now = ({ b with lastMessageAt:=some now },{}) := by
  simp only [receive,receiveProgress,Generations.record_older older]

theorem receive_newer {b : Board} {p : Push.Progress}
    (newer : b.generations.isNewer p.runId p.sample = true) (kind : Push.RunKind) (now : Int64) :
    b.receive (.progress kind p) now =
      let longer : Board :=
        { b with generations:=(b.generations.record p.runId p.sample).1, lastMessageAt:=some now }
      let pushed := (b.runs kind).applyPush p.runId ({ progress:=some p.shown } : JobPatch) now
      (longer.withRuns kind pushed.1,
        { Effects.ofOutcome (runCollection kind) pushed.2 with
          progress:=some (longer.progressUpdate kind p) }) := by
  simp only [receive,receiveProgress,Generations.record_newer newer]
  cases kind <;> rfl

theorem receive_generations (b : Board) (m : Push.Message) (now : Int64) :
    (b.receive m now).1.generations =
      match m with
      | .progress _ p => (b.generations.record p.runId p.sample).1
      | _ => b.generations := by
  cases m with
  | progress kind p =>
    cases newer : b.generations.isNewer p.runId p.sample with
    | false => simp only [receive_older newer,Generations.record_older newer]
    | true =>
      rw [receive_newer newer]
      cases kind <;> rfl
  | pnl p =>
    simp only [receive,receivePnl]
    split <;> rfl
  | position p => rfl
  | unknown => rfl

theorem receive_update (b : Board) (m : Push.Message) (now : Int64) :
    (b.receive m now).2.progress =
      match m with
      | .progress kind p =>
        if b.generations.isNewer p.runId p.sample then some ((b.receive m now).1.progressUpdate kind p) else none
      | _ => none := by
  cases m with
  | progress kind p =>
    cases newer : b.generations.isNewer p.runId p.sample with
    | false => simp [receive_older newer,newer]
    | true =>
      rw [receive_newer newer]
      cases kind <;> simp only [newer,if_true] <;> rfl
  | pnl p =>
    simp only [receive,receivePnl]
    split <;> simp
  | position p => simp [receive,receivePosition]
  | unknown => rfl

theorem receive_told {b : Board} {m : Push.Message} (told : (b.receive m now).2.progress = some update) :
    ∃ kind p, m = .progress kind p ∧ b.generations.isNewer p.runId p.sample = true ∧
      update = (b.receive m now).1.progressUpdate kind p := by
  rw [receive_update] at told
  split at told
  · rename_i kind p
    split at told
    · rename_i newer
      exact ⟨kind,p,rfl,newer,(Option.some.inj told).symm⟩
    · cases told
  · cases told

theorem receive_longer {b : Board} {m : Push.Message} (told : (b.receive m now).2.progress = some update) :
    (b.receive m now).1.generations.samples update.runId =
      b.generations.samples update.runId ++ [update.sample] := by
  obtain ⟨kind,p,rfl,newer,rfl⟩ := receive_told told
  rw [receive_generations]
  simp [progressUpdate,Generations.samples_record,newer]

end Board

theorem Generations.converged_iff (g : Generations) (run : String) {window : Nat} (positive : 0 < window)
    (threshold : Float) :
    let kept := g.samples run
    g.converged run window threshold = true ↔
      ∃ enough : window + 1 ≤ kept.length,
        (kept[kept.length - 1].best - kept[kept.length - window].best).abs < threshold := by
  intro kept
  have bests := Series.converged_iff (g.bests run) positive threshold
  simpa [Generations.converged,Generations.bests] using bests

-- The history of a run is what was delivered for it since it was last forgotten,
-- without all that is not newer than what came before.
theorem history_rises (log : List Generations.Event) :
    let g := Generations.after {} log
    (∀ run, g.samples run = Generations.rising (Generations.offered run log)) ∧
    (∀ run sample,
      ((g.record run sample).2 = true ↔ (g.record run sample).1.samples run = g.samples run ++ [sample]) ∧
      ((g.record run sample).2 = false → ∀ other, (g.record run sample).1.samples other = g.samples other)) ∧
    (∀ run other sample, run ≠ other → (g.record other sample).1.samples run = g.samples run) ∧
    (∀ run live, run ∈ live → (g.retain live).samples run = g.samples run) ∧
    (∀ run, (g.samples run).Pairwise (fun earlier later => earlier.generation < later.generation) ∧
      ∀ sample ∈ g.samples run,
        (Generations.offered run log).find? (fun s => s.generation == sample.generation) = some sample) ∧
    (∀ (b : Board) m now update, (b.receive m now).2.progress = some update →
      let kept := (b.receive m now).1.generations.samples update.runId
      kept.getLast? = some update.sample ∧
      (update.converged = true ↔
        ∃ enough : 6 ≤ kept.length, (kept[kept.length - 1].best - kept[kept.length - 5].best).abs < 0.001)) := by
  intro g
  have samples : ∀ run, g.samples run = Generations.rising (Generations.offered run log) :=
    Generations.after_samples log
  refine ⟨samples,?_,?_,?_,?_,?_⟩
  · intro run sample
    refine ⟨g.record_kept run sample,fun refused other => ?_⟩
    rw [Generations.record_snd] at refused
    rw [Generations.record_older refused]
  · intro run other sample distinct
    exact g.samples_record_other sample distinct
  · intro run live listed
    rw [Generations.samples_retain,if_pos listed]
  · intro run
    rw [samples run]
    exact ⟨Generations.rising_ascending _,fun sample present => Generations.rising_first present⟩
  · intro b m now update told kept
    have longer := Board.receive_longer told
    refine ⟨?_,?_⟩
    · simp only [kept,longer,List.getLast?_append,List.getLast?_singleton,Option.some_or]
    · obtain ⟨kind,p,_,_,rfl⟩ := Board.receive_told told
      have window : 0 < convergenceWindow := by decide
      exact Generations.converged_iff _ p.runId window convergenceThreshold

end RunWatch
