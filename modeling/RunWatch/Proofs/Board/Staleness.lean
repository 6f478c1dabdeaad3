import Mathlib.Order.MinMax
import RunWatch.Proofs.Board.Run
import RunWatch.Proofs.Settings
namespace RunWatch
open Monitored (Patch isStale)

theorem elapsed_toInt (since now : Int64) :
    (elapsed since now).toInt =
      max Int64.minValue.toInt (min Int64.maxValue.toInt (now.toInt - since.toInt)) := by
  have ordered : Int64.minValue.toInt ≤ Int64.maxValue.toInt := by decide
  unfold elapsed Int64.ofIntClamp
  split
  · split
    · rw [Int64.toInt_ofIntLE]; omega
    · omega
  · omega

-- A distance that is cut off at either end lies on the same side of every threshold but
-- the largest, which the exact distance may exceed.
theorem lt_elapsed_iff (bounded : staleAfter ≠ Int64.maxValue) (since now : Int64) :
    staleAfter < elapsed since now ↔ staleAfter.toInt < now.toInt - since.toInt := by
  have least : Int64.minValue.toInt ≤ staleAfter.toInt := staleAfter.le_toInt
  have most : staleAfter.toInt < Int64.maxValue.toInt :=
    Int.lt_iff_le_and_ne.mpr ⟨staleAfter.toInt_le,fun same => bounded (Int64.toInt_inj.mp same)⟩
  rw [Int64.lt_iff_toInt_lt,elapsed_toInt,lt_max_iff,lt_min_iff]
  omega

theorem elapsed_mono (since : Int64) (later : now ≤ soon) : elapsed since now ≤ elapsed since soon := by
  rw [Int64.le_iff_toInt_le] at later ⊢
  rw [elapsed_toInt,elapsed_toInt]
  exact max_le_max_left _ (min_le_min_left _ (Int.sub_le_sub_right later _))

def Overdue (status : JobStatus) (heartbeatAt : Option Int64) (flag : Bool) (now staleAfter : Int64) : Prop :=
  (status = .queued ∨ status = .running) ∧
    (flag = true ∨ ∃ beat ∈ heartbeatAt, staleAfter.toInt < now.toInt - beat.toInt)

instance : Decidable (Overdue status heartbeatAt flag now staleAfter) :=
  inferInstanceAs (Decidable (_ ∧ _))

def Collection.Stale : (c : Collection) → c.Record → (now staleAfter : Int64) → Prop
  | .jobs, (r : JobRecord), now, staleAfter | .discoveryRuns, (r : JobRecord), now, staleAfter =>
    Overdue r.status r.heartbeatAt r.isStaleFlag now staleAfter
  | .positions, _, _, _ => False
  | .sessions, (r : SessionRecord), now, staleAfter =>
    Overdue r.status r.heartbeatAt r.isStaleFlag now staleAfter

instance (c : Collection) (r : c.Record) (now staleAfter : Int64) : Decidable (c.Stale r now staleAfter) :=
  match c with
  | .jobs | .discoveryRuns | .sessions => inferInstanceAs (Decidable (Overdue ..))
  | .positions => inferInstanceAs (Decidable False)

theorem JobStatus.terminal_eq_false {status : JobStatus} :
    status.terminal = false ↔ status = .queued ∨ status = .running := by
  cases status <;> decide

theorem heartbeatIsStale_iff (bounded : staleAfter ≠ Int64.maxValue) (status : JobStatus)
    (heartbeatAt : Option Int64) (flag : Bool) (now : Int64) :
    heartbeatIsStale status heartbeatAt flag now staleAfter = true ↔
      Overdue status heartbeatAt flag now staleAfter := by
  unfold heartbeatIsStale Overdue
  simp only [Bool.and_eq_true,Bool.not_eq_true',JobStatus.terminal_eq_false,Bool.or_eq_true,
    Option.any_eq_true,decide_eq_true_eq,Option.mem_def,lt_elapsed_iff bounded]

theorem heartbeatIsStale_mono {now soon : Int64} (later : now ≤ soon)
    (stale : heartbeatIsStale status heartbeatAt flag now staleAfter = true) :
    heartbeatIsStale status heartbeatAt flag soon staleAfter = true := by
  unfold heartbeatIsStale at stale ⊢
  simp only [Bool.and_eq_true,Bool.or_eq_true,Option.any_eq_true,decide_eq_true_eq] at stale ⊢
  obtain ⟨live,flagged | ⟨beat,known,old⟩⟩ := stale
  · exact ⟨live,Or.inl flagged⟩
  · exact ⟨live,Or.inr ⟨beat,known,Int64.lt_of_lt_of_le old (elapsed_mono beat later)⟩⟩

theorem Collection.isStale_iff (c : Collection) (record : c.Record) (bounded : staleAfter ≠ Int64.maxValue)
    (now : Int64) : isStale record now staleAfter = true ↔ c.Stale record now staleAfter := by
  cases c with
  | jobs => exact heartbeatIsStale_iff bounded _ _ _ now
  | discoveryRuns => exact heartbeatIsStale_iff bounded _ _ _ now
  | positions => exact ⟨nofun,nofun⟩
  | sessions => exact heartbeatIsStale_iff bounded _ _ _ now

theorem Collection.isStale_mono (c : Collection) (record : c.Record) {now soon : Int64} (later : now ≤ soon)
    (stale : isStale record now staleAfter = true) : isStale record soon staleAfter = true := by
  cases c with
  | jobs => exact heartbeatIsStale_mono later stale
  | discoveryRuns => exact heartbeatIsStale_mono later stale
  | positions => cases stale
  | sessions => exact heartbeatIsStale_mono later stale

namespace Roster
variable {c : Collection}

theorem staleIds_exact (r : Roster c.Record) (bounded : r.staleAfter ≠ Int64.maxValue) (now : Int64) :
    r.staleIds now = (r.records.filter fun record => c.Stale record now r.staleAfter).map Monitored.id := by
  unfold staleIds staleRecords
  congr 1
  apply List.filter_congr
  intro record _
  rw [Bool.eq_iff_iff,decide_eq_true_iff]
  exact c.isStale_iff record bounded now

theorem staleIds_sublist (r : Roster c.Record) {now soon : Int64} (later : now ≤ soon) :
    (r.staleIds now).Sublist (r.staleIds soon) := by
  apply List.Sublist.map
  apply List.monotone_filter_right
  intro record stale
  exact c.isStale_mono record later stale

theorem staleIds_positions (r : Roster PositionRecord) (now : Int64) : r.staleIds now = [] :=
  List.map_eq_nil_iff.mpr (List.filter_eq_nil_iff.mpr fun _ _ => Bool.false_ne_true)

variable {ρ : Type} [Monitored ρ]

theorem evaluate_staleCount (r : Roster ρ) (now : Int64) :
    (r.evaluate now).2.staleCount = ((r.evaluate now).1.snapshot now).staleIds.length := by
  have kept : (r.evaluate now).1.staleRecords now = r.staleRecords now := rfl
  simp only [snapshot,staleIds,List.length_map,kept]
  rfl

theorem applyPush_staleCount {r : Roster ρ} {id : String} {p : Patch ρ}
    (merged : (r.applyPush id p now).2 = some outcome) :
    outcome.staleCount = ((r.applyPush id p now).1.snapshot now).staleIds.length := by
  cases known : r.find? id with
  | none =>
    rw [applyPush_unknown known] at merged
    cases merged
  | some record =>
    rw [applyPush_known known] at merged ⊢
    cases merged
    exact evaluate_staleCount _ now

theorem after_staleAfter (r : Roster ρ) (run : List (Operation ρ)) : (r.after run).staleAfter = r.staleAfter := by
  induction run generalizing r with
  | nil => rfl
  | cons op rest ih => rw [after_cons,ih,(r.perform_follows op).staleAfter]

end Roster

theorem Board.after_staleAfter (accepted : Settings.ofRequest request env = .ok settings) (moves : List Board.Move)
    (c : Collection) : 5000 ≤ (((Board.start settings).after moves).roster c).staleAfter.toInt ∧
      (((Board.start settings).after moves).roster c).staleAfter.toInt ≤ 3600000 := by
  obtain ⟨_,low,high⟩ := DurationRule.resolve_ok.mp (Settings.ofRequest_ok.mp accepted).staleAfterMs
  have low : 5000 ≤ settings.staleAfterMs.toNat := low
  have high : settings.staleAfterMs.toNat ≤ 3600000 := high
  have started : ((Board.start settings).roster c).staleAfter = Int64.ofInt settings.staleAfterMs.toNat := by
    cases c <;> rfl
  rw [Board.after_roster,Roster.after_staleAfter,started,Int64.toInt_ofInt_of_le (by omega) (by omega)]
  omega

structure Roster.TellsStaleness {c : Collection} (r : Roster c.Record) : Prop where
  exact : r.staleAfter ≠ Int64.maxValue → ∀ now,
    r.staleIds now = (r.records.filter fun record => c.Stale record now r.staleAfter).map Monitored.id
  positions : c = .positions → ∀ now, r.staleIds now = []
  poll : ∀ result now,
    (r.applyPoll result now).2.staleCount = ((r.applyPoll result now).1.snapshot now).staleIds.length
  push : ∀ id p now outcome, (r.applyPush id p now).2 = some outcome →
    outcome.staleCount = ((r.applyPush id p now).1.snapshot now).staleIds.length
  evaluate : ∀ now, (r.evaluate now).2.staleCount = ((r.evaluate now).1.snapshot now).staleIds.length
  later : ∀ now soon, now ≤ soon → (r.staleIds now).Sublist (r.staleIds soon)

-- The ids told are those of the records that are stale by exact arithmetic, and every count
-- of stale records is a count of them.
theorem staleness_told_exactly :
    (∀ (c : Collection) (r : Roster c.Record), r.TellsStaleness) ∧
    (∀ (b : Board) (now : Int64),
      b.staleJobs now = (b.jobs.snapshot now).staleIds.length + (b.discoveryRuns.snapshot now).staleIds.length ∧
      b.staleSessions now = (b.sessions.snapshot now).staleIds.length) ∧
    (∀ request env settings, Settings.ofRequest request env = .ok settings → ∀ moves c,
      5000 ≤ (((Board.start settings).after moves).roster c).staleAfter.toInt ∧
      (((Board.start settings).after moves).roster c).staleAfter.toInt ≤ 3600000) := by
  refine ⟨?_,fun b now => ⟨rfl,rfl⟩,?_⟩
  · intro c r
    refine ⟨r.staleIds_exact,?_,?_,?_,r.evaluate_staleCount,?_⟩
    · rintro rfl now
      exact Roster.staleIds_positions r now
    · intro result now
      cases result <;> exact Roster.evaluate_staleCount _ now
    · intro id p now outcome merged
      exact Roster.applyPush_staleCount merged
    · intro now soon later
      exact r.staleIds_sublist later
  · intro request env settings accepted moves c
    exact Board.after_staleAfter accepted moves c

theorem staleness_at_the_ends :
    let job : String → Int64 → JobRecord := fun id beat => ⟨id,"train",.running,none,some beat,false,none⟩
    let jobs : List JobRecord := [job "old" Int64.minValue,job "young" Int64.maxValue,job "now" 0]
    let r : Roster JobRecord := ⟨.jobs,-1,jobs,.connecting,.armed,none,none,none,0⟩
    let pushed := r.applyPush "now" ({ isStaleFlag:=some true } : JobPatch) Int64.minValue
    r.staleAfter ≠ Int64.maxValue ∧ r.staleIds Int64.maxValue = ["old","young","now"] ∧
      r.staleIds Int64.minValue = ["old"] ∧ (r.staleIds Int64.minValue).Sublist (r.staleIds Int64.maxValue) ∧
      pushed.2 = some ⟨2,.fire⟩ ∧ (pushed.1.snapshot Int64.minValue).staleIds.length = 2 ∧
      ∃ settings, Settings.ofRequest {} {} = .ok settings ∧
        ((Board.start settings).roster .jobs).staleAfter.toInt ≤ 3600000 := by
  intro job jobs r pushed
  have bounded : r.staleAfter ≠ Int64.maxValue := by decide
  obtain ⟨rosters,_,thresholds⟩ := staleness_told_exactly
  have told : Roster.TellsStaleness (c:=.jobs) r := rosters .jobs r
  have late := told.exact bounded Int64.maxValue
  have early := told.exact bounded Int64.minValue
  have merged : pushed.2 = some ⟨2,.fire⟩ := by decide
  have counted := told.push "now" ({ isStaleFlag:=some true } : JobPatch) Int64.minValue _ merged
  obtain ⟨settings,accepted⟩ : ∃ settings, Settings.ofRequest {} {} = .ok settings := ⟨_,by cbv⟩
  refine ⟨bounded,late.trans (by decide),early.trans (by decide),told.later _ _ (by decide),merged,
    counted.symm,settings,accepted,(thresholds {} {} settings accepted [] .jobs).2⟩

end RunWatch
