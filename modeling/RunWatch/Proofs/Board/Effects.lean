import RunWatch.Proofs.Board.Run
namespace RunWatch
open Monitored (Patch patch)

namespace Roster
variable {ρ : Type} [Monitored ρ]

-- A push that was merged: the first record under its id is amended, the revision goes
-- on by one, and the guard is shown the records. All else stays.
structure Merged (before after : Roster ρ) (id : String) (amended : ρ → ρ) : Prop where
  revision : after.revision = before.revision + 1
  first : ∃ earlier record later, before.records = earlier ++ record :: later ∧
    (∀ other ∈ earlier, Monitored.id other ≠ id) ∧ Monitored.id record = id ∧
    after.records = earlier ++ amended record :: later
  rest : after = { before with records:=after.records, guard:=after.guard, revision:=after.revision }

theorem patchFirst_cut {records : List ρ} {id : String} {record : ρ} (p : Patch ρ)
    (known : records.find? (fun record => Monitored.id record == id) = some record) :
    ∃ earlier later, records = earlier ++ record :: later ∧ (∀ other ∈ earlier, Monitored.id other ≠ id) ∧
      Monitored.id record = id ∧ patchFirst id p records = earlier ++ patch p record :: later := by
  obtain ⟨named,earlier,later,split,others⟩ := List.find?_eq_some_iff_append.mp known
  have apart : ∀ other ∈ earlier, Monitored.id other ≠ id := fun other member => by simpa using others other member
  exact ⟨earlier,later,split,apart,eq_of_beq named,split ▸ patchFirst_at p apart (eq_of_beq named)⟩

theorem applyPush_merged {r : Roster ρ} {id : String} {record : ρ} (known : r.find? id = some record)
    (p : Patch ρ) (now : Int64) : r.Merged (r.applyPush id p now).1 id (patch p) := by
  obtain ⟨earlier,later,split,others,same,amended⟩ := patchFirst_cut p known
  rw [applyPush_known known]
  exact ⟨rfl,⟨earlier,record,later,split,others,same,amended⟩,rfl⟩

theorem evaluate_remediate (r : Roster ρ) (now : Int64) :
    (r.evaluate now).2.remediate = true ↔ r.guard = .armed ∧ (r.evaluate now).1.guard = .triggered := by
  have fire := Guard.advance_fire r.guard (0 < (r.staleRecords now).length)
  have shown := Guard.advance_fst r.guard (0 < (r.staleRecords now).length)
  have directive : (r.evaluate now).2.remediate = true ↔
      (r.guard.advance (0 < (r.staleRecords now).length)).2 = .fire := beq_iff_eq
  have guard : (r.evaluate now).1.guard = (r.guard.advance (0 < (r.staleRecords now).length)).1 := rfl
  rw [directive,fire,guard,shown]
  by_cases stale : 0 < (r.staleRecords now).length <;> simp [stale]

theorem applyPush_remediate {r : Roster ρ} {id : String} {record : ρ} (known : r.find? id = some record)
    (p : Patch ρ) (now : Int64) :
    (∃ outcome ∈ (r.applyPush id p now).2, outcome.remediate = true) ↔
      r.guard = .armed ∧ (r.applyPush id p now).1.guard = .triggered := by
  rw [applyPush_known known]
  simp only [Option.mem_some_iff,exists_eq_left']
  exact evaluate_remediate _ now

end Roster

def Push.Message.run? : Push.Message → Option String
  | .progress _ p => some p.runId
  | _ => none

namespace Board

def Idle (b : Board) : Push.Message → Prop
  | .progress _ p =>
    ∃ last, (b.generations.samples p.runId).getLast? = some last ∧ p.generation ≤ last.generation
  | .pnl p => p.sessionId = none ∧ b.sessionId = none
  | .position _ => False
  | .unknown => True

structure Reported (before : Board) (m : Push.Message) (now : Int64) (after : Board) (effects : Effects) :
    Prop where
  lastMessageAt : after.lastMessageAt = some now
  sessionId : after.sessionId = before.sessionId
  others : ∀ c, m.collection? ≠ some c → after.roster c = before.roster c
  histories : ∀ run, m.run? ≠ some run → after.generations.samples run = before.generations.samples run
  changed : ∀ c, effects.changed = some c ↔ (after.roster c).revision = (before.roster c).revision + 1
  unchanged : ∀ c, effects.changed ≠ some c → after.roster c = before.roster c
  merged : ∀ c, effects.changed = some c → ∃ id, before.addressed? m = some id ∧
    (before.roster c).Merged (after.roster c) id (m.amended now c)
  remediate : ∀ c, effects.remediate = some c ↔
    effects.changed = some c ∧ (before.roster c).guard = .armed ∧ (after.roster c).guard = .triggered
  progress : ∀ run sample,
    (∃ update, effects.progress = some update ∧ update.runId = run ∧ update.sample = sample) ↔
      after.generations.samples run = before.generations.samples run ++ [sample]
  untold : effects.progress = none → after.generations = before.generations
  flash : ∀ symbol, effects.flash = some symbol ↔ ∃ p, m = .position p ∧ symbol = symbolName p.symbol
  refresh : ∀ c, effects.refresh = some c ↔ (∃ p, m = .position p) ∧ c = .positions
  idle : before.Idle m → after = { before with lastMessageAt:=some now } ∧ effects = {}

variable {b : Board} {m : Push.Message}

theorem receive_changed (b : Board) (m : Push.Message) (now : Int64) (c : Collection) :
    (b.receive m now).2.changed = some c ↔
      ((b.receive m now).1.roster c).revision = (b.roster c).revision + 1 := by
  have moved : ∀ revision : UInt64, revision ≠ revision + 1 := fun _ => by simp
  cases b.receive_pushed m now c with
  | nothing same unchanged =>
    rw [same]
    exact iff_of_false unchanged (moved _)
  | push routed addressed amends known roster changed =>
    rw [roster]
    exact iff_of_true changed (Roster.applyPush_merged known _ now).revision

theorem receive_merged {now : Int64} {c : Collection} (changed : (b.receive m now).2.changed = some c) :
    ∃ id, b.addressed? m = some id ∧
      (b.roster c).Merged ((b.receive m now).1.roster c) id (m.amended now c) := by
  cases b.receive_pushed m now c with
  | nothing same unchanged => exact absurd changed unchanged
  | @push p record id routed addressed amends known roster =>
    have merged := Roster.applyPush_merged known p now
    rw [roster]
    rw [show patch p = m.amended now c from funext amends] at merged
    exact ⟨id,addressed,merged⟩

theorem receive_remediate (b : Board) (m : Push.Message) (now : Int64) (c : Collection) :
    (b.receive m now).2.remediate = some c ↔
      (b.receive m now).2.changed = some c ∧ (b.roster c).guard = .armed ∧
        ((b.receive m now).1.roster c).guard = .triggered := by
  cases b.receive_pushed m now c with
  | nothing same unchanged unfired => exact iff_of_false unfired fun told => unchanged told.1
  | push routed addressed amends known roster changed remediate =>
    rw [remediate,Roster.applyPush_remediate known,roster]
    exact (and_iff_right changed).symm

theorem receive_unrouted (now : Int64) {c : Collection} (elsewhere : m.collection? ≠ some c) :
    (b.receive m now).1.roster c = b.roster c := by
  cases b.receive_pushed m now c with
  | nothing same => exact same
  | push routed => exact absurd routed elsewhere

theorem receive_lastMessageAt (b : Board) (m : Push.Message) (now : Int64) :
    (b.receive m now).1.lastMessageAt = some now ∧ (b.receive m now).1.sessionId = b.sessionId := by
  cases m with
  | progress kind p =>
    cases newer : b.generations.isNewer p.runId p.sample with
    | false => rw [receive_older newer]; exact ⟨rfl,rfl⟩
    | true =>
      rw [receive_newer newer]
      cases kind <;> exact ⟨rfl,rfl⟩
  | pnl p =>
    simp only [receive,receivePnl]
    split <;> exact ⟨rfl,rfl⟩
  | position p => exact ⟨rfl,rfl⟩
  | unknown => exact ⟨rfl,rfl⟩

theorem receive_histories (now : Int64) {run : String} (elsewhere : m.run? ≠ some run) :
    (b.receive m now).1.generations.samples run = b.generations.samples run := by
  rw [receive_generations]
  cases m with
  | progress kind p =>
    have distinct : run ≠ p.runId := fun same => elsewhere (congrArg some same.symm)
    exact b.generations.samples_record_other p.sample distinct
  | pnl p => rfl
  | position p => rfl
  | unknown => rfl

theorem receive_untold (now : Int64) (untold : (b.receive m now).2.progress = none) :
    (b.receive m now).1.generations = b.generations := by
  rw [receive_update] at untold
  rw [receive_generations]
  cases m with
  | progress kind p =>
    cases newer : b.generations.isNewer p.runId p.sample with
    | false => simp only [Generations.record_older newer]
    | true => simp [newer] at untold
  | pnl p => rfl
  | position p => rfl
  | unknown => rfl

theorem receive_progress (b : Board) (m : Push.Message) (now : Int64) (run : String) (sample : Sample) :
    (∃ update, (b.receive m now).2.progress = some update ∧ update.runId = run ∧ update.sample = sample) ↔
      (b.receive m now).1.generations.samples run = b.generations.samples run ++ [sample] := by
  constructor
  · rintro ⟨update,told,rfl,rfl⟩
    exact receive_longer told
  · intro grown
    cases told : (b.receive m now).2.progress with
    | none =>
      rw [receive_untold now told] at grown
      simp at grown
    | some update =>
      obtain ⟨kind,p,rfl,_,reported⟩ := receive_told told
      have same : run = p.runId := by
        refine Classical.byContradiction fun other => ?_
        have elsewhere : (Push.Message.progress kind p).run? ≠ some run :=
          fun named => other (Option.some.inj named).symm
        rw [receive_histories now elsewhere] at grown
        simp at grown
      have named : update.runId = run := by rw [reported,same]; rfl
      subst named
      rw [receive_longer told] at grown
      have appended := List.append_cancel_left grown
      exact ⟨update,rfl,rfl,(List.cons.inj appended).1⟩

theorem receive_flash (b : Board) (m : Push.Message) (now : Int64) (symbol : String) :
    (b.receive m now).2.flash = some symbol ↔ ∃ p, m = .position p ∧ symbol = symbolName p.symbol := by
  cases m with
  | progress kind p =>
    cases newer : b.generations.isNewer p.runId p.sample with
    | false => simp [receive_older newer]
    | true => simp [receive_newer newer]
  | pnl p =>
    simp only [receive,receivePnl]
    split <;> simp
  | position p => simp [receive,receivePosition,eq_comm]
  | unknown => simp [receive]

theorem receive_refresh (b : Board) (m : Push.Message) (now : Int64) (c : Collection) :
    (b.receive m now).2.refresh = some c ↔ (∃ p, m = .position p) ∧ c = .positions := by
  cases m with
  | progress kind p =>
    cases newer : b.generations.isNewer p.runId p.sample with
    | false => simp [receive_older newer]
    | true => simp [receive_newer newer]
  | pnl p =>
    simp only [receive,receivePnl]
    split <;> simp
  | position p => simp [receive,receivePosition,eq_comm]
  | unknown => simp [receive]

theorem receive_idle (now : Int64) (idle : b.Idle m) :
    b.receive m now = ({ b with lastMessageAt:=some now },{}) := by
  cases m with
  | progress kind p =>
    obtain ⟨last,found,older⟩ := idle
    refine receive_older ?_ kind now
    simp only [Generations.isNewer,found,Option.all_some,decide_eq_false_iff_not]
    exact UInt32.not_lt.mpr older
  | pnl p =>
    obtain ⟨unnamed,unset⟩ := idle
    simp [receive,receivePnl,unnamed,unset]
  | position p => exact absurd idle id
  | unknown => rfl

theorem receive_reported (b : Board) (m : Push.Message) (now : Int64) :
    b.Reported m now (b.receive m now).1 (b.receive m now).2 where
  lastMessageAt := (b.receive_lastMessageAt m now).1
  sessionId := (b.receive_lastMessageAt m now).2
  others _ elsewhere := receive_unrouted now elsewhere
  histories _ elsewhere := receive_histories now elsewhere
  changed := b.receive_changed m now
  unchanged := by
    intro c unchanged
    cases b.receive_pushed m now c with
    | nothing same => exact same
    | push routed addressed amends known roster changed => exact absurd changed unchanged
  merged _ changed := receive_merged changed
  remediate := b.receive_remediate m now
  progress := b.receive_progress m now
  untold := receive_untold now
  flash := b.receive_flash m now
  refresh := b.receive_refresh m now
  idle idle := Prod.mk.inj (receive_idle now idle)

theorem start_revision_le (settings : Settings) {moves : List Move} (short : moves.length < UInt64.size)
    (c : Collection) : (((Board.start settings).after moves).roster c).revision.toNat ≤ moves.length := by
  obtain ⟨staleAfter,fresh⟩ := start_roster settings c
  have few := (Board.start settings).operations_length moves c
  rw [after_roster,fresh]
  exact Nat.le_trans (Roster.fresh_revision_le c staleAfter (Nat.lt_of_le_of_lt few short)) few

-- Nothing that a message does goes unreported, and nothing is reported that it does
-- not do. A revision counts up as a number as long as it has not come round.
theorem effects_report_changes (b : Board) (m : Push.Message) (now : Int64) :
    b.Reported m now (b.receive m now).1 (b.receive m now).2 ∧
    (∀ settings moves, b = (Board.start settings).after moves → moves.length + 1 < UInt64.size →
      ∀ c, (b.receive m now).2.changed = some c ↔
        (b.roster c).revision.toNat < ((b.receive m now).1.roster c).revision.toNat) := by
  have reported := b.receive_reported m now
  refine ⟨reported,?_⟩
  intro settings moves reached short c
  have shorter : moves.length < UInt64.size := Nat.lt_of_succ_lt short
  have bound := start_revision_le settings shorter c
  rw [←reached] at bound
  constructor
  · intro changed
    rw [(reported.changed c).mp changed,UInt64.toNat_add]
    have size : UInt64.size = 2 ^ 64 := rfl
    have one : (1 : UInt64).toNat = 1 := rfl
    omega
  · intro moved
    refine Classical.byContradiction fun unchanged => ?_
    rw [reported.unchanged c unchanged] at moved
    exact Nat.lt_irrefl _ moved

end Board
end RunWatch
