import RunWatch.Proofs.Api.Rows
import RunWatch.Proofs.Board.Rosters
namespace RunWatch
open Api (Call Client Network Response deliver)
open Monitored (carryForward isStale)

namespace Collection

def SentRow : Collection → Type
  | .jobs => JobRow
  | .discoveryRuns => JobRow
  | .positions => PositionRow
  | .sessions => SessionRow

instance (c : Collection) : Row c.SentRow c.Record :=
  match c with
  | .jobs => inferInstanceAs (Row JobRow JobRecord)
  | .discoveryRuns => inferInstanceAs (Row JobRow JobRecord)
  | .positions => inferInstanceAs (Row PositionRow PositionRecord)
  | .sessions => inferInstanceAs (Row SessionRow SessionRecord)

def poll : (c : Collection) → Except Fault (List c.Record) → Poll
  | .jobs => .jobs
  | .discoveryRuns => .discoveryRuns
  | .positions => .positions
  | .sessions => .sessions

def fetch (client : Client) : (c : Collection) → Call (List c.Record)
  | .jobs => client.jobs
  | .discoveryRuns => client.discoveryRuns
  | .positions => client.positions
  | .sessions => client.sessions

def carried (c : Collection) : (known : Option c.Record) → (polled : c.Record) → c.Record :=
  let advanced (known : Option JobStatus) (reported : JobStatus) : JobStatus :=
    known.elim reported fun status => status.advance reported
  match c with
  | .jobs | .discoveryRuns => fun (known : Option JobRecord) (polled : JobRecord) =>
    { polled with status:=advanced (known.map JobRecord.status) polled.status }
  | .positions => fun _ polled => polled
  | .sessions => fun (known : Option SessionRecord) (polled : SessionRecord) =>
    { polled with status:=advanced (known.map SessionRecord.status) polled.status }

variable {c : Collection}

theorem admitted_carried (r : Roster c.Record) (polled : c.Record) :
    r.admitted polled = c.carried (r.find? (Monitored.id polled)) polled := by
  rw [Roster.admitted_eq]
  cases c with
  | jobs => cases r.find? (Monitored.id polled) <;> rfl
  | discoveryRuns => cases r.find? (Monitored.id polled) <;> rfl
  | positions => cases r.find? (Monitored.id polled) <;> rfl
  | sessions => cases r.find? (Monitored.id polled) <;> rfl

theorem fetch_answer {client : Client} {rows : List c.SentRow}
    (delivered : deliver network (c.fetch client).request = .ok response)
    (decoded : response.rows? c.SentRow = some rows) : (c.fetch client).answer network = acceptAll rows := by
  cases c with
  | jobs => exact Client.list_answer delivered decoded
  | discoveryRuns => exact Client.list_answer delivered decoded
  | positions => exact Client.list_answer delivered decoded
  | sessions => exact Client.list_answer delivered decoded

end Collection

namespace Roster
variable {ρ : Type} [Monitored ρ]

def Installed (before : Roster ρ) (records : List ρ) (now : Int64) (after : Roster ρ) (outcome : Outcome) : Prop :=
  let listed : Roster ρ := { before with
    records:=records, lastPollAt:=some now, lastPollError:=none, revision:=before.revision + 1 }
  (after,outcome) = listed.evaluate now

structure Kept (before : Roster ρ) (fault : Fault) (now : Int64) (after : Roster ρ) (outcome : Outcome) : Prop where
  roster : after = { before with
    lastPollError:=some fault.message, revision:=before.revision + 1, guard:=(before.evaluate now).1.guard }
  outcome : outcome = (before.evaluate now).2

theorem applyPoll_installed (r : Roster ρ) (polled : List ρ) (now : Int64) :
    r.Installed (polled.map r.admitted) now (r.applyPoll (.ok polled) now).1 (r.applyPoll (.ok polled) now).2 := rfl

theorem applyPoll_kept (r : Roster ρ) (fault : Fault) (now : Int64) :
    r.Kept fault now (r.applyPoll (.error fault) now).1 (r.applyPoll (.error fault) now).2 := ⟨rfl,rfl⟩

end Roster

namespace Board

structure SameBut (c : Collection) (before after : Board) : Prop where
  rosters : ∀ d, d ≠ c → after.roster d = before.roster d
  generations : after.generations = before.generations
  sessionId : after.sessionId = before.sessionId
  lastMessageAt : after.lastMessageAt = before.lastMessageAt

theorem polled_roster (b : Board) (c : Collection) (result : Except Fault (List c.Record)) (now : Int64) :
    (b.applyPoll (c.poll result) now).1.roster c = ((b.roster c).applyPoll result now).1 := by
  cases c <;> rfl

theorem polled_outcome (b : Board) (c : Collection) (result : Except Fault (List c.Record)) (now : Int64) :
    (b.applyPoll (c.poll result) now).2 = ((b.roster c).applyPoll result now).2 := by
  cases c <;> rfl

theorem polled_sameBut (b : Board) (c : Collection) (result : Except Fault (List c.Record)) (now : Int64) :
    b.SameBut c (b.applyPoll (c.poll result) now).1 where
  rosters d other := by
    have apart : d ≠ (c.poll result).collection := by cases c <;> exact other
    exact b.applyPoll_roster_other (c.poll result) now apart
  generations := by cases c <;> rfl
  sessionId := by cases c <;> rfl
  lastMessageAt := by cases c <;> rfl

-- Rows that are all admitted are installed in their order. Where one is refused, the
-- poll fails with the fault of the first such row, and what was known stays on display.
theorem poll_all_or_nothing (b : Board) (c : Collection) (rows : List c.SentRow) (now : Int64) :
    let result : Except Fault (List c.Record) := acceptAll rows
    let after := b.applyPoll (c.poll result) now
    (∀ client network response, deliver network (c.fetch client).request = .ok response →
      response.rows? c.SentRow = some rows → (c.fetch client).answer network = result) ∧
    ((∀ row ∈ rows, ∃ record : c.Record, Row.accept row = .ok record) →
      ∃ records, Admitted rows records ∧ result = .ok records ∧
        (b.roster c).Installed
          (records.map fun polled => c.carried ((b.roster c).find? (Monitored.id polled)) polled) now
          (after.1.roster c) after.2) ∧
    ((∃ row ∈ rows, ∃ fault, (Row.accept row : Except Fault c.Record) = .error fault) →
      ∃ fault, FirstRefused rows fault ∧ result = .error fault ∧
        (b.roster c).Kept fault now (after.1.roster c) after.2) ∧
    b.SameBut c after.1 := by
  intro result after
  have roster : after.1.roster c = ((b.roster c).applyPoll result now).1 := b.polled_roster c result now
  have outcome : after.2 = ((b.roster c).applyPoll result now).2 := b.polled_outcome c result now
  refine ⟨fun _ _ _ => c.fetch_answer,?_,?_,b.polled_sameBut c result now⟩
  · intro each
    obtain ⟨records,admitted⟩ := Admitted.of_each each
    have accepted : result = .ok records := acceptAll_ok.mpr admitted
    refine ⟨records,admitted,accepted,?_⟩
    rw [roster,outcome,accepted]
    simp only [←Collection.admitted_carried]
    exact (b.roster c).applyPoll_installed records now
  · intro some
    obtain ⟨fault,refused⟩ := FirstRefused.of_some some
    have failed : result = .error fault := acceptAll_error.mpr refused
    refine ⟨fault,refused,failed,?_⟩
    rw [roster,outcome,failed]
    exact (b.roster c).applyPoll_kept fault now

-- A list of jobs with two blank ids, polled while a job with a pushed generation is stale,
-- and a list without them. The first calls for a cleanup and changes no record, the second
-- does not bring the ended job back.
theorem blank_id_fails_poll :
    let generation : JobProgress := ⟨7,0.5,0.25,0,none⟩
    let live : JobRecord := ⟨"a","train",.running,none,some 0,false,some generation⟩
    let ended : JobRecord := ⟨"b","train",.cancelled,none,none,false,none⟩
    let row (id : String) : JobRow := ⟨id,"train",.running,none,some 90000,false⟩
    let jobs : Roster JobRecord :=
      ⟨.jobs,60000,[live,ended],.connected,.armed,some 5,none,some "refused",3⟩
    let b : Board := ⟨jobs,.fresh .discoveryRuns 60000,.fresh .positions 60000,.fresh .sessions 60000,{},none,none⟩
    let poll (rows : List JobRow) := b.applyPoll (.jobs (acceptAll rows)) 90000
    (poll [row "a",row " ",row "b",row ""]).1.jobs =
        ⟨.jobs,60000,[live,ended],.connected,.triggered,some 5,
          some "invalid argument: job record without run_id",some "refused",4⟩ ∧
      (poll [row "a",row " ",row "b",row ""]).2 = ⟨1,.fire⟩ ∧
      (poll [row "b",row "a"]).1.jobs.records.map (fun record => (record.id,record.status)) =
        [("b",.cancelled),("a",.running)] ∧
      (poll [row "b",row "a"]).2 = ⟨0,.hold⟩ := by
  intro generation live ended row jobs b poll
  let polled (id : String) : JobRecord := ⟨id,"train",.running,none,some 90000,false,none⟩
  have blank : Row.accept (row " ") = .error (.argument .jobWithoutId) := if_pos (by decide +kernel)
  have named {id : String} (nonblank : Text.allBlank id = false) : Row.accept (row id) = .ok (polled id) :=
    if_neg (Bool.eq_false_iff.mp nonblank)
  have first : Row.accept (row "a") = .ok (polled "a") := named (by decide +kernel)
  have second : Row.accept (row "b") = .ok (polled "b") := named (by decide +kernel)
  have fine : Admitted [row "a"] [polled "a"] := List.cons_eq_cons.mpr ⟨first,rfl⟩
  have spoilt : FirstRefused [row "a",row " ",row "b",row ""] (.argument .jobWithoutId) :=
    ⟨[row "a"],row " ",[row "b",row ""],rfl,⟨_,fine⟩,blank⟩
  obtain ⟨_,_,refuse,_⟩ := poll_all_or_nothing b .jobs [row "a",row " ",row "b",row ""] 90000
  obtain ⟨_,install,_,_⟩ := poll_all_or_nothing b .jobs [row "b",row "a"] 90000
  obtain ⟨fault,_,failed,kept,outcome⟩ := refuse ⟨row " ",.tail _ (.head _),_,blank⟩
  cases failed.symm.trans (acceptAll_error.mpr spoilt)
  obtain ⟨records,_,accepted,installed⟩ := install (by
    intro other member
    cases member with
    | head => exact ⟨polled "b",second⟩
    | tail _ member =>
      cases member with
      | head => exact ⟨polled "a",first⟩
      | tail _ none => cases none)
  have listed : Admitted [row "b",row "a"] [polled "b",polled "a"] := List.cons_eq_cons.mpr ⟨second,fine⟩
  cases accepted.symm.trans (acceptAll_ok.mpr listed)
  obtain ⟨after,looked⟩ := Prod.mk.inj installed
  have words : (Fault.argument .jobWithoutId).message = "invalid argument: job record without run_id" := by decide
  have guard : ((b.roster .jobs).evaluate 90000).1.guard = .triggered := by decide
  rw [words,guard] at kept
  refine ⟨kept,outcome.trans (by decide),?_,looked.trans (by decide)⟩
  have shown := congrArg (fun r : Roster JobRecord => r.records.map fun record => (record.id,record.status)) after
  exact shown.trans (by decide)

end Board
end RunWatch
