import RunWatch.Proofs.Board.Polling
import RunWatch.Proofs.Board.Symbols
import RunWatch.Proofs.Push.Checks
namespace RunWatch

theorem symbolName_empty {s : String} : symbolName s = "" ↔ Text.allBlank s = true := by
  rw [Text.allBlank_iff,symbolName,Text.upper]
  simp

theorem Except.unless_ok {refuses : Bool} {fault : ε} {a b : α} :
    (if refuses then .error fault else .ok a : Except ε α) = .ok b ↔ refuses = false ∧ a = b := by
  cases refuses <;> simp

theorem JobRow.accept_ok {row : JobRow} {record : JobRecord} (accepted : row.accept = .ok record) :
    Text.allBlank row.runId = false ∧ record.id = row.runId := by
  obtain ⟨named,rfl⟩ := Except.unless_ok.mp accepted
  exact ⟨named,rfl⟩

theorem SessionRow.accept_ok {row : SessionRow} {record : SessionRecord} (accepted : row.accept = .ok record) :
    Text.allBlank row.sessionId = false ∧ record.id = row.sessionId := by
  obtain ⟨named,rfl⟩ := Except.unless_ok.mp accepted
  exact ⟨named,rfl⟩

namespace Collection

def spelledId : (c : Collection) → c.SentRow → String
  | .jobs | .discoveryRuns => JobRow.runId
  | .positions => PositionRow.symbol
  | .sessions => SessionRow.sessionId

def keptId : Collection → String → String
  | .positions => symbolName
  | .jobs | .discoveryRuns | .sessions => id

def Unnamed (c : Collection) (row : c.SentRow) : Prop := Text.allBlank (c.spelledId row) = true

variable {c : Collection} {row : c.SentRow} {record : c.Record}

theorem accept_id (accepted : Row.accept row = .ok record) : Monitored.id record = c.keptId (c.spelledId row) := by
  cases c with
  | jobs => exact (JobRow.accept_ok accepted).2
  | discoveryRuns => exact (JobRow.accept_ok accepted).2
  | positions =>
    obtain ⟨direction,_,_,rfl⟩ := PositionRow.accept_iff.mp accepted
    rfl
  | sessions => exact (SessionRow.accept_ok accepted).2

theorem accept_unnamed (accepted : Row.accept row = .ok record) (unnamed : c.Unnamed row) : c = .positions := by
  have blank : Text.allBlank (c.spelledId row) = true := unnamed
  cases c with
  | jobs => cases (JobRow.accept_ok accepted).1.symm.trans blank
  | discoveryRuns => cases (JobRow.accept_ok accepted).1.symm.trans blank
  | positions => rfl
  | sessions => cases (SessionRow.accept_ok accepted).1.symm.trans blank

end Collection

structure Push.Message.Quotes (m : Push.Message) (c : Collection) (row : c.SentRow) : Prop where
  routed : m.collection? = some c
  spelled : m.spelledId? = some (c.spelledId row)

variable {m : Push.Message} {c : Collection} {row : c.SentRow} {record : c.Record}

namespace Push.Message.Quotes

-- A message is refused for a blank id where its row has one. A balance never is, but then
-- no session is admitted without an id.
theorem anonymous_iff (quotes : m.Quotes c row) (accepted : Row.accept row = .ok record) :
    m.Anonymous ↔ c.Unnamed row := by
  obtain ⟨routed,spelled⟩ := quotes
  unfold Collection.Unnamed
  cases m with
  | progress kind p =>
    rw [← Option.some.inj spelled]
    exact Iff.rfl
  | pnl p =>
    cases routed
    exact ⟨False.elim,fun unnamed => nomatch Collection.accept_unnamed accepted unnamed⟩
  | position p =>
    rw [← Option.some.inj spelled]
    exact Iff.rfl
  | unknown => cases spelled

theorem addressed (quotes : m.Quotes c row) (b : Board) : b.addressed? m = some (c.keptId (c.spelledId row)) := by
  obtain ⟨routed,spelled⟩ := quotes
  cases m with
  | progress kind p =>
    rw [← Option.some.inj spelled]
    cases kind <;> cases routed <;> rfl
  | pnl p =>
    cases routed
    have given : p.sessionId = some (Collection.sessions.spelledId row) := spelled
    simp only [Board.addressed?,given,Option.some_or]
    rfl
  | position p =>
    rw [← Option.some.inj spelled]
    cases routed
    rfl
  | unknown => cases spelled

end Push.Message.Quotes

namespace Board

variable {b : Board} {id : String}

-- A message is a push to its collection. Only the history of its run can keep a generation
-- from being one, and an empty history does not.
theorem pushTo?_fresh (routed : m.collection? = some c) (addressed : b.addressed? m = some id)
    (fresh : ∀ run, m.run? = some run → b.generations.samples run = []) (now : Int64) :
    ∃ p, b.pushTo? m now c = some (.push id p now) := by
  cases m with
  | progress kind p =>
    have newer : (b.generations.record p.runId p.sample).2 = true := by
      rw [Generations.record_snd,Generations.isNewer,fresh p.runId rfl]
      rfl
    have target : p.runId = id := Option.some.inj addressed
    rw [← target]
    cases kind <;> cases routed <;> exact ⟨({ progress:=some p.shown } : JobPatch),if_pos newer⟩
  | pnl p =>
    cases routed
    have target : p.sessionId.or b.sessionId = some id := addressed
    refine ⟨(⟨p.totalPnl,p.equity⟩ : SessionPatch),?_⟩
    simp only [pushTo?,target]
    rfl
  | position p =>
    have target : symbolName p.symbol = id := Option.some.inj addressed
    cases routed
    rw [← target]
    exact ⟨(⟨now⟩ : PositionPatch),rfl⟩
  | unknown => cases routed

structure Lands (before : Board) (m : Push.Message) (now : Int64) (c : Collection) (earlier : List c.Record)
    (record : c.Record) (later : List c.Record) (after : Board) (effects : Effects) : Prop where
  place : (before.roster c).records = earlier ++ record :: later
  changed : effects.changed = some c
  amended : (after.roster c).records = earlier ++ m.amended now c record :: later
  others : ∀ d, d ≠ c → after.roster d = before.roster d

theorem receive_lands {earlier later : List c.Record} (routed : m.collection? = some c)
    (addressed : b.addressed? m = some (Monitored.id record))
    (fresh : ∀ run, m.run? = some run → b.generations.samples run = [])
    (place : (b.roster c).records = earlier ++ record :: later)
    (first : ∀ other ∈ earlier, Monitored.id other ≠ Monitored.id record) (now : Int64) :
    b.Lands m now c earlier record later (b.receive m now).1 (b.receive m now).2 := by
  obtain ⟨p,pushed⟩ := pushTo?_fresh routed addressed fresh now
  have known : ((b.roster c).find? (Monitored.id record)).isSome := by
    rw [Roster.find?_isSome,place]
    exact List.mem_map_of_mem (List.mem_append_right _ List.mem_cons_self)
  have changed : (b.receive m now).2.changed = some c := (b.receive_changed_known m now c).mpr ⟨_,p,pushed,known⟩
  refine ⟨place,changed,?_,?_⟩
  · cases b.receive_pushed m now c with
    | nothing same unchanged => exact absurd changed unchanged
    | push routed named amends known roster =>
      cases named.symm.trans addressed
      rw [roster,Roster.applyPush_records,place,Roster.patchFirst_at _ first rfl,amends]
  · intro d other
    apply receive_unrouted
    rw [routed]
    exact fun same => other (Option.some.inj same).symm

theorem unnamed_refused (routed : m.collection? = some .positions) (addressed : b.addressed? m = some "") :
    m.checked = .error (.payload .positionWithoutSymbol) := by
  cases m with
  | progress kind p => cases kind <;> cases routed
  | pnl p => cases routed
  | position p => exact Push.Position.checked_blank (symbolName_empty.mp (Option.some.inj addressed))
  | unknown => cases routed

-- Whatever a poll admits is within reach of a message that quotes its id: the check lets
-- the message pass, and it is merged into the record that the poll lists first under that
-- id, and into no other. The exception is a position without a symbol, which is admitted
-- although every message that would find it is refused.
theorem admitted_rows_reached (b : Board) (c : Collection) {row : c.SentRow} {record : c.Record}
    (accepted : Row.accept row = .ok record) {m : Push.Message} (quotes : m.Quotes c row) :
    (m.checked = .ok m ↔ m.Finite ∧ ¬ c.Unnamed row) ∧
    (∀ document, Push.Message.ofDocument? document = some m →
      (Push.Message.ofPayload (some document) = .ok m ↔ ¬ c.Unnamed row)) ∧
    (c.Unnamed row → c = .positions ∧ ∀ (d : Board) (other : Push.Message), other.collection? = some c →
      d.addressed? other = some (Monitored.id record) → other.checked = .error (.payload .positionWithoutSymbol)) ∧
    ∀ earlier later polledAt, (∀ other ∈ earlier, Monitored.id other ≠ Monitored.id record) →
      let polled := (b.applyPoll (c.poll (.ok (earlier ++ record :: later))) polledAt).1
      let shown := (b.roster c).admitted
      ∀ before, before = polled ∨ before = polled.prune →
        (∀ run, m.run? = some run → before.generations.samples run = []) →
        ∀ now, before.Lands m now c (earlier.map shown) (shown record) (later.map shown)
          (before.receive m now).1 (before.receive m now).2 := by
  have checked : m.checked = .ok m ↔ m.Finite ∧ ¬ c.Unnamed row := by
    rw [Push.Message.checked_ok_iff,quotes.anonymous_iff accepted]
  refine ⟨checked,?_,?_,?_⟩
  · intro document read
    simp only [Push.Message.ofPayload,Option.bind_some,read,checked,Push.Message.read_finite read,true_and]
  · intro unnamed
    obtain rfl := Collection.accept_unnamed accepted unnamed
    have kept : Monitored.id record = "" := (Collection.accept_id accepted).trans (symbolName_empty.mpr unnamed)
    rw [kept]
    exact ⟨rfl,fun d other => unnamed_refused⟩
  · intro earlier later polledAt first polled shown before settled fresh now
    have same : before.roster c = polled.roster c := by
      rcases settled with rfl | rfl
      · rfl
      · exact polled.prune_roster c
    have place : (before.roster c).records = earlier.map shown ++ shown record :: later.map shown := by
      rw [same,b.polled_roster c]
      exact List.map_append
    have kept (other : c.Record) : Monitored.id (shown other) = Monitored.id other := (b.roster c).id_admitted other
    apply receive_lands quotes.routed _ fresh place
    · intro other member
      obtain ⟨polled,listed,rfl⟩ := List.mem_map.mp member
      rw [kept,kept]
      exact first polled listed
    · rw [kept,Collection.accept_id accepted]
      exact quotes.addressed before

theorem spaced_run_reached :
    let row : JobRow := ⟨" r ","train",.running,none,none,false⟩
    let record (id : String) : JobRecord := ⟨id,"train",.running,none,none,false,none⟩
    let failed : JobRecord := { record " r " with status:=.failed }
    let m : Push.Message := .progress .job ⟨" r ",1,0.5,0.25,0,none⟩
    let jobs : Roster JobRecord := ⟨.jobs,60000,[failed],.connected,.armed,some 1,none,none,1⟩
    let b : Board := ⟨jobs,.fresh .discoveryRuns 60000,.fresh .positions 60000,.fresh .sessions 60000,
      ⟨[("r",[⟨7,0.5,0.25,0⟩])]⟩,none,none⟩
    let before := (b.applyPoll (.jobs (.ok [record "r",record " r ",record " r "])) 5).1.prune
    Row.accept row = .ok (record " r ") ∧ m.Quotes .jobs row ∧ m.checked = .ok m ∧
      (before.receive m 6).2.changed = some .jobs ∧
      (before.receive m 6).1.jobs.records =
        [record "r",{ failed with progress:=some ⟨1,0.5,0.25,0,none⟩ },failed] := by
  intro row record failed m jobs b before
  have nonblank : Text.allBlank " r " = false := by decide +kernel
  have accepted : Row.accept row = .ok (record " r ") := if_neg (Bool.eq_false_iff.mp nonblank)
  have quotes : m.Quotes .jobs row := ⟨rfl,rfl⟩
  have finite : m.Finite := ⟨by decide +kernel,by decide +kernel,by decide +kernel⟩
  have named : ¬ Collection.jobs.Unnamed row := Bool.eq_false_iff.mp nonblank
  have first : ∀ other ∈ [record "r"], Monitored.id other ≠ Monitored.id (record " r ") := by
    intro other member
    rw [List.mem_singleton.mp member]
    decide
  have fresh : ∀ run, m.run? = some run → before.generations.samples run = [] := by
    intro run same
    cases same
    rfl
  obtain ⟨checked,_,_,lands⟩ := admitted_rows_reached b .jobs accepted quotes
  have landed := lands [record "r"] [record " r "] 5 first before (Or.inr rfl) fresh 6
  exact ⟨accepted,quotes,checked.mpr ⟨finite,named⟩,landed.changed,landed.amended⟩

theorem blank_symbol_out_of_reach :
    let row : PositionRow := ⟨" ","long",1,1,1,0⟩
    let record : PositionRecord := ⟨"",.long,1,1,1,0,none⟩
    let m : Push.Message := .position ⟨" "⟩
    let job : JobRow := ⟨" ","train",.running,none,none,false⟩
    let session : SessionRow := ⟨" ",.running,none,none,false,none,none⟩
    Row.accept row = .ok record ∧ m.Quotes .positions row ∧ m.Finite ∧
      m.checked = .error (.payload .positionWithoutSymbol) ∧
      Row.accept job = .error (.argument .jobWithoutId) ∧
      Row.accept session = .error (.argument .sessionWithoutId) := by
  intro row record m job session
  have long : Direction.ofWord "long" = .ok .long := Direction.ofWord_long (by decide +kernel)
  have numbers : row.finite = true := by decide +kernel
  have blank : Text.allBlank " " = true := by decide +kernel
  have empty : row.record .long = record := by rw [PositionRow.record,symbolName_empty.mpr blank]
  have accepted : Row.accept row = .ok record := PositionRow.accept_iff.mpr ⟨.long,long,numbers,empty⟩
  have refused := Push.Position.checked_blank (p := ⟨" "⟩) blank
  exact ⟨accepted,⟨rfl,rfl⟩,trivial,refused,if_pos blank,if_pos blank⟩

end Board
end RunWatch
