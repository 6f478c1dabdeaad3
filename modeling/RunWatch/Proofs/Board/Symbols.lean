import RunWatch.Proofs.Api.Rows
import RunWatch.Proofs.Board.Independence
import RunWatch.Proofs.Roster.Replay
import RunWatch.Proofs.Text
namespace RunWatch
open Monitored (Patch patch)

def KnownAs (spelt name : String) : Prop :=
  ∃ word, Text.Trimmed spelt word ∧ List.Forall₂ Text.Raised word.toList name.toList

theorem symbolName_iff {spelt name : String} : symbolName spelt = name ↔ KnownAs spelt name := by
  simp only [KnownAs,← Text.trim_iff,← Text.upper_iff,exists_eq_left']
  rfl

theorem symbolName_again (spelt : String) : symbolName (symbolName spelt) = symbolName spelt := by
  have trimmed : Text.trim (Text.trim spelt) = Text.trim spelt := Text.trimmed_self (Text.trim_iff.mp rfl)
  rw [symbolName,symbolName,Text.trim_upper trimmed,Text.upper_upper]

def PositionRecord.unmarked (record : PositionRecord) : PositionRecord := { record with pushedAt:=none }

def PositionRecord.Shows (record : PositionRecord) (row : PositionRow) : Prop :=
  Row.accept row = .ok record.unmarked

def PositionRow.record (row : PositionRow) (direction : Direction) : PositionRecord :=
  ⟨symbolName row.symbol,direction,row.entryPrice,row.quantity,row.leverage,row.unrealizedPnl,none⟩

def PositionRow.finite (row : PositionRow) : Bool :=
  row.entryPrice.isFinite && row.quantity.isFinite && row.leverage.isFinite && row.unrealizedPnl.isFinite

variable {row : PositionRow} {record : PositionRecord} {rows : List PositionRow} {records : List PositionRecord}

theorem Direction.ofWord_long {word : String} (read : Text.lower (Text.trim word) = "long") :
    Direction.ofWord word = .ok .long := by
  unfold Direction.ofWord
  rw [if_pos (Or.inl read)]

theorem PositionRow.accept_iff : Row.accept row = .ok record ↔
    ∃ direction, Direction.ofWord row.direction = .ok direction ∧ row.finite = true ∧
      row.record direction = record := by
  have branches {finite : Bool} {fault : Fault} {built : PositionRecord} :
      (if finite then .ok built else .error fault : Except Fault PositionRecord) = .ok record ↔
        finite = true ∧ built = record := by
    cases finite <;> simp
  change row.accept = _ ↔ _
  unfold PositionRow.accept PositionRow.record PositionRow.finite
  simp only [bind,Except.bind_ok_iff,branches]

theorem PositionRecord.Shows.symbol (shows : record.Shows row) :
    record.symbol = symbolName row.symbol := by
  obtain ⟨direction,_,_,built⟩ := PositionRow.accept_iff.mp shows
  have named : record.unmarked.symbol = symbolName row.symbol := built ▸ rfl
  exact named

theorem shown_of_admitted (admitted : Admitted rows records) :
    List.Forall₂ PositionRecord.Shows records rows := by
  induction rows generalizing records with
  | nil =>
    rw [Admitted.nil.mp admitted]
    exact .nil
  | cons row rest ih =>
    obtain ⟨record,accepted,others,further,rfl⟩ := Admitted.cons.mp admitted
    refine .cons ?_ (ih further)
    obtain ⟨direction,_,_,rfl⟩ := PositionRow.accept_iff.mp accepted
    exact accepted

theorem shown_unmarked :
    List.Forall₂ PositionRecord.Shows records rows ↔
      List.Forall₂ (fun plain row => Row.accept row = .ok plain) (records.map PositionRecord.unmarked) rows := by
  rw [List.forall₂_map_left_iff]
  rfl

theorem shown_symbols (shown : List.Forall₂ PositionRecord.Shows records rows) :
    records.map PositionRecord.symbol = rows.map fun row => symbolName row.symbol := by
  induction shown with
  | nil => rfl
  | cons shows _ ih => rw [List.map_cons,List.map_cons,shows.symbol,ih]

theorem shown_cut {front back : List PositionRow}
    (shown : List.Forall₂ PositionRecord.Shows records (front ++ row :: back)) :
    ∃ earlier record later, records = earlier ++ record :: later ∧
      List.Forall₂ PositionRecord.Shows earlier front ∧ record.Shows row := by
  have before := List.forall₂_take_append records front (row :: back) shown
  have behind := List.forall₂_drop_append records front (row :: back) shown
  cases rest : records.drop front.length with
  | nil =>
    rw [rest] at behind
    cases behind
  | cons record later =>
    rw [rest] at behind
    obtain ⟨shows,_⟩ := List.forall₂_cons.mp behind
    refine ⟨_,record,later,?_,before,shows⟩
    rw [← rest,List.take_append_drop]

def Push.Position.Names (p : Push.Position) (row : PositionRow) : Prop := symbolName row.symbol = symbolName p.symbol

theorem Push.Position.first_named {p : Push.Position} (named : ∃ row ∈ rows, p.Names row) :
    ∃ front row back, rows = front ++ row :: back ∧ (∀ other ∈ front, ¬ p.Names other) ∧ p.Names row := by
  have found : (rows.find? fun row => symbolName row.symbol == symbolName p.symbol).isSome := by
    simpa only [List.find?_isSome,beq_iff_eq,Push.Position.Names] using named
  obtain ⟨row,first⟩ := Option.isSome_iff_exists.mp found
  obtain ⟨same,front,back,cut,others⟩ := List.find?_eq_some_iff_append.mp first
  refine ⟨front,row,back,cut,?_,eq_of_beq same⟩
  intro other member again
  have apart : (symbolName other.symbol == symbolName p.symbol) = false := by simpa using others other member
  exact ne_of_beq_false apart again

namespace Board

def Move.listsPositions : Move → Bool
  | .poll (.positions (.ok _)) _ => true
  | _ => false

theorem operation?_unlisted_positions {b : Board} {mv : Move} (unlisted : mv.listsPositions = false)
    (found : b.operation? mv .positions = some op) : op.listing? = none := by
  rcases operation?_polled found with ⟨p,now,rfl,polled⟩ | ⟨none,_⟩
  · rcases p with result | result | (fault | records) | result <;> cases polled <;> first | rfl | cases unlisted
  · exact none

theorem operations_unlisted_positions {moves : List Move} (unlisted : ∀ mv ∈ moves, mv.listsPositions = false)
    (b : Board) : ∀ op ∈ b.operations .positions moves, op.listing? = none := by
  induction moves generalizing b with
  | nil => exact fun op none => nomatch none
  | cons mv rest ih =>
    intro op member
    rcases List.mem_append.mp member with here | further
    · exact operation?_unlisted_positions (unlisted mv List.mem_cons_self) (Option.mem_toList.mp here)
    · exact ih (fun other later => unlisted other (List.mem_cons_of_mem mv later)) (b.move mv) op further

theorem positions_shown (accepted : acceptAll rows = .ok records) {moves : List Move}
    (unlisted : ∀ mv ∈ moves, mv.listsPositions = false) (b : Board) (now : Int64) :
    List.Forall₂ PositionRecord.Shows
      ((b.applyPoll (.positions (.ok records)) now).1.after moves).positions.records rows := by
  let polled := (b.applyPoll (.positions (.ok records)) now).1
  have installed : polled.positions.records = records := by
    have carried : (b.positions.admitted : PositionRecord → PositionRecord) = id := by
      funext record
      rw [Roster.admitted_eq]
      cases b.positions.find? (Monitored.id record) <;> rfl
    change records.map b.positions.admitted = records
    rw [carried,List.map_id]
  have untouched (record : PositionRecord) (p : Patch PositionRecord) : (patch p record).unmarked = record.unmarked :=
    rfl
  have kept : (polled.after moves).positions.records.map PositionRecord.unmarked =
      polled.positions.records.map PositionRecord.unmarked := by
    have same : (polled.after moves).positions = polled.positions.after (polled.operations .positions moves) :=
      after_roster polled moves .positions
    rw [same]
    exact Roster.after_map untouched (operations_unlisted_positions unlisted polled) polled.positions
  rw [shown_unmarked,kept,installed,← shown_unmarked]
  exact shown_of_admitted (acceptAll_ok.mp accepted)

structure Addressed (rows : List PositionRow) (p : Push.Position) (now : Int64) (before after : Board)
    (effects : Effects) : Prop where
  changed : effects.changed = some .positions ↔ ∃ row ∈ rows, p.Names row
  -- A mark of the same time may be there already.
  moved : (∀ record ∈ before.positions.records, record.pushedAt ≠ some now) →
    (after.positions.records ≠ before.positions.records ↔ ∃ row ∈ rows, p.Names row)
  first : ∀ front row back, rows = front ++ row :: back → (∀ other ∈ front, ¬ p.Names other) → p.Names row →
    ∃ earlier record later, before.positions.records = earlier ++ record :: later ∧
      List.Forall₂ PositionRecord.Shows earlier front ∧ record.Shows row ∧ record.symbol = symbolName p.symbol ∧
      after.positions.records = earlier ++ { record with pushedAt:=some now } :: later
  unknown : (∀ row ∈ rows, ¬ p.Names row) → after.positions = before.positions
  rest : after = { before with positions:=after.positions, lastMessageAt:=some now }
  flash : effects.flash = some (symbolName p.symbol)

section
variable {b : Board} (shown : List.Forall₂ PositionRecord.Shows b.positions.records rows)
include shown

theorem receive_position_changed (p : Push.Position) (now : Int64) :
    (b.receive (.position p) now).2.changed = some .positions ↔ ∃ row ∈ rows, p.Names row := by
  have push : b.pushTo? (.position p) now .positions =
      some (.push (symbolName p.symbol) (⟨now⟩ : PositionPatch) now) := rfl
  have listed : (b.positions.find? (symbolName p.symbol)).isSome ↔
      symbolName p.symbol ∈ b.positions.records.map PositionRecord.symbol :=
    b.positions.find?_isSome (symbolName p.symbol)
  rw [shown_symbols shown,List.mem_map] at listed
  rw [receive_changed_known,push]
  constructor
  · intro told
    obtain ⟨id,patch,pushed,known⟩ := told
    obtain ⟨same,_⟩ := Operation.push.inj (Option.some.inj pushed)
    rw [← same] at known
    exact listed.mp known
  · intro named
    exact ⟨_,_,rfl,listed.mpr named⟩

theorem receive_position_unknown {p : Push.Position} (unknown : ∀ row ∈ rows, ¬ p.Names row) (now : Int64) :
    (b.receive (.position p) now).1.positions = b.positions := by
  apply (b.receive_reported (.position p) now).unchanged .positions
  intro told
  obtain ⟨row,member,same⟩ := (receive_position_changed shown p now).mp told
  exact unknown row member same

theorem receive_position_first {p : Push.Position} {front back : List PositionRow}
    (cut : rows = front ++ row :: back) (others : ∀ other ∈ front, ¬ p.Names other) (same : p.Names row)
    (now : Int64) : ∃ earlier record later, b.positions.records = earlier ++ record :: later ∧
      List.Forall₂ PositionRecord.Shows earlier front ∧ record.Shows row ∧ record.symbol = symbolName p.symbol ∧
      (b.receive (.position p) now).1.positions.records = earlier ++ { record with pushedAt:=some now } :: later := by
  have patched : (b.receive (.position p) now).1.positions.records =
      Roster.patchFirst (symbolName p.symbol) (⟨now⟩ : PositionPatch) b.positions.records :=
    b.positions.applyPush_records (symbolName p.symbol) (⟨now⟩ : PositionPatch) now
  rw [cut] at shown
  obtain ⟨earlier,record,later,place,before,shows⟩ := shown_cut shown
  have named : record.symbol = symbolName p.symbol := shows.symbol.trans same
  have apart : ∀ other ∈ earlier, other.symbol ≠ symbolName p.symbol := by
    intro other member again
    have spelt : other.symbol ∈ front.map fun row => symbolName row.symbol :=
      shown_symbols before ▸ List.mem_map_of_mem member
    obtain ⟨twin,sooner,alike⟩ := List.mem_map.mp spelt
    exact others twin sooner (alike.trans again)
  refine ⟨earlier,record,later,place,before,shows,named,?_⟩
  rw [patched,place]
  exact Roster.patchFirst_at (⟨now⟩ : PositionPatch) apart named

theorem receive_addressed (p : Push.Position) (now : Int64) :
    b.Addressed rows p now (b.receive (.position p) now).1 (b.receive (.position p) now).2 where
  changed := receive_position_changed shown p now
  moved := by
    intro unmarked
    constructor
    · intro moved
      refine Classical.byContradiction fun none => ?_
      have unknown : ∀ row ∈ rows, ¬ p.Names row := fun row member same => none ⟨row,member,same⟩
      exact moved (congrArg Roster.records (receive_position_unknown shown unknown now))
    · intro named same
      obtain ⟨front,row,back,cut,others,here⟩ := Push.Position.first_named named
      obtain ⟨earlier,record,later,place,_,_,_,marked⟩ := receive_position_first shown cut others here now
      rw [marked,place] at same
      have marks := (List.cons.inj (List.append_cancel_left same)).1
      have member : record ∈ b.positions.records := place ▸ List.mem_append_right _ List.mem_cons_self
      exact unmarked record member (congrArg PositionRecord.pushedAt marks).symm
  first _ _ _ cut others same := receive_position_first shown cut others same now
  unknown unknown := receive_position_unknown shown unknown now
  rest := rfl
  flash := ((b.receive_reported (.position p) now).flash _).mpr ⟨p,rfl,rfl⟩

end

theorem receive_spelling {p q : Push.Position} (same : symbolName p.symbol = symbolName q.symbol) (b : Board)
    (now : Int64) : b.receive (.position p) now = b.receive (.position q) now := by
  simp only [receive,receivePosition,same]

-- A poll and a push know a symbol by the same name. However the two spell it, and
-- whatever has happened since the poll, the push marks the first record that the poll
-- listed under the name. A blank symbol is no exception.
theorem symbols_addressed_however_spelt (b : Board) (accepted : acceptAll rows = .ok records) (polledAt : Int64)
    {moves : List Move} (unlisted : ∀ mv ∈ moves, mv.listsPositions = false) :
    let before := (b.applyPoll (.positions (.ok records)) polledAt).1.after moves
    (∀ spelt name, symbolName spelt = name ↔ KnownAs spelt name) ∧
    List.Forall₂ PositionRecord.Shows before.positions.records rows ∧
    before.positions.records.map PositionRecord.symbol = rows.map (fun row => symbolName row.symbol) ∧
    (∀ p now, before.Addressed rows p now (before.receive (.position p) now).1 (before.receive (.position p) now).2) ∧
    (∀ spelt, symbolName (symbolName spelt) = symbolName spelt) ∧
    (∀ (record : PositionRecord) (row : PositionRow), record.Shows row →
      ∀ now, before.receive (.position ⟨record.symbol⟩) now = before.receive (.position ⟨row.symbol⟩) now) := by
  intro before
  have shown := positions_shown accepted unlisted b polledAt
  refine ⟨fun _ _ => symbolName_iff,shown,shown_symbols shown,receive_addressed shown,symbolName_again,?_⟩
  intro record row shows now
  apply receive_spelling
  rw [shows.symbol]
  exact symbolName_again row.symbol

theorem third_spelling_marks_first :
    let row (symbol : String) : PositionRow := ⟨symbol,"long",1,1,1,0⟩
    let record (symbol : String) : PositionRecord := ⟨symbol,.long,1,1,1,0,none⟩
    let rows := [row " ethusdt",row "btcUsdt\t",row "ETHUSDT "]
    let records := [record "ETHUSDT",record "BTCUSDT",record "ETHUSDT"]
    let b : Board := ⟨.fresh .jobs 60000,.fresh .discoveryRuns 60000,.fresh .positions 60000,
      .fresh .sessions 60000,{},none,none⟩
    let moves : List Move :=
      [.message (.position ⟨"BTCUSDT"⟩) 3,.poll (.positions (.error (.argument .jobWithoutId))) 5]
    let before := (b.applyPoll (.positions (.ok records)) 1).1.after moves
    let push : Push.Position := ⟨"\u3000EthUsdt"⟩
    acceptAll rows = .ok records ∧ (∀ mv ∈ moves, mv.listsPositions = false) ∧
      ∃ after effects first later, before.receive (.position push) 9 = (after,effects) ∧
        effects.changed = some .positions ∧ effects.flash = some "ETHUSDT" ∧ first.symbol = "ETHUSDT" ∧
        before.positions.records = first :: later ∧
        after.positions.records = { first with pushedAt:=some 9 } :: later := by
  intro row record rows records b moves before push
  have numbers : ((1 : Float).isFinite && (1 : Float).isFinite && (1 : Float).isFinite &&
      (0 : Float).isFinite) = true := by
    decide +kernel
  have long : Direction.ofWord "long" = .ok .long := Direction.ofWord_long (by decide +kernel)
  have built {spelt name : String} (named : symbolName spelt = name) : Row.accept (row spelt) = .ok (record name) := by
    have finite : (row spelt).finite = true := numbers
    have same : (row spelt).record .long = record name := by rw [PositionRow.record,named]
    exact PositionRow.accept_iff.mpr ⟨.long,long,finite,same⟩
  have eth : symbolName " ethusdt" = "ETHUSDT" := by decide +kernel
  have btc : symbolName "btcUsdt\t" = "BTCUSDT" := by decide +kernel
  have twin : symbolName "ETHUSDT " = "ETHUSDT" := by decide +kernel
  have third : symbolName push.symbol = "ETHUSDT" := by decide +kernel
  have accepted : acceptAll rows = .ok records :=
    acceptAll_ok.mpr (List.cons_eq_cons.mpr ⟨built eth,List.cons_eq_cons.mpr ⟨built btc,
      List.cons_eq_cons.mpr ⟨built twin,rfl⟩⟩⟩)
  have unlisted : ∀ mv ∈ moves, mv.listsPositions = false := by
    intro mv member
    rcases List.mem_cons.mp member with rfl | later
    · rfl
    · rw [List.mem_singleton.mp later]
      rfl
  have addressed : ∀ p now, before.Addressed rows p now (before.receive (.position p) now).1
      (before.receive (.position p) now).2 :=
    (symbols_addressed_however_spelt b accepted 1 unlisted).2.2.2.1
  have pushed := addressed push 9
  have named : push.Names (row " ethusdt") := by
    rw [Push.Position.Names,third]
    exact eth
  obtain ⟨earlier,first,later,place,none,_,symbol,marked⟩ :=
    pushed.first [] (row " ethusdt") [row "btcUsdt\t",row "ETHUSDT "] rfl (List.forall_mem_nil _) named
  cases none
  have changed := pushed.changed.mpr ⟨row " ethusdt",List.mem_cons_self,named⟩
  have flash := pushed.flash
  rw [third] at flash
  have received : before.receive (.position push) 9 = (_,_) := (Prod.eta _).symm
  exact ⟨accepted,unlisted,_,_,first,later,received,changed,flash,symbol.trans third,place,marked⟩

end Board
end RunWatch
