import RunWatch.Proofs.Roster.Records
import RunWatch.Records.Job
import RunWatch.Records.Position
import RunWatch.Records.Session
namespace RunWatch
open Monitored (Patch patch carryForward)

def lastTold (told : β → Option α) (log : List β) : Option α := (log.filterMap told).getLast?

theorem lastTold_cons (told : β → Option α) (b : β) (log : List β) :
    lastTold told (b :: log) = (lastTold told log).or (told b) := by
  unfold lastTold
  cases tells : told b with
  | none => simp [tells]
  | some a =>
    rw [List.filterMap_cons_some tells,List.getLast?_cons]
    cases (log.filterMap told).getLast? <;> rfl

theorem lastTold_none {told : β → Option α} {log : List β} (silent : lastTold told log = none) :
    ∀ b ∈ log, told b = none := by
  have nothing : log.filterMap told = [] := List.getLast?_eq_none_iff.mp silent
  exact List.filterMap_eq_nil_iff.mp nothing

theorem foldl_lastTold {step : σ → β → σ} {told : β → Option α} {set : α → γ} (shown : σ → γ)
    (law : ∀ s b, shown (step s b) = (told b).elim (shown s) set) (s : σ) (log : List β) :
    shown (log.foldl step s) = (lastTold told log).elim (shown s) set := by
  induction log generalizing s with
  | nil => rfl
  | cons b rest ih =>
    rw [List.foldl_cons,ih,law,lastTold_cons]
    cases lastTold told rest <;> rfl

variable {ρ : Type} [Monitored ρ] {log : List (Operation ρ)}

structure LastPoll (log : List (Operation ρ)) where
  earlier : List (Operation ρ)
  polled : List ρ
  now : Int64
  since : List (Operation ρ)
  cut : log = earlier ++ .poll (.ok polled) now :: since
  unlisted : ∀ op ∈ since, op.listing? = none

def amendedBy (record : ρ) (patches : List (Patch ρ)) : ρ :=
  patches.foldl (fun record p => patch p record) record

namespace LastPoll

def patches (last : LastPoll log) (id : String) : List (Patch ρ) :=
  last.since.filterMap (Operation.patchFor? id)

def carried (last : LastPoll log) (start : Roster ρ) (polled : ρ) : ρ :=
  ((start.after last.earlier).find? (Monitored.id polled)).elim polled (carryForward · polled)

-- The records after the log: the first one under each id with all that was pushed to
-- it, the others as they were polled.
structure Shown (amends : ρ → List (Patch ρ) → ρ → Prop) (start : Roster ρ) (last : LastPoll log) : Prop where
  first : ∀ id row, last.polled.find? (fun row => Monitored.id row == id) = some row →
    ∃ record, (start.after log).find? id = some record ∧
      record = amendedBy (last.carried start row) (last.patches id) ∧ amends row (last.patches id) record
  others : ∀ (i j : Nat) row twin, j < i → last.polled[j]? = some twin → last.polled[i]? = some row →
    Monitored.id twin = Monitored.id row → (start.after log).records[i]? = some (last.carried start row)

end LastPoll

structure Replays (amends : ρ → List (Patch ρ) → ρ → Prop) (start : Roster ρ) (log : List (Operation ρ)) :
    Prop where
  ids : (start.after log).records.map Monitored.id =
    ((lastTold Operation.listing? log).getD []).map Monitored.id
  records : ∀ polled, lastTold Operation.listing? log = some polled →
    ∃ last : LastPoll log, last.polled = polled ∧ last.Shown amends start
  channel : (start.after log).channel = (lastTold Operation.channel? log).getD .connecting
  lastPollAt : (start.after log).lastPollAt = lastTold Operation.listedAt? log
  lastPollError : ∀ text, (start.after log).lastPollError = some text ↔
    ∃ fault, lastTold Operation.pollResult? log = some (.error fault) ∧ text = fault.message
  lastRemediationError : ∀ text, (start.after log).lastRemediationError = some text ↔
    ∃ fault, lastTold Operation.cleanupResult? log = some (.error fault) ∧ text = fault.message

def JobRecord.Amends (row : JobRecord) (patches : List JobPatch) (record : JobRecord) : Prop :=
  record.heartbeatAt = (lastTold JobPatch.heartbeatAt patches).or row.heartbeatAt ∧
  record.isStaleFlag = (lastTold JobPatch.isStaleFlag patches).getD row.isStaleFlag ∧
  record.progress = (lastTold JobPatch.progress patches).or row.progress ∧
  record.startedAt = row.startedAt

def PositionRecord.Amends (row : PositionRecord) (patches : List PositionPatch) (record : PositionRecord) :
    Prop :=
  record.pushedAt = (lastTold (fun p => some p.pushedAt) patches).or row.pushedAt

def SessionRecord.Amends (row : SessionRecord) (patches : List SessionPatch) (record : SessionRecord) : Prop :=
  record.totalPnl = (lastTold SessionPatch.totalPnl patches).or row.totalPnl ∧
  record.equity = (lastTold SessionPatch.equity patches).or row.equity ∧
  record.heartbeatAt = row.heartbeatAt ∧
  record.startedAt = row.startedAt

-- An optional field that each patch sets or leaves alone, and that no poll carries
-- forward.
theorem amendedBy_field (shown : ρ → Option α) (told : Patch ρ → Option α)
    (pushed : ∀ record p, shown (patch p record) = (told p).or (shown record))
    (carried : ∀ previous polled, shown (carryForward previous polled) = shown polled)
    (known : Option ρ) (row : ρ) (patches : List (Patch ρ)) :
    shown (amendedBy (known.elim row (carryForward · row)) patches) =
      (lastTold told patches).or (shown row) := by
  have law : ∀ record p, shown (patch p record) = (told p).elim (shown record) some := by
    intro record p
    rw [pushed]
    cases told p <;> rfl
  have fresh : shown (known.elim row (carryForward · row)) = shown row := by
    cases known with
    | none => rfl
    | some previous => exact carried previous row
  unfold amendedBy
  rw [foldl_lastTold shown law,fresh]
  cases lastTold told patches <;> rfl

theorem amendedBy_kept (shown : ρ → α) (pushed : ∀ record p, shown (patch p record) = shown record)
    (carried : ∀ previous polled, shown (carryForward previous polled) = shown polled)
    (known : Option ρ) (row : ρ) (patches : List (Patch ρ)) :
    shown (amendedBy (known.elim row (carryForward · row)) patches) = shown row := by
  have fresh : shown (known.elim row (carryForward · row)) = shown row := by
    cases known with
    | none => rfl
    | some previous => exact carried previous row
  unfold amendedBy
  rw [←fresh]
  generalize known.elim row (carryForward · row) = record
  induction patches generalizing record with
  | nil => rfl
  | cons p rest ih => rw [List.foldl_cons,ih,pushed]

theorem JobRecord.amends_amendedBy (known : Option JobRecord) (row : JobRecord) (patches : List JobPatch) :
    JobRecord.Amends row patches (amendedBy (known.elim row (carryForward · row)) patches) := by
  refine ⟨?_,?_,?_,?_⟩
  · exact amendedBy_field heartbeatAt JobPatch.heartbeatAt (fun _ _ => rfl) (fun _ _ => rfl) known row patches
  · have pushed : ∀ (record : JobRecord) (p : JobPatch),
        some (patch p record).isStaleFlag = p.isStaleFlag.or (some record.isStaleFlag) :=
      fun _ _ => Option.or_some.symm
    have flag := amendedBy_field (fun record : JobRecord => some record.isStaleFlag) JobPatch.isStaleFlag
      pushed (fun _ _ => rfl) known row patches
    rw [Option.or_some] at flag
    exact Option.some.inj flag
  · exact amendedBy_field progress JobPatch.progress (fun _ _ => rfl) (fun _ _ => rfl) known row patches
  · exact amendedBy_kept startedAt (fun _ _ => rfl) (fun _ _ => rfl) known row patches

theorem PositionRecord.amends_amendedBy (known : Option PositionRecord) (row : PositionRecord)
    (patches : List PositionPatch) :
    PositionRecord.Amends row patches (amendedBy (known.elim row (carryForward · row)) patches) :=
  amendedBy_field pushedAt (fun p : PositionPatch => some p.pushedAt) (fun _ _ => rfl) (fun _ _ => rfl)
    known row patches

theorem SessionRecord.amends_amendedBy (known : Option SessionRecord) (row : SessionRecord)
    (patches : List SessionPatch) :
    SessionRecord.Amends row patches (amendedBy (known.elim row (carryForward · row)) patches) := by
  refine ⟨?_,?_,?_,?_⟩
  · exact amendedBy_field totalPnl SessionPatch.totalPnl (fun _ _ => rfl) (fun _ _ => rfl) known row patches
  · exact amendedBy_field equity SessionPatch.equity (fun _ _ => rfl) (fun _ _ => rfl) known row patches
  · exact amendedBy_kept heartbeatAt (fun _ _ => rfl) (fun _ _ => rfl) known row patches
  · exact amendedBy_kept startedAt (fun _ _ => rfl) (fun _ _ => rfl) known row patches

theorem lastPoll_of_told (told : lastTold Operation.listing? log = some polled) :
    ∃ last : LastPoll log, last.polled = polled := by
  induction log with
  | nil => cases told
  | cons op rest ih =>
    rw [lastTold_cons] at told
    cases further : lastTold Operation.listing? rest with
    | some later =>
      rw [further] at told
      cases Option.some.inj told
      obtain ⟨last,same⟩ := ih further
      exact ⟨⟨op :: last.earlier,last.polled,last.now,last.since,
        congrArg (op :: ·) last.cut,last.unlisted⟩,same⟩
    | none =>
      rw [further,Option.none_or] at told
      cases op with
      | poll result now =>
        cases result with
        | ok rows =>
          cases Option.some.inj told
          exact ⟨⟨[],polled,now,rest,rfl,lastTold_none further⟩,rfl⟩
        | error fault => cases told
      | push id p now => cases told
      | evaluate now => cases told
      | channel state => cases told
      | remediation result => cases told

namespace Roster

theorem after_find? {since : List (Operation ρ)} (unlisted : ∀ op ∈ since, op.listing? = none)
    (r : Roster ρ) (id : String) :
    (r.after since).find? id =
      (r.find? id).map fun record => amendedBy record (since.filterMap (Operation.patchFor? id)) := by
  induction since generalizing r with
  | nil => simp [after_nil,amendedBy]
  | cons op rest ih =>
    have here := unlisted op List.mem_cons_self
    have further := ih (fun other member => unlisted other (List.mem_cons_of_mem _ member)) (r.perform op).1
    rw [after_cons,further,perform_find? here]
    cases amendment : op.patchFor? id with
    | none => simp [amendment]
    | some p => simp [amendment,amendedBy,Function.comp_def]

theorem amend_map {α : Type} {view : ρ → α} (kept : ∀ record p, view (patch p record) = view record) (op : Operation ρ)
    (records : List ρ) : (op.amend records).map view = records.map view := by
  cases op with
  | push id p now => exact patchFirst_map (fun record => kept record p) id records
  | poll result now => rfl
  | evaluate now => rfl
  | channel state => rfl
  | remediation result => rfl

theorem amend_ids (op : Operation ρ) (records : List ρ) :
    (op.amend records).map Monitored.id = records.map Monitored.id :=
  amend_map (fun record p => Monitored.id_patch p record) op records

theorem after_map {α : Type} {view : ρ → α} (kept : ∀ record p, view (patch p record) = view record)
    {since : List (Operation ρ)} (unlisted : ∀ op ∈ since, op.listing? = none) (r : Roster ρ) :
    (r.after since).records.map view = r.records.map view := by
  induction since generalizing r with
  | nil => rfl
  | cons op rest ih =>
    have here := unlisted op List.mem_cons_self
    have further := ih (fun other member => unlisted other (List.mem_cons_of_mem _ member)) (r.perform op).1
    rw [after_cons,further,perform_unlisted here,amend_map kept]

theorem amend_getElem?_later {records : List ρ} {i j : Nat} (op : Operation ρ) (earlier : j < i)
    (first : records[j]? = some twin) (second : records[i]? = some record)
    (same : Monitored.id twin = Monitored.id record) : (op.amend records)[i]? = some record := by
  cases op with
  | push id p now => exact patchFirst_getElem?_later p earlier first second same
  | poll result now => exact second
  | evaluate now => exact second
  | channel state => exact second
  | remediation result => exact second

theorem after_getElem?_later {since : List (Operation ρ)} (unlisted : ∀ op ∈ since, op.listing? = none)
    {r : Roster ρ} {i j : Nat} (earlier : j < i) (first : r.records[j]? = some twin)
    (second : r.records[i]? = some record) (same : Monitored.id twin = Monitored.id record) :
    (r.after since).records[i]? = some record := by
  induction since generalizing r twin with
  | nil => exact second
  | cons op rest ih =>
    have here := unlisted op List.mem_cons_self
    have ids : (r.perform op).1.records.map Monitored.id = r.records.map Monitored.id := by
      rw [perform_unlisted here,amend_ids]
    have still : ((r.perform op).1.records.map Monitored.id)[j]? = some (Monitored.id twin) := by
      rw [ids,List.getElem?_map,first]; rfl
    rw [List.getElem?_map] at still
    obtain ⟨next,found,named⟩ := Option.map_eq_some_iff.mp still
    have kept : (r.perform op).1.records[i]? = some record := by
      rw [perform_unlisted here]
      exact amend_getElem?_later op earlier first second same
    exact ih (fun other member => unlisted other (List.mem_cons_of_mem _ member)) found kept (named.trans same)

theorem after_cut (last : LastPoll log) (start : Roster ρ) :
    start.after log =
      ((start.after last.earlier).perform (.poll (.ok last.polled) last.now)).1.after last.since := by
  rw [←after_cons,←after_append]
  exact congrArg start.after last.cut

theorem after_first (last : LastPoll log) (start : Roster ρ) {id : String} {row : ρ}
    (first : last.polled.find? (fun row => Monitored.id row == id) = some row) :
    (start.after log).find? id = some (amendedBy (last.carried start row) (last.patches id)) := by
  rw [after_cut last,after_find? last.unlisted,find?_eq,perform_listing rfl,find?_admitted,first,
    Option.map_some,Option.map_some,admitted_eq]
  rfl

theorem after_others (last : LastPoll log) (start : Roster ρ) {i j : Nat} {row twin : ρ} (earlier : j < i)
    (first : last.polled[j]? = some twin) (second : last.polled[i]? = some row)
    (same : Monitored.id twin = Monitored.id row) :
    (start.after log).records[i]? = some (last.carried start row) := by
  let before := start.after last.earlier
  have carried : last.carried start row = before.admitted row := (before.admitted_eq row).symm
  rw [after_cut last,carried]
  have admitted {k : Nat} {polled : ρ} (found : last.polled[k]? = some polled) :
      (before.perform (.poll (.ok last.polled) last.now)).1.records[k]? = some (before.admitted polled) := by
    rw [perform_listing rfl,List.getElem?_map,found]; rfl
  refine after_getElem?_later last.unlisted earlier (admitted first) (admitted second) ?_
  rw [id_admitted,id_admitted,same]

theorem after_ids (start : Roster ρ) (log : List (Operation ρ)) :
    (start.after log).records.map Monitored.id =
      (lastTold Operation.listing? log).elim (start.records.map Monitored.id) (List.map Monitored.id) := by
  refine foldl_lastTold (fun r : Roster ρ => r.records.map Monitored.id) ?_ start log
  intro r op
  cases listing : op.listing? with
  | some polled => rw [perform_listing listing,ids_admitted]; rfl
  | none => rw [perform_unlisted listing,amend_ids]; rfl

theorem after_channel (start : Roster ρ) (log : List (Operation ρ)) :
    (start.after log).channel = (lastTold Operation.channel? log).elim start.channel fun state => state :=
  foldl_lastTold Roster.channel (fun r op => (perform_follows r op).channel) start log

theorem after_lastPollAt (start : Roster ρ) (log : List (Operation ρ)) :
    (start.after log).lastPollAt = (lastTold Operation.listedAt? log).elim start.lastPollAt some :=
  foldl_lastTold Roster.lastPollAt (fun r op => (perform_follows r op).lastPollAt) start log

theorem after_lastPollError (start : Roster ρ) (log : List (Operation ρ)) :
    (start.after log).lastPollError =
      (lastTold Operation.pollResult? log).elim start.lastPollError faultText? :=
  foldl_lastTold Roster.lastPollError (fun r op => (perform_follows r op).lastPollError) start log

theorem after_lastRemediationError (start : Roster ρ) (log : List (Operation ρ)) :
    (start.after log).lastRemediationError =
      (lastTold Operation.cleanupResult? log).elim start.lastRemediationError faultText? :=
  foldl_lastTold Roster.lastRemediationError
    (fun r op => (perform_follows r op).lastRemediationError) start log

end Roster

theorem faultText?_last {told : Option (Except Fault α)} {text : String} :
    told.elim none faultText? = some text ↔ ∃ fault, told = some (.error fault) ∧ text = fault.message := by
  cases told with
  | none => simp
  | some result =>
    cases result with
    | ok done => simp [faultText?]
    | error fault => simp [faultText?,eq_comm]

-- The law is what the type of the records has to say: how patches amend a row that
-- was held against its predecessor.
theorem fresh_replays {amends : ρ → List (Patch ρ) → ρ → Prop}
    (law : ∀ (known : Option ρ) row patches,
      amends row patches (amendedBy (known.elim row (carryForward · row)) patches))
    (collection : Collection) (staleAfter : Int64) (log : List (Operation ρ)) :
    Replays amends (.fresh collection staleAfter) log := by
  let start : Roster ρ := .fresh collection staleAfter
  refine ⟨?_,?_,?_,?_,?_,?_⟩
  · rw [Roster.after_ids]
    cases lastTold Operation.listing? log <;> rfl
  · intro polled told
    obtain ⟨last,same⟩ := lastPoll_of_told told
    refine ⟨last,same,?_,?_⟩
    · intro id row first
      exact ⟨_,Roster.after_first last start first,rfl,law _ row _⟩
    · intro i j row twin earlier first second same
      exact Roster.after_others last start earlier first second same
  · rw [Roster.after_channel]
    cases lastTold Operation.channel? log <;> rfl
  · rw [Roster.after_lastPollAt]
    cases lastTold Operation.listedAt? log <;> rfl
  · intro text
    rw [Roster.after_lastPollError]
    exact faultText?_last
  · intro text
    rw [Roster.after_lastRemediationError]
    exact faultText?_last

-- Nothing but the log decides what a roster shows: the last successful poll which
-- records there are, and the pushes since then what is added to them.
theorem log_decides_roster (collection : Collection) (staleAfter : Int64) :
    (∀ log : List (Operation JobRecord), Replays JobRecord.Amends (.fresh collection staleAfter) log) ∧
    (∀ log : List (Operation PositionRecord),
      Replays PositionRecord.Amends (.fresh collection staleAfter) log) ∧
    (∀ log : List (Operation SessionRecord),
      Replays SessionRecord.Amends (.fresh collection staleAfter) log) :=
  ⟨fresh_replays JobRecord.amends_amendedBy collection staleAfter,
    fresh_replays PositionRecord.amends_amendedBy collection staleAfter,
    fresh_replays SessionRecord.amends_amendedBy collection staleAfter⟩

end RunWatch
