import RunWatch.Roster.Operation
namespace RunWatch
open Monitored (Patch patch carryForward id_patch id_carryForward)
variable {ρ : Type} [Monitored ρ] {id : String} {record twin : ρ}

namespace Operation

def pollResult? : Operation ρ → Option (Except Fault (List ρ))
  | .poll result _ => some result
  | _ => none

def listedAt? : Operation ρ → Option Int64
  | .poll (.ok _) now => some now
  | _ => none

def channel? : Operation ρ → Option ChannelState
  | .channel state => some state
  | _ => none

def cleanupResult? : Operation ρ → Option (Except Fault Unit)
  | .remediation result => some result
  | _ => none

def listing? : Operation ρ → Option (List ρ)
  | .poll (.ok polled) _ => some polled
  | _ => none

def patchFor? (id : String) : Operation ρ → Option (Patch ρ)
  | .push named p _ => if named = id then some p else none
  | _ => none

def amend : Operation ρ → List ρ → List ρ
  | .push id p _, records => Roster.patchFirst id p records
  | _, records => records

end Operation

def faultText? : Except Fault α → Option String
  | .ok _ => none
  | .error fault => some fault.message

namespace Roster

section
omit [Monitored ρ]

theorem setChannel_fst (r : Roster ρ) (state : ChannelState) :
    (r.setChannel state).1 =
      { r with channel:=state, revision:=if r.channel = state then r.revision else r.revision + 1 } := by
  unfold setChannel
  split
  · rename_i same
    subst same
    simp
  · simp

theorem setChannel_same {r : Roster ρ} (unchanged : (r.setChannel state).2 = false) :
    (r.setChannel state).1 = r := by
  unfold setChannel at unchanged ⊢
  split at unchanged
  · rename_i same
    rw [if_pos same]
  · cases unchanged

theorem recordRemediation_eq (r : Roster ρ) (result : Except Fault Unit) :
    r.recordRemediation result =
      { r with
        lastRemediationError:=faultText? result
        revision:=if faultText? result = none ∧ r.lastRemediationError = none then r.revision
          else r.revision + 1 } := by
  cases result with
  | error fault => simp [recordRemediation,remediationFailed,faultText?]
  | ok done =>
    obtain ⟨_,_,_,_,_,_,_,pending,_⟩ := r
    cases pending with
    | none => simp [recordRemediation,remediationSucceeded,faultText?]
    | some text => simp [recordRemediation,remediationSucceeded,faultText?]

end

theorem find?_eq (r : Roster ρ) (id : String) :
    r.find? id = r.records.find? fun record => Monitored.id record == id := rfl

theorem find?_isSome (r : Roster ρ) (id : String) :
    (r.find? id).isSome ↔ id ∈ r.records.map Monitored.id := by
  simp only [find?_eq,List.find?_isSome,beq_iff_eq,List.mem_map]

theorem admitted_eq (r : Roster ρ) (polled : ρ) :
    r.admitted polled = (r.find? (Monitored.id polled)).elim polled (carryForward · polled) := by
  unfold admitted
  cases r.find? (Monitored.id polled) <;> rfl

theorem id_admitted (r : Roster ρ) (polled : ρ) : Monitored.id (r.admitted polled) = Monitored.id polled := by
  rw [admitted_eq]
  cases r.find? (Monitored.id polled) with
  | none => rfl
  | some previous => exact id_carryForward previous polled

theorem ids_admitted (r : Roster ρ) (polled : List ρ) :
    (polled.map r.admitted).map Monitored.id = polled.map Monitored.id := by
  rw [List.map_map]
  exact List.map_congr_left fun row _ => r.id_admitted row

theorem find?_admitted (r : Roster ρ) (polled : List ρ) (id : String) :
    (polled.map r.admitted).find? (fun record => Monitored.id record == id) =
      (polled.find? fun record => Monitored.id record == id).map r.admitted := by
  rw [List.find?_map]
  congr 2
  funext row
  simp only [Function.comp_apply,id_admitted]

theorem patchFirst_map {α : Type} {p : Patch ρ} {view : ρ → α} (kept : ∀ record, view (patch p record) = view record)
    (id : String) (records : List ρ) : (patchFirst id p records).map view = records.map view := by
  induction records with
  | nil => rfl
  | cons record rest ih =>
    unfold patchFirst
    split
    · simp only [List.map_cons,kept]
    · simp only [List.map_cons,ih]

theorem patchFirst_ids (id : String) (p : Patch ρ) (records : List ρ) :
    (patchFirst id p records).map Monitored.id = records.map Monitored.id :=
  patchFirst_map (id_patch p) id records

theorem patchFirst_find? (id : String) (p : Patch ρ) (records : List ρ) :
    (patchFirst id p records).find? (fun record => Monitored.id record == id) =
      (records.find? fun record => Monitored.id record == id).map (patch p) := by
  induction records with
  | nil => rfl
  | cons record rest ih =>
    by_cases named : Monitored.id record == id
    · simp [patchFirst,named,id_patch]
    · simp [patchFirst,named,ih]

theorem patchFirst_find?_other {id other : String} (distinct : id ≠ other) (p : Patch ρ) (records : List ρ) :
    (patchFirst id p records).find? (fun record => Monitored.id record == other) =
      records.find? fun record => Monitored.id record == other := by
  induction records with
  | nil => rfl
  | cons record rest ih =>
    by_cases named : Monitored.id record == id
    · have unmatched : ¬ id = other := distinct
      simp [patchFirst,id_patch,eq_of_beq named,unmatched]
    · simp [patchFirst,named,List.find?_cons,ih]

-- An amendment of an unknown record leaves the list as it is, which is why a push
-- need not ask first.
theorem patchFirst_unknown {records : List ρ} (p : Patch ρ)
    (unknown : records.find? (fun record => Monitored.id record == id) = none) :
    patchFirst id p records = records := by
  induction records with
  | nil => rfl
  | cons record rest ih =>
    rw [List.find?_cons] at unknown
    split at unknown
    · cases unknown
    · rename_i named
      simp [patchFirst,named,ih unknown]

theorem patchFirst_at {earlier later : List ρ} (p : Patch ρ) (others : ∀ other ∈ earlier, Monitored.id other ≠ id)
    (named : Monitored.id record = id) :
    patchFirst id p (earlier ++ record :: later) = earlier ++ patch p record :: later := by
  induction earlier with
  | nil => simp [patchFirst,named]
  | cons head rest ih =>
    have further := ih fun other member => others other (List.mem_cons_of_mem head member)
    simp [patchFirst,others head List.mem_cons_self,further]

theorem patchFirst_getElem?_other {records : List ρ} {i : Nat} (p : Patch ρ)
    (found : records[i]? = some record) (distinct : Monitored.id record ≠ id) :
    (patchFirst id p records)[i]? = some record := by
  induction records generalizing i with
  | nil => cases found
  | cons head rest ih =>
    cases i with
    | zero =>
      cases Option.some.inj found
      simp [patchFirst,distinct]
    | succ i =>
      have kept : rest[i]? = some record := found
      by_cases named : Monitored.id head == id
      · simpa [patchFirst,named] using kept
      · simpa [patchFirst,named] using ih kept

theorem patchFirst_getElem?_later {records : List ρ} {i j : Nat} (p : Patch ρ) (earlier : j < i)
    (first : records[j]? = some twin) (second : records[i]? = some record)
    (same : Monitored.id twin = Monitored.id record) : (patchFirst id p records)[i]? = some record := by
  induction records generalizing i j with
  | nil => cases second
  | cons head rest ih =>
    cases i with
    | zero => cases earlier
    | succ i =>
      have kept : rest[i]? = some record := second
      by_cases named : Monitored.id head == id
      · simpa [patchFirst,named] using kept
      · cases j with
        | zero =>
          cases Option.some.inj first
          have distinct : Monitored.id record ≠ id := by simpa [same] using named
          exact patchFirst_getElem?_other p second distinct
        | succ j =>
          have sooner : j < i := Nat.lt_of_succ_lt_succ earlier
          simpa [patchFirst,named] using ih sooner first kept

theorem patchFirst_getElem? (id : String) (p : Patch ρ) (records : List ρ) (i : Nat) :
    (patchFirst id p records)[i]? = records[i]? ∨
      ∃ record, records[i]? = some record ∧ Monitored.id record = id ∧
        (patchFirst id p records)[i]? = some (patch p record) := by
  induction records generalizing i with
  | nil => exact Or.inl rfl
  | cons head rest ih =>
    by_cases named : Monitored.id head == id
    · cases i with
      | zero => exact Or.inr ⟨head,rfl,eq_of_beq named,by simp [patchFirst,named]⟩
      | succ i => exact Or.inl (by simp [patchFirst,named])
    · cases i with
      | zero => exact Or.inl (by simp [patchFirst,named])
      | succ i => simpa [patchFirst,named] using ih i

theorem mem_patchFirst {records : List ρ} {p : Patch ρ} (present : record ∈ patchFirst id p records) :
    record ∈ records ∨ ∃ old ∈ records, record = patch p old := by
  induction records with
  | nil => exact Or.inl present
  | cons head rest ih =>
    unfold patchFirst at present
    split at present
    · rcases List.mem_cons.mp present with amended | kept
      · exact Or.inr ⟨head,List.mem_cons_self,amended⟩
      · exact Or.inl (List.mem_cons_of_mem _ kept)
    · rcases List.mem_cons.mp present with same | further
      · exact Or.inl (List.mem_cons.mpr (Or.inl same))
      · rcases ih further with kept | ⟨old,member,amended⟩
        · exact Or.inl (List.mem_cons_of_mem _ kept)
        · exact Or.inr ⟨old,List.mem_cons_of_mem _ member,amended⟩

theorem mem_amend {op : Operation ρ} {records : List ρ} (present : record ∈ op.amend records) :
    record ∈ records ∨ ∃ p, ∃ old ∈ records, record = patch p old := by
  cases op with
  | push named p now =>
    rcases mem_patchFirst present with kept | amended
    · exact Or.inl kept
    · exact Or.inr ⟨p,amended⟩
  | poll result now => exact Or.inl present
  | evaluate now => exact Or.inl present
  | channel state => exact Or.inl present
  | remediation result => exact Or.inl present

theorem applyPush_unknown {r : Roster ρ} (unknown : r.find? id = none) (p : Patch ρ) (now : Int64) :
    r.applyPush id p now = (r,none) := by
  simp [applyPush,unknown]

theorem applyPush_known {r : Roster ρ} (known : r.find? id = some record) (p : Patch ρ) (now : Int64) :
    r.applyPush id p now =
      let amended := { r with records:=patchFirst id p r.records, revision:=r.revision + 1 }
      ((amended.evaluate now).1,some (amended.evaluate now).2) := by
  simp [applyPush,known]

theorem applyPush_records (r : Roster ρ) (id : String) (p : Patch ρ) (now : Int64) :
    (r.applyPush id p now).1.records = patchFirst id p r.records := by
  cases known : r.find? id with
  | none =>
    rw [applyPush_unknown known]
    exact (patchFirst_unknown p known).symm
  | some record => rw [applyPush_known known]; rfl

structure Follows (r : Roster ρ) (op : Operation ρ) (next : Roster ρ) : Prop where
  collection : next.collection = r.collection
  staleAfter : next.staleAfter = r.staleAfter
  channel : next.channel = op.channel?.elim r.channel fun state => state
  lastPollAt : next.lastPollAt = op.listedAt?.elim r.lastPollAt some
  lastPollError : next.lastPollError = op.pollResult?.elim r.lastPollError faultText?
  lastRemediationError : next.lastRemediationError = op.cleanupResult?.elim r.lastRemediationError faultText?

theorem perform_follows (r : Roster ρ) (op : Operation ρ) : Follows r op (r.perform op).1 := by
  cases op with
  | poll result now => cases result <;> exact ⟨rfl,rfl,rfl,rfl,rfl,rfl⟩
  | push id p now =>
    cases known : r.find? id with
    | none =>
      simp only [perform,applyPush_unknown known]
      exact ⟨rfl,rfl,rfl,rfl,rfl,rfl⟩
    | some record =>
      simp only [perform,applyPush_known known]
      exact ⟨rfl,rfl,rfl,rfl,rfl,rfl⟩
  | evaluate now => exact ⟨rfl,rfl,rfl,rfl,rfl,rfl⟩
  | channel state =>
    simp only [perform,setChannel_fst]
    exact ⟨rfl,rfl,rfl,rfl,rfl,rfl⟩
  | remediation result =>
    simp only [perform,recordRemediation_eq]
    exact ⟨rfl,rfl,rfl,rfl,rfl,rfl⟩

theorem perform_revision (r : Roster ρ) (op : Operation ρ) :
    (r.perform op).1.revision = r.revision ∨ (r.perform op).1.revision = r.revision + 1 := by
  cases op with
  | poll result now => cases result <;> exact Or.inr rfl
  | push id p now =>
    cases known : r.find? id with
    | none => exact Or.inl (by simp only [perform,applyPush_unknown known])
    | some record =>
      simp only [perform,applyPush_known known]
      exact Or.inr rfl
  | evaluate now => exact Or.inl rfl
  | channel state =>
    simp only [perform,setChannel_fst]
    split
    · exact Or.inl rfl
    · exact Or.inr rfl
  | remediation result =>
    simp only [perform,recordRemediation_eq]
    split
    · exact Or.inl rfl
    · exact Or.inr rfl

theorem perform_listing {r : Roster ρ} {op : Operation ρ} (listing : op.listing? = some polled) :
    (r.perform op).1.records = polled.map r.admitted := by
  cases op with
  | poll result now =>
    cases result with
    | ok rows => cases Option.some.inj listing; rfl
    | error fault => cases listing
  | push named p now => cases listing
  | evaluate now => cases listing
  | channel state => cases listing
  | remediation result => cases listing

theorem perform_unlisted {r : Roster ρ} {op : Operation ρ} (unlisted : op.listing? = none) :
    (r.perform op).1.records = op.amend r.records := by
  cases op with
  | poll result now =>
    cases result with
    | ok rows => cases unlisted
    | error fault => rfl
  | push named p now => exact r.applyPush_records named p now
  | evaluate now => rfl
  | channel state => rw [perform,setChannel_fst]; rfl
  | remediation result => rw [perform,recordRemediation_eq]; rfl

theorem perform_find? {r : Roster ρ} {op : Operation ρ} (unlisted : op.listing? = none) (id : String) :
    (r.perform op).1.find? id = (op.patchFor? id).elim (r.find? id) fun p => (r.find? id).map (patch p) := by
  rw [find?_eq,perform_unlisted unlisted]
  cases op with
  | push named p now =>
    by_cases same : named = id
    · subst named
      simp [Operation.amend,Operation.patchFor?,patchFirst_find?,find?_eq]
    · simp [Operation.amend,Operation.patchFor?,same,patchFirst_find?_other same,find?_eq]
  | poll result now => rfl
  | evaluate now => rfl
  | channel state => rfl
  | remediation result => rfl

theorem after_nil (r : Roster ρ) : r.after [] = r := rfl

theorem after_cons (r : Roster ρ) (op : Operation ρ) (rest : List (Operation ρ)) :
    r.after (op :: rest) = (r.perform op).1.after rest := rfl

theorem after_append (r : Roster ρ) (earlier later : List (Operation ρ)) :
    r.after (earlier ++ later) = (r.after earlier).after later := List.foldl_append

end Roster
end RunWatch
