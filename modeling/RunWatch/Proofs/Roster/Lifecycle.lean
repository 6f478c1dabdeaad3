import RunWatch.Proofs.Roster.Records
import RunWatch.Records.Job
import RunWatch.Records.Session
namespace RunWatch
open Monitored (Patch patch carryForward)

theorem JobStatus.advance_terminal {status : JobStatus} (ended : status.terminal) (reported : JobStatus) :
    (status.advance reported).terminal := by
  unfold advance
  split
  · rename_i accepted
    simpa [accepts,ended] using accepted
  · exact ended

class Ending (ρ : Type) extends Monitored ρ where
  ended : ρ → Bool
  patch_ended : ∀ p r, ended r → ended (patch p r)
  carryForward_ended : ∀ previous polled, ended previous → ended (carryForward previous polled)

instance : Ending JobRecord where
  ended r := r.status.terminal
  patch_ended p r ended := by
    change ((p.status.map r.status.advance).getD r.status).terminal
    cases p.status with
    | none => exact ended
    | some reported => exact JobStatus.advance_terminal ended reported
  carryForward_ended _ polled ended := JobStatus.advance_terminal ended polled.status

instance : Ending SessionRecord where
  ended r := r.status.terminal
  patch_ended _ _ ended := ended
  carryForward_ended _ polled ended := JobStatus.advance_terminal ended polled.status

def KeepsListing [Monitored ρ] (id : String) (run : List (Operation ρ)) : Prop :=
  ∀ op ∈ run, ∀ polled, op.listing? = some polled → ∃ row ∈ polled, Monitored.id row = id

theorem KeepsListing.tail [Monitored ρ] {id : String} {op : Operation ρ} {rest : List (Operation ρ)}
    (listed : KeepsListing id (op :: rest)) : KeepsListing id rest :=
  fun other member => listed other (List.mem_cons_of_mem _ member)

namespace Roster

def Ended [Monitored ρ] (ended : ρ → Bool) (r : Roster ρ) (id : String) : Prop :=
  ∃ record, r.find? id = some record ∧ ended record

def AllEnded [Monitored ρ] (ended : ρ → Bool) (r : Roster ρ) (id : String) : Prop :=
  ∀ record ∈ r.records, Monitored.id record = id → ended record

def Lasts [Monitored ρ] (ended : ρ → Bool) (r : Roster ρ) (id : String) : Prop :=
  ∀ later : List (Operation ρ), KeepsListing id later →
    (r.after later).Ended ended id ∧
      ((∃ op ∈ later, op.listing?.isSome) → (r.after later).AllEnded ended id)

open Ending (ended patch_ended carryForward_ended)
variable {ρ : Type} [Ending ρ] {r : Roster ρ} {op : Operation ρ} {id : String}

theorem admitted_ended {row : ρ} (old : r.Ended ended id) (listed : Monitored.id row = id) :
    ended (r.admitted row) := by
  obtain ⟨record,found,done⟩ := old
  rw [admitted_eq,listed,found]
  exact carryForward_ended record row done

-- Every new copy is held against the one record that is looked up, so all of them
-- end with it.
theorem listing_allEnded (old : r.Ended ended id) (listing : op.listing? = some polled) :
    (r.perform op).1.AllEnded ended id := by
  intro record present named
  rw [perform_listing listing] at present
  obtain ⟨row,_,rfl⟩ := List.mem_map.mp present
  exact admitted_ended old ((r.id_admitted row).symm.trans named)

theorem listing_ended (old : r.Ended ended id) (listing : op.listing? = some polled)
    (listed : ∃ row ∈ polled, Monitored.id row = id) : (r.perform op).1.Ended ended id := by
  obtain ⟨row,present,named⟩ := listed
  have some_row : (polled.find? fun row => Monitored.id row == id).isSome := by
    rw [List.find?_isSome]
    exact ⟨row,present,by simp [named]⟩
  obtain ⟨first,found⟩ := Option.isSome_iff_exists.mp some_row
  refine ⟨r.admitted first,?_,admitted_ended old ?_⟩
  · rw [find?_eq,perform_listing listing,find?_admitted,found]; rfl
  · have matching := List.find?_some found
    exact eq_of_beq matching

theorem perform_ended (old : r.Ended ended id)
    (listed : ∀ polled, op.listing? = some polled → ∃ row ∈ polled, Monitored.id row = id) :
    (r.perform op).1.Ended ended id := by
  cases listing : op.listing? with
  | some polled => exact listing_ended old listing (listed polled listing)
  | none =>
    obtain ⟨record,found,done⟩ := old
    unfold Ended
    rw [perform_find? listing,found]
    cases op.patchFor? id with
    | none => exact ⟨record,rfl,done⟩
    | some p => exact ⟨patch p record,rfl,patch_ended p record done⟩

theorem perform_allEnded (first : r.Ended ended id) (all : r.AllEnded ended id) :
    (r.perform op).1.AllEnded ended id := by
  cases listing : op.listing? with
  | some polled => exact listing_allEnded first listing
  | none =>
    intro record present named
    rw [perform_unlisted listing] at present
    rcases mem_amend present with kept | ⟨p,old,member,rfl⟩
    · exact all record kept named
    · have same : Monitored.id old = id := (Monitored.id_patch p old).symm.trans named
      exact patch_ended p old (all old member same)

theorem after_ended {run : List (Operation ρ)} (old : r.Ended ended id) (listed : KeepsListing id run) :
    (r.after run).Ended ended id := by
  induction run generalizing r with
  | nil => exact old
  | cons op rest ih => exact ih (perform_ended old (listed op List.mem_cons_self)) listed.tail

theorem after_allEnded {run : List (Operation ρ)} (first : r.Ended ended id) (all : r.AllEnded ended id)
    (listed : KeepsListing id run) : (r.after run).AllEnded ended id := by
  induction run generalizing r with
  | nil => exact all
  | cons op rest ih =>
    exact ih (perform_ended first (listed op List.mem_cons_self)) (perform_allEnded first all) listed.tail

-- Records that were listed twice before the first of them ended may still be live,
-- until a poll lists them again.
theorem after_listing_allEnded {run : List (Operation ρ)} (first : r.Ended ended id)
    (listed : KeepsListing id run) (some_listing : ∃ op ∈ run, op.listing?.isSome) :
    (r.after run).AllEnded ended id := by
  induction run generalizing r with
  | nil =>
    obtain ⟨op,member,_⟩ := some_listing
    cases member
  | cons op rest ih =>
    have next := perform_ended first (listed op List.mem_cons_self)
    cases listing : op.listing? with
    | some polled =>
      rw [after_cons]
      exact after_allEnded next (listing_allEnded first listing) listed.tail
    | none =>
      refine ih next listed.tail ?_
      obtain ⟨other,member,listing_other⟩ := some_listing
      rcases List.mem_cons.mp member with rfl | later
      · rw [listing] at listing_other; cases listing_other
      · exact ⟨other,later,listing_other⟩

theorem ended_lasts (old : r.Ended ended id) : r.Lasts ended id :=
  fun _ listed => ⟨after_ended old listed,after_listing_allEnded old listed⟩

theorem terminal_status_lasts :
    (∀ (r : Roster JobRecord) (id : String) (record : JobRecord), r.find? id = some record →
      record.status.terminal → r.Lasts (fun record => record.status.terminal) id) ∧
    (∀ (r : Roster SessionRecord) (id : String) (record : SessionRecord), r.find? id = some record →
      record.status.terminal → r.Lasts (fun record => record.status.terminal) id) :=
  ⟨fun _ _ record found done => ended_lasts ⟨record,found,done⟩,
    fun _ _ record found done => ended_lasts ⟨record,found,done⟩⟩

theorem cancelled_twin_lasts :
    let live : JobRecord := ⟨"a","train",.running,none,none,false,none⟩
    let listing : Operation JobRecord := .poll (.ok [live,live]) 0
    let cancel : Operation JobRecord := .push "a" { status:=some .cancelled } 1
    let r := (fresh .jobs 60000).after [listing,cancel]
    r.records.map JobRecord.status = [.cancelled,.running] ∧
    (r.after [listing]).Ended (fun record => record.status.terminal) "a" ∧
    (r.after [listing]).AllEnded (fun record => record.status.terminal) "a" := by
  intro live listing cancel r
  have found : r.find? "a" = some { live with status:=.cancelled } := by rfl
  have lasts := terminal_status_lasts.1 r "a" _ found rfl
  obtain ⟨first,all⟩ := lasts [listing] (by
    intro op member polled listed
    cases List.mem_singleton.mp member
    cases Option.some.inj listed
    exact ⟨live,List.mem_cons_self,rfl⟩)
  exact ⟨rfl,first,all ⟨listing,List.mem_cons_self,rfl⟩⟩

end Roster
end RunWatch
