import Mathlib.Data.List.Nodup
import RunWatch.Proofs.Session.Cleanups
namespace RunWatch.Session

-- Where the cleanups of a session stand. The directives to fire are numbered in order,
-- and the cleanup for each has its number as its id.
structure Ledger (s : Monitor) (fires : List Collection) (calls : List (Collection × Nat))
    (endings : List Ending) (abandoned : List Nat) : Prop where
  count : s.cleanupCount = fires.length
  attempts : (s.cleanups.map Cleanup.id ++ endings.map (fun e => e.task.id) ++ abandoned).Perm
    (List.range fires.length)
  pending : ∀ task ∈ s.cleanups, fires[task.id]? = some task.collection
  called : ∀ task ∈ s.cleanups, task.calling = true ↔ (task.collection,task.id) ∈ calls
  once : (calls.map Prod.snd).Nodup
  caused : ∀ call ∈ calls, fires[call.2]? = some call.1
  ended : ∀ e ∈ endings, (e.task.collection,e.task.id) ∈ calls

theorem ids_remove {tasks : List Cleanup} (unique : (tasks.map Cleanup.id).Nodup) (member : task ∈ tasks) :
    (tasks.map Cleanup.id).Perm
      (task.id :: (tasks.filter fun other => other.id != task.id).map Cleanup.id) := by
  have rest : (tasks.filter fun other => other.id != task.id).map Cleanup.id =
      (tasks.map Cleanup.id).erase task.id := by
    rw [unique.erase_eq_filter,List.filter_map]
    rfl
  rw [rest]
  exact List.perm_cons_erase (List.mem_map_of_mem member)

namespace Ledger

variable {s next : Monitor} {fires : List Collection} {calls : List (Collection × Nat)}
  {endings : List Ending} {abandoned : List Nat}

theorem start (settings : Settings) (m : Moment) : Ledger (Monitor.start settings m).1 [] [] [] [] where
  count := rfl
  attempts := .nil
  pending _ member := nomatch member
  called _ member := nomatch member
  once := .nil
  caused _ member := nomatch member
  ended _ member := nomatch member

theorem unique (ledger : Ledger s fires calls endings abandoned) : (s.cleanups.map Cleanup.id).Nodup := by
  have all := ledger.attempts.nodup_iff.mpr List.nodup_range
  exact (List.nodup_append.mp (List.nodup_append.mp all).1).1

theorem find (ledger : Ledger s fires calls endings abandoned) (member : task ∈ s.cleanups) :
    s.cleanup? task.id = some task := by
  unfold Monitor.cleanup?
  cases found : s.cleanups.find? fun other => other.id == task.id with
  | none => exact absurd (List.find?_eq_none.mp found task member) (by simp)
  | some other =>
    obtain ⟨listed,same⟩ := cleanup?_some found
    rw [List.inj_on_of_nodup_map ledger.unique listed member same]

theorem begun (ledger : Ledger s fires calls endings abandoned) (c : Collection) (awaited : Bool)
    (cleanups : next.cleanups = s.cleanups ++ [⟨s.cleanupCount,c,awaited,false⟩])
    (count : next.cleanupCount = s.cleanupCount + 1) :
    Ledger next (fires ++ [c]) calls endings abandoned := by
  have kept : ∀ (id : Nat) d, fires[id]? = some d → (fires ++ [c])[id]? = some d := by
    intro id d known
    rw [List.getElem?_append_left (List.getElem?_eq_some_iff.mp known).1]
    exact known
  refine ⟨?_,?_,?_,?_,ledger.once,?_,ledger.ended⟩
  · rw [count,ledger.count,List.length_append]; rfl
  · have attempts := ledger.attempts
    rw [List.length_append,List.length_singleton,List.range_succ,cleanups,ledger.count]
    rw [List.perm_iff_count] at attempts ⊢
    intro id
    have balance := attempts id
    simp only [List.map_append,List.map_cons,List.map_nil,List.count_append] at balance ⊢
    omega
  · intro task member
    rw [cleanups] at member
    rcases List.mem_append.mp member with earlier | latest
    · exact kept _ _ (ledger.pending task earlier)
    · cases List.mem_singleton.mp latest
      rw [ledger.count]
      exact List.getElem?_concat_length
  · intro task member
    rw [cleanups] at member
    rcases List.mem_append.mp member with earlier | latest
    · exact ledger.called task earlier
    · cases List.mem_singleton.mp latest
      refine ⟨nofun,fun called => ?_⟩
      have known := ledger.caused _ called
      rw [ledger.count,List.getElem?_eq_none (Nat.le_refl _)] at known
      cases known
  · intro call member
    exact kept _ _ (ledger.caused call member)

theorem call (ledger : Ledger s fires calls endings abandoned) {id : Nat} (found : s.cleanup? id = some task)
    (uncalled : task.calling = false)
    (cleanups : next.cleanups = s.cleanups.map fun t => if t.id = id then { t with calling:=true } else t)
    (count : next.cleanupCount = s.cleanupCount) :
    Ledger next fires (calls ++ [(task.collection,id)]) endings abandoned := by
  obtain ⟨member,rfl⟩ := cleanup?_some found
  have fresh : task.id ∉ calls.map Prod.snd := by
    intro earlier
    obtain ⟨⟨c,id⟩,called,rfl⟩ := List.mem_map.mp earlier
    have same : c = task.collection :=
      Option.some.inj ((ledger.caused _ called).symm.trans (ledger.pending task member))
    subst same
    rw [(ledger.called task member).mpr called] at uncalled
    cases uncalled
  have ids : next.cleanups.map Cleanup.id = s.cleanups.map Cleanup.id := by
    rw [cleanups,List.map_map]
    refine List.map_congr_left fun t _ => ?_
    simp only [Function.comp_apply]
    split <;> rfl
  have origin : ∀ t ∈ next.cleanups, ∃ old ∈ s.cleanups, t.id = old.id ∧ t.collection = old.collection ∧
      t.calling = if old.id = task.id then true else old.calling := by
    intro t listed
    rw [cleanups] at listed
    obtain ⟨old,earlier,rfl⟩ := List.mem_map.mp listed
    refine ⟨old,earlier,?_⟩
    by_cases same : old.id = task.id <;> simp [same]
  refine ⟨count.trans ledger.count,?_,?_,?_,?_,?_,?_⟩
  · rw [ids]; exact ledger.attempts
  · intro t listed
    obtain ⟨old,earlier,id,collection,_⟩ := origin t listed
    rw [id,collection]
    exact ledger.pending old earlier
  · intro t listed
    obtain ⟨old,earlier,id,collection,calling⟩ := origin t listed
    rw [id,collection,calling,List.mem_append,List.mem_singleton]
    by_cases same : old.id = task.id
    · have twin : old = task := List.inj_on_of_nodup_map ledger.unique earlier member same
      subst twin
      simp
    · simp [same,ledger.called old earlier]
  · rw [List.map_append]
    refine List.nodup_append.mpr ⟨ledger.once,List.nodup_singleton _,?_⟩
    rintro id earlier _ latest rfl
    rw [List.map_cons,List.map_nil,List.mem_singleton] at latest
    rw [latest] at earlier
    exact fresh earlier
  · intro call listed
    rcases List.mem_append.mp listed with earlier | latest
    · exact ledger.caused call earlier
    · cases List.mem_singleton.mp latest
      exact ledger.pending task member
  · intro e listed
    exact List.mem_append_left _ (ledger.ended e listed)

theorem remove (ledger : Ledger s fires calls endings abandoned) {id : Nat} (found : s.cleanup? id = some task)
    (cleanups : next.cleanups = s.cleanups.filter fun other => other.id != task.id)
    (count : next.cleanupCount = s.cleanupCount) (ended : List Ending) (dropped : List Nat)
    (moved : ended.map (fun e => e.task.id) ++ dropped = [id])
    (called : ∀ e ∈ ended, (e.task.collection,e.task.id) ∈ calls) :
    Ledger next fires calls (endings ++ ended) (abandoned ++ dropped) := by
  obtain ⟨member,rfl⟩ := cleanup?_some found
  have kept : ∀ t ∈ next.cleanups, t ∈ s.cleanups := by
    intro t listed
    rw [cleanups] at listed
    exact List.mem_of_mem_filter listed
  refine ⟨count.trans ledger.count,?_,?_,?_,ledger.once,ledger.caused,?_⟩
  · have attempts := ledger.attempts
    have removed := ids_remove ledger.unique member
    rw [← cleanups] at removed
    rw [List.perm_iff_count] at attempts removed ⊢
    intro id
    have balance := attempts id
    have moved := congrArg (List.count id) moved
    rw [List.count_append,List.count_append,removed id,List.count_cons] at balance
    simp only [List.map_append,List.count_append,List.count_cons,List.count_nil] at moved ⊢
    omega
  · exact fun t listed => ledger.pending t (kept t listed)
  · exact fun t listed => ledger.called t (kept t listed)
  · intro e listed
    rcases List.mem_append.mp listed with earlier | latest
    · exact ledger.ended e earlier
    · exact called e latest

theorem tended {fired : List Collection} {made : List (Collection × Nat)} {closed : List Ending}
    {failures : List RemediationFailure} {dropped : List Nat} (ledger : Ledger s fires calls endings abandoned)
    (tended : Tended s next fired made failures closed dropped) :
    Ledger next (fires ++ fired) (calls ++ made) (endings ++ closed) (abandoned ++ dropped) := by
  cases tended with
  | still cleanups count =>
    simp only [List.append_nil]
    obtain ⟨counted,attempts,pending,called,once,caused,ended⟩ := ledger
    rw [← count] at counted
    rw [← cleanups] at attempts pending called
    exact ⟨counted,attempts,pending,called,once,caused,ended⟩
  | begun c awaited cleanups count =>
    simpa only [List.append_nil] using ledger.begun c awaited cleanups count
  | called found uncalled cleanups count =>
    simpa only [List.append_nil] using ledger.call found uncalled cleanups count
  | @ended task id found called result cleanups count =>
    obtain ⟨member,same⟩ := cleanup?_some found
    have noted := (ledger.called task member).mp called
    have removed := ledger.remove found cleanups count [⟨task,result⟩] [] (by simp [same]) (by simpa using noted)
    simpa only [List.append_nil] using removed
  | @abandoned task id found cleanups count =>
    have removed := ledger.remove found cleanups count [] [id] rfl nofun
    simpa only [List.append_nil] using removed

end Ledger

end RunWatch.Session
