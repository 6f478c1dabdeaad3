import RunWatch.Proofs.Roster.Remediation
namespace RunWatch
open Monitored (Patch patch isStale id_patch)
variable {ρ : Type} [Monitored ρ]

def Monitored.Inert (p : Patch ρ) : Prop :=
  ∀ record now staleAfter, isStale (patch p record) now staleAfter = isStale record now staleAfter

open Monitored (Inert)

namespace Roster

def staleMarks (r : Roster ρ) (now : Int64) : List (String × Bool) :=
  r.records.map fun record => (Monitored.id record,isStale record now r.staleAfter)

theorem staleIds_marks (r : Roster ρ) (now : Int64) :
    r.staleIds now = ((r.staleMarks now).filter Prod.snd).map Prod.fst := by
  simp only [staleIds,staleRecords,staleMarks,List.filter_map,List.map_map]; rfl

def guardAt (r : Roster ρ) (now : Int64) : Guard := if r.staleIds now = [] then .armed else .triggered

theorem evaluate_fst (r : Roster ρ) (now : Int64) : (r.evaluate now).1 = { r with guard:=r.guardAt now } := by
  have looked : (r.evaluate now).1 =
      { r with guard:=(r.guard.advance (0 < (r.staleRecords now).length)).1 } := rfl
  rw [looked,Guard.advance_fst,guardAt]
  cases stale : r.staleRecords now <;> simp [staleIds,stale]

variable {r : Roster ρ} {id other : String} {p q : Patch ρ}

theorem applyPush_staleMarks (inert : Inert p) (r : Roster ρ) (id : String) (now later : Int64) :
    (r.applyPush id p now).1.staleMarks later = r.staleMarks later := by
  have staleAfter : (r.applyPush id p now).1.staleAfter = r.staleAfter :=
    (r.perform_follows (.push id p now)).staleAfter
  simp only [staleMarks,applyPush_records,staleAfter]
  exact patchFirst_map (fun record => by rw [id_patch,inert]) id r.records

theorem applyPush_staleIds (inert : Inert p) (r : Roster ρ) (id : String) (now later : Int64) :
    (r.applyPush id p now).1.staleIds later = r.staleIds later := by
  rw [staleIds_marks,staleIds_marks,applyPush_staleMarks inert]

theorem applyPush_isSome (r : Roster ρ) (id : String) (p : Patch ρ) (now : Int64) (other : String) :
    ((r.applyPush id p now).1.find? other).isSome ↔ (r.find? other).isSome := by
  rw [find?_isSome,find?_isSome,applyPush_records,patchFirst_ids]

theorem applyPush_inert (inert : Inert p) (known : (r.find? id).isSome) (now : Int64) :
    (r.applyPush id p now).1 =
      { r with records:=patchFirst id p r.records, revision:=r.revision + 1, guard:=r.guardAt now } := by
  obtain ⟨record,found⟩ := Option.isSome_iff_exists.mp known
  have unmoved := applyPush_staleIds inert r id now now
  rw [applyPush_known found] at unmoved ⊢
  dsimp only at unmoved ⊢
  rw [evaluate_fst] at unmoved ⊢
  simp only [guardAt]
  rw [show staleIds { r with records:=_, revision:=_ } now = r.staleIds now from unmoved]

theorem patchFirst_comm (apart : id ≠ other ∨ ∀ record, patch p (patch q record) = patch q (patch p record))
    (records : List ρ) :
    patchFirst id p (patchFirst other q records) = patchFirst other q (patchFirst id p records) := by
  induction records with
  | nil => rfl
  | cons record rest ih =>
    by_cases one : Monitored.id record = id
    · subst one
      by_cases two : Monitored.id record = other
      · -- Both amend this very record, so it is the patches that commute.
        subst two
        have commute := apart.resolve_left fun distinct => distinct rfl
        simp [patchFirst,id_patch,commute]
      · simp [patchFirst,id_patch,two]
    · by_cases two : Monitored.id record = other
      · subst two
        simp [patchFirst,id_patch,one]
      · simp [patchFirst,one,two,ih]

-- Pushes at one time commute. Whichever comes second finds the staleness that the first
-- has found.
theorem applyPush_comm (one : Inert p) (two : Inert q)
    (apart : id ≠ other ∨ ∀ record, patch p (patch q record) = patch q (patch p record)) (r : Roster ρ)
    (now : Int64) :
    ((r.applyPush id p now).1.applyPush other q now).1 = ((r.applyPush other q now).1.applyPush id p now).1 := by
  have unknown {s : Roster ρ} {id : String} (p : Patch ρ) (lost : ¬ (s.find? id).isSome) :
      (s.applyPush id p now).1 = s := by
    rw [applyPush_unknown (Option.not_isSome_iff_eq_none.mp lost)]
  by_cases first : (r.find? id).isSome
  · by_cases second : (r.find? other).isSome
    · have firstly := applyPush_inert one first now
      have secondly := applyPush_inert two second now
      have later := applyPush_inert two ((r.applyPush_isSome id p now other).mpr second) now
      have sooner := applyPush_inert one ((r.applyPush_isSome other q now id).mpr first) now
      rw [later,sooner,guardAt,guardAt,applyPush_staleIds one,applyPush_staleIds two,firstly,secondly]
      simp only [patchFirst_comm apart r.records]
    · rw [unknown q second,unknown q fun known => second ((r.applyPush_isSome id p now other).mp known)]
  · rw [unknown p first,unknown p fun known => first ((r.applyPush_isSome other q now id).mp known)]

end Roster
end RunWatch
