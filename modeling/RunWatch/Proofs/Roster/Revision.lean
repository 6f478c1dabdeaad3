import RunWatch.Proofs.Roster.Records
import RunWatch.Records.Job
namespace RunWatch
open Monitored (Patch)

namespace Roster
variable {ρ : Type} [Monitored ρ]

-- No snapshot, whenever it is taken, tells the two apart. The guard may differ.
def LooksLike (r s : Roster ρ) : Prop := ∀ now, r.snapshot now = s.snapshot now

theorem LooksLike.refl (r : Roster ρ) : r.LooksLike r := fun _ => rfl

theorem LooksLike.trans {r s t : Roster ρ} (left : r.LooksLike s) (right : s.LooksLike t) : r.LooksLike t :=
  fun now => (left now).trans (right now)

theorem LooksLike.revision {r s : Roster ρ} (alike : r.LooksLike s) : r.revision = s.revision :=
  congrArg Snapshot.revision (alike 0)

theorem evaluate_looksLike (r : Roster ρ) (now : Int64) : (r.evaluate now).1.LooksLike r := fun _ => rfl

omit [Monitored ρ] in
theorem setChannel_moves (r : Roster ρ) (state : ChannelState) :
    (r.setChannel state).2 = true ↔ (r.setChannel state).1.revision ≠ r.revision := by
  unfold setChannel
  split <;> simp

theorem applyPush_moves (r : Roster ρ) (id : String) (p : Patch ρ) (now : Int64) :
    (r.applyPush id p now).2.isSome ↔ (r.applyPush id p now).1.revision ≠ r.revision := by
  cases known : r.find? id with
  | none => simp [applyPush_unknown known]
  | some record =>
    rw [applyPush_known known]
    have moved : r.revision + 1 ≠ r.revision := by simp
    exact ⟨fun _ => moved,fun _ => rfl⟩

theorem applyPoll_revision (r : Roster ρ) (result : Except Fault (List ρ)) (now : Int64) :
    (r.applyPoll result now).1.revision = r.revision + 1 := by
  cases result <;> rfl

omit [Monitored ρ] in
theorem recordRemediation_quiet {r : Roster ρ} {result : Except Fault Unit} (success : faultText? result = none)
    (none_pending : r.lastRemediationError = none) : r.recordRemediation result = r := by
  cases result with
  | ok done => simp [recordRemediation,remediationSucceeded,none_pending]
  | error fault => cases success

theorem perform_moves (r : Roster ρ) (op : Operation ρ) :
    (r.perform op).1.revision = r.revision + 1 ∨ (r.perform op).1.LooksLike r := by
  cases op with
  | poll result now => exact Or.inl (r.applyPoll_revision result now)
  | push id p now =>
    cases known : r.find? id with
    | none =>
      simp only [perform,applyPush_unknown known]
      exact Or.inr (.refl r)
    | some record =>
      simp only [perform,applyPush_known known]
      exact Or.inl rfl
  | evaluate now => exact Or.inr (r.evaluate_looksLike now)
  | channel state =>
    simp only [perform]
    cases changed : (r.setChannel state).2 with
    | false => rw [setChannel_same changed]; exact Or.inr (.refl r)
    | true =>
      have moved := (r.setChannel_moves state).mp changed
      rw [setChannel_fst] at moved ⊢
      split at moved
      · exact absurd rfl moved
      · rename_i other
        exact Or.inl (if_neg other)
  | remediation result =>
    simp only [perform]
    by_cases quiet : faultText? result = none ∧ r.lastRemediationError = none
    · rw [recordRemediation_quiet quiet.1 quiet.2]
      exact Or.inr (.refl r)
    · refine Or.inl ?_
      rw [recordRemediation_eq]
      exact if_neg quiet

theorem after_moves (r : Roster ρ) (run : List (Operation ρ)) :
    ∃ moves ≤ run.length, (r.after run).revision = r.revision + UInt64.ofNat moves ∧
      (moves = 0 → (r.after run).LooksLike r) := by
  induction run generalizing r with
  | nil => exact ⟨0,Nat.le_refl 0,by simp [after_nil],fun _ => .refl r⟩
  | cons op rest ih =>
    obtain ⟨moves,bound,counted,still⟩ := ih (r.perform op).1
    rw [after_cons]
    rcases r.perform_moves op with moved | alike
    · refine ⟨moves + 1,Nat.succ_le_succ bound,?_,fun none => absurd none (Nat.succ_ne_zero moves)⟩
      rw [counted,moved,UInt64.ofNat_add,UInt64.add_assoc,UInt64.add_comm 1]
      rfl
    · refine ⟨moves,Nat.le_succ_of_le bound,?_,fun none => (still none).trans alike⟩
      rw [counted,alike.revision]

theorem after_looksLike {r : Roster ρ} {run : List (Operation ρ)} (short : run.length < UInt64.size)
    (same : (r.after run).revision = r.revision) : (r.after run).LooksLike r := by
  obtain ⟨moves,bound,counted,still⟩ := r.after_moves run
  apply still
  have fits : moves < UInt64.size := Nat.lt_of_le_of_lt bound short
  have counted := congrArg UInt64.toNat (counted.symm.trans same)
  rw [UInt64.toNat_add,UInt64.toNat_ofNat_of_lt' fits] at counted
  have below := r.revision.toNat_lt
  have size : UInt64.size = 2 ^ 64 := rfl
  omega

theorem fresh_revision_le (collection : Collection) (staleAfter : Int64) {run : List (Operation ρ)}
    (short : run.length < UInt64.size) :
    ((fresh collection staleAfter).after run).revision.toNat ≤ run.length := by
  obtain ⟨moves,bound,counted,_⟩ := (fresh collection staleAfter : Roster ρ).after_moves run
  have fits : moves < UInt64.size := Nat.lt_of_le_of_lt bound short
  have zero : (fresh collection staleAfter : Roster ρ).revision = 0 := rfl
  rw [counted,zero,UInt64.zero_add,UInt64.toNat_ofNat_of_lt' fits]
  exact bound

theorem take_looksLike {start : Roster ρ} {run : List (Operation ρ)} (short : run.length < UInt64.size)
    {i j : Nat} (ordered : i ≤ j)
    (same : (start.after (run.take j)).revision = (start.after (run.take i)).revision) :
    (start.after (run.take j)).LooksLike (start.after (run.take i)) := by
  have split : run.take j = run.take i ++ (run.take j).drop i := by
    have cut := (List.take_append_drop i (run.take j)).symm
    rwa [List.take_take,Nat.min_eq_left ordered] at cut
  rw [split,after_append] at same ⊢
  apply after_looksLike _ same
  simp only [List.length_drop,List.length_take]
  omega

-- What is on display changes with the revision and only with it. The revision is that
-- of a run from the start, so that it counts: it has not come round.
theorem revision_identifies_display (collection : Collection) (staleAfter : Int64) (run : List (Operation ρ))
    (short : run.length < UInt64.size) :
    let start : Roster ρ := .fresh collection staleAfter
    (∀ i j : Nat, (start.after (run.take i)).revision = (start.after (run.take j)).revision →
      ∀ now, (start.after (run.take i)).snapshot now = (start.after (run.take j)).snapshot now) ∧
    (∀ earlier op later, run = earlier ++ op :: later →
      (start.after (earlier ++ [op])).revision.toNat = (start.after earlier).revision.toNat + 1 ∨
      ∀ now, (start.after (earlier ++ [op])).snapshot now = (start.after earlier).snapshot now) ∧
    (∀ (r : Roster ρ) state, (r.setChannel state).2 = true ↔ (r.setChannel state).1.revision ≠ r.revision) ∧
    (∀ (r : Roster ρ) id p now,
      (r.applyPush id p now).2.isSome ↔ (r.applyPush id p now).1.revision ≠ r.revision) ∧
    (∀ (r : Roster ρ) result now, (r.applyPoll result now).1.revision ≠ r.revision) := by
  intro start
  refine ⟨?_,?_,setChannel_moves,applyPush_moves,?_⟩
  · intro i j same
    rcases Nat.le_total i j with ordered | ordered
    · intro now
      exact (take_looksLike short ordered same.symm now).symm
    · exact take_looksLike short ordered same
  · intro earlier op later split
    have step : start.after (earlier ++ [op]) = ((start.after earlier).perform op).1 := by
      rw [after_append]; rfl
    rw [step]
    rcases (start.after earlier).perform_moves op with moved | alike
    · refine Or.inl ?_
      have length : run.length = earlier.length + (later.length + 1) := by simp [split]
      have fits : earlier.length < UInt64.size := by omega
      have bound : (start.after earlier).revision.toNat ≤ earlier.length :=
        fresh_revision_le collection staleAfter fits
      have size : UInt64.size = 2 ^ 64 := rfl
      rw [moved,UInt64.toNat_add]
      apply Nat.mod_eq_of_lt
      change (start.after earlier).revision.toNat + 1 < 2 ^ 64
      omega
    · exact Or.inr alike
  · intro r result now
    rw [applyPoll_revision]
    simp

theorem unseen_operations_keep_display :
    let job : JobRecord := ⟨"a","train",.running,none,some 0,false,none⟩
    let unseen : List (Operation JobRecord) :=
      [.channel .connecting,.evaluate 90000,.push "b" {} 90001,.remediation (.ok ())]
    let run := .poll (.ok [job]) 0 :: unseen
    let start : Roster JobRecord := .fresh .jobs 60000
    run.length < UInt64.size ∧ (start.after (run.take 1)).guard = .armed ∧
    (start.after (run.take 5)).guard = .triggered ∧
    (∀ now, (start.after (run.take 5)).snapshot now = (start.after (run.take 1)).snapshot now) ∧
    (start.after (run.take 1)).revision.toNat = start.revision.toNat + 1 := by
  intro job unseen run start
  have short : run.length < UInt64.size := by decide
  obtain ⟨same,moves,_⟩ := revision_identifies_display .jobs 60000 run short
  refine ⟨short,rfl,by decide,same 5 1 (by decide),?_⟩
  rcases moves [] (.poll (.ok [job]) 0) unseen rfl with moved | unmoved
  · exact moved
  · have shown : (1 : UInt64) = 0 := congrArg Snapshot.revision (unmoved 0)
    exact absurd shown (by decide)

end Roster
end RunWatch
