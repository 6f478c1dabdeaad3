import Mathlib.Algebra.GroupWithZero.Nat
import Mathlib.Algebra.BigOperators.Group.Finset.Basic
import Mathlib.Data.Finset.Range
import RunWatch.Histogram
namespace RunWatch.Histogram
open Axis

-- What counting asks of an axis: counts of bins are exact, and a number that is not above
-- another has no greater whole part.
class WholeNumbers (α : Type) [Axis α] : Prop where
  whole_ofNat : ∀ n ≤ maxBins, whole (ofNat n : α) = n
  ofNat_defined : ∀ n ≤ maxBins, undefined (ofNat n : α) = false
  finite_defined : ∀ a : α, finite a = true → undefined a = false
  whole_mono : ∀ a b : α, undefined b = false → less b a = false → whole a ≤ whole b

variable {α : Type} [Axis α]

structure Bounds.Usable (b : Bounds α) : Prop where
  bounded : (finite b.low && finite b.high && finite b.step) = true
  positive : less (ofNat 0) b.step = true
  ascends : less b.low b.high = true
  countable : finite b.steps = true
  inhabited : less b.steps (ofNat 1) = false
  coarse : less (ofNat maxBins) b.steps = false

theorem Bounds.count_ok {b : Bounds α} {n : Nat} : b.count = .ok n ↔ b.Usable ∧ n = whole b.steps := by
  unfold Bounds.count
  constructor
  · intro counted
    split at counted
    · cases counted
    · split at counted
      · cases counted
      · split at counted
        · cases counted
        · split at counted
          · cases counted
          · cases counted
            rename_i bounded range steps coarse
            simp only [Bool.not_eq_true',Bool.not_eq_false,Bool.or_eq_true,not_or,Bool.not_eq_true]
              at bounded range steps coarse
            exact ⟨⟨bounded,range.1,range.2,steps.1,steps.2,coarse⟩,rfl⟩
  · rintro ⟨usable,rfl⟩
    simp [usable.bounded,usable.positive,usable.ascends,usable.countable,usable.inhabited,usable.coarse]

theorem Bounds.count_positive [WholeNumbers α] {b : Bounds α} {n : Nat} (counted : b.count = .ok n) : 0 < n := by
  obtain ⟨usable,rfl⟩ := Bounds.count_ok.mp counted
  have defined := WholeNumbers.finite_defined b.steps usable.countable
  have above := WholeNumbers.whole_mono (ofNat 1) b.steps defined usable.inhabited
  rwa [WholeNumbers.whole_ofNat 1 (by decide)] at above

theorem Bounds.count_le [WholeNumbers α] {b : Bounds α} {n : Nat} (counted : b.count = .ok n) : n ≤ maxBins := by
  obtain ⟨usable,rfl⟩ := Bounds.count_ok.mp counted
  have defined : undefined (ofNat maxBins : α) = false := WholeNumbers.ofNat_defined maxBins (Nat.le_refl _)
  have below := WholeNumbers.whole_mono b.steps (ofNat maxBins) defined usable.coarse
  rwa [WholeNumbers.whole_ofNat maxBins (Nat.le_refl _)] at below

theorem whole_clamp_le [WholeNumbers α] {last : Nat} (fits : last ≤ maxBins) (v : α) :
    whole (clamp (ofNat 0) (ofNat last) v) ≤ last := by
  have first : whole (ofNat 0 : α) = 0 := WholeNumbers.whole_ofNat 0 (by decide)
  have final : whole (ofNat last : α) = last := WholeNumbers.whole_ofNat last fits
  unfold clamp
  split
  · omega
  · split
    · omega
    · rename_i inside
      have below := WholeNumbers.whole_mono v (ofNat last) (WholeNumbers.ofNat_defined last fits)
        (Bool.eq_false_iff.mpr inside)
      omega

namespace Bounds
variable {b : Bounds α} {n : Nat}

theorem bins_ok (counted : b.count = .ok n) (values : List α) : b.bins values = .ok (b.fill n values) := by
  rw [bins,counted]
  rfl

theorem bins_error {fault : BoundsFault α} (refused : b.count = .error fault) (values : List α) :
    b.bins values = .error fault := by
  rw [bins,refused]
  rfl

theorem index?_eq_none (b : Bounds α) (last : Nat) {v : α} : b.index? last v = none ↔ undefined v = true := by
  unfold index?
  split <;> simp_all

theorem index?_lt [WholeNumbers α] (counted : b.count = .ok n) {v : α} {i : Nat}
    (found : b.index? (n - 1) v = some i) : i < n := by
  have some := count_positive counted
  have fits : n - 1 ≤ maxBins := Nat.le_trans (Nat.sub_le n 1) (count_le counted)
  unfold index? at found
  split at found
  · cases found
  · cases found
    have below := whole_clamp_le fits (floor (div (sub v b.low) b.step))
    omega

def tally (b : Bounds α) (n : Nat) (values : List α) : List Nat := (b.fill n values).map Bin.count

theorem tally_eq (b : Bounds α) (n : Nat) (values : List α) : b.tally n values =
    (List.range n).map fun i => values.countP fun v => b.index? (n - 1) v == some i := by
  simp only [tally,fill,List.map_map]
  apply List.map_congr_left
  intro i _
  exact List.count_filterMap

theorem tally_length (b : Bounds α) (n : Nat) (values : List α) : (b.tally n values).length = n := by
  simp [tally_eq]

theorem tally_append (b : Bounds α) (n : Nat) (xs ys : List α) :
    b.tally n (xs ++ ys) = List.zipWith (· + ·) (b.tally n xs) (b.tally n ys) := by
  simp only [tally_eq,List.countP_append,List.zipWith_map,List.zipWith_self]

theorem fill_perm (b : Bounds α) (n : Nat) {xs ys : List α} (same : xs.Perm ys) : b.fill n xs = b.fill n ys := by
  simp only [fill,(same.filterMap _).count_eq]

theorem tally_concat (b : Bounds α) (n : Nat) (values : List α) {v : α} {i : Nat}
    (found : b.index? (n - 1) v = some i) : b.tally n (values ++ [v]) = (b.tally n values).modify i (· + 1) := by
  apply List.ext_getElem?
  intro j
  simp only [tally_eq,List.getElem?_modify,List.getElem?_map,List.countP_append,List.countP_singleton,found]
  by_cases inside : j < n
  · by_cases same : i = j <;> simp [inside,same]
  · simp [Nat.le_of_not_lt inside]

theorem sum_counts {n : Nat} {hits : List Nat} (inside : ∀ i ∈ hits, i < n) :
    ((List.range n).map hits.count).sum = hits.length := by
  have each : ∀ i ∈ (hits : Multiset Nat), i ∈ Finset.range n := fun i hit => Finset.mem_range.mpr (inside i hit)
  calc ((List.range n).map hits.count).sum
      = ∑ i ∈ Finset.range n, (hits : Multiset Nat).count i := by simp [Finset.sum,Multiset.range]
    _ = hits.length := Multiset.sum_count_eq_card each

theorem tally_sum [WholeNumbers α] (counted : b.count = .ok n) (values : List α) :
    (b.tally n values).sum = values.countP fun v => !undefined v := by
  let hits := values.filterMap (b.index? (n - 1))
  have inside : ∀ i ∈ hits, i < n := by
    intro i hit
    obtain ⟨v,_,found⟩ := List.mem_filterMap.mp hit
    exact index?_lt counted found
  have shares : b.tally n values = (List.range n).map hits.count := by
    simp only [tally,fill,List.map_map]
    rfl
  rw [shares,sum_counts inside,List.length_filterMap_eq_countP]
  apply List.countP_congr
  intro v _
  rw [Option.isSome_iff_ne_none,ne_eq,index?_eq_none,Bool.not_eq_true']
  exact Bool.not_eq_true _ ▸ Iff.rfl

end Bounds

theorem binValues_ok {b : Bounds Float} {values : List Float} {bins : List (Bin Float)}
    (told : b.bins values = .ok bins) : binValues values b = .ok (bins.map Bin.labelled) := by
  rw [binValues,told]

theorem binValues_error {b : Bounds Float} {values : List Float} {fault : BoundsFault Float}
    (refused : b.bins values = .error fault) : binValues values b = .error (.argument (fault.cause b)) := by
  rw [binValues,refused]

end RunWatch.Histogram
