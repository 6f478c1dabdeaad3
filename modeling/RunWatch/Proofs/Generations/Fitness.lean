import Mathlib.Data.List.Nodup
import RunWatch.Proofs.Generations.History
import RunWatch.Proofs.Histogram.Doubles
namespace RunWatch
open Histogram

namespace Histogram
variable {b : Bounds Float} {n : Nat}

def LabelledBin.place (bin : LabelledBin) : String × Float := (bin.rangeLabel,bin.center)

def counts (bins : List LabelledBin) : List Nat := bins.map fun bin => bin.count.toNat

theorem fill_places (b : Bounds Float) (n : Nat) (values : List Float) :
    ((b.fill n values).map Bin.labelled).map LabelledBin.place =
      (List.range n).map fun i => ((b.bin i 0).labelled).place := by
  simp only [Bounds.fill,List.map_map]
  rfl

theorem binValues_places (b : Bounds Float) (xs ys : List Float) :
    (binValues xs b).map (List.map LabelledBin.place) = (binValues ys b).map (List.map LabelledBin.place) := by
  cases counted : b.count with
  | error fault => rw [binValues_error (Bounds.bins_error counted _),binValues_error (Bounds.bins_error counted _)]
  | ok n =>
    rw [binValues_ok (Bounds.bins_ok counted _),binValues_ok (Bounds.bins_ok counted _),Except.map,Except.map,
      fill_places,fill_places]

-- Counts are told in 64 bits, which hold the length of every list that there is room for.
theorem counts_labelled (b : Bounds Float) (n : Nat) {values : List Float} (fits : values.length < 2 ^ 64) :
    counts ((b.fill n values).map Bin.labelled) = b.tally n values := by
  rw [counts,List.map_map,Bounds.tally]
  apply List.map_congr_left
  intro bin present
  have member : bin.count ∈ b.tally n values := List.mem_map_of_mem present
  rw [Bounds.tally_eq] at member
  obtain ⟨i,_,same⟩ := List.mem_map.mp member
  have few : bin.count ≤ values.length := same ▸ List.countP_le_length
  exact Nat.mod_eq_of_lt (Nat.lt_of_le_of_lt few fits)

end Histogram

namespace Generations
variable {run : String} {sample : Sample} {b : Bounds Float} {n : Nat}

def gained (run : String) (g : Generations) (n : Nat) : List Event → Nat
  | [] => n
  | .delivered named sample :: rest =>
    gained run (g.record named sample).1 (if run = named ∧ (g.record named sample).2 = true then n + 1 else n) rest
  | .retained live :: rest => gained run (g.retain live) (if run ∈ live then n else 0) rest

theorem gained_eq (run : String) (g : Generations) (log : List Event) :
    gained run g (g.samples run).length log = ((g.after log).samples run).length := by
  induction log generalizing g with
  | nil => rfl
  | cons event rest ih =>
    cases event with
    | delivered named sample =>
      have longer : ((g.record named sample).1.samples run).length =
          if run = named ∧ (g.record named sample).2 = true then (g.samples run).length + 1
          else (g.samples run).length := by
        rw [samples_record,record_snd]
        split <;> simp
      rw [gained,←longer]
      exact ih (g.record named sample).1
    | retained live =>
      have shorter : ((g.retain live).samples run).length = if run ∈ live then (g.samples run).length else 0 := by
        rw [samples_retain]
        split <;> rfl
      rw [gained,←shorter]
      exact ih (g.retain live)

theorem ascending_few {samples : List Sample} (ascending : Ascending samples) : samples.length ≤ 2 ^ 32 := by
  let numbers := samples.map fun sample => sample.generation.toNat
  have distinct : numbers.Nodup :=
    List.pairwise_map.mpr (ascending.imp fun below => Nat.ne_of_lt (UInt32.lt_iff_toNat_lt.mp below))
  have inside : numbers ⊆ List.range (2 ^ 32) := by
    intro number present
    obtain ⟨sample,_,rfl⟩ := List.mem_map.mp present
    exact List.mem_range.mpr sample.generation.toNat_lt
  have few := (distinct.subperm inside).length_le
  rwa [List.length_map,List.length_range] at few

theorem bests_few (log : List Event) (run : String) : ((after {} log).bests run).length < 2 ^ 64 := by
  have few := ascending_few (rising_ascending (offered run log))
  rw [bests,List.length_map,after_samples]
  exact Nat.lt_of_le_of_lt few (by decide)

theorem histogram_told (counted : b.count = .ok n) (log : List Event) (run : String) :
    ∃ bins, (after {} log).histogram run b = .ok bins ∧ counts bins = b.tally n ((after {} log).bests run) :=
  ⟨_,binValues_ok (Bounds.bins_ok counted _),counts_labelled b n (bests_few log run)⟩

theorem bests_record {g : Generations} (accepted : (g.record run sample).2 = true) :
    (g.record run sample).1.bests run = g.bests run ++ [sample.best] := by
  rw [bests,(record_kept g run sample).mp accepted,List.map_append]
  rfl

theorem histogram_total (counted : b.count = .ok n) (log : List Event) (run : String)
    (finite : ∀ sample ∈ (after {} log).samples run, sample.best.isFinite = true) :
    (b.tally n ((after {} log).bests run)).sum = gained run {} 0 log := by
  have every : ∀ v ∈ (after {} log).bests run, (!Axis.undefined v) = true := by
    intro v present
    obtain ⟨sample,held,rfl⟩ := List.mem_map.mp present
    exact congrArg Bool.not (Doubles.finite_isNaN (finite sample held))
  rw [Bounds.tally_sum counted,List.countP_eq_length.mpr every,bests,List.length_map]
  exact (gained_eq run {} log).symm

end Generations

namespace Histogram

structure Counts (b : Bounds Float) (n : Nat) : Prop where
  told : ∀ values, ∃ bins, binValues values b = .ok bins ∧ bins.length = n ∧
    (values.length < 2 ^ 64 → counts bins = b.tally n values)
  inside : ∀ v, v.isNaN = false → ∃ i < n, b.index? (n - 1) v = some i
  skipped : ∀ v, v.isNaN = true → b.index? (n - 1) v = none
  total : ∀ values, (b.tally n values).sum = values.countP fun v => !v.isNaN
  joined : ∀ xs ys, b.tally n (xs ++ ys) = List.zipWith (· + ·) (b.tally n xs) (b.tally n ys)
  unordered : ∀ xs ys, xs.Perm ys → binValues xs b = binValues ys b

theorem counts_of_count {b : Bounds Float} {n : Nat} (counted : b.count = .ok n) : Counts b n := by
  refine ⟨?_,?_,?_,b.tally_sum counted,b.tally_append n,?_⟩
  · intro values
    refine ⟨_,binValues_ok (Bounds.bins_ok counted values),?_,counts_labelled b n⟩
    simp [Bounds.fill]
  · intro v defined
    cases found : b.index? (n - 1) v with
    | none => cases ((b.index?_eq_none (n - 1)).mp found).symm.trans defined
    | some i => exact ⟨i,Bounds.index?_lt counted found,rfl⟩
  · exact fun v undefined => (b.index?_eq_none (n - 1)).mpr undefined
  · intro xs ys same
    rw [binValues,binValues,Bounds.bins_ok counted,Bounds.bins_ok counted,Bounds.fill_perm b n same]

end Histogram

structure Generations.Counts (b : Bounds Float) (n : Nat) : Prop where
  told : ∀ log run, ∃ bins, (after {} log).histogram run b = .ok bins ∧
    ((∀ sample ∈ (after {} log).samples run, sample.best.isFinite = true) →
      (counts bins).sum = gained run {} 0 log)
  grown : ∀ log run sample, ((after {} log).record run sample).2 = true → sample.best.isFinite = true →
    ∃ bins longer, (after {} log).histogram run b = .ok bins ∧
      ((after {} log).record run sample).1.histogram run b = .ok longer ∧
      longer.map LabelledBin.place = bins.map LabelledBin.place ∧
      ∃ i < bins.length, counts longer = (counts bins).modify i (· + 1)

theorem Generations.counts_of_count {b : Bounds Float} {n : Nat} (counted : b.count = .ok n) :
    Generations.Counts b n := by
  constructor
  · intro log run
    obtain ⟨bins,told,shares⟩ := histogram_told counted log run
    exact ⟨bins,told,fun finite => shares ▸ histogram_total counted log run finite⟩
  · intro log run sample accepted finite
    have next : after {} (log ++ [.delivered run sample]) = ((after {} log).record run sample).1 :=
      after_concat {} log (.delivered run sample)
    obtain ⟨bins,told,shares⟩ := histogram_told counted log run
    obtain ⟨longer,toldNext,sharesNext⟩ := histogram_told counted (log ++ [.delivered run sample]) run
    rw [next] at toldNext sharesNext
    have room := Histogram.counts_of_count counted
    obtain ⟨i,inside,found⟩ := room.inside sample.best (Doubles.finite_isNaN finite)
    have places := binValues_places b ((after {} log).bests run) (((after {} log).record run sample).1.bests run)
    rw [Generations.histogram] at told toldNext
    rw [told,toldNext] at places
    have length : bins.length = n := by
      have same := congrArg List.length shares
      rwa [counts,List.length_map,Bounds.tally_length] at same
    refine ⟨bins,longer,told,toldNext,(Except.ok.inj places).symm,i,length ▸ inside,?_⟩
    rw [sharesNext,shares]
    rw [bests_record accepted,Bounds.tally_concat b n _ found]

-- Where values fall is settled by the bounds, and how many fall there by the values: they
-- add up, in whatever order they come. So it is with the best values of a run.
theorem counts_add_up (b : Bounds Float) :
    (∀ xs ys, (binValues xs b).map (List.map LabelledBin.place) =
      (binValues ys b).map (List.map LabelledBin.place)) ∧
    (∀ n, b.count = .ok n → Histogram.Counts b n ∧ Generations.Counts b n) :=
  ⟨binValues_places b,fun _ counted =>
    ⟨Histogram.counts_of_count counted,Generations.counts_of_count counted⟩⟩

theorem halves_add_up :
    let halves : Bounds Float := ⟨0.0,1.0,0.5⟩
    let sample : Sample := ⟨0,0.25,0.0,0.0⟩
    halves.count = .ok 2 ∧
    (∃ bins, binValues [0.0 / 0.0,1.0 / 0.0,0.25] halves = .ok bins ∧ counts bins = [1,1]) ∧
    (∃ bins longer, (Generations.after {} []).histogram "run" halves = .ok bins ∧
      ((Generations.after {} []).record "run" sample).1.histogram "run" halves = .ok longer ∧
      ∃ i < bins.length, counts longer = (counts bins).modify i (· + 1)) := by
  intro halves sample
  have usable : halves.Usable := by constructor <;> decide +kernel
  have counted : halves.count = .ok 2 := Bounds.count_ok.mpr ⟨usable,by decide +kernel⟩
  obtain ⟨values,history⟩ := (counts_add_up halves).2 2 counted
  obtain ⟨bins,told,_,shares⟩ := values.told [0.0 / 0.0,1.0 / 0.0,0.25]
  have tallied : halves.tally 2 [0.0 / 0.0,1.0 / 0.0,0.25] = [1,1] := by decide +kernel
  obtain ⟨before,longer,toldBefore,toldAfter,_,grown⟩ :=
    history.grown [] "run" sample (by decide +kernel) (by decide +kernel)
  exact ⟨counted,⟨bins,told,(shares (by decide)).trans tallied⟩,⟨before,longer,toldBefore,toldAfter,grown⟩⟩

end RunWatch
