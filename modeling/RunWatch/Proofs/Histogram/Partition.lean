import Mathlib.Algebra.Order.Floor.Semiring
import Mathlib.Data.Rat.Floor
import Mathlib.Tactic.Linarith
import RunWatch.Proofs.Histogram.Counting
namespace RunWatch.Histogram
open Axis

instance : Axis ℚ where
  add a b := a + b
  sub a b := a - b
  mul a b := a * b
  div a b := a / b
  ofNat n := n
  less a b := a < b
  floor a := (⌊a⌋ : ℤ)
  ceil a := (⌈a⌉ : ℤ)
  finite _ := true
  undefined _ := false
  whole a := ⌊a⌋₊

instance : WholeNumbers ℚ where
  whole_ofNat n _ := Nat.floor_natCast n
  ofNat_defined _ _ := rfl
  finite_defined _ _ := rfl
  whole_mono _ _ _ notAbove := Nat.floor_le_floor (not_lt.mp (of_decide_eq_false notAbove))

theorem less_iff {v w : ℚ} : less v w = true ↔ v < w := decide_eq_true_iff

theorem less_false_iff {v w : ℚ} : less v w = false ↔ w ≤ v := decide_eq_false_iff_not.trans not_lt

theorem whole_clamp (last : Nat) (v : ℚ) : whole (clamp (ofNat 0) (ofNat last) v) = min last ⌊v⌋₊ := by
  unfold clamp
  split
  · rename_i below
    have negative : v < (0 : ℕ) := less_iff.mp below
    rw [Nat.floor_of_nonpos (Nat.cast_zero (R := ℚ) ▸ negative.le),Nat.min_zero]
    exact Nat.floor_natCast 0
  · split
    · rename_i above
      rw [min_eq_left (Nat.le_floor (less_iff.mp above).le)]
      exact Nat.floor_natCast last
    · rename_i inside
      have notAbove : v ≤ (last : ℚ) := less_false_iff.mp (Bool.eq_false_iff.mpr inside)
      exact (min_eq_right (Nat.floor_le_of_le notAbove)).symm

namespace Bounds

def span (b : Bounds ℚ) : ℚ := (b.high - b.low) / b.step

structure Fit (b : Bounds ℚ) : Prop where
  ascends : b.low < b.high
  positive : 0 < b.step
  coarse : b.span ≤ maxBins

-- The values of a bin are those of its range, and at the ends those beyond as well.
def Holds (b : Bounds ℚ) (bins index : Nat) (v : ℚ) : Prop :=
  (index = 0 ∨ b.low + index * b.step ≤ v) ∧ (index + 1 = bins ∨ v < b.low + (index + 1 : ℕ) * b.step)

instance (b : Bounds ℚ) (bins index : Nat) : DecidablePred (b.Holds bins index) :=
  fun _ => inferInstanceAs (Decidable (_ ∧ _))

variable {b : Bounds ℚ} {n : Nat}

theorem step_positive (b : Bounds ℚ) : less (ofNat 0) b.step = true ↔ 0 < b.step := by
  rw [less_iff]
  exact Nat.cast_zero (R := ℚ) ▸ Iff.rfl

theorem steps_coarse (b : Bounds ℚ) : less (ofNat maxBins) b.steps = false ↔ b.span ≤ maxBins := by
  rw [less_false_iff]
  exact Int.cast_le (R := ℚ) (n := maxBins) |>.trans Int.ceil_le

theorem Fit.span_positive (fit : b.Fit) : 0 < b.span := div_pos (sub_pos.mpr fit.ascends) fit.positive

theorem Fit.usable (fit : b.Fit) : b.Usable := by
  have some : ((1 : ℕ) : ℚ) ≤ (⌈b.span⌉ : ℤ) := by exact_mod_cast Int.one_le_ceil_iff.mpr fit.span_positive
  exact ⟨rfl,b.step_positive.mpr fit.positive,less_iff.mpr fit.ascends,rfl,less_false_iff.mpr some,
    b.steps_coarse.mpr fit.coarse⟩

theorem Fit.count (fit : b.Fit) : b.count = .ok ⌈b.span⌉₊ := by
  apply count_ok.mpr
  refine ⟨fit.usable,?_⟩
  have whole : ((⌈b.span⌉₊ : ℕ) : ℚ) = (⌈b.span⌉ : ℤ) := natCast_ceil_eq_intCast_ceil fit.span_positive.le
  exact ((congrArg Nat.floor whole).symm.trans (Nat.floor_natCast _)).symm

theorem count_unfit (unfit : ¬ b.Fit) : ∃ fault, b.count = .error fault := by
  cases counted : b.count with
  | error fault => exact ⟨fault,rfl⟩
  | ok n =>
    obtain ⟨usable,_⟩ := count_ok.mp counted
    exact absurd ⟨less_iff.mp usable.ascends,b.step_positive.mp usable.positive,
      b.steps_coarse.mp usable.coarse⟩ unfit

theorem index?_eq (b : Bounds ℚ) (last : Nat) (v : ℚ) :
    b.index? last v = some (min last ⌊(v - b.low) / b.step⌋₊) := by
  have told : b.index? last v = some (whole (clamp (ofNat 0) (ofNat last) ((⌊(v - b.low) / b.step⌋ : ℤ) : ℚ))) := rfl
  rw [told,whole_clamp,← Int.floor_toNat,Int.floor_intCast,Int.floor_toNat]

theorem holds_iff (positive : 0 < b.step) {i : Nat} (inside : i < n) (v : ℚ) :
    b.Holds n i v ↔ b.index? (n - 1) v = some i := by
  let steps := (v - b.low) / b.step
  have told : b.index? (n - 1) v = some (min (n - 1) ⌊steps⌋₊) := index?_eq b (n - 1) v
  have below : i = 0 ∨ b.low + i * b.step ≤ v ↔ i ≤ ⌊steps⌋₊ := by
    rw [← le_sub_iff_add_le',← le_div_iff₀ positive]
    by_cases first : i = 0
    · simp [first]
    · simp [first,Nat.le_floor_iff' first,steps]
  have above : v < b.low + (i + 1 : ℕ) * b.step ↔ ⌊steps⌋₊ < i + 1 := by
    rw [← sub_lt_iff_lt_add',← div_lt_iff₀ positive,Nat.floor_lt' (Nat.succ_ne_zero i)]
  rw [Holds,below,above,told,Option.some.injEq]
  omega

theorem index?_mono (b : Bounds ℚ) (positive : 0 < b.step) (last : Nat) {v w : ℚ} (ordered : v ≤ w) {i j : Nat}
    (first : b.index? last v = some i) (second : b.index? last w = some j) : i ≤ j := by
  rw [index?_eq,Option.some.injEq] at first second
  rw [← first,← second]
  have further : (v - b.low) / b.step ≤ (w - b.low) / b.step :=
    div_le_div_of_nonneg_right (sub_le_sub_right ordered b.low) positive.le
  exact min_le_min_left last (Nat.floor_le_floor further)

theorem Fit.index?_above (fit : b.Fit) {v : ℚ} (above : b.high ≤ v) :
    b.index? (⌈b.span⌉₊ - 1) v = some (⌈b.span⌉₊ - 1) := by
  have room : 0 < ⌈b.span⌉₊ := Nat.ceil_pos.mpr fit.span_positive
  have short : ((⌈b.span⌉₊ - 1 : ℕ) : ℚ) < b.span := Nat.lt_ceil.mp (by omega)
  have further : b.span ≤ (v - b.low) / b.step :=
    div_le_div_of_nonneg_right (sub_le_sub_right above b.low) fit.positive.le
  rw [index?_eq,min_eq_left (Nat.le_floor (short.le.trans further))]

theorem index?_below (positive : 0 < b.step) (last : Nat) {v : ℚ} (below : v < b.low) :
    b.index? last v = some 0 := by
  have negative : (v - b.low) / b.step ≤ 0 := div_nonpos_of_nonpos_of_nonneg (sub_nonpos.mpr below.le) positive.le
  rw [index?_eq,Nat.floor_of_nonpos negative,Nat.min_zero]

end Bounds

structure Partition (b : Bounds ℚ) (values : List ℚ) (bins : List (Bin ℚ)) : Prop where
  size : bins.length = ⌈(b.high - b.low) / b.step⌉₊
  inhabited : 1 ≤ bins.length
  few : bins.length ≤ maxBins
  starts : bins.head?.map Bin.lower = some b.low
  lower : ∀ i (inside : i < bins.length), bins[i].lower = b.low + i * b.step
  upper : ∀ i (inside : i < bins.length), bins[i].upper = b.low + (i + 1 : ℕ) * b.step
  adjacent : ∀ i (next : i + 1 < bins.length), bins[i].upper = bins[i + 1].lower
  covers : ∃ bin, bins.getLast? = some bin ∧ b.high ≤ bin.upper
  centered : ∀ bin ∈ bins, bin.center = (bin.lower + bin.upper) / 2
  counted : ∀ i (inside : i < bins.length), bins[i].count = values.countP (b.Holds bins.length i ·)
  placed : ∀ v, ∃ i, b.index? (bins.length - 1) v = some i ∧ ∀ j < bins.length, b.Holds bins.length j v ↔ j = i
  below : ∀ v < b.low, b.index? (bins.length - 1) v = some 0
  above : ∀ v, b.high ≤ v → b.index? (bins.length - 1) v = some (bins.length - 1)
  rising : ∀ v w i j, v ≤ w → b.index? (bins.length - 1) v = some i → b.index? (bins.length - 1) w = some j → i ≤ j

section
variable {b : Bounds ℚ}

theorem bin_lower (b : Bounds ℚ) (i count : Nat) : (b.bin i count).lower = b.low + i * b.step := rfl

theorem bin_upper (b : Bounds ℚ) (i count : Nat) : (b.bin i count).upper = b.low + (i + 1 : ℕ) * b.step := by
  have upper : (b.bin i count).upper = b.low + i * b.step + b.step := rfl
  rw [upper,Nat.cast_succ,add_mul,one_mul,add_assoc]

theorem bin_center (b : Bounds ℚ) (i count : Nat) :
    (b.bin i count).center = ((b.bin i count).lower + (b.bin i count).upper) / 2 := by
  have center : (b.bin i count).center = (b.bin i count).lower + b.step / (2 : ℕ) := rfl
  have upper : (b.bin i count).upper = (b.bin i count).lower + b.step := rfl
  rw [center,upper]
  push_cast
  linarith

theorem fill_bin (b : Bounds ℚ) (n : Nat) (values : List ℚ) {i : Nat} (inside : i < (b.fill n values).length) :
    (b.fill n values)[i] = b.bin i (values.countP fun v => b.index? (n - 1) v == some i) := by
  simp only [Bounds.fill,List.getElem_map,List.getElem_range,List.count_filterMap]

theorem fill_length (b : Bounds ℚ) (n : Nat) (values : List ℚ) : (b.fill n values).length = n := by
  simp [Bounds.fill]

theorem fill_covers (fit : b.Fit) (values : List ℚ) :
    ∃ bin, (b.fill ⌈b.span⌉₊ values).getLast? = some bin ∧ b.high ≤ bin.upper := by
  have room : 0 < ⌈b.span⌉₊ := Nat.ceil_pos.mpr fit.span_positive
  have last : ⌈b.span⌉₊ - 1 < (b.fill ⌈b.span⌉₊ values).length := by
    rw [fill_length]
    omega
  have enough : b.high - b.low ≤ ⌈b.span⌉₊ * b.step := (div_le_iff₀ fit.positive).mp (Nat.le_ceil b.span)
  refine ⟨(b.fill ⌈b.span⌉₊ values)[⌈b.span⌉₊ - 1],?_,?_⟩
  · rw [List.getLast?_eq_getElem?,fill_length]
    exact List.getElem?_eq_getElem last
  · rw [fill_bin,bin_upper,Nat.sub_add_cancel room]
    linarith

theorem fill_partition (fit : b.Fit) (values : List ℚ) : Partition b values (b.fill ⌈b.span⌉₊ values) := by
  have room : 0 < ⌈b.span⌉₊ := Nat.ceil_pos.mpr fit.span_positive
  have length : (b.fill ⌈b.span⌉₊ values).length = ⌈b.span⌉₊ := fill_length b _ values
  constructor
  case size => exact length
  case inhabited => exact length.symm ▸ room
  case few => exact length.trans_le (Bounds.count_le fit.count)
  case starts =>
    obtain ⟨rest,split⟩ : ∃ rest, ⌈b.span⌉₊ = rest + 1 := ⟨_,(Nat.sub_add_cancel room).symm⟩
    rw [split]
    simp [Bounds.fill,List.range_succ_eq_map,bin_lower]
  case lower => exact fun i inside => by rw [fill_bin,bin_lower]
  case upper => exact fun i inside => by rw [fill_bin,bin_upper]
  case adjacent => exact fun i next => by rw [fill_bin,fill_bin,bin_upper,bin_lower]
  case covers => exact fill_covers fit values
  case centered =>
    intro bin present
    obtain ⟨i,inside,rfl⟩ := List.mem_iff_getElem.mp present
    rw [fill_bin,bin_center]
  case counted =>
    intro i inside
    rw [fill_bin,length]
    apply List.countP_congr
    intro v _
    rw [beq_iff_eq,decide_eq_true_iff]
    exact (Bounds.holds_iff fit.positive (length ▸ inside) v).symm
  case placed =>
    intro v
    rw [length]
    refine ⟨_,Bounds.index?_eq b _ v,?_⟩
    intro j inside
    rw [Bounds.holds_iff fit.positive inside,Bounds.index?_eq,Option.some.injEq]
    exact eq_comm
  case below => exact fun v => Bounds.index?_below fit.positive _
  case above =>
    intro v above
    rw [length]
    exact fit.index?_above above
  case rising => exact fun v w i j ordered => Bounds.index?_mono b fit.positive _ ordered

theorem Partition.counts {values : List ℚ} {bins : List (Bin ℚ)} (p : Partition b values bins) :
    bins.map Bin.count = (List.range bins.length).map fun i => values.countP (b.Holds bins.length i ·) := by
  apply List.ext_getElem
  · simp
  · intro i inside _
    rw [List.length_map] at inside
    simp only [List.getElem_map,List.getElem_range,p.counted i inside]

end

-- Bounds cut the axis into bins, or they are refused, and refusing is what doubles do with
-- them as well.
theorem bins_partition :
    (∀ (b : Bounds ℚ) values, b.low < b.high → 0 < b.step → (b.high - b.low) / b.step ≤ maxBins →
      ∃ bins, b.bins values = .ok bins ∧ Partition b values bins) ∧
    (∀ (b : Bounds ℚ) values, ¬ (b.low < b.high ∧ 0 < b.step ∧ (b.high - b.low) / b.step ≤ maxBins) →
      ∃ fault, b.bins values = .error fault) ∧
    (∀ (b : Bounds Float) values fault, b.bins values = .error fault →
      binValues values b = .error (.argument (fault.cause b))) := by
  refine ⟨?_,?_,?_⟩
  · intro b values ascends positive coarse
    have fit : b.Fit := ⟨ascends,positive,coarse⟩
    exact ⟨_,Bounds.bins_ok fit.count values,fill_partition fit values⟩
  · intro b values unfit
    obtain ⟨fault,refused⟩ := Bounds.count_unfit fun fit : b.Fit => unfit ⟨fit.ascends,fit.positive,fit.coarse⟩
    exact ⟨fault,Bounds.bins_error refused values⟩
  · intro b values fault refused
    exact binValues_error refused

theorem last_bin_overlaps :
    let thirds : Bounds ℚ := ⟨0,1,3 / 10⟩
    ∃ bins, thirds.bins [-1,1 / 10,95 / 100,99 / 100,7] = .ok bins ∧ bins.map Bin.count = [2,0,0,3] := by
  intro thirds
  obtain ⟨bins,told,partition⟩ := bins_partition.1 thirds [-1,1 / 10,95 / 100,99 / 100,7]
    (by decide +kernel) (by decide +kernel) (by decide +kernel)
  have four : bins.length = 4 := partition.size.trans (by decide +kernel)
  refine ⟨bins,told,?_⟩
  rw [partition.counts,four]
  decide +kernel

end RunWatch.Histogram
