import Mathlib.Data.List.Sort
import Mathlib.Data.List.TakeWhile
import RunWatch.Chart.Grid
namespace RunWatch.Chart

def distance (t query : Int64) : Nat := (query.toInt - t.toInt).natAbs

def Fits (times : List Int64) (query : Int64) : Prop := ∀ t ∈ times, distance t query ≤ Int64.maxValue.toInt

structure Nearest (times : List Int64) (query t : Int64) : Prop where
  member : t ∈ times
  closest : ∀ s ∈ times, distance t query ≤ distance s query
  latest : ∀ s ∈ times, distance s query = distance t query → s ≤ t

variable {grid times : List Int64} {query later t s left right : Int64}

-- Both are decided by the times that there are, not by going through all of the 64-bit words.
instance : Decidable (Fits times query) :=
  decidable_of_iff ((times.all fun t => distance t query ≤ Int64.maxValue.toInt) = true) (by simp [Fits])

instance : Decidable (Nearest times query t) :=
  decidable_of_iff (t ∈ times ∧ (times.all fun s =>
      distance t query ≤ distance s query ∧ (distance s query = distance t query → s ≤ t)) = true)
    ⟨fun ⟨member,all⟩ =>
      have each := fun s present => of_decide_eq_true (List.all_eq_true.mp all s present)
      ⟨member,fun s present => (each s present).1,fun s present => (each s present).2⟩,
    fun nearest => ⟨nearest.member,List.all_eq_true.mpr fun s present =>
      decide_eq_true ⟨nearest.closest s present,nearest.latest s present⟩⟩⟩

namespace Nearest

theorem of_each (member : t ∈ times)
    (each : ∀ s ∈ times, s ≤ t ∧ distance t query ≤ distance s query ∨ distance t query < distance s query) :
    Nearest times query t := by
  refine ⟨member,fun s present => ?_,fun s present same => ?_⟩
  · exact (each s present).elim And.right Nat.le_of_lt
  · exact ((each s present).resolve_right (Nat.not_lt_of_le (Nat.le_of_eq same))).1

theorem unique (one : Nearest times query t) (other : Nearest times query s) : t = s := by
  have same : distance t query = distance s query :=
    Nat.le_antisymm (one.closest s other.member) (other.closest t one.member)
  exact Int64.le_antisymm (other.latest t one.member same) (one.latest s other.member same.symm)

-- If the earlier query had the later of two times, the later query would lie nearer to
-- that one still.
theorem mono (one : Nearest times query t) (other : Nearest times later s) (earlier : query ≤ later) : t ≤ s := by
  apply Classical.byContradiction
  intro behind
  have farther : distance s later < distance t later := by
    refine Nat.lt_of_le_of_ne (other.closest t one.member) fun same => ?_
    exact behind (other.latest t one.member same.symm)
  have closer := one.closest s other.member
  rw [Int64.le_iff_toInt_le] at earlier behind
  unfold distance at farther closer
  omega

theorem self (present : t ∈ times) : Nearest times t t := by
  have none : distance t t = 0 := by simp [distance]
  refine ⟨present,fun s _ => none ▸ Nat.zero_le _,fun s _ same => ?_⟩
  rw [none,distance] at same
  rw [Int64.le_iff_toInt_le]
  omega

theorem congr (same : ∀ t, t ∈ grid ↔ t ∈ times) (nearest : Nearest grid query t) : Nearest times query t :=
  ⟨(same t).mp nearest.member,fun s present => nearest.closest s ((same s).mpr present),
    fun s present => nearest.latest s ((same s).mpr present)⟩

end Nearest

theorem le_last (ascends : grid.Pairwise (· < ·)) (last : grid.getLast? = some t) (present : s ∈ grid) : s ≤ t := by
  obtain ⟨before,rfl⟩ := List.getLast?_eq_some_iff.mp last
  rcases List.mem_append.mp present with sooner | same
  · exact Int64.le_of_lt ((List.pairwise_append.mp ascends).2.2 s sooner t List.mem_cons_self)
  · cases List.mem_singleton.mp same
    exact Int64.le_refl _

theorem first_le (ascends : grid.Pairwise (· < ·)) (first : grid.head? = some t) (present : s ∈ grid) : t ≤ s := by
  obtain ⟨behind,rfl⟩ := List.head?_eq_some_iff.mp first
  rcases List.mem_cons.mp present with rfl | further
  · exact Int64.le_refl s
  · exact Int64.le_of_lt ((List.pairwise_cons.mp ascends).1 s further)

def leftOf? (grid : List Int64) (query : Int64) : Option Int64 :=
  (grid.takeWhile fun member => decide (member < query)).getLast?

def rightOf? (grid : List Int64) (query : Int64) : Option Int64 :=
  (grid.dropWhile fun member => decide (member < query)).head?

theorem leftOf_some (found : leftOf? grid query = some t) : t ∈ grid ∧ t < query := by
  have present := List.mem_of_getLast? found
  have before := List.mem_takeWhile_imp present
  exact ⟨(List.takeWhile_sublist _).subset present,of_decide_eq_true before⟩

theorem rightOf_some (found : rightOf? grid query = some t) : t ∈ grid ∧ query ≤ t := by
  have behind := List.head?_dropWhile_not (fun member => decide (member < query)) grid
  unfold rightOf? at found
  rw [found] at behind
  exact ⟨(List.dropWhile_sublist _).subset (List.mem_of_head? found),Int64.not_lt.mp (of_decide_eq_false behind)⟩

theorem beside (ascends : grid.Pairwise (· < ·)) (present : s ∈ grid) (query : Int64) :
    (∃ left, leftOf? grid query = some left ∧ s ≤ left) ∨ ∃ right, rightOf? grid query = some right ∧ right ≤ s := by
  rw [←List.takeWhile_append_dropWhile (p := fun member => decide (member < query)) (l := grid)] at present
  rcases List.mem_append.mp present with before | behind
  · obtain ⟨left,last⟩ := Option.isSome_iff_exists.mp (List.getLast?_isSome.mpr (List.ne_nil_of_mem before))
    exact Or.inl ⟨left,last,le_last (ascends.sublist (List.takeWhile_sublist _)) last before⟩
  · obtain ⟨right,first⟩ := Option.isSome_iff_exists.mp (List.isSome_head?.mpr (List.ne_nil_of_mem behind))
    exact Or.inr ⟨right,first,first_le (ascends.sublist (List.dropWhile_sublist _)) first behind⟩

theorem nearer_iff (before : left < query) (behind : query ≤ right)
    (fitsLeft : distance left query ≤ Int64.maxValue.toInt) (fitsRight : distance right query ≤ Int64.maxValue.toInt) :
    query - left < right - query ↔ query.toInt - left.toInt < right.toInt - query.toInt := by
  rw [Int64.toInt_maxValue] at fitsLeft fitsRight
  rw [Int64.lt_iff_toInt_lt] at before
  rw [Int64.le_iff_toInt_le] at behind
  unfold distance at fitsLeft fitsRight
  have leftWord : (query - left).toInt = query.toInt - left.toInt := by
    rw [Int64.toInt_sub,Int.bmod_eq_of_le] <;> omega
  have rightWord : (right - query).toInt = right.toInt - query.toInt := by
    rw [Int64.toInt_sub,Int.bmod_eq_of_le] <;> omega
  rw [Int64.lt_iff_toInt_lt,leftWord,rightWord]

theorem nearest_left (ascends : grid.Pairwise (· < ·)) (fits : Fits grid query) (found : leftOf? grid query = some left)
    (nearer : ∀ right, rightOf? grid query = some right → query - left < right - query) :
    Nearest grid query left := by
  obtain ⟨member,under⟩ := leftOf_some found
  have before := Int64.lt_iff_toInt_lt.mp under
  have each : ∀ s ∈ grid, s ≤ left ∧ distance left query ≤ distance s query ∨
      distance left query < distance s query := by
    intro s present
    rcases beside ascends present query with ⟨other,same,under⟩ | ⟨right,behind,above⟩
    · cases found.symm.trans same
      refine Or.inl ⟨under,?_⟩
      rw [Int64.le_iff_toInt_le] at under
      unfold distance
      omega
    · obtain ⟨beyond,ahead⟩ := rightOf_some behind
      have shorter := (nearer_iff under ahead (fits left member) (fits right beyond)).mp (nearer right behind)
      rw [Int64.le_iff_toInt_le] at above
      unfold distance
      omega
  exact .of_each member each

theorem nearest_right (ascends : grid.Pairwise (· < ·)) (fits : Fits grid query)
    (found : rightOf? grid query = some right)
    (nearer : ∀ left, leftOf? grid query = some left → ¬ query - left < right - query) :
    Nearest grid query right := by
  obtain ⟨member,ahead⟩ := rightOf_some found
  have behind := Int64.le_iff_toInt_le.mp ahead
  have each : ∀ s ∈ grid, s ≤ right ∧ distance right query ≤ distance s query ∨
      distance right query < distance s query := by
    intro s present
    rcases beside ascends present query with ⟨left,before,under⟩ | ⟨other,same,above⟩
    · obtain ⟨beyond,sooner⟩ := leftOf_some before
      have shorter := mt (nearer_iff sooner ahead (fits left beyond) (fits right member)).mpr (nearer left before)
      rw [Int64.lt_iff_toInt_lt] at sooner
      rw [Int64.le_iff_toInt_le] at under ⊢
      unfold distance
      omega
    · cases found.symm.trans same
      rw [Int64.le_iff_toInt_le] at above ⊢
      unfold distance
      omega
  exact .of_each member each

theorem nearest_exact (ascends : grid.Pairwise (· < ·)) (fits : Fits grid query)
    (found : nearest? grid query = some t) : Nearest grid query t := by
  unfold nearest? at found
  dsimp only at found
  split at found
  · cases found
  · rename_i right leftmost behind
    cases found
    exact nearest_right ascends fits behind fun left before => by cases leftmost.symm.trans before
  · rename_i left before rightmost
    cases found
    exact nearest_left ascends fits before fun right behind => by cases rightmost.symm.trans behind
  · rename_i left right before behind
    split at found
    · rename_i nearer
      cases found
      refine nearest_left ascends fits before fun other same => ?_
      cases behind.symm.trans same
      exact nearer
    · rename_i nearer
      cases found
      refine nearest_right ascends fits behind fun other same => ?_
      cases before.symm.trans same
      exact nearer

theorem nearest_mem (found : nearest? grid query = some t) : t ∈ grid := by
  unfold nearest? at found
  dsimp only at found
  split at found
  · cases found
  · rename_i behind
    cases found
    exact (rightOf_some behind).1
  · rename_i before _
    cases found
    exact (leftOf_some before).1
  · rename_i before behind
    split at found
    · cases found
      exact (leftOf_some before).1
    · cases found
      exact (rightOf_some behind).1

theorem mem_ascending : t ∈ ascending times ↔ t ∈ times := by
  rw [ascending,mem_distinct,List.mem_mergeSort]

theorem ascending_eq (ascends : grid.Pairwise (· < ·)) (same : ∀ t, t ∈ times ↔ t ∈ grid) : ascending times = grid :=
  (ascending_ascends times).eq_of_mem_iff ascends fun t => mem_ascending.trans (same t)

theorem ascending_eq_nil : ascending times = [] ↔ times = [] := by
  simp only [List.eq_nil_iff_forall_not_mem,mem_ascending]

namespace TimeGrid

theorem ofOpenTimes_error : ofOpenTimes times = .error .emptyGrid ↔ times = [] := by
  unfold ofOpenTimes
  split
  · rename_i none
    exact ⟨fun _ => ascending_eq_nil.mp none,fun _ => rfl⟩
  · rename_i some
    exact ⟨nofun,fun none => absurd (ascending_eq_nil.mpr none) some⟩

theorem ofOpenTimes_ok {g : TimeGrid} : ofOpenTimes times = .ok g ↔ g.times = ascending times := by
  unfold ofOpenTimes
  split
  · rename_i none
    exact ⟨nofun,fun same => absurd (same.trans none) g.inhabited⟩
  · constructor
    · intro built
      cases built
      rfl
    · intro same
      cases g
      cases same
      rfl

theorem ofOpenTimes_built (inhabited : times ≠ []) : ∃ g, ofOpenTimes times = .ok g :=
  ⟨⟨ascending times,ascending_ascends times,mt ascending_eq_nil.mp inhabited⟩,ofOpenTimes_ok.mpr rfl⟩

theorem nearest?_snap (g : TimeGrid) (query : Int64) : nearest? g.times query = some (g.snap query) :=
  (Option.some_get _).symm

theorem snap_present (g : TimeGrid) (query : Int64) : g.snap query ∈ g.times :=
  nearest_mem (g.nearest?_snap query)

theorem snap_nearest (g : TimeGrid) (fits : Fits g.times query) : Nearest g.times query (g.snap query) :=
  nearest_exact g.ascends fits (g.nearest?_snap query)

theorem snap_mono (g : TimeGrid) (fits : Fits g.times query) (fitsLater : Fits g.times later) (earlier : query ≤ later) :
    g.snap query ≤ g.snap later :=
  (g.snap_nearest fits).mono (g.snap_nearest fitsLater) earlier

theorem snap_member (g : TimeGrid) (fits : Fits g.times t) (present : t ∈ g.times) : g.snap t = t :=
  (g.snap_nearest fits).unique (.self present)

structure Snaps (g : TimeGrid) (openTimes : List Int64) : Prop where
  ascends : g.times.Pairwise (· < ·)
  times : ∀ t, t ∈ g.times ↔ t ∈ openTimes
  contains : ∀ t, g.contains t = true ↔ t ∈ openTimes
  member : ∀ query, g.snap query ∈ openTimes
  nearest : ∀ query, Fits openTimes query → Nearest openTimes query (g.snap query)
  monotone : ∀ query later, Fits openTimes query → Fits openTimes later → query ≤ later → g.snap query ≤ g.snap later
  identity : ∀ t ∈ openTimes, Fits openTimes t → g.snap t = t
  generic : ∀ query, Chart.snap g.times query = .ok (g.snap query)

-- A grid snaps to the nearest of the open times, whatever their order and however often
-- they are given, as far as the distances fit into 64 bits.
theorem snaps_to_open_times (openTimes : List Int64) :
    (ofOpenTimes openTimes = .error .emptyGrid ↔ openTimes = []) ∧
    (openTimes ≠ [] → ∃ g, ofOpenTimes openTimes = .ok g ∧ g.Snaps openTimes) := by
  refine ⟨ofOpenTimes_error,fun inhabited => ?_⟩
  obtain ⟨g,built⟩ := ofOpenTimes_built inhabited
  have times : ∀ t, t ∈ g.times ↔ t ∈ openTimes := by
    intro t
    rw [ofOpenTimes_ok.mp built,mem_ascending]
  have fits {query : Int64} (fits : Fits openTimes query) : Fits g.times query :=
    fun t present => fits t ((times t).mp present)
  refine ⟨g,built,g.ascends,times,?_,?_,?_,?_,?_,?_⟩
  · intro t
    rw [TimeGrid.contains,List.contains_iff_mem]
    exact times t
  · exact fun query => (times _).mp (g.snap_present query)
  · exact fun query near => (g.snap_nearest (fits near)).congr times
  · exact fun _ _ near nearLater => g.snap_mono (fits near) (fits nearLater)
  · exact fun t present near => g.snap_member (fits near) ((times t).mpr present)
  · intro query
    rw [Chart.snap,g.nearest?_snap]

theorem snaps_between_bars : ∃ g, ofOpenTimes [180000,60000,-1,120000,60000] = .ok g ∧
    g.times = [-1,60000,120000,180000] ∧ g.snap 90000 = 120000 ∧ g.snap 89999 = 60000 ∧
    g.snap (-9223372036854595807) = -1 ∧ g.snap 9223372036854775806 = 180000 ∧ g.snap 60000 = 60000 := by
  let bars : List Int64 := [180000,60000,-1,120000,60000]
  obtain ⟨_,build⟩ := snaps_to_open_times bars
  obtain ⟨g,built,snaps⟩ := build (List.cons_ne_nil _ _)
  have drawn {query t : Int64} (fits : Fits bars query) (nearest : Nearest bars query t) : g.snap query = t :=
    (snaps.nearest query fits).unique nearest
  have times : g.times = [-1,60000,120000,180000] :=
    (ofOpenTimes_ok.mp built).trans (ascending_eq (by decide) (by grind))
  exact ⟨g,built,times,drawn (by decide) (by decide),drawn (by decide) (by decide),drawn (by decide) (by decide),
    drawn (by decide) (by decide),snaps.identity 60000 (by decide) (by decide)⟩

end TimeGrid
end RunWatch.Chart
