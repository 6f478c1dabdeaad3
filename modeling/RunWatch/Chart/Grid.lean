import RunWatch.Fault
namespace RunWatch.Chart

section
variable [LT α] [DecidableLT α] [Sub α]

-- The member of an ascending grid that is nearest to the query: of the last member
-- before it and the first one not before it. Halfway between the two the later wins.
-- Differences are words of the grid's own type, so they wrap where it has no room.
def nearest? (grid : List α) (query : α) : Option α :=
  let under := fun member => decide (member < query)
  match (grid.takeWhile under).getLast?, (grid.dropWhile under).head? with
  | none, none => none
  | none, some right => some right
  | some left, none => some left
  | some left, some right => some (if query - left < right - query then left else right)

def snap (grid : List α) (query : α) : Except Fault α :=
  match nearest? grid query with
  | some found => .ok found
  | none => .error .emptyGrid

end

def distinct : List Int64 → List Int64
  | [] => []
  | [t] => [t]
  | t :: s :: rest => if t = s then distinct (s :: rest) else t :: distinct (s :: rest)

def ascending (times : List Int64) : List Int64 := distinct (times.mergeSort fun a b => a ≤ b)

theorem mem_distinct : (times : List Int64) → (t ∈ distinct times ↔ t ∈ times)
  | [] | [_] => Iff.rfl
  | a :: b :: rest => by
    have inner := mem_distinct (t := t) (b :: rest)
    simp only [distinct]
    split
    · rename_i same; subst same; simp [inner]
    · simp [inner]

theorem distinct_ascends : (times : List Int64) → times.Pairwise (· ≤ ·) →
    (distinct times).Pairwise (· < ·)
  | [], _ => .nil
  | [_], _ => by simp [distinct]
  | a :: b :: rest, sorted => by
    obtain ⟨first,others⟩ := List.pairwise_cons.mp sorted
    have inner := distinct_ascends (b :: rest) others
    simp only [distinct]
    split
    · exact inner
    · rename_i different
      refine List.pairwise_cons.mpr ⟨?_,inner⟩
      intro t present
      have above : a ≤ b := first b (List.mem_cons_self ..)
      have strictly : a < b := Int64.lt_of_le_of_ne above different
      rcases List.mem_cons.mp ((mem_distinct _).mp present) with rfl | later
      · exact strictly
      · exact Int64.lt_of_lt_of_le strictly ((List.pairwise_cons.mp others).1 t later)

theorem ascending_ascends (times : List Int64) : (ascending times).Pairwise (· < ·) := by
  refine distinct_ascends _ ?_
  have sorted : (times.mergeSort fun a b => a ≤ b).Pairwise fun a b => decide (a ≤ b) = true :=
    List.pairwise_mergeSort (by intro a b c; simpa using Int64.le_trans)
      (by intro a b; simpa using Int64.le_total a b) times
  simpa using sorted

structure TimeGrid where
  times : List Int64
  ascends : times.Pairwise (· < ·)
  inhabited : times ≠ []

def TimeGrid.ofOpenTimes (openTimes : List Int64) : Except Fault TimeGrid :=
  if h : ascending openTimes = [] then .error .emptyGrid
  else .ok ⟨ascending openTimes,ascending_ascends openTimes,h⟩

theorem nearest_ne_none [LT α] [DecidableLT α] [Sub α] {grid : List α} (inhabited : grid ≠ []) (query : α) :
    nearest? grid query ≠ none := by
  intro absent
  have split := List.takeWhile_append_dropWhile (p := fun member => decide (member < query)) (l := grid)
  unfold nearest? at absent
  dsimp only at absent
  split at absent
  · rename_i left right
    rw [List.getLast?_eq_none_iff.mp left,List.head?_eq_none_iff.mp right] at split
    exact inhabited split.symm
  all_goals cases absent

def TimeGrid.snap (g : TimeGrid) (query : Int64) : Int64 :=
  (nearest? g.times query).get (Option.isSome_iff_ne_none.mpr (nearest_ne_none g.inhabited query))

def TimeGrid.contains (g : TimeGrid) (t : Int64) : Bool := g.times.contains t

end RunWatch.Chart
