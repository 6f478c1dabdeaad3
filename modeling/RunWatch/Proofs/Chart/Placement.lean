import RunWatch.Chart.Marker
import RunWatch.Proofs.Chart.Snapping
namespace RunWatch.Chart

def inOrderOf (time : α → Int64) (things : List α) : List α :=
  things.mergeSort fun a b => time a ≤ time b

section
variable {α : Type} (time : α → Int64) (things : List α)

theorem order_trans (a b c : α) (ab : decide (time a ≤ time b) = true) (bc : decide (time b ≤ time c) = true) :
    decide (time a ≤ time c) = true :=
  decide_eq_true (Int64.le_trans (of_decide_eq_true ab) (of_decide_eq_true bc))

theorem order_total (a b : α) : (decide (time a ≤ time b) || decide (time b ≤ time a)) = true := by
  simpa using Int64.le_total (time a) (time b)

theorem inOrderOf_perm : (inOrderOf time things).Perm things := List.mergeSort_perm _ _

theorem inOrderOf_rises : (inOrderOf time things).Pairwise fun a b => time a ≤ time b :=
  (List.pairwise_mergeSort (order_trans time) (order_total time) things).imp of_decide_eq_true

theorem inOrderOf_risen {things : List α} (rises : things.Pairwise fun a b => time a ≤ time b) :
    inOrderOf time things = things :=
  List.mergeSort_of_pairwise (rises.imp decide_eq_true)

theorem inOrderOf_filter (at? : Int64) :
    (inOrderOf time things).filter (fun thing => time thing = at?) =
      things.filter fun thing => time thing = at? := by
  let here : α → Bool := fun thing => time thing = at?
  have level : (things.filter here).Pairwise fun a b => decide (time a ≤ time b) = true := by
    refine List.pairwise_of_forall_mem_list fun a first b second => ?_
    have earlier := of_decide_eq_true (List.mem_filter.mp first).2
    have later := of_decide_eq_true (List.mem_filter.mp second).2
    rw [earlier,later]
    exact decide_eq_true (Int64.le_refl at?)
  have kept : (things.filter here).Sublist (inOrderOf time things) :=
    List.sublist_mergeSort (order_trans time) (order_total time) level List.filter_sublist
  have part : (things.filter here).Sublist ((inOrderOf time things).filter here) := by
    simpa using kept.filter here
  exact (part.eq_of_length ((inOrderOf_perm time things).filter here).length_eq.symm).symm

end

theorem placeMarkers_eq (g : TimeGrid) (trades : List Trade) :
    placeMarkers g trades = inOrderOf Marker.snappedTime (trades.map g.mark) := rfl

theorem marks_rise (g : TimeGrid) {trades : List Trade} (fits : ∀ t ∈ trades, Fits g.times t.time)
    (rises : trades.Pairwise fun a b => a.time ≤ b.time) :
    (trades.map g.mark).Pairwise fun a b => a.snappedTime ≤ b.snappedTime :=
  List.pairwise_map.mpr (rises.imp_of_mem fun one other => g.snap_mono (fits _ one) (fits _ other))

-- Every trade is drawn once, with all that it says, on the bar it is snapped to. The bars
-- rise, and the trades of one bar stand as they were given. Trades that were given in the
-- order of their times all do, as far as their distances from the bars fit into 64 bits.
theorem trades_placed_in_order (g : TimeGrid) (trades : List Trade) :
    let drawn (t : Trade) : Marker := ⟨g.snap t.time,t.time,t.kind,t.side,t.label⟩
    (placeMarkers g trades).Perm (trades.map drawn) ∧
    (placeMarkers g trades).Pairwise (fun a b => a.snappedTime ≤ b.snappedTime) ∧
    (∀ bar, (placeMarkers g trades).filter (fun m => m.snappedTime = bar) =
      (trades.filter fun t => g.snap t.time = bar).map drawn) ∧
    ((∀ t ∈ trades, Fits g.times t.time) → trades.Pairwise (fun a b => a.time ≤ b.time) →
      placeMarkers g trades = trades.map drawn) := by
  intro drawn
  rw [placeMarkers_eq]
  refine ⟨inOrderOf_perm _ _,inOrderOf_rises _ _,?_,?_⟩
  · intro bar
    rw [inOrderOf_filter,List.filter_map]
    rfl
  · intro fits rises
    exact inOrderOf_risen _ (marks_rise g fits rises)

theorem trades_in_order_stay_so :
    let g : TimeGrid := ⟨[0,60000,120000],by decide,by decide⟩
    let trades : List Trade :=
      [⟨29999,.entry,.buy,"in"⟩,⟨30000,.entry,.buy,"more"⟩,⟨89999,.exit,.sell,"out"⟩]
    (∀ t ∈ trades, Fits g.times t.time) ∧ trades.Pairwise (fun a b => a.time ≤ b.time) ∧
      (placeMarkers g trades).map (fun m => (m.snappedTime,m.label)) =
        [(0,"in"),(60000,"more"),(60000,"out")] := by
  intro g trades
  have fits : ∀ t ∈ trades, Fits g.times t.time := by decide
  have rises : trades.Pairwise fun a b => a.time ≤ b.time := by decide
  obtain ⟨_,_,_,given⟩ := trades_placed_in_order g trades
  refine ⟨fits,rises,?_⟩
  rw [given fits rises]
  decide

end RunWatch.Chart
