import RunWatch.Proofs.Api.Rows
import RunWatch.Proofs.Chart.Placement
import RunWatch.Proofs.Push.Spellings
namespace RunWatch.Chart
open Api (Client Network deliver isRunId)

theorem distinctBars_sublist (candles : List Candle) : (distinctBars candles).Sublist candles := by
  induction candles using distinctBars.induct with
  | case1 => rw [distinctBars]
  | case2 c rest ih =>
    rw [distinctBars]
    exact (ih.trans (List.dropWhile_sublist _)).cons_cons c

theorem distinctBars_openTimes (candles : List Candle) (t : Int64) :
    t ∈ (distinctBars candles).map Candle.openTime ↔ t ∈ candles.map Candle.openTime := by
  refine ⟨fun shown => ((distinctBars_sublist candles).map Candle.openTime).subset shown,fun given => ?_⟩
  induction candles using distinctBars.induct with
  | case1 => cases given
  | case2 c rest ih =>
    rw [distinctBars,List.map_cons]
    rcases List.mem_cons.mp given with same | further
    · exact List.mem_cons.mpr (Or.inl same)
    · rw [←List.takeWhile_append_dropWhile (p := fun d => d.openTime == c.openTime) (l := rest),
        List.map_append] at further
      rcases List.mem_append.mp further with twin | other
      · obtain ⟨d,member,rfl⟩ := List.mem_map.mp twin
        have same := List.mem_takeWhile_imp member
        exact List.mem_cons.mpr (Or.inl (eq_of_beq same))
      · exact List.mem_cons_of_mem _ (ih other)

theorem above_twins {c : Candle} {rest : List Candle}
    (rises : (c :: rest).Pairwise fun a b => a.openTime ≤ b.openTime) :
    ∀ d ∈ rest.dropWhile fun d => d.openTime == c.openTime, c.openTime < d.openTime := by
  obtain ⟨first,others⟩ := List.pairwise_cons.mp rises
  have left := others.sublist (List.dropWhile_sublist fun d => d.openTime == c.openTime)
  have different := List.head?_dropWhile_not (fun d : Candle => d.openTime == c.openTime) rest
  cases split : rest.dropWhile fun d => d.openTime == c.openTime with
  | nil => exact fun _ none => absurd none List.not_mem_nil
  | cons e behind =>
    rw [split] at left different
    have present : e ∈ rest := (List.dropWhile_sublist _).subset (split ▸ List.mem_cons_self)
    have distinct : c.openTime ≠ e.openTime := fun same => by simp [same] at different
    have above := Int64.lt_of_le_of_ne (first e present) distinct
    intro d member
    rcases List.mem_cons.mp member with rfl | further
    · exact above
    · exact Int64.lt_of_lt_of_le above ((List.pairwise_cons.mp left).1 d further)

theorem distinctBars_ascends {candles : List Candle} (rises : candles.Pairwise fun a b => a.openTime ≤ b.openTime) :
    (distinctBars candles).Pairwise fun a b => a.openTime < b.openTime := by
  induction candles using distinctBars.induct with
  | case1 =>
    rw [distinctBars]
    exact .nil
  | case2 c rest ih =>
    rw [distinctBars]
    refine List.pairwise_cons.mpr ⟨fun d member => ?_,ih ?_⟩
    · exact above_twins rises d ((distinctBars_sublist _).subset member)
    · exact (List.pairwise_cons.mp rises).2.sublist (List.dropWhile_sublist _)

-- Candles put in the order of their open times by a sort that need not be stable, and
-- thinned to one for each of them.
def Tidied (candles kept : List Candle) : Prop :=
  ∃ sorted : List Candle, sorted.Perm candles ∧ (sorted.Pairwise fun a b => a.openTime ≤ b.openTime) ∧
    kept = distinctBars sorted

theorem tidy_tidied (candles : List Candle) : Tidied candles (tidy candles) :=
  ⟨inOrderOf Candle.openTime candles,inOrderOf_perm _ _,inOrderOf_rises _ _,rfl⟩

structure Bars (candles kept : List Candle) : Prop where
  ascends : kept.Pairwise fun a b => a.openTime < b.openTime
  members : ∀ c ∈ kept, c ∈ candles
  openTimes : ∀ t, t ∈ kept.map Candle.openTime ↔ t ∈ candles.map Candle.openTime

theorem Tidied.bars {candles kept : List Candle} (tidied : Tidied candles kept) : Bars candles kept := by
  obtain ⟨sorted,perm,rises,rfl⟩ := tidied
  refine ⟨distinctBars_ascends rises,?_,?_⟩
  · exact fun c member => perm.subset ((distinctBars_sublist sorted).subset member)
  · intro t
    rw [distinctBars_openTimes]
    exact (perm.map Candle.openTime).mem_iff

theorem runMarkers_congr {candles others : List Candle}
    (same : ∀ t, t ∈ candles.map Candle.openTime ↔ t ∈ others.map Candle.openTime) (request : MarkerRequest) :
    runMarkers candles request = runMarkers others request := by
  have times : ascending (candles.map Candle.openTime) = ascending (others.map Candle.openTime) :=
    ascending_eq (ascending_ascends _) fun t => (same t).trans mem_ascending.symm
  have grid : TimeGrid.ofOpenTimes (candles.map Candle.openTime) =
      TimeGrid.ofOpenTimes (others.map Candle.openTime) := by
    unfold TimeGrid.ofOpenTimes
    simp only [times]
  rw [runMarkers,runMarkers,grid]

theorem runMarkers_empty (candles : List Candle) (request : MarkerRequest) :
    runMarkers candles request = .error .emptyGrid ↔ candles = [] := by
  rw [←List.map_eq_nil_iff (f := Candle.openTime),←TimeGrid.ofOpenTimes_error,runMarkers]
  cases TimeGrid.ofOpenTimes (candles.map Candle.openTime) with
  | error fault =>
    constructor <;> intro refused <;> cases refused <;> rfl
  | ok g => exact ⟨nofun,nofun⟩

theorem runMarkers_drawn {candles : List Candle} (inhabited : candles ≠ []) (request : MarkerRequest) :
    ∃ markers, runMarkers candles request = .ok markers := by
  obtain ⟨g,built⟩ := TimeGrid.ofOpenTimes_built (mt List.map_eq_nil_iff.mp inhabited)
  exact ⟨placeMarkers g request.trades,by rw [runMarkers,built]; rfl⟩

theorem candles_answered (client : Client) {request : MarkerRequest}
    (allowed : isRunId (Text.trim request.runId) = true) :
    ∃ fetch draw, client.candles request.runId = .ok fetch ∧ client.runMarkers request = .ok draw ∧
      ∀ network response rows candles, deliver network fetch.request = .ok response →
        response.rows? CandleRow = some rows → Admitted rows candles →
        fetch.answer network = .ok (tidy candles) ∧ draw.answer network = runMarkers (tidy candles) request := by
  let id : Api.RunId := ⟨Text.trim request.runId,allowed⟩
  have read : Api.RunId.read request.runId = .ok id := dif_pos allowed
  let list := client.list CandleRow (Client.candlesPath id)
  have fetches : client.candles request.runId = .ok (list.map tidy) := by
    rw [Client.candles,read]
    rfl
  have draws : client.runMarkers request = .ok ((list.map tidy).bind fun candles => runMarkers candles request) := by
    rw [Client.runMarkers,fetches]
    rfl
  refine ⟨_,_,fetches,draws,fun network response rows candles delivered decoded admitted => ?_⟩
  have listed : list.answer network = .ok candles :=
    (Client.list_answer delivered decoded).trans (acceptAll_ok.mpr admitted)
  have fetched : (list.map tidy).answer network = .ok (tidy candles) := by
    rw [Api.Call.map,Api.Call.answer_bind,listed]
    rfl
  refine ⟨fetched,?_⟩
  rw [Api.Call.answer_bind,fetched]
  rfl

-- The markers of a run depend on the open times of its bars alone: neither on their order,
-- nor on their prices, nor on how often one of them is given. So it makes no difference which
-- of the bars that share an open time is fetched.
theorem open_times_decide_markers :
    (∀ candles others : List Candle, (∀ t, t ∈ candles.map Candle.openTime ↔ t ∈ others.map Candle.openTime) →
      ∀ request, runMarkers candles request = runMarkers others request) ∧
    (∀ candles request, (runMarkers candles request = .error .emptyGrid ↔ candles = []) ∧
      (candles ≠ [] → ∃ markers, runMarkers candles request = .ok markers)) ∧
    (∀ candles kept, (Tidied candles kept → Bars candles kept) ∧
      (Bars candles kept → ∀ request, runMarkers kept request = runMarkers candles request)) ∧
    (∀ (client : Client) request, isRunId (Text.trim request.runId) = true → ∃ fetch draw,
      client.candles request.runId = .ok fetch ∧ client.runMarkers request = .ok draw ∧
      ∀ network response rows candles, deliver network fetch.request = .ok response →
        response.rows? CandleRow = some rows → Admitted rows candles →
        ∃ kept, fetch.answer network = .ok kept ∧ Tidied candles kept ∧ Bars candles kept ∧
          draw.answer network = runMarkers candles request) := by
  refine ⟨fun _ _ => runMarkers_congr,?_,?_,?_⟩
  · exact fun candles request => ⟨runMarkers_empty candles request,fun some => runMarkers_drawn some request⟩
  · exact fun candles kept => ⟨Tidied.bars,fun bars => runMarkers_congr bars.openTimes⟩
  · intro client request allowed
    obtain ⟨fetch,draw,fetches,draws,answers⟩ := candles_answered client allowed
    refine ⟨fetch,draw,fetches,draws,fun network response rows candles delivered decoded admitted => ?_⟩
    obtain ⟨bars,markers⟩ := answers network response rows candles delivered decoded admitted
    have tidied := tidy_tidied candles
    exact ⟨tidy candles,bars,tidied,tidied.bars,markers.trans (runMarkers_congr tidied.bars.openTimes request)⟩

theorem bars_given_twice :
    let body := "[[60000,1,2,1,2,5],[0,1,1,1,1,1],[60000,2,2,2,2,3]]"
    let network : Api.Network := fun _ => .ok ⟨200,"OK",body.toUTF8⟩
    let client : Client := ⟨"http://localhost:8080",""⟩
    let request : MarkerRequest := ⟨" run-1 ",[⟨20000,.entry,.buy,"in"⟩,⟨50000,.exit,.sell,"out"⟩]⟩
    ∃ fetch draw kept markers, client.candles request.runId = .ok fetch ∧ client.runMarkers request = .ok draw ∧
      fetch.answer network = .ok kept ∧ kept.map Candle.openTime = [0,60000] ∧
      draw.answer network = .ok markers ∧
      markers.map (fun m => (m.snappedTime,m.label)) = [(0,"in"),(60000,"out")] := by
  intro body network client request
  obtain ⟨_,_,_,fetched⟩ := open_times_decide_markers
  obtain ⟨fetch,draw,fetches,draws,answers⟩ := fetched client request (by decide +kernel)
  let number (n : Nat) : Json.Token := .number ⟨false,n,0,none,false⟩
  let bar (numbers : List Nat) : List Json.Token :=
    .openArray :: (numbers.map number).intersperse .comma ++ [.closeArray]
  have spells : Json.Reading.polled.Spells body.toUTF8
      (.array [.array ([60000,1,2,1,2,5].map Json.int),.array ([0,1,1,1,1,1].map Json.int),
        .array ([60000,2,2,2,2,3].map Json.int)]) :=
    Json.Reading.spells_toUTF8 (.openArray :: bar [60000,1,2,1,2,5] ++ .comma :: bar [0,1,1,1,1,1] ++
      .comma :: bar [60000,2,2,2,2,3] ++ [.closeArray]) _ (by decide +kernel) rfl
  let candles : List Candle := [⟨60000,1,2,1,2,5⟩,⟨0,1,1,1,1,1⟩,⟨60000,2,2,2,2,3⟩]
  have decoded : (⟨200,"OK",body.toUTF8⟩ : Api.Response).rows? CandleRow = some (candles.map CandleRow.mk) := by
    have content : Api.Response.content ⟨200,"OK",body.toUTF8⟩ = body.toUTF8 := rfl
    rw [Api.Response.rows?,content,spells.readBytes]
    rfl
  have admitted : Admitted (candles.map CandleRow.mk) candles := by
    unfold Admitted
    rfl
  obtain ⟨kept,bars,_,⟨ascends,_,openTimes⟩,drawn⟩ := answers network _ _ candles rfl decoded admitted
  let g : TimeGrid := ⟨[0,60000],by decide,by decide⟩
  have times : ∀ t, t ∈ candles.map Candle.openTime ↔ t ∈ g.times := by
    intro t
    change t ∈ [60000,0,60000] ↔ t ∈ [0,60000]
    grind
  have built : TimeGrid.ofOpenTimes (candles.map Candle.openTime) = .ok g :=
    TimeGrid.ofOpenTimes_ok.mpr (ascending_eq g.ascends times).symm
  have placed : placeMarkers g request.trades = request.trades.map g.mark :=
    inOrderOf_risen _ (marks_rise g (by decide) (by decide))
  have some : runMarkers candles request = .ok (request.trades.map g.mark) := by
    rw [runMarkers,built,←placed]
    rfl
  have shown : kept.map Candle.openTime = [0,60000] :=
    (List.pairwise_map.mpr ascends).eq_of_mem_iff g.ascends fun t => (openTimes t).trans (times t)
  exact ⟨fetch,draw,kept,_,fetches,draws,bars,shown,drawn.trans some,by decide⟩

end RunWatch.Chart
