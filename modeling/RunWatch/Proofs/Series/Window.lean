import RunWatch.Series
namespace RunWatch.Series

-- A change of values, and what is made of the changes in a window. Nothing is known of
-- the arithmetic of either.
variable (change : Float → Float → Float) (rate : List Float → Float) {window : Nat}

def changes (points : List Point) : List Float :=
  List.zipWith (fun p q => change p.value q.value) points points.tail

def slide (window : Nat) (points : List Point) : List Point :=
  if window = 0 then [] else
  List.zipWith (fun closing trailing => ⟨closing.t,rate trailing⟩)
    (points.drop window) (stretches window (changes change points))

def trailing? (window close : Nat) (values : List Float) : Option (List Float) :=
  if window ≤ close ∧ close ≤ values.length then some ((values.drop (close - window)).take window) else none

-- The same by the places at which windows close. Nothing comes of it if it asks for a
-- point or a change that there is not.
def slideAt? (window : Nat) (points : List Point) : Option (List Point) :=
  if points.length < window + 1 then some [] else
  (List.range' window (points.length - window)).mapM fun close => do
    let trailing ← trailing? window close (changes change points)
    let closing ← points[close]?
    return ⟨closing.t,rate trailing⟩

def relative (before now : Float) : Float := if before == 0.0 then 0.0 else (now - before) / before

theorem returns_eq : (points : List Point) → returns points = changes relative points
  | [] | [_] => rfl
  | p :: q :: rest => by
    rw [returns,returns_eq (q :: rest)]
    rfl

theorem rolling_eq : rolling = slide relative ratio := by
  funext window points
  rw [rolling,slide,returns_eq]

theorem changes_length (points : List Point) : (changes change points).length = points.length - 1 := by
  simp [changes]

theorem changes_part (points : List Point) (i : Nat) :
    changes change ((points.drop i).take (window + 1)) = ((changes change points).drop i).take window := by
  apply List.ext_getElem?
  intro j
  simp only [changes,List.getElem?_zipWith,List.getElem?_tail,List.getElem?_take,List.getElem?_drop]
  by_cases inside : j < window
  · simp [inside,Nat.lt_succ_of_lt inside,Nat.add_assoc]
  · simp [inside]

theorem stretches_getElem? {size : Nat} (positive : 0 < size) (values : List Float) (i : Nat) :
    (stretches size values)[i]? =
      if i + size ≤ values.length then some ((values.drop i).take size) else none := by
  induction values generalizing i with
  | nil =>
    have beyond : ¬ i + size ≤ 0 := by omega
    simp [stretches,beyond]
  | cons v rest ih =>
    rw [stretches]
    by_cases fits : size ≤ rest.length + 1
    · cases i with
      | zero => simp [fits]
      | succ i => simp [fits,ih,Nat.add_right_comm]
    · have beyond : ¬ i + size ≤ rest.length + 1 := by omega
      simp [fits,beyond]

theorem slide_getElem? (positive : 0 < window) (points : List Point) (i : Nat) :
    (slide change rate window points)[i]? =
      points[window + i]?.map fun closing =>
        ⟨closing.t,rate (changes change ((points.drop i).take (window + 1)))⟩ := by
  rw [slide,if_neg (Nat.ne_of_gt positive),List.getElem?_zipWith,stretches_getElem? positive,
    List.getElem?_drop,changes_length,changes_part]
  by_cases shown : window + i < points.length
  · have complete : i + window ≤ points.length - 1 := by omega
    rw [if_pos complete,List.getElem?_eq_getElem shown]
    rfl
  · rw [List.getElem?_eq_none (Nat.le_of_not_lt shown)]
    rfl

theorem slide_length (positive : 0 < window) (points : List Point) :
    (slide change rate window points).length = points.length - window := by
  have beyond : ∀ i, (slide change rate window points).length ≤ i ↔ points.length - window ≤ i := by
    intro i
    rw [←List.getElem?_eq_none_iff,slide_getElem? change rate positive,Option.map_eq_none_iff,
      List.getElem?_eq_none_iff,Nat.sub_le_iff_le_add']
  apply Nat.le_antisymm
  · exact (beyond _).mpr (Nat.le_refl _)
  · exact (beyond _).mp (Nat.le_refl _)

theorem mapM_of_map {f : α → Option β} : {as : List α} → {bs : List β} → as.map f = bs.map some →
    as.mapM f = some bs
  | [], [], _ => rfl
  | a :: as, b :: bs, same => by
    obtain ⟨one,others⟩ := List.cons.inj same
    rw [List.mapM_cons,one,mapM_of_map others]
    rfl

theorem slideAt?_eq (positive : 0 < window) (points : List Point) :
    slideAt? change rate window points = some (slide change rate window points) := by
  unfold slideAt?
  split
  · rename_i few
    have none : (slide change rate window points).length = 0 := by
      rw [slide_length change rate positive]
      omega
    rw [List.length_eq_zero_iff.mp none]
  · apply mapM_of_map
    apply List.ext_getElem?
    intro i
    rw [List.getElem?_map,List.getElem?_map,slide_getElem? change rate positive]
    by_cases shown : window + i < points.length
    · have complete : window + i ≤ (changes change points).length := by
        rw [changes_length]
        omega
      have inside : i < points.length - window := by omega
      simp [inside,trailing?,complete,shown,changes_part]
    · have beyond : points.length - window ≤ i := by omega
      simp [beyond,Nat.le_of_not_lt shown]

-- What makes a series of a series, one point for each window. Each point is made of the
-- points of its own window alone, whatever stands before or behind them.
structure LooksBack (window : Nat) (roll : List Point → List Point) : Prop where
  length : ∀ points, (roll points).length = points.length - window
  times : ∀ points i told, (roll points)[i]? = some told →
    ∃ closing, points[window + i]? = some closing ∧ told.t = closing.t
  alone : ∀ points i told, (roll points)[i]? = some told → roll ((points.drop i).take (window + 1)) = [told]
  extended : ∀ points more, roll points <+: roll (points ++ more)
  dropped : ∀ points k, roll (points.drop k) = (roll points).drop k
  nearby : ∀ points others i, (∀ j, i ≤ j → j ≤ i + window → points[j]? = others[j]?) →
    (roll points)[i]? = (roll others)[i]?

theorem frame_congr {points others : List Point} {i : Nat}
    (same : ∀ j, i ≤ j → j ≤ i + window → points[j]? = others[j]?) :
    (points.drop i).take (window + 1) = (others.drop i).take (window + 1) := by
  apply List.ext_getElem?
  intro j
  simp only [List.getElem?_take,List.getElem?_drop]
  split
  · rename_i inside
    exact same (i + j) (Nat.le_add_right i j) (Nat.add_le_add_left (Nat.le_of_lt_succ inside) i)
  · rfl

theorem slide_nearby (positive : 0 < window) {points others : List Point} {i : Nat}
    (same : ∀ j, i ≤ j → j ≤ i + window → points[j]? = others[j]?) :
    (slide change rate window points)[i]? = (slide change rate window others)[i]? := by
  have closing := same (window + i) (Nat.le_add_left i window) (Nat.le_of_eq (Nat.add_comm window i))
  rw [slide_getElem? change rate positive,slide_getElem? change rate positive,closing,frame_congr same]

theorem slide_dropped (positive : 0 < window) (points : List Point) (k : Nat) :
    slide change rate window (points.drop k) = (slide change rate window points).drop k := by
  apply List.ext_getElem?
  intro i
  rw [List.getElem?_drop,slide_getElem? change rate positive,slide_getElem? change rate positive,
    List.getElem?_drop,List.drop_drop,Nat.add_left_comm]

theorem slide_extended (positive : 0 < window) (points more : List Point) :
    slide change rate window points <+: slide change rate window (points ++ more) := by
  apply List.prefix_iff_getElem?.mpr
  intro i shown
  have complete : window + i < points.length := by
    rw [slide_length change rate positive] at shown
    omega
  have same : ∀ j, i ≤ j → j ≤ i + window → (points ++ more)[j]? = points[j]? := by
    intro j _ inside
    exact List.getElem?_append_left (by omega)
  rw [slide_nearby change rate positive same]
  exact List.getElem?_eq_getElem shown

theorem slide_alone (positive : 0 < window) {points : List Point} {i : Nat} {told : Point}
    (given : (slide change rate window points)[i]? = some told) :
    slide change rate window ((points.drop i).take (window + 1)) = [told] := by
  have shown := (List.getElem?_eq_some_iff.mp given).1
  rw [slide_length change rate positive] at shown
  have single : (slide change rate window ((points.drop i).take (window + 1))).length = 1 := by
    rw [slide_length change rate positive,List.length_take,List.length_drop]
    omega
  obtain ⟨only,made⟩ := List.length_eq_one_iff.mp single
  have first : (slide change rate window (points.drop i))[0]? = some told := by
    rw [slide_dropped change rate positive,List.getElem?_drop]
    exact given
  have same : ∀ j, 0 ≤ j → j ≤ 0 + window → ((points.drop i).take (window + 1))[j]? = (points.drop i)[j]? := by
    intro j _ inside
    exact List.getElem?_take_of_lt (by omega)
  rw [←slide_nearby change rate positive same,made] at first
  rw [made]
  exact congrArg (fun told => [told]) (Option.some.inj first)

theorem slide_looksBack (positive : 0 < window) : LooksBack window (slide change rate window) := by
  refine ⟨slide_length change rate positive,?_,?_,slide_extended change rate positive,
    slide_dropped change rate positive,fun _ _ _ => slide_nearby change rate positive⟩
  · intro points i told given
    rw [slide_getElem? change rate positive,Option.map_eq_some_iff] at given
    obtain ⟨closing,present,rfl⟩ := given
    exact ⟨closing,present,rfl⟩
  · exact fun points i told given => slide_alone change rate positive given

theorem rolling_looks_back {window : Nat} (positive : 0 < window) :
    LooksBack window (rolling window) ∧
    (∀ points, slideAt? relative ratio window points = some (rolling window points)) ∧
    (∀ change rate, LooksBack window (slide change rate window) ∧
      ∀ points, slideAt? change rate window points = some (slide change rate window points)) := by
  have every : ∀ change rate, LooksBack window (slide change rate window) ∧
      ∀ points, slideAt? change rate window points = some (slide change rate window points) :=
    fun change rate => ⟨slide_looksBack change rate positive,slideAt?_eq change rate positive⟩
  obtain ⟨back,inside⟩ := every relative ratio
  rw [←rolling_eq] at back inside
  exact ⟨back,inside,every⟩

theorem first_value_forgotten :
    let points : List Point := [⟨0,100⟩,⟨1000,101⟩,⟨2000,0⟩,⟨3000,101.5⟩]
    0 < 2 ∧ (rolling 2 points).length = 2 ∧
      (rolling 2 points)[1]? = (rolling 2 (⟨0,-7⟩ :: points.tail))[1]? ∧
      ∃ told, rolling 2 points.tail = [told] ∧ told.t = 3000 := by
  intro points
  have positive : 0 < 2 := by decide
  obtain ⟨back,_⟩ := rolling_looks_back positive
  have length : (rolling 2 points).length = 2 := back.length points
  refine ⟨positive,length,?_,?_⟩
  · apply back.nearby
    intro j after _
    match j, after with
    | j + 1, _ => rfl
  · let told := (rolling 2 points)[1]
    have given : (rolling 2 points)[1]? = some told := List.getElem?_eq_getElem _
    obtain ⟨closing,present,same⟩ := back.times points 1 told given
    cases present
    exact ⟨told,back.alone points 1 told given,same⟩

end RunWatch.Series
