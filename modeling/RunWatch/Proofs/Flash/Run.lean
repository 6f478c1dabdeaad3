import RunWatch.Flash
import RunWatch.Proofs.Lookup
namespace RunWatch

inductive FlashSignal where
  | changed (change : FlashChange)
  | cleared
deriving DecidableEq

namespace Flash

def Event.touched? : Event → Option (String × Nat)
  | .touch key now => some (key,now)
  | _ => none

def Event.time? : Event → Option Nat
  | .touch _ now => some now
  | .expire _ now => some now
  | _ => none

def Event.signals (changes : List FlashChange) : Event → List FlashSignal
  | .teardown => changes.map .changed ++ [.cleared]
  | _ => changes.map .changed

def touches (events : List Event) : List (String × Nat) := events.filterMap Event.touched?

theorem touches_append (earlier later : List Event) :
    touches (earlier ++ later) = touches earlier ++ touches later := List.filterMap_append

theorem touches_few {earlier later : List Event} (few : (touches (earlier ++ later)).length < bound) :
    (touches earlier).length < bound := by
  rw [touches_append,List.length_append] at few
  exact Nat.lt_of_le_of_lt (Nat.le_add_right _ _) few

theorem touches_untouched (events : List Event) {more : List Event}
    (untouched : ∀ event ∈ more, event.touched? = none) : touches (events ++ more) = touches events := by
  have none : touches more = [] := List.filterMap_eq_nil_iff.mpr untouched
  rw [touches_append,none,List.append_nil]

theorem concat_split {xs before after : List α} {x y : α} (split : xs ++ [x] = before ++ y :: after) :
    (after = [] ∧ xs = before ∧ x = y) ∨ ∃ rest, after = rest ++ [x] ∧ xs = before ++ y :: rest := by
  rcases List.eq_nil_or_concat after with rfl | ⟨rest,last,rfl⟩
  · obtain ⟨same,final⟩ := List.append_inj' split rfl
    exact Or.inl ⟨rfl,same,(List.cons.inj final).1⟩
  · rw [List.concat_eq_append,← List.cons_append,← List.append_assoc] at split
    obtain ⟨same,final⟩ := List.append_inj' split rfl
    cases final
    exact Or.inr ⟨rest,List.concat_eq_append,same⟩

inductive Taken (f : Flash) : Event → Flash → List FlashChange → Prop where
  | touch : Taken f (.touch key now) (f.touch key now).1 [.activated key]
  | expired (found : f.timer? generation = some t) (due : t.deadline ≤ now)
      (current : f.active.lookup t.key = some generation) :
      Taken f (.expire generation now)
        { f with active:=f.active.filter fun entry => entry.1 != t.key
                 timers:=removeTimer generation f.timers } [.expired t.key]
  | superseded (found : f.timer? generation = some t) (due : t.deadline ≤ now)
      (other : f.active.lookup t.key ≠ some generation) :
      Taken f (.expire generation now) { f with timers:=removeTimer generation f.timers } []
  | abandoned (found : f.timer? generation = some t) (cancelled : t.cancelled = true) :
      Taken f (.abandon generation) { f with timers:=removeTimer generation f.timers } []
  | teardown : Taken f .teardown f.teardown []

section
variable {f next : Flash} {event : Event} {t : FlashTimer} {generation : UInt64}

theorem timer?_some (found : f.timer? generation = some t) : t ∈ f.timers ∧ t.generation = generation := by
  have matching := List.find?_some found
  exact ⟨List.mem_of_find?_eq_some found,eq_of_beq matching⟩

theorem expire_current (current : f.active.lookup t.key = some t.generation) :
    f.expire t =
      ({ f with active:=f.active.filter fun entry => entry.1 != t.key
                timers:=removeTimer t.generation f.timers },[.expired t.key]) := by
  simp [expire,current]

theorem expire_superseded (other : f.active.lookup t.key ≠ some t.generation) :
    f.expire t = ({ f with timers:=removeTimer t.generation f.timers },[]) := by
  simp [expire,other]

theorem advance_taken (took : f.advance event = some (next,changes)) : Taken f event next changes := by
  cases event with
  | touch key now => cases Option.some.inj took; exact .touch
  | expire generation now =>
    obtain ⟨t,found,ran⟩ := Option.bind_eq_some_iff.mp took
    obtain ⟨member,numbered⟩ := timer?_some found
    split at ran
    · rename_i due
      have ran := Option.some.inj ran
      by_cases current : f.active.lookup t.key = some t.generation
      · rw [expire_current current] at ran
        cases ran
        rw [numbered] at current ⊢
        exact .expired found due current
      · rw [expire_superseded current] at ran
        cases ran
        rw [numbered] at current ⊢
        exact .superseded found due current
    · cases ran
  | abandon generation =>
    obtain ⟨t,found,ran⟩ := Option.bind_eq_some_iff.mp took
    obtain ⟨member,numbered⟩ := timer?_some found
    split at ran
    · rename_i cancelled
      cases Option.some.inj ran
      rw [abandon,numbered]
      exact .abandoned found cancelled
    · cases ran
  | teardown => cases Option.some.inj took; exact .teardown

theorem taken_advance (taken : Taken f event next changes) : f.advance event = some (next,changes) := by
  cases taken with
  | touch => rfl
  | expired found due current =>
    obtain ⟨member,rfl⟩ := timer?_some found
    simp [advance,found,due,expire_current current]
  | superseded found due other =>
    obtain ⟨member,rfl⟩ := timer?_some found
    simp [advance,found,due,expire_superseded other]
  | abandoned found cancelled =>
    obtain ⟨member,rfl⟩ := timer?_some found
    simp [advance,found,cancelled,abandon]
  | teardown => rfl

theorem advance_exact : f.advance event = some (next,changes) ↔ Taken f event next changes :=
  ⟨advance_taken,taken_advance⟩

end

inductive Run (hold : Nat) : List Event → Flash → List FlashSignal → Prop where
  | start : Run hold [] (.idle hold) []
  | step (run : Run hold events f told) (event : Event) (took : f.advance event = some (next,changes)) :
      Run hold (events ++ [event]) next (told ++ event.signals changes)

theorem lookup_others (active : List (String × UInt64)) (key other : String) :
    (active.filter fun entry => entry.1 != key).lookup other =
      if other = key then none else active.lookup other := by
  rw [lookup_kept (· != key)]
  by_cases same : other = key <;> simp [same]

theorem touch_lookup (f : Flash) (key other : String) (now : Nat) :
    (f.touch key now).1.active.lookup other =
      if other = key then some (f.lastGeneration + 1) else f.active.lookup other := by
  unfold touch
  rw [lookup_entry,lookup_others]
  split <;> rfl

structure LastTouch (key : String) (events : List Event) where
  earlier : List Event
  time : Nat
  later : List Event
  cut : events = earlier ++ .touch key time :: later
  last : ∀ now, Event.touch key now ∉ later

namespace LastTouch
variable {key : String} {events more : List Event}

-- Touches are numbered from 1, and an expiry bears the number of its touch.
def generation (last : LastTouch key events) : UInt64 := UInt64.ofNat ((touches last.earlier).length + 1)

structure Stands (last : LastTouch key events) : Prop where
  kept : Event.teardown ∉ last.later
  pending : ∀ now, Event.expire last.generation now ∉ last.later

def extend (last : LastTouch key events) (untouched : ∀ now, Event.touch key now ∉ more) :
    LastTouch key (events ++ more) where
  earlier := last.earlier
  time := last.time
  later := last.later ++ more
  cut := by
    have cut := congrArg (· ++ more) last.cut
    simpa using cut
  last := by
    intro now member
    rcases List.mem_append.mp member with prior | newer
    · exact last.last now prior
    · exact untouched now newer

theorem restrict (last : LastTouch key (events ++ more)) (untouched : ∀ now, Event.touch key now ∉ more) :
    ∃ prior : LastTouch key events,
      prior.earlier = last.earlier ∧ prior.time = last.time ∧ last.later = prior.later ++ more := by
  rcases List.append_eq_append_iff.mp last.cut with ⟨between,_,split⟩ | ⟨between,split,rest⟩
  · have member : Event.touch key last.time ∈ more := by simp [split]
    exact absurd member (untouched last.time)
  · cases between with
    | nil =>
      have member : Event.touch key last.time ∈ more := by
        rw [List.nil_append] at rest
        simp [← rest]
      exact absurd member (untouched last.time)
    | cons touch between =>
      obtain ⟨same,later⟩ := List.cons.inj rest
      subst same
      refine ⟨⟨last.earlier,last.time,between,split,?_⟩,rfl,rfl,later⟩
      intro now member
      apply last.last now
      rw [later]
      exact List.mem_append_left _ member

end LastTouch
end Flash
end RunWatch
