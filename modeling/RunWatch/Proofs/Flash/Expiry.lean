import Mathlib.Data.List.Nodup
import RunWatch.Proofs.Flash.Run
namespace RunWatch.Flash

def Numbered (events : List Event) (generation : UInt64) (key : String) (time : Nat) : Prop :=
  ∃ i, generation.toNat = i + 1 ∧ (touches events)[i]? = some (key,time)

section
variable {events more : List Event} {generation : UInt64} {key other : String}

theorem Numbered.unique (one : Numbered events generation key time) (two : Numbered events generation other time') :
    key = other ∧ time = time' := by
  obtain ⟨i,counted,found⟩ := one
  obtain ⟨j,counted',found'⟩ := two
  have same : i = j := by omega
  subst same
  rw [found] at found'
  cases found'
  exact ⟨rfl,rfl⟩

theorem Numbered.append (numbered : Numbered events generation key time) (more : List Event) :
    Numbered (events ++ more) generation key time := by
  obtain ⟨i,counted,found⟩ := numbered
  obtain ⟨bound,_⟩ := List.getElem?_eq_some_iff.mp found
  refine ⟨i,counted,?_⟩
  rw [touches_append,List.getElem?_append_left bound,found]

theorem Numbered.le (numbered : Numbered events generation key time) :
    generation.toNat ≤ (touches events).length := by
  obtain ⟨i,counted,found⟩ := numbered
  obtain ⟨bound,_⟩ := List.getElem?_eq_some_iff.mp found
  omega

theorem LastTouch.touches_eq (last : LastTouch key events) :
    touches events = touches last.earlier ++ (key,last.time) :: touches last.later := by
  have cut := congrArg touches last.cut
  rwa [touches_append] at cut

theorem LastTouch.generation_toNat (last : LastTouch key events)
    (few : (touches events).length < UInt64.size) :
    last.generation.toNat = (touches last.earlier).length + 1 := by
  rw [last.touches_eq,List.length_append,List.length_cons] at few
  exact UInt64.toNat_ofNat_of_lt' (by omega)

theorem LastTouch.numbered (last : LastTouch key events) (few : (touches events).length < UInt64.size) :
    Numbered events last.generation key last.time := by
  refine ⟨(touches last.earlier).length,last.generation_toNat few,?_⟩
  rw [last.touches_eq]
  simp

end

theorem cancel_generations (doomed : FlashTimer → Bool) (timers : List FlashTimer) :
    (cancel doomed timers).map FlashTimer.generation = timers.map FlashTimer.generation := by
  unfold cancel
  rw [List.map_map]
  apply List.map_congr_left
  intro t _
  simp only [Function.comp_apply]
  split <;> rfl

theorem mem_cancel {doomed : FlashTimer → Bool} {timers : List FlashTimer} {t : FlashTimer}
    (member : t ∈ cancel doomed timers) :
    ∃ old ∈ timers, t.key = old.key ∧ t.generation = old.generation ∧ t.deadline = old.deadline ∧
      (t.cancelled = false → doomed old = false ∧ old.cancelled = false) := by
  obtain ⟨old,present,rfl⟩ := List.mem_map.mp member
  refine ⟨old,present,?_⟩
  by_cases chosen : doomed old = true
  · simp [chosen]
  · simp [chosen]

theorem cancel_spares {doomed : FlashTimer → Bool} {timers : List FlashTimer} {t : FlashTimer}
    (member : t ∈ timers) (spared : doomed t = false) : t ∈ cancel doomed timers :=
  List.mem_map.mpr ⟨t,member,by simp [spared]⟩

theorem mem_removeTimer {timers : List FlashTimer} {t : FlashTimer} :
    t ∈ removeTimer generation timers ↔ t ∈ timers ∧ t.generation ≠ generation := by
  simp [removeTimer]

-- Keys and timers as a run leaves them. A key and the timer that will end it bear
-- the number of the key's last touch; other timers wait in vain.
structure Sound (hold : Nat) (events : List Event) (f : Flash) : Prop where
  held : f.hold = hold
  count : f.lastGeneration.toNat = (touches events).length
  armed : ∀ key generation, f.active.lookup key = some generation →
    ∃ t ∈ f.timers, t.key = key ∧ t.generation = generation ∧ t.cancelled = false
  set : ∀ t ∈ f.timers, ∃ time, Numbered events t.generation t.key time ∧ t.deadline = time + hold
  live : ∀ t ∈ f.timers, t.cancelled = false → f.active.lookup t.key = some t.generation
  distinct : (f.timers.map FlashTimer.generation).Nodup

namespace Sound
variable {hold now : Nat} {events : List Event} {event : Event} {f : Flash} {t u : FlashTimer}
  {generation : UInt64} {key : String}

theorem start (hold : Nat) : Sound hold [] (.idle hold) :=
  ⟨rfl,rfl,by simp [idle],by simp [idle],by simp [idle],by simp [idle]⟩

theorem numbered (sound : Sound hold events f) (active : f.active.lookup key = some generation) :
    ∃ time, Numbered events generation key time := by
  obtain ⟨t,member,named,counted,_⟩ := sound.armed key generation active
  obtain ⟨time,number,_⟩ := sound.set t member
  rw [named,counted] at number
  exact ⟨time,number⟩

theorem same_timer (sound : Sound hold events f) (one : t ∈ f.timers) (two : u ∈ f.timers)
    (same : t.generation = u.generation) : t = u :=
  List.inj_on_of_nodup_map sound.distinct one two same

theorem same_key (sound : Sound hold events f) (member : t ∈ f.timers)
    (active : f.active.lookup key = some t.generation) : t.key = key := by
  obtain ⟨time,number,_⟩ := sound.set t member
  obtain ⟨time',number'⟩ := sound.numbered active
  exact (number.unique number').1

theorem timer? (sound : Sound hold events f) (member : t ∈ f.timers) : f.timer? t.generation = some t := by
  have present : (f.timer? t.generation).isSome := by
    unfold Flash.timer?
    rw [List.find?_isSome]
    exact ⟨t,member,by simp⟩
  obtain ⟨u,found⟩ := Option.isSome_iff_exists.mp present
  obtain ⟨member',same⟩ := timer?_some found
  rw [found,sound.same_timer member' member same]

theorem touch (sound : Sound hold events f)
    (few : (touches (events ++ [.touch key now])).length < UInt64.size) :
    Sound hold (events ++ [.touch key now]) (f.touch key now).1 := by
  have length : (touches (events ++ [.touch key now])).length = (touches events).length + 1 := by
    rw [touches_append]
    exact List.length_append
  have count : (f.lastGeneration + 1).toNat = (touches events).length + 1 := by
    have size : UInt64.size = 2 ^ 64 := rfl
    rw [UInt64.toNat_add,sound.count]
    exact Nat.mod_eq_of_lt (by change _ + 1 < _; omega)
  have newest : ∀ t ∈ f.timers, t.generation ≠ f.lastGeneration + 1 := by
    intro t member same
    obtain ⟨time,number,_⟩ := sound.set t member
    have bound := number.le
    rw [same,count] at bound
    omega
  have timers : (f.touch key now).1.timers =
      cancel (fun t => f.active.lookup key == some t.generation) f.timers ++
        [⟨key,f.lastGeneration + 1,now + f.hold,false⟩] := rfl
  refine ⟨sound.held,by rw [length]; exact count,?_,?_,?_,?_⟩
  · intro other generation active
    rw [touch_lookup] at active
    rw [timers]
    split at active
    · rename_i same
      cases active
      exact ⟨_,List.mem_append_right _ List.mem_cons_self,same.symm,rfl,rfl⟩
    · rename_i distinct
      obtain ⟨t,member,named,counted,live⟩ := sound.armed other generation active
      have spared : (f.active.lookup key == some t.generation) = false := by
        rw [beq_eq_false_iff_ne]
        intro held
        exact distinct (named.symm.trans (sound.same_key member held))
      exact ⟨t,List.mem_append_left _ (cancel_spares member spared),named,counted,live⟩
  · intro t member
    rw [timers] at member
    rcases List.mem_append.mp member with prior | newer
    · obtain ⟨old,present,named,counted,deadline,_⟩ := mem_cancel prior
      obtain ⟨time,number,due⟩ := sound.set old present
      rw [named,counted,deadline]
      exact ⟨time,number.append _,due⟩
    · cases List.mem_singleton.mp newer
      refine ⟨now,⟨(touches events).length,count,?_⟩,by rw [sound.held]⟩
      rw [touches_append]
      simp [touches,Event.touched?]
  · intro t member live
    rw [timers] at member
    rw [touch_lookup]
    rcases List.mem_append.mp member with prior | newer
    · obtain ⟨old,present,named,counted,_,spared⟩ := mem_cancel prior
      obtain ⟨spared,live⟩ := spared live
      have active := sound.live old present live
      have distinct : t.key ≠ key := by
        intro same
        rw [← named,same] at active
        simp [active] at spared
      rw [if_neg distinct,named,counted,active]
    · cases List.mem_singleton.mp newer
      exact if_pos rfl
  · rw [timers,List.map_append,cancel_generations,List.nodup_append]
    refine ⟨sound.distinct,List.nodup_singleton _,?_⟩
    intro generation member other last same
    obtain ⟨t,present,rfl⟩ := List.mem_map.mp member
    cases List.mem_singleton.mp last
    exact newest t present same

-- A timer has ended, and took nothing with it but the key of its own generation.
theorem removed (sound : Sound hold events f) {active : List (String × UInt64)}
    (untouched : event.touched? = none)
    (kept : ∀ key other, active.lookup key = some other →
      f.active.lookup key = some other ∧ other ≠ generation)
    (live : ∀ u ∈ f.timers, u.generation ≠ generation → u.cancelled = false →
      active.lookup u.key = some u.generation) :
    Sound hold (events ++ [event]) { f with active:=active, timers:=removeTimer generation f.timers } := by
  have same : touches (events ++ [event]) = touches events :=
    touches_untouched events (by simpa using untouched)
  refine ⟨sound.held,by rw [same]; exact sound.count,?_,?_,?_,?_⟩
  · intro key other held
    obtain ⟨held,different⟩ := kept key other held
    obtain ⟨t,member,named,counted,live⟩ := sound.armed key other held
    exact ⟨t,mem_removeTimer.mpr ⟨member,by rwa [counted]⟩,named,counted,live⟩
  · intro t member
    obtain ⟨time,number,due⟩ := sound.set t (mem_removeTimer.mp member).1
    exact ⟨time,number.append _,due⟩
  · intro t member uncancelled
    obtain ⟨member,different⟩ := mem_removeTimer.mp member
    exact live t member different uncancelled
  · exact sound.distinct.sublist (List.filter_sublist.map _)

theorem expired (sound : Sound hold events f) (found : f.timer? generation = some t)
    (current : f.active.lookup t.key = some generation) :
    Sound hold (events ++ [.expire generation now])
      { f with active:=f.active.filter fun entry => entry.1 != t.key
               timers:=removeTimer generation f.timers } := by
  obtain ⟨member,rfl⟩ := timer?_some found
  apply sound.removed rfl
  · intro key other held
    rw [lookup_others] at held
    split at held
    · cases held
    · rename_i distinct
      refine ⟨held,?_⟩
      intro same
      subst same
      exact distinct (sound.same_key member held).symm
  · intro u present different uncancelled
    have active := sound.live u present uncancelled
    rw [lookup_others,if_neg,active]
    intro same
    rw [same,current] at active
    exact different (Option.some.inj active).symm

theorem superseded (sound : Sound hold events f) (untouched : event.touched? = none)
    (found : f.timer? generation = some t) (other : f.active.lookup t.key ≠ some generation) :
    Sound hold (events ++ [event]) { f with timers:=removeTimer generation f.timers } := by
  obtain ⟨member,rfl⟩ := timer?_some found
  apply sound.removed untouched
  · intro key generation held
    refine ⟨held,?_⟩
    intro same
    subst same
    rw [sound.same_key member held] at other
    exact other held
  · intro u present _ uncancelled
    exact sound.live u present uncancelled

theorem cancelled_other (sound : Sound hold events f) (member : t ∈ f.timers) (cancelled : t.cancelled = true) :
    f.active.lookup t.key ≠ some t.generation := by
  intro active
  obtain ⟨u,present,_,counted,live⟩ := sound.armed t.key t.generation active
  rw [sound.same_timer present member counted,cancelled] at live
  cases live

theorem teardown (sound : Sound hold events f) : Sound hold (events ++ [.teardown]) f.teardown := by
  have same : touches (events ++ [.teardown]) = touches events :=
    touches_untouched events (by simp [Event.touched?])
  refine ⟨sound.held,by rw [same]; exact sound.count,?_,?_,?_,?_⟩
  · intro key generation active
    cases active
  · intro t member
    obtain ⟨old,present,named,counted,deadline,_⟩ := mem_cancel member
    obtain ⟨time,number,due⟩ := sound.set old present
    rw [named,counted,deadline]
    exact ⟨time,number.append _,due⟩
  · intro t member uncancelled
    obtain ⟨old,present,_,_,_,spared⟩ := mem_cancel member
    obtain ⟨spared,live⟩ := spared uncancelled
    obtain ⟨_,_,split,_⟩ := List.lookup_eq_some_iff.mp (sound.live old present live)
    simp [split] at spared
  · change ((cancel _ f.timers).map FlashTimer.generation).Nodup
    rw [cancel_generations]
    exact sound.distinct

theorem taken (sound : Sound hold events f) (taken : Taken f event next changes)
    (few : (touches (events ++ [event])).length < UInt64.size) : Sound hold (events ++ [event]) next := by
  cases taken with
  | touch => exact sound.touch few
  | expired found due current => exact sound.expired found current
  | superseded found due other => exact sound.superseded rfl found other
  | abandoned found cancelled =>
    obtain ⟨member,rfl⟩ := timer?_some found
    exact sound.superseded rfl found (sound.cancelled_other member cancelled)
  | teardown => exact sound.teardown

end Sound

variable {hold : Nat} {events : List Event} {event : Event} {f next : Flash} {key : String}
  {generation : UInt64} {now : Nat} {t : FlashTimer}

theorem run_sound (run : Run hold events f told) (few : (touches events).length < UInt64.size) :
    Sound hold events f := by
  induction run with
  | start => exact .start hold
  | step run event took ih => exact (ih (touches_few few)).taken (advance_taken took) few

-- What the events of a run say of a key: the number of its last touch, if nothing has
-- ended what that began.
def Standing (events : List Event) (key : String) (generation : UInt64) : Prop :=
  ∃ last : LastTouch key events, last.Stands ∧ last.generation = generation

theorem standing_touch (events : List Event) (key : String) (now : Nat) :
    Standing (events ++ [.touch key now]) key generation ↔
      generation = UInt64.ofNat ((touches events).length + 1) := by
  constructor
  · rintro ⟨last,_,rfl⟩
    rcases concat_split last.cut with ⟨_,same,_⟩ | ⟨rest,later,_⟩
    · rw [LastTouch.generation,← same]
    · have member : Event.touch key now ∈ last.later := by
        rw [later]
        exact List.mem_append_right _ List.mem_cons_self
      exact absurd member (last.last now)
  · rintro rfl
    let last : LastTouch key (events ++ [.touch key now]) := ⟨events,now,[],rfl,by simp⟩
    exact ⟨last,⟨by simp [last],by simp [last]⟩,rfl⟩

theorem standing_other (untouched : ∀ now, event ≠ .touch key now) :
    Standing (events ++ [event]) key generation ↔
      Standing events key generation ∧ event ≠ .teardown ∧ ∀ now, event ≠ .expire generation now := by
  have untouched : ∀ now, Event.touch key now ∉ [event] := by
    intro now member
    exact untouched now (List.mem_singleton.mp member).symm
  constructor
  · rintro ⟨last,stands,rfl⟩
    obtain ⟨prior,earlier,time,later⟩ := last.restrict untouched
    have same : prior.generation = last.generation := by
      rw [LastTouch.generation,LastTouch.generation,earlier]
    have kept := stands.kept
    have pending := stands.pending
    rw [later] at kept pending
    refine ⟨⟨prior,⟨?_,?_⟩,same⟩,?_,?_⟩
    · intro member
      exact kept (List.mem_append_left _ member)
    · intro now member
      rw [same] at member
      exact pending now (List.mem_append_left _ member)
    · rintro rfl
      exact kept (List.mem_append_right _ List.mem_cons_self)
    · intro now expired
      rw [← same] at expired
      apply pending now
      rw [← same,← expired]
      exact List.mem_append_right _ List.mem_cons_self
  · rintro ⟨⟨last,stands,rfl⟩,kept,pending⟩
    refine ⟨last.extend untouched,⟨?_,?_⟩,rfl⟩
    · intro member
      rcases List.mem_append.mp member with prior | final
      · exact stands.kept prior
      · exact kept (List.mem_singleton.mp final).symm
    · intro now member
      rcases List.mem_append.mp member with prior | final
      · exact stands.pending now prior
      · exact pending now (List.mem_singleton.mp final).symm

theorem standing_taken (sound : Sound hold events f) (taken : Taken f event next changes)
    (stands : ∀ key generation, f.active.lookup key = some generation ↔ Standing events key generation)
    (key : String) (generation : UInt64) :
    next.active.lookup key = some generation ↔ Standing (events ++ [event]) key generation := by
  cases taken with
  | @touch touched now =>
    rw [touch_lookup]
    split
    · rename_i same
      subst same
      have number : UInt64.ofNat ((touches events).length + 1) = f.lastGeneration + 1 := by
        rw [← sound.count,UInt64.ofNat_add,UInt64.ofNat_toNat]
        rfl
      rw [standing_touch,number,Option.some.injEq,eq_comm]
    · rename_i distinct
      have untouched : ∀ time, Event.touch touched now ≠ .touch key time := by
        rintro time same
        cases same
        exact distinct rfl
      rw [standing_other untouched,stands]
      simp
  | @expired number t now found due current =>
    obtain ⟨member,rfl⟩ := timer?_some found
    rw [standing_other (by simp),lookup_others,← stands]
    split
    · rename_i same
      subst same
      rw [current]
      simp
    · rename_i distinct
      constructor
      · intro active
        refine ⟨active,by simp,?_⟩
        rintro now same
        cases same
        exact distinct (sound.same_key member active).symm
      · exact fun still => still.1
  | @superseded number t now found due other =>
    obtain ⟨member,rfl⟩ := timer?_some found
    rw [standing_other (by simp),← stands]
    constructor
    · intro active
      refine ⟨active,by simp,?_⟩
      rintro now same
      cases same
      rw [sound.same_key member active] at other
      exact other active
    · exact fun still => still.1
  | abandoned found cancelled =>
    rw [standing_other (by simp),stands]
    simp
  | teardown =>
    rw [standing_other (by simp)]
    simp [Flash.teardown]

theorem run_standing (run : Run hold events f told) (few : (touches events).length < UInt64.size)
    (key : String) (generation : UInt64) :
    f.active.lookup key = some generation ↔ Standing events key generation := by
  induction run generalizing key generation with
  | start =>
    constructor
    · intro active
      simp [idle] at active
    · rintro ⟨last,_⟩
      have cut := last.cut
      simp at cut
  | step run event took ih =>
    have before := touches_few few
    exact standing_taken (run_sound run before) (advance_taken took) (ih before) key generation

theorem isActive_iff : f.isActive key = true ↔ ∃ generation, f.active.lookup key = some generation :=
  Option.isSome_iff_exists

def By (now : Nat) (events : List Event) : Prop :=
  ∀ event ∈ events, ∀ time, event.time? = some time → time ≤ now

def Fresh (hold now : Nat) (events : List Event) (key : String) : Prop :=
  ∃ last : LastTouch key events, Event.teardown ∉ last.later ∧ last.time ≤ now ∧ now < last.time + hold

theorem LastTouch.mem (last : LastTouch key events) : Event.touch key last.time ∈ events := by
  have member : Event.touch key last.time ∈ last.earlier ++ .touch key last.time :: last.later := by simp
  rwa [← last.cut] at member

theorem LastTouch.mem_later (last : LastTouch key events) (later : event ∈ last.later) : event ∈ events := by
  have member : event ∈ last.earlier ++ .touch key last.time :: last.later := by simp [later]
  rwa [← last.cut] at member

theorem run_punctual (run : Run hold events f told) (few : (touches events).length < UInt64.size)
    (ran : Event.expire generation now ∈ events) :
    ∃ key time, Numbered events generation key time ∧ time + hold ≤ now := by
  induction run with
  | start => cases ran
  | @step events f told next changes run event took ih =>
    have before := touches_few few
    rcases List.mem_append.mp ran with earlier | last
    · obtain ⟨key,time,number,due⟩ := ih before earlier
      exact ⟨key,time,number.append _,due⟩
    · cases List.mem_singleton.mp last
      have due : ∃ t ∈ f.timers, t.generation = generation ∧ t.deadline ≤ now := by
        cases advance_taken took with
        | expired found due current => exact ⟨_,(timer?_some found).1,(timer?_some found).2,due⟩
        | superseded found due other => exact ⟨_,(timer?_some found).1,(timer?_some found).2,due⟩
      obtain ⟨t,member,rfl,due⟩ := due
      obtain ⟨time,number,deadline⟩ := (run_sound run before).set t member
      rw [deadline] at due
      exact ⟨t.key,time,number.append _,due⟩

theorem active_fresh (run : Run hold events f told) (few : (touches events).length < UInt64.size)
    (happened : By now events) (settled : ∀ t ∈ f.timers, t.cancelled = false → now < t.deadline) (key : String) :
    f.isActive key = true ↔ Fresh hold now events key := by
  have sound := run_sound run few
  rw [isActive_iff]
  constructor
  · rintro ⟨generation,active⟩
    obtain ⟨last,stands,rfl⟩ := (run_standing run few key generation).mp active
    obtain ⟨t,member,named,counted,live⟩ := sound.armed key _ active
    obtain ⟨time,number,deadline⟩ := sound.set t member
    rw [counted] at number
    obtain ⟨_,same⟩ := number.unique (last.numbered few)
    have waiting := settled t member live
    have touched := happened _ last.mem last.time rfl
    exact ⟨last,stands.kept,touched,by omega⟩
  · rintro ⟨last,kept,touched,held⟩
    refine ⟨last.generation,(run_standing run few key _).mpr ⟨last,⟨kept,?_⟩,rfl⟩⟩
    intro time member
    have ran := last.mem_later member
    obtain ⟨key',time',number,due⟩ := run_punctual run few ran
    obtain ⟨_,same⟩ := number.unique (last.numbered few)
    have bound := happened _ ran time rfl
    omega

def earlierTimer (first : Option FlashTimer) (t : FlashTimer) : Option FlashTimer :=
  match first with
  | none => some t
  | some f => if t.deadline < f.deadline then some t else some f

theorem foldl_earlierTimer (first : Option FlashTimer) (timers : List FlashTimer) :
    (timers.foldl earlierTimer first = none → timers = []) ∧
    ∀ t, timers.foldl earlierTimer first = some t → first = some t ∨ t ∈ timers := by
  induction timers generalizing first with
  | nil => exact ⟨fun _ => rfl,fun t found => Or.inl found⟩
  | cons head rest ih =>
    have chosen : ∃ t, earlierTimer first head = some t ∧ (first = some t ∨ t = head) := by
      cases first with
      | none => exact ⟨head,rfl,Or.inr rfl⟩
      | some other =>
        by_cases sooner : head.deadline < other.deadline
        · exact ⟨head,if_pos sooner,Or.inr rfl⟩
        · exact ⟨other,if_neg sooner,Or.inl rfl⟩
    obtain ⟨t,picked,origin⟩ := chosen
    obtain ⟨nothing,found⟩ := ih (some t)
    rw [List.foldl_cons,picked]
    constructor
    · intro none
      rw [nothing none] at none
      cases none
    · intro u final
      rcases found u final with same | later
      · cases same
        rcases origin with prior | head
        · exact Or.inl prior
        · exact Or.inr (List.mem_cons.mpr (Or.inl head))
      · exact Or.inr (List.mem_cons_of_mem _ later)

theorem due?_none {timers : List FlashTimer} (nothing : due? now timers = none) :
    ∀ t ∈ timers, t.cancelled = false → now < t.deadline := by
  intro t member live
  have empty := (foldl_earlierTimer none _).1 nothing
  have late := List.filter_eq_nil_iff.mp empty t member
  simpa [live] using late

theorem due?_some {timers : List FlashTimer} (found : due? now timers = some t) :
    t ∈ timers ∧ t.deadline ≤ now := by
  rcases (foldl_earlierTimer none _).2 t found with nothing | member
  · cases nothing
  · obtain ⟨present,due⟩ := List.mem_filter.mp member
    simp only [Bool.and_eq_true,decide_eq_true_eq] at due
    exact ⟨present,due.2⟩

-- Running what is due is a run of expiries; with one step for each timer nothing due
-- is left.
theorem settleWithin_run (now fuel : Nat) (run : Run hold events f told)
    (few : (touches events).length < UInt64.size) :
    ∃ more, Run hold (events ++ more) (settleWithin fuel f now).1
        (told ++ (settleWithin fuel f now).2.map .changed) ∧
      (∀ event ∈ more, ∃ generation, event = .expire generation now) ∧
      (f.timers.length ≤ fuel →
        ∀ t ∈ (settleWithin fuel f now).1.timers, t.cancelled = false → now < t.deadline) := by
  induction fuel generalizing events f told with
  | zero =>
    refine ⟨[],by simpa [settleWithin] using run,by simp,?_⟩
    intro none t member
    have empty := List.length_eq_zero_iff.mp (Nat.le_zero.mp none)
    simp [settleWithin,empty] at member
  | succ fuel ih =>
    unfold settleWithin
    cases first : due? now f.timers with
    | none => exact ⟨[],by simpa using run,by simp,fun _ => due?_none first⟩
    | some t =>
      obtain ⟨member,due⟩ := due?_some first
      have took : f.advance (.expire t.generation now) = some (f.expire t) := by
        simp [advance,(run_sound run few).timer? member,due]
      have stepped : Run hold (events ++ [.expire t.generation now]) (f.expire t).1
          (told ++ (f.expire t).2.map .changed) := run.step (.expire t.generation now) took
      have same : touches (events ++ [.expire t.generation now]) = touches events :=
        touches_untouched events (by simp [Event.touched?])
      have shorter : (f.expire t).1.timers.length < f.timers.length := by
        have timers : (f.expire t).1.timers = removeTimer t.generation f.timers := by
          unfold expire
          dsimp only
          split <;> rfl
        rw [timers]
        exact List.length_filter_lt_length_iff_exists.mpr ⟨t,member,by simp⟩
      obtain ⟨more,ran,expiries,done⟩ := ih stepped (by rw [same]; exact few)
      refine ⟨.expire t.generation now :: more,?_,?_,fun enough => done (by omega)⟩
      · simpa using ran
      · intro event member
        rcases List.mem_cons.mp member with rfl | later
        · exact ⟨t.generation,rfl⟩
        · exact expiries event later

theorem settle_fresh (run : Run hold events f told) (few : (touches events).length < UInt64.size)
    (happened : By now events) (key : String) :
    (f.settle now).1.isActive key = true ↔ Fresh hold now events key := by
  obtain ⟨more,ran,expiries,done⟩ := settleWithin_run now f.timers.length run few
  have untouched : ∀ time, Event.touch key time ∉ more := by
    intro time member
    obtain ⟨_,same⟩ := expiries _ member
    cases same
  have kept : Event.teardown ∉ more := by
    intro member
    obtain ⟨_,same⟩ := expiries _ member
    cases same
  have same : touches (events ++ more) = touches events := by
    apply touches_untouched
    intro event member
    obtain ⟨_,rfl⟩ := expiries event member
    rfl
  have happened : By now (events ++ more) := by
    intro event member time timed
    rcases List.mem_append.mp member with prior | newer
    · exact happened event prior time timed
    · obtain ⟨_,rfl⟩ := expiries event newer
      cases timed
      exact Nat.le_refl _
  have active := active_fresh ran (by rw [same]; exact few) happened (done (Nat.le_refl _)) key
  refine Iff.trans active ⟨?_,?_⟩
  · rintro ⟨last,stays,touched,held⟩
    obtain ⟨prior,_,time,later⟩ := last.restrict untouched
    rw [later] at stays
    refine ⟨prior,fun member => stays (List.mem_append_left _ member),?_⟩
    rw [time]
    exact ⟨touched,held⟩
  · rintro ⟨last,stays,touched,held⟩
    refine ⟨last.extend untouched,?_,touched,held⟩
    intro member
    rcases List.mem_append.mp member with prior | newer
    · exact stays prior
    · exact kept newer

theorem cancelled_harmless (sound : Sound hold events f) {t : FlashTimer} (member : t ∈ f.timers)
    (cancelled : t.cancelled = true) : (f.expire t).1.active = f.active ∧ (f.expire t).2 = [] := by
  rw [expire_superseded (sound.cancelled_other member cancelled)]
  exact ⟨rfl,rfl⟩

-- A timer that is not cancelled belongs to a touch since the last teardown.
theorem cancelled_by_teardown (run : Run hold events f told) (few : (touches events).length < UInt64.size)
    {before after : List Event} (cut : events = before ++ .teardown :: after) {t : FlashTimer}
    (member : t ∈ f.timers) (old : t.generation.toNat ≤ (touches before).length) : t.cancelled = true := by
  cases cancelled : t.cancelled with
  | true => rfl
  | false =>
    have active := (run_sound run few).live t member cancelled
    obtain ⟨last,stands,same⟩ := (run_standing run few t.key t.generation).mp active
    have counted := last.generation_toNat few
    have cut' := cut.symm.trans last.cut
    rcases List.append_eq_append_iff.mp cut' with ⟨between,split,_⟩ | ⟨between,_,rest⟩
    · rw [same,split,touches_append,List.length_append] at counted
      omega
    · cases between with
      | nil => cases rest
      | cons touch between =>
        obtain ⟨_,later⟩ := List.cons.inj rest
        have member : Event.teardown ∈ last.later := by
          rw [later]
          simp
        exact absurd member stands.kept

structure Registered (hold : Nat) (events : List Event) (f : Flash) : Prop where
  active : ∀ key, f.isActive key = true ↔ ∃ last : LastTouch key events, last.Stands
  timer : ∀ key, f.isActive key = true → ∃ last : LastTouch key events,
    f.timers.filter (fun t => !t.cancelled && t.key == key) =
      [⟨key,last.generation,last.time + hold,false⟩]
  others : ∀ t ∈ f.timers, t.cancelled = false → f.isActive t.key = true
  stale : ∀ t ∈ f.timers, t.cancelled = true → (f.expire t).1.active = f.active ∧ (f.expire t).2 = []
  cleared : ∀ before after, events = before ++ .teardown :: after →
    ∀ t ∈ f.timers, t.generation.toNat ≤ (touches before).length → t.cancelled = true
  onTime : ∀ now, By now events → (∀ t ∈ f.timers, t.cancelled = false → now < t.deadline) →
    ∀ key, f.isActive key = true ↔ Fresh hold now events key
  settled : ∀ now, By now events → ∀ key, (f.settle now).1.isActive key = true ↔ Fresh hold now events key

theorem live_timer (run : Run hold events f told) (few : (touches events).length < UInt64.size)
    (active : f.isActive key = true) : ∃ last : LastTouch key events,
      f.timers.filter (fun t => !t.cancelled && t.key == key) =
        [⟨key,last.generation,last.time + hold,false⟩] := by
  have sound := run_sound run few
  obtain ⟨generation,active⟩ := isActive_iff.mp active
  obtain ⟨last,_,rfl⟩ := (run_standing run few key generation).mp active
  obtain ⟨t,member,named,counted,live⟩ := sound.armed key _ active
  obtain ⟨time,number,deadline⟩ := sound.set t member
  rw [counted] at number
  obtain ⟨_,same⟩ := number.unique (last.numbered few)
  have timer : t = ⟨key,last.generation,last.time + hold,false⟩ := by
    obtain ⟨_,_,_,_⟩ := t
    simp_all
  refine ⟨last,?_⟩
  rw [← timer]
  apply List.perm_singleton.mp
  apply (List.perm_ext_iff_of_nodup (sound.distinct.of_map.filter _) (List.nodup_singleton t)).mpr
  intro u
  rw [List.mem_filter,List.mem_singleton]
  constructor
  · rintro ⟨present,mine⟩
    simp only [Bool.and_eq_true,Bool.not_eq_true',beq_iff_eq] at mine
    have held := sound.live u present mine.1
    rw [mine.2,active] at held
    exact sound.same_timer present member ((Option.some.inj held).symm.trans counted.symm)
  · rintro rfl
    exact ⟨member,by simp [live,named]⟩

-- A key is held by its last touch alone, for as long as that holds: an expiry that
-- comes late, cancelled or not, ends no newer one.
theorem late_expiry_spares_newer_touch (run : Run hold events f told)
    (few : (touches events).length < UInt64.size) : Registered hold events f where
  active := by
    intro key
    rw [isActive_iff]
    constructor
    · rintro ⟨generation,active⟩
      obtain ⟨last,stands,_⟩ := (run_standing run few key generation).mp active
      exact ⟨last,stands⟩
    · rintro ⟨last,stands⟩
      exact ⟨last.generation,(run_standing run few key _).mpr ⟨last,stands,rfl⟩⟩
  timer := fun _ active => live_timer run few active
  others := by
    intro t member live
    exact isActive_iff.mpr ⟨t.generation,(run_sound run few).live t member live⟩
  stale := fun _ member cancelled => cancelled_harmless (run_sound run few) member cancelled
  cleared := fun _ _ cut _ member old => cancelled_by_teardown run few cut member old
  onTime := fun _ happened settled key => active_fresh run few happened settled key
  settled := fun _ happened key => settle_fresh run few happened key

theorem late_expiries_spare_third_touch :
    let events : List Event :=
      [.touch "A" 0,.touch "A" 100,.expire 1 650,.teardown,.touch "A" 660,.expire 2 800]
    ∃ f told, Run 600 events f told ∧ (touches events).length < UInt64.size ∧ f.isActive "A" = true ∧
      (f.settle 1259).1.isActive "A" = true ∧ (f.settle 1260).1.isActive "A" = false := by
  intro events
  have started : Run 600 [] _ _ := .start
  have touched := (started.step (.touch "A" 0) rfl).step (.touch "A" 100) rfl
  have cleared := (touched.step (.expire 1 650) rfl).step .teardown rfl
  have run : Run 600 events _ _ := (cleared.step (.touch "A" 660) rfl).step (.expire 2 800) rfl
  have few : (touches events).length < UInt64.size := by decide
  have registered := late_expiry_spares_newer_touch run few
  let last : LastTouch "A" events :=
    ⟨[.touch "A" 0,.touch "A" 100,.expire 1 650,.teardown],660,[.expire 2 800],rfl,by simp⟩
  have happened : By 1259 events := by
    intro event member time timed
    simp only [events,List.mem_cons,List.not_mem_nil,or_false] at member
    rcases member with rfl | rfl | rfl | rfl | rfl | rfl <;> cases timed <;> decide
  refine ⟨_,_,run,few,?_,?_,by decide⟩
  · apply (registered.active "A").mpr
    refine ⟨last,⟨by simp [last],?_⟩⟩
    intro now member
    have other := List.mem_singleton.mp member
    have number : last.generation = 3 := by decide
    rw [number] at other
    cases other
  · apply (registered.settled 1259 happened "A").mpr
    exact ⟨last,by simp [last],by decide,by decide⟩

end RunWatch.Flash
