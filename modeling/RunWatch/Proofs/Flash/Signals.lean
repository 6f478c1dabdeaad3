import Mathlib.Data.Finset.Basic
import Mathlib.Data.List.Induction
import RunWatch.Proofs.Flash.Expiry
namespace RunWatch

def FlashSignal.activated? : FlashSignal → Option String
  | .changed (.activated key) => some key
  | _ => none

def FlashSignal.apply (keys : Finset String) : FlashSignal → Finset String
  | .changed (.activated key) => insert key keys
  | .changed (.expired key) => keys.erase key
  | .cleared => ∅

namespace Flash

def replay (told : List FlashSignal) : Finset String := told.foldl FlashSignal.apply ∅

theorem replay_concat (told : List FlashSignal) (signal : FlashSignal) :
    replay (told ++ [signal]) = signal.apply (replay told) := by
  simp [replay]

theorem mem_insertKey {key other : String} {keys : List String} :
    other ∈ insertKey key keys ↔ other = key ∨ other ∈ keys := by
  induction keys with
  | nil => simp [insertKey]
  | cons head rest ih =>
    unfold insertKey
    split
    · exact List.mem_cons
    · rw [List.mem_cons,ih,List.mem_cons]
      exact or_left_comm

theorem insertKey_ascends {key : String} {keys : List String} (ascends : keys.Pairwise (· < ·))
    (absent : key ∉ keys) : (insertKey key keys).Pairwise (· < ·) := by
  induction keys with
  | nil => exact List.pairwise_singleton _ _
  | cons head rest ih =>
    obtain ⟨least,ordered⟩ := List.pairwise_cons.mp ascends
    unfold insertKey
    split
    · rename_i before
      refine List.pairwise_cons.mpr ⟨?_,ascends⟩
      intro other member
      rcases List.mem_cons.mp member with rfl | later
      · exact before
      · exact String.lt_trans before (least other later)
    · rename_i behind
      have distinct : head ≠ key := by
        rintro rfl
        exact absent List.mem_cons_self
      have after : head < key := by
        apply String.not_le.mp
        intro le
        exact distinct (String.le_antisymm (String.not_lt.mp behind) le)
      refine List.pairwise_cons.mpr ⟨?_,ih ordered fun member => absent (List.mem_cons_of_mem _ member)⟩
      intro other member
      rcases mem_insertKey.mp member with rfl | later
      · exact after
      · exact least other later

theorem mem_sorted {key : String} (keys : List String) : key ∈ keys.foldr insertKey [] ↔ key ∈ keys := by
  induction keys with
  | nil => rfl
  | cons head rest ih => rw [List.foldr_cons,mem_insertKey,ih,List.mem_cons]

theorem sorted_ascends {keys : List String} (distinct : keys.Nodup) :
    (keys.foldr insertKey []).Pairwise (· < ·) := by
  induction keys with
  | nil => exact List.Pairwise.nil
  | cons head rest ih =>
    obtain ⟨absent,distinct⟩ := List.nodup_cons.mp distinct
    apply insertKey_ascends (ih distinct)
    rwa [mem_sorted]

section
variable {hold now : Nat} {events : List Event} {event : Event} {f next : Flash} {key : String}
  {told : List FlashSignal} {changes : List FlashChange}

theorem mem_activeKeys : key ∈ f.activeKeys ↔ f.isActive key = true := by
  unfold activeKeys isActive
  rw [mem_sorted,List.lookup_isSome_iff,List.mem_map]
  constructor
  · rintro ⟨entry,member,rfl⟩
    exact ⟨entry,member,beq_self_eq_true _⟩
  · rintro ⟨entry,member,same⟩
    exact ⟨entry,member,(eq_of_beq same).symm⟩

theorem taken_distinct (taken : Taken f event next changes) (distinct : (f.active.map Prod.fst).Nodup) :
    (next.active.map Prod.fst).Nodup := by
  have fewer : ∀ key, ((f.active.filter fun entry => entry.1 != key).map Prod.fst).Nodup :=
    fun key => distinct.sublist (List.filter_sublist.map _)
  cases taken with
  | @touch key now =>
    refine List.nodup_cons.mpr ⟨?_,fewer key⟩
    intro member
    obtain ⟨entry,present,same⟩ := List.mem_map.mp member
    have other := (List.mem_filter.mp present).2
    simp [same] at other
  | expired found due current => exact fewer _
  | superseded found due other => exact distinct
  | abandoned found cancelled => exact distinct
  | teardown => exact List.nodup_nil

theorem taken_signals (taken : Taken f event next changes) {keys : Finset String}
    (shown : ∀ key, f.isActive key = true ↔ key ∈ keys) (key : String) :
    next.isActive key = true ↔ key ∈ (event.signals changes).foldl FlashSignal.apply keys := by
  cases taken with
  | @touch touched now =>
    change _ ↔ key ∈ insert touched keys
    rw [Finset.mem_insert,← shown,isActive,isActive,touch_lookup]
    split
    · simp [*]
    · simp [*]
  | @expired generation t now found due current =>
    change _ ↔ key ∈ keys.erase t.key
    rw [Finset.mem_erase,← shown,isActive,isActive,lookup_others]
    split
    · simp [*]
    · simp [*]
  | superseded found due other => exact shown key
  | abandoned found cancelled => exact shown key
  | teardown =>
    change _ ↔ key ∈ (∅ : Finset String)
    simp [isActive,teardown]

theorem run_active (run : Run hold events f told) :
    (f.active.map Prod.fst).Nodup ∧ ∀ key, f.isActive key = true ↔ key ∈ replay told := by
  induction run with
  | start => exact ⟨List.nodup_nil,by simp [isActive,idle,replay]⟩
  | step run event took ih =>
    have taken := advance_taken took
    refine ⟨taken_distinct taken ih.1,?_⟩
    intro key
    rw [replay,List.foldl_append]
    exact taken_signals taken ih.2 key

def Orderly (told : List FlashSignal) : Prop :=
  ∀ key before after, told = before ++ .changed (.expired key) :: after → key ∈ replay before

theorem Orderly.concat {signal : FlashSignal} (orderly : Orderly told)
    (allowed : ∀ key, signal = .changed (.expired key) → key ∈ replay told) : Orderly (told ++ [signal]) := by
  intro key before after split
  rcases concat_split split with ⟨_,same,expired⟩ | ⟨rest,_,same⟩
  · rw [← same]
    exact allowed key expired
  · exact orderly key before rest same

theorem Orderly.earlier {before after : List FlashSignal} (orderly : Orderly (before ++ after)) :
    Orderly before := by
  intro key first rest split
  exact orderly key first (rest ++ after) (by rw [split,List.append_assoc]; rfl)

theorem run_orderly (run : Run hold events f told) : Orderly told := by
  induction run with
  | start =>
    intro key before after split
    simp at split
  | step run event took ih =>
    cases advance_taken took with
    | touch => exact ih.concat (by simp)
    | @expired generation t now found due current =>
      apply ih.concat
      intro key expired
      cases expired
      rw [← (run_active run).2,isActive,current]
      rfl
    | superseded found due other => simpa [Event.signals] using ih
    | abandoned found cancelled => simpa [Event.signals] using ih
    | teardown => exact ih.concat (by simp)

theorem run_activated (run : Run hold events f told) :
    told.filterMap FlashSignal.activated? = (touches events).map Prod.fst := by
  induction run with
  | start => rfl
  | step run event took ih =>
    rw [List.filterMap_append,touches_append,List.map_append,ih]
    congr 1
    cases advance_taken took <;> rfl

theorem replay_without {signals : List FlashSignal} {keys : Finset String} (absent : key ∉ keys)
    (untouched : FlashSignal.changed (.activated key) ∉ signals) :
    key ∉ signals.foldl FlashSignal.apply keys := by
  induction signals generalizing keys with
  | nil => exact absent
  | cons signal rest ih =>
    have other := List.ne_of_not_mem_cons untouched
    refine ih ?_ (List.not_mem_of_not_mem_cons untouched)
    cases signal with
    | changed change =>
      cases change with
      | activated touched =>
        intro member
        rcases Finset.mem_insert.mp member with rfl | held
        · exact other rfl
        · exact absent held
      | expired ended => exact fun member => absent (Finset.mem_of_mem_erase member)
    | cleared => exact Finset.notMem_empty key

theorem Orderly.alternates (orderly : Orderly told) {before between after : List FlashSignal}
    (split : told = before ++ .changed (.expired key) :: (between ++ .changed (.expired key) :: after)) :
    FlashSignal.changed (.activated key) ∈ between := by
  by_contra untouched
  have ended : key ∉ replay (before ++ [.changed (.expired key)]) := by
    rw [replay_concat]
    exact Finset.notMem_erase key _
  have held := orderly key (before ++ .changed (.expired key) :: between) after (by simp [split])
  have longer : before ++ .changed (.expired key) :: between =
      (before ++ [.changed (.expired key)]) ++ between := by simp
  rw [longer,replay,List.foldl_append] at held
  exact replay_without ended untouched held

end

def keysSince (before : List FlashSignal) (key : String) (period : List FlashSignal) : Finset String :=
  replay (before ++ .changed (.activated key) :: period)

def CutShort (before : List FlashSignal) (key : String) (period : List FlashSignal) : Prop :=
  ∃ earlier later, period = earlier ++ .cleared :: later ∧ key ∈ keysSince before key earlier

-- A chain of touches: the first finds the key at rest and each other one finds it
-- active. Its period goes on from the first touch, up to the next chain at most.
structure Chain (key : String) (told : List FlashSignal) where
  before : List FlashSignal
  period : List FlashSignal
  after : List FlashSignal
  cut : told = before ++ .changed (.activated key) :: (period ++ after)
  opens : key ∉ replay before
  continues : ∀ earlier later, period = earlier ++ .changed (.activated key) :: later →
    key ∈ keysSince before key earlier

namespace Chain
variable {key : String} {told : List FlashSignal}

def Active (chain : Chain key told) : Prop := key ∈ keysSince chain.before key chain.period

instance (chain : Chain key told) : Decidable chain.Active := inferInstanceAs (Decidable (_ ∈ _))

def Cut (chain : Chain key told) : Prop := CutShort chain.before key chain.period

def expiries (chain : Chain key told) : Nat := chain.period.count (.changed (.expired key))

end Chain

-- Where a chain of touches stands: it goes on, was cut short or has expired.
inductive Fate (active cut : Prop) (expiries : Nat) : Prop where
  | goesOn (held : active) (uncut : ¬ cut) (none : expiries = 0)
  | cut (ended : ¬ active) (cut : cut) (none : expiries = 0)
  | expired (ended : ¬ active) (uncut : ¬ cut) (once : expiries = 1)

section
variable {key : String} {before period : List FlashSignal} {signal : FlashSignal}

theorem keysSince_concat : keysSince before key (period ++ [signal]) = signal.apply (keysSince before key period) := by
  rw [keysSince,← List.cons_append,← List.append_assoc,replay_concat]
  rfl

theorem cutShort_concat : CutShort before key (period ++ [signal]) ↔
    CutShort before key period ∨ signal = .cleared ∧ key ∈ keysSince before key period := by
  constructor
  · rintro ⟨earlier,later,split,held⟩
    rcases concat_split split with ⟨_,same,cleared⟩ | ⟨rest,_,same⟩
    · rw [same]
      exact Or.inr ⟨cleared,held⟩
    · exact Or.inl ⟨earlier,rest,same,held⟩
  · rintro (⟨earlier,later,rfl,held⟩ | ⟨rfl,held⟩)
    · exact ⟨earlier,later ++ [signal],by simp,held⟩
    · exact ⟨period,[],rfl,held⟩

theorem period_fate (orderly : Orderly (before ++ .changed (.activated key) :: period))
    (continues : ∀ earlier later, period = earlier ++ .changed (.activated key) :: later →
      key ∈ keysSince before key earlier) :
    Fate (key ∈ keysSince before key period) (CutShort before key period)
      (period.count (.changed (.expired key))) := by
  induction period using List.reverseRecOn with
  | nil =>
    refine .goesOn ?_ ?_ rfl
    · rw [keysSince,replay_concat]
      exact Finset.mem_insert_self key _
    · rintro ⟨earlier,later,split,_⟩
      simp at split
  | append_singleton period signal ih =>
    have longer : before ++ .changed (.activated key) :: (period ++ [signal]) =
        (before ++ .changed (.activated key) :: period) ++ [signal] := by simp
    rw [longer] at orderly
    have soFar := ih orderly.earlier fun earlier later split =>
      continues earlier (later ++ [signal]) (by rw [split,List.append_assoc]; rfl)
    rw [keysSince_concat,cutShort_concat,List.count_append]
    cases signal with
    | changed change =>
      cases change with
      | activated touched =>
        by_cases mine : touched = key
        · subst mine
          have held := continues period [] rfl
          rcases soFar with ⟨_,uncut,none⟩ | ⟨ended,_,_⟩ | ⟨ended,_,_⟩
          · exact .goesOn (Finset.mem_insert_self _ _) (by simpa using uncut) (by simpa using none)
          · exact absurd held ended
          · exact absurd held ended
        · have other : ¬ key = touched := fun same => mine same.symm
          simpa [FlashSignal.apply,other] using soFar
      | expired ended =>
        by_cases mine : ended = key
        · subst mine
          have held : ended ∈ keysSince before ended period := orderly ended _ [] rfl
          rcases soFar with ⟨_,uncut,none⟩ | ⟨rest,_,_⟩ | ⟨rest,_,_⟩
          · exact .expired (Finset.notMem_erase _ _) (by simpa using uncut) (by simp [none])
          · exact absurd held rest
          · exact absurd held rest
        · have other : ¬ key = ended := fun same => mine same.symm
          simpa [FlashSignal.apply,other,mine] using soFar
    | cleared =>
      by_cases held : key ∈ keysSince before key period
      · rcases soFar with ⟨_,_,none⟩ | ⟨ended,_,_⟩ | ⟨ended,_,_⟩
        · exact .cut (Finset.notMem_empty key) (Or.inr ⟨rfl,held⟩) (by simpa using none)
        · exact absurd held ended
        · exact absurd held ended
      · simpa [FlashSignal.apply,held] using soFar

end

theorem Chain.fate {key : String} {told : List FlashSignal} (orderly : Orderly told) (chain : Chain key told) :
    Fate chain.Active chain.Cut chain.expiries := by
  have cut := chain.cut
  rw [← List.cons_append,← List.append_assoc] at cut
  rw [cut] at orderly
  exact period_fate orderly.earlier chain.continues

structure Reported (events : List Event) (f : Flash) (told : List FlashSignal) : Prop where
  ascending : f.activeKeys.Pairwise (· < ·)
  replayed : f.activeKeys.toFinset = replay told
  activated : told.filterMap FlashSignal.activated? = (touches events).map Prod.fst
  whileActive : Orderly told
  alternate : ∀ key before between after,
    told = before ++ .changed (.expired key) :: (between ++ .changed (.expired key) :: after) →
      FlashSignal.changed (.activated key) ∈ between
  once : ∀ key (chain : Chain key told), ¬ chain.Active → ¬ chain.Cut → chain.expiries = 1
  never : ∀ key (chain : Chain key told), chain.Active ∨ chain.Cut → chain.expiries = 0
  due : (touches events).length < UInt64.size → ∀ key, f.isActive key = true →
    ∃ t ∈ f.timers, ∀ now, t.deadline ≤ now → ∃ next,
      f.advance (.expire t.generation now) = some (next,[.expired key]) ∧ next.isActive key = false

theorem expiry_ready {hold : Nat} {events : List Event} {f : Flash} {key : String} (run : Run hold events f told)
    (few : (touches events).length < UInt64.size) (active : f.isActive key = true) :
    ∃ t ∈ f.timers, ∀ now, t.deadline ≤ now → ∃ next,
      f.advance (.expire t.generation now) = some (next,[.expired key]) ∧ next.isActive key = false := by
  have sound := run_sound run few
  obtain ⟨generation,active⟩ := isActive_iff.mp active
  obtain ⟨t,member,rfl,rfl,_⟩ := sound.armed key generation active
  refine ⟨t,member,?_⟩
  intro now due
  refine ⟨_,taken_advance (.expired (sound.timer? member) due active),?_⟩
  rw [isActive,lookup_others,if_pos rfl]
  rfl

-- Replaying what is told gives the active keys after every step. A chain of touches
-- is told to have expired once, or never if a teardown cuts it short.
theorem signals_replay_active_keys {hold : Nat} {events : List Event} {f : Flash}
    (run : Run hold events f told) : Reported events f told where
  ascending := sorted_ascends (run_active run).1
  replayed := by
    ext key
    rw [List.mem_toFinset,mem_activeKeys,(run_active run).2]
  activated := run_activated run
  whileActive := run_orderly run
  alternate := fun _ _ _ _ split => (run_orderly run).alternates split
  once := by
    intro key chain inactive uncut
    rcases chain.fate (run_orderly run) with ⟨held,_,_⟩ | ⟨_,cut,_⟩ | ⟨_,_,once⟩
    · exact absurd held inactive
    · exact absurd cut uncut
    · exact once
  never := by
    intro key chain spared
    rcases chain.fate (run_orderly run) with ⟨_,_,none⟩ | ⟨_,_,none⟩ | ⟨ended,uncut,_⟩
    · exact none
    · exact none
    · rcases spared with held | cut
      · exact absurd held ended
      · exact absurd cut uncut
  due := fun few _ active => expiry_ready run few active

theorem signals_of_two_keys :
    let events : List Event :=
      [.touch "A" 0,.touch "B" 50,.touch "A" 100,.expire 1 650,.expire 3 700,.teardown]
    let told : List FlashSignal := [.changed (.activated "A"),.changed (.activated "B"),
      .changed (.activated "A"),.changed (.expired "A"),.cleared]
    ∃ f, Run 600 events f told ∧ f.activeKeys.toFinset = ∅ ∧
      (∃ chain : Chain "A" told, ¬ chain.Active ∧ ¬ chain.Cut ∧ chain.expiries = 1) ∧
      ∃ chain : Chain "B" told, chain.Cut ∧ chain.expiries = 0 := by
  intro events told
  have started : Run 600 [] _ _ := .start
  have touched := ((started.step (.touch "A" 0) rfl).step (.touch "B" 50) rfl).step (.touch "A" 100) rfl
  have run : Run 600 events _ told :=
    ((touched.step (.expire 1 650) rfl).step (.expire 3 700) rfl).step .teardown rfl
  have reported := signals_replay_active_keys run
  let first : Chain "A" told :=
    ⟨[],[.changed (.activated "B"),.changed (.activated "A"),.changed (.expired "A"),.cleared],[],rfl,by decide,by
      intro earlier later split
      simp [List.cons_eq_append_iff] at split
      obtain ⟨rfl,_⟩ := split
      decide⟩
  let second : Chain "B" told :=
    ⟨[.changed (.activated "A")],[.changed (.activated "A"),.changed (.expired "A"),.cleared],[],rfl,by decide,by
      intro earlier later split
      simp [List.cons_eq_append_iff] at split⟩
  have inactive : ¬ first.Active := by decide
  have uncut : ¬ first.Cut := by
    rintro ⟨earlier,later,split,held⟩
    simp [first,List.cons_eq_append_iff] at split
    obtain ⟨rfl,_⟩ := split
    revert held
    decide
  have cut : second.Cut := ⟨[.changed (.activated "A"),.changed (.expired "A")],[],rfl,by decide⟩
  exact ⟨_,run,reported.replayed,⟨first,inactive,uncut,reported.once "A" first inactive uncut⟩,
    ⟨second,cut,reported.never "B" second (Or.inr cut)⟩⟩

end Flash
end RunWatch
