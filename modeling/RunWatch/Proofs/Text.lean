import Mathlib.Data.List.DropRight
import Mathlib.Data.List.Forall2
import RunWatch.Text.Blank
namespace RunWatch.Text

-- What stands before the characters of a kind at the end of a text.
structure Shorn (drop : Char → Bool) (text kept : List Char) : Prop where
  behind : ∃ dropped, text = kept ++ dropped ∧ ∀ c ∈ dropped, drop c = true
  last : ∀ c ∈ kept.getLast?, drop c = false

structure Trimmed (text inner : String) : Prop where
  around : ∃ before after, text.toList = before ++ inner.toList ++ after ∧
    ∀ c ∈ before ++ after, isBlank c = true
  first : ∀ c ∈ inner.toList.head?, isBlank c = false
  last : ∀ c ∈ inner.toList.getLast?, isBlank c = false

def Says (given : Option String) (word : String) : Prop :=
  ∃ text, given = some text ∧ Trimmed text word ∧ word ≠ ""

def Silent (given : Option String) : Prop := ∀ text, given = some text → ∀ c ∈ text.toList, isBlank c = true

variable {drop : Char → Bool} {text kept : List Char} {s inner : String}

theorem dropEnd_eq (drop : Char → Bool) (text : List Char) : dropEnd drop text = text.rdropWhile drop := rfl

theorem dropEnd_self (clear : ∀ c ∈ text.getLast?, drop c = false) : dropEnd drop text = text := by
  rw [dropEnd_eq,List.rdropWhile_eq_self_iff]
  intro present dropped
  rw [clear _ (List.getLast?_eq_some_getLast present)] at dropped
  cases dropped

theorem dropEnd_last (drop : Char → Bool) (text : List Char) : ∀ c ∈ (dropEnd drop text).getLast?, drop c = false := by
  intro c final
  rw [dropEnd_eq] at final
  obtain ⟨present,same⟩ := List.mem_getLast?_eq_getLast final
  rw [same]
  exact Bool.eq_false_iff.mpr (List.rdropWhile_last_not drop text present)

theorem dropEnd_append (front : List Char) (all : ∀ c ∈ text, drop c = true) :
    dropEnd drop (front ++ text) = dropEnd drop front := by
  have emptied : text.reverse.dropWhile drop = [] :=
    List.dropWhile_eq_nil_iff.mpr fun c member => all c (List.mem_reverse.mp member)
  rw [dropEnd,dropEnd,List.reverse_append,List.dropWhile_append,emptied]
  rfl

theorem dropEnd_iff : dropEnd drop text = kept ↔ Shorn drop text kept := by
  constructor
  · intro same
    subst same
    refine ⟨⟨text.rtakeWhile drop,?_,?_⟩,dropEnd_last drop text⟩
    · exact List.rdropWhile_append_rtakeWhile.symm
    · exact fun c member => List.mem_rtakeWhile_imp member
  · intro shorn
    obtain ⟨⟨dropped,rfl,all⟩,clear⟩ := shorn
    rw [dropEnd_append kept all,dropEnd_self clear]

theorem dropWhile_append (after : List Char) (all : ∀ c ∈ text, drop c = true) :
    (text ++ after).dropWhile drop = after.dropWhile drop := by
  rw [List.dropWhile_append,List.dropWhile_eq_nil_iff.mpr all]
  rfl

theorem dropWhile_self (clear : ∀ c ∈ text.head?, drop c = false) : text.dropWhile drop = text := by
  cases text with
  | nil => rfl
  | cons c rest => exact List.dropWhile_cons_of_neg (Bool.eq_false_iff.mp (clear c rfl))

theorem dropWhile_first (drop : Char → Bool) (text : List Char) :
    ∀ c ∈ (text.dropWhile drop).head?, drop c = false := by
  intro c first
  have cleared := List.head?_dropWhile_not drop text
  rw [Option.mem_def.mp first] at cleared
  exact cleared

theorem strip_self (first : ∀ c ∈ text.head?, isBlank c = false) (last : ∀ c ∈ text.getLast?, isBlank c = false) :
    strip text = text := by
  rw [strip,dropWhile_self first,dropEnd_self last]

theorem strip_front (text : List Char) : strip text <+: text.dropWhile isBlank := List.rdropWhile_prefix isBlank _

theorem strip_first (text : List Char) : ∀ c ∈ (strip text).head?, isBlank c = false := by
  intro c first
  obtain ⟨dropped,whole⟩ := strip_front text
  refine dropWhile_first isBlank text c ?_
  rw [← whole,List.head?_append,Option.mem_def.mp first]
  rfl

theorem Shorn.whole (shorn : Shorn drop text kept) (clear : ∀ c ∈ text.getLast?, drop c = false) : kept = text :=
  (dropEnd_iff.mpr shorn).symm.trans (dropEnd_self clear)

theorem Shorn.front (shorn : Shorn drop text kept) : kept <+: text := by
  obtain ⟨dropped,whole,_⟩ := shorn.behind
  exact ⟨dropped,whole.symm⟩

theorem trim_iff : trim s = inner ↔ Trimmed s inner := by
  rw [← String.toList_inj,toList_trim]
  constructor
  · intro same
    have dropped : dropEnd isBlank (s.toList.dropWhile isBlank) = inner.toList := same
    obtain ⟨⟨after,whole,blank⟩,last⟩ := dropEnd_iff.mp dropped
    refine ⟨⟨s.toList.takeWhile isBlank,after,?_,?_⟩,?_,last⟩
    · rw [List.append_assoc,← whole,List.takeWhile_append_dropWhile]
    · intro c member
      rcases List.mem_append.mp member with early | late
      · exact List.mem_takeWhile_imp early
      · exact blank c late
    · exact same ▸ strip_first s.toList
  · intro trimmed
    obtain ⟨⟨before,after,whole,blank⟩,first,last⟩ := trimmed
    have early : ∀ c ∈ before, isBlank c = true := fun c member => blank c (List.mem_append_left after member)
    have late : ∀ c ∈ after, isBlank c = true := fun c member => blank c (List.mem_append_right before member)
    rw [strip,whole,List.append_assoc,dropWhile_append _ early]
    cases letters : inner.toList with
    | nil =>
      rw [List.nil_append,List.dropWhile_eq_nil_iff.mpr late]
      rfl
    | cons c rest =>
      rw [letters] at first last
      rw [List.cons_append,dropWhile_self (by simpa using first c rfl),← List.cons_append,dropEnd_append _ late,
        dropEnd_self last]

theorem trimmed_blank : Trimmed s "" ↔ ∀ c ∈ s.toList, isBlank c = true := by
  constructor
  · intro trimmed
    obtain ⟨⟨before,after,whole,blank⟩,_,_⟩ := trimmed
    rwa [whole,show "".toList = [] from rfl,List.append_nil]
  · intro blank
    refine ⟨⟨s.toList,[],?_,?_⟩,?_,?_⟩
    · simp
    · simpa using blank
    all_goals simp

theorem allBlank_iff : allBlank s = true ↔ trim s = "" := by
  rw [trim_iff,trimmed_blank]
  exact List.all_eq_true

theorem content?_some {word : String} : content? s = some word ↔ Trimmed s word ∧ word ≠ "" := by
  rw [← trim_iff,content?]
  by_cases empty : trim s = ""
  · rw [if_pos (String.isEmpty_iff.mpr empty)]
    simp only [reduceCtorEq,false_iff,not_and,not_not]
    rintro rfl
    exact empty
  · rw [if_neg fun found => empty (String.isEmpty_iff.mp found)]
    simp only [Option.some.injEq]
    constructor
    · rintro rfl
      exact ⟨rfl,empty⟩
    · exact And.left

theorem content?_none : content? s = none ↔ ∀ c ∈ s.toList, isBlank c = true := by
  rw [← trimmed_blank,← trim_iff,content?]
  split
  · rename_i empty
    simp [String.isEmpty_iff.mp empty]
  · rename_i present
    simpa using present

theorem says_iff {given : Option String} {word : String} : Says given word ↔ given.bind content? = some word := by
  simp only [Says,Option.bind_eq_some_iff,content?_some]

theorem silent_iff {given : Option String} : Silent given ↔ given.bind content? = none := by
  cases given with
  | none => simp [Silent]
  | some text => simp [Silent,content?_none]

theorem trim_behind (first : ∀ c ∈ s.toList.head?, isBlank c = false) : Shorn isBlank s.toList (trim s).toList := by
  rw [← dropEnd_iff,toList_trim,strip,dropWhile_self first]

theorem says_begun (first : ∀ c ∈ s.toList.head?, isBlank c = false) (present : s ≠ "") : Says (some s) (trim s) := by
  refine ⟨s,rfl,trim_iff.mp rfl,fun empty => ?_⟩
  have blank := trimmed_blank.mp (trim_iff.mp empty)
  cases letters : s.toList with
  | nil => exact present (String.toList_inj.mp letters)
  | cons c rest =>
    rw [letters] at first blank
    have begun : isBlank c = false := first c rfl
    rw [blank c List.mem_cons_self] at begun
    cases begun

theorem Says.spoken {given : Option String} {word : String} (said : Says given word) : ¬ Silent given := by
  intro silent
  rw [says_iff,silent_iff.mp silent] at said
  cases said

theorem trimmed_self {word : String} (trimmed : Trimmed s word) : trim word = word := by
  rw [← String.toList_inj,toList_trim]
  exact strip_self trimmed.first trimmed.last

theorem content?_again {word : String} (said : content? s = some word) : content? word = some word := by
  obtain ⟨trimmed,present⟩ := content?_some.mp said
  exact content?_some.mpr ⟨trim_iff.mp (trimmed_self trimmed),present⟩

theorem isBlank_printed {c : Char} (low : 0x21 ≤ c.toNat) (high : c.toNat ≤ 0x7E) : isBlank c = false := by
  have apart : ∀ range ∈ blankRanges, range.2 < 0x21 ∨ 0x7E < range.1 := by decide
  rw [isBlank,List.any_eq_false]
  intro range member
  have outside := apart range member
  simp only [Bool.and_eq_true,decide_eq_true_eq]
  omega

theorem toUpper_cases (c : Char) :
    (97 ≤ c.toNat ∧ c.toNat ≤ 122 ∧ c.toUpper.toNat = c.toNat - 32) ∨
      (¬ (97 ≤ c.toNat ∧ c.toNat ≤ 122) ∧ c.toUpper = c) := by
  unfold Char.toUpper
  split
  · rename_i letter
    obtain ⟨low,high⟩ : 97 ≤ c.toNat ∧ c.toNat ≤ 122 := letter
    refine Or.inl ⟨low,high,?_⟩
    have shift : ('A'.val - 'a'.val).toNat = 2 ^ 32 - 32 := rfl
    change (c.val + ('A'.val - 'a'.val)).toNat = c.val.toNat - 32
    change 97 ≤ c.val.toNat at low
    change c.val.toNat ≤ 122 at high
    rw [UInt32.toNat_add]
    omega
  · rename_i other
    exact Or.inr ⟨other,rfl⟩

theorem isBlank_toUpper (c : Char) : isBlank c.toUpper = isBlank c := by
  rcases toUpper_cases c with ⟨low,high,upper⟩ | ⟨_,same⟩
  · rw [isBlank_printed (by omega) (by omega),isBlank_printed (by omega) (by omega)]
  · rw [same]

theorem toUpper_toUpper (c : Char) : c.toUpper.toUpper = c.toUpper := by
  rcases toUpper_cases c with ⟨low,high,upper⟩ | ⟨_,same⟩
  · rcases toUpper_cases c.toUpper with ⟨still,_,_⟩ | ⟨_,same⟩
    · omega
    · exact same
  · rw [same,same]

def Raised (c d : Char) : Prop :=
  ('a'.toNat ≤ c.toNat ∧ c.toNat ≤ 'z'.toNat ∧ d.toNat = c.toNat - 32) ∨
    (¬ ('a'.toNat ≤ c.toNat ∧ c.toNat ≤ 'z'.toNat) ∧ d = c)

theorem raised_iff {c d : Char} : Raised c d ↔ c.toUpper = d := by
  have upper : Raised c c.toUpper := toUpper_cases c
  constructor
  · intro raised
    rcases upper with ⟨low,high,shifted⟩ | ⟨other,same⟩
    · rcases raised with ⟨_,_,code⟩ | ⟨other,_⟩
      · exact Char.toNat_inj.mp (shifted.trans code.symm)
      · exact absurd ⟨low,high⟩ other
    · rcases raised with ⟨low,high,_⟩ | ⟨_,kept⟩
      · exact absurd ⟨low,high⟩ other
      · exact same.trans kept.symm
  · intro same
    exact same ▸ upper

theorem upper_iff {s raised : String} : upper s = raised ↔ List.Forall₂ Raised s.toList raised.toList := by
  have letters : (Raised : Char → Char → Prop) = fun c d => c.toUpper = d := by
    funext c d
    exact propext raised_iff
  rw [letters,← List.forall₂_map_left_iff,List.forall₂_eq_eq_eq,← toList_upper,String.toList_inj]

theorem trim_upper {word : String} (trimmed : trim word = word) : trim (upper word) = upper word := by
  obtain ⟨_,first,last⟩ := trim_iff.mp trimmed
  rw [← String.toList_inj,toList_trim,toList_upper]
  apply strip_self
  · intro c begun
    rw [List.head?_map] at begun
    obtain ⟨d,found,rfl⟩ := Option.map_eq_some_iff.mp begun
    exact (isBlank_toUpper d).trans (first d found)
  · intro c ended
    rw [List.getLast?_map] at ended
    obtain ⟨d,found,rfl⟩ := Option.map_eq_some_iff.mp ended
    exact (isBlank_toUpper d).trans (last d found)

theorem upper_upper (s : String) : upper (upper s) = upper s := by
  rw [← String.toList_inj,toList_upper,toList_upper,List.map_map]
  exact List.map_congr_left fun c _ => toUpper_toUpper c

end RunWatch.Text
