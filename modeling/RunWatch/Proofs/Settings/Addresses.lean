import RunWatch.Proofs.Settings
import RunWatch.Proofs.Text
namespace RunWatch
open Text (Says Silent Shorn Trimmed isBlank)

inductive UrlRule.Chooses (rule : UrlRule) (asked ambient : Option String) : String → Prop where
  | asked (said : Says asked word) : rule.Chooses asked ambient word
  | ambient (unasked : Silent asked) (said : Says ambient word) : rule.Chooses asked ambient word
  | default (unasked : Silent asked) (unset : Silent ambient) : rule.Chooses asked ambient rule.default

def UrlRule.Means (rule : UrlRule) (asked ambient : Option String) (url : String) : Prop :=
  ∃ word, rule.Chooses asked ambient word ∧ Shorn (· == '/') word.toList url.toList

def UrlRule.Admits (rule : UrlRule) (url : String) : Prop :=
  ∃ scheme ∈ rule.schemes, scheme.toList <+: url.toList

structure UrlRule.Fits (rule : UrlRule) (url : String) : Prop where
  named : ∃ scheme ∈ rule.schemes, ∃ rest, url = scheme ++ rest ∧ rest ≠ ""
  bare : url.toList.getLast? ≠ some '/'

-- What the rules have in common. A scheme ends in a slash, so an address that ends in none
-- has more than its scheme.
structure UrlRule.Proper (rule : UrlRule) : Prop where
  slashed : ∀ scheme ∈ rule.schemes, scheme.toList.getLast? = some '/'
  first : ∀ c ∈ rule.default.toList.head?, isBlank c = false
  last : rule.default.toList.getLast? ≠ some '/'

variable {rule : UrlRule} {asked ambient : Option String} {url word : String}

theorem withoutSlashes_iff : withoutSlashes word = url ↔ Shorn (· == '/') word.toList url.toList := by
  rw [← String.toList_inj,withoutSlashes,String.toList_ofList,Text.dropEnd_iff]

theorem chosen_asked (said : Says asked word) (ambient : Option String) (default : String) :
    chosenUrl asked ambient default = word := by
  rw [chosenUrl,Text.says_iff.mp said]
  rfl

theorem chosen_unasked (unasked : Silent asked) (ambient : Option String) (default : String) :
    chosenUrl asked ambient default = fromSurroundings ambient default := by
  rw [chosenUrl,Text.silent_iff.mp unasked]
  rfl

theorem surroundings_said (said : Says ambient word) (default : String) : fromSurroundings ambient default = word := by
  rw [fromSurroundings,Text.says_iff.mp said]
  rfl

theorem surroundings_silent (unset : Silent ambient) (default : String) :
    fromSurroundings ambient default = default := by
  rw [fromSurroundings,Text.silent_iff.mp unset]
  rfl

theorem Text.says_or_silent (given : Option String) : (∃ word, Says given word) ∨ Silent given := by
  cases said : given.bind Text.content? with
  | none => exact Or.inr (Text.silent_iff.mpr said)
  | some word => exact Or.inl ⟨word,Text.says_iff.mpr said⟩

namespace UrlRule

theorem chooses_iff : rule.Chooses asked ambient word ↔ chosenUrl asked ambient rule.default = word := by
  constructor
  · intro chooses
    cases chooses with
    | asked said => exact chosen_asked said ambient rule.default
    | ambient unasked said => rw [chosen_unasked unasked,surroundings_said said]
    | default unasked unset => rw [chosen_unasked unasked,surroundings_silent unset]
  · intro chosen
    subst chosen
    rcases Text.says_or_silent asked with ⟨word,said⟩ | unasked
    · rw [chosen_asked said]
      exact .asked said
    · rw [chosen_unasked unasked]
      rcases Text.says_or_silent ambient with ⟨word,said⟩ | unset
      · rw [surroundings_said said]
        exact .ambient unasked said
      · rw [surroundings_silent unset]
        exact .default unasked unset

theorem means_iff : rule.Means asked ambient url ↔ withoutSlashes (chosenUrl asked ambient rule.default) = url := by
  constructor
  · intro means
    obtain ⟨word,chooses,shorn⟩ := means
    rw [chooses_iff.mp chooses]
    exact withoutSlashes_iff.mpr shorn
  · intro same
    exact ⟨_,chooses_iff.mpr rfl,withoutSlashes_iff.mp same⟩

theorem admits_iff : rule.Admits url ↔ startsWithOneOf rule.schemes url = true := by
  simp only [Admits,startsWithOneOf,List.any_eq_true,List.isPrefixOf_iff_prefix]

theorem resolve_means : rule.resolve asked ambient = .ok url ↔ rule.Means asked ambient url ∧ rule.Admits url := by
  rw [resolve_ok,means_iff,admits_iff]

theorem resolve_unknown
    (unknown : ¬ startsWithOneOf rule.schemes (withoutSlashes (chosenUrl asked ambient rule.default)) = true) :
    rule.resolve asked ambient = .error (.argument (.scheme rule.field rule.schemes)) :=
  if_neg unknown

theorem Means.unique {other : String} (means : rule.Means asked ambient url) (also : rule.Means asked ambient other) :
    url = other :=
  (means_iff.mp means).symm.trans (means_iff.mp also)

theorem resolve_congr {other : Option String} (same : ambient = other ∨ ¬ Silent asked) :
    rule.resolve asked ambient = rule.resolve asked other := by
  rcases same with rfl | spoken
  · rfl
  · obtain ⟨word,said⟩ := (Text.says_or_silent asked).resolve_right spoken
    rw [resolve,resolve,chosen_asked said,chosen_asked said]

theorem Proper.fits (proper : rule.Proper) (resolved : rule.resolve asked ambient = .ok url) : rule.Fits url := by
  obtain ⟨⟨word,_,_,bare⟩,scheme,known,rest,whole⟩ := resolve_means.mp resolved
  have unslashed : url.toList.getLast? ≠ some '/' := fun slash => absurd (bare '/' slash) (by decide)
  refine ⟨⟨scheme,known,String.ofList rest,?_,?_⟩,unslashed⟩
  · rw [← String.toList_inj,String.toList_append,String.toList_ofList,whole]
  · intro empty
    have none : rest = [] := by rw [← String.toList_ofList (l := rest),empty]; rfl
    rw [none,List.append_nil] at whole
    exact unslashed (whole ▸ proper.slashed scheme known)

theorem api_proper : api.Proper := by
  refine ⟨by decide,fun c first => ?_,by decide⟩
  cases first
  decide

theorem push_proper : push.Proper := by
  refine ⟨by decide,fun c first => ?_,by decide⟩
  cases first
  decide

end UrlRule
end RunWatch
