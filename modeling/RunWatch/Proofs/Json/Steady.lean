import Mathlib.Algebra.Group.Nat.Defs
import Mathlib.Data.List.TakeWhile
import RunWatch.Proofs.Json.Numerals
namespace RunWatch.Json

theorem digitsValue_cons (c : Char) (cs : List Char) :
    digitsValue (c :: cs) = (c.toNat - '0'.toNat) * 10 ^ cs.length + digitsValue cs := by
  have value (digits : List Char) : digitsValue digits = Nat.ofDigitChars 10 digits 0 := by
    simp only [digitsValue,Nat.ofDigitChars,Nat.mul_comm]
  rw [value,value,Nat.ofDigitChars_cons,Nat.ofDigitChars_eq_ofDigitChars_zero,Nat.mul_comm]
  simp

theorem digitsValue_lt (digits : ∀ c ∈ cs, c.isDigit = true) : digitsValue cs < 10 ^ cs.length := by
  induction cs with
  | nil => decide
  | cons c cs ih =>
    have rest := ih fun d member => digits d (List.mem_cons_of_mem c member)
    have first : c.toNat - '0'.toNat ≤ 9 := by
      have below : c.toNat ≤ '9'.toNat := (Char.isDigit_iff_toNat.mp (digits c List.mem_cons_self)).2
      exact Nat.sub_le_sub_right below '0'.toNat
    have scaled := Nat.mul_le_mul_right (10 ^ cs.length) first
    rw [digitsValue_cons,List.length_cons,Nat.pow_succ]
    omega

theorem le_digitsValue (digit : lead.isDigit = true) (nonzero : lead ≠ '0') (more : List Char) :
    10 ^ more.length ≤ digitsValue (lead :: more) := by
  have first : 1 ≤ lead.toNat - '0'.toNat := by
    have least : '0'.toNat ≤ lead.toNat := (Char.isDigit_iff_toNat.mp digit).1
    have other : lead.toNat ≠ '0'.toNat := fun same => nonzero (Char.toNat_inj.mp same)
    omega
  have scaled := Nat.mul_le_mul_right (10 ^ more.length) first
  rw [digitsValue_cons]
  omega

namespace Literal

-- Where it stands has a say in whether a number counts as long, if it starts with a zero.
-- This is what its digits say alone.
def settled (n : Literal) : Literal :=
  { n with long := decide (10 ^ (if n.places = 0 then 19 else 18) ≤ n.digits) }

-- A number that is read alike wherever it stands: it has few decimals, or is not below one
-- but for its exponent, or it is nothing to it whether it counts as long.
def Steady (n : Literal) : Prop :=
  n.places < 18 ∨ 10 ^ n.places ≤ n.digits ∨ { n with long := true }.rough = { n with long := false }.rough

theorem rough_held {n : Literal} (held : n.kept = n.decimal) :
    n.rough = if n.farExponent then 1.0 / 0.0 else n.exact := by
  unfold rough
  rw [held]
  change (if n.farExponent then (1.0 / 0.0 : Float) else if n.long then n.exact else
    if _ then n.exact else n.exact) = _
  simp only [ite_self]

theorem steady_held {n : Literal} (held : n.kept = n.decimal) : n.Steady := by
  have long := rough_held (show { n with long := true }.kept = { n with long := true }.decimal from held)
  have short := rough_held (show { n with long := false }.kept = { n with long := false }.decimal from held)
  exact Or.inr (Or.inr (long.trans short.symm))

end Literal

theorem wholePart_digits (read : wholePart? cs = some (whole,rest)) : (∀ c ∈ whole, c.isDigit = true) ∧
    (whole = ['0'] ∨ ∃ lead more, whole = lead :: more ∧ lead ≠ '0') := by
  unfold wholePart? at read
  split at read
  · cases read
    exact ⟨List.forall_mem_singleton.mpr rfl,Or.inl rfl⟩
  · rename_i notZero
    split at read
    · cases read
    · rename_i some
      cases read
      refine ⟨fun c member => List.mem_takeWhile_imp member,Or.inr ?_⟩
      cases run : cs.takeWhile Char.isDigit with
      | nil => exact absurd (congrArg (·,cs.dropWhile Char.isDigit) run) (some _)
      | cons lead more =>
        obtain ⟨tail,rfl⟩ : ∃ tail, cs = lead :: tail := by
          obtain ⟨tail,whole⟩ := run ▸ List.takeWhile_prefix (l := cs) Char.isDigit
          exact ⟨more ++ tail,whole.symm⟩
        exact ⟨lead,more,rfl,fun zero => notZero tail (by rw [zero])⟩

theorem fraction_digits (read : fraction? cs = some (fraction,rest)) : ∀ c ∈ fraction, c.isDigit = true := by
  unfold fraction? at read
  split at read
  · split at read
    · cases read
    · cases read
      exact fun c member => List.mem_takeWhile_imp member
  · cases read
    exact List.forall_mem_nil _

structure Reads (size : Nat) (left whole fraction : List Char) (n : Literal) : Prop where
  whole_digits : ∀ c ∈ whole, c.isDigit = true
  whole_leads : whole = ['0'] ∨ ∃ lead more, whole = lead :: more ∧ lead ≠ '0'
  fraction_digits : ∀ c ∈ fraction, c.isDigit = true
  digits : n.digits = digitsValue (whole ++ fraction)
  places : n.places = fraction.length
  long : n.long = isLong size left (if fraction.isEmpty then whole else whole ++ '.' :: fraction)
    (fraction.isEmpty && n.exponent.isNone)

theorem unsigned_reads (read : unsigned? size negative cs = some (n,rest)) :
    ∃ whole fraction, Reads size cs whole fraction n := by
  simp only [unsigned?,Option.bind_eq_bind,Option.bind_eq_some_iff,Option.pure_def,Option.some.injEq,
    Prod.mk.injEq] at read
  obtain ⟨⟨whole,_⟩,first,⟨fraction,_⟩,second,⟨exponent,_⟩,_,rfl,_⟩ := read
  exact ⟨whole,fraction,(wholePart_digits first).1,(wholePart_digits first).2,fraction_digits second,rfl,rfl,rfl⟩

namespace Reads

variable {n : Literal}

theorem all_digits (reads : Reads size left whole fraction n) : ∀ c ∈ whole ++ fraction, c.isDigit = true := by
  intro c member
  rcases List.mem_append.mp member with first | second
  · exact reads.whole_digits c first
  · exact reads.fraction_digits c second

theorem pow_le_digits (reads : Reads size left (lead :: more) fraction n) (nonzero : lead ≠ '0') (k : Nat) :
    10 ^ k ≤ n.digits ↔ k < (lead :: more).length + fraction.length := by
  have digits : n.digits = digitsValue (lead :: (more ++ fraction)) := reads.digits
  have least := le_digitsValue (reads.whole_digits lead List.mem_cons_self) nonzero (more ++ fraction)
  have most := digitsValue_lt reads.all_digits
  rw [←reads.digits] at most
  rw [←digits,List.length_append] at least
  rw [List.length_append] at most
  constructor
  · intro above
    exact (Nat.pow_lt_pow_iff_right (by decide)).mp (Nat.lt_of_le_of_lt above most)
  · intro below
    refine Nat.le_trans ((Nat.pow_le_pow_iff_right (by decide)).mpr ?_) least
    rw [List.length_cons] at below
    omega

theorem fractional (reads : Reads size left whole fraction n) (fractional : n.whole = false) :
    (fraction.isEmpty && n.exponent.isNone) = false := by
  rw [←fractional,Literal.whole,reads.places]
  cases fraction <;> rfl

theorem long_leads (reads : Reads size left (lead :: more) fraction n) (nonzero : lead ≠ '0')
    (apart : n.whole = false) : n.long = n.settled.long := by
  have counted (rest : List Char) : isLong size left (lead :: rest) false = decide (19 < (lead :: rest).length) := by
    simp [isLong,nonzero]
  rw [reads.long,reads.fractional apart,Literal.settled,reads.places]
  simp only [reads.pow_le_digits nonzero]
  cases fraction with
  | nil => exact counted more
  | cons d ds =>
    refine (counted (more ++ '.' :: d :: ds)).trans (decide_eq_decide.mpr ?_)
    simp only [List.length_cons,List.length_append]
    rw [if_neg (Nat.succ_ne_zero _)]
    omega

theorem long_zero (reads : Reads size left ['0'] fraction n) (few : n.places < 18) (apart : n.whole = false) :
    n.long = n.settled.long := by
  have short : fraction.length < 18 := reads.places ▸ few
  have small : n.digits < 10 ^ 18 := by
    have value : digitsValue (['0'] ++ fraction) = digitsValue fraction := (digitsValue_cons _ _).trans (by simp)
    rw [reads.digits,value]
    refine Nat.lt_trans (digitsValue_lt reads.fraction_digits) ?_
    exact (Nat.pow_lt_pow_iff_right (by decide)).mpr short
  have never : n.settled.long = false := by
    have least : 10 ^ 18 ≤ 10 ^ (if n.places = 0 then 19 else 18) := by split <;> decide
    exact decide_eq_false (by omega)
  rw [reads.long,reads.fractional apart,never]
  cases fraction with
  | nil => rfl
  | cons d ds =>
    rw [List.length_cons] at short
    simp [isLong]
    omega

theorem below_one (reads : Reads size left ['0'] fraction n) : n.digits < 10 ^ n.places := by
  have value : digitsValue (['0'] ++ fraction) = digitsValue fraction := (digitsValue_cons _ _).trans (by simp)
  rw [reads.digits,reads.places,value]
  exact digitsValue_lt reads.fraction_digits

end Reads

theorem rough_settled {n : Literal} (read : unsigned? size negative cs = some (n,rest)) (steady : n.Steady)
    (apart : n.whole = false) : n.settled.rough = n.rough := by
  have byDigits (far : n.places < 18 ∨ 10 ^ n.places ≤ n.digits) : n.long = n.settled.long := by
    obtain ⟨whole,fraction,reads⟩ := unsigned_reads read
    rcases reads.whole_leads with rfl | ⟨lead,more,rfl,nonzero⟩
    · exact reads.long_zero (far.resolve_right (Nat.not_le_of_lt reads.below_one)) apart
    · exact reads.long_leads nonzero apart
  have same (long : n.long = n.settled.long) : n.settled = n := by
    have marked : n.settled = { n with long:=n.settled.long } := rfl
    rw [marked,←long]
  rcases steady with few | large | alike
  · exact congrArg Literal.rough (same (byDigits (Or.inl few)))
  · exact congrArg Literal.rough (same (byDigits (Or.inr large)))
  · have counted (long : Bool) : { n with long:=long }.rough = { n with long := true }.rough := by
      cases long
      · exact alike.symm
      · rfl
    exact (counted n.settled.long).trans (counted n.long).symm

theorem number_settled {n : Literal} (read : literal? size cs = some (n,rest)) (steady : n.Steady) :
    Reading.pushed.number n.settled = Reading.pushed.number n := by
  have unsigned : ∃ negative left, unsigned? size negative left = some (n,rest) := by
    unfold literal? at read
    split at read
    · exact ⟨_,_,read⟩
    · exact ⟨_,_,read⟩
  obtain ⟨negative,left,read⟩ := unsigned
  unfold Reading.number
  cases apart : n.whole with
  | true =>
    rw [show n.settled.whole = true from apart]
    rfl
  | false =>
    rw [show n.settled.whole = false from apart]
    have double : Reading.pushed.double n.settled = Reading.pushed.double n := by
      unfold Reading.double
      rw [show Reading.pushed.hasty = true from rfl,if_pos rfl,if_pos rfl,rough_settled read steady apart]
      rfl
    exact double

theorem number_rough {n : Literal} (apart : n.whole = false) (positive : n.negative = false)
    (finite : n.rough.isFinite = true) : Reading.pushed.number n = .float n.rough := by
  have double : Reading.pushed.double n = .float n.rough := by
    change (if n.rough.isInf then unusable else float (if n.negative then -n.rough else n.rough)) = float n.rough
    rw [(finite_parts finite).2,positive]
    rfl
  rw [Reading.number,apart,double]
  rfl

theorem token_literal (first : token? hasty size cs = some (.number n,rest)) :
    ∃ left, literal? size cs = some (n,left) := by
  unfold token? at first
  split at first
  all_goals try cases first
  · obtain ⟨_,_,built⟩ := Option.bind_eq_some_iff.mp first
    cases built
  · obtain ⟨⟨_,left⟩,read,built⟩ := Option.bind_eq_some_iff.mp first
    cases built
    exact ⟨left,read⟩

theorem tokens_literal (split : tokensWithin hasty size steps cs = some ts) (member : .number n ∈ ts) :
    ∃ left rest, literal? size left = some (n,rest) := by
  induction steps generalizing cs ts with
  | zero =>
    cases cs with
    | nil =>
      cases split
      cases member
    | cons => cases split
  | succ steps ih =>
    cases cs with
    | nil =>
      cases split
      cases member
    | cons c cs =>
      rw [tokensWithin] at split
      cases space : isSpace c with
      | true =>
        rw [space,if_pos rfl] at split
        exact ih split member
      | false =>
        rw [space,if_neg Bool.false_ne_true] at split
        obtain ⟨⟨t,rest⟩,first,split⟩ := Option.bind_eq_some_iff.mp split
        obtain ⟨more,others,built⟩ := Option.bind_eq_some_iff.mp split
        cases built
        rcases List.mem_cons.mp member with rfl | later
        · obtain ⟨left,read⟩ := token_literal first
          exact ⟨_,left,read⟩
        · exact ih others later

end RunWatch.Json
