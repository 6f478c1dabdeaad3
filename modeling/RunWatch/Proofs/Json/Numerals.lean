import RunWatch.Json.Writing
import RunWatch.Json.Reading
namespace RunWatch.Json

theorem digitRun_append (digits : ∀ c ∈ run, c.isDigit = true) (ends : ∀ c ∈ rest.head?, c.isDigit = false) :
    digitRun (run ++ rest) = (run,rest) := by
  have stop : rest.takeWhile Char.isDigit = [] ∧ rest.dropWhile Char.isDigit = rest := by
    cases rest with
    | nil => exact ⟨rfl,rfl⟩
    | cons c cs => simp [ends c rfl]
  rw [digitRun,List.takeWhile_append_of_pos digits,List.dropWhile_append_of_pos digits,stop.1,stop.2,
    List.append_nil]

def Stops (rest : List Char) : Prop :=
  ∀ c ∈ rest.head?, c.isDigit = false ∧ c ≠ '.' ∧ c ≠ 'e' ∧ c ≠ 'E'

theorem Stops.nil : Stops [] := nofun

theorem Stops.cons (mark : isMark c = true) : Stops (c :: cs) := by
  rintro _ ⟨⟩
  simp only [isMark,Bool.or_eq_true,beq_iff_eq] at mark
  rcases mark with ((((rfl | rfl) | rfl) | rfl) | rfl) | rfl <;> decide

-- A number set out in characters: its digits on either side of the point, and the sign and
-- the digits of its exponent.
structure Spelling where
  negative : Bool
  whole : List Char
  fraction : List Char
  exponent : Option (Bool × List Char)
  whole_digits : ∀ c ∈ whole, c.isDigit = true
  whole_leads : whole = ['0'] ∨ ∃ lead more, whole = lead :: more ∧ lead ≠ '0'
  fraction_digits : ∀ c ∈ fraction, c.isDigit = true
  exponent_digits : ∀ e ∈ exponent, e.2 ≠ [] ∧ ∀ c ∈ e.2, c.isDigit = true

namespace Spelling

def fractionText (s : Spelling) : List Char := if s.fraction = [] then [] else '.' :: s.fraction

def exponentText (s : Spelling) : List Char :=
  match s.exponent with
  | none => []
  | some (negative,digits) => 'e' :: (if negative then '-' else '+') :: digits

def unsignedText (s : Spelling) : List Char := s.whole ++ (s.fractionText ++ s.exponentText)

def text (s : Spelling) : List Char := if s.negative then '-' :: s.unsignedText else s.unsignedText

def exponentValue (s : Spelling) : Option Int :=
  s.exponent.map fun (negative,digits) => if negative then -(digitsValue digits : Int) else digitsValue digits

def literal (s : Spelling) (long : Bool) : Literal :=
  ⟨s.negative,digitsValue (s.whole ++ s.fraction),s.fraction.length,s.exponentValue,long⟩

theorem wholePart_read (s : Spelling) (ends : ∀ c ∈ rest.head?, c.isDigit = false) :
    wholePart? (s.whole ++ rest) = some (s.whole,rest) := by
  rcases s.whole_leads with single | ⟨lead,more,eq,nonzero⟩
  · rw [single]
    rfl
  · have run := digitRun_append s.whole_digits ends
    rw [eq] at run ⊢
    unfold wholePart?
    split
    · rename_i same
      cases same
      exact absurd rfl nonzero
    · rw [run]

theorem fraction_read (s : Spelling) (ends : ∀ c ∈ rest.head?, c.isDigit = false ∧ c ≠ '.') :
    fraction? (s.fractionText ++ rest) = some (s.fraction,rest) := by
  unfold fractionText
  split
  · rename_i none
    rw [none,List.nil_append]
    cases rest with
    | nil => rfl
    | cons c cs =>
      unfold fraction?
      split
      · rename_i same
        cases same
        exact absurd rfl (ends _ rfl).2
      · rfl
  · rename_i some
    have run := digitRun_append s.fraction_digits fun c head => (ends c head).1
    obtain ⟨lead,more,eq⟩ := List.exists_cons_of_ne_nil some
    rw [eq] at run ⊢
    simp only [List.cons_append,fraction?] at run ⊢
    rw [run]

theorem exponent_read (s : Spelling) (stops : Stops rest) :
    exponent? (s.exponentText ++ rest) = some (s.exponentValue,rest) := by
  unfold exponentText exponentValue
  cases given : s.exponent with
  | none =>
    cases rest with
    | nil => rfl
    | cons c cs =>
      obtain ⟨_,_,small,large⟩ := stops c rfl
      simp [exponent?,small,large]
  | some e =>
    obtain ⟨negative,digits⟩ := e
    obtain ⟨some,digits⟩ := s.exponent_digits _ given
    have run := digitRun_append digits fun c head => (stops c head).1
    obtain ⟨lead,more,eq⟩ := List.exists_cons_of_ne_nil some
    dsimp only at eq run
    subst eq
    rw [List.cons_append] at run
    cases negative <;> simp [exponent?,exponentDigits?,run]

theorem fractionText_ends (s : Spelling) (stops : ∀ c ∈ rest.head?, c.isDigit = false) :
    ∀ c ∈ (s.fractionText ++ rest).head?, c.isDigit = false := by
  unfold fractionText
  split
  · exact stops
  · rintro _ ⟨⟩
    rfl

theorem exponentText_ends (s : Spelling) (stops : Stops rest) :
    ∀ c ∈ (s.exponentText ++ rest).head?, c.isDigit = false ∧ c ≠ '.' := by
  unfold exponentText
  split
  · exact fun c head => ⟨(stops c head).1,(stops c head).2.1⟩
  · rintro _ ⟨⟩
    exact ⟨rfl,by decide⟩

theorem unsigned_read (s : Spelling) (stops : Stops rest) (size : Nat) (negative : Bool) : ∃ long,
    unsigned? size negative (s.unsignedText ++ rest) =
      some ({ s.literal long with negative:=negative },rest) := by
  have afterwards := s.exponentText_ends stops
  have behind := s.fractionText_ends fun c head => (afterwards c head).1
  simp only [unsignedText,List.append_assoc,unsigned?,s.wholePart_read behind,s.fraction_read afterwards,
    s.exponent_read stops,Option.bind_eq_bind,Option.bind_some]
  exact ⟨_,rfl⟩

theorem unsignedText_head (s : Spelling) : ∃ lead more, s.unsignedText = lead :: more ∧ lead.isDigit = true := by
  rcases s.whole_leads with single | ⟨lead,more,eq,_⟩
  · exact ⟨'0',_,by rw [unsignedText,single]; rfl,rfl⟩
  · exact ⟨lead,_,by rw [unsignedText,eq]; rfl,s.whole_digits lead (by rw [eq]; exact List.mem_cons_self)⟩

theorem literal_read (s : Spelling) (stops : Stops rest) (size : Nat) :
    ∃ long, literal? size (s.text ++ rest) = some (s.literal long,rest) := by
  unfold text
  cases sign : s.negative with
  | true =>
    obtain ⟨long,read⟩ := s.unsigned_read stops size true
    refine ⟨long,?_⟩
    simp only [if_true,List.cons_append,literal?,read,literal,sign]
  | false =>
    obtain ⟨long,read⟩ := s.unsigned_read stops size false
    refine ⟨long,?_⟩
    obtain ⟨lead,more,eq,digit⟩ := s.unsignedText_head
    rw [if_neg Bool.false_ne_true]
    rw [eq] at read ⊢
    unfold literal?
    split
    · rename_i same
      cases same
      cases digit
    · simp only [read,literal,sign]

end Spelling

theorem toDigits_digits (n : Nat) : ∀ c ∈ Nat.toDigits 10 n, c.isDigit = true :=
  fun _ member => Nat.isDigit_of_mem_toDigits (by decide) (by decide) member

theorem digitChar_nonzero : ∀ n : Nat, 0 < n → n < 10 → n.digitChar ≠ '0'
  | 1, _, _ | 2, _, _ | 3, _, _ | 4, _, _ | 5, _, _ | 6, _, _ | 7, _, _ | 8, _, _ | 9, _, _ => by decide
  | _ + 10, _, large => absurd large (by omega)

theorem toDigits_leads (positive : 0 < n) : ∃ lead more, Nat.toDigits 10 n = lead :: more ∧ lead ≠ '0' := by
  induction n using Nat.strongRecOn with
  | ind n ih =>
    rw [Nat.toDigits_eq_if (by decide)]
    split
    · rename_i small
      exact ⟨_,[],rfl,digitChar_nonzero n positive small⟩
    · rename_i large
      obtain ⟨lead,more,eq,nonzero⟩ := ih (n / 10) (by omega) (by omega)
      exact ⟨lead,more ++ [(n % 10).digitChar],by rw [eq]; rfl,nonzero⟩

theorem toDigits_whole (n : Nat) :
    Nat.toDigits 10 n = ['0'] ∨ ∃ lead more, Nat.toDigits 10 n = lead :: more ∧ lead ≠ '0' := by
  rcases Nat.eq_zero_or_pos n with rfl | positive
  · exact Or.inl rfl
  · exact Or.inr (toDigits_leads positive)

theorem digitsValue_toDigits (n : Nat) : digitsValue (Nat.toDigits 10 n) = n := by
  have value : Nat.ofDigitChars 10 (Nat.toDigits 10 n) 0 = n := Nat.ofDigitChars_ten_toDigits
  simpa only [digitsValue,Nat.ofDigitChars,Nat.mul_comm] using value

def Spelling.ofInt (n : Int) : Spelling where
  negative := n < 0
  whole := Nat.toDigits 10 n.natAbs
  fraction := []
  exponent := none
  whole_digits := toDigits_digits _
  whole_leads := toDigits_whole _
  fraction_digits := nofun
  exponent_digits := nofun

theorem Spelling.ofInt_text (n : Int) : (Spelling.ofInt n).text = written (.int n) := by
  have unsigned : (Spelling.ofInt n).unsignedText = Nat.toDigits 10 n.natAbs := by
    simp [unsignedText,fractionText,exponentText,ofInt]
  rw [text,unsigned,written,Int.toString_eq_repr,Int.repr_eq_if]
  by_cases sign : n < 0
  · have negative : (Spelling.ofInt n).negative = true := decide_eq_true sign
    rw [negative,if_pos rfl,if_neg (by omega),Nat.repr_eq_ofList_toDigits,String.toList_append,
      String.toList_ofList,String.toList_ofList,show (-n).toNat = n.natAbs by omega]
    rfl
  · have negative : (Spelling.ofInt n).negative = false := decide_eq_false sign
    rw [negative,if_neg Bool.false_ne_true,if_pos (by omega),Nat.repr_eq_ofList_toDigits,
      String.toList_ofList,show n.toNat = n.natAbs by omega]

theorem Spelling.ofInt_number (ranged : intRange n = true) (long : Bool) :
    Reading.polled.number ((Spelling.ofInt n).literal long) = .int n := by
  have digits : ((Spelling.ofInt n).literal long).digits = n.natAbs := by
    simp [literal,ofInt,digitsValue_toDigits]
  have integer : ((Spelling.ofInt n).literal long).integer = n := by
    rw [Literal.integer,digits]
    by_cases sign : n < 0
    · rw [show ((Spelling.ofInt n).literal long).negative = true from decide_eq_true sign,if_pos rfl]
      omega
    · rw [show ((Spelling.ofInt n).literal long).negative = false from decide_eq_false sign,
        if_neg Bool.false_ne_true]
      omega
  have signed : (((Spelling.ofInt n).literal long).negative &&
      ((Spelling.ofInt n).literal long).digits == 0) = false := by
    rw [digits,show ((Spelling.ofInt n).literal long).negative = decide (n < 0) from rfl]
    by_cases sign : n < 0
    · simp [show n ≠ 0 by omega]
    · simp [sign]
  rw [Reading.number,signed,integer,ranged]
  rfl

section
open Decimal

theorem zeros_digits (n : Nat) : ∀ c ∈ zeros n, c.isDigit = true := by
  intro c member
  rw [List.eq_of_mem_replicate member]
  rfl

theorem append_digits {front back : List Char} (one : ∀ c ∈ front, c.isDigit = true)
    (two : ∀ c ∈ back, c.isDigit = true) :
    ∀ c ∈ front ++ back, c.isDigit = true :=
  fun c member => (List.mem_append.mp member).elim (one c) (two c)

theorem pointed_spelled {whole fraction : List Char} (some : fraction ≠ [])
    (left : ∀ c ∈ whole, c.isDigit = true) (right : ∀ c ∈ fraction, c.isDigit = true)
    (leads : whole = ['0'] ∨ ∃ lead more, whole = lead :: more ∧ lead ≠ '0') :
    ∃ s : Spelling, s.negative = false ∧ whole ++ '.' :: fraction = s.unsignedText := by
  refine ⟨⟨false,whole,fraction,none,left,leads,right,nofun⟩,rfl,?_⟩
  simp [Spelling.unsignedText,Spelling.fractionText,Spelling.exponentText,some]

theorem setOut_spelled (digits : ∀ c ∈ lead :: more, c.isDigit = true) (nonzero : lead ≠ '0') (point : Int) :
    ∃ s : Spelling, s.negative = false ∧ setOut .document (lead :: more) point = s.unsignedText := by
  have padded : (if Layout.document.wholeZero then ['.','0'] else []) = '.' :: ['0'] := rfl
  rw [setOut,padded]
  split
  · exact pointed_spelled (by simp) (by simp) (append_digits (zeros_digits _) digits) (Or.inl (Eq.refl ['0']))
  split
  · exact pointed_spelled (List.cons_ne_nil '0' []) (append_digits digits (zeros_digits _)) (by simp)
      (Or.inr ⟨lead,_,rfl,nonzero⟩)
  · rename_i above short
    obtain ⟨before,eq⟩ : ∃ before, point.toNat = before + 1 := ⟨point.toNat - 1,by omega⟩
    refine pointed_spelled ?_ ?_ ?_ ?_
    · exact fun none => short (List.drop_eq_nil_iff.mp none)
    · exact fun c member => digits c (List.mem_of_mem_take member)
    · exact fun c member => digits c (List.mem_of_mem_drop member)
    · exact Or.inr ⟨lead,_,by rw [eq,List.take_succ_cons],nonzero⟩

theorem withExponent_spelled (digits : ∀ c ∈ lead :: more, c.isDigit = true) (nonzero : lead ≠ '0')
    (point : Int) : ∃ s : Spelling, s.negative = false ∧ withExponent (lead :: more) point = s.unsignedText := by
  refine ⟨⟨false,[lead],more,some (!decide (0 ≤ point - 1),Nat.toDigits 10 (point - 1).natAbs),
    fun c member => digits c (List.mem_cons.mpr (Or.inl (List.mem_singleton.mp member))),
    Or.inr ⟨lead,[],rfl,nonzero⟩,fun c member => digits c (List.mem_cons_of_mem _ member),?_⟩,rfl,?_⟩
  · rintro _ ⟨⟩
    exact ⟨Nat.toDigits_ne_nil,toDigits_digits _⟩
  · simp only [withExponent,Spelling.unsignedText,Spelling.fractionText,Spelling.exponentText]
    generalize point - 1 = exponent
    cases more <;> by_cases sign : 0 ≤ exponent <;> simp [sign]

theorem magnitude_spelled (d : Numeral) :
    ∃ s : Spelling, s.negative = false ∧ magnitude .document d = s.unsignedText := by
  unfold magnitude
  dsimp only
  split
  · exact ⟨⟨false,['0'],['0'],none,by simp,Or.inl rfl,by simp,nofun⟩,rfl,rfl⟩
  · rename_i nonzero
    have positive : 0 < d.digits := Nat.pos_of_ne_zero (by simpa using nonzero)
    obtain ⟨lead,more,eq,leads⟩ := toDigits_leads positive
    have digits := toDigits_digits d.digits
    rw [eq] at digits ⊢
    split
    · exact setOut_spelled digits leads _
    · exact withExponent_spelled digits leads _

theorem finite_parts {f : Float} (finite : f.isFinite = true) : f.isNaN = false ∧ f.isInf = false := by
  unfold Float.isFinite Float.Model.isFinite at finite
  unfold Float.isNaN Float.Model.isNaN Float.isInf Float.Model.isInf
  cases unpacked : f.toModel.unpack <;> rw [unpacked] at finite
  · cases finite
  · cases finite
  · exact ⟨rfl,rfl⟩
  · exact ⟨rfl,rfl⟩

theorem float_spelled {f : Float} (finite : f.isFinite = true) : ∃ s : Spelling, written (.float f) = s.text := by
  obtain ⟨number,bounded⟩ := finite_parts finite
  obtain ⟨s,unsigned,text⟩ := magnitude_spelled (shortest (.ofBits f.toBits))
  refine ⟨{ s with negative:=decide (f.toBits ≥ 0x8000000000000000) },?_⟩
  rw [written,if_pos finite,Decimal.write,number,bounded,text]
  simp only [Bool.false_eq_true,if_false,Layout.document,Bool.true_or,Bool.and_true,String.toList_ofList]
  rfl

end

end RunWatch.Json
