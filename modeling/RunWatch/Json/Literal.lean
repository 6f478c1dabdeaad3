import RunWatch.Decimal.Shortest
namespace RunWatch.Json

structure Literal where
  negative : Bool
  digits : Nat
  places : Nat
  exponent : Option Int
  long : Bool
deriving DecidableEq

def digitsValue (digits : List Char) : Nat :=
  digits.foldl (fun value c => value * 10 + (c.toNat - '0'.toNat)) 0

def digitRun (cs : List Char) : List Char × List Char :=
  (cs.takeWhile Char.isDigit, cs.dropWhile Char.isDigit)

def wholePart? : List Char → Option (List Char × List Char)
  | '0' :: rest => some (['0'],rest)
  | cs => match digitRun cs with
    | ([],_) => none
    | run => some run

def fraction? : List Char → Option (List Char × List Char)
  | '.' :: cs => match digitRun cs with
    | ([],_) => none
    | run => some run
  | cs => some ([],cs)

def exponentDigits? (negative : Bool) (cs : List Char) : Option (Option Int × List Char) :=
  match digitRun cs with
  | ([],_) => none
  | (run,rest) =>
    let size : Int := digitsValue run
    some (some (if negative then -size else size),rest)

def exponent? : List Char → Option (Option Int × List Char)
  | c :: cs =>
    if c == 'e' || c == 'E' then
      match cs with
      | '+' :: cs => exponentDigits? false cs
      | '-' :: cs => exponentDigits? true cs
      | cs => exponentDigits? false cs
    else some (none,c :: cs)
  | [] => some (none,[])

def byteLength (cs : List Char) : Nat := cs.foldl (fun bytes c => bytes + c.utf8Size) 0

-- Digits are counted less what leads them: every zero or point in front of the first
-- other digit takes off the place in the text where it ends.
def countAfter (place : Nat) (count : Nat) : List Char → Nat
  | [] => count
  | c :: cs =>
    if c == '0' || c == '.' then countAfter (place + 1) (count - (place + 1)) cs else count

def isLong (size : Nat) (left : List Char) (spelled : List Char) (integer : Bool) : Bool :=
  if integer then 18 < spelled.length
  else 19 < spelled.length && (spelled.head? != some '0' ||
    18 < countAfter (size - byteLength left) (spelled.length - 1) spelled)

def unsigned? (size : Nat) (negative : Bool) (cs : List Char) : Option (Literal × List Char) := do
  let (whole,rest) ← wholePart? cs
  let (fraction,rest) ← fraction? rest
  let (exponent,rest) ← exponent? rest
  let spelled := if fraction.isEmpty then whole else whole ++ '.' :: fraction
  return (⟨negative,digitsValue (whole ++ fraction),fraction.length,exponent,
    isLong size cs spelled (fraction.isEmpty && exponent.isNone)⟩,rest)

def literal? (size : Nat) : List Char → Option (Literal × List Char)
  | '-' :: cs => unsigned? size true cs
  | cs => unsigned? size false cs

namespace Literal

def whole (n : Literal) : Bool := n.places == 0 && n.exponent.isNone

def integer (n : Literal) : Int := if n.negative then -(n.digits : Int) else n.digits

def decimal (n : Literal) : Decimal.Numeral := ⟨n.digits,n.exponent.getD 0 - n.places⟩

def exact (n : Literal) : Float := n.decimal.nearest

def kept (n : Literal) : Decimal.Numeral :=
  ⟨n.digits % UInt64.size,(n.exponent.getD 0 - n.places).bmod UInt32.size⟩

def farExponent (n : Literal) : Bool := UInt32.size < (n.exponent.getD 0).natAbs / 10

-- The size by what machine words keep of it, unless the number is long. Where they
-- point at no normal double, the text is read in full after all.
def rough (n : Literal) : Float :=
  if n.farExponent then 1.0 / 0.0
  else if n.long then n.exact
  else
    let size := n.kept.nearest
    let near := -325 ≤ n.kept.exponent && n.kept.exponent ≤ 308
    if n.kept.digits == 0 || (near && size.isFinite && 2.2250738585072014e-308 ≤ size) then size
    else n.exact

end Literal

end RunWatch.Json
