import RunWatch.Decimal.Shortest
namespace RunWatch.Decimal

-- How the digits of a number are set out. `point` is the number of digits before
-- the decimal point, so 0.05 has the point -1.
structure Layout where
  positional : Int → Bool
  wholeZero : Bool
  signedZero : Bool

def Layout.document : Layout := ⟨fun point => -5 < point && point ≤ 16, true, true⟩

def Layout.plain : Layout := ⟨fun _ => true, false, true⟩

def zeros (n : Nat) : List Char := List.replicate n '0'

def setOut (layout : Layout) (digits : List Char) (point : Int) : List Char :=
  let tail := if layout.wholeZero then ['.','0'] else []
  if point ≤ 0 then '0' :: '.' :: zeros (-point).toNat ++ digits
  else if digits.length ≤ point.toNat then digits ++ zeros (point.toNat - digits.length) ++ tail
  else digits.take point.toNat ++ '.' :: digits.drop point.toNat

def withExponent (digits : List Char) (point : Int) : List Char :=
  let exponent := point - 1
  let sign := if 0 ≤ exponent then '+' else '-'
  let lead := match digits with
    | [] => []
    | [d] => [d]
    | d :: rest => d :: '.' :: rest
  lead ++ 'e' :: sign :: Nat.toDigits 10 exponent.natAbs

def magnitude (layout : Layout) (d : Numeral) : List Char :=
  let digits := Nat.toDigits 10 d.digits
  let point := (digits.length : Int) + d.exponent
  if d.digits == 0 then setOut layout ['0'] 1
  else if layout.positional point then setOut layout digits point
  else withExponent digits point

def write (layout : Layout) (f : Float) : String :=
  if f.isNaN then "NaN" else
  let negative := f.toBits ≥ 0x8000000000000000
  let body := if f.isInf then "inf".toList
    else magnitude layout (shortest (.ofBits f.toBits))
  String.ofList (if negative && (layout.signedZero || f != 0.0) then '-' :: body else body)

end RunWatch.Decimal
