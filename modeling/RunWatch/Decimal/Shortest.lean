namespace RunWatch.Decimal

structure Binary where
  mantissa : Nat
  exponent : Int
  narrowBelow : Bool
deriving DecidableEq

def fractionBits : Nat := 52

def Binary.ofBits (bits : UInt64) : Binary :=
  let fraction : Nat := bits.toNat % (1 <<< fractionBits)
  let field : Nat := (bits.toNat >>> fractionBits) % (1 <<< 11)
  if field == 0 then ⟨fraction, -1074, false⟩
  else ⟨fraction + (1 <<< fractionBits), (field : Int) - 1075, fraction == 0 && 1 < field⟩

structure Numeral where
  digits : Nat
  exponent : Int
deriving DecidableEq

-- The set of reals that round to one double, in quarters of its last place. All
-- four numbers share one denominator, so membership is a comparison of naturals.
structure Interval where
  low : Nat
  value : Nat
  high : Nat
  unit : Nat
  closed : Bool
deriving DecidableEq

def Binary.interval (b : Binary) : Interval :=
  let up := 1 <<< (b.exponent - 2).toNat
  let down := 1 <<< (2 - b.exponent).toNat
  ⟨(4 * b.mantissa - if b.narrowBelow then 1 else 2) * up, 4 * b.mantissa * up,
    (4 * b.mantissa + 2) * up, down, b.mantissa % 2 == 0⟩

def tenTo (n : Nat) : Nat := Nat.pow 10 n

def Interval.onGrid (i : Interval) (g : Int) : Interval :=
  let tens := tenTo (-g).toNat
  { i with low:=i.low * tens, value:=i.value * tens, high:=i.high * tens, unit:=i.unit * tenTo g.toNat }

def Interval.holds (i : Interval) (multiple : Nat) : Bool :=
  let point := multiple * i.unit
  if i.closed then i.low ≤ point && point ≤ i.high else i.low < point && point < i.high

-- Of the value's two neighbours on a grid: the one that rounds back, the nearer if
-- both do, the one with an even last digit if they are equally near.
def Interval.pick (i : Interval) : Option Nat :=
  let under := i.value / i.unit
  let above := under + 1
  match i.holds under, i.holds above with
  | false, false => none
  | true, false => some under
  | false, true => some above
  | true, true =>
    let left := i.value - under * i.unit
    let right := above * i.unit - i.value
    if left < right then some under
    else if right < left then some above
    else if under % 2 == 0 then some under else some above

def decimalLength (n : Nat) : Nat := (Nat.toDigits 10 n).length

def scaleToOne (value unit : Nat) : Nat → Nat
  | 0 => 0
  | fuel + 1 => if unit ≤ value then 0 else scaleToOne (value * 10) unit fuel + 1

def Interval.leading (i : Interval) : Int :=
  if i.unit ≤ i.value then (decimalLength (i.value / i.unit) : Int) - 1
  else -(scaleToOne i.value i.unit 400 : Int)

def Interval.search (i : Interval) (leading : Int) : Nat → Nat → Numeral
  | 0, _ => ⟨0, 0⟩
  | fuel + 1, count =>
    let g := leading - count
    match (i.onGrid g).pick with
    | some n => if n == tenTo (count + 1) then ⟨1, leading + 1⟩ else ⟨n, g⟩
    | none => search i leading fuel (count + 1)

def shortest (b : Binary) : Numeral :=
  if b.mantissa == 0 then ⟨0, 0⟩ else
  let i := b.interval
  i.search i.leading 20 0

-- The double nearest to a decimal number. Numbers far beyond either end of the
-- range are settled by their leading position alone.
def Numeral.nearest (d : Numeral) : Float :=
  let point := (decimalLength d.digits : Int) + d.exponent
  if d.digits == 0 || point < -400 then 0.0
  else if 400 < point then 1.0 / 0.0
  else Float.ofScientific d.digits (d.exponent < 0) d.exponent.natAbs

end RunWatch.Decimal
