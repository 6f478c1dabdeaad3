namespace RunWatch.Json

def hexDigit? (c : Char) : Option Nat :=
  if c.isDigit then some (c.toNat - '0'.toNat)
  else if 'a' ≤ c && c ≤ 'f' then some (c.toNat - 'a'.toNat + 10)
  else if 'A' ≤ c && c ≤ 'F' then some (c.toNat - 'A'.toNat + 10)
  else none

def hexUnit? (a b c d : Char) : Option Nat := do
  return (((← hexDigit? a) * 16 + (← hexDigit? b)) * 16 + (← hexDigit? c)) * 16 + (← hexDigit? d)

inductive Piece where
  | char (c : Char)
  | unit (n : Nat)
deriving DecidableEq

def isHigh (unit : Nat) : Bool := 0xD800 ≤ unit && unit < 0xDC00
def isLow (unit : Nat) : Bool := 0xDC00 ≤ unit && unit < 0xE000

def shortEscape? : Char → Option Char
  | '"' => some '"'
  | '\\' => some '\\'
  | '/' => some '/'
  | 'b' => some '\x08'
  | 'f' => some '\x0c'
  | 'n' => some '\n'
  | 'r' => some '\r'
  | 't' => some '\t'
  | _ => none

def pieces? : List Char → Option (List Piece × List Char)
  | [] => none
  | '"' :: rest => some ([],rest)
  | '\\' :: 'u' :: a :: b :: c :: d :: rest => do
    let unit ← hexUnit? a b c d
    let (more,rest) ← pieces? rest
    return (.unit unit :: more,rest)
  | '\\' :: c :: rest => do
    let c ← shortEscape? c
    let (more,rest) ← pieces? rest
    return (.char c :: more,rest)
  | c :: rest => do
    if c.toNat < 0x20 then none else
    let (more,rest) ← pieces? rest
    return (.char c :: more,rest)

-- The character that two units make. Ten bits of each are meant to count; a second
-- unit beyond the low ones brings more, which the first one's bits cover.
def pairChar (high low : Nat) : Char :=
  Char.ofNat (((high - 0xD800) * 0x400 ||| (low - 0xDC00)) + 0x10000)

def joinPairs? : List Piece → Option (List Char)
  | [] => some []
  | .char c :: rest => (joinPairs? rest).map (c :: ·)
  | .unit high :: .unit low :: rest =>
    if isHigh high then
      if isLow low then (joinPairs? rest).map (pairChar high low :: ·) else none
    else if isLow high then none
    else (joinPairs? (.unit low :: rest)).map (Char.ofNat high :: ·)
  | .unit unit :: rest =>
    if isHigh unit || isLow unit then none else (joinPairs? rest).map (Char.ofNat unit :: ·)

-- A high surrogate takes any unit behind it that is not below the low ones. With no
-- unit behind it, it stands for the character zero.
def joinLoosely? : List Piece → Option (List Char)
  | [] => some []
  | .char c :: rest => (joinLoosely? rest).map (c :: ·)
  | .unit high :: .unit low :: rest =>
    if isHigh high then
      if 0xDC00 ≤ low then (joinLoosely? rest).map (pairChar high low :: ·) else none
    else if isLow high then none
    else (joinLoosely? (.unit low :: rest)).map (Char.ofNat high :: ·)
  | .unit unit :: rest =>
    if isLow unit then none
    else (joinLoosely? rest).map ((if isHigh unit then '\x00' else Char.ofNat unit) :: ·)

end RunWatch.Json
