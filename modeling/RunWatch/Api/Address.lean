namespace RunWatch.Api

structure Address where
  origin : String
  segments : List String
  query : Option String
  fragment : Option String
deriving DecidableEq

def isSlash (c : Char) : Bool := c == '/' || c == '\\'

def parts (isSeparator : Char → Bool) : List Char → List (List Char)
  | [] => [[]]
  | c :: rest =>
    if isSeparator c then [] :: parts isSeparator rest
    else match parts isSeparator rest with
      | [] => [[c]]
      | part :: more => (c :: part) :: more

def hexDigit (n : Nat) : Char := if n < 10 then Char.ofNat (48 + n) else Char.ofNat (55 + n)

def percent (b : UInt8) : List Char := ['%',hexDigit (b.toNat / 16),hexDigit (b.toNat % 16)]

def escape (reserved : List Char) (c : Char) : List Char :=
  if c.toNat ≤ 0x20 || 0x7F ≤ c.toNat || reserved.contains c
  then (String.utf8EncodeChar c).flatMap percent else [c]

def reservedInPath : List Char := ['"','#','<','>','?','`','{','}']
def reservedInQuery : List Char := ['"','#','<','>','\'']
def reservedInFragment : List Char := ['"','<','>','`']

def escaped (reserved : List Char) (cs : List Char) : String := String.ofList (cs.flatMap (escape reserved))

def dots : List Char → Option Nat
  | [] => some 0
  | '.' :: rest => (dots rest).map (· + 1)
  | '%' :: '2' :: 'e' :: rest => (dots rest).map (· + 1)
  | '%' :: '2' :: 'E' :: rest => (dots rest).map (· + 1)
  | _ => none

-- Follows a path, with the segments so far in reverse order. One dot stays where it
-- is and two go back; a path that ends so ends in an empty segment.
def follow : List String → List (List Char) → List String
  | done, [] => done.reverse
  | done, part :: rest =>
    let done := match dots part with
      | some 1 => done
      | some 2 => done.tail
      | _ => escaped reservedInPath part :: done
    let isDots := dots part == some 1 || dots part == some 2
    if isDots && rest.isEmpty then follow ("" :: done) rest else follow done rest

-- White space and control characters around an address do not count, nor do tabs
-- and line ends inside it.
def outline (text : String) : List Char :=
  let isEdge := fun c : Char => c.toNat ≤ 0x20
  let inner := (text.toList.dropWhile isEdge).reverse.dropWhile isEdge
  inner.reverse.filter fun c => !(c == '\t' || c == '\n' || c == '\r')

def schemeEnd : List Char → List Char × List Char
  | ':' :: rest => ([':','/','/'],rest.dropWhile isSlash)
  | c :: rest =>
    let (scheme,rest) := schemeEnd rest
    (c :: scheme,rest)
  | [] => ([],[])

def cut? (mark : Char) (cs : List Char) : List Char × Option (List Char) :=
  match cs.dropWhile (· != mark) with
  | [] => (cs,none)
  | _ :: rest => (cs.takeWhile (· != mark),some rest)

def Address.ofText (text : String) : Address :=
  let (scheme,rest) := schemeEnd (outline text)
  let (rest,fragment) := cut? '#' rest
  let (rest,query) := cut? '?' rest
  let host := rest.takeWhile fun c => !isSlash c
  let path := rest.dropWhile fun c => !isSlash c
  ⟨String.ofList (scheme ++ host),follow [] (parts isSlash path.tail),
    query.map (escaped reservedInQuery),fragment.map (escaped reservedInFragment)⟩

def Address.target (a : Address) : String :=
  "/" ++ "/".intercalate a.segments ++ (a.query.map ("?" ++ ·)).getD ""

def Address.text (a : Address) : String :=
  a.origin ++ a.target ++ (a.fragment.map ("#" ++ ·)).getD ""

end RunWatch.Api
