import RunWatch.Json.Literal
import RunWatch.Json.Piece
namespace RunWatch.Json

inductive Token where
  | openArray | closeArray | openObject | closeObject | comma | colon
  | null
  | bool (b : Bool)
  | number (n : Literal)
  | text (s : Option String)
deriving DecidableEq

def isSpace (c : Char) : Bool := c == ' ' || c == '\t' || c == '\n' || c == '\r'

def isMark (c : Char) : Bool :=
  c == '[' || c == ']' || c == '{' || c == '}' || c == ',' || c == ':'

def skipWord (escaped : Bool) : List Char → List Char
  | [] => []
  | c :: cs =>
    if isSpace c || isMark c || (c == '"' && !escaped) then c :: cs
    else skipWord (c == '\\' && !escaped) cs

-- A hasty reader is done with a word once it knows its value: it looks at the next
-- character only, not even that one behind a long number, and takes the character
-- zero for an end.
def leave (hasty long : Bool) (rest : List Char) : List Char :=
  if hasty && (long || rest.head? == some '\x00') then skipWord false rest else rest

def join? (hasty : Bool) (pieces : List Piece) : Option String :=
  (if hasty then joinLoosely? pieces else joinPairs? pieces).map String.ofList

def token? (hasty : Bool) (size : Nat) : List Char → Option (Token × List Char)
  | '[' :: rest => some (.openArray,rest)
  | ']' :: rest => some (.closeArray,rest)
  | '{' :: rest => some (.openObject,rest)
  | '}' :: rest => some (.closeObject,rest)
  | ',' :: rest => some (.comma,rest)
  | ':' :: rest => some (.colon,rest)
  | '"' :: rest => do
    let (pieces,rest) ← pieces? rest
    return (.text (join? hasty pieces),rest)
  | 'n' :: 'u' :: 'l' :: 'l' :: rest => some (.null,leave hasty false rest)
  | 't' :: 'r' :: 'u' :: 'e' :: rest => some (.bool true,leave hasty false rest)
  | 'f' :: 'a' :: 'l' :: 's' :: 'e' :: rest => some (.bool false,leave hasty false rest)
  | cs => do
    let (n,rest) ← literal? size cs
    return (.number n,leave hasty n.long rest)

-- One token or one space is taken off at a time, so a text has no more steps than
-- characters.
def tokensWithin (hasty : Bool) (size : Nat) : Nat → List Char → Option (List Token)
  | _, [] => some []
  | 0, _ :: _ => none
  | steps + 1, c :: cs =>
    if isSpace c then tokensWithin hasty size steps cs
    else do
      let (t,rest) ← token? hasty size (c :: cs)
      return t :: (← tokensWithin hasty size steps rest)

def tokens? (hasty : Bool) (cs : List Char) : Option (List Token) :=
  tokensWithin hasty (byteLength cs) cs.length cs

end RunWatch.Json
