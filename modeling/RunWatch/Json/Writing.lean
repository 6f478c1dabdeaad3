import RunWatch.Json.Basic
import RunWatch.Decimal.Layout
namespace RunWatch.Json

def hexChar (n : Nat) : Char := (Nat.toDigits 16 (n % 16)).headD '0'

def escaped (c : Char) : List Char :=
  if c == '"' then ['\\','"']
  else if c == '\\' then ['\\','\\']
  else if c.toNat < 0x20 then
    if c == '\x08' then ['\\','b']
    else if c == '\t' then ['\\','t']
    else if c == '\n' then ['\\','n']
    else if c == '\x0c' then ['\\','f']
    else if c == '\r' then ['\\','r']
    else ['\\','u','0','0',hexChar (c.toNat / 16),hexChar c.toNat]
  else [c]

def quoted (s : String) : List Char := '"' :: s.toList.flatMap escaped ++ ['"']

mutual
def written : Json → List Char
  | .null => "null".toList
  | .bool b => (if b then "true" else "false").toList
  | .int n => (toString n).toList
  | .minusZero => ['0']
  | .float f => if f.isFinite then (Decimal.write .document f).toList else "null".toList
  | .text s => quoted s
  | .array [] => ['[',']']
  | .array (v :: rest) => '[' :: written v ++ writtenRest rest
  | .object [] => ['{','}']
  | .object ((name,v) :: rest) => '{' :: quoted name ++ ':' :: written v ++ writtenMembers rest
  | .unusable => "null".toList

def writtenRest : List Json → List Char
  | [] => [']']
  | v :: rest => ',' :: written v ++ writtenRest rest

def writtenMembers : Members → List Char
  | [] => ['}']
  | (name,v) :: rest => ',' :: quoted name ++ ':' :: written v ++ writtenMembers rest
end

def write (v : Json) : String := String.ofList (written v)

end RunWatch.Json
