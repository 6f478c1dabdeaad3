import RunWatch.Json.Meaning
import RunWatch.Json.Token
namespace RunWatch.Json

-- What two readers of one grammar may decide differently: whether integers beyond 64 bits
-- become doubles, whether minus zero is the double with that sign, whether a part that is
-- unusable anywhere refuses the document, how deeply containers may nest, and whether words
-- are left early, what machine words keep of them being taken for them.
structure Reading where
  wideIntegers : Bool
  negativeZero : Bool
  strict : Bool
  depth : Option Nat
  hasty : Bool
deriving DecidableEq

def Reading.polled : Reading := ⟨true,true,false,some 127,false⟩

def Reading.pushed : Reading := ⟨false,false,true,none,true⟩

def Reading.double (r : Reading) (n : Literal) : Json :=
  let size := if r.hasty then n.rough else n.exact
  if size.isInf then .unusable else .float (if n.negative then -size else size)

def Reading.number (r : Reading) (n : Literal) : Json :=
  if !n.whole then r.double n
  else if n.negative && n.digits == 0 then if r.negativeZero then .float (-0.0) else .minusZero
  else if intRange n.integer then .int n.integer
  else if r.wideIntegers then r.double n
  else .unusable

inductive Frame where
  | elements (done : List Json)
  | members (done : List (Option String × Json)) (name : Option String)

inductive Place where
  | value (around : List Frame)
  | firstElement (around : List Frame)
  | firstName (around : List Frame)
  | name (done : List (Option String × Json)) (around : List Frame)
  | colon (done : List (Option String × Json)) (name : Option String) (around : List Frame)
  | after (v : Json) (around : List Frame)

def membersOf? : List (Option String × Json) → Option Members
  | [] => some []
  | (name,v) :: rest => do return (← name,v) :: (← membersOf? rest)

def objectOf (members : List (Option String × Json)) : Json :=
  ((membersOf? members).map Json.object).getD .unusable

def Reading.fits (r : Reading) (around : List Frame) : Bool :=
  match r.depth with
  | none => true
  | some limit => around.length < limit

def Reading.close (r : Reading) (v : Json) (around : List Frame) : Place :=
  .after (if r.fits around then v else .unusable) around

def Reading.scalar? (r : Reading) : Token → Option Json
  | .null => some .null
  | .bool b => some (.bool b)
  | .number n => some (r.number n)
  | .text (some s) => some (.text s)
  | .text none => some .unusable
  | _ => none

def Reading.accept (r : Reading) (t : Token) (around : List Frame) : Option Place :=
  match t with
  | .openArray => some (.firstElement around)
  | .openObject => some (.firstName around)
  | t => (r.scalar? t).map (.after · around)

def Reading.step (r : Reading) : Place → Token → Option Place
  | .value around, t => r.accept t around
  | .firstElement around, .closeArray => some (r.close (.array []) around)
  | .firstElement around, t => r.accept t (.elements [] :: around)
  | .firstName around, .closeObject => some (r.close (.object []) around)
  | .firstName around, .text name => some (.colon [] name around)
  | .name done around, .text name => some (.colon done name around)
  | .colon done name around, .colon => some (.value (.members done name :: around))
  | .after v (.elements done :: around), .comma => some (.value (.elements (v :: done) :: around))
  | .after v (.elements done :: around), .closeArray =>
    some (r.close (.array (v :: done).reverse) around)
  | .after v (.members done name :: around), .comma => some (.name ((name,v) :: done) around)
  | .after v (.members done name :: around), .closeObject =>
    some (r.close (objectOf ((name,v) :: done).reverse) around)
  | _, _ => none

def Reading.walk (r : Reading) : Place → List Token → Option Place
  | place, [] => some place
  | place, t :: rest => (r.step place t).bind (r.walk · rest)

mutual
def usable : Json → Bool
  | .array elements => allUsable elements
  | .object members => allMembersUsable members
  | .unusable => false
  | _ => true

def allUsable : List Json → Bool
  | [] => true
  | v :: rest => usable v && allUsable rest

def allMembersUsable : Members → Bool
  | [] => true
  | (_,v) :: rest => usable v && allMembersUsable rest
end

def Reading.document? (r : Reading) (ts : List Token) : Option Json :=
  match r.walk (.value []) ts with
  | some (.after v []) => if r.strict && !usable v then none else some v
  | _ => none

def Reading.read? (r : Reading) (text : String) : Option Json :=
  (tokens? r.hasty text.toList).bind r.document?

def Reading.readBytes? (r : Reading) (bytes : ByteArray) : Option Json :=
  (String.fromUTF8? bytes).bind r.read?

end RunWatch.Json
