import RunWatch.Json.Coded
namespace RunWatch.Json

-- A field that is not given. An object may leave an optional one out, a row may not; a row
-- that ends before a defaulted one may leave that out as well.
inductive Presence where
  | required
  | optional
  | defaulted
deriving DecidableEq

structure Field where
  name : String
  presence : Presence
  aliases : List String

def required (name : String) : Field := ⟨name,.required,[]⟩
def optional (name : String) : Field := ⟨name,.optional,[]⟩
def defaulted (name : String) : Field := ⟨name,.defaulted,[]⟩

def Field.named (f : Field) (name : String) : Bool := name == f.name || f.aliases.contains name

def Field.slot? (f : Field) (members : Members) : Option (Option Json) :=
  match members.filter fun m => f.named m.1 with
  | [] => if f.presence = .required then none else some none
  | [(_,v)] => some (some v)
  | _ => none

def rowSlots? : List Field → List Json → Option (List (Option Json))
  | [], [] => some []
  | [], _ :: _ => none
  | f :: fields, [] =>
    if f.presence = .defaulted then (rowSlots? fields []).map (none :: ·) else none
  | _ :: fields, v :: row => (rowSlots? fields row).map (some v :: ·)

def slots? (fields : List Field) : Json → Option (List (Option Json))
  | .object members => fields.mapM (Field.slot? · members)
  | .array row => rowSlots? fields row
  | _ => none

def record (fields : List Field) (values : List Json) : Json :=
  .object (List.zip (fields.map Field.name) values)

def given? [Coded α] : Option Json → Option α
  | some v => decode? v
  | none => none

def givenOr? [Coded α] (default : α) : Option Json → Option α
  | some v => decode? v
  | none => some default

end RunWatch.Json
