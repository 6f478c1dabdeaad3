import RunWatch.Json.Meaning
namespace RunWatch.Json

-- Values with a documented form. What `decode?` accepts may be spelled in several
-- ways; `encode` writes the one form.
class Coded (α : Type) where
  encode : α → Json
  decode? : Json → Option α

export Coded (encode decode?)

instance : Coded String where
  encode := .text
  decode?
    | .text s => some s
    | _ => none

instance : Coded Bool where
  encode := .bool
  decode?
    | .bool b => some b
    | _ => none

def within? (low high : Int) : Json → Option Int
  | .int n => if low ≤ n ∧ n ≤ high then some n else none
  | .minusZero => if low ≤ 0 ∧ 0 ≤ high then some 0 else none
  | _ => none

instance : Coded Int64 where
  encode n := .int n.toInt
  decode? v := (within? Int64.minValue.toInt Int64.maxValue.toInt v).map Int64.ofInt

instance : Coded UInt32 where
  encode n := .int n.toNat
  decode? v := (within? 0 (UInt32.size - 1) v).map fun n => UInt32.ofNat n.toNat

instance : Coded UInt64 where
  encode n := .int n.toNat
  decode? v := (within? 0 (UInt64.size - 1) v).map fun n => UInt64.ofNat n.toNat

def finite? (f : Float) : Option Float := if f.isFinite then some f else none

instance : Coded Float where
  encode f := if f.isFinite then .float f else .null
  decode?
    | .float f => finite? f
    | .int n => finite? (Float.ofInt n)
    | .minusZero => some 0.0
    | _ => none

instance [Coded α] : Coded (Option α) where
  encode
    | none => .null
    | some a => encode a
  decode?
    | .null => some none
    | v => (decode? v).map some

instance [Coded α] : Coded (List α) where
  encode as := .array (as.map encode)
  decode?
    | .array vs => vs.mapM decode?
    | _ => none

def word? (words : List (String × α)) : Json → Option α
  | .text name => words.lookup name
  | .object [(name,.null)] => words.lookup name
  | _ => none

structure Metrics where
  document : Json
  settled : Settled document

instance : Coded Metrics where
  encode m := m.document
  decode? v := match h : meaning? v with
    | some document => some ⟨document,meaning_settled v h⟩
    | none => none

end RunWatch.Json
