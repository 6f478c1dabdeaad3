import RunWatch.Fault
import RunWatch.Json.Fields
namespace RunWatch

class Row (ρ : Type) (α : outParam Type) where
  read? : Json → Option ρ
  accept : ρ → Except Fault α

def acceptAll [Row ρ α] (rows : List ρ) : Except Fault (List α) := rows.mapM Row.accept

def readRows? [Row ρ α] : Json → Option (List ρ)
  | .array vs => vs.mapM Row.read?
  | _ => none

end RunWatch
