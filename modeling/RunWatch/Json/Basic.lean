namespace RunWatch

-- A document as read. `unusable` marks a part that is well formed but that no value
-- can be made of: a text with an unpaired surrogate, a number beyond the doubles,
-- or nesting beyond the reader's limit. It does no harm where it is never looked at.
-- `minusZero` is zero wherever a number is wanted, but no place in a list.
inductive Json where
  | null
  | bool (b : Bool)
  | int (n : Int)
  | minusZero
  | float (f : Float)
  | text (s : String)
  | array (elements : List Json)
  | object (members : List (String × Json))
  | unusable
deriving Inhabited

namespace Json

abbrev Members := List (String × Json)

end Json
end RunWatch
