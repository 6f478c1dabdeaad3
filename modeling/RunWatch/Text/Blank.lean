namespace RunWatch.Text

-- White space as the character property of that name has it. U+200B and U+FEFF
-- are formatting characters and stay.
def blankRanges : List (Nat × Nat) :=
  [(0x09,0x0D), (0x20,0x20), (0x85,0x85), (0xA0,0xA0), (0x1680,0x1680),
   (0x2000,0x200A), (0x2028,0x2029), (0x202F,0x202F), (0x205F,0x205F), (0x3000,0x3000)]

def isBlank (c : Char) : Bool :=
  blankRanges.any fun (first,last) => first ≤ c.toNat && c.toNat ≤ last

def dropEnd (drop : Char → Bool) (cs : List Char) : List Char :=
  (cs.reverse.dropWhile drop).reverse

def strip (cs : List Char) : List Char := dropEnd isBlank (cs.dropWhile isBlank)

def trim (s : String) : String := String.ofList (strip s.toList)

def allBlank (s : String) : Bool := s.toList.all isBlank

def content? (s : String) : Option String :=
  let inner := trim s
  if inner.isEmpty then none else some inner

def upper (s : String) : String := String.ofList (s.toList.map Char.toUpper)

def lower (s : String) : String := String.ofList (s.toList.map Char.toLower)

theorem toList_trim (s : String) : (trim s).toList = strip s.toList := by simp [trim]

theorem toList_upper (s : String) : (upper s).toList = s.toList.map Char.toUpper := by simp [upper]

end RunWatch.Text
