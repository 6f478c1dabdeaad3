import RunWatch.Proofs.Json.Numerals
import RunWatch.Proofs.Json.Texts
namespace RunWatch.Json

mutual
def depth : Json → Nat
  | .array elements => depthOfAll elements + 1
  | .object members => depthOfMembers members + 1
  | _ => 0

def depthOfAll : List Json → Nat
  | [] => 0
  | v :: rest => max (depth v) (depthOfAll rest)

def depthOfMembers : Members → Nat
  | [] => 0
  | (_,v) :: rest => max (depth v) (depthOfMembers rest)
end

-- A document that its text can be read back from: numbers within the range of their kind,
-- and no part that is written as something else.
mutual
def Writable : Json → Prop
  | .null | .bool _ | .text _ => True
  | .int n => intRange n = true
  | .float f => f.isFinite = true
  | .array elements => AllWritable elements
  | .object members => MembersWritable members
  | .minusZero | .unusable => False

def AllWritable : List Json → Prop
  | [] => True
  | v :: rest => Writable v ∧ AllWritable rest

def MembersWritable : Members → Prop
  | [] => True
  | (_,v) :: rest => Writable v ∧ MembersWritable rest
end

mutual
def doubles : Json → List Float
  | .float f => [f]
  | .array elements => doublesOfAll elements
  | .object members => doublesOfMembers members
  | _ => []

def doublesOfAll : List Json → List Float
  | [] => []
  | v :: rest => doubles v ++ doublesOfAll rest

def doublesOfMembers : Members → List Float
  | [] => []
  | (_,v) :: rest => doubles v ++ doublesOfMembers rest
end

-- The text written for a double reads back as that double.
def Legible (f : Float) : Prop := Reading.polled.read? (write (.float f)) = some (.float f)

def Splits (size : Nat) (cs : List Char) (ts : List Token) : Prop :=
  ∀ steps, cs.length ≤ steps → tokensWithin false size steps cs = some ts

theorem Splits.nil : Splits size [] [] := fun steps _ => by cases steps <;> rfl

theorem Splits.cons (blank : isSpace c = false) (first : token? false size (c :: cs) = some (t,rest))
    (shorter : rest.length ≤ cs.length) (later : Splits size rest ts) : Splits size (c :: cs) (t :: ts) := by
  intro steps enough
  cases steps with
  | zero => cases enough
  | succ steps =>
    have left : rest.length ≤ steps := Nat.le_trans shorter (Nat.le_of_succ_le_succ enough)
    simp [tokensWithin,blank,first,later steps left]

-- The rest of a text completes the document that has been read up to here.
def Completes (size : Nat) (place : Place) (cs : List Char) (final : Json) : Prop :=
  ∃ ts, Splits size cs ts ∧ Reading.polled.walk place ts = some (.after final [])

theorem Completes.step (blank : isSpace c = false) (first : token? false size (c :: cs) = some (t,rest))
    (shorter : rest.length ≤ cs.length) (moved : Reading.polled.step place t = some next)
    (later : Completes size next rest final) : Completes size place (c :: cs) final := by
  obtain ⟨ts,split,walked⟩ := later
  exact ⟨t :: ts,.cons blank first shorter split,by rw [Reading.walk,moved]; exact walked⟩

theorem Completes.mark (first : token? false size (c :: cs) = some (t,cs)) (blank : isSpace c = false)
    (moved : Reading.polled.step place t = some next) (later : Completes size next cs final) :
    Completes size place (c :: cs) final :=
  .step blank first (Nat.le_refl _) moved later

theorem Completes.read (complete : Completes (byteLength cs) (.value []) cs final) :
    Reading.polled.read? (String.ofList cs) = some final := by
  obtain ⟨ts,split,walked⟩ := complete
  have tokens : tokens? Reading.polled.hasty cs = some ts := split _ (Nat.le_refl _)
  rw [Reading.read?,String.toList_ofList,tokens,Option.bind_some,Reading.document?,walked]
  rfl

theorem Completes.element (complete : Completes size (.value (.elements [] :: around)) cs final) :
    Completes size (.firstElement around) cs final := by
  obtain ⟨ts,split,walked⟩ := complete
  refine ⟨ts,split,?_⟩
  cases ts with
  | nil => cases walked
  | cons t rest =>
    rw [Reading.walk] at walked ⊢
    cases t with
    | closeArray => cases walked
    | _ => exact walked

theorem number_token (starts : c.isDigit = true ∨ c = '-') (read : literal? size (c :: cs) = some (n,rest)) :
    token? false size (c :: cs) = some (.number n,rest) := by
  rw [token?.eq_def]
  split
  case h_11 => simp [read,leave]
  all_goals
    rename_i same
    cases same
    rcases starts with digit | dash
    · cases digit
    · cases dash

theorem Spelling.text_head (s : Spelling) :
    ∃ lead more, s.text = lead :: more ∧ (lead.isDigit = true ∨ lead = '-') := by
  obtain ⟨lead,more,text,digit⟩ := s.unsignedText_head
  unfold Spelling.text
  split
  · exact ⟨'-',_,rfl,Or.inr rfl⟩
  · exact ⟨lead,more,text,Or.inl digit⟩

theorem number_not_blank (starts : c.isDigit = true ∨ c = '-') : isSpace c = false := by
  refine Bool.eq_false_iff.mpr fun blank => ?_
  simp only [isSpace,Bool.or_eq_true,beq_iff_eq] at blank
  rcases blank with ((rfl | rfl) | rfl) | rfl <;> simp at starts

theorem Completes.number (s : Spelling) (value : ∀ long, Reading.polled.number (s.literal long) = v)
    (stops : Stops rest) (later : Completes size (.after v around) rest final) :
    Completes size (.value around) (s.text ++ rest) final := by
  obtain ⟨long,read⟩ := s.literal_read stops size
  obtain ⟨lead,more,text,starts⟩ := s.text_head
  rw [text,List.cons_append] at read ⊢
  refine .step (number_not_blank starts) (number_token starts read) (by simp) ?_ later
  simp only [Reading.step,Reading.accept,Reading.scalar?,value,Option.map_some]

theorem legible_number {s : Spelling} (legible : Legible f) (text : written (.float f) = s.text) (long : Bool) :
    Reading.polled.number (s.literal long) = .float f := by
  have complete : Completes (byteLength s.text) (.value []) (s.text ++ [])
      (Reading.polled.number (s.literal long)) :=
    .number s (fun _ => rfl) .nil ⟨[],.nil,rfl⟩
  rw [List.append_nil] at complete
  have read := complete.read
  rw [Legible,write,text] at legible
  exact Option.some.inj (read.symm.trans legible)

theorem polled_close (fits : around.length < 127) (v : Json) :
    Reading.polled.close v around = .after v around := by
  have room : Reading.polled.fits around = true := decide_eq_true fits
  rw [Reading.close,room]
  rfl

def named (member : String × Json) : Option String × Json := (some member.1,member.2)

theorem objectOf_named (members : Members) : objectOf (members.map named) = .object members := by
  have all : membersOf? (members.map named) = some members := by
    induction members with
    | nil => rfl
    | cons m rest ih => simp [membersOf?,named,ih]
  rw [objectOf,all]
  rfl

variable {size : Nat} {final : Json}

theorem Completes.quoted (moved : Reading.polled.step place (.text (some s)) = some next)
    (later : Completes size next rest final) : Completes size place (quoted s ++ rest) final := by
  have shorter : rest.length ≤ (s.toList.flatMap escaped ++ ['"'] ++ rest).length := by
    rw [List.length_append]
    exact Nat.le_add_left ..
  exact .step rfl (quoted_token s size rest) shorter moved later

theorem written_array (v : Json) (more : List Json) (rest : List Char) :
    written (.array (v :: more)) ++ rest = '[' :: (written v ++ (writtenRest more ++ rest)) := by
  simp [written]

theorem writtenRest_cons (v : Json) (more : List Json) (rest : List Char) :
    writtenRest (v :: more) ++ rest = ',' :: (written v ++ (writtenRest more ++ rest)) := by
  simp [writtenRest]

theorem written_object (name : String) (v : Json) (more : Members) (rest : List Char) :
    written (.object ((name,v) :: more)) ++ rest =
      '{' :: (quoted name ++ ':' :: (written v ++ (writtenMembers more ++ rest))) := by
  simp [written]

theorem writtenMembers_cons (name : String) (v : Json) (more : Members) (rest : List Char) :
    writtenMembers ((name,v) :: more) ++ rest =
      ',' :: (quoted name ++ ':' :: (written v ++ (writtenMembers more ++ rest))) := by
  simp [writtenMembers]

theorem writtenRest_stops (vs : List Json) : Stops (writtenRest vs ++ rest) := by
  cases vs <;> exact .cons rfl

theorem writtenMembers_stops (ms : Members) : Stops (writtenMembers ms ++ rest) := by
  cases ms <;> exact .cons rfl

mutual
theorem Completes.value : (v : Json) → (around : List Frame) → (rest : List Char) → Writable v →
    (∀ f ∈ doubles v, Legible f) → depth v + around.length ≤ 127 → Stops rest →
    Completes size (.after v around) rest final →
      Completes size (.value around) (written v ++ rest) final
  | .null, _, _, _, _, _, _, later => .step rfl rfl (by simp [leave]; omega) rfl later
  | .bool true, _, _, _, _, _, _, later => .step rfl rfl (by simp [leave]; omega) rfl later
  | .bool false, _, _, _, _, _, _, later => .step rfl rfl (by simp [leave]; omega) rfl later
  | .int n, _, _, ranged, _, _, stops, later => by
    rw [← Spelling.ofInt_text]
    exact .number _ (Spelling.ofInt_number ranged) stops later
  | .float f, _, _, finite, legible, _, stops, later => by
    obtain ⟨s,text⟩ := float_spelled finite
    rw [text]
    exact .number s (legible_number (legible f List.mem_cons_self) text) stops later
  | .text s, _, _, _, _, _, _, later => .quoted rfl later
  | .array [], around, _, _, _, shallow, _, later => by
    have fits : around.length < 127 := by simp only [depth,depthOfAll] at shallow; omega
    refine .mark rfl rfl rfl (.mark rfl rfl rfl ?_)
    rwa [polled_close fits]
  | .array (v :: more), around, rest, writable, legible, shallow, _, later => by
    obtain ⟨first,others⟩ := writable
    simp only [depth,depthOfAll] at shallow
    rw [written_array]
    refine .mark rfl rfl rfl (.element ?_)
    refine Completes.value v _ _ first (fun f member => legible f (List.mem_append_left _ member))
      (by simp only [List.length_cons]; omega) (writtenRest_stops more) ?_
    exact Completes.elements more v [] around rest others
      (fun f member => legible f (List.mem_append_right _ member)) (by omega) later
  | .object [], around, _, _, _, shallow, _, later => by
    have fits : around.length < 127 := by simp only [depth,depthOfMembers] at shallow; omega
    refine .mark rfl rfl rfl (.mark rfl rfl rfl ?_)
    rwa [polled_close fits]
  | .object ((name,v) :: more), around, rest, writable, legible, shallow, _, later => by
    obtain ⟨first,others⟩ := writable
    simp only [depth,depthOfMembers] at shallow
    rw [written_object]
    refine .mark rfl rfl rfl (.quoted rfl (.mark rfl rfl rfl ?_))
    refine Completes.value v _ _ first (fun f member => legible f (List.mem_append_left _ member))
      (by simp only [List.length_cons]; omega) (writtenMembers_stops more) ?_
    exact Completes.members more name v [] around rest others
      (fun f member => legible f (List.mem_append_right _ member)) (by omega) later

theorem Completes.elements : (vs : List Json) → (v : Json) → (before : List Json) → (around : List Frame) →
    (rest : List Char) → AllWritable vs → (∀ f ∈ doublesOfAll vs, Legible f) →
    depthOfAll vs + around.length + 1 ≤ 127 →
    Completes size (.after (.array (before.reverse ++ v :: vs)) around) rest final →
      Completes size (.after v (.elements before :: around)) (writtenRest vs ++ rest) final
  | [], v, before, around, _, _, _, shallow, later => by
    refine .mark rfl rfl rfl ?_
    rw [polled_close (by omega),List.reverse_cons]
    exact later
  | w :: more, v, before, around, rest, writable, legible, shallow, later => by
    obtain ⟨first,others⟩ := writable
    simp only [depthOfAll] at shallow
    rw [writtenRest_cons]
    refine .mark rfl rfl rfl ?_
    refine Completes.value w _ _ first (fun f member => legible f (List.mem_append_left _ member))
      (by simp only [List.length_cons]; omega) (writtenRest_stops more) ?_
    exact Completes.elements more w (v :: before) around rest others
      (fun f member => legible f (List.mem_append_right _ member)) (by omega) (by simpa using later)

theorem Completes.members : (ms : Members) → (name : String) → (v : Json) → (before : Members) →
    (around : List Frame) → (rest : List Char) → MembersWritable ms → (∀ f ∈ doublesOfMembers ms, Legible f) →
    depthOfMembers ms + around.length + 1 ≤ 127 →
    Completes size (.after (.object (before.reverse ++ (name,v) :: ms)) around) rest final →
      Completes size (.after v (.members (before.map named) (some name) :: around))
        (writtenMembers ms ++ rest) final
  | [], name, v, before, around, _, _, _, shallow, later => by
    have all : ((some name,v) :: before.map named).reverse = (before.reverse ++ [(name,v)]).map named := by
      simp [named]
    refine .mark rfl rfl rfl ?_
    rw [polled_close (by omega),all,objectOf_named]
    exact later
  | (other,w) :: more, name, v, before, around, rest, writable, legible, shallow, later => by
    obtain ⟨first,others⟩ := writable
    simp only [depthOfMembers] at shallow
    rw [writtenMembers_cons]
    refine .mark rfl rfl rfl (.quoted rfl (.mark rfl rfl rfl ?_))
    refine Completes.value w _ _ first (fun f member => legible f (List.mem_append_left _ member))
      (by simp only [List.length_cons]; omega) (writtenMembers_stops more) ?_
    exact Completes.members more other w ((name,v) :: before) around rest others
      (fun f member => legible f (List.mem_append_right _ member)) (by omega) (by simpa using later)
end

theorem read_write (writable : Writable v) (legible : ∀ f ∈ doubles v, Legible f) (shallow : depth v ≤ 127) :
    Reading.polled.read? (write v) = some v := by
  have complete : Completes (byteLength (written v)) (.value []) (written v ++ []) v :=
    Completes.value v [] [] writable legible (by simpa using shallow) .nil ⟨[],.nil,rfl⟩
  rw [List.append_nil] at complete
  exact complete.read

end RunWatch.Json
