import RunWatch.Proofs.Json.Roundtrip
import RunWatch.Proofs.Json.Steady
namespace RunWatch.Json

theorem fromUTF8_toUTF8 (text : String) : String.fromUTF8? text.toUTF8 = some text := by
  unfold String.fromUTF8?
  rw [dif_pos (show text.toUTF8.IsValidUTF8 from text.isValidUTF8)]
  rfl

def Reading.Spells (r : Reading) (bytes : ByteArray) (document : Json) : Prop :=
  ∃ text tokens, String.fromUTF8? bytes = some text ∧ tokens? r.hasty text.toList = some tokens ∧
    r.walk (.value []) tokens = some (.after document [])

theorem Reading.Spells.readBytes {r : Reading} (spells : r.Spells bytes document) :
    r.readBytes? bytes = if r.strict && !usable document then none else some document := by
  obtain ⟨text,tokens,decoded,split,walked⟩ := spells
  simp only [Reading.readBytes?,Reading.read?,Reading.document?,decoded,split,walked,Option.bind_some]

theorem Reading.spells_toUTF8 {r : Reading} (tokens : List Token) (text : String)
    (split : tokens? r.hasty text.toList = some tokens)
    (walked : r.walk (.value []) tokens = some (.after document [])) : r.Spells text.toUTF8 document :=
  ⟨text,tokens,fromUTF8_toUTF8 text,split,walked⟩

theorem walk_append (r : Reading) (p : Place) (front back : List Token) :
    r.walk p (front ++ back) = (r.walk p front).bind (r.walk · back) := by
  induction front generalizing p with
  | nil => rfl
  | cons t rest ih =>
    rw [List.cons_append,Reading.walk,Reading.walk]
    cases r.step p t with
    | none => rfl
    | some q => exact ih q

-- The same place with further containers open around it.
def Place.inside (below : List Frame) : Place → Place
  | .value around => .value (around ++ below)
  | .firstElement around => .firstElement (around ++ below)
  | .firstName around => .firstName (around ++ below)
  | .name done around => .name done (around ++ below)
  | .colon done field around => .colon done field (around ++ below)
  | .after v around => .after v (around ++ below)

variable {r : Reading} {p q : Place} {below : List Frame}

theorem accept_inside (t : Token) (around : List Frame) :
    r.accept t (around ++ below) = (r.accept t around).map (Place.inside below) := by
  cases t with
  | text s => cases s <;> rfl
  | _ => rfl

theorem close_inside (unlimited : r.depth = none) (v : Json) (around : List Frame) :
    r.close v (around ++ below) = (r.close v around).inside below := by
  simp only [Reading.close,Reading.fits,unlimited,if_true,Place.inside]

theorem step_inside (unlimited : r.depth = none) (unfinished : ∀ v, p ≠ .after v []) (t : Token) :
    r.step (p.inside below) t = (r.step p t).map (Place.inside below) := by
  cases p with
  | value around => exact accept_inside t around
  | firstElement around =>
    cases t with
    | closeArray => exact congrArg some (close_inside unlimited _ around)
    | text s => exact accept_inside (.text s) (.elements [] :: around)
    | _ => rfl
  | firstName around =>
    cases t with
    | closeObject => exact congrArg some (close_inside unlimited _ around)
    | _ => rfl
  | name done around => cases t <;> rfl
  | colon done name around => cases t <;> rfl
  | after v around =>
    rcases around with _ | ⟨⟨done⟩ | ⟨done,name⟩,around⟩
    · exact absurd rfl (unfinished v)
    · cases t with
      | closeArray => exact congrArg some (close_inside unlimited _ around)
      | _ => rfl
    · cases t with
      | closeObject => exact congrArg some (close_inside unlimited _ around)
      | _ => rfl

theorem step_finished (r : Reading) (v : Json) (t : Token) : r.step (.after v []) t = none := by
  cases t <;> rfl

theorem walk_inside (unlimited : r.depth = none) (walked : r.walk p ts = some q) :
    r.walk (p.inside below) ts = some (q.inside below) := by
  induction ts generalizing p with
  | nil =>
    cases walked
    rfl
  | cons t rest ih =>
    obtain ⟨next,moved,walked⟩ := Option.bind_eq_some_iff.mp walked
    have unfinished : ∀ v, p ≠ .after v [] := by
      rintro v rfl
      cases (step_finished r v t).symm.trans moved
    rw [Reading.walk,step_inside unlimited unfinished,moved]
    exact ih walked

-- A walk out of a container first comes to the end of the value that it starts in.
theorem walk_split (unlimited : r.depth = none) (enclosed : below ≠ [])
    (walked : r.walk (p.inside below) ts = some (.after final [])) :
    ∃ v front back, ts = front ++ back ∧ r.walk p front = some (.after v []) ∧
      r.walk (.after v below) back = some (.after final []) := by
  induction ts generalizing p with
  | nil =>
    cases p with
    | after v around =>
      have out : around ++ below = [] := (Place.after.inj (Option.some.inj walked)).2
      exact absurd (List.append_eq_nil_iff.mp out).2 enclosed
    | _ => cases walked
  | cons t rest ih =>
    by_cases finished : ∃ v, p = .after v []
    · obtain ⟨v,rfl⟩ := finished
      exact ⟨v,[],t :: rest,rfl,rfl,walked⟩
    · rw [Reading.walk,step_inside unlimited (not_exists.mp finished)] at walked
      obtain ⟨next,moved,walked⟩ := Option.bind_eq_some_iff.mp walked
      obtain ⟨q,step,rfl⟩ := Option.map_eq_some_iff.mp moved
      obtain ⟨v,front,back,rfl,inner,outer⟩ := ih walked
      exact ⟨v,t :: front,back,rfl,by rw [Reading.walk,step]; exact inner,outer⟩

theorem walk_value (unlimited : r.depth = none) (enclosed : below ≠ [])
    (walked : r.walk (.value below) ts = some (.after final [])) :
    ∃ v front back, ts = front ++ back ∧ r.walk (.value []) front = some (.after v []) ∧
      r.walk (.after v below) back = some (.after final []) :=
  walk_split (p := .value []) unlimited enclosed walked

theorem walk_after (unlimited : r.depth = none) (spells : r.walk (.value []) front = some (.after v []))
    (below : List Frame) (back : List Token) :
    r.walk (.value below) (front ++ back) = r.walk (.after v below) back := by
  rw [walk_append,show r.walk (.value below) front = some (.after v below) from walk_inside unlimited spells]
  rfl

def Token.settled : Token → Token
  | .number n => .number n.settled
  | t => t

def Token.Steady : Token → Prop
  | .number n => n.Steady
  | _ => True

theorem Token.steady_settled (t : Token) : t.settled.Steady ↔ t.Steady := by
  cases t <;> exact Iff.rfl

-- A text of these tokens: their order is fixed, but neither the space between them, nor how a
-- number or a word is spelled, nor what the place of a number makes of it.
def TextOf (ts : List Token) (bytes : ByteArray) : Prop :=
  ∃ text tokens, String.fromUTF8? bytes = some text ∧ tokens? true text.toList = some tokens ∧
    tokens.map Token.settled = ts

theorem textOf_toUTF8 (tokens : List Token) (text : String) (split : tokens? true text.toList = some tokens)
    (settled : tokens.map Token.settled = ts) : TextOf ts text.toUTF8 :=
  ⟨text,tokens,fromUTF8_toUTF8 text,split,settled⟩

theorem step_settled (steady : ∀ n, t = .number n → Reading.pushed.number n.settled = Reading.pushed.number n)
    (p : Place) :
    Reading.pushed.step p t.settled = Reading.pushed.step p t := by
  cases t with
  | number n =>
    have same := steady n rfl
    have taken (around : List Frame) :
        Reading.pushed.accept (.number n.settled) around = Reading.pushed.accept (.number n) around := by
      simp only [Reading.accept,Reading.scalar?,same]
    cases p with
    | value around => exact taken around
    | firstElement around => exact taken (.elements [] :: around)
    | after v around => rcases around with _ | ⟨_ | _,around⟩ <;> rfl
    | _ => rfl
  | _ => rfl

theorem walk_settled (split : tokens? true cs = some tokens) (steady : ∀ t ∈ tokens, t.Steady) (p : Place) :
    Reading.pushed.walk p (tokens.map Token.settled) = Reading.pushed.walk p tokens := by
  have numbers : ∀ t ∈ tokens, ∀ n, t = .number n → Reading.pushed.number n.settled = Reading.pushed.number n := by
    rintro _ member n rfl
    obtain ⟨_,_,read⟩ := tokens_literal split member
    exact number_settled read (steady _ member)
  clear split steady
  induction tokens generalizing p with
  | nil => rfl
  | cons t rest ih =>
    rw [List.map_cons,Reading.walk,Reading.walk,step_settled (numbers t List.mem_cons_self)]
    refine congrArg _ (funext fun q => ih q fun s member => numbers s (List.mem_cons_of_mem t member))

theorem TextOf.spells (text : TextOf ts bytes) (steady : ∀ t ∈ ts, t.Steady)
    (walked : Reading.pushed.walk (.value []) ts = some (.after v [])) : Reading.pushed.Spells bytes v := by
  obtain ⟨text,tokens,decoded,split,rfl⟩ := text
  have each : ∀ t ∈ tokens, t.Steady := fun t member => t.steady_settled.mp (steady _ (List.mem_map_of_mem member))
  exact ⟨text,tokens,decoded,split,(walk_settled split each _).symm.trans walked⟩

def SteadyText (bytes : ByteArray) : Prop :=
  ∀ text tokens, String.fromUTF8? bytes = some text → tokens? true text.toList = some tokens → ∀ t ∈ tokens, t.Steady

theorem Reading.Spells.textOf (spells : Reading.pushed.Spells bytes v) (steady : SteadyText bytes) :
    ∃ ts, TextOf ts bytes ∧ (∀ t ∈ ts, t.Steady) ∧ Reading.pushed.walk (.value []) ts = some (.after v []) := by
  obtain ⟨text,tokens,decoded,split,walked⟩ := spells
  have each := steady text tokens decoded split
  refine ⟨tokens.map Token.settled,⟨text,tokens,decoded,split,rfl⟩,?_,(walk_settled split each _).trans walked⟩
  intro t member
  obtain ⟨s,within,rfl⟩ := List.mem_map.mp member
  exact s.steady_settled.mpr (each s within)

-- A value as it is spelled, with its numbers taken for what their digits say.
structure Spelt where
  tokens : List Token
  value : Json
  spells : Reading.pushed.walk (.value []) tokens = some (.after value [])

namespace Spelt

def null : Spelt := ⟨[.null],.null,rfl⟩

def documents (members : List (String × Spelt)) : Members := members.map fun m => (m.1,m.2.value)

def memberTokens (m : String × Spelt) : List Token := .text (some m.1) :: .colon :: m.2.tokens

def objectTokens : List (String × Spelt) → List Token
  | [] => [.openObject,.closeObject]
  | m :: rest => .openObject :: memberTokens m ++ (rest.flatMap (fun m => .comma :: memberTokens m) ++ [.closeObject])

def arrayTokens : List Spelt → List Token
  | [] => [.openArray,.closeArray]
  | v :: rest => .openArray :: v.tokens ++ (rest.flatMap (fun v => .comma :: v.tokens) ++ [.closeArray])

theorem walk_members (rest : List (String × Spelt)) (done : List (Option String × Json)) (name : Option String)
    (v : Json) :
    Reading.pushed.walk (.after v [.members done name])
        (rest.flatMap (fun m => .comma :: memberTokens m) ++ [.closeObject]) =
      some (.after (objectOf (((name,v) :: done).reverse ++ (documents rest).map named)) []) := by
  induction rest generalizing done name v with
  | nil =>
    rw [show (documents []).map named = [] from rfl,List.append_nil]
    rfl
  | cons m rest ih =>
    rw [List.flatMap_cons,List.append_assoc]
    change Reading.pushed.walk (.value [.members ((name,v) :: done) (some m.1)]) (m.2.tokens ++ _) = _
    rw [walk_after rfl m.2.spells,ih]
    simp [documents,named]

theorem walk_object (members : List (String × Spelt)) :
    Reading.pushed.walk (.value []) (objectTokens members) = some (.after (.object (documents members)) []) := by
  cases members with
  | nil => rfl
  | cons m rest =>
    change Reading.pushed.walk (.value [.members [] (some m.1)]) (m.2.tokens ++ _) = _
    rw [walk_after rfl m.2.spells,walk_members]
    exact congrArg (fun v => some (Place.after v [])) (objectOf_named (documents (m :: rest)))

theorem walk_elements (rest : List Spelt) (done : List Json) (v : Json) :
    Reading.pushed.walk (.after v [.elements done]) (rest.flatMap (fun v => .comma :: v.tokens) ++ [.closeArray]) =
      some (.after (.array ((v :: done).reverse ++ rest.map value)) []) := by
  induction rest generalizing done v with
  | nil =>
    rw [List.map_nil,List.append_nil]
    rfl
  | cons w rest ih =>
    rw [List.flatMap_cons,List.append_assoc]
    change Reading.pushed.walk (.value [.elements (v :: done)]) (w.tokens ++ _) = _
    rw [walk_after rfl w.spells,ih]
    simp

theorem walk_first (v : Spelt) (back : List Token) :
    Reading.pushed.walk (.firstElement []) (v.tokens ++ back) =
      Reading.pushed.walk (.value [.elements []]) (v.tokens ++ back) := by
  obtain ⟨tokens,value,spells⟩ := v
  cases tokens with
  | nil => cases spells
  | cons t rest =>
    cases t with
    | closeArray => cases spells
    | _ => rfl

theorem walk_array (elements : List Spelt) :
    Reading.pushed.walk (.value []) (arrayTokens elements) = some (.after (.array (elements.map value)) []) := by
  cases elements with
  | nil => rfl
  | cons v rest =>
    change Reading.pushed.walk (.firstElement []) (v.tokens ++ _) = _
    rw [walk_first,walk_after rfl v.spells,walk_elements]
    rfl

theorem walk_colon (walked : Reading.pushed.walk (.colon done name []) ts = some (.after final [])) :
    ∃ rest, ts = .colon :: rest ∧ Reading.pushed.walk (.value [.members done name]) rest = some (.after final []) := by
  cases ts with
  | nil => cases walked
  | cons t rest =>
    obtain ⟨next,moved,walked⟩ := Option.bind_eq_some_iff.mp walked
    cases t <;> cases moved
    exact ⟨rest,rfl,walked⟩

theorem walk_name (walked : Reading.pushed.walk (.name done []) ts = some (.after final [])) :
    ∃ name rest, ts = .text name :: .colon :: rest ∧
      Reading.pushed.walk (.value [.members done name]) rest = some (.after final []) := by
  cases ts with
  | nil => cases walked
  | cons t ts =>
    obtain ⟨next,moved,walked⟩ := Option.bind_eq_some_iff.mp walked
    cases t with
    | text name =>
      cases moved
      obtain ⟨rest,rfl,walked⟩ := walk_colon walked
      exact ⟨name,rest,rfl,walked⟩
    | _ => cases moved

theorem walk_done (walked : Reading.pushed.walk (.after v []) ts = some (.after final [])) : ts = [] ∧ v = final := by
  cases ts with
  | nil =>
    cases walked
    exact ⟨rfl,rfl⟩
  | cons t ts => cases t <;> cases walked

def restTokens (rest : List (Option String × Spelt)) : List Token :=
  rest.flatMap (fun m => .comma :: .text m.1 :: .colon :: m.2.tokens) ++ [.closeObject]

theorem rest_laid {ts : List Token}
    (walked : Reading.pushed.walk (.after v [.members done name]) ts = some (.after final [])) :
    ∃ rest, ts = restTokens rest ∧
      final = objectOf (((name,v) :: done).reverse ++ rest.map fun m => (m.1,m.2.value)) := by
  induction size : ts.length using Nat.strongRecOn generalizing ts v done name with
  | ind _ ih =>
    subst size
    cases ts with
    | nil => cases walked
    | cons t ts =>
      obtain ⟨next,moved,walked⟩ := Option.bind_eq_some_iff.mp walked
      cases t <;> cases moved
      · obtain ⟨rfl,rfl⟩ := walk_done walked
        exact ⟨[],rfl,by rw [List.map_nil,List.append_nil]; rfl⟩
      · obtain ⟨other,ts,rfl,walked⟩ := walk_name walked
        obtain ⟨w,front,back,rfl,spells,walked⟩ := walk_value rfl (List.cons_ne_nil _ _) walked
        have shorter : back.length < (Token.comma :: .text other :: .colon :: (front ++ back)).length := by
          simp only [List.length_cons,List.length_append]
          omega
        obtain ⟨rest,rfl,rfl⟩ := ih _ shorter walked rfl
        exact ⟨(other,⟨front,w,spells⟩) :: rest,by simp [restTokens],by simp⟩

theorem membersOf_named {done : List (Option String × Json)} (read : membersOf? done = some members) :
    done = members.map named := by
  induction done generalizing members with
  | nil =>
    cases read
    rfl
  | cons m done ih =>
    obtain ⟨name,given,read⟩ := Option.bind_eq_some_iff.mp read
    obtain ⟨others,more,built⟩ := Option.bind_eq_some_iff.mp read
    cases built
    obtain ⟨_,v⟩ := m
    cases given
    rw [ih more,List.map_cons]
    rfl

theorem objectOf_object {done : List (Option String × Json)} (read : objectOf done = .object members) :
    done = members.map named := by
  unfold objectOf at read
  cases found : membersOf? done with
  | none =>
    rw [found] at read
    cases read
  | some others =>
    rw [found] at read
    cases read
    exact membersOf_named found

theorem number_no_object (r : Reading) (n : Literal) : r.number n ≠ .object members := by
  unfold Reading.number Reading.double
  dsimp only
  repeat' split
  all_goals nofun

theorem array_ends {ts : List Token}
    (walked : Reading.pushed.walk (.after v [.elements done]) ts = some (.after final [])) :
    ∃ elements, final = .array elements := by
  induction size : ts.length using Nat.strongRecOn generalizing ts v done with
  | ind _ ih =>
    subst size
    cases ts with
    | nil => cases walked
    | cons t ts =>
      obtain ⟨next,moved,walked⟩ := Option.bind_eq_some_iff.mp walked
      cases t <;> cases moved
      · exact ⟨_,(walk_done walked).2.symm⟩
      · obtain ⟨w,front,back,rfl,_,walked⟩ := walk_value rfl (List.cons_ne_nil _ _) walked
        refine ih _ ?_ walked rfl
        simp only [List.length_cons,List.length_append]
        omega

theorem array_laid (walked : Reading.pushed.walk (.firstElement []) ts = some (.after final [])) :
    ∃ elements, final = .array elements := by
  cases ts with
  | nil => cases walked
  | cons t ts =>
    by_cases closed : t = .closeArray
    · subst closed
      exact ⟨[],(walk_done walked).2.symm⟩
    · have started : Reading.pushed.walk (.value [.elements []]) (t :: ts) = some (.after final []) := by
        cases t with
        | closeArray => exact absurd rfl closed
        | _ => exact walked
      obtain ⟨v,front,back,_,_,behind⟩ := walk_value rfl (List.cons_ne_nil _ _) started
      exact array_ends behind

theorem names_read {rest : List (Option String × Spelt)}
    (same : (rest.map fun m => (m.1,m.2.value)) = members.map named) :
    ∃ spelled, rest = spelled.map (fun m => (some m.1,m.2)) ∧ documents spelled = members := by
  induction rest generalizing members with
  | nil =>
    cases members with
    | nil => exact ⟨[],rfl,rfl⟩
    | cons => cases same
  | cons m rest ih =>
    cases members with
    | nil => cases same
    | cons n members =>
      obtain ⟨first,others⟩ := List.cons.inj same
      obtain ⟨spelled,rfl,rfl⟩ := ih others
      obtain ⟨name,v⟩ := m
      obtain ⟨rfl,read⟩ := Prod.mk.inj first
      refine ⟨(n.1,v) :: spelled,rfl,?_⟩
      rw [documents,List.map_cons,read]
      rfl

theorem members_laid (walked : Reading.pushed.walk (.firstName []) ts = some (.after (.object members) [])) :
    ∃ spelled, .openObject :: ts = objectTokens spelled ∧ documents spelled = members := by
  cases ts with
  | nil => cases walked
  | cons t ts =>
    obtain ⟨next,moved,walked⟩ := Option.bind_eq_some_iff.mp walked
    cases t with
    | closeObject =>
      cases moved
      obtain ⟨rfl,same⟩ := walk_done walked
      cases same
      exact ⟨[],rfl,rfl⟩
    | text name =>
      cases moved
      obtain ⟨ts,rfl,walked⟩ := walk_colon walked
      obtain ⟨v,front,back,rfl,spells,walked⟩ := walk_value rfl (List.cons_ne_nil _ _) walked
      obtain ⟨rest,rfl,same⟩ := rest_laid walked
      have whole : (((name,⟨front,v,spells⟩) :: rest).map fun m : Option String × Spelt => (m.1,m.2.value)) =
          members.map named := objectOf_object same.symm
      obtain ⟨spelled,split,read⟩ := names_read whole
      cases spelled with
      | nil => cases split
      | cons m spelled =>
        obtain ⟨first,rfl⟩ := List.cons.inj split
        obtain ⟨word,w⟩ := m
        obtain ⟨rfl,rfl⟩ := Prod.mk.inj first
        refine ⟨_,?_,read⟩
        simp [objectTokens,restTokens,memberTokens,List.flatMap_map]
    | _ => cases moved

theorem object_laid {ts : List Token}
    (walked : Reading.pushed.walk (.value []) ts = some (.after (.object members) [])) :
    ∃ spelled, ts = objectTokens spelled ∧ documents spelled = members := by
  cases ts with
  | nil => cases walked
  | cons t ts =>
    obtain ⟨next,moved,walked⟩ := Option.bind_eq_some_iff.mp walked
    cases t with
    | openObject =>
      cases moved
      exact members_laid walked
    | openArray =>
      cases moved
      obtain ⟨_,same⟩ := array_laid walked
      cases same
    | number n =>
      cases moved
      exact absurd (walk_done walked).2 (number_no_object _ n)
    | text s =>
      cases s <;> cases moved <;> cases (walk_done walked).2
    | null | bool =>
      cases moved
      cases (walk_done walked).2
    | _ => cases moved

def Steady (v : Spelt) : Prop := ∀ t ∈ v.tokens, t.Steady

theorem memberTokens_steady (m : String × Spelt) : (∀ t ∈ memberTokens m, t.Steady) ↔ m.2.Steady := by
  simp only [memberTokens,List.forall_mem_cons,Token.Steady,true_and,Spelt.Steady]

theorem objectTokens_steady {members : List (String × Spelt)} :
    (∀ t ∈ objectTokens members, t.Steady) ↔ ∀ m ∈ members, m.2.Steady := by
  cases members with
  | nil => simp [objectTokens,Token.Steady]
  | cons m rest =>
    have opens : Token.openObject.Steady := trivial
    have parts : Token.comma.Steady := trivial
    have closes : Token.closeObject.Steady := trivial
    simp only [objectTokens,List.cons_append,List.forall_mem_cons,List.forall_mem_append,List.forall_mem_flatMap,
      memberTokens_steady,opens,parts,closes,true_and,List.not_mem_nil,false_implies,implies_true,and_true]

theorem arrayTokens_steady {elements : List Spelt} :
    (∀ t ∈ arrayTokens elements, t.Steady) ↔ ∀ v ∈ elements, v.Steady := by
  cases elements with
  | nil => simp [arrayTokens,Token.Steady]
  | cons v rest =>
    have opens : Token.openArray.Steady := trivial
    have parts : Token.comma.Steady := trivial
    have closes : Token.closeArray.Steady := trivial
    simp only [arrayTokens,List.cons_append,List.forall_mem_cons,List.forall_mem_append,List.forall_mem_flatMap,
      Spelt.Steady,opens,parts,closes,true_and,List.not_mem_nil,false_implies,implies_true,and_true]

theorem object_spells {members : List (String × Spelt)} (text : TextOf (objectTokens members) bytes)
    (steady : ∀ m ∈ members, m.2.Steady) : Reading.pushed.Spells bytes (.object (documents members)) :=
  text.spells (objectTokens_steady.mpr steady) (walk_object members)

theorem array_spells {elements : List Spelt} (text : TextOf (arrayTokens elements) bytes)
    (steady : ∀ v ∈ elements, v.Steady) : Reading.pushed.Spells bytes (.array (elements.map value)) :=
  text.spells (arrayTokens_steady.mpr steady) (walk_array elements)

theorem spells_object (spells : Reading.pushed.Spells bytes (.object members)) (steady : SteadyText bytes) :
    ∃ spelled, documents spelled = members ∧ TextOf (objectTokens spelled) bytes ∧ ∀ m ∈ spelled, m.2.Steady := by
  obtain ⟨ts,text,each,walked⟩ := spells.textOf steady
  obtain ⟨spelled,rfl,read⟩ := object_laid walked
  exact ⟨spelled,read,text,objectTokens_steady.mp each⟩

end Spelt

end RunWatch.Json
