import RunWatch.Json.Basic
namespace RunWatch.Json

def intRange (n : Int) : Bool := Int64.minValue.toInt ≤ n && n < UInt64.size

def Members.put (name : String) (value : Json) : Members → Members
  | [] => [(name,value)]
  | (other,kept) :: rest =>
    if name < other then (name,value) :: (other,kept) :: rest
    else if name = other then (name,value) :: rest
    else (other,kept) :: Members.put name value rest

-- The value a document stands for: members in the order of their names, the last
-- of several with one name. A document with a part no value can be made of stands
-- for none.
mutual
def meaning? : Json → Option Json
  | .null => some .null
  | .bool b => some (.bool b)
  | .int n => if intRange n then some (.int n) else none
  | .minusZero => some (.int 0)
  | .float f => if f.isFinite then some (.float f) else none
  | .text s => some (.text s)
  | .array elements => (meaningOfAll? elements).map .array
  | .object members => (meaningOfMembers? [] members).map .object
  | .unusable => none

def meaningOfAll? : List Json → Option (List Json)
  | [] => some []
  | v :: rest => (meaning? v).bind fun v => (meaningOfAll? rest).map (v :: ·)

def meaningOfMembers? (sofar : Members) : Members → Option Members
  | [] => some sofar
  | (name,v) :: rest => (meaning? v).bind fun v => meaningOfMembers? (Members.put name v sofar) rest
end

def Settled (v : Json) : Prop := meaning? v = some v

def Members.Ordered (members : Members) : Prop :=
  members.Pairwise (fun a b => a.1 < b.1) ∧ ∀ m ∈ members, Settled m.2

theorem put_mem {member : String × Json} {members : Members}
    (present : member ∈ Members.put name value members) : member = (name,value) ∨ member ∈ members := by
  induction members with
  | nil => simpa [Members.put] using present
  | cons head rest ih =>
    obtain ⟨other,kept⟩ := head
    simp only [Members.put] at present
    split at present
    · simpa using present
    · split at present
      · rcases List.mem_cons.mp present with rfl | old
        · exact .inl rfl
        · exact .inr (List.mem_cons_of_mem _ old)
      · rcases List.mem_cons.mp present with rfl | old
        · exact .inr (List.mem_cons_self ..)
        · exact (ih old).imp id (List.mem_cons_of_mem _)

theorem put_ordered {members : Members} (ordered : members.Ordered) (settled : Settled value) :
    (Members.put name value members).Ordered := by
  refine ⟨?_,?_⟩
  · replace ordered := ordered.1
    induction members with
    | nil => simp [Members.put]
    | cons head rest ih =>
      obtain ⟨other,kept⟩ := head
      obtain ⟨first,others⟩ := List.pairwise_cons.mp ordered
      simp only [Members.put]
      split
      · rename_i before
        refine List.pairwise_cons.mpr ⟨?_,ordered⟩
        intro m present
        rcases List.mem_cons.mp present with rfl | old
        · exact before
        · exact String.lt_trans before (first m old)
      · split
        · rename_i same
          subst same
          exact List.pairwise_cons.mpr ⟨first,others⟩
        · rename_i notBefore different
          refine List.pairwise_cons.mpr ⟨?_,ih others⟩
          intro m present
          rcases put_mem present with rfl | old
          · exact Classical.byContradiction fun notAfter =>
              different (String.le_antisymm (String.not_lt.mp notAfter) (String.not_lt.mp notBefore))
          · exact first m old
  · intro m present
    rcases put_mem present with rfl | old
    · exact settled
    · exact ordered.2 m old

theorem put_last {members : Members} (above : ∀ m ∈ members, m.1 < name) :
    Members.put name value members = members ++ [(name,value)] := by
  induction members with
  | nil => rfl
  | cons head rest ih =>
    obtain ⟨other,kept⟩ := head
    have before : other < name := above _ (List.mem_cons_self ..)
    have notBefore : ¬ name < other := String.lt_asymm before
    have different : name ≠ other := fun same => String.lt_irrefl _ (same ▸ before)
    simp only [Members.put,notBefore,different,if_false,List.cons_append]
    rw [ih fun m present => above m (List.mem_cons_of_mem _ present)]

theorem meaningOfMembers_ordered {members sofar : Members} (ordered : (sofar ++ members).Ordered) :
    meaningOfMembers? sofar members = some (sofar ++ members) := by
  induction members generalizing sofar with
  | nil => simp [meaningOfMembers?]
  | cons head rest ih =>
    obtain ⟨name,v⟩ := head
    have settled : meaning? v = some v := ordered.2 (name,v) (by simp)
    have above : ∀ m ∈ sofar, m.1 < name := fun m present =>
      (List.pairwise_append.mp ordered.1).2.2 m present (name,v) (by simp)
    simp only [meaningOfMembers?,settled,Option.bind_some,put_last above]
    rw [ih (by simpa using ordered)]
    simp

mutual
theorem meaning_settled : (v : Json) → meaning? v = some w → Settled w
  | .null, h | .bool _, h | .text _, h => by
    simp only [meaning?,Option.some.injEq] at h; subst h; rfl
  | .minusZero, h => by
    simp only [meaning?,Option.some.injEq] at h; subst h; rfl
  | .int n, h | .float f, h => by
    simp only [meaning?] at h
    split at h
    · rename_i ok; cases h; simp [Settled,meaning?,ok]
    · cases h
  | .array elements, h => by
    obtain ⟨all,eq,rfl⟩ := Option.map_eq_some_iff.mp h
    have fixed := meaningOfAll_settled elements eq
    simp [Settled,meaning?,fixed]
  | .object members, h => by
    obtain ⟨all,eq,rfl⟩ := Option.map_eq_some_iff.mp h
    have ordered := meaningOfMembers_result members ⟨.nil,by simp⟩ eq
    have fixed : meaningOfMembers? [] all = some ([] ++ all) :=
      meaningOfMembers_ordered (by simpa using ordered)
    simp [Settled,meaning?,fixed]
  | .unusable, h => by simp [meaning?] at h

theorem meaningOfAll_settled : (vs : List Json) → meaningOfAll? vs = some ws →
    meaningOfAll? ws = some ws
  | [], h => by simp only [meaningOfAll?,Option.some.injEq] at h; subst h; rfl
  | v :: rest, h => by
    simp only [meaningOfAll?,Option.bind_eq_some_iff,Option.map_eq_some_iff] at h
    obtain ⟨w,eq,more,eqs,rfl⟩ := h
    have one : meaning? w = some w := meaning_settled v eq
    have others := meaningOfAll_settled rest eqs
    simp [meaningOfAll?,one,others]

theorem meaningOfMembers_result : (ms : Members) → {sofar all : Members} → sofar.Ordered →
    meaningOfMembers? sofar ms = some all → all.Ordered
  | [], _, _, ordered, h => by
    simp only [meaningOfMembers?,Option.some.injEq] at h; subst h; exact ordered
  | (name,v) :: rest, _, _, ordered, h => by
    simp only [meaningOfMembers?,Option.bind_eq_some_iff] at h
    obtain ⟨w,eq,more⟩ := h
    exact meaningOfMembers_result rest (put_ordered ordered (meaning_settled v eq)) more
end

end RunWatch.Json
