import RunWatch.Proofs.Json.Roundtrip
namespace RunWatch.Json

theorem depthOfAll_le : depthOfAll vs ≤ n ↔ ∀ v ∈ vs, depth v ≤ n := by
  induction vs with
  | nil => simp [depthOfAll]
  | cons v rest ih => rw [depthOfAll,Nat.max_le,ih,List.forall_mem_cons]

theorem depthOfMembers_le {members : Members} : depthOfMembers members ≤ n ↔ ∀ m ∈ members, depth m.2 ≤ n := by
  induction members with
  | nil => simp [depthOfMembers]
  | cons m rest ih => rw [depthOfMembers,Nat.max_le,ih,List.forall_mem_cons]

theorem allWritable_iff : AllWritable vs ↔ ∀ v ∈ vs, Writable v := by
  induction vs with
  | nil => simp [AllWritable]
  | cons v rest ih => simp [AllWritable,ih]

theorem membersWritable_iff {members : Members} : MembersWritable members ↔ ∀ m ∈ members, Writable m.2 := by
  induction members with
  | nil => simp [MembersWritable]
  | cons m rest ih => simp [MembersWritable,ih]

theorem membersOf_values : {done : List (Option String × Json)} → membersOf? done = some members →
    members.map Prod.snd = done.map Prod.snd
  | [], found => by
    cases found
    rfl
  | (name,v) :: rest, found => by
    simp only [membersOf?,Option.bind_eq_bind,Option.bind_eq_some_iff,Option.pure_def,
      Option.some.injEq] at found
    obtain ⟨name,rfl,more,found,rfl⟩ := found
    simp [membersOf_values found]

-- What a container holds has to leave room for the containers around it.
def Frame.Within (limit : Nat) : Frame → Prop
  | .elements done => ∀ v ∈ done, depth v ≤ limit
  | .members done _ => ∀ m ∈ done, depth m.2 ≤ limit

def FramesWithin (limit : Nat) : List Frame → Prop
  | [] => True
  | f :: around => f.Within (limit - (around.length + 1)) ∧ FramesWithin limit around

def Place.Within (limit : Nat) : Place → Prop
  | .value around | .firstElement around | .firstName around => FramesWithin limit around
  | .name done around | .colon done _ around =>
    (∀ m ∈ done, depth m.2 ≤ limit - (around.length + 1)) ∧ FramesWithin limit around
  | .after v around => depth v ≤ limit - around.length ∧ FramesWithin limit around

variable {r : Reading} {limit : Nat}

theorem close_within (limited : r.depth = some limit) (held : depth v ≤ limit - (around.length + 1) + 1)
    (within : FramesWithin limit around) : (r.close v around).Within limit := by
  refine ⟨?_,within⟩
  split
  · rename_i fits
    simp only [Reading.fits,limited,decide_eq_true_eq] at fits
    omega
  · exact Nat.zero_le _

theorem number_depth (n : Literal) : depth (r.number n) = 0 := by
  have double : depth (r.double n) = 0 := by
    unfold Reading.double
    generalize (if r.hasty then n.rough else n.exact) = size
    dsimp only
    split <;> rfl
  unfold Reading.number
  split
  · exact double
  split
  · split <;> rfl
  split
  · rfl
  split
  · exact double
  · rfl

theorem scalar_depth (found : r.scalar? t = some v) : depth v = 0 := by
  cases t with
  | number n =>
    cases found
    exact number_depth n
  | text s => cases s <;> cases found <;> rfl
  | _ => cases found <;> rfl

theorem accept_within (within : FramesWithin limit around) (moved : r.accept t around = some next) :
    next.Within limit := by
  unfold Reading.accept at moved
  split at moved
  · cases moved
    exact within
  · cases moved
    exact within
  · obtain ⟨v,found,rfl⟩ := Option.map_eq_some_iff.mp moved
    exact ⟨by rw [scalar_depth found]; exact Nat.zero_le _,within⟩

theorem objectOf_depth {done : List (Option String × Json)} (held : ∀ m ∈ done, depth m.2 ≤ n) :
    depth (objectOf done) ≤ n + 1 := by
  unfold objectOf
  cases found : membersOf? done with
  | none => exact Nat.zero_le _
  | some members =>
    refine Nat.succ_le_succ (depthOfMembers_le.mpr fun m member => ?_)
    have there : m.2 ∈ done.map Prod.snd := membersOf_values found ▸ List.mem_map_of_mem member
    obtain ⟨given,member,same⟩ := List.mem_map.mp there
    exact same ▸ held given member

theorem elements_within (last : depth v ≤ n) (held : (Frame.elements done).Within n) :
    ∀ w ∈ v :: done, depth w ≤ n :=
  List.forall_mem_cons.mpr ⟨last,held⟩

theorem members_within (last : depth v ≤ n) (held : (Frame.members done name).Within n) :
    ∀ m ∈ (name,v) :: done, depth m.2 ≤ n :=
  List.forall_mem_cons.mpr ⟨last,held⟩

theorem step_within (limited : r.depth = some limit) {place : Place} (within : place.Within limit)
    (moved : r.step place t = some next) : next.Within limit := by
  unfold Reading.step at moved
  split at moved
  · exact accept_within within moved
  · cases moved
    exact close_within limited (by simp [depth,depthOfAll]) within
  · exact accept_within (show FramesWithin limit (.elements [] :: _) from ⟨nofun,within⟩) moved
  · cases moved
    exact close_within limited (by simp [depth,depthOfMembers]) within
  · cases moved
    exact ⟨nofun,within⟩
  · cases moved
    exact within
  · cases moved
    exact within
  · cases moved
    obtain ⟨last,held,around⟩ := within
    exact ⟨elements_within last held,around⟩
  · cases moved
    obtain ⟨last,held,around⟩ := within
    refine close_within limited (Nat.succ_le_succ (depthOfAll_le.mpr fun v member => ?_)) around
    exact elements_within last held v (List.mem_reverse.mp member)
  · cases moved
    obtain ⟨last,held,around⟩ := within
    exact ⟨members_within last held,around⟩
  · cases moved
    obtain ⟨last,held,around⟩ := within
    refine close_within limited (objectOf_depth fun m member => ?_) around
    exact members_within last held m (List.mem_reverse.mp member)
  · cases moved

theorem walk_within (limited : r.depth = some limit) {place : Place} (within : place.Within limit)
    (walked : r.walk place ts = some final) : final.Within limit := by
  induction ts generalizing place with
  | nil =>
    cases walked
    exact within
  | cons t rest ih =>
    obtain ⟨next,moved,walked⟩ := Option.bind_eq_some_iff.mp walked
    exact ih (step_within limited within moved) walked

theorem read_depth (limited : r.depth = some limit) {text : String} (read : r.read? text = some v) :
    depth v ≤ limit := by
  obtain ⟨ts,_,found⟩ := Option.bind_eq_some_iff.mp read
  unfold Reading.document? at found
  split at found
  · rename_i walked
    split at found
    · cases found
    · cases found
      have start : (Place.value []).Within limit := trivial
      exact (walk_within limited start walked).1
  · cases found

theorem put_depth {sofar : Members} :
    depthOfMembers (Members.put name v sofar) ≤ max (depth v) (depthOfMembers sofar) := by
  refine depthOfMembers_le.mpr fun m member => ?_
  rcases put_mem member with rfl | old
  · exact Nat.le_max_left ..
  · exact Nat.le_trans (depthOfMembers_le.mp (Nat.le_refl _) m old) (Nat.le_max_right ..)

theorem put_writable {sofar : Members} (writable : Writable v) (others : MembersWritable sofar) :
    MembersWritable (Members.put name v sofar) := by
  refine membersWritable_iff.mpr fun m member => ?_
  rcases put_mem member with rfl | old
  · exact writable
  · exact membersWritable_iff.mp others m old

mutual
theorem meaning_writable : (v : Json) → meaning? v = some w → Writable w ∧ depth w ≤ depth v
  | .null, h | .bool _, h | .text _, h => by
    cases h
    exact ⟨trivial,Nat.le_refl _⟩
  | .minusZero, h => by
    cases h
    exact ⟨rfl,Nat.le_refl _⟩
  | .int n, h | .float f, h => by
    simp only [meaning?] at h
    split at h
    · rename_i ok
      cases h
      exact ⟨ok,Nat.le_refl _⟩
    · cases h
  | .array elements, h => by
    obtain ⟨all,found,rfl⟩ := Option.map_eq_some_iff.mp h
    obtain ⟨writable,shallow⟩ := meaningOfAll_writable elements found
    exact ⟨writable,Nat.succ_le_succ shallow⟩
  | .object members, h => by
    obtain ⟨all,found,rfl⟩ := Option.map_eq_some_iff.mp h
    obtain ⟨writable,shallow⟩ := meaningOfMembers_writable members (show MembersWritable [] from trivial) found
    exact ⟨writable,Nat.succ_le_succ (by simpa [depthOfMembers] using shallow)⟩
  | .unusable, h => by cases h

theorem meaningOfAll_writable : (vs : List Json) → meaningOfAll? vs = some ws →
    AllWritable ws ∧ depthOfAll ws ≤ depthOfAll vs
  | [], h => by
    cases h
    exact ⟨trivial,Nat.le_refl _⟩
  | v :: rest, h => by
    simp only [meaningOfAll?,Option.bind_eq_some_iff,Option.map_eq_some_iff] at h
    obtain ⟨w,one,more,others,rfl⟩ := h
    obtain ⟨writable,shallow⟩ := meaning_writable v one
    obtain ⟨allWritable,allShallow⟩ := meaningOfAll_writable rest others
    exact ⟨⟨writable,allWritable⟩,by simp only [depthOfAll]; omega⟩

theorem meaningOfMembers_writable : (ms : Members) → {sofar all : Members} → MembersWritable sofar →
    meaningOfMembers? sofar ms = some all →
      MembersWritable all ∧ depthOfMembers all ≤ max (depthOfMembers sofar) (depthOfMembers ms)
  | [], _, _, writable, h => by
    cases h
    exact ⟨writable,Nat.le_max_left ..⟩
  | (name,v) :: rest, sofar, _, writable, h => by
    simp only [meaningOfMembers?,Option.bind_eq_some_iff] at h
    obtain ⟨w,one,more⟩ := h
    obtain ⟨value,shallow⟩ := meaning_writable v one
    obtain ⟨all,deepest⟩ := meaningOfMembers_writable rest (put_writable value writable) more
    have put : depthOfMembers (Members.put name w sofar) ≤ max (depth w) (depthOfMembers sofar) := put_depth
    exact ⟨all,by simp only [depthOfMembers]; omega⟩
end

end RunWatch.Json
