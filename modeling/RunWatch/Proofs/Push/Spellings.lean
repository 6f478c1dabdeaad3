import Mathlib.Data.List.Nodup
import Mathlib.Data.List.Perm.Basic
import Mathlib.Logic.Relation
import RunWatch.Proofs.Json.Spelt
import RunWatch.Push.Message
namespace RunWatch
open Json
namespace Json

theorem allUsable_iff (elements : List Json) : allUsable elements = true ↔ ∀ v ∈ elements, usable v = true := by
  induction elements with
  | nil => simp [allUsable]
  | cons v rest ih => simp [allUsable,ih]

theorem allMembersUsable_iff (members : Members) :
    allMembersUsable members = true ↔ ∀ m ∈ members, usable m.2 = true := by
  induction members with
  | nil => simp [allMembersUsable]
  | cons m rest ih => simp [allMembersUsable,ih]

theorem usable_object (members : Members) :
    usable (.object members) = true ↔ ∀ m ∈ members, usable m.2 = true :=
  allMembersUsable_iff members

def Field.values (f : Field) (members : List (String × α)) : List α :=
  (members.filter fun m => f.named m.1).map Prod.snd

theorem Field.values_documents (f : Field) (members : List (String × Spelt)) :
    f.values (Spelt.documents members) = (f.values members).map Spelt.value := by
  simp only [values,Spelt.documents,List.filter_map,List.map_map]
  rfl

theorem Field.slot_values (f : Field) (members : Members) :
    f.slot? members = match f.values members with
      | [] => if f.presence = .required then none else some none
      | [v] => some (some v)
      | _ => none := by
  unfold Field.slot? Field.values
  cases members.filter fun m => f.named m.1 with
  | nil => rfl
  | cons m rest => cases rest <;> rfl

theorem Field.slot_perm {f : Field} (same : (f.values before).Perm (f.values after)) :
    f.slot? before = f.slot? after := by
  rw [Field.slot_values,Field.slot_values]
  cases eq : f.values before with
  | nil =>
    rw [eq] at same
    rw [List.nil_perm.mp same]
  | cons v rest =>
    rw [eq] at same
    cases rest with
    | nil => rw [List.singleton_perm.mp same]
    | cons w more =>
      match found : f.values after, same.length_eq with
      | _ :: _ :: _, _ => rfl

theorem slots_congr {fields : List Field} {before after : Members}
    (same : ∀ f ∈ fields, f.slot? before = f.slot? after) :
    slots? fields (.object before) = slots? fields (.object after) := by
  unfold slots?
  induction fields with
  | nil => rfl
  | cons f rest ih =>
    have others := ih fun g member => same g (List.mem_cons_of_mem _ member)
    simp only [List.mapM_cons,same f List.mem_cons_self,others]

end Json

namespace Push
open Spelt (documents objectTokens arrayTokens)

def Topic.fields : Topic → List Field
  | .progress _ => Progress.fields
  | .pnl => Pnl.fields
  | .position => Position.fields
  | .unknown => []

def Topic.declares (topic : Topic) (name : String) : Bool :=
  name == "type" || topic.fields.any fun f => f.named name

inductive Respelled (topic : Topic) : List (String × Spelt) → List (String × Spelt) → Prop where
  | permuted : before.Perm after → Respelled topic before after
  | inserted (front back : List (String × Spelt)) : topic.declares name = false → usable v.value = true →
      v.Steady → Respelled topic (front ++ back) (front ++ (name,v) :: back)
  | aliased (front back : List (String × Spelt)) : f ∈ topic.fields → other ∈ f.aliases →
      Respelled topic (front ++ (f.name,v) :: back) (front ++ (other,v) :: back)
  | indexed (front back : List (String × Spelt)) (i : Nat) : Topic.known[i]? = some (word,topic) →
      v.value = .text word → w.value = .int i → w.Steady →
      Respelled topic (front ++ ("type",v) :: back) (front ++ ("type",w) :: back)

def Tagged (topic : Topic) (members : Members) : Prop :=
  ∃ tag, (members.filter fun m => m.1 == "type").map Prod.snd = [tag] ∧ Topic.ofTag? tag = some topic

theorem Topic.fields_apart (topic : Topic) : ∀ f ∈ topic.fields, f.named "type" = false ∧
    ∀ g ∈ topic.fields, ∀ other ∈ f.aliases, g.named other = g.named f.name := by
  rcases topic with ⟨_ | _⟩ | _ | _ | _ <;> decide

theorem Topic.alias_not_type (topic : Topic) :
    ∀ f ∈ topic.fields, f.name ≠ "type" ∧ ∀ other ∈ f.aliases, other ≠ "type" := by
  rcases topic with ⟨_ | _⟩ | _ | _ | _ <;> decide

theorem Topic.undeclared {topic : Topic} (undeclared : topic.declares name = false) :
    name ≠ "type" ∧ ∀ f ∈ topic.fields, f.named name = false := by
  simpa [declares] using undeclared

theorem Topic.index_tag {i : Nat} (place : Topic.known[i]? = some (word,topic)) :
    Topic.ofTag? (.int i) = some topic := by
  simp [ofTag?,place]

theorem Topic.tag_usable (named : Topic.ofTag? tag = some topic) : usable tag = true := by
  cases tag with
  | text | int => rfl
  | _ => cases named

def Topic.ofSlots? (topic : Topic) (slots : List (Option Json)) : Option Message :=
  match topic with
  | .progress kind => (Progress.ofSlots? slots).map (.progress kind)
  | .pnl => (Pnl.ofSlots? slots).map .pnl
  | .position => (Position.ofSlots? slots).map .position
  | .unknown => some .unknown

-- A message that is not known is one without fields.
theorem Topic.body_slots (topic : Topic) (body : Json) :
    topic.body? body = (slots? topic.fields body).bind topic.ofSlots? := by
  cases topic with
  | progress => exact Option.map_bind
  | pnl => exact Option.map_bind
  | position => exact Option.map_bind
  | unknown =>
    cases body with
    | array row => cases row <;> rfl
    | _ => rfl

theorem Topic.body_congr {topic : Topic} {before after : Members}
    (same : ∀ f ∈ topic.fields, f.slot? before = f.slot? after) :
    topic.body? (.object before) = topic.body? (.object after) := by
  rw [body_slots,body_slots,slots_congr same]

-- The type is nothing to the fields, so it need not be taken out for them.
theorem Tagged.ofDocument (tagged : Tagged topic members) :
    Message.ofDocument? (.object members) = topic.body? (.object members) := by
  obtain ⟨tag,only,named⟩ := tagged
  obtain ⟨⟨name,_⟩,single,rfl⟩ := List.map_eq_singleton_iff.mp only
  simp only [Message.ofDocument?,single,named,Option.bind_some]
  refine Topic.body_congr fun f member => Field.slot_perm ?_
  refine List.Perm.of_eq (congrArg (List.map Prod.snd) ?_)
  rw [List.filter_filter]
  refine List.filter_congr fun m _ => ?_
  by_cases type : m.1 = "type"
  · simp [type,(topic.fields_apart f member).1]
  · simp [type]

theorem swap_singleton {front back : List α} (only : front ++ v :: back = [w]) (u : α) :
    front ++ u :: back = [u] := by
  rcases List.append_eq_singleton_iff.mp only with ⟨rfl,tail⟩ | ⟨_,tail⟩
  · cases tail
    rfl
  · cases tail

theorem tagged_of_nodup (distinct : (members.map Prod.fst).Nodup) (given : ("type",tag) ∈ members)
    (named : Topic.ofTag? tag = some topic) : Tagged topic members := by
  refine ⟨tag,?_,named⟩
  induction members with
  | nil => cases given
  | cons m rest ih =>
    obtain ⟨fresh,distinct⟩ := List.nodup_cons.mp distinct
    rcases List.mem_cons.mp given with rfl | later
    · have none : rest.filter (fun m => m.1 == "type") = [] :=
        List.filter_eq_nil_iff.mpr fun m member => by
          simpa using fun same => fresh (List.mem_map.mpr ⟨m,member,same⟩)
      simp [none]
    · have other : m.1 ≠ "type" := fun same => fresh (List.mem_map.mpr ⟨_,later,same.symm⟩)
      simpa [other] using ih distinct later

namespace Respelled

variable {topic : Topic} {before after : List (String × Spelt)}

theorem values (change : Respelled topic before after) :
    ∀ f ∈ topic.fields, (f.values before).Perm (f.values after) := by
  intro f member
  cases change with
  | permuted perm => exact (perm.filter _).map _
  | inserted _ _ undeclared =>
    have passed := (Topic.undeclared undeclared).2 f member
    simp [Field.values,passed]
  | @aliased g other v front back mine given =>
    have same := (topic.fields_apart g mine).2 f member other given
    simp only [Field.values,List.filter_append,List.filter_cons,same]
    cases f.named g.name <;> simp
  | indexed => simp [Field.values,(topic.fields_apart f member).1]

theorem tagged (change : Respelled topic before after) (tagged : Tagged topic (documents before)) :
    Tagged topic (documents after) := by
  obtain ⟨tag,only,named⟩ := tagged
  cases change with
  | permuted perm =>
    refine ⟨tag,?_,named⟩
    exact List.perm_singleton.mp (only ▸ (((perm.map _).filter _).map Prod.snd).symm)
  | inserted _ _ undeclared =>
    refine ⟨tag,?_,named⟩
    simpa [documents,(Topic.undeclared undeclared).1] using only
  | @aliased f other _ _ _ mine given =>
    obtain ⟨name,others⟩ := topic.alias_not_type f mine
    refine ⟨tag,?_,named⟩
    simpa [documents,name,others other given] using only
  | indexed front back i place _ read =>
    refine ⟨.int i,?_,Topic.index_tag place⟩
    simp only [documents,List.map_append,List.map_cons,List.filter_append,List.filter_cons,beq_self_eq_true,if_true,
      read] at only ⊢
    exact swap_singleton only _

theorem usable (change : Respelled topic before after) :
    usable (.object (documents before)) = usable (.object (documents after)) := by
  rw [Bool.eq_iff_iff,usable_object,usable_object]
  cases change with
  | permuted perm => simp only [documents,List.mem_map,perm.mem_iff]
  | inserted _ _ _ usable => simp [documents,or_imp,forall_and,usable]
  | aliased => simp [documents,or_imp,forall_and]
  | indexed _ _ _ _ one other => simp [documents,or_imp,forall_and,one,other,Json.usable]

theorem steady (change : Respelled topic before after) (steady : ∀ m ∈ before, m.2.Steady) :
    ∀ m ∈ after, m.2.Steady := by
  cases change with
  | permuted perm => exact fun m member => steady m (perm.mem_iff.mpr member)
  | inserted _ _ _ _ mine =>
    simp only [List.forall_mem_append,List.forall_mem_cons] at steady ⊢
    exact ⟨steady.1,mine,steady.2⟩
  | aliased =>
    simp only [List.forall_mem_append,List.forall_mem_cons] at steady ⊢
    exact steady
  | indexed _ _ _ _ _ _ mine =>
    simp only [List.forall_mem_append,List.forall_mem_cons] at steady ⊢
    exact ⟨steady.1,mine,steady.2.2⟩

end Respelled

theorem respelled_alike (changes : Relation.ReflTransGen (Respelled topic) before after)
    (steady : ∀ m ∈ before, m.2.Steady) (tagged : Tagged topic (documents before)) :
    (∀ m ∈ after, m.2.Steady) ∧ Tagged topic (documents after) ∧
      usable (.object (documents before)) = usable (.object (documents after)) ∧
      Message.ofDocument? (.object (documents before)) = Message.ofDocument? (.object (documents after)) := by
  induction changes with
  | refl => exact ⟨steady,tagged,rfl,rfl⟩
  | @tail middle after _ change ih =>
    obtain ⟨steady,tagged,usable,same⟩ := ih
    have fields (f) (member : f ∈ topic.fields) : f.slot? (documents middle) = f.slot? (documents after) := by
      apply Field.slot_perm
      rw [f.values_documents,f.values_documents]
      exact (change.values f member).map Spelt.value
    refine ⟨change.steady steady,change.tagged tagged,usable.trans change.usable,same.trans ?_⟩
    rw [tagged.ofDocument,(change.tagged tagged).ofDocument,Topic.body_congr fields]

def Topic.row (topic : Topic) (null : α) (members : List (String × α)) : List α :=
  topic.fields.map fun f => (f.values members).head?.getD null

theorem Topic.row_documents (topic : Topic) (members : List (String × Spelt)) :
    (topic.row Spelt.null members).map Spelt.value = topic.row .null (documents members) := by
  rw [row,row,List.map_map]
  refine List.map_congr_left fun f _ => ?_
  rw [f.values_documents,List.head?_map,Function.comp_apply]
  cases (f.values members).head? <;> rfl

theorem Topic.row_steady (topic : Topic) {members : List (String × Spelt)} (steady : ∀ m ∈ members, m.2.Steady) :
    ∀ v ∈ topic.row Spelt.null members, v.Steady := by
  intro v member
  obtain ⟨f,_,rfl⟩ := List.mem_map.mp member
  cases first : (f.values members).head? with
  | none => exact fun t only => by cases List.mem_singleton.mp only; trivial
  | some v =>
    obtain ⟨m,given,rfl⟩ := List.mem_map.mp (List.mem_of_mem_head? first)
    exact steady m (List.mem_of_mem_filter given)

theorem slot_given {f : Field} (given : f.slot? members = some slot) :
    (f.values members).head?.getD .null = slot.getD .null := by
  rw [Field.slot_values] at given
  split at given
  · rename_i none
    split at given
    · cases given
    · cases given
      rw [none]
      rfl
  · rename_i one
    cases given
    rw [one]
    rfl
  · cases given

theorem row_slots {fields : List Field} (given : slots? fields (.object members) = some slots) :
    slots? fields (.array (fields.map fun f => (f.values members).head?.getD .null)) =
      some (slots.map fun slot => some (slot.getD .null)) := by
  unfold slots? at given ⊢
  induction fields generalizing slots with
  | nil =>
    cases given
    rfl
  | cons f rest ih =>
    simp only [List.mapM_cons,Option.bind_eq_bind,Option.bind_eq_some_iff,Option.pure_def,
      Option.some.injEq] at given
    obtain ⟨slot,here,more,there,rfl⟩ := given
    simp only [List.map_cons,rowSlots?,ih there,slot_given here,Option.map_some]

theorem given_filled [Coded α] {slot : Option Json} (given : given? slot = some (a : α)) :
    given? (some (slot.getD .null)) = some a := by
  cases slot with
  | none => cases given
  | some v => exact given

theorem givenOr_filled [Coded α] {slot : Option Json} (given : givenOr? none slot = some (a : Option α)) :
    givenOr? none (some (slot.getD .null)) = some a := by
  cases slot with
  | none => exact given
  | some v => exact given

theorem Progress.slots_filled (given : Progress.ofSlots? slots = some p) :
    Progress.ofSlots? (slots.map fun slot => some (slot.getD .null)) = some p := by
  unfold ofSlots? at given
  split at given
  · simp only [Option.bind_eq_bind,Option.bind_eq_some_iff,Option.pure_def,Option.some.injEq] at given
    obtain ⟨_,one,_,two,_,three,_,four,_,five,_,six,rfl⟩ := given
    simp [ofSlots?,given_filled one,given_filled two,given_filled three,given_filled four,given_filled five,
      givenOr_filled six]
  · cases given

theorem Pnl.slots_filled (given : Pnl.ofSlots? slots = some p) :
    Pnl.ofSlots? (slots.map fun slot => some (slot.getD .null)) = some p := by
  unfold ofSlots? at given
  split at given
  · simp only [Option.bind_eq_bind,Option.bind_eq_some_iff,Option.pure_def,Option.some.injEq] at given
    obtain ⟨_,one,_,two,_,three,rfl⟩ := given
    simp [ofSlots?,givenOr_filled one,givenOr_filled two,givenOr_filled three]
  · cases given

theorem Position.slots_filled (given : Position.ofSlots? slots = some p) :
    Position.ofSlots? (slots.map fun slot => some (slot.getD .null)) = some p := by
  unfold ofSlots? at given
  split at given
  · simp only [Option.bind_eq_bind,Option.bind_eq_some_iff,Option.pure_def,Option.some.injEq] at given
    obtain ⟨_,one,rfl⟩ := given
    simp [ofSlots?,given_filled one]
  · cases given

theorem Topic.slots_filled {topic : Topic} (given : topic.ofSlots? slots = some m) :
    topic.ofSlots? (slots.map fun slot => some (slot.getD .null)) = some m := by
  cases topic with
  | progress =>
    obtain ⟨p,read,rfl⟩ := Option.map_eq_some_iff.mp given
    exact Option.map_eq_some_iff.mpr ⟨p,Progress.slots_filled read,rfl⟩
  | pnl =>
    obtain ⟨p,read,rfl⟩ := Option.map_eq_some_iff.mp given
    exact Option.map_eq_some_iff.mpr ⟨p,Pnl.slots_filled read,rfl⟩
  | position =>
    obtain ⟨p,read,rfl⟩ := Option.map_eq_some_iff.mp given
    exact Option.map_eq_some_iff.mpr ⟨p,Position.slots_filled read,rfl⟩
  | unknown => exact given

theorem Topic.row_body (topic : Topic) (accepted : topic.body? (.object members) = some m) :
    topic.body? (.array (topic.row .null members)) = some m := by
  rw [body_slots] at accepted ⊢
  obtain ⟨slots,found,given⟩ := Option.bind_eq_some_iff.mp accepted
  rw [row,row_slots found]
  exact slots_filled given

theorem repeated_length (named : String → Bool) {members : Members} (one : named first = true)
    (two : named second = true) (both : [first,second].Sublist (members.map Prod.fst)) :
    2 ≤ (members.filter fun m => named m.1).length := by
  have counted : [first,second].countP named ≤ (members.map Prod.fst).countP named := both.countP_le
  rw [List.countP_map] at counted
  rw [← List.countP_eq_length_filter]
  simpa [one,two,Function.comp_def] using counted

theorem slot_repeated {f : Field} (one : f.named first = true) (two : f.named second = true)
    (both : [first,second].Sublist (members.map Prod.fst)) : f.slot? members = none := by
  have many := repeated_length f.named one two both
  unfold Field.slot?
  revert many
  cases members.filter fun m => f.named m.1 with
  | nil => nofun
  | cons _ rest =>
    cases rest with
    | nil => simp
    | cons => exact fun _ => rfl

theorem slots_missing {fields : List Field} (member : f ∈ fields) (missing : f.slot? members = none) :
    slots? fields (.object members) = none := by
  change fields.mapM (Field.slot? · members) = none
  induction fields with
  | nil => cases member
  | cons g rest ih =>
    rw [List.mapM_cons]
    rcases List.mem_cons.mp member with rfl | later
    · rw [missing]
      rfl
    · rw [ih later]
      cases g.slot? members <;> rfl

theorem Topic.body_missing {topic : Topic} (member : f ∈ topic.fields) (missing : f.slot? members = none) :
    topic.body? (.object members) = none := by
  rw [body_slots,slots_missing member missing]
  rfl

theorem ofDocument_single (accepted : Message.ofDocument? (.object members) = some m) :
    ∃ only, (members.filter fun m => m.1 == "type") = [only] := by
  simp only [Message.ofDocument?] at accepted
  split at accepted
  · rename_i single
    exact ⟨_,single⟩
  · cases accepted

theorem tagged_of_document (accepted : Message.ofDocument? (.object members) = some m)
    (given : ("type",tag) ∈ members) (named : Topic.ofTag? tag = some topic) : Tagged topic members := by
  obtain ⟨only,single⟩ := ofDocument_single accepted
  have here : ("type",tag) ∈ members.filter fun m => m.1 == "type" := List.mem_filter.mpr ⟨given,rfl⟩
  rw [single] at here
  cases List.mem_singleton.mp here
  exact ⟨tag,by rw [single,List.map_singleton],named⟩

theorem document_repeated {topic : Topic} (given : ("type",tag) ∈ members)
    (named : Topic.ofTag? tag = some topic) (member : f ∈ topic.fields) (one : f.named first = true)
    (two : f.named second = true) (both : [first,second].Sublist (members.map Prod.fst)) :
    Message.ofDocument? (.object members) = none := by
  refine Option.eq_none_iff_forall_ne_some.mpr fun m accepted => ?_
  rw [(tagged_of_document accepted given named).ofDocument,
    Topic.body_missing member (slot_repeated one two both)] at accepted
  cases accepted

theorem document_retyped (both : ["type","type"].Sublist (members.map Prod.fst)) :
    Message.ofDocument? (.object members) = none := by
  refine Option.eq_none_iff_forall_ne_some.mpr fun m accepted => ?_
  obtain ⟨only,single⟩ := ofDocument_single accepted
  have many := repeated_length (· == "type") rfl rfl both
  rw [single] at many
  exact absurd many (by simp)

theorem Message.read_spelled (spells : Reading.pushed.Spells payload document) :
    Message.read payload = Message.ofPayload (if usable document then some document else none) := by
  rw [Message.read,spells.readBytes]
  cases usable document <;> rfl

theorem Topic.row_usable (topic : Topic) (known : usable (.object members) = true)
    (named : Topic.ofTag? tag = some topic) :
    usable (.array (tag :: topic.row .null members)) = true := by
  refine (allUsable_iff _).mpr fun v member => ?_
  rcases List.mem_cons.mp member with rfl | later
  · exact tag_usable named
  · obtain ⟨f,_,rfl⟩ := List.mem_map.mp later
    cases eq : (f.values members).head? with
    | none => rfl
    | some v =>
      obtain ⟨m,given,rfl⟩ := List.mem_map.mp (List.mem_of_mem_head? eq)
      exact (usable_object members).mp known m (List.mem_of_mem_filter given)

theorem Message.read_ok (spells : Reading.pushed.Spells payload document) :
    Message.read payload = .ok m ↔
      usable document = true ∧ ∃ found, Message.ofDocument? document = some found ∧ found.checked = .ok m := by
  rw [read_spelled spells]
  unfold ofPayload
  cases usable document with
  | false => simp
  | true =>
    simp only [if_true,Option.bind_some,true_and]
    cases Message.ofDocument? document <;> simp

theorem Message.refused (none : Message.ofDocument? document = none)
    (spells : Reading.pushed.Spells payload document) :
    Message.read payload = .error (.payload .unreadable) := by
  rw [read_spelled spells]
  unfold ofPayload
  cases usable document
  · rfl
  · simp only [if_true,Option.bind_some,none]

-- A payload laid out as an object of these members, a message of a known topic. None of its
-- numbers depends on its place.
structure LaidOut (topic : Topic) (spelled : List (String × Spelt)) (payload : ByteArray) : Prop where
  text : TextOf (objectTokens spelled) payload
  steady : ∀ m ∈ spelled, m.2.Steady
  distinct : (spelled.map Prod.fst).Nodup
  typed : ∃ tag, ("type",tag) ∈ documents spelled ∧ Topic.ofTag? tag = some topic
  known : topic ≠ .unknown

-- Of no account to the reader of a message are the order of its members, members that no one
-- asks for, which of its names a field has, and whether the type is a word or its place.
structure SpelledAlike (payload : ByteArray) (members : Members) : Prop where
  laidOut : ∀ topic tag, SteadyText payload → (members.map Prod.fst).Nodup → ("type",tag) ∈ members →
    Topic.ofTag? tag = some topic → topic ≠ .unknown → ∃ spelled, documents spelled = members ∧
      LaidOut topic spelled payload
  respelled : ∀ topic spelled changed other, LaidOut topic spelled payload →
    Relation.ReflTransGen (Respelled topic) spelled changed → TextOf (objectTokens changed) other →
      (Message.read other).toOption = (Message.read payload).toOption
  asRow : ∀ topic spelled word row m, LaidOut topic spelled payload → Message.read payload = .ok m →
    Topic.ofTag? word.value = some topic → word.Steady →
      TextOf (arrayTokens (word :: topic.row .null spelled)) row → Message.read row = .ok m
  repeated : ∀ topic tag, ("type",tag) ∈ members → Topic.ofTag? tag = some topic →
    ∀ f ∈ topic.fields, ∀ first second, f.named first = true → f.named second = true →
      [first,second].Sublist (members.map Prod.fst) → (Message.read payload).toOption = none
  retyped : ["type","type"].Sublist (members.map Prod.fst) → (Message.read payload).toOption = none
  unknown : ∀ word, (members.map Prod.fst).Nodup → ("type",.text word) ∈ members →
    Topic.known.lookup word = none → usable (.object members) = true → Message.read payload = .ok .unknown

theorem LaidOut.tagged (laidOut : LaidOut topic spelled payload) : Tagged topic (documents spelled) := by
  obtain ⟨tag,given,named⟩ := laidOut.typed
  refine tagged_of_nodup ?_ given named
  rw [documents,List.map_map]
  exact laidOut.distinct

theorem LaidOut.spells (laidOut : LaidOut topic spelled payload) :
    Reading.pushed.Spells payload (.object (documents spelled)) :=
  Spelt.object_spells laidOut.text laidOut.steady

theorem balance_read (finite : size.isFinite = true) (whole : (members.filter fun m => m.1 == "type") =
      [("type",.text "pnl_update")])
    (given : slots? Pnl.fields (.object members) = some [some (.float size),none,some (.text session)])
    (known : usable (.object members) = true) (spells : Reading.pushed.Spells payload (.object members)) :
    Message.read payload = .ok (.pnl ⟨some size,none,some session⟩) := by
  have tagged : Tagged .pnl members := ⟨.text "pnl_update",by rw [whole]; rfl,rfl⟩
  have decoded : decode? (.float size) = some (some size) := by
    change (finite? size).map some = _
    rw [finite?,if_pos finite]
    rfl
  have read : Pnl.ofSlots? [some (.float size),none,some (.text session)] = some ⟨some size,none,some session⟩ := by
    simp only [Pnl.ofSlots?,givenOr?,decoded]
    rfl
  refine (Message.read_ok spells).mpr ⟨known,.pnl ⟨some size,none,some session⟩,?_,?_⟩
  · rw [tagged.ofDocument,Topic.body_slots,show Topic.fields .pnl = Pnl.fields from rfl,given,Option.bind_some,
      Topic.ofSlots?,read]
    rfl
  · simp [Message.checked,Message.fault?,Pnl.fault?,finite]

end Push
end RunWatch
