import Mathlib.Data.List.Forall2
import RunWatch.Json.Fields
import RunWatch.Proofs.Json.Nesting
namespace RunWatch.Json

-- Values that have a spelling of their own: their doubles are finite, and no document in
-- them is null, which is how a missing one is written.
class Plain (α : Type) where
  plain : α → Prop

export Plain (plain)

class Exchanged (α : Type) [Coded α] [Plain α] : Prop where
  decode_encode : ∀ {a : α}, plain a → decode? (encode a) = some a
  encode_writable : ∀ {a : α}, plain a → Writable (encode a)
  decode_plain : ∀ {v} {a : α}, decode? v = some a → plain a
  decode_depth : ∀ {v} {a : α}, decode? v = some a → depth (encode a) ≤ depth v

export Exchanged (decode_encode encode_writable decode_plain decode_depth)

instance : Plain String := ⟨fun _ => True⟩
instance : Plain Bool := ⟨fun _ => True⟩
instance : Plain Int64 := ⟨fun _ => True⟩
instance : Plain UInt32 := ⟨fun _ => True⟩
instance : Plain UInt64 := ⟨fun _ => True⟩
instance : Plain Float := ⟨fun f => f.isFinite = true⟩
instance : Plain Metrics := ⟨fun m => m.document ≠ .null⟩
instance [Plain α] : Plain (Option α) := ⟨fun o => ∀ a ∈ o, plain a⟩
instance [Plain α] : Plain (List α) := ⟨fun as => ∀ a ∈ as, plain a⟩

instance : Exchanged String where
  decode_encode _ := rfl
  encode_writable _ := trivial
  decode_plain _ := trivial
  decode_depth _ := Nat.zero_le _

instance : Exchanged Bool where
  decode_encode _ := rfl
  encode_writable _ := trivial
  decode_plain _ := trivial
  decode_depth _ := Nat.zero_le _

theorem within_int (low : a ≤ n) (high : n ≤ b) : within? a b (.int n) = some n := if_pos ⟨low,high⟩

theorem int_writable (low : Int64.minValue.toInt ≤ n) (high : n < UInt64.size) : Writable (.int n) := by
  simp only [Writable,intRange,Bool.and_eq_true,decide_eq_true_eq]
  exact ⟨low,high⟩

theorem count_writable {n : Nat} (bound : n < UInt64.size) : Writable (.int n) :=
  int_writable (Int.le_trans (by decide : Int64.minValue.toInt ≤ 0) (Int.natCast_nonneg n)) (Int.ofNat_lt.mpr bound)

instance : Exchanged Int64 where
  decode_encode {n} _ := by
    have read : within? Int64.minValue.toInt Int64.maxValue.toInt (.int n.toInt) = some n.toInt :=
      within_int n.le_toInt n.toInt_le
    simp only [decode?,encode,read,Option.map_some,Int64.ofInt_toInt]
  encode_writable {n} _ :=
    int_writable n.le_toInt (Int.lt_trans n.toInt_lt (by decide : (2 ^ 63 : Int) < UInt64.size))
  decode_plain _ := trivial
  decode_depth _ := Nat.zero_le _

instance : Exchanged UInt32 where
  decode_encode {n} _ := by
    have bound : n.toNat < UInt32.size := n.toNat_lt_size
    have read : within? 0 (UInt32.size - 1) (.int n.toNat) = some (n.toNat : Int) :=
      within_int (by omega) (by omega)
    simp only [decode?,encode,read,Option.map_some,Int.toNat_natCast,UInt32.ofNat_toNat]
  encode_writable {n} _ := count_writable (Nat.lt_trans n.toNat_lt_size (by decide))
  decode_plain _ := trivial
  decode_depth _ := Nat.zero_le _

instance : Exchanged UInt64 where
  decode_encode {n} _ := by
    have bound : n.toNat < UInt64.size := n.toNat_lt_size
    have read : within? 0 (UInt64.size - 1) (.int n.toNat) = some (n.toNat : Int) :=
      within_int (by omega) (by omega)
    simp only [decode?,encode,read,Option.map_some,Int.toNat_natCast,UInt64.ofNat_toNat]
  encode_writable {n} _ := count_writable n.toNat_lt_size
  decode_plain _ := trivial
  decode_depth _ := Nat.zero_le _

theorem finite_iff : finite? f = some g ↔ f.isFinite = true ∧ f = g := by
  unfold finite?
  split <;> simp_all

instance : Exchanged Float where
  decode_encode {f} finite := by
    have read : finite? f = some f := finite_iff.mpr ⟨finite,rfl⟩
    simp only [decode?,encode,if_pos (show f.isFinite = true from finite),read]
  encode_writable {f} finite := by
    simp only [encode,if_pos (show f.isFinite = true from finite)]
    exact finite
  decode_plain {v f} read := by
    cases v with
    | float g =>
      obtain ⟨finite,rfl⟩ := finite_iff.mp read
      exact finite
    | int n =>
      obtain ⟨finite,rfl⟩ := finite_iff.mp read
      exact finite
    | minusZero =>
      cases read
      rfl
    | _ => cases read
  decode_depth {v f} _ := by
    simp only [encode]
    split <;> exact Nat.zero_le _

theorem exchanged_words [Coded α] [Plain α] {words : List (String × α)} (plain : ∀ a : α, plain a)
    (written : ∀ a : α, ∃ name, encode a = .text name ∧ words.lookup name = some a)
    (read : ∀ v, (decode? v : Option α) = word? words v) : Exchanged α where
  decode_encode {a} _ := by
    obtain ⟨name,text,found⟩ := written a
    rw [text,read,word?,found]
  encode_writable {a} _ := by
    obtain ⟨name,text,_⟩ := written a
    rw [text]
    trivial
  decode_plain _ := plain _
  decode_depth {_ a} _ := by
    obtain ⟨name,text,_⟩ := written a
    rw [text]
    exact Nat.zero_le _

class NeverNull (α : Type) [Coded α] : Prop where
  decode_null : (decode? .null : Option α) = none

instance : NeverNull String := ⟨rfl⟩
instance : NeverNull Int64 := ⟨rfl⟩
instance : NeverNull UInt64 := ⟨rfl⟩
instance : NeverNull Float := ⟨rfl⟩

theorem decode_given [Coded α] (given : v ≠ .null) :
    (decode? v : Option (Option α)) = (decode? v).map some := by
  cases v with
  | null => exact absurd rfl given
  | _ => rfl

theorem encode_given [Coded α] [Plain α] [Exchanged α] [NeverNull α] {a : α} (plain : plain a) :
    encode a ≠ .null := by
  intro null
  have read := decode_encode plain
  rw [null,NeverNull.decode_null] at read
  cases read

instance [Coded α] [Plain α] [Exchanged α] [NeverNull α] : Exchanged (Option α) where
  decode_encode {o} plain := by
    cases o with
    | none => rfl
    | some a =>
      have given := plain a rfl
      rw [show encode (some a) = encode a from rfl,decode_given (encode_given given),decode_encode given]
      rfl
  encode_writable {o} plain := by
    cases o with
    | none => trivial
    | some a => exact show Writable (encode a) from encode_writable (plain a rfl)
  decode_plain {v o} read := by
    by_cases null : v = .null
    · subst null
      cases read
      nofun
    · rw [decode_given null] at read
      obtain ⟨a,inner,rfl⟩ := Option.map_eq_some_iff.mp read
      rintro _ ⟨⟩
      exact decode_plain inner
  decode_depth {v o} read := by
    by_cases null : v = .null
    · subst null
      cases read
      exact Nat.zero_le _
    · rw [decode_given null] at read
      obtain ⟨a,inner,rfl⟩ := Option.map_eq_some_iff.mp read
      exact show depth (encode a) ≤ depth v from decode_depth inner

theorem decode_metrics {m : Metrics} : decode? v = some m ↔ meaning? v = some m.document := by
  obtain ⟨document,settled⟩ := m
  simp only [decode?]
  split
  · rename_i meant found
    simp [found]
  · rename_i found
    simp [found]

theorem meaning_null (meant : meaning? v = some .null) : v = .null := by
  cases v with
  | null => rfl
  | int | float =>
    simp only [meaning?] at meant
    split at meant <;> cases meant
  | array | object =>
    obtain ⟨_,_,same⟩ := Option.map_eq_some_iff.mp meant
    cases same
  | _ => cases meant

instance : Exchanged (Option Metrics) where
  decode_encode {o} plain := by
    cases o with
    | none => rfl
    | some m =>
      have given : m.document ≠ .null := plain m rfl
      have read : decode? m.document = some m := decode_metrics.mpr m.settled
      rw [show encode (some m) = m.document from rfl,decode_given given,read]
      rfl
  encode_writable {o} _ := by
    cases o with
    | none => trivial
    | some m => exact (meaning_writable m.document m.settled).1
  decode_plain {v o} read := by
    by_cases null : v = .null
    · subst null
      cases read
      nofun
    · rw [decode_given null] at read
      obtain ⟨m,inner,rfl⟩ := Option.map_eq_some_iff.mp read
      rintro _ ⟨⟩ given
      exact null (meaning_null (given ▸ decode_metrics.mp inner))
  decode_depth {v o} read := by
    by_cases null : v = .null
    · subst null
      cases read
      exact Nat.zero_le _
    · rw [decode_given null] at read
      obtain ⟨m,inner,rfl⟩ := Option.map_eq_some_iff.mp read
      exact (meaning_writable v (decode_metrics.mp inner)).2

theorem decode_all [Coded α] [Plain α] [Exchanged α] : {as : List α} → plain as →
    (as.map encode).mapM decode? = some as
  | [], _ => rfl
  | a :: rest, plain => by
    have one := decode_encode (plain a List.mem_cons_self)
    have others := decode_all fun b member => plain b (List.mem_cons_of_mem _ member)
    simp [List.mapM_cons,one,others]

theorem decoded_all [Coded α] [Plain α] [Exchanged α] : {vs : List Json} → {as : List α} →
    vs.mapM decode? = some as → plain as ∧ depthOfAll (as.map encode) ≤ depthOfAll vs
  | [], _, read => by
    cases read
    exact ⟨nofun,Nat.le_refl _⟩
  | v :: rest, _, read => by
    simp only [List.mapM_cons,Option.bind_eq_bind,Option.bind_eq_some_iff,Option.pure_def,
      Option.some.injEq] at read
    obtain ⟨a,one,more,others,rfl⟩ := read
    obtain ⟨plain,shallow⟩ := decoded_all others
    have first := decode_depth one
    exact ⟨List.forall_mem_cons.mpr ⟨decode_plain one,plain⟩,by simp only [List.map_cons,depthOfAll]; omega⟩

instance [Coded α] [Plain α] [Exchanged α] : Exchanged (List α) where
  decode_encode plain := decode_all plain
  encode_writable {as} plain := by
    refine allWritable_iff.mpr fun v member => ?_
    obtain ⟨a,given,rfl⟩ := List.mem_map.mp member
    exact encode_writable (plain a given)
  decode_plain {v as} read := by
    cases v with
    | array vs => exact (decoded_all read).1
    | _ => cases read
  decode_depth {v as} read := by
    cases v with
    | array vs => exact Nat.succ_le_succ (decoded_all read).2
    | _ => cases read

inductive Part : Type 1 where
  | required {α : Type} [Coded α] [Plain α] [Exchanged α] (a : α)
  | optional {α : Type} [Coded α] [Plain (Option α)] [Exchanged (Option α)] (o : Option α)

namespace Part

def encode : Part → Json
  | required a => Json.encode a
  | optional o => Json.encode o

def Plain : Part → Prop
  | required a => plain a
  | optional o => plain o

def Reads (slot : Option Json) : Part → Prop
  | required a => given? slot = some a
  | optional o => givenOr? none slot = some o

theorem writable {p : Part} (plain : p.Plain) : Writable p.encode := by
  cases p <;> exact encode_writable plain

theorem reads_encode {p : Part} (plain : p.Plain) : p.Reads (some p.encode) := by
  cases p <;> exact decode_encode plain

theorem reads_given {p : Part} (reads : p.Reads slot) : p.Plain ∧ depth p.encode ≤ slot.elim 0 depth := by
  cases p with
  | required a =>
    cases slot with
    | none => cases reads
    | some v => exact ⟨decode_plain reads,decode_depth reads⟩
  | optional o =>
    cases slot with
    | none =>
      cases reads
      exact ⟨decode_plain (show decode? .null = some none from rfl),Nat.zero_le _⟩
    | some v => exact ⟨decode_plain reads,decode_depth reads⟩

end Part

theorem mapM_each {f : α → Option β} {P : β → Prop} (each : ∀ a b, f a = some b → P b) :
    {xs : List α} → {ys : List β} → xs.mapM f = some ys → ys.length = xs.length ∧ ∀ y ∈ ys, P y
  | [], _, found => by
    cases found
    exact ⟨rfl,nofun⟩
  | x :: xs, _, found => by
    simp only [List.mapM_cons,Option.bind_eq_bind,Option.bind_eq_some_iff,Option.pure_def,
      Option.some.injEq] at found
    obtain ⟨y,one,more,others,rfl⟩ := found
    obtain ⟨same,all⟩ := mapM_each each others
    exact ⟨congrArg (· + 1) same,List.forall_mem_cons.mpr ⟨each x y one,all⟩⟩

theorem slot_depth {f : Field} (found : f.slot? members = some slot) :
    slot.elim 0 depth ≤ depthOfMembers members := by
  unfold Field.slot? at found
  split at found
  · split at found <;> cases found
    exact Nat.zero_le _
  · rename_i only
    cases found
    have member : _ ∈ members := List.mem_of_mem_filter (only ▸ List.mem_singleton_self _)
    exact depthOfMembers_le.mp (Nat.le_refl _) _ member
  · cases found

theorem row_depth : {fields : List Field} → {row : List Json} → {slots : List (Option Json)} →
    rowSlots? fields row = some slots →
      slots.length = fields.length ∧ ∀ slot ∈ slots, slot.elim 0 depth ≤ depthOfAll row
  | [], [], _, found => by
    cases found
    exact ⟨rfl,nofun⟩
  | [], _ :: _, _, found => by cases found
  | f :: fields, [], _, found => by
    simp only [rowSlots?] at found
    split at found
    · obtain ⟨slots,left,rfl⟩ := Option.map_eq_some_iff.mp found
      obtain ⟨same,all⟩ := row_depth left
      exact ⟨congrArg (· + 1) same,List.forall_mem_cons.mpr ⟨Nat.zero_le _,all⟩⟩
    · cases found
  | f :: fields, v :: row, _, found => by
    obtain ⟨slots,left,rfl⟩ := Option.map_eq_some_iff.mp found
    obtain ⟨same,all⟩ := row_depth left
    refine ⟨congrArg (· + 1) same,List.forall_mem_cons.mpr ⟨Nat.le_max_left ..,fun slot member => ?_⟩⟩
    exact Nat.le_trans (all slot member) (Nat.le_max_right ..)

theorem slots_depth {fields : List Field} (found : slots? fields v = some slots) :
    slots.length = fields.length ∧ 0 < depth v ∧ ∀ slot ∈ slots, slot.elim 0 depth < depth v := by
  cases v with
  | object members =>
    obtain ⟨same,all⟩ := mapM_each (fun _ _ found => slot_depth found) found
    exact ⟨same,Nat.succ_pos _,fun slot member => Nat.lt_succ_of_le (all slot member)⟩
  | array row =>
    obtain ⟨same,all⟩ := row_depth found
    exact ⟨same,Nat.succ_pos _,fun slot member => Nat.lt_succ_of_le (all slot member)⟩
  | _ => cases found

theorem slot_named {f : Field} (single : f.aliases = []) {members : Members}
    (others : ∀ m ∈ members, m.1 ≠ f.name) : (members.filter fun m => f.named m.1) = [] := by
  refine List.filter_eq_nil_iff.mpr fun m member => ?_
  simpa [Field.named,single] using others m member

theorem slots_zip : {fields : List Field} → {values : List Json} → (before : Members) →
    (fields.map Field.name).Nodup → (∀ f ∈ fields, f.aliases = []) → values.length = fields.length →
    (∀ m ∈ before, ∀ f ∈ fields, m.1 ≠ f.name) →
      fields.mapM (Field.slot? · (before ++ List.zip (fields.map Field.name) values)) = some (values.map some)
  | [], [], _, _, _, _, _ => rfl
  | f :: fields, v :: values, before, distinct, single, same, apart => by
    obtain ⟨fresh,distinct⟩ := List.nodup_cons.mp distinct
    have alone := single f List.mem_cons_self
    have behind : ∀ m ∈ List.zip (fields.map Field.name) values, m.1 ≠ f.name :=
      fun m member name => fresh (name ▸ (List.of_mem_zip member).1)
    have first : f.slot? (before ++ (f.name,v) :: List.zip (fields.map Field.name) values) = some (some v) := by
      have named : f.named f.name = true := by simp [Field.named]
      rw [Field.slot?,List.filter_append,slot_named alone fun m member => apart m member f List.mem_cons_self,
        List.filter_cons,if_pos named,slot_named alone behind]
      rfl
    have others := @slots_zip fields values (before ++ [(f.name,v)]) distinct
      (fun g member => single g (List.mem_cons_of_mem _ member)) (Nat.succ.inj same) (by
        intro m member g later
        rcases List.mem_append.mp member with old | new
        · exact apart m old g (List.mem_cons_of_mem _ later)
        · cases List.mem_singleton.mp new
          exact fun name => fresh (List.mem_map.mpr ⟨g,later,name.symm⟩))
    rw [List.append_assoc] at others
    rw [List.mapM_cons,List.map_cons,List.zip_cons_cons,first]
    simp only [Option.bind_eq_bind,Option.bind_some]
    rw [show before ++ (f.name,v) :: List.zip (fields.map Field.name) values =
      before ++ ([(f.name,v)] ++ List.zip (fields.map Field.name) values) from rfl,others]
    rfl

theorem slots_record {fields : List Field} {values : List Json} (distinct : (fields.map Field.name).Nodup)
    (single : ∀ f ∈ fields, f.aliases = []) (same : values.length = fields.length) :
    slots? fields (record fields values) = some (values.map some) :=
  slots_zip [] distinct single same nofun

-- A type whose values are written as the record of their parts, and are read part by part.
class Recorded (ρ : Type) [Coded ρ] where
  fields : List Field
  parts : ρ → List Part
  ofSlots? : List (Option Json) → Option ρ
  encode_parts : ∀ r : ρ, encode r = record fields ((parts r).map Part.encode) := by exact fun _ => rfl
  decode_slots : ∀ v, (decode? v : Option ρ) = (slots? fields v).bind ofSlots? := by exact fun _ => rfl
  distinct : (fields.map Field.name).Nodup := by decide
  single : ∀ f ∈ fields, f.aliases = [] := by decide
  sized : ∀ r, (parts r).length = fields.length := by exact fun _ => rfl
  read_parts : ∀ slots, slots.length = fields.length → ∀ r,
    ofSlots? slots = some r ↔ List.Forall₂ Part.Reads slots (parts r)

open Recorded

instance [Coded ρ] [Recorded ρ] : Plain ρ := ⟨fun r => ∀ p ∈ parts r, p.Plain⟩

theorem forall_reads {ps : List Part} (plain : ∀ p ∈ ps, p.Plain) :
    List.Forall₂ Part.Reads ((ps.map Part.encode).map some) ps := by
  induction ps with
  | nil => exact .nil
  | cons p rest ih =>
    have others := ih fun q member => plain q (List.mem_cons_of_mem _ member)
    exact .cons (Part.reads_encode (plain p List.mem_cons_self)) others

theorem forall_given {slots : List (Option Json)} {ps : List Part} (reads : List.Forall₂ Part.Reads slots ps)
    (shallow : ∀ slot ∈ slots, slot.elim 0 depth ≤ n) : ∀ p ∈ ps, p.Plain ∧ depth p.encode ≤ n := by
  induction reads with
  | nil => nofun
  | cons one _ ih =>
    obtain ⟨plain,deep⟩ := Part.reads_given one
    have first := Nat.le_trans deep (shallow _ List.mem_cons_self)
    have others := ih fun slot member => shallow slot (List.mem_cons_of_mem _ member)
    exact List.forall_mem_cons.mpr ⟨⟨plain,first⟩,others⟩

instance [Coded ρ] [Recorded ρ] : Exchanged ρ where
  decode_encode {r} plain := by
    have length : ((parts r).map Part.encode).length = (fields ρ).length := by rw [List.length_map,sized]
    rw [decode_slots,encode_parts,slots_record distinct single length,Option.bind_some]
    exact (read_parts _ (by rw [List.length_map,length]) r).mpr (forall_reads plain)
  encode_writable {r} plain := by
    rw [encode_parts]
    refine membersWritable_iff.mpr fun m member => ?_
    obtain ⟨p,given,same⟩ := List.mem_map.mp (List.of_mem_zip member).2
    exact same ▸ Part.writable (plain p given)
  decode_plain {v r} read := by
    rw [decode_slots] at read
    obtain ⟨slots,found,read⟩ := Option.bind_eq_some_iff.mp read
    obtain ⟨length,_,shallow⟩ := slots_depth found
    have reads := (read_parts slots length r).mp read
    have given := forall_given reads fun slot member => Nat.le_of_lt (shallow slot member)
    exact fun p member => (given p member).1
  decode_depth {v r} read := by
    rw [decode_slots] at read
    obtain ⟨slots,found,read⟩ := Option.bind_eq_some_iff.mp read
    obtain ⟨length,positive,shallow⟩ := slots_depth found
    have reads := (read_parts slots length r).mp read
    have deep : ∀ p ∈ parts r, p.Plain ∧ depth p.encode ≤ depth v - 1 :=
      forall_given reads fun slot member => Nat.le_sub_one_of_lt (shallow slot member)
    have held : depthOfMembers (List.zip ((fields ρ).map Field.name) ((parts r).map Part.encode)) ≤
        depth v - 1 := by
      refine depthOfMembers_le.mpr fun m member => ?_
      obtain ⟨p,given,same⟩ := List.mem_map.mp (List.of_mem_zip member).2
      exact same ▸ (deep p given).2
    rw [encode_parts,record]
    exact Nat.add_le_of_le_sub positive held

instance [Coded ρ] [Recorded ρ] : NeverNull ρ := ⟨by rw [decode_slots]; rfl⟩

end RunWatch.Json
