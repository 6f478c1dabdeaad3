import RunWatch.Api.Client
import RunWatch.Proofs.Fault
namespace RunWatch
open Json

section
variable {ρ α : Type} [Row ρ α] {row : ρ} {rows rest : List ρ} {records : List α} {fault : Fault}

def Admitted (rows : List ρ) (records : List α) : Prop := rows.map Row.accept = records.map Except.ok

def FirstRefused (rows : List ρ) (fault : Fault) : Prop :=
  ∃ earlier row later, rows = earlier ++ row :: later ∧ (∃ records : List α, Admitted earlier records) ∧
    (Row.accept row : Except Fault α) = .error fault

theorem Admitted.nil : Admitted ([] : List ρ) records ↔ records = [] := by
  cases records <;> simp [Admitted]

theorem Admitted.cons : Admitted (row :: rest) records ↔
    ∃ record, Row.accept row = .ok record ∧ ∃ others, Admitted rest others ∧ record :: others = records := by
  constructor
  · intro admitted
    cases records with
    | nil => cases admitted
    | cons record others =>
      obtain ⟨accepted,further⟩ := List.cons.inj admitted
      exact ⟨record,accepted,others,further,rfl⟩
  · rintro ⟨record,accepted,others,further,rfl⟩
    exact List.cons_eq_cons.mpr ⟨accepted,further⟩

theorem FirstRefused.cons : FirstRefused (row :: rest) fault ↔
    Row.accept row = .error fault ∨ ∃ record, Row.accept row = .ok record ∧ FirstRefused rest fault := by
  constructor
  · rintro ⟨earlier,refusedRow,later,cut,⟨records,admitted⟩,refused⟩
    cases earlier with
    | nil =>
      cases cut
      exact Or.inl refused
    | cons head others =>
      cases cut
      obtain ⟨record,accepted,tail,further,_⟩ := Admitted.cons.mp admitted
      exact Or.inr ⟨record,accepted,others,refusedRow,later,rfl,⟨tail,further⟩,refused⟩
  · rintro (refused | ⟨record,accepted,earlier,refusedRow,later,rfl,⟨records,admitted⟩,refused⟩)
    · exact ⟨[],row,rest,rfl,⟨[],rfl⟩,refused⟩
    · exact ⟨row :: earlier,refusedRow,later,rfl,
        ⟨record :: records,Admitted.cons.mpr ⟨record,accepted,records,admitted,rfl⟩⟩,refused⟩

theorem acceptAll_cons (row : ρ) (rest : List ρ) :
    (acceptAll (row :: rest) : Except Fault (List α)) =
      (Row.accept row).bind fun record => (acceptAll rest).bind fun records => .ok (record :: records) :=
  List.mapM_cons

theorem acceptAll_ok : acceptAll rows = .ok records ↔ Admitted rows records := by
  induction rows generalizing records with
  | nil =>
    rw [Admitted.nil]
    exact ⟨fun accepted => (Except.ok.inj accepted).symm,fun none => none ▸ rfl⟩
  | cons row rest ih =>
    simp only [acceptAll_cons,Except.bind_ok_iff,ih,Admitted.cons,Except.ok.injEq]

theorem acceptAll_error : (acceptAll rows : Except Fault (List α)) = .error fault ↔ FirstRefused rows fault := by
  induction rows with
  | nil =>
    constructor
    · intro refused
      cases refused
    · rintro ⟨earlier,row,later,cut,_⟩
      cases earlier <;> cases cut
  | cons row rest ih =>
    simp only [acceptAll_cons,Except.bind_error_iff,ih,FirstRefused.cons,reduceCtorEq,and_false,exists_false,
      or_false]

theorem admitted_or_refused (rows : List ρ) :
    (∃ records : List α, Admitted rows records) ∨ ∃ fault, FirstRefused rows fault := by
  cases accepted : (acceptAll rows : Except Fault (List α)) with
  | ok records => exact Or.inl ⟨records,acceptAll_ok.mp accepted⟩
  | error fault => exact Or.inr ⟨fault,acceptAll_error.mp accepted⟩

theorem Admitted.origin {record : α} (admitted : Admitted rows records) (member : record ∈ records) :
    ∃ row : ρ, Row.accept row = .ok record := by
  have accepted : (.ok record : Except Fault α) ∈ rows.map Row.accept := admitted ▸ List.mem_map_of_mem member
  obtain ⟨row,_,same⟩ := List.mem_map.mp accepted
  exact ⟨row,same⟩

theorem Admitted.of_each (each : ∀ row ∈ rows, ∃ record : α, Row.accept row = .ok record) :
    ∃ records : List α, Admitted rows records := by
  refine (admitted_or_refused rows).resolve_right ?_
  rintro ⟨fault,earlier,row,later,rfl,_,refused⟩
  obtain ⟨record,accepted⟩ := each row (List.mem_append_right earlier List.mem_cons_self)
  rw [accepted] at refused
  cases refused

theorem FirstRefused.of_some (refused : ∃ row ∈ rows, ∃ fault, (Row.accept row : Except Fault α) = .error fault) :
    ∃ fault, FirstRefused rows fault := by
  obtain ⟨row,member,fault,refused⟩ := refused
  refine (admitted_or_refused rows).resolve_left ?_
  rintro ⟨records,admitted⟩
  have accepted : (Row.accept row : Except Fault α) ∈ records.map Except.ok :=
    admitted ▸ List.mem_map_of_mem member
  obtain ⟨record,_,same⟩ := List.mem_map.mp accepted
  rw [refused] at same
  cases same

end

namespace Api

def Response.rows? (ρ : Type) {α : Type} [Row ρ α] (response : Response) : Option (List ρ) :=
  (Reading.polled.readBytes? response.content).bind readRows?

theorem Call.answer_of_delivered {c : Call α} (delivered : deliver network c.request = .ok response) :
    c.answer network = c.meaning response := by
  rw [Call.answer,delivered]

theorem Call.answer_bind (c : Call α) (next : α → Except Fault β) (network : Network) :
    (c.bind next).answer network = (c.answer network).bind next := by
  have request : (c.bind next).request = c.request := rfl
  rw [Call.answer,Call.answer,request]
  cases deliver network c.request <;> rfl

theorem Client.list_answer {ρ α : Type} [Row ρ α] {c : Client} {path : String} {rows : List ρ}
    (delivered : deliver network (c.list ρ path).request = .ok response)
    (decoded : response.rows? ρ = some rows) : (c.list ρ path).answer network = acceptAll rows := by
  rw [Call.answer_of_delivered delivered]
  change readRecords ρ response = _
  unfold Response.rows? at decoded
  rw [readRecords,decoded]

end Api
end RunWatch
