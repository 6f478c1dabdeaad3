import Mathlib.Data.List.Basic
namespace RunWatch

variable {α : Type}

theorem lookup_entry (key held : String) (value : α) (rest : List (String × α)) :
    ((held,value) :: rest).lookup key = if key = held then some value else rest.lookup key := by
  by_cases same : key = held
  · simp [same]
  · rw [List.lookup_cons,beq_false_of_ne same,if_neg same]

theorem lookup_kept (keeps : String → Bool) (entries : List (String × α)) (key : String) :
    (entries.filter fun entry => keeps entry.1).lookup key =
      if keeps key then entries.lookup key else none := by
  induction entries with
  | nil => simp
  | cons entry rest ih =>
    obtain ⟨held,value⟩ := entry
    by_cases kept : keeps held
    · rw [List.filter_cons_of_pos (by simpa using kept),lookup_entry,lookup_entry,ih]
      by_cases same : key = held <;> simp [same,kept]
    · rw [List.filter_cons_of_neg (by simpa using kept),lookup_entry,ih]
      by_cases same : key = held <;> simp [same,kept]

end RunWatch
