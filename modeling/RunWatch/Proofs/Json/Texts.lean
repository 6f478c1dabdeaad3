import RunWatch.Json.Token
import RunWatch.Json.Writing
namespace RunWatch.Json

structure Stands (c : Char) (spelled : List Char) (p : Piece) : Prop where
  read : ∀ rest, pieces? (spelled ++ rest) = (pieces? rest).map fun (more,rest) => (p :: more,rest)
  joined : ∀ more, joinPairs? (p :: more) = (joinPairs? more).map (c :: ·)

theorem joinPairs_char (c : Char) (more : List Piece) :
    joinPairs? (.char c :: more) = (joinPairs? more).map (c :: ·) := by
  rw [joinPairs?]

theorem joinPairs_unit (small : n < 0x20) (more : List Piece) :
    joinPairs? (.unit n :: more) = (joinPairs? more).map (Char.ofNat n :: ·) := by
  have high : isHigh n = false := by simp [isHigh]; omega
  have low : isLow n = false := by simp [isLow]; omega
  cases more with
  | nil => simp [joinPairs?,high,low]
  | cons p rest => cases p <;> simp [joinPairs?,high,low]

theorem hexUnit_small : ∀ n : Nat, n < 0x20 → hexUnit? '0' '0' (hexChar (n / 16)) (hexChar n) = some n := by
  decide

theorem pieces_plain (quote : c ≠ '"') (backslash : c ≠ '\\') (printed : ¬ c.toNat < 0x20) (rest : List Char) :
    pieces? (c :: rest) = (pieces? rest).map fun (more,rest) => (.char c :: more,rest) := by
  rw [pieces?.eq_def]
  split
  · rename_i same
    cases same
  · rename_i same
    cases same
    exact absurd rfl quote
  · rename_i same
    cases same
    exact absurd rfl backslash
  · rename_i same
    cases same
    exact absurd rfl backslash
  · rename_i same
    cases same
    rw [if_neg printed]
    cases pieces? rest <;> rfl

theorem pieces_short (other : c ≠ 'u') (short : shortEscape? c = some d) (rest : List Char) :
    pieces? ('\\' :: c :: rest) = (pieces? rest).map fun (more,rest) => (.char d :: more,rest) := by
  rw [pieces?.eq_def]
  split
  · rename_i same
    cases same
  · rename_i same
    cases same
  · rename_i same
    cases same
    exact absurd rfl other
  · rename_i same
    cases same
    rw [short]
    cases pieces? rest <;> rfl
  · rename_i unescaped same
    cases same
    exact (unescaped _ _ rfl rfl).elim

theorem pieces_unit (unit : hexUnit? a b c d = some n) (rest : List Char) :
    pieces? ('\\' :: 'u' :: a :: b :: c :: d :: rest) =
      (pieces? rest).map fun (more,rest) => (.unit n :: more,rest) := by
  rw [pieces?,unit]
  cases pieces? rest <;> rfl

theorem short_stands (other : c ≠ 'u') (short : shortEscape? c = some d) : ∃ p, Stands d ['\\',c] p :=
  ⟨_,pieces_short other short,joinPairs_char _⟩

theorem escaped_stands (c : Char) : ∃ p, Stands c (escaped c) p := by
  unfold escaped
  split
  · rename_i same
    cases beq_iff_eq.mp same
    exact short_stands (by decide) rfl
  split
  · rename_i same
    cases beq_iff_eq.mp same
    exact short_stands (by decide) rfl
  split
  · rename_i control
    split
    · rename_i same
      cases beq_iff_eq.mp same
      exact short_stands (by decide) rfl
    split
    · rename_i same
      cases beq_iff_eq.mp same
      exact short_stands (by decide) rfl
    split
    · rename_i same
      cases beq_iff_eq.mp same
      exact short_stands (by decide) rfl
    split
    · rename_i same
      cases beq_iff_eq.mp same
      exact short_stands (by decide) rfl
    split
    · rename_i same
      cases beq_iff_eq.mp same
      exact short_stands (by decide) rfl
    · refine ⟨.unit c.toNat,pieces_unit (hexUnit_small _ control),fun more => ?_⟩
      rw [joinPairs_unit control,Char.ofNat_toNat]
  · rename_i quote backslash printed
    exact ⟨_,pieces_plain (by simpa using quote) (by simpa using backslash) printed,joinPairs_char _⟩

theorem escaped_pieces (cs : List Char) : ∃ ps,
    (∀ rest, pieces? (cs.flatMap escaped ++ '"' :: rest) = some (ps,rest)) ∧ joinPairs? ps = some cs := by
  induction cs with
  | nil => exact ⟨[],fun _ => by simp [pieces?],rfl⟩
  | cons c cs ih =>
    obtain ⟨p,one⟩ := escaped_stands c
    obtain ⟨ps,read,joined⟩ := ih
    refine ⟨p :: ps,fun rest => ?_,?_⟩
    · rw [List.flatMap_cons,List.append_assoc,one.read,read]
      rfl
    · rw [one.joined,joined]
      rfl

theorem quoted_token (s : String) (size : Nat) (rest : List Char) :
    token? false size (quoted s ++ rest) = some (.text (some s),rest) := by
  obtain ⟨ps,read,joined⟩ := escaped_pieces s.toList
  have text : quoted s ++ rest = '"' :: (s.toList.flatMap escaped ++ '"' :: rest) := by simp [quoted]
  rw [text]
  simp [token?,read,join?,joined]

end RunWatch.Json
