import Mathlib.Data.List.TakeWhile
import RunWatch.Api.Client
namespace RunWatch.Api

section
variable {w p : List Char} {c : Char}

theorem isRunIdChar_ne (known : isRunIdChar c = true) {other : Char} (foreign : isRunIdChar other = false) :
    c ≠ other := by
  intro same
  rw [same,foreign] at known
  cases known

theorem isRunIdChar_range (known : isRunIdChar c = true) : 0x20 < c.toNat ∧ c.toNat < 0x7F := by
  change (((((decide ('A'.val ≤ c.val ∧ c.val ≤ 'Z'.val) || ('a'.val ≤ c.val && c.val ≤ 'z'.val)) ||
    ('0'.val ≤ c.val && c.val ≤ '9'.val)) || c == '-') || c == '_') || c == '.') = true at known
  simp only [Bool.or_eq_true,Bool.and_eq_true,decide_eq_true_eq,beq_iff_eq,UInt32.le_iff_toNat_le] at known
  change (((((65 ≤ c.toNat ∧ c.toNat ≤ 90) ∨ (97 ≤ c.toNat ∧ c.toNat ≤ 122)) ∨
    (48 ≤ c.toNat ∧ c.toNat ≤ 57)) ∨ c = '-') ∨ c = '_') ∨ c = '.' at known
  rcases known with ((alphanumeric | rfl) | rfl) | rfl
  · omega
  all_goals decide

theorem isRunIdChar_notSlash (known : isRunIdChar c = true) : isSlash c = false := by
  have slash : c ≠ '/' := isRunIdChar_ne known (by decide)
  have backslash : c ≠ '\\' := isRunIdChar_ne known (by decide)
  simp [isSlash,slash,backslash]

theorem escape_isRunIdChar (known : isRunIdChar c = true) : escape reservedInPath c = [c] := by
  obtain ⟨low,high⟩ := isRunIdChar_range known
  have free : c ∉ reservedInPath := by
    intro reserved
    have foreign : reservedInPath.any isRunIdChar = false := by decide
    exact List.any_eq_false.mp foreign c reserved known
  simp [escape,free,Nat.not_le.mpr low,Nat.not_le.mpr high]

def Word (w : List Char) : Prop := ∀ c ∈ w, isRunIdChar c = true

instance : DecidablePred Word := fun w => decidable_of_iff (w.all isRunIdChar = true) List.all_eq_true

theorem Word.escaped (plain : Word w) : escaped reservedInPath w = String.ofList w := by
  rw [Api.escaped]
  congr 1
  induction w with
  | nil => rfl
  | cons c rest ih =>
    have first := escape_isRunIdChar (plain c List.mem_cons_self)
    have others := ih fun x member => plain x (List.mem_cons_of_mem c member)
    rw [List.flatMap_cons,first,others]
    rfl

theorem Word.dots {n : Nat} (plain : Word w) (dotted : dots w = some n) : w = List.replicate n '.' := by
  induction w generalizing n with
  | nil =>
    cases dotted
    rfl
  | cons c rest ih =>
    have known : isRunIdChar c = true := plain c List.mem_cons_self
    unfold Api.dots at dotted
    split at dotted
    · rename_i same
      cases same
    · rename_i rest same
      cases same
      obtain ⟨m,more,rfl⟩ := Option.map_eq_some_iff.mp dotted
      have others := ih (fun x member => plain x (List.mem_cons_of_mem _ member)) more
      rw [others]
      rfl
    · rename_i same
      cases same
      exact absurd known (by decide)
    · rename_i same
      cases same
      exact absurd known (by decide)
    · cases dotted

theorem Word.not_dots (plain : Word w) (here : w ≠ ['.']) (up : w ≠ ['.','.']) :
    Api.dots w ≠ some 1 ∧ Api.dots w ≠ some 2 :=
  ⟨fun one => here (plain.dots one),fun two => up (plain.dots two)⟩

theorem parts_word {isSeparator : Char → Bool} (free : ∀ c ∈ w, isSeparator c = false) :
    parts isSeparator w = [w] := by
  induction w with
  | nil => rfl
  | cons c rest ih =>
    have others := ih fun x member => free x (List.mem_cons_of_mem c member)
    simp [parts,free c List.mem_cons_self,others]

theorem parts_ne_nil (isSeparator : Char → Bool) (cs : List Char) : parts isSeparator cs ≠ [] := by
  cases cs with
  | nil => simp [parts]
  | cons c rest =>
    unfold parts
    split
    · simp
    · split <;> simp

theorem parts_append {isSeparator : Char → Bool} {mark : Char} (separates : isSeparator mark = true)
    (front back : List Char) : parts isSeparator (front ++ mark :: back) =
      parts isSeparator front ++ parts isSeparator back := by
  induction front with
  | nil => simp [parts,separates]
  | cons c rest ih =>
    obtain ⟨head,tail,cut⟩ := List.exists_cons_of_ne_nil (parts_ne_nil isSeparator rest)
    rw [List.cons_append,parts,parts,ih,cut]
    split <;> rfl

theorem parts_words {words : List (List Char)} (present : words ≠ []) (plain : ∀ w ∈ words, Word w) :
    parts isSlash (['/'].intercalate words) = words := by
  induction words with
  | nil => exact absurd rfl present
  | cons w rest ih =>
    have first : parts isSlash w = [w] :=
      parts_word fun c member => isRunIdChar_notSlash (plain w List.mem_cons_self c member)
    cases rest with
    | nil => rw [List.intercalate_singleton,first]
    | cons next more =>
      have others := ih (List.cons_ne_nil next more) fun x member => plain x (List.mem_cons_of_mem w member)
      rw [List.intercalate_cons_cons,List.append_assoc,List.singleton_append,parts_append rfl,first,others]
      rfl

def visit (done : List String) (part : List Char) : List String :=
  match dots part with
  | some 1 => done
  | some 2 => done.tail
  | _ => escaped reservedInPath part :: done

theorem visit_word (done : List String) (plain : Word w) (here : w ≠ ['.']) (up : w ≠ ['.','.']) :
    visit done w = String.ofList w :: done := by
  obtain ⟨notHere,notUp⟩ := plain.not_dots here up
  unfold visit
  split
  · exact absurd ‹_› notHere
  · exact absurd ‹_› notUp
  · rw [plain.escaped]

theorem follow_cons (done : List String) (part : List Char) {rest : List (List Char)} (more : rest ≠ []) :
    follow done (part :: rest) = follow (visit done part) rest := by
  have goesOn : rest.isEmpty = false := by simpa using more
  rw [follow,goesOn,Bool.and_false]
  rfl

theorem follow_append (done : List String) (front : List (List Char)) {back : List (List Char)} (more : back ≠ []) :
    follow done (front ++ back) = follow (front.foldl visit done) back := by
  induction front generalizing done with
  | nil => rfl
  | cons part rest ih =>
    rw [List.cons_append,follow_cons done part (List.append_ne_nil_of_right_ne_nil rest more),ih,List.foldl_cons]

theorem follow_last (done : List String) {last : List Char} (here : dots last ≠ some 1) (up : dots last ≠ some 2) :
    follow done [last] = (visit done last).reverse := by
  have named : (dots last == some 1 || dots last == some 2) = false := by simp [here,up]
  rw [follow,named,Bool.false_and]
  rfl

theorem follow_end (done : List String) : follow done [[]] = done.reverse ++ [""] := by
  rw [follow_last done (by decide) (by decide)]
  exact List.reverse_cons

end

section
variable {url : String} {rest path : List Char}

def kept (cs : List Char) : List Char := cs.filter fun c => !(c == '\t' || c == '\n' || c == '\r')

def Plain (path : List Char) : Prop := ∀ c ∈ path, isRunIdChar c = true ∨ c = '/'

instance : DecidablePred Plain := fun path =>
  decidable_of_iff (path.all (fun c => isRunIdChar c || c == '/') = true) (by simp [Plain])

theorem Plain.range (plain : Plain path) {c : Char} (member : c ∈ path) : 0x20 < c.toNat := by
  obtain known | rfl := plain c member
  · exact (isRunIdChar_range known).1
  · decide

theorem Plain.absent (plain : Plain path) {mark : Char} (foreign : isRunIdChar mark = false) (slash : mark ≠ '/') :
    mark ∉ path := by
  intro member
  obtain known | same := plain mark member
  · rw [foreign] at known
    cases known
  · exact slash same

theorem Plain.kept (plain : Plain path) : kept path = path := by
  apply List.filter_eq_self.mpr
  intro c member
  have other : ∀ mark, isRunIdChar mark = false → mark ≠ '/' → (c == mark) = false := by
    intro mark foreign slash
    apply beq_eq_false_iff_ne.mpr
    intro same
    exact plain.absent foreign slash (same ▸ member)
  rw [other '\t' (by decide) (by decide),other '\n' (by decide) (by decide),other '\r' (by decide) (by decide)]
  rfl

theorem Plain.absent_behind {letters : List Char} (plain : Plain path) {mark : Char} (notBefore : mark ∉ letters)
    (foreign : isRunIdChar mark = false) (slash : mark ≠ '/') :
    mark ∉ (Api.kept letters ++ path).dropWhile isSlash := by
  intro member
  obtain early | late := List.mem_append.mp ((List.dropWhile_sublist isSlash).mem member)
  · exact notBefore (List.mem_filter.mp early).1
  · exact plain.absent foreign slash late

theorem outline_append {front path : String} {letters : List Char} (starts : front.toList = 'h' :: letters)
    (plain : Plain path.toList) (present : path.toList ≠ []) :
    outline (front ++ path) = kept front.toList ++ path.toList := by
  obtain ⟨init,last,ends⟩ : ∃ init last, path.toList = init ++ [last] :=
    ⟨_,_,(List.dropLast_concat_getLast present).symm⟩
  have range : 0x20 < last.toNat := plain.range (ends ▸ List.mem_append_right init List.mem_cons_self)
  have ahead : ((front ++ path).toList.dropWhile fun c => decide (c.toNat ≤ 0x20)) = front.toList ++ path.toList := by
    rw [String.toList_append,starts,List.cons_append]
    exact List.dropWhile_cons_of_neg (by decide)
  have behind : ((front.toList ++ path.toList).reverse.dropWhile fun c => decide (c.toNat ≤ 0x20)) =
      (front.toList ++ path.toList).reverse := by
    rw [ends,← List.append_assoc,List.reverse_concat]
    exact List.dropWhile_cons_of_neg (by simpa using range)
  rw [outline,ahead,behind,List.reverse_reverse,List.filter_append]
  exact congrArg (kept front.toList ++ ·) plain.kept

theorem cut?_absent {mark : Char} (absent : mark ∉ rest) : cut? mark rest = (rest,none) := by
  have none : rest.dropWhile (· != mark) = [] := by
    apply List.dropWhile_eq_nil_iff.mpr
    intro c member
    exact bne_iff_ne.mpr fun same => absent (same ▸ member)
  rw [cut?,none]

theorem ofText_of_outline {text : String} {scheme : List Char} (cut : schemeEnd (outline text) = (scheme,rest))
    (noFragment : '#' ∉ rest) (noQuery : '?' ∉ rest) : Address.ofText text =
      ⟨String.ofList (scheme ++ rest.takeWhile fun c => !isSlash c),
        follow [] (parts isSlash (rest.dropWhile fun c => !isSlash c).tail),none,none⟩ := by
  simp only [Address.ofText,cut,cut?_absent noFragment,cut?_absent noQuery,Option.map_none]

theorem host_append (cs rest : List Char) :
    ((cs ++ '/' :: rest).takeWhile fun c => !isSlash c) = cs.takeWhile fun c => !isSlash c := by
  induction cs with
  | nil => rfl
  | cons c others ih =>
    rw [List.cons_append,List.takeWhile_cons,List.takeWhile_cons,ih]

def partsBefore : List Char → List (List Char)
  | [] => []
  | _ :: rest => parts isSlash rest

theorem path_append (cs rest : List Char) :
    parts isSlash ((cs ++ '/' :: rest).dropWhile fun c => !isSlash c).tail =
      partsBefore (cs.dropWhile fun c => !isSlash c) ++ parts isSlash rest := by
  induction cs with
  | nil => rfl
  | cons c others ih =>
    rw [List.cons_append,List.dropWhile_cons,List.dropWhile_cons]
    split
    · exact ih
    · exact parts_append rfl others rest

end

-- An address to which paths are added: a scheme, and letters in which there is neither a
-- query nor a fragment.
structure Base (url : String) (scheme letters : List Char) : Prop where
  opens : url.toList = scheme ++ letters
  known : scheme = "http://".toList ∨ scheme = "https://".toList
  noQuery : '?' ∉ letters
  noFragment : '#' ∉ letters

def home (letters : List Char) : List Char := (kept letters).dropWhile isSlash

def hostOf (letters : List Char) : List Char := (home letters).takeWhile fun c => !isSlash c

def segmentsOf (letters : List Char) : List String :=
  (partsBefore ((home letters).dropWhile fun c => !isSlash c)).foldl visit []

namespace Base
variable {url : String} {scheme letters : List Char}

theorem schemeEnd_outline (base : Base url scheme letters) {path : String} (plain : Plain path.toList)
    (present : path.toList ≠ []) :
    schemeEnd (outline (url ++ path)) = (scheme,(kept letters ++ path.toList).dropWhile isSlash) := by
  obtain rfl | rfl := base.known
  · rw [outline_append base.opens plain present,base.opens]
    rfl
  · rw [outline_append base.opens plain present,base.opens]
    rfl

theorem ofText_append (base : Base url scheme letters) {path : String} (plain : Plain path.toList)
    (present : path.toList ≠ []) {rest : List Char} (behind : (kept letters ++ path.toList).dropWhile isSlash = rest) :
    Address.ofText (url ++ path) = ⟨String.ofList (scheme ++ rest.takeWhile fun c => !isSlash c),
        follow [] (parts isSlash (rest.dropWhile fun c => !isSlash c).tail),none,none⟩ := by
  rw [← behind]
  exact ofText_of_outline (base.schemeEnd_outline plain present)
    (plain.absent_behind base.noFragment (by decide) (by decide))
    (plain.absent_behind base.noQuery (by decide) (by decide))

-- A base that has letters behind its scheme names a host, to whose path others are added.
theorem ofText_housed (base : Base url scheme letters) (housed : home letters ≠ []) {path : String}
    {rest : List Char} (plain : Plain path.toList) (slash : path.toList = '/' :: rest) : Address.ofText (url ++ path) =
      ⟨String.ofList (scheme ++ hostOf letters),follow (segmentsOf letters) (parts isSlash rest),none,none⟩ := by
  have behind : (kept letters ++ path.toList).dropWhile isSlash = home letters ++ '/' :: rest := by
    rw [List.dropWhile_append,if_neg (by simpa [home] using housed),slash]
    rfl
  rw [base.ofText_append plain (slash ▸ List.cons_ne_nil _ _) behind,host_append,path_append,
    follow_append [] _ (parts_ne_nil isSlash rest)]
  rfl

-- Behind a scheme alone, the first word of the path is taken for a host.
theorem ofText_homeless (base : Base url scheme letters) (homeless : home letters = []) {path : String}
    {rest : List Char} (plain : Plain path.toList) (below : path.toList = "/api/".toList ++ rest) :
    Address.ofText (url ++ path) =
      ⟨String.ofList (scheme ++ "api".toList),follow [] (parts isSlash rest),none,none⟩ := by
  have behind : (kept letters ++ path.toList).dropWhile isSlash = "api".toList ++ '/' :: rest := by
    rw [List.dropWhile_append,if_pos (by simpa [home] using homeless),below]
    rfl
  have present : path.toList ≠ [] := by
    rw [below]
    exact List.cons_ne_nil _ _
  rw [base.ofText_append plain present behind,host_append,path_append]
  rfl

theorem origin_homeless (base : Base url scheme letters) (homeless : home letters = []) :
    (Address.ofText (url ++ "/")).origin = String.ofList scheme := by
  have behind : (kept letters ++ "/".toList).dropWhile isSlash = [] := by
    rw [List.dropWhile_append,if_pos (by simpa [home] using homeless)]
    rfl
  have plain : Plain "/".toList := by decide
  rw [base.ofText_append plain (by decide) behind,List.takeWhile_nil,List.append_nil]

end Base

def Leads (url origin : String) (done : List String) : Prop :=
  ∀ (path : String) (rest : List Char), path.toList = "/api/".toList ++ rest → Plain rest →
    Address.ofText (url ++ path) = ⟨origin,follow done (parts isSlash rest),none,none⟩

def NamesHost (url : String) : Prop :=
  (Address.ofText (url ++ "/")).origin ≠ "http://" ∧ (Address.ofText (url ++ "/")).origin ≠ "https://"

theorem Plain.below {rest : List Char} (plain : Plain rest) : Plain ("/api/".toList ++ rest) := by
  have front : Plain "/api/".toList := by decide
  intro c member
  obtain early | late := List.mem_append.mp member
  · exact front c early
  · exact plain c late

namespace Base
variable {url : String} {scheme letters : List Char}

theorem leads_housed (base : Base url scheme letters) (housed : home letters ≠ []) :
    Leads url (String.ofList (scheme ++ hostOf letters)) ("api" :: segmentsOf letters) := by
  intro path rest below plain
  have slash : path.toList = '/' :: ("api".toList ++ '/' :: rest) := below
  have cut : parts isSlash ("api".toList ++ '/' :: rest) = "api".toList :: parts isSlash rest :=
    parts_append rfl "api".toList rest
  have word : visit (segmentsOf letters) "api".toList = "api" :: segmentsOf letters :=
    visit_word _ (by decide) (by decide) (by decide)
  rw [base.ofText_housed housed (below ▸ plain.below) slash,cut,follow_cons _ _ (parts_ne_nil isSlash rest),word]

theorem leads_homeless (base : Base url scheme letters) (homeless : home letters = []) :
    Leads url (String.ofList (scheme ++ "api".toList)) [] := by
  intro path rest below plain
  exact base.ofText_homeless homeless (below ▸ plain.below) below

theorem namesHost_housed (base : Base url scheme letters) (named : NamesHost url) : home letters ≠ [] := by
  intro homeless
  have origin := base.origin_homeless homeless
  obtain rfl | rfl := base.known
  · exact named.1 origin
  · exact named.2 origin

-- An address has one place to which its paths lead, and one that names a host has it
-- below its own path.
theorem leads (base : Base url scheme letters) : ∃ origin done, Leads url origin done ∧
    (NamesHost url → ∃ path, Address.ofText (url ++ "/") = ⟨origin,path ++ [""],none,none⟩ ∧
      done.reverse = path ++ ["api"]) := by
  by_cases homeless : home letters = []
  · refine ⟨_,_,base.leads_homeless homeless,?_⟩
    intro named
    exact absurd homeless (base.namesHost_housed named)
  · refine ⟨_,_,base.leads_housed homeless,?_⟩
    intro _
    refine ⟨(segmentsOf letters).reverse,?_,List.reverse_cons⟩
    have plain : Plain "/".toList := by decide
    rw [base.ofText_housed homeless plain rfl,← follow_end]
    rfl

end Base
end RunWatch.Api
