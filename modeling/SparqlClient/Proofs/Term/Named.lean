import Mathlib.Data.List.TakeWhile
import Mathlib.Tactic.SplitIfs
import SparqlClient.Proofs.Term.Shortened
import SparqlClient.Term.Classify

/-! What a text is taken for. An absolute URL is no name with a prefix; a text that names a resource
names it by its expansion or by itself, without outer blanks and brackets. -/

namespace SparqlClient

open Text Shape

namespace Url

variable {s : String}

theorem isBlank_of_isAbsolute (h : isAbsolute s) : ∀ c ∈ s.toList, isBlank c = false := by
  rw [isAbsolute, Bool.and_eq_true] at h
  simpa [hasBlank] using h.1

theorem cleaned_of_visible {s : List Char} (h : ∀ c ∈ s, isBlank c = false) :
    cleaned s = s.dropWhile fun c => c.toNat ≤ 32 := by
  rw [cleaned, List.filter_eq_self]
  intro c member
  have visible := h c ((List.dropWhile_sublist _).subset member)
  have apart : c ≠ '\t' ∧ c ≠ '\r' ∧ c ≠ '\n' := by
    refine ⟨?_, ?_, ?_⟩ <;> rintro rfl <;> cases visible
  simpa [and_assoc] using apart

theorem exists_of_schemeAndRest {s a b : List Char} (h : schemeAndRest s = (a, b)) (some : a ≠ []) :
    ∃ c name, s = c :: name ++ ':' :: b ∧ c.isAlpha ∧ ∀ x ∈ name, isSchemeChar x := by
  unfold schemeAndRest at h
  split at h
  · rename_i c name rest cut
    split at h
    · rename_i scheme
      obtain ⟨-, rfl⟩ := Prod.mk.inj h
      obtain ⟨d, colon, rfl⟩ := eq_of_cutAt cut
      obtain rfl : d = ':' := by simpa using colon
      rw [Bool.and_eq_true, List.all_eq_true] at scheme
      exact ⟨c, name, rfl, scheme⟩
    · exact absurd (Prod.mk.inj h).1.symm some
  · exact absurd (Prod.mk.inj h).1.symm some

theorem of_split? {u : Url} (h : split? s = some u) :
    u.scheme = String.ofList (schemeAndRest (cleaned s.toList)).1 ∧
      u.authority = String.ofList (authorityOf (schemeAndRest (cleaned s.toList)).2) := by
  unfold split? at h
  split at h
  rename_i scheme rest parts
  rw [parts]
  simp only at h
  split at h
  · cases h
  · split at h
    · cases h
    · obtain rfl := Option.some.inj h
      exact ⟨rfl, rfl⟩

theorem exists_of_authorityOf {s : List Char} (h : authorityOf s ≠ []) :
    ∃ rest, s = '/' :: '/' :: rest := by
  unfold authorityOf at h
  split at h
  · exact ⟨_, rfl⟩
  · exact absurd rfl h

def isLeading (c : Char) : Bool := c.toNat ≤ 32 || isSchemeChar c

theorem exists_leading (h : isAbsolute s) : ∃ front rest,
    s.toList = front ++ ':' :: '/' :: '/' :: rest ∧ front ≠ [] ∧ ∀ c ∈ front, isLeading c := by
  have visible := isBlank_of_isAbsolute h
  rw [isAbsolute, Bool.and_eq_true] at h
  obtain ⟨-, parts⟩ := h
  split at parts
  · rename_i u split
    obtain ⟨scheme, authority⟩ := of_split? split
    rw [scheme, authority, cleaned_of_visible visible] at parts
    simp only [Bool.and_eq_true, bne_iff_ne, ne_eq, String.ofList_eq_empty_iff] at parts
    cases cut : schemeAndRest (s.toList.dropWhile fun c => c.toNat ≤ 32) with
    | mk scheme behind =>
      rw [cut] at parts
      obtain ⟨c, name, whole, first, word⟩ := exists_of_schemeAndRest cut parts.1
      obtain ⟨rest, rfl⟩ := exists_of_authorityOf parts.2
      refine ⟨(s.toList.takeWhile fun c => c.toNat ≤ 32) ++ c :: name, rest, ?_, by simp, ?_⟩
      · rw [List.append_assoc, ← whole, List.takeWhile_append_dropWhile]
      · intro x member
        rw [isLeading, Bool.or_eq_true]
        rcases List.mem_append.1 member with control | named
        · have early := List.mem_takeWhile_imp control
          exact .inl early
        · refine .inr ?_
          rcases List.mem_cons.1 named with rfl | later
          · simp [isSchemeChar, Char.isAlphanum, first]
          · exact word x later
  · cases parts

theorem head_of_isAbsolute (h : isAbsolute s) : ∃ c rest, s.toList = c :: rest ∧ isLeading c := by
  obtain ⟨front, rest, whole, present, leading⟩ := exists_leading h
  cases front with
  | nil => exact absurd rfl present
  | cons c front => exact ⟨c, _, whole, leading c (List.mem_cons_self ..)⟩

theorem isFull_of_isAbsolute (h : isAbsolute s) : Prefixes.IsFull s := by
  obtain ⟨front, rest, whole, -, leading⟩ := exists_leading h
  refine ⟨String.ofList front, String.ofList rest, ?_, ?_⟩
  · rw [← String.toList_inj, whole]
    simp
  · rw [String.toList_ofList]
    intro member
    cases leading _ member

theorem expand_of_isAbsolute (h : isAbsolute s) (p : Prefixes) : p.expand s = s :=
  p.expand_of_isFull (isFull_of_isAbsolute h)

end Url

theorem unbracket_eq_self {s : String} {c : Char} {rest : List Char} (first : s.toList = c :: rest)
    (other : c ≠ '<') : unbracket s = s := by
  unfold unbracket
  split
  · rename_i t spelled
    exact absurd (List.cons.inj (first.symm.trans spelled)).1 other
  · rfl

/-- The marks of labels count first, names next, and those of variables last. -/
theorem classifyText_cases (p : Option Prefixes) (s : String) :
    (startsWith s "_:" ∧ classifyText p s = .ofText .blank s) ∨
    (∃ k x, classifyText p s = .ofText k x ∧ (k = .iri ∨ k = .urn)) ∨
    (Shape.isVariable s ∧ classifyText p s = .ofText .variable s) ∨
    ∃ k, classifyText p s = .ofText k s ∧ (k = .compact ∨ k = .raw) := by
  unfold classifyText
  simp only
  split_ifs with label absolute urn iri name compact
  · exact .inl ⟨label, rfl⟩
  · exact .inr (.inl ⟨_, _, rfl, .inl rfl⟩)
  · exact .inr (.inl ⟨_, _, rfl, .inr rfl⟩)
  · exact .inr (.inl ⟨_, _, rfl, .inl rfl⟩)
  · exact .inr (.inr (.inl ⟨name, rfl⟩))
  · exact .inr (.inr (.inr ⟨_, rfl, .inl rfl⟩))
  · exact .inr (.inr (.inr ⟨_, rfl, .inr rfl⟩))

def schemeKind? (s : String) : Option TermKind :=
  if isUrn s then some .urn else if isIri s && !hasBlank s then some .iri else none

/-- A resource is named by the expansion of the text, or else by the text itself. -/
theorem resource_of_classifyText {p : Option Prefixes} {s x : String} {k : TermKind}
    (read : classifyText p s = .ofText k x) (kind : k = .iri ∨ k = .urn) :
    (k = .iri ∧ x = expandWith p (unbracket (trim s)) ∧ Url.isAbsolute x) ∨
    (x = unbracket (trim s) ∧ Url.isAbsolute (expandWith p x) = false ∧
      schemeKind? x = some k) := by
  have same {k' : TermKind} {y : String} (own : Term.ofText k' y = .ofText k x) :
      k' = k ∧ y = x := by
    simpa [Term.ofText, Term.plain] using own
  have other {k' : TermKind} {y : String} (own : Term.ofText k' y = .ofText k x)
      (apart : k' ≠ .iri ∧ k' ≠ .urn) : False := by
    obtain ⟨rfl, -⟩ := same own
    exact kind.elim apart.1 apart.2
  unfold classifyText at read
  simp only at read
  split_ifs at read with label absolute urn iri name compact
  · exact (other read (by decide)).elim
  · obtain ⟨rfl, rfl⟩ := same read
    exact .inl ⟨rfl, rfl, absolute⟩
  · obtain ⟨rfl, rfl⟩ := same read
    exact .inr ⟨rfl, Bool.eq_false_iff.2 absolute, by simp [schemeKind?, urn]⟩
  · obtain ⟨rfl, rfl⟩ := same read
    exact .inr ⟨rfl, Bool.eq_false_iff.2 absolute, by simp only [schemeKind?, urn, iri]; rfl⟩
  · exact (other read (by decide)).elim
  · exact (other read (by decide)).elim
  · exact (other read (by decide)).elim

theorem trim_angled (u : String) : trim ("<" ++ u ++ ">") = "<" ++ u ++ ">" := by
  have text : ("<" ++ u ++ ">").toList = ('<' :: u.toList) ++ ['>'] := by simp
  have opening : isBlank '<' = false := by decide
  have closing : isBlank '>' = false := by decide
  have kept : trimBy isBlank (('<' :: u.toList) ++ ['>']) = ('<' :: u.toList) ++ ['>'] := by
    rw [trimBy, List.cons_append, List.dropWhile_cons_of_neg (by simp [opening]),
      ← List.cons_append]
    refine dropEndWhile_eq_self fun c last => ?_
    rw [List.getLast?_concat] at last
    exact Option.some.inj last ▸ closing
  rw [trim, trimOf, text, kept, ← text, String.ofList_toList]

theorem unbracket_angled (u : String) : unbracket ("<" ++ u ++ ">") = u := by
  simp [unbracket]

section

variable {p : Option Prefixes} {u : String}

theorem label_angled : startsWith ("<" ++ u ++ ">") "_:" = false := by simp [startsWith, after?]

theorem classifyText_url (absolute : Url.isAbsolute (expandWith p u)) :
    classifyText p ("<" ++ u ++ ">") = .ofText .iri (expandWith p u) := by
  unfold classifyText
  simp only [label_angled, trim_angled, unbracket_angled, absolute]
  rfl

theorem classifyText_name {k : TermKind} (other : Url.isAbsolute (expandWith p u) = false)
    (kind : schemeKind? u = some k) : classifyText p ("<" ++ u ++ ">") = .ofText k u := by
  unfold classifyText
  simp only [label_angled, trim_angled, unbracket_angled, other, Bool.false_eq_true, if_false]
  unfold schemeKind? at kind
  split_ifs at kind with urn iri
  · obtain rfl := Option.some.inj kind
    rw [if_pos urn]
  · obtain rfl := Option.some.inj kind
    rw [if_neg urn, if_pos iri]

end

/-! Variables. -/

theorem isVariable_iff {s : String} : isVariable s ↔
    ∃ mark name, s.toList = mark :: name ∧ isSigil mark ∧ isIdentifierChars name := by
  unfold isVariable
  cases s.toList with
  | nil => simp
  | cons c t => simp [isSigil]

theorem isWord_of_isIdentifierChars {name : List Char} (h : isIdentifierChars name) :
    ∃ c rest, name = c :: rest ∧ isLetterOrLine c ∧ ∀ x ∈ rest, isWord x ∨ x = '\n' := by
  unfold isIdentifierChars at h
  split at h
  · rename_i c rest
    rw [Bool.and_eq_true] at h
    refine ⟨c, rest, rfl, h.1, fun x member => ?_⟩
    rw [← List.takeWhile_append_dropWhile (p := isWord) (l := rest)] at member
    rcases List.mem_append.1 member with word | last
    · exact .inl (List.mem_takeWhile_imp word)
    · have ended := h.2
      simp only [atEnd, Bool.or_eq_true, decide_eq_true_eq] at ended
      rcases ended with none | line
      · rw [none] at last
        cases last
      · rw [line] at last
        exact .inr (List.mem_singleton.1 last)
  · cases h

theorem colon_not_mem_of_isVariable {s : String} (h : isVariable s) : ':' ∉ s.toList := by
  obtain ⟨mark, name, text, sigil, identifier⟩ := isVariable_iff.1 h
  obtain ⟨c, rest, rfl, letter, word⟩ := isWord_of_isIdentifierChars identifier
  rw [text]
  intro member
  rcases List.mem_cons.1 member with rfl | member
  · cases sigil
  · rcases List.mem_cons.1 member with rfl | member
    · cases letter
    · rcases word _ member with inside | line <;> contradiction

theorem toList_trim {s : String} {c : Char} {rest : List Char} (first : s.toList = c :: rest)
    (visible : isBlank c = false) : ∃ kept, (trim s).toList = c :: kept ∧ kept <+: rest := by
  have parts := dropEndWhile_append isBlank s.toList
  rw [trim, trimOf, String.toList_ofList, trimBy, first,
    List.dropWhile_cons_of_neg (by simp [visible]), ← first]
  cases left : dropEndWhile isBlank s.toList with
  | nil =>
    have member : c ∈ (s.toList.reverse.takeWhile isBlank).reverse := by
      rw [left, List.nil_append] at parts
      rw [parts, first]
      exact List.mem_cons_self ..
    rw [List.mem_takeWhile_imp (List.mem_reverse.1 member)] at visible
    cases visible
  | cons d kept =>
    rw [left, first] at parts
    obtain ⟨rfl, own⟩ := List.cons.inj parts
    exact ⟨kept, rfl, _, own⟩

theorem expandWith_of_colon {p : Option Prefixes} {s : String} (none : ':' ∉ s.toList) :
    expandWith p s = s := by
  have whole : cut? ':' s = .none := by
    rw [cut?, Option.map_eq_none_iff, cutAt_eq_none_iff]
    exact notMem_iff_beq.1 none
  cases p with
  | none => rfl
  | some t => simp only [expandWith, Prefixes.expand, whole]

theorem classifyText_of_isVariable (p : Option Prefixes) {s : String} (h : isVariable s) :
    classifyText p s = .ofText .variable s := by
  obtain ⟨mark, name, text, sigil, -⟩ := isVariable_iff.1 h
  have marks : mark = '?' ∨ mark = '$' := by simpa [isSigil] using sigil
  have label : startsWith s "_:" = false := by
    rw [startsWith, text]
    rcases marks with rfl | rfl <;> rfl
  have visible : isBlank mark = false := by rcases marks with rfl | rfl <;> decide
  obtain ⟨kept, trimmed, short⟩ := toList_trim text visible
  have colon : ':' ∉ (trim s).toList := by
    intro member
    refine colon_not_mem_of_isVariable h ?_
    rw [trimmed] at member
    rw [text]
    exact (List.cons_subset_cons mark short.subset) member
  have candidate : unbracket (trim s) = trim s :=
    unbracket_eq_self trimmed (by rcases marks with rfl | rfl <;> decide)
  have relative : Url.isAbsolute (trim s) = false := by
    refine Bool.eq_false_iff.2 fun absolute => colon ?_
    obtain ⟨front, rest, whole, -⟩ := Url.exists_leading absolute
    simp [whole]
  have urn : isUrn (trim s) = false := by
    rw [isUrn, trimmed]
    rcases marks with rfl | rfl <;> rfl
  have iri : isIri (trim s) = false := by
    rw [isIri, trimmed]
    rcases marks with rfl | rfl <;> rfl
  unfold classifyText
  simp only [label, candidate, expandWith_of_colon colon, relative, urn, iri, h]
  rfl

end SparqlClient
