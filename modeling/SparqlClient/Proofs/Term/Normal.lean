import Mathlib.Data.List.Infix
import Mathlib.Data.List.TakeWhile
import SparqlClient.Proofs.Statement.Prologue
import SparqlClient.Proofs.Term.Named
import SparqlClient.Term.Render

/-! The written form of IRIs. Between host and query, slashes behind slashes are dropped. Main
statements: a second pass drops none, and an IRI in this form is a URL, a URN or an IRI where it was
one before. -/

namespace SparqlClient

open Text Shape

/-- The second text is the first one without some of the slashes behind slashes. -/
inductive Squeezed : List Char → List Char → Prop
  | nil : Squeezed [] []
  | cons (c : Char) {s t : List Char} (rest : Squeezed s t) : Squeezed (c :: s) (c :: t)
  | drop {s t : List Char} (rest : Squeezed ('/' :: s) t) : Squeezed ('/' :: '/' :: s) t

namespace Squeezed

variable {s t : List Char}

theorem refl (s : List Char) : Squeezed s s := by
  induction s with
  | nil => exact .nil
  | cons c s ih => exact .cons c ih

theorem append (h : Squeezed s t) {s' t' : List Char} (h' : Squeezed s' t') :
    Squeezed (s ++ s') (t ++ t') := by
  induction h with
  | nil => exact h'
  | cons c _ ih => exact .cons c ih
  | drop _ ih => exact .drop ih

theorem head? (h : Squeezed s t) : t.head? = s.head? := by
  induction h with
  | nil => rfl
  | cons c _ _ => rfl
  | drop _ ih => exact ih

theorem getLast? (h : Squeezed s t) : t.getLast? = s.getLast? := by
  induction h with
  | nil => rfl
  | cons c _ ih => rw [List.getLast?_cons, List.getLast?_cons, ih]
  | drop _ ih => simpa [List.getLast?_cons] using ih

theorem front (h : Squeezed s t) {w : List Char} (other : '/' ∉ w) (front : w <+: t) :
    w <+: s := by
  induction h generalizing w with
  | nil => exact front
  | cons c _ ih =>
    cases w with
    | nil => exact List.nil_prefix
    | cons x w =>
      obtain ⟨rfl, behind⟩ := List.cons_prefix_cons.1 front
      rw [List.mem_cons, not_or] at other
      exact List.cons_prefix_cons.2 ⟨rfl, ih other.2 behind⟩
  | drop _ ih =>
    cases w with
    | nil => exact List.nil_prefix
    | cons x w =>
      obtain ⟨rfl, -⟩ := List.cons_prefix_cons.1 (ih other front)
      exact absurd (List.mem_cons_self ..) other

theorem inside (h : Squeezed s t) {w : List Char} (other : '/' ∉ w) (inside : w <:+: t) :
    w <:+: s := by
  induction h with
  | nil => exact inside
  | cons c rest ih =>
    rcases List.infix_cons_iff.1 inside with front | behind
    · exact ((rest.cons c).front other front).isInfix
    · exact (ih behind).trans (List.suffix_cons ..).isInfix
  | drop _ ih => exact (ih inside).trans (List.suffix_cons ..).isInfix

end Squeezed

theorem squeezed_squeezeSlashes (s : List Char) :
    Squeezed s (squeezeSlashes false s) ∧ Squeezed ('/' :: s) ('/' :: squeezeSlashes true s) := by
  induction s with
  | nil => exact ⟨.nil, .refl _⟩
  | cons c s ih =>
    by_cases slash : c = '/'
    · subst slash
      exact ⟨ih.2, .drop ih.2⟩
    · have same (seen : Bool) : squeezeSlashes seen (c :: s) = c :: squeezeSlashes false s := by
        rw [squeezeSlashes]
        simpa using slash
      rw [same, same]
      exact ⟨.cons c ih.1, .cons '/' (.cons c ih.1)⟩

theorem squeezeSlashes_idem (seen : Bool) (s : List Char) :
    squeezeSlashes seen (squeezeSlashes seen s) = squeezeSlashes seen s := by
  fun_induction squeezeSlashes seen s with
  | case1 => rfl
  | case2 s ih => exact ih
  | case3 seen s unseen ih => rw [squeezeSlashes, if_neg unseen, ih]
  | case4 seen c s other ih =>
    rw [squeezeSlashes, ih]
    exact other

theorem mem_of_squeezeSlashes {c : Char} {seen : Bool} {s : List Char}
    (h : c ∈ squeezeSlashes seen s) : c ∈ s := by
  fun_induction squeezeSlashes seen s with
  | case1 => exact h
  | case2 s ih => exact List.mem_cons_of_mem _ (ih h)
  | case3 seen s _ ih =>
    rcases List.mem_cons.1 h with rfl | later
    · exact List.mem_cons_self ..
    · exact List.mem_cons_of_mem _ (ih later)
  | case4 seen d s _ ih =>
    rcases List.mem_cons.1 h with rfl | later
    · exact List.mem_cons_self ..
    · exact List.mem_cons_of_mem _ (ih later)

/-! A host, the path behind its slash, and the query with its mark. -/

def IsQuery (query : List Char) : Prop := ∀ c ∈ query.head?, c = '?'

theorem squeezePath_host {host path query : List Char} (first : '/' ∉ host) (second : '?' ∉ path)
    (marked : IsQuery query) :
    squeezePath (host ++ '/' :: (path ++ query)) =
      host ++ '/' :: (squeezeSlashes true path ++ query) := by
  have cut : cutAt (· == '/') (host ++ '/' :: (path ++ query)) = some (host, path ++ query) :=
    cutAt_append (notMem_iff_beq.1 first) (beq_self_eq_true _)
  have plain := notMem_iff_beq.1 second
  unfold squeezePath
  rw [cut]
  cases query with
  | nil =>
    simp only [List.append_nil, cutAt_eq_none_iff.2 plain]
    rfl
  | cons c query =>
    obtain rfl : c = '?' := marked c rfl
    have cut' : cutAt (· == '?') (path ++ '?' :: query) = some (path, query) :=
      cutAt_append plain (beq_self_eq_true _)
    simp only [cut', List.append_assoc]
    rfl

theorem path_cases (rest : List Char) : '/' ∉ rest ∨ ∃ host path query,
    rest = host ++ '/' :: (path ++ query) ∧ '/' ∉ host ∧ '?' ∉ path ∧ IsQuery query := by
  cases cut : cutAt (· == '/') rest with
  | none => exact .inl (notMem_iff_beq.2 (cutAt_eq_none_iff.1 cut))
  | some parts =>
    obtain ⟨host, remainder⟩ := parts
    obtain ⟨d, slash, rfl⟩ := eq_of_cutAt cut
    obtain rfl : d = '/' := by simpa using slash
    refine .inr ?_
    have first := notMem_iff_beq.2 (forall_not_of_cutAt cut)
    cases cut' : cutAt (· == '?') remainder with
    | none =>
      have second := notMem_iff_beq.2 (cutAt_eq_none_iff.1 cut')
      exact ⟨host, remainder, [], by simp, first, second, by simp [IsQuery]⟩
    | some parts =>
      obtain ⟨path, query⟩ := parts
      obtain ⟨d, mark, rfl⟩ := eq_of_cutAt cut'
      obtain rfl : d = '?' := by simpa using mark
      have second := notMem_iff_beq.2 (forall_not_of_cutAt cut')
      exact ⟨host, path, '?' :: query, rfl, first, second, by simp [IsQuery]⟩

theorem squeezePath_eq_self {rest : List Char} (h : '/' ∉ rest) : squeezePath rest = rest := by
  have whole : cutAt (· == '/') rest = none := cutAt_eq_none_iff.2 (notMem_iff_beq.1 h)
  rw [squeezePath, whole]

theorem squeezePath_idem (rest : List Char) :
    squeezePath (squeezePath rest) = squeezePath rest := by
  rcases path_cases rest with none | ⟨host, path, query, rfl, first, second, marked⟩
  · rw [squeezePath_eq_self none, squeezePath_eq_self none]
  · rw [squeezePath_host first second marked,
      squeezePath_host first (fun member => second (mem_of_squeezeSlashes member)) marked,
      squeezeSlashes_idem]

theorem squeezed_squeezePath (rest : List Char) : Squeezed rest (squeezePath rest) := by
  rcases path_cases rest with none | ⟨host, path, query, rfl, first, second, marked⟩
  · rw [squeezePath_eq_self none]
    exact .refl rest
  · rw [squeezePath_host first second marked]
    exact (Squeezed.refl host).append ((squeezed_squeezeSlashes path).2.append (.refl query))

theorem takeWhile_squeezePath {p : Char → Bool} (slash : p '/' = false) (rest : List Char) :
    (squeezePath rest).takeWhile p = rest.takeWhile p := by
  rcases path_cases rest with none | ⟨host, path, query, rfl, first, second, marked⟩
  · rw [squeezePath_eq_self none]
  · rw [squeezePath_host first second marked, List.takeWhile_append, List.takeWhile_append,
      List.takeWhile_cons_of_neg (by simp [slash]), List.takeWhile_cons_of_neg (by simp [slash])]

/-! The scheme. -/

def IsScheme (front : List Char) : Prop :=
  ∃ c name, front = c :: name ∧ c.isAlpha ∧ ∀ x ∈ name, isUrlSchemeChar x

theorem IsScheme.colon_not_mem {front : List Char} (h : IsScheme front) : ':' ∉ front := by
  obtain ⟨c, name, rfl, letter, word⟩ := h
  intro member
  rcases List.mem_cons.1 member with rfl | later
  · cases letter
  · cases word _ later

theorem schemeCut?_eq_some_iff {s scheme rest : List Char} : schemeCut? s = some (scheme, rest) ↔
    ∃ front, IsScheme front ∧ scheme = front ++ [':', '/', '/'] ∧ s = scheme ++ rest := by
  constructor
  · intro cut
    have whole := append_of_schemeCut? cut
    unfold schemeCut? at cut
    split at cut
    · rename_i c t
      simp only at cut
      split at cut
      · rename_i letter
        obtain ⟨rest', -, cut⟩ := Option.bind_eq_some_iff.1 cut
        split at cut
        · obtain ⟨rfl, rfl⟩ := Prod.mk.inj (Option.some.inj cut)
          have word : ∀ x ∈ t.takeWhile isUrlSchemeChar, isUrlSchemeChar x :=
            fun x member => List.mem_takeWhile_imp member
          exact ⟨_, ⟨c, _, rfl, letter, word⟩, rfl, whole.symm⟩
        · cases cut
      · cases cut
    · cases cut
  · rintro ⟨front, ⟨c, name, rfl, letter, word⟩, rfl, rfl⟩
    have run : (name ++ ':' :: '/' :: '/' :: rest).takeWhile isUrlSchemeChar = name :=
      takeWhile_append_of_stop word (by simp; decide)
    have shape : c :: name ++ [':', '/', '/'] ++ rest =
        c :: (name ++ ':' :: '/' :: '/' :: rest) := by simp
    rw [shape, schemeCut?]
    simp [run, letter, after?]

/-- The written form is the text itself, or differs from it in the path of a URL. -/
theorem normalizeIriChars_cases (s : List Char) : normalizeIriChars s = s ∨ ∃ front rest,
    IsScheme front ∧ s = front ++ ':' :: '/' :: '/' :: rest ∧
      normalizeIriChars s = front ++ ':' :: '/' :: '/' :: squeezePath rest := by
  unfold normalizeIriChars
  split
  · exact .inl rfl
  · rename_i scheme rest cut
    obtain ⟨front, own, rfl, rfl⟩ := schemeCut?_eq_some_iff.1 cut
    exact .inr ⟨front, rest, own, by simp, by simp⟩

theorem normalizeIriChars_idem (s : List Char) :
    normalizeIriChars (normalizeIriChars s) = normalizeIriChars s := by
  cases cut : schemeCut? s with
  | none => simp only [normalizeIriChars, cut]
  | some parts =>
    obtain ⟨scheme, rest⟩ := parts
    obtain ⟨front, own, same, -⟩ := schemeCut?_eq_some_iff.1 cut
    have again : schemeCut? (scheme ++ squeezePath rest) = some (scheme, squeezePath rest) :=
      schemeCut?_eq_some_iff.2 ⟨front, own, same, rfl⟩
    simp only [normalizeIriChars, cut, again, squeezePath_idem]

theorem squeezed_normalizeIriChars (s : List Char) : Squeezed s (normalizeIriChars s) := by
  rcases normalizeIriChars_cases s with same | ⟨front, rest, -, whole, form⟩
  · rw [same]
    exact .refl s
  · rw [form, whole]
    refine (Squeezed.refl front).append (.cons ':' (.cons '/' (.cons '/' ?_)))
    exact squeezed_squeezePath rest

/-! Texts without outer blanks and without angle brackets: nothing else is lost. -/

structure IsTidy (s : List Char) : Prop where
  first : ∀ c ∈ s.head?, isBlank c = false
  last : ∀ c ∈ s.getLast?, isBlank c = false
  plain : ∀ c ∈ s, Prefixes.isAngle c = false

namespace IsTidy

variable {s : List Char}

theorem normalizeIriChars (h : IsTidy s) : IsTidy (normalizeIriChars s) where
  first := (squeezed_normalizeIriChars s).head? ▸ h.first
  last := (squeezed_normalizeIriChars s).getLast? ▸ h.last
  plain := (forall_mem_normalizeIriChars (by decide)).2 h.plain

theorem trimBy_eq (h : IsTidy s) : trimBy isBlank s = s := by
  have started : s.dropWhile isBlank = s := by
    cases s with
    | nil => rfl
    | cons c s => exact List.dropWhile_cons_of_neg (by simp [h.first c rfl])
  rw [trimBy, started]
  exact dropEndWhile_eq_self h.last

theorem not_mem (h : IsTidy s) : '<' ∉ s ∧ '>' ∉ s :=
  ⟨fun member => absurd (h.plain _ member) (by decide),
    fun member => absurd (h.plain _ member) (by decide)⟩

end IsTidy

theorem normalizeIri_of_isTidy {s : String} (h : IsTidy s.toList) :
    normalizeIri s = String.ofList (normalizeIriChars s.toList) := by
  have opened : dropOpening s.toList = s.toList := by
    unfold dropOpening
    split
    · rename_i rest text
      exact absurd (text ▸ List.mem_cons_self ..) h.not_mem.1
    · rfl
  have closed : dropClosing s.toList = s.toList :=
    if_neg fun last => h.not_mem.2 (List.mem_of_getLast? last)
  rw [normalizeIri, h.trimBy_eq, opened, closed]

theorem isTidy_normalizeIri {s : String} (h : IsTidy s.toList) :
    IsTidy (normalizeIri s).toList := by
  rw [normalizeIri_of_isTidy h, String.toList_ofList]
  exact h.normalizeIriChars

theorem normalizeIri_idem {s : String} (h : IsTidy s.toList) :
    normalizeIri (normalizeIri s) = normalizeIri s := by
  rw [normalizeIri_of_isTidy (isTidy_normalizeIri h), normalizeIri_of_isTidy h,
    String.toList_ofList, normalizeIriChars_idem]

/-! What a text is taken for. If it has the form of a URL, what stands behind the host does not
count. -/

theorem isLatin_of_isAlpha {c : Char} (h : c.isAlpha) : isLatin c := by
  have small : c.toNat < 128 := by
    rw [Statement.isAlpha_iff] at h
    omega
  have letters : ∀ n < 128, (Char.ofNat n).isAlpha → isLatin (Char.ofNat n) := by decide +kernel
  rw [← Char.ofNat_toNat c] at h ⊢
  exact letters _ small h

namespace IsScheme

variable {s : String} {front rest : List Char}

theorem isFull (h : IsScheme front) (text : s.toList = front ++ ':' :: '/' :: '/' :: rest) :
    Prefixes.IsFull s := by
  refine ⟨String.ofList front, String.ofList rest, ?_, ?_⟩
  · rw [← String.toList_inj, text]
    simp
  · rw [String.toList_ofList]
    exact h.colon_not_mem

theorem schemeAndRest (h : IsScheme front) (text : s.toList = front ++ ':' :: '/' :: '/' :: rest)
    (visible : ∀ x ∈ s.toList, isBlank x = false) :
    Url.schemeAndRest (Url.cleaned s.toList) = (front.map Char.toLower, '/' :: '/' :: rest) := by
  have cut : cutAt (· == ':') (front ++ ':' :: '/' :: '/' :: rest) =
      some (front, '/' :: '/' :: rest) :=
    cutAt_append (notMem_iff_beq.1 h.colon_not_mem) (beq_self_eq_true _)
  obtain ⟨c, name, rfl, letter, word⟩ := h
  have printed : ¬c.toNat ≤ 32 := by
    rw [Statement.isAlpha_iff] at letter
    omega
  have scheme : (c.isAlpha && name.all Url.isSchemeChar) = true := by
    rw [letter, Bool.true_and, List.all_eq_true]
    intro x member
    have inside := word x member
    simp only [isUrlSchemeChar, Url.isSchemeChar, Bool.or_eq_true, decide_eq_true_eq] at inside ⊢
    tauto
  rw [Url.cleaned_of_visible visible, text, List.cons_append,
    List.dropWhile_cons_of_neg (by simpa using printed), ← List.cons_append, Url.schemeAndRest, cut]
  exact if_pos scheme

theorem isIri (h : IsScheme front) (text : s.toList = front ++ ':' :: '/' :: '/' :: rest) :
    isIri s := by
  obtain ⟨c, name, rfl, letter, word⟩ := h
  have inside : ∀ x ∈ name, Shape.isSchemeChar x := by
    intro x member
    have own := word x member
    simp only [isUrlSchemeChar, Shape.isSchemeChar, Char.isAlphanum, Bool.or_eq_true,
      decide_eq_true_eq] at own ⊢
    rcases own with (((alpha | digit) | plus) | dot) | dash
    · exact .inl (.inl (.inl (.inl (isLatin_of_isAlpha alpha))))
    · exact .inl (.inl (.inl (.inr digit)))
    · exact .inl (.inl (.inr plus))
    · exact .inl (.inr dot)
    · exact .inr dash
  have behind : (name ++ ':' :: '/' :: '/' :: rest).dropWhile Shape.isSchemeChar =
      ':' :: '/' :: '/' :: rest := by
    rw [List.dropWhile_append_of_pos inside]
    rfl
  rw [Shape.isIri, text]
  simp only [List.cons_append, behind, isLatin_of_isAlpha letter]
  rfl

theorem isUrn_iff (h : IsScheme front) (text : s.toList = front ++ ':' :: '/' :: '/' :: rest) :
    isUrn s ↔ front.map fold = ['u', 'r', 'n'] := by
  unfold isUrn
  constructor
  · intro urn
    cases word : afterWord? ['u', 'r', 'n'] s.toList with
    | none => simp [word] at urn
    | some r =>
      obtain ⟨v, whole, keyword⟩ := Statement.afterWord?_eq_some_iff.1 word
      have apart : ∀ c ∈ ['u', 'r', 'n'], c ≠ fold ':' ∧ c ≠ fold '/' := by decide
      have plain : ':' ∉ v ∧ '/' ∉ v :=
        ⟨fun member => (apart _ (keyword ▸ List.mem_map_of_mem member)).1 rfl,
          fun member => (apart _ (keyword ▸ List.mem_map_of_mem member)).2 rfl⟩
      have ending : (∃ t, r = ':' :: t) ∨ r = [] ∨ r = ['\n'] := by
        rw [word] at urn
        split at urn
        · rename_i t same
          exact .inl ⟨t, Option.some.inj same⟩
        · rename_i same
          obtain rfl := Option.some.inj same
          exact .inr (by simpa [atEnd] using urn)
        · cases urn
      have slash : '/' ∈ v ++ r := by simp [← whole, text]
      -- the colon behind the word is the one behind the scheme, and no text ends in front of it
      rcases ending with ⟨t, rfl⟩ | rfl | rfl
      · have early : cutAt (· == ':') s.toList = some (v, t) := by
          rw [whole]
          exact cutAt_append (notMem_iff_beq.1 plain.1) (beq_self_eq_true _)
        have own : cutAt (· == ':') s.toList = some (front, '/' :: '/' :: rest) := by
          rw [text]
          exact cutAt_append (notMem_iff_beq.1 h.colon_not_mem) (beq_self_eq_true _)
        obtain rfl : v = front := (Prod.mk.inj (Option.some.inj (early.symm.trans own))).1
        exact keyword
      · exact absurd slash (by simpa using plain.2)
      · exact absurd slash (by simpa using plain.2)
  · intro keyword
    have word : afterWord? ['u', 'r', 'n'] s.toList = some (':' :: '/' :: '/' :: rest) :=
      Statement.afterWord?_eq_some_iff.2 ⟨front, text, keyword⟩
    simp only [word]

theorem isAbsolute_congr {t : String} {other : List Char} (h : IsScheme front)
    (text : s.toList = front ++ ':' :: '/' :: '/' :: rest)
    (text' : t.toList = front ++ ':' :: '/' :: '/' :: other) (blank : hasBlank t = hasBlank s)
    (host : ∀ p : Char → Bool, p '/' = false → other.takeWhile p = rest.takeWhile p) :
    Url.isAbsolute t = Url.isAbsolute s := by
  cases spaced : hasBlank s with
  | true => simp only [Url.isAbsolute, blank, spaced, Bool.not_true, Bool.false_and]
  | false =>
    have visible : ∀ x ∈ s.toList, isBlank x = false := by simpa [hasBlank] using spaced
    have visible' : ∀ x ∈ t.toList, isBlank x = false := by
      simpa [hasBlank] using blank.trans spaced
    have authority : Url.authorityOf ('/' :: '/' :: other) = Url.authorityOf ('/' :: '/' :: rest) :=
      host _ (by decide)
    have same : Url.split? t = Url.split? s := by
      unfold Url.split?
      simp only [h.schemeAndRest text visible, h.schemeAndRest text' visible', authority]
    rw [Url.isAbsolute, Url.isAbsolute, blank, same]

end IsScheme

/-! What the written form `u` of a text `s` is taken for. -/

section

variable {s u : String}

theorem hasBlank_normal (form : u.toList = normalizeIriChars s.toList) :
    hasBlank u = hasBlank s := by
  have same : (∀ c ∈ u.toList, isBlank c = false) ↔ ∀ c ∈ s.toList, isBlank c = false := by
    rw [form]
    exact forall_mem_normalizeIriChars (by decide)
  rw [Bool.eq_iff_iff, ← not_iff_not]
  simpa [hasBlank] using same

theorem isAbsolute_normal (form : u.toList = normalizeIriChars s.toList) :
    Url.isAbsolute u = Url.isAbsolute s := by
  rcases normalizeIriChars_cases s.toList with same | ⟨front, rest, scheme, text, written⟩
  · rw [String.toList_inj.1 (form.trans same)]
  · exact scheme.isAbsolute_congr text (form.trans written) (hasBlank_normal form)
      fun p slash => takeWhile_squeezePath slash rest

theorem isAbsolute_expandWith_normal (form : u.toList = normalizeIriChars s.toList)
    (p : Option Prefixes) : Url.isAbsolute (expandWith p u) = Url.isAbsolute (expandWith p s) := by
  cases p with
  | none => exact isAbsolute_normal form
  | some t =>
    rcases normalizeIriChars_cases s.toList with same | ⟨front, rest, scheme, text, written⟩
    · rw [String.toList_inj.1 (form.trans same)]
    · have whole : t.expand s = s := t.expand_of_isFull (scheme.isFull text)
      have whole' : t.expand u = u := t.expand_of_isFull (scheme.isFull (form.trans written))
      simpa only [expandWith, whole, whole'] using isAbsolute_normal form

theorem schemeKind?_normal (form : u.toList = normalizeIriChars s.toList) :
    schemeKind? u = schemeKind? s := by
  rcases normalizeIriChars_cases s.toList with same | ⟨front, rest, scheme, text, written⟩
  · rw [String.toList_inj.1 (form.trans same)]
  · have urn : isUrn u = isUrn s := by
      rw [Bool.eq_iff_iff, scheme.isUrn_iff text, scheme.isUrn_iff (form.trans written)]
    simp only [schemeKind?, urn, scheme.isIri text, scheme.isIri (form.trans written),
      hasBlank_normal form]

end

end SparqlClient
