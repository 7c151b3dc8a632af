import SparqlClient.Proofs.Term.Aliased
import SparqlClient.Proofs.Term.Normal

/-! Texts that are written a second time. Main statement: where neither the text nor the table has
angle brackets, what is written for a text is written for itself, and without an alias it is of the
same kind as the text. -/

namespace SparqlClient

open Text Shape

def rewritten (p : Option Prefixes) (s : String) : String := (classifyText p s).render p

/-- Written a second time, `w` is of the same kind and stays as it is; in place of the first text it
brings no alias. -/
structure Stays (p : Option Prefixes) (s w : String) : Prop where
  kind : (classifyText p w).kind = (classifyText p s).kind
  again : rewritten p w = w
  place : StandsFor s.toList w.toList

def IsUnangled (s : String) : Prop := ∀ c ∈ s.toList, Prefixes.isAngle c = false

theorem unbracket_of_isUnangled {s : String} (plain : IsUnangled s) : unbracket s = s := by
  cases text : s.toList with
  | nil => simp [unbracket, text]
  | cons c rest =>
    refine unbracket_eq_self text ?_
    rintro rfl
    exact absurd (plain '<' (by simp [text])) (by decide)

theorem isTidy_trim {s : String} (plain : IsUnangled s) : IsTidy (trim s).toList := by
  rw [trim, trimOf, String.toList_ofList]
  refine ⟨first_of_trimBy s.toList, stop_of_dropEndWhile _, fun c member => plain c ?_⟩
  exact (isInfix_trimBy isBlank s.toList).subset member

theorem isUnangled_expandWith {p : Option Prefixes} {s : String}
    (table : ∀ t, p = some t → ∀ e ∈ t.entries, IsUnangled e.2) (plain : IsUnangled s) :
    IsUnangled (expandWith p s) := by
  cases p with
  | none => exact plain
  | some t =>
    unfold expandWith Prefixes.expand
    simp only
    split
    · exact plain
    · rename_i name rest cut
      split
      · exact plain
      · split
        · rename_i iri known
          obtain ⟨e, found, rfl⟩ := Option.map_eq_some_iff.1 known
          obtain ⟨⟨a, b⟩, parts, same⟩ := Option.map_eq_some_iff.1 cut
          obtain ⟨rfl, rfl⟩ := Prod.mk.inj same
          obtain ⟨c, -, whole⟩ := eq_of_cutAt parts
          rw [IsUnangled, String.toList_append, List.forall_mem_append, String.toList_ofList]
          refine ⟨table t rfl e (List.mem_of_find?_eq_some found), fun x member => plain x ?_⟩
          simp [whole, member]
        · exact plain

theorem stays_of_unchanged {p : Option Prefixes} {s : String} {k : TermKind}
    (read : classifyText p s = .ofText k s) (bare : k = .blank ∨ k = .compact ∨ k = .raw) :
    Stays p s (rewritten p s) := by
  have same : rewritten p s = s := by
    rw [rewritten, read]
    rcases bare with rfl | rfl | rfl <;> rfl
  rw [same]
  exact ⟨rfl, same, .refl _⟩

theorem toList_withMark {s : String} {mark : Char} {name : List Char}
    (text : s.toList = mark :: name) (sigil : isSigil mark) (identifier : isIdentifierChars name) :
    (withMark s).toList = '?' :: name := by
  obtain ⟨c, rest, rfl, letter, -⟩ := isWord_of_isIdentifierChars identifier
  have stop : isSigil c = false := by
    refine Bool.eq_false_iff.2 fun own => ?_
    simp only [isSigil, Bool.or_eq_true, decide_eq_true_eq] at own
    rcases own with rfl | rfl <;> cases letter
  simp [withMark, trimStartOf, text, sigil, stop]

theorem stays_of_isVariable (p : Option Prefixes) {s : String} (h : isVariable s) :
    Stays p s (rewritten p s) := by
  obtain ⟨mark, name, text, sigil, identifier⟩ := isVariable_iff.1 h
  have shape : rewritten p s = withMark s := by
    rw [rewritten, classifyText_of_isVariable p h]
    rfl
  have marked := toList_withMark text sigil identifier
  have named : isVariable (withMark s) := isVariable_iff.2 ⟨'?', name, marked, rfl, identifier⟩
  have read := classifyText_of_isVariable p named
  obtain ⟨c, rest, own, -⟩ := isWord_of_isIdentifierChars identifier
  rw [shape]
  refine ⟨by rw [read, classifyText_of_isVariable p h]; rfl, ?_, ?_⟩
  · rw [rewritten, read, ← String.toList_inj]
    exact (toList_withMark marked rfl identifier).trans marked.symm
  · rw [marked, text]
    refine ⟨fun tail aliased => ?_, fun _ => by simp; decide, fun ended => ?_,
      fun none => by cases none⟩
    · have behind := isAliased_between (a := []) (by decide) (by decide) aliased
      exact isAliased_cons.2 (.inr (behind.resolve_left not_isAliased_nil))
    · simpa [own, List.getLast?_cons_cons] using ended

/-- A resource as it is written: nothing but slashes is lost, and it is read for itself. -/
structure Names (p : Option Prefixes) (s : String) (k : TermKind) (x : String) : Prop where
  tidy : IsTidy x.toList
  joints : ∀ j, IsJoint j → j <:+: x.toList → j <:+: s.toList
  read : classifyText p ("<" ++ normalizeIri x ++ ">") = .ofText k (normalizeIri x)

theorem isTidy_of_visible {x : String} (visible : ∀ c ∈ x.toList, isBlank c = false)
    (plain : IsUnangled x) : IsTidy x.toList where
  first c member := visible c (List.mem_of_head? member)
  last c member := visible c (List.mem_of_getLast? member)
  plain := plain

theorem names_of_classifyText {p : Option Prefixes} {s x : String} {k : TermKind}
    (table : ∀ t, p = some t → ∀ e ∈ t.entries, IsUnangled e.2) (plain : IsUnangled s)
    (read : classifyText p s = .ofText k x) (kind : k = .iri ∨ k = .urn) : Names p s k x := by
  have tidy := isTidy_trim plain
  have bare : unbracket (trim s) = trim s := unbracket_of_isUnangled tidy.plain
  have form (own : IsTidy x.toList) : (normalizeIri x).toList = normalizeIriChars x.toList := by
    rw [normalizeIri_of_isTidy own, String.toList_ofList]
  rcases resource_of_classifyText read kind with ⟨rfl, whole, absolute⟩ | ⟨whole, other, scheme⟩
  · rw [bare] at whole
    have visible := Url.isBlank_of_isAbsolute absolute
    have own : IsTidy x.toList :=
      isTidy_of_visible visible (whole ▸ isUnangled_expandWith table tidy.plain)
    have absolute' : Url.isAbsolute (normalizeIri x) := by rwa [isAbsolute_normal (form own)]
    have expanded : expandWith p (normalizeIri x) = normalizeIri x := by
      cases p with
      | none => rfl
      | some t => exact Url.expand_of_isAbsolute absolute' t
    refine ⟨own, fun j joint inside => ?_, ?_⟩
    · obtain ⟨b, rest, rfl, blank⟩ := joint.exists_head
      rw [visible b (inside.subset (List.mem_cons_self ..))] at blank
      cases blank
    · have reached : Url.isAbsolute (expandWith p (normalizeIri x)) := expanded.symm ▸ absolute'
      rw [classifyText_url reached, expanded]
  · rw [bare] at whole
    subst whole
    refine ⟨tidy, fun j _ inside => ?_, classifyText_name ?_ ?_⟩
    · rw [trim, trimOf, String.toList_ofList] at inside
      exact inside.trans (isInfix_trimBy isBlank s.toList)
    · rw [isAbsolute_expandWith_normal (form tidy), other]
    · rw [schemeKind?_normal (form tidy), scheme]

theorem Names.stays {p : Option Prefixes} {s x : String} {k : TermKind} (h : Names p s k x)
    (read : classifyText p s = .ofText k x) (kind : k = .iri ∨ k = .urn) :
    Stays p s (rewritten p s) := by
  have shape : rewritten p s = angled x := by
    rw [rewritten, read]
    rcases kind with rfl | rfl <;> rfl
  have text : (angled x).toList = '<' :: ((normalizeIri x).toList ++ ['>']) := by simp [angled]
  rw [shape]
  refine ⟨?_, ?_, ?_⟩
  · rw [angled, h.read, read]
    rfl
  · rw [rewritten, angled, h.read]
    have again : angled (normalizeIri x) = angled x := by
      rw [angled, normalizeIri_idem h.tidy, angled]
    rcases kind with rfl | rfl <;> exact again
  · rw [text]
    refine ⟨fun tail aliased => ?_, fun _ => by simp; decide, fun _ => ?_,
      fun none => by cases none⟩
    · have behind := isAliased_between (a := []) (by decide) (by decide) aliased
      have inner : IsAliased ((normalizeIri x).toList ++ '>' :: tail) := by
        simpa using behind.resolve_left not_isAliased_nil
      rcases isAliased_between (by decide) (by decide) inner with
        ⟨j, joint, inside⟩ | ⟨j, joint, inside⟩
      · rw [normalizeIri_of_isTidy h.tidy, String.toList_ofList] at inside
        have slash := joint.not_mem (c := '/') (by decide) (by decide)
        have source := h.joints j joint ((squeezed_normalizeIriChars x.toList).inside slash inside)
        exact ⟨j, joint, source.trans (List.prefix_append ..).isInfix⟩
      · exact ⟨j, joint, inside.trans (List.suffix_append ..).isInfix⟩
    · rintro c last
      rw [← List.cons_append, List.getLast?_concat] at last
      obtain rfl := Option.some.inj last
      decide

theorem stays_rewritten {p : Option Prefixes} {s : String}
    (table : ∀ t, p = some t → ∀ e ∈ t.entries, IsUnangled e.2) (plain : IsUnangled s) :
    Stays p s (rewritten p s) := by
  rcases classifyText_cases p s with ⟨-, label⟩ | ⟨k, x, read, kind⟩ | ⟨mark, -⟩ | ⟨k, own, kind⟩
  · exact stays_of_unchanged label (.inl rfl)
  · exact (names_of_classifyText table plain read kind).stays read kind
  · exact stays_of_isVariable p mark
  · exact stays_of_unchanged own (.inr kind)

theorem subset_of_mem_aliasParts {s part : List Char} (h : part ∈ aliasParts s) : part ⊆ s := by
  induction s using aliasParts.induct with
  | case1 s none =>
    rw [aliasParts_of_none none] at h
    exact List.mem_singleton.1 h ▸ List.Subset.refl _
  | case2 s a b cut ih =>
    obtain ⟨⟨j, -, rfl⟩, -⟩ := aliasCut?_eq_some_iff.1 cut
    rw [aliasParts_of_some cut] at h
    rcases List.mem_cons.1 h with rfl | later
    · exact List.subset_append_left ..
    · exact fun c member => List.mem_append_right _ (List.mem_append_right _ (ih later member))

theorem wrap_text (t : Prefixes) (s : String) : wrap t (.text s) = String.intercalate " as "
    ((aliasParts s.toList).map fun part => rewritten (some t) (String.ofList part)) := rfl

theorem aliasParts_wrap {t : Prefixes} {s : String}
    (each : ∀ part ∈ aliasParts s.toList,
      Stays (some t) (String.ofList part) (rewritten (some t) (String.ofList part))) :
    aliasParts (wrap t (.text s)).toList =
      (aliasParts s.toList).map fun part => (rewritten (some t) (String.ofList part)).toList := by
  have parts : Parted ((aliasParts s.toList).map fun part =>
      (rewritten (some t) (String.ofList part)).toList) := by
    refine (parted_aliasParts s.toList).of_standsFor ?_
    rw [List.forall₂_map_right_iff, List.forall₂_same]
    intro part member
    simpa using (each part member).place
  have text : (wrap t (.text s)).toList = asJoint.intercalate ((aliasParts s.toList).map fun part =>
      (rewritten (some t) (String.ofList part)).toList) := by
    rw [wrap_text, String.toList_intercalate, List.map_map]
    rfl
  rw [text, aliasParts_intercalate parts]

/-- Where neither the text nor the table has angle brackets, what is written for a text, alias by
alias, is written for itself. It is of the same kind as a text without an alias. -/
theorem wrap_wrap {t : Prefixes} {s : String} (plain : ∀ c ∈ s.toList, Prefixes.isAngle c = false)
    (table : ∀ e ∈ t.entries, ∀ c ∈ e.2.toList, Prefixes.isAngle c = false) :
    wrap t (.text (wrap t (.text s))) = wrap t (.text s) ∧
      (¬IsAliased s.toList → (classify (some t) (.text (wrap t (.text s)))).kind =
        (classify (some t) (.text s)).kind) := by
  have each : ∀ part ∈ aliasParts s.toList,
      Stays (some t) (String.ofList part) (rewritten (some t) (String.ofList part)) := by
    refine fun part member => stays_rewritten (fun _ own => Option.some.inj own ▸ table) ?_
    intro c inside
    rw [String.toList_ofList] at inside
    exact plain c (subset_of_mem_aliasParts member inside)
  constructor
  · rw [wrap_text t (wrap t (.text s)), aliasParts_wrap each, List.map_map, wrap_text t s]
    refine congrArg _ (List.map_congr_left fun part member => ?_)
    simpa using (each part member).again
  · intro bare
    have parts := aliasParts_of_none (aliasCut?_eq_none_iff.2 bare)
    have whole : wrap t (.text s) = rewritten (some t) s := by simp [wrap_text, parts]
    have kept := (each s.toList (by simp [parts])).kind
    rw [String.ofList_toList] at kept
    rw [classify_text, classify_text, whole, kept]

theorem wrap_wrap_aliased :
    (wrap ⟨[("ex", "http://e.org//n/")]⟩ (.text (wrap ⟨[("ex", "http://e.org//n/")]⟩
        (.text "ex:a//b  AS $x as ex:c"))) = "<http://e.org/n/a/b> as ?x as <http://e.org/n/c>") ∧
      (classify (some .standard) (.text (wrap .standard (.text " urn:a b ")))).kind = .urn := by
  have bare : ¬IsAliased " urn:a b ".toList := aliasCut?_eq_none_iff.1 (by decide)
  have first : wrap ⟨[("ex", "http://e.org//n/")]⟩ (.text "ex:a//b  AS $x as ex:c") =
      "<http://e.org/n/a/b> as ?x as <http://e.org/n/c>" := by
    have parts : aliasParts "ex:a//b  AS $x as ex:c".toList =
        ["ex:a//b".toList, "$x".toList, "ex:c".toList] := by
      rw [aliasParts_of_some (a := "ex:a//b".toList) (b := "$x as ex:c".toList) (by decide),
        aliasParts_of_some (a := "$x".toList) (b := "ex:c".toList) (by decide),
        aliasParts_of_none (by decide)]
    rw [wrap_text, parts]
    decide
  exact ⟨(wrap_wrap (by decide) (by decide)).1.trans first,
    ((wrap_wrap (by decide) (by decide)).2 bare).trans (by decide)⟩

end SparqlClient
