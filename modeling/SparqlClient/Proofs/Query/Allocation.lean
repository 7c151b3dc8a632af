import SparqlClient.Proofs.Query.Extension

/-! The variables that a scope gives out. A predicate gets the name behind its IRI, or the first of
the numbered names that is free; the search for one ends, because only so many names are taken.
Whatever is asked for, in whatever order, predicates and variables correspond one to one, and no
variable is the subject or one of the names that the forms of a query use themselves. -/

namespace SparqlClient

open Text Shape

def IsAsciiIdentifier (s : List Char) : Prop :=
  (∃ c ∈ s.head?, c.isAlpha ∨ c = '_') ∧ ∀ c ∈ s, isAsciiWord c

theorem isAsciiIdentifier_of_head {c : Char} {s : List Char} (word : ∀ x ∈ c :: s, isAsciiWord x)
    (head : c.isDigit = false) : IsAsciiIdentifier (c :: s) := by
  have first := word c (List.mem_cons_self ..)
  refine ⟨⟨c, rfl, ?_⟩, word⟩
  simpa [isAsciiWord, Char.isAlphanum, head] using first

theorem IsAsciiIdentifier.append {s t : List Char} (hs : IsAsciiIdentifier s)
    (ht : ∀ c ∈ t, isAsciiWord c) : IsAsciiIdentifier (s ++ t) := by
  obtain ⟨⟨c, head, letter⟩, word⟩ := hs
  refine ⟨⟨c, ?_, letter⟩, fun x hx => (List.mem_append.1 hx).elim (word x) (ht x)⟩
  rw [List.head?_append, Option.mem_def.1 head]
  rfl

namespace Scope

theorem isAsciiIdentifier_baseName (iri : String) : IsAsciiIdentifier (baseName iri).toList := by
  have word := (isName_baseName iri).2
  unfold baseName at word ⊢
  simp only at word ⊢
  generalize List.map _ _ = name at word ⊢
  cases name with
  | nil => exact isAsciiIdentifier_of_head word (by decide)
  | cons c rest =>
    simp only at word ⊢
    by_cases digit : c.isDigit
    · rw [if_pos digit, String.toList_ofList] at word ⊢
      exact isAsciiIdentifier_of_head word (by decide)
    · rw [if_neg digit, String.toList_ofList] at word ⊢
      exact isAsciiIdentifier_of_head word (Bool.eq_false_iff.2 digit)

/-- The search for a free name: a name that is taken gives way to the base with the next number.
Nothing bounds the numbers. -/
inductive Search (base : String) (taken : List String) : Nat → String → String → Prop
  | free {number : Nat} {name : String} (free : name ∉ taken) : Search base taken number name name
  | next {number : Nat} {name found : String} (inUse : name ∈ taken)
      (rest : Search base taken (number + 1) (base ++ natText number) found) :
      Search base taken number name found

theorem search_of_find? {base name found : String} {taken : List String} {number count : Nat}
    (h : (name :: (List.range count).map fun i => base ++ natText (i + number)).find?
      (fun n => !taken.contains n) = some found) : Search base taken number name found := by
  induction count generalizing number name with
  | zero =>
    obtain ⟨unused, rfl⟩ : name ∉ taken ∧ name = found := by simpa using h
    exact .free unused
  | succ count ih =>
    by_cases used : name ∈ taken
    · refine .next used (ih ?_)
      rw [List.find?_cons_of_neg (by simpa using used), List.range_succ_eq_map, List.map_cons,
        List.map_map, Nat.zero_add] at h
      simpa [Function.comp_def, Nat.add_assoc, Nat.add_comm 1] using h
    · rw [List.find?_cons_of_pos (by simpa using used)] at h
      obtain rfl := Option.some.inj h
      exact .free used

theorem search_freshName (base : String) (taken : List String) :
    Search base taken 2 base (freshName base taken) := by
  have unused := freshName_notMem base taken
  unfold freshName at unused ⊢
  cases found : (candidates base taken.length).find? fun n => !taken.contains n with
  | some name => exact search_of_find? found
  | none =>
    have used := List.find?_eq_none.1 found base (List.mem_cons_self ..)
    rw [found] at unused
    exact absurd (by simpa using used) unused

theorem Search.notMem {base name found : String} {taken : List String} {number : Nat}
    (h : Search base taken number name found) : found ∉ taken := by
  induction h with
  | free unused => exact unused
  | next _ _ ih => exact ih

theorem Search.isAsciiIdentifier {base name found : String} {taken : List String} {number : Nat}
    (h : Search base taken number name found) (hb : IsAsciiIdentifier base.toList)
    (hn : IsAsciiIdentifier name.toList) : IsAsciiIdentifier found.toList := by
  induction h with
  | free _ => exact hn
  | next _ _ ih =>
    refine ih ?_
    rw [String.toList_append]
    exact hb.append (isName_natText _).2

def reserved (subject : String) : List String :=
  [trimStartOf isSigil subject, "aggregate", "p", "o"]

structure Allocated (subject : String) (s : Scope) : Prop where
  taken : ∀ n ∈ reserved subject, n ∈ s.taken
  named : ∀ e ∈ s.refs, ∃ name, e.2 = "?" ++ name ∧ IsAsciiIdentifier name.toList ∧
    name ∈ s.taken ∧ name ∉ reserved subject
  apart : (s.refs.map Prod.snd).Nodup

theorem allocated_ofSubject (subject : String) : (ofSubject subject).Allocated subject where
  taken := fun _ hn => hn
  named := by simp [ofSubject]
  apart := List.nodup_nil

theorem Allocated.variableFor {subject : String} {s : Scope} (h : s.Allocated subject)
    (predicate hint : String) : (s.variableFor predicate hint).2.Allocated subject := by
  rcases s.variableFor_cases predicate hint with ⟨v, -, same⟩ | ⟨name, -, search, fresh⟩
  · rw [same]
    exact h
  · have found := search_freshName (baseName hint) s.taken
    rw [← search] at found
    have base := isAsciiIdentifier_baseName hint
    rw [fresh]
    refine ⟨fun n hn => List.mem_cons_of_mem name (h.taken n hn), fun e he => ?_, ?_⟩
    · rcases List.mem_append.1 he with old | new
      · obtain ⟨m, text, identifier, known, free⟩ := h.named e old
        exact ⟨m, text, identifier, List.mem_cons_of_mem name known, free⟩
      · rw [List.mem_singleton.1 new]
        exact ⟨name, rfl, found.isAsciiIdentifier base base, List.mem_cons_self ..,
          fun own => found.notMem (h.taken name own)⟩
    · rw [List.map_append, List.map_singleton, ← List.concat_eq_append, List.nodup_concat]
      refine ⟨fun old => ?_, h.apart⟩
      obtain ⟨e, he, same⟩ := List.mem_map.1 old
      obtain ⟨m, text, -, known, -⟩ := h.named e he
      rw [text] at same
      exact found.notMem ((String.append_right_inj "?").1 same ▸ known)

theorem Allocated.inj {subject : String} {s : Scope} (h : s.Allocated subject)
    {q r v : String} (hq : s.refOf? q = some v) (hr : s.refOf? r = some v) : q = r := by
  have same := List.inj_on_of_nodup_map h.apart (mem_refs_of_refOf? hq) (mem_refs_of_refOf? hr) rfl
  exact congrArg Prod.fst same

/-- The variables of some predicates, asked for one after the other, each with a hint for its name,
and the scope behind the last of them. -/
def variablesFor (s : Scope) : List (String × String) → List String × Scope
  | [] => ([], s)
  | (predicate, hint) :: rest =>
    let (v, t) := s.variableFor predicate hint
    let (vs, u) := t.variablesFor rest
    (v :: vs, u)

theorem le_variablesFor (s : Scope) (asked : List (String × String)) :
    s.Le (s.variablesFor asked).2 := by
  induction asked generalizing s with
  | nil => exact .refl s
  | cons a rest ih => exact (s.grows_variableFor a.1 a.2).toLe.trans (ih _)

theorem Allocated.variablesFor {subject : String} {s : Scope} (h : s.Allocated subject)
    (asked : List (String × String)) : (s.variablesFor asked).2.Allocated subject := by
  induction asked generalizing s with
  | nil => exact h
  | cons a rest ih => exact ih (h.variableFor a.1 a.2)

theorem refOf?_variablesFor (s : Scope) (asked : List (String × String)) :
    asked.map (fun a => (s.variablesFor asked).2.refOf? a.1) = (s.variablesFor asked).1.map some := by
  induction asked generalizing s with
  | nil => rfl
  | cons a rest ih =>
    have kept := (le_variablesFor (s.variableFor a.1 a.2).2 rest).refs a.1 _
      (s.refOf?_variableFor a.1 a.2)
    exact congrArg₂ List.cons kept (ih _)

/-- Variables and predicates correspond one to one, whatever is asked for. Each search for a name
ends, the variable that it leads to is a question mark and an identifier, and no variable is the
subject or one that the forms of a query use themselves. -/
theorem variables_of_predicates (subject : String) (asked : List (String × String)) :
    ∃ ref : String → String,
      ((ofSubject subject).variablesFor asked).1 = asked.map (fun a => ref a.1) ∧
      (∀ a ∈ asked, ∀ b ∈ asked, ref a.1 = ref b.1 → a.1 = b.1) ∧
      (∀ a ∈ asked, (∃ name, ref a.1 = "?" ++ name ∧ IsAsciiIdentifier name.toList) ∧
        ref a.1 ∉ [subjectVariable subject, "?aggregate", "?p", "?o"]) ∧
      ∀ predicate hint, let s := ((ofSubject subject).variablesFor asked).2
        s.refOf? predicate = none → ∃ name,
          Search (baseName hint) s.taken 2 (baseName hint) name ∧
          (s.variableFor predicate hint).1 = "?" ++ name := by
  have allocated := (allocated_ofSubject subject).variablesFor asked
  have answers := refOf?_variablesFor (ofSubject subject) asked
  generalize (ofSubject subject).variablesFor asked = run at allocated answers ⊢
  obtain ⟨vs, s⟩ := run
  have known : ∀ a ∈ asked, ∃ v, s.refOf? a.1 = some v := by
    intro a ha
    have given : s.refOf? a.1 ∈ vs.map some := answers ▸ List.mem_map_of_mem ha
    obtain ⟨v, -, same⟩ := List.mem_map.1 given
    exact ⟨v, same.symm⟩
  refine ⟨fun q => (s.refOf? q).getD "", ?_, fun a ha b hb same => ?_, fun a ha => ?_, ?_⟩
  · calc vs = (vs.map some).map (·.getD "") := by simp [Function.comp_def]
      _ = asked.map (fun a => (s.refOf? a.1).getD "") := by
        rw [← answers, List.map_map]
        rfl
  · obtain ⟨v, one⟩ := known a ha
    obtain ⟨w, other⟩ := known b hb
    obtain rfl : v = w := by simpa [one, other] using same
    exact allocated.inj one other
  · obtain ⟨v, given⟩ := known a ha
    obtain ⟨name, rfl, identifier, -, free⟩ := allocated.named _ (mem_refs_of_refOf? given)
    simp only [given, Option.getD_some]
    refine ⟨⟨name, rfl, identifier⟩, fun own => free ?_⟩
    have marked : "?" ++ name ∈ (reserved subject).map ("?" ++ ·) := own
    obtain ⟨m, hm, same⟩ := List.mem_map.1 marked
    exact (String.append_right_inj "?").1 same ▸ hm
  · intro predicate hint s unknown
    exact ⟨freshName (baseName hint) s.taken, search_freshName _ _, by
      rw [variableFor, unknown]⟩

end Scope

end SparqlClient
