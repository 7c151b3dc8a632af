import Mathlib.Data.List.Induction
import SparqlClient.Prefixes

/-! Short names for IRIs. Main statement: in a table that registrations have made, an IRI is
shortened by the longest namespace that leaves a name on one level, or not at all, and what it is
shortened to expands to the IRI again. -/

namespace SparqlClient

open Text

namespace Prefixes

/-! Tables that have been made by registrations. -/

def IsName (name : String) : Prop := ':' ∉ (trimEndOf (· == ':') name).toList

inductive Registered : Prefixes → Prop
  | empty : Registered .empty
  | register {t : Prefixes} {name : String} (built : Registered t) (plain : IsName name)
      (iri : String) : Registered (t.register name iri)

theorem Registered.registerAll {t : Prefixes} {es : List (String × String)} (built : Registered t)
    (plain : ∀ e ∈ es, IsName e.1) : Registered (t.registerAll es) := by
  induction es generalizing t with
  | nil => exact built
  | cons e es ih =>
    rw [List.forall_mem_cons] at plain
    exact ih (built.register plain.1 e.2) plain.2

instance (name : String) : Decidable (IsName name) :=
  inferInstanceAs (Decidable (':' ∉ (trimEndOf (· == ':') name).toList))

theorem registered_standard : Registered .standard := by
  have same : Prefixes.empty.registerAll standard.entries = standard := by decide
  exact same ▸ Registered.empty.registerAll (by decide)

/-- No name is there twice, and none holds a colon. -/
structure IsSound (t : Prefixes) : Prop where
  unique : (t.entries.map Prod.fst).Nodup
  plain : ∀ e ∈ t.entries, ':' ∉ e.1.toList

theorem mem_keys_put {name iri n : String} {es : List (String × String)} :
    n ∈ (put name iri es).map Prod.fst ↔ n = name ∨ n ∈ es.map Prod.fst := by
  induction es with
  | nil => simp [put]
  | cons e es ih =>
    obtain ⟨m, i⟩ := e
    by_cases own : m = name
    · subst own
      simp [put]
    · simp only [put, if_neg own, List.map_cons, List.mem_cons, ih]
      exact or_left_comm

theorem nodup_put {name iri : String} {es : List (String × String)}
    (unique : (es.map Prod.fst).Nodup) : ((put name iri es).map Prod.fst).Nodup := by
  induction es with
  | nil => simp [put]
  | cons e es ih =>
    obtain ⟨m, i⟩ := e
    rw [List.map_cons, List.nodup_cons] at unique
    by_cases own : m = name
    · rw [put, if_pos own, List.map_cons, List.nodup_cons]
      exact unique
    · rw [put, if_neg own, List.map_cons, List.nodup_cons, mem_keys_put]
      exact ⟨by simpa [own] using unique.1, ih unique.2⟩

theorem IsSound.register {t : Prefixes} (sound : t.IsSound) {name : String} (plain : IsName name)
    (iri : String) : (t.register name iri).IsSound := by
  refine ⟨nodup_put sound.unique, fun e member => ?_⟩
  rcases mem_keys_put.1 (List.mem_map_of_mem member) with own | old
  · rw [own]
    exact plain
  · obtain ⟨e', listed, same⟩ := List.mem_map.1 old
    rw [← same]
    exact sound.plain e' listed

theorem Registered.isSound {t : Prefixes} (built : Registered t) : t.IsSound := by
  induction built with
  | empty => exact ⟨List.nodup_nil, by simp [Prefixes.empty]⟩
  | register _ plain iri ih => exact ih.register plain iri

theorem IsSound.lookup? {t : Prefixes} (sound : t.IsSound) {name space : String}
    (member : (name, space) ∈ t.entries) : t.lookup? name = some space := by
  have unique := sound.unique
  unfold Prefixes.lookup?
  generalize t.entries = es at member unique
  induction es with
  | nil => cases member
  | cons e es ih =>
    rw [List.map_cons, List.nodup_cons] at unique
    rcases List.mem_cons.1 member with rfl | later
    · simp
    · have other : e.1 ≠ name := by
        rintro rfl
        exact unique.1 (List.mem_map.2 ⟨_, later, rfl⟩)
      rw [List.find?_cons_of_neg (by simpa using other)]
      exact ih later unique.2

/-! Expansion. -/

def IsFull (iri : String) : Prop :=
  ∃ scheme rest, iri = scheme ++ ":" ++ ("//" ++ rest) ∧ ':' ∉ scheme.toList

theorem expand_of_isFull (t : Prefixes) {iri : String} (full : IsFull iri) :
    t.expand iri = iri := by
  obtain ⟨scheme, rest, rfl, apart⟩ := full
  have slashes : startsWith ("//" ++ rest) "//" = true := by simp [startsWith, after?]
  have cut : cut? ':' (scheme ++ ":" ++ ("//" ++ rest)) = some (scheme, "//" ++ rest) :=
    cut?_append apart
  rw [expand, cut]
  simp only [slashes, if_true]

theorem expand_short {t : Prefixes} {name space rest : String} (plain : ':' ∉ name.toList)
    (single : startsWith rest "//" = false) (known : t.lookup? name = some space) :
    t.expand (name ++ ":" ++ rest) = space ++ rest := by
  have cut : cut? ':' (name ++ ":" ++ rest) = some (name, rest) := cut?_append plain
  rw [expand, cut]
  simp [single, known]

/-! The longest namespace. -/

/-- What a namespace leaves of an IRI is a name on one level. -/
structure Leaves (iri space rest : String) : Prop where
  whole : iri = space ++ rest
  filled : rest ≠ ""
  level : '/' ∉ rest.toList ∧ '#' ∉ rest.toList

theorem localPart?_eq_some_iff {iri space rest : String} :
    localPart? iri space = some rest ↔ Leaves iri space rest := by
  rw [localPart?, Option.filter_eq_some_iff, dropStart?_eq_some_iff]
  simp only [Bool.and_eq_true, bne_iff_ne, Bool.not_eq_true', List.contains_eq_mem,
    decide_eq_false_iff_not]
  exact ⟨fun ⟨whole, ⟨filled, slash⟩, hash⟩ => ⟨whole, filled, slash, hash⟩,
    fun ⟨whole, filled, slash, hash⟩ => ⟨whole, ⟨filled, slash⟩, hash⟩⟩

/-- The state of the search behind some entries: the IRI itself, or the name that the longest
namespace leaves. -/
inductive Chosen (iri : String) (es : List (String × String)) : Shortened → Prop
  | whole (none : ∀ e ∈ es, ∀ rest, Leaves iri e.2 rest → e.2 = "") : Chosen iri es ⟨0, iri⟩
  | short {name space rest : String} (member : (name, space) ∈ es)
      (leaves : Leaves iri space rest)
      (longest : ∀ e ∈ es, ∀ r, Leaves iri e.2 r → e.2.length ≤ space.length) :
      Chosen iri es ⟨space.length, name ++ ":" ++ rest⟩

namespace Chosen

variable {iri : String} {es : List (String × String)} {s : Shortened} {e : String × String}

theorem le_best (h : Chosen iri es s) : ∀ e ∈ es, ∀ r, Leaves iri e.2 r → e.2.length ≤ s.best := by
  cases h with
  | whole none =>
    intro e member r leaves
    simp [none e member r leaves]
  | short member leaves longest => exact longest

theorem keep (h : Chosen iri es s) (small : ∀ r, Leaves iri e.2 r → e.2.length ≤ s.best) :
    Chosen iri (es ++ [e]) s := by
  cases h with
  | whole none =>
    refine .whole fun e' member r leaves => ?_
    rcases List.mem_append.1 member with old | new
    · exact none e' old r leaves
    · obtain rfl := List.mem_singleton.1 new
      simpa using small r leaves
  | short member leaves longest =>
    refine .short (List.mem_append_left _ member) leaves fun e' listed r own => ?_
    rcases List.mem_append.1 listed with old | new
    · exact longest e' old r own
    · obtain rfl := List.mem_singleton.1 new
      exact small r own

theorem step (h : Chosen iri es s) (e : String × String) :
    Chosen iri (es ++ [e]) (shortenStep iri s e) := by
  unfold shortenStep
  split
  · rename_i longer
    split
    · rename_i rest found
      refine .short (by simp) (localPart?_eq_some_iff.1 found) fun e' member r leaves => ?_
      rcases List.mem_append.1 member with old | new
      · exact Nat.le_of_lt (Nat.lt_of_le_of_lt (h.le_best e' old r leaves) longer)
      · obtain rfl := List.mem_singleton.1 new
        exact Nat.le_refl _
    · rename_i missing
      refine h.keep fun r leaves => ?_
      rw [localPart?_eq_some_iff.2 leaves] at missing
      cases missing
  · rename_i short
    exact h.keep fun r _ => Nat.not_lt.1 short

end Chosen

theorem chosen_foldl (iri : String) (es : List (String × String)) :
    Chosen iri es (es.foldl (shortenStep iri) ⟨0, iri⟩) := by
  induction es using List.reverseRecOn with
  | nil => exact .whole (by simp)
  | append_singleton es e ih =>
    rw [List.foldl_append]
    exact ih.step e

theorem Leaves.ne_empty {iri space rest : String} (leaves : Leaves iri space rest)
    (full : IsFull iri) : space ≠ "" := by
  rintro rfl
  obtain ⟨scheme, behind, split, -⟩ := full
  refine leaves.level.1 ?_
  rw [← String.empty_append (s := rest), ← leaves.whole, split]
  simp

theorem shorten_cases (t : Prefixes) {iri : String} (full : IsFull iri) :
    (t.shorten iri = iri ∧ ∀ e ∈ t.entries, ∀ rest, ¬Leaves iri e.2 rest) ∨
    ∃ name space rest, (name, space) ∈ t.entries ∧ Leaves iri space rest ∧
      t.shorten iri = name ++ ":" ++ rest ∧
      ∀ e ∈ t.entries, ∀ r, Leaves iri e.2 r → e.2.length ≤ space.length := by
  have chosen := chosen_foldl iri t.entries
  unfold shorten
  generalize t.entries.foldl (shortenStep iri) ⟨0, iri⟩ = s at chosen
  cases chosen with
  | whole none => exact .inl ⟨rfl, fun e member r own => own.ne_empty full (none e member r own)⟩
  | short member leaves longest => exact .inr ⟨_, _, _, member, leaves, rfl, longest⟩

/-- The table shortens the IRI by this name and its namespace. -/
structure Uses (t : Prefixes) (iri name space : String) : Prop where
  member : (name, space) ∈ t.entries
  written : ∃ rest, Leaves iri space rest ∧ t.shorten iri = name ++ ":" ++ rest

theorem Uses.longest {t : Prefixes} {iri name space : String} (used : t.Uses iri name space)
    (sound : t.IsSound) (full : IsFull iri) {e : String × String} (member : e ∈ t.entries)
    {more : String} (proper : more ≠ "") (longer : e.2 = space ++ more) (r : String) :
    ¬Leaves iri e.2 r := by
  intro other
  obtain ⟨rest, leaves, written⟩ := used.written
  rcases t.shorten_cases full with
    ⟨-, none⟩ | ⟨name', space', rest', member', leaves', chosen, longest⟩
  · exact none e member r other
  · -- both names end at the first colon, so that both namespaces leave the same name
    have first : cut? ':' (t.shorten iri) = some (name, rest) :=
      written ▸ cut?_append (sound.plain _ used.member)
    have second : cut? ':' (t.shorten iri) = some (name', rest') :=
      chosen ▸ cut?_append (sound.plain _ member')
    obtain ⟨-, rfl⟩ := Prod.mk.inj (Option.some.inj (first.symm.trans second))
    have filled : 0 < more.length := Nat.pos_of_ne_zero (by simpa using proper)
    have bound := longest e member r other
    have size : space.length + rest.length = space'.length + rest.length := by
      rw [← String.length_append, ← String.length_append, ← leaves.whole, ← leaves'.whole]
    rw [longer, String.length_append] at bound
    omega

theorem IsSound.expand_shorten {t : Prefixes} (sound : t.IsSound) {iri : String}
    (full : IsFull iri) : t.expand (t.shorten iri) = iri := by
  rcases t.shorten_cases full with ⟨same, -⟩ | ⟨name, space, rest, member, leaves, written, -⟩
  · rw [same, expand_of_isFull t full]
  · have single : startsWith rest "//" = false := by
      refine Bool.eq_false_iff.2 fun slashes => leaves.level.1 ?_
      obtain ⟨behind, cut⟩ := Option.isSome_iff_exists.1 slashes
      rw [after?_eq_some_iff.1 cut]
      simp
    rw [written, expand_short (sound.plain _ member) single (sound.lookup? member), leaves.whole]

/-- Shortening an IRI and expanding it again gives it back. What shortens it is the longest
namespace that leaves a name; where there is none it stays. -/
theorem expand_of_shorten {t : Prefixes} (built : Registered t) {iri : String}
    (full : IsFull iri) : t.expand (t.shorten iri) = iri ∧
    (t.shorten iri = iri ∨ ∃ name space, t.Uses iri name space) ∧
    (∀ name space, t.Uses iri name space → ∀ e ∈ t.entries, ∀ more, more ≠ "" →
      e.2 = space ++ more → ∀ rest, ¬Leaves iri e.2 rest) ∧
    ((∀ e ∈ t.entries, ∀ rest, ¬Leaves iri e.2 rest) → t.shorten iri = iri) := by
  have sound := built.isSound
  refine ⟨sound.expand_shorten full, ?_,
    fun name space used e member more => used.longest sound full member, fun none => ?_⟩
  · rcases t.shorten_cases full with ⟨same, -⟩ | ⟨name, space, rest, member, leaves, written, -⟩
    · exact .inl same
    · exact .inr ⟨name, space, member, rest, leaves, written⟩
  · rcases t.shorten_cases full with ⟨same, -⟩ | ⟨name, space, rest, member, leaves, -⟩
    · exact same
    · exact absurd leaves (none _ member rest)

def nestedNames : Prefixes :=
  Prefixes.empty.registerAll [("ex:", "http://e/"), ("v", "<http://e/v/>"), ("w", "http://e/v/"),
    ("vn", "http://e/v/n/"), ("n", "http://e/v/n"), ("n", "")]

theorem expand_of_shorten_nested : Registered nestedNames ∧ IsFull "http://e/v/name" ∧
    nestedNames.shorten "http://e/v/name" = "v:name" ∧
    nestedNames.expand (nestedNames.shorten "http://e/v/name") = "http://e/v/name" ∧
    ∃ name space, nestedNames.Uses "http://e/v/name" name space := by
  have built : Registered nestedNames := Registered.empty.registerAll (by decide)
  have full : IsFull "http://e/v/name" := ⟨"http", "e/v/name", by decide, by decide⟩
  have short : nestedNames.shorten "http://e/v/name" = "v:name" := by decide
  obtain ⟨back, same | used, -⟩ := expand_of_shorten built full
  · exact absurd (short.symm.trans same) (by decide)
  · exact ⟨built, full, short, back, used⟩

end Prefixes

end SparqlClient
