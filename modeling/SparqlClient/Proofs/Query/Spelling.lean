import Mathlib.Data.List.TakeWhile
import SparqlClient.Proofs.Number.Reading
import SparqlClient.Proofs.Query.Column
import SparqlClient.Proofs.Query.Exchange
import SparqlClient.Proofs.Statement.Prologue
import SparqlClient.Proofs.Term.Named

/-! The spellings of a predicate. A column names the same predicate as a URL, in angle brackets,
by a registered prefix and as a term; which one a query uses does not show in its text. -/

namespace SparqlClient

open Text Shape

def IsPrefixName (s : List Char) : Prop :=
  ∃ c rest, s = c :: rest ∧ (isWord c ∧ c ≠ '_') ∧ ∀ x ∈ rest, isWord x ∨ x = '-'

theorem IsPrefixName.forall_mem {s : List Char} (h : IsPrefixName s) :
    ∀ c ∈ s, isWord c ∨ c = '-' := by
  obtain ⟨c, rest, rfl, first, others⟩ := h
  exact List.forall_mem_cons.2 ⟨.inl first.1, others⟩

/-- The texts that name a URL. -/
inductive Spelling (p : Prefixes) (u : String) : String → Prop
  | whole : Spelling p u u
  | bracketed : Spelling p u ("<" ++ u ++ ">")
  | short {name space rest : String} (known : p.lookup? name = some space)
      (plain : IsPrefixName name.toList) (split : space ++ rest = u)
      (single : startsWith rest "//" = false) : Spelling p u (name ++ ":" ++ rest)

inductive Value.Spells (p : Prefixes) (u : String) : Value → Prop
  | text (front s back : String) (before : ∀ c ∈ front.toList, isBlank c) (written : Spelling p u s)
      (behind : ∀ c ∈ back.toList, isBlank c) : Value.Spells p u (.text (front ++ s ++ back))
  | term (lang datatype : Value) : Value.Spells p u (.term .iri (.text u) lang datatype)

/-- Two spellings of one absolute URL, or the same column. -/
def Value.Respells (p : Prefixes) (v w : Value) : Prop :=
  w = v ∨ ∃ u, Url.isAbsolute u ∧ v.Spells p u ∧ w.Spells p u

namespace Spelling

variable {p : Prefixes} {u s : String}

theorem toList_bracketed (u : String) : ("<" ++ u ++ ">").toList = '<' :: u.toList ++ ['>'] := by
  simp [String.toList_append]

theorem toList_short (name rest : String) :
    (name ++ ":" ++ rest).toList = name.toList ++ ':' :: rest.toList := by
  simp [String.toList_append]

theorem head (h : Spelling p u s) (absolute : Url.isAbsolute u) :
    ∃ c rest, s.toList = c :: rest ∧ isSigil c = false ∧ c ≠ '_' := by
  cases h with
  | whole =>
    obtain ⟨c, rest, first, leading⟩ := Url.head_of_isAbsolute absolute
    refine ⟨c, rest, first, Bool.eq_false_iff.2 fun sigil => ?_, ?_⟩
    · simp only [isSigil, Bool.or_eq_true, decide_eq_true_eq] at sigil
      rcases sigil with rfl | rfl <;> cases leading
    · rintro rfl
      cases leading
  | bracketed => exact ⟨'<', _, toList_bracketed u, rfl, by decide⟩
  | @short name space rest known plain split single =>
    obtain ⟨c, others, spelled, ⟨word, apart⟩, -⟩ := plain
    refine ⟨c, others ++ ':' :: rest.toList, ?_, Bool.eq_false_iff.2 fun sigil => ?_, apart⟩
    · rw [toList_short, spelled, List.cons_append]
    · simp only [isSigil, Bool.or_eq_true, decide_eq_true_eq] at sigil
      rcases sigil with rfl | rfl <;> cases word

theorem unblank (h : Spelling p u s) (absolute : Url.isAbsolute u) :
    ∀ c ∈ s.toList, isBlank c = false := by
  have visible := Url.isBlank_of_isAbsolute absolute
  cases h with
  | whole => exact visible
  | bracketed =>
    rw [toList_bracketed, List.cons_append, List.forall_mem_cons, List.forall_mem_append,
      List.forall_mem_singleton]
    exact ⟨rfl, visible, rfl⟩
  | @short name space rest known plain split single =>
    rw [toList_short, List.forall_mem_append, List.forall_mem_cons]
    rw [← split, String.toList_append, List.forall_mem_append] at visible
    refine ⟨fun c member => Bool.eq_false_iff.2 fun blank => ?_, rfl, visible.2⟩
    rcases plain.forall_mem c member with word | rfl
    · rw [Statement.isWord_of_isBlank blank] at word
      cases word
    · cases blank

theorem expand_unbracket (h : Spelling p u s) (absolute : Url.isAbsolute u) :
    p.expand (unbracket s) = u := by
  cases h with
  | whole =>
    obtain ⟨c, rest, first, leading⟩ := Url.head_of_isAbsolute absolute
    have other : c ≠ '<' := by
      rintro rfl
      cases leading
    rw [unbracket_eq_self first other, Url.expand_of_isAbsolute absolute]
  | bracketed =>
    have bare : unbracket ("<" ++ u ++ ">") = u := by
      simp [unbracket]
    rw [bare, Url.expand_of_isAbsolute absolute]
  | @short name space rest known plain split single =>
    have apart : ':' ∉ name.toList := fun member => by
      rcases plain.forall_mem _ member with word | hyphen <;> contradiction
    obtain ⟨c, others, spelled, ⟨word, -⟩, -⟩ := plain
    have first : (name ++ ":" ++ rest).toList = c :: (others ++ ':' :: rest.toList) := by
      rw [toList_short, spelled, List.cons_append]
    have other : c ≠ '<' := by
      rintro rfl
      cases word
    rw [unbracket_eq_self first other, Prefixes.expand_short apart single known, split]

theorem mem_colon (h : Spelling p u s) (absolute : Url.isAbsolute u) : ':' ∈ s.toList := by
  have inside : ':' ∈ u.toList := by
    obtain ⟨front, rest, whole, -⟩ := Url.exists_leading absolute
    simp [whole]
  cases h with
  | whole => exact inside
  | bracketed => simp [inside]
  | short => simp

theorem classifyText_eq (h : Spelling p u s) (absolute : Url.isAbsolute u) :
    classifyText (some p) s = .ofText .iri u := by
  obtain ⟨c, rest, spelled, -, apart⟩ := h.head absolute
  have blank : startsWith s "_:" = false := by
    simp [startsWith, spelled, after?, Ne.symm apart]
  have trimmed : trim s = s := by
    rw [trim, trimOf, trimBy_eq_self (h.unblank absolute), String.ofList_toList]
  rw [classifyText, blank, trimmed]
  simp only [expandWith, h.expand_unbracket absolute, absolute, if_true]
  rfl

end Spelling

namespace Value

variable {p : Prefixes} {u : String} {v w : Value}

theorem Spells.columnForm_eq (h : v.Spells p u) (absolute : Url.isAbsolute u) :
    columnForm p v = .predicate (.text u) := by
  cases h with
  | term lang datatype => rfl
  | text front s back before written behind =>
    have trimmed : trim (front ++ s ++ back) = s := by
      rw [trim, trimOf, String.toList_append, String.toList_append,
        trimBy_between before (written.unblank absolute) behind, String.ofList_toList]
    obtain ⟨c, rest, first, sigil, -⟩ := written.head absolute
    change textColumnForm p (trim (front ++ s ++ back)) = _
    rw [trimmed, textColumnForm, first]
    simp only [sigil, written.classifyText_eq absolute]
    rfl

theorem Spells.isStar_eq (h : v.Spells p u) (absolute : Url.isAbsolute u) :
    Compile.isStar v = false := by
  cases h with
  | term lang datatype => rfl
  | text front s back before written behind =>
    refine decide_eq_false fun star => ?_
    have colon : ':' ∈ (front ++ s ++ back).toList := by
      simp [written.mem_colon absolute]
    rw [star] at colon
    revert colon
    decide

theorem Spells.column_eq (h : v.Spells p u) : Compile.column p v = Compile.need p v true := by
  cases h <;> rfl

theorem Spells.isNull_eq (h : v.Spells p u) : v.isNull = false := by
  cases h <;> rfl

theorem Respells.interchangeable (h : v.Respells p w) : Compile.Interchangeable p v w := by
  obtain rfl | ⟨u, absolute, left, right⟩ := h
  · exact ⟨rfl, rfl, rfl, rfl⟩
  · have resolved : Compile.resolve p w = Compile.resolve p v := by
      funext s
      change StateT.run (Compile.resolve p w) s = StateT.run (Compile.resolve p v) s
      rw [Compile.run_resolve, Compile.run_resolve, left.columnForm_eq absolute,
        right.columnForm_eq absolute]
    refine ⟨resolved, ?_, ?_, ?_⟩
    · rw [left.column_eq, right.column_eq, Compile.need, Compile.need, resolved]
    · rw [left.isStar_eq absolute, right.isStar_eq absolute]
    · rw [left.isNull_eq, right.isNull_eq]

end Value

/-- Another spelling of a predicate in any column of any clause leaves a query what it is, text and
values. -/
theorem QuerySpec.select_respelled {p : Prefixes} {q r : QuerySpec}
    (h : q.Exchanged (Value.Respells p) r) (f : Fragment) :
    q.select p = .ok f ↔ r.select p = .ok f :=
  h.select_eq_ok_iff (fun _ _ related => related.interchangeable) f

def groupsBy (selected tested grouped compared sorted : Value) : QuerySpec :=
  { QuerySpec.ofSubject "s" with
    columns := [selected]
    wheres := [.basic tested "!=" (.text "Al") .and]
    groups := [grouped]
    havings := [.test compared (.compare .gt) (.int 1) .and]
    orders := [⟨sorted, some "asc"⟩] }

def shortNames : Prefixes := ⟨[("e", "x://e/")]⟩

def groupedByUrl : QuerySpec :=
  groupsBy (.text "x://e/n") (.text "x://e/n") (.text "x://e/n") (.text "x://e/n") (.text "x://e/n")

def groupedRespelled : QuerySpec :=
  groupsBy (.text "e:n") (.text " <x://e/n> ") (.term .iri (.text "x://e/n") .null .null)
    (.text "<x://e/n>") (.text " x://e/n")

theorem groupedByUrl_exchanged :
    groupedByUrl.Exchanged (Value.Respells shortNames) groupedRespelled := by
  have absolute : Url.isAbsolute "x://e/n" := by decide +kernel
  have blank : ∀ c ∈ " ".toList, isBlank c := by decide
  have empty : ∀ c ∈ "".toList, isBlank c := by decide
  have whole : Value.Spells shortNames "x://e/n" (.text "x://e/n") :=
    .text "" "x://e/n" "" empty .whole empty
  have short : Spelling shortNames "x://e/n" ("e" ++ ":" ++ "n") :=
    .short rfl ⟨'e', [], rfl, by decide, by simp⟩ rfl rfl
  have spelling {w : Value} (h : w.Spells shortNames "x://e/n") :
      Value.Respells shortNames (.text "x://e/n") w := .inr ⟨_, absolute, whole, h⟩
  refine ⟨rfl, .cons (spelling ?_) .nil, ?_, .cons (spelling ?_) .nil, .cons ?_ .nil,
    .cons ?_ .nil, .none⟩
  · exact .text "" ("e" ++ ":" ++ "n") "" empty short empty
  · exact ⟨_, [], rfl, ⟨_, rfl, spelling (.text " " _ " " blank .bracketed blank)⟩, rfl⟩
  · exact .term .null .null
  · exact ⟨_, rfl, spelling (.text "" _ "" empty .bracketed empty)⟩
  · exact .inr ⟨by decide, _, rfl, spelling (.text " " _ "" blank .whole empty)⟩

theorem select_respelled_groupedByUrl : ∃ f, groupedByUrl.select shortNames = .ok f ∧
    groupedRespelled.select shortNames = .ok f ∧
    f.text = "SELECT ?n WHERE { ?s <x://e/n> ?n . FILTER( ?n != ? ) } GROUP BY ?n " ++
      "HAVING( ?n > ? ) ORDER BY ASC(?n)" := by
  have written : (groupedByUrl.select shortNames).toOption.map (·.text) =
      some ("SELECT ?n WHERE { ?s <x://e/n> ?n . FILTER( ?n != ? ) } GROUP BY ?n " ++
        "HAVING( ?n > ? ) ORDER BY ASC(?n)") := by
    decide +kernel
  cases compiled : groupedByUrl.select shortNames with
  | error e => rw [compiled] at written; cases written
  | ok f =>
    rw [compiled] at written
    exact ⟨f, rfl, (QuerySpec.select_respelled groupedByUrl_exchanged f).1 compiled,
      Option.some.inj written⟩

end SparqlClient
