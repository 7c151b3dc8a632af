import Mathlib.Data.List.Nodup
import Mathlib.Data.List.Perm.Subperm
import SparqlClient.Proofs.Query.Run

/-! What a column is depends on the column alone: a predicate, or text that is written as it is.
A predicate is written as its variable, whose name has word characters of ASCII only. -/

namespace SparqlClient

open Text Shape

inductive ColumnForm
  | written (text : String)
  | predicate (iri : Value)

def textColumnForm (p : Prefixes) (text : String) : ColumnForm :=
  match text.toList with
  | c :: rest =>
    if isSigil c then .written ("?" ++ String.ofList rest)
    else
      let t := classifyText (some p) text
      if t.isResource then .predicate t.value
      else if isIdentifier text then .written ("?" ++ text)
      else .written text
  | [] => .written text

def columnForm (p : Prefixes) : Value → ColumnForm
  | .term k x l d =>
    if (Term.mk k x l d).isResource then .predicate x
    else .written ((Term.mk k x l d).render (some p))
  | v => textColumnForm p (trim v.plainText)

namespace ColumnForm

def resolved (s : Scope) : ColumnForm → Outcome (Column × Scope)
  | .written text => .ok (⟨text, none⟩, s)
  | .predicate iri => (normalizeIriValue iri).map fun q =>
    (⟨(s.variableFor q q).1, some q⟩, (s.variableFor q q).2)

end ColumnForm

namespace Compile

theorem run_predicateColumn (v : Value) (s : Scope) :
    StateT.run (predicateColumn v) s = (ColumnForm.predicate v).resolved s := by
  rw [predicateColumn, ColumnForm.resolved]
  cases normalizeIriValue v with
  | error e => rfl
  | ok q => rfl

theorem run_textColumn (p : Prefixes) (text : String) (s : Scope) :
    StateT.run (textColumn p text) s = (textColumnForm p text).resolved s := by
  unfold textColumn textColumnForm
  cases text.toList with
  | nil => rfl
  | cons c rest =>
    simp only
    by_cases sigil : isSigil c
    · rw [if_pos sigil, if_pos sigil]
      rfl
    · rw [if_neg sigil, if_neg sigil]
      by_cases resource : (classifyText (some p) text).isResource
      · rw [if_pos resource, if_pos resource, run_predicateColumn]
      · rw [if_neg resource, if_neg resource]
        by_cases identifier : isIdentifier text
        · rw [if_pos identifier, if_pos identifier]
          rfl
        · rw [if_neg identifier, if_neg identifier]
          rfl

theorem run_resolve (p : Prefixes) (v : Value) (s : Scope) :
    StateT.run (resolve p v) s = (columnForm p v).resolved s := by
  cases v with
  | term k x l d =>
    rw [resolve, columnForm]
    by_cases resource : (Term.mk k x l d).isResource
    · rw [if_pos resource, if_pos resource, run_predicateColumn]
    · rw [if_neg resource, if_neg resource]
      rfl
  | _ => simp only [resolve, columnForm, run_textColumn]

theorem resolve_gives {p : Prefixes} {v : Value} {s t : Scope} {c : Column} :
    Gives (resolve p v) s c t ↔ (columnForm p v).resolved s = .ok (c, t) := by
  rw [Gives, run_resolve]

end Compile

def IsName (s : List Char) : Prop := s ≠ [] ∧ ∀ c ∈ s, isAsciiWord c

theorem isAsciiWord_of_isDigit {c : Char} (h : c.isDigit) : isAsciiWord c := by
  simp [isAsciiWord, Char.isAlphanum, h]

theorem isName_natText (n : Nat) : IsName (natText n).toList := by
  rw [natText, String.toList_ofList]
  exact ⟨Nat.toDigits_ne_nil,
    fun c hc => isAsciiWord_of_isDigit (Nat.isDigit_of_mem_toDigits (by decide) (by decide) hc)⟩

theorem natText_inj {m n : Nat} (same : natText m = natText n) : m = n := by
  have digits : Nat.toDigits 10 m = Nat.toDigits 10 n := by
    simpa [natText, String.ofList_inj] using same
  simpa using congrArg (Nat.ofDigitChars 10 · 0) digits

theorem IsName.append {s t : List Char} (hs : IsName s) (ht : ∀ c ∈ t, isAsciiWord c) :
    IsName (s ++ t) :=
  ⟨by simp [hs.1], fun c hc => (List.mem_append.1 hc).elim (hs.2 c) (ht c)⟩

namespace Scope

theorem isName_baseName (iri : String) : IsName (baseName iri).toList := by
  unfold baseName
  simp only
  generalize hn : List.map _ _ = name
  have word : ∀ c ∈ name, isAsciiWord c := by
    rw [← hn, List.forall_mem_map]
    intro c _
    split
    · assumption
    · decide
  cases name with
  | nil =>
    rw [show "v".toList = ['v'] from rfl]
    exact ⟨by simp, List.forall_mem_singleton.2 (by decide)⟩
  | cons c rest =>
    simp only
    split
    · rw [String.toList_ofList]
      exact ⟨by simp, List.forall_mem_cons.2 ⟨by decide, word⟩⟩
    · rw [String.toList_ofList]
      exact ⟨by simp, word⟩

theorem isName_freshName {base : String} (h : IsName base.toList) (taken : List String) :
    IsName (freshName base taken).toList := by
  unfold freshName
  cases hf : (candidates base taken.length).find? fun n => !taken.contains n with
  | none => exact h
  | some n =>
    have candidate := List.mem_of_find?_eq_some hf
    rw [candidates, List.mem_cons, List.mem_map] at candidate
    rcases candidate with rfl | ⟨i, -, rfl⟩
    · exact h
    · rw [Option.getD_some, String.toList_append]
      exact h.append (isName_natText (i + 2)).2

theorem nodup_candidates (base : String) (count : Nat) : (candidates base count).Nodup := by
  rw [candidates, List.nodup_cons]
  constructor
  · rw [List.mem_map]
    rintro ⟨i, -, same⟩
    have digits : (natText (i + 2)).toList = [] := by
      simpa [String.toList_append] using congrArg String.toList same
    exact (isName_natText _).1 digits
  · refine List.Nodup.map (fun i j same => ?_) List.nodup_range
    have numbers := natText_inj ((String.append_right_inj base).1 same)
    omega

/-- There are more candidates than names that are taken. -/
theorem freshName_notMem (base : String) (taken : List String) : freshName base taken ∉ taken := by
  unfold freshName
  cases found : (candidates base taken.length).find? fun n => !taken.contains n with
  | some n =>
    have free := List.find?_some found
    simpa using free
  | none =>
    have covered : candidates base taken.length ⊆ taken := by
      intro n hn
      have none_free := List.find?_eq_none.1 found n hn
      simpa using none_free
    have most := ((nodup_candidates base taken.length).subperm covered).length_le
    simp only [candidates, List.length_cons, List.length_map, List.length_range] at most
    omega

theorem variableFor_cases (s : Scope) (q hint : String) :
    (∃ v, s.refOf? q = some v ∧ s.variableFor q hint = (v, s)) ∨
      ∃ name, s.refOf? q = none ∧ name = freshName (baseName hint) s.taken ∧
        s.variableFor q hint = ("?" ++ name,
          { s with taken := name :: s.taken, refs := s.refs ++ [(q, "?" ++ name)] }) := by
  unfold variableFor
  cases h : s.refOf? q with
  | some v => exact .inl ⟨v, rfl, rfl⟩
  | none => exact .inr ⟨_, rfl, rfl, rfl⟩

theorem mem_refs_of_refOf? {s : Scope} {q v : String} (h : s.refOf? q = some v) :
    (q, v) ∈ s.refs := by
  obtain ⟨⟨q', v'⟩, found, rfl⟩ := Option.map_eq_some_iff.1 h
  have same : q' = q := by simpa using List.find?_some found
  exact same ▸ List.mem_of_find?_eq_some found

end Scope

end SparqlClient
