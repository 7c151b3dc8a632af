import SparqlClient.Store.Namespace

/-! The names that the check of a namespace lets through: one or more ASCII letters, digits,
underscores and hyphens, and the same with one line end behind. Every other text is refused. -/

namespace SparqlClient.Namespace

open Text Shape

def IsPlain (s : String) : Prop :=
  s.toList ≠ [] ∧ ∀ c ∈ s.toList, c.isAlphanum ∨ c = '_' ∨ c = '-'

/-- A plain name, or one with a line end behind. -/
def IsAccepted (s : String) : Prop := IsPlain s ∨ ∃ n, IsPlain n ∧ s = n ++ "\n"

theorem isNameChar_iff {c : Char} : isNameChar c = true ↔ c.isAlphanum ∨ c = '_' ∨ c = '-' := by
  simp [isNameChar, isAsciiWord, or_assoc]

theorem atEnd_dropWhile_iff {p : Char → Bool} {s : List Char} (line : p '\n' = false) :
    atEnd (s.dropWhile p) = true ↔
      (∀ c ∈ s, p c) ∨ ∃ t, (∀ c ∈ t, p c) ∧ s = t ++ ['\n'] := by
  induction s with
  | nil => simp [atEnd]
  | cons c s ih =>
    by_cases own : p c
    · rw [List.dropWhile_cons_of_pos own, ih, List.forall_mem_cons]
      constructor
      · rintro (all | ⟨t, all, rfl⟩)
        · exact .inl ⟨own, all⟩
        · exact .inr ⟨c :: t, List.forall_mem_cons.2 ⟨own, all⟩, rfl⟩
      · rintro (⟨-, all⟩ | ⟨t, all, split⟩)
        · exact .inl all
        · cases t with
          | nil =>
            obtain ⟨rfl, rfl⟩ := List.cons.inj split
            simp [line] at own
          | cons d t =>
            obtain ⟨rfl, rfl⟩ := List.cons.inj split
            exact .inr ⟨t, (List.forall_mem_cons.1 all).2, rfl⟩
    · rw [List.dropWhile_cons_of_neg own]
      constructor
      · intro ended
        obtain ⟨rfl, rfl⟩ : c = '\n' ∧ s = [] := by simpa [atEnd] using ended
        exact .inr ⟨[], by simp, rfl⟩
      · rintro (all | ⟨t, all, split⟩)
        · exact absurd (all c (List.mem_cons_self ..)) own
        · cases t with
          | nil =>
            obtain ⟨rfl, rfl⟩ := List.cons.inj split
            rfl
          | cons d t =>
            obtain ⟨rfl, -⟩ := List.cons.inj split
            exact absurd (all c (List.mem_cons_self ..)) own

theorem isName_iff {s : String} : isName s = true ↔ IsAccepted s := by
  have ended {n : String} : s = n ++ "\n" ↔ s.toList = n.toList ++ ['\n'] := by
    rw [← String.toList_inj, String.toList_append]
    rfl
  simp only [IsAccepted, IsPlain, ended, ← isNameChar_iff]
  unfold isName
  cases s.toList with
  | nil => simp
  | cons c rest =>
    simp only [Bool.and_eq_true, atEnd_dropWhile_iff (p := isNameChar) (by decide)]
    constructor
    · rintro ⟨own, all | ⟨t, all, rfl⟩⟩
      · exact .inl ⟨by simp, List.forall_mem_cons.2 ⟨own, all⟩⟩
      · refine .inr ⟨String.ofList (c :: t), ?_, by simp⟩
        simpa using ⟨own, all⟩
    · rintro (⟨-, all⟩ | ⟨n, ⟨some, all⟩, split⟩)
      · exact ⟨all c (List.mem_cons_self ..), .inl (List.forall_mem_cons.1 all).2⟩
      · obtain ⟨d, t, chars⟩ := List.exists_cons_of_ne_nil some
        rw [chars] at all split
        obtain ⟨rfl, rfl⟩ := List.cons.inj split
        exact ⟨all c (List.mem_cons_self ..), .inr ⟨t, (List.forall_mem_cons.1 all).2, rfl⟩⟩

theorem isAccepted_of_validate {v : Value} {s : String} (h : validate v = .ok s) :
    v.chars? = some s ∧ IsAccepted s := by
  obtain ⟨chars, valid⟩ := isName_of_validate h
  exact ⟨chars, isName_iff.1 valid⟩

def refusal (s : String) : Error := .configuration (.invalidNamespace (Value.text s).display)

theorem validate_eq_refusal {s : String} (h : ¬IsAccepted s) :
    validate (.text s) = .error (refusal s) := by
  have refused : isName s = false := by
    rw [← Bool.not_eq_true, isName_iff]
    exact h
  simp [validate, Value.chars?, refused, refusal, ConfigurationError.fail]

end SparqlClient.Namespace
