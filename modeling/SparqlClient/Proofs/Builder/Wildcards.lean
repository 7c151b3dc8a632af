import Mathlib.Data.List.Basic
import SparqlClient.Builder.Conditions

/-! Patterns with wildcards and the regular expressions that are written for them. Main statement: a
text on one line matches the regular expression exactly if it matches the pattern, where a wildcard
stands for any run of characters or for any one, and every other character for itself. -/

namespace SparqlClient

/-- The texts that a pattern describes. -/
inductive Like : List Char → List Char → Prop
  | nil : Like [] []
  | run (s : List Char) {p t : List Char} (rest : Like p t) : Like ('%' :: p) (s ++ t)
  | one (c : Char) {p t : List Char} (rest : Like p t) : Like ('_' :: p) (c :: t)
  | same {c : Char} {p t : List Char} (plain : c ≠ '%' ∧ c ≠ '_') (rest : Like p t) :
    Like (c :: p) (c :: t)

namespace Like

variable {c : Char} {p t : List Char}

theorem nil_iff : Like [] t ↔ t = [] := by
  constructor
  · rintro ⟨⟩
    rfl
  · rintro rfl
    exact .nil

theorem run_iff : Like ('%' :: p) t ↔ ∃ run rest, t = run ++ rest ∧ Like p rest := by
  constructor
  · intro like
    cases like with
    | run s rest => exact ⟨s, _, rfl, rest⟩
    | same plain _ => exact absurd rfl plain.1
  · rintro ⟨run, rest, rfl, like⟩
    exact .run run like

theorem one_iff : Like ('_' :: p) t ↔ ∃ d rest, t = d :: rest ∧ Like p rest := by
  constructor
  · intro like
    cases like with
    | one d rest => exact ⟨d, _, rfl, rest⟩
    | same plain _ => exact absurd rfl plain.2
  · rintro ⟨d, rest, rfl, like⟩
    exact .one d like

theorem same_iff (plain : c ≠ '%' ∧ c ≠ '_') :
    Like (c :: p) t ↔ ∃ rest, t = c :: rest ∧ Like p rest := by
  constructor
  · intro like
    cases like with
    | run => exact absurd rfl plain.1
    | one => exact absurd rfl plain.2
    | same _ rest => exact ⟨_, rfl, rest⟩
  · rintro ⟨rest, rfl, like⟩
    exact .same plain like

end Like

namespace Regex

inductive Atom
  | any
  | char (c : Char)

inductive Item
  | start
  | stop
  | one (a : Atom)
  | many (a : Atom)

/-! How a regular expression is read. Groups, classes, branches and other numbers of repetitions are
not: where a sign of theirs stands without a backslash, there is no reading. -/

def signs : List Char :=
  ['.', '^', '$', '*', '+', '?', '(', ')', '[', ']', '\x7b', '\x7d', '|', '\\']

def single? (c : Char) : Option Item :=
  if c = '^' then some .start
  else if c = '$' then some .stop
  else if c = '.' then some (.one .any)
  else if c ∈ signs then none
  else some (.one (.char c))

def repeated? : Item → Option Item
  | .one a => some (.many a)
  | _ => none

def escaped? (c : Char) : Option Item := if c ∈ signs then some (.one (.char c)) else none

def read? : List Char → Option (List Item)
  | [] => some []
  | '\\' :: c :: '*' :: s => ((escaped? c).bind repeated?).bind fun i => (read? s).map (i :: ·)
  | '\\' :: c :: s => (escaped? c).bind fun i => (read? s).map (i :: ·)
  | c :: '*' :: s => ((single? c).bind repeated?).bind fun i => (read? s).map (i :: ·)
  | c :: s => (single? c).bind fun i => (read? s).map (i :: ·)

theorem read?_cons {c : Char} {s : List Char} (other : c ≠ '\\')
    (once : ∀ rest, s ≠ '*' :: rest) :
    read? (c :: s) = (single? c).bind fun i => (read? s).map (i :: ·) := by
  rw [read?]
  · intro d rest escape
    exact absurd escape other
  · intro d rest escape
    exact absurd escape other
  · exact once

theorem read?_escaped {c : Char} {s : List Char} (once : ∀ rest, s ≠ '*' :: rest) :
    read? ('\\' :: c :: s) = (escaped? c).bind fun i => (read? s).map (i :: ·) := by
  rw [read?]
  exact once

theorem single?_of_not_mem {c : Char} (other : c ∉ signs) :
    single? c = some (.one (.char c)) := by
  have apart : ∀ d ∈ signs, c ≠ d := fun d sign own => other (own ▸ sign)
  rw [single?, if_neg (apart '^' (by decide)), if_neg (apart '$' (by decide)),
    if_neg (apart '.' (by decide)), if_neg other]

/-! What a regular expression matches. -/

section

variable (isBreak : Char → Bool)

def Atom.Accepts : Atom → Char → Prop
  | .any, d => isBreak d = false
  | .char c, d => d = c

/-- Items match from a place on, with the first text before it and the second one behind. -/
def Fits : List Item → List Char → List Char → Prop
  | [], _, _ => True
  | .start :: is, s, t => s = [] ∧ Fits is s t
  | .stop :: is, s, t => t = [] ∧ Fits is s t
  | .one a :: is, s, t =>
    ∃ c rest, t = c :: rest ∧ a.Accepts isBreak c ∧ Fits is (s ++ [c]) rest
  | .many a :: is, s, t =>
    ∃ run rest, t = run ++ rest ∧ (∀ c ∈ run, a.Accepts isBreak c) ∧ Fits is (s ++ run) rest

/-- Somewhere in a text. Which characters end a line is left open: a newline does, and a carriage
return by some rules. -/
def Matches (regex text : String) : Prop :=
  ∃ is, read? regex.toList = some is ∧ ∃ s t, text.toList = s ++ t ∧ Fits isBreak is s t

end

/-! The regular expression of a pattern. -/

def wildcard (c : Char) : Item :=
  if c = '%' then .many .any else if c = '_' then .one .any else .one (.char c)

theorem isPatternSpecial_iff {c : Char} : isPatternSpecial c ↔ c ∈ signs := by
  simp [isPatternSpecial, signs, or_assoc]

theorem wildcardChar_cases (c : Char) :
    (c = '%' ∧ wildcardChar c = ['.', '*']) ∨
    (c = '_' ∧ wildcardChar c = ['.']) ∨
    ((c ≠ '%' ∧ c ≠ '_') ∧
      ((c ∈ signs ∧ wildcardChar c = ['\\', c]) ∨ (c ∉ signs ∧ wildcardChar c = [c]))) := by
  by_cases run : c = '%'
  · exact .inl ⟨run, by rw [run]; rfl⟩
  by_cases one : c = '_'
  · exact .inr (.inl ⟨one, by rw [one]; rfl⟩)
  refine .inr (.inr ⟨⟨run, one⟩, ?_⟩)
  by_cases sign : c ∈ signs
  · exact .inl ⟨sign, if_pos (isPatternSpecial_iff.2 sign)⟩
  · have plain : ¬isPatternSpecial c := fun special => sign (isPatternSpecial_iff.1 special)
    exact .inr ⟨sign, by rw [wildcardChar, if_neg plain, if_neg run, if_neg one]⟩

theorem wildcard_of_plain {c : Char} (plain : c ≠ '%' ∧ c ≠ '_') :
    wildcard c = .one (.char c) := by
  rw [wildcard, if_neg plain.1, if_neg plain.2]

theorem written_ne_star (p rest : List Char) : p.flatMap wildcardChar ++ ['$'] ≠ '*' :: rest := by
  cases p with
  | nil => simp
  | cons c p =>
    rw [List.flatMap_cons, List.append_assoc]
    rcases wildcardChar_cases c with ⟨-, own⟩ | ⟨-, own⟩ | ⟨-, ⟨-, own⟩ | ⟨other, own⟩⟩
    · simp [own]
    · simp [own]
    · simp [own]
    · rw [own]
      intro same
      obtain ⟨rfl, -⟩ := List.cons.inj same
      exact other (by decide)

theorem read?_written (p : List Char) :
    read? (p.flatMap wildcardChar ++ ['$']) = some (p.map wildcard ++ [.stop]) := by
  induction p with
  | nil => rfl
  | cons c p ih =>
    have once := written_ne_star p
    rw [List.flatMap_cons, List.append_assoc, List.map_cons, List.cons_append]
    rcases wildcardChar_cases c with ⟨rfl, own⟩ | ⟨rfl, own⟩ | ⟨plain, kind⟩
    · rw [own]
      change (read? (p.flatMap wildcardChar ++ ['$'])).map (.many .any :: ·) = _
      rw [ih]
      rfl
    · rw [own, List.singleton_append, read?_cons (by decide) once, ih]
      rfl
    · rw [wildcard_of_plain plain]
      rcases kind with ⟨sign, own⟩ | ⟨other, own⟩
      · rw [own, List.cons_append, List.singleton_append, read?_escaped once, ih, escaped?,
          if_pos sign]
        rfl
      · have unescaped : c ≠ '\\' := by
          rintro rfl
          exact other (by decide)
        rw [own, List.singleton_append, read?_cons unescaped once, ih, single?_of_not_mem other]
        rfl

theorem fits_written {isBreak : Char → Bool} {p s t : List Char}
    (line : ∀ c ∈ t, isBreak c = false) :
    Fits isBreak (p.map wildcard ++ [.stop]) s t ↔ Like p t := by
  induction p generalizing s t with
  | nil => simp [Fits, Like.nil_iff]
  | cons c p ih =>
    rw [List.map_cons, List.cons_append]
    by_cases run : c = '%'
    · subst run
      change (∃ run rest, _) ↔ _
      rw [Like.run_iff]
      refine exists_congr fun run => exists_congr fun rest => ?_
      rw [and_congr_right_iff]
      rintro rfl
      rw [List.forall_mem_append] at line
      rw [ih line.2]
      exact and_iff_right line.1
    by_cases one : c = '_'
    · subst one
      change (∃ d rest, _) ↔ _
      rw [Like.one_iff]
      refine exists_congr fun d => exists_congr fun rest => ?_
      rw [and_congr_right_iff]
      rintro rfl
      rw [List.forall_mem_cons] at line
      rw [ih line.2]
      exact and_iff_right line.1
    · rw [wildcard_of_plain ⟨run, one⟩, Like.same_iff ⟨run, one⟩]
      constructor
      · rintro ⟨d, rest, rfl, rfl, fits⟩
        exact ⟨rest, rfl, (ih (List.forall_mem_cons.1 line).2).1 fits⟩
      · rintro ⟨rest, rfl, like⟩
        exact ⟨c, rest, rfl, rfl, (ih (List.forall_mem_cons.1 line).2).2 like⟩

end Regex

open Regex

/-- On one line, a pattern and its regular expression describe the same texts. -/
theorem matches_likeToRegex (isBreak : Char → Bool) (p t : String)
    (line : ∀ c ∈ t.toList, isBreak c = false) :
    Matches isBreak (likeToRegex p) t ↔ Like p.toList t.toList := by
  have text : (likeToRegex p).toList = '^' :: (p.toList.flatMap wildcardChar ++ ['$']) := by
    simp [likeToRegex]
  have read : read? (likeToRegex p).toList =
      some (.start :: (p.toList.map wildcard ++ [.stop])) := by
    rw [text, read?_cons (by decide) (written_ne_star p.toList), read?_written]
    rfl
  rw [Matches, read]
  constructor
  · rintro ⟨is, own, s, rest, whole, fits⟩
    obtain rfl := Option.some.inj own
    obtain ⟨rfl, fits⟩ := fits
    obtain rfl : t.toList = rest := whole
    exact (fits_written line).1 fits
  · intro like
    exact ⟨_, rfl, [], t.toList, rfl, rfl, (fits_written line).2 like⟩

theorem matches_likeToRegex_signs :
    (∀ c ∈ "1*(a.b)|\rc".toList, (c == '\n') = false) ∧
    (Matches (· == '\n') (likeToRegex "1*(%b)|_c") "1*(a.b)|\rc" ↔
      Like "1*(%b)|_c".toList "1*(a.b)|\rc".toList) := by
  have line : ∀ c ∈ "1*(a.b)|\rc".toList, (c == '\n') = false := by decide
  exact ⟨line, matches_likeToRegex (· == '\n') "1*(%b)|_c" "1*(a.b)|\rc" line⟩

end SparqlClient
