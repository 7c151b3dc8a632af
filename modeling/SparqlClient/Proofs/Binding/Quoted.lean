import Mathlib.Data.List.Basic
import SparqlClient.Proofs.Binding.Substitution
import SparqlClient.Query.Clause

/-! Strings between double quotes. Only backslashes and quotes are escaped when one is written, so
that the scanner of placeholders reads a text back as it was exactly if there is no line feed in
it: behind a line feed no string goes on, and the quote that should close it opens another one. -/

namespace SparqlClient

open Text Token

/-- What stands between two quotes, without its escapes; line feeds and quotes need one. -/
def unescapeQuoted : List Char → Option (List Char)
  | [] => some []
  | '\\' :: c :: s => (escapeMeaning? c).bind fun d => (unescapeQuoted s).map (d :: ·)
  | c :: s =>
    if c = '\\' || c = '"' || c = '\n' then none else (unescapeQuoted s).map (c :: ·)

namespace Token

def quotedContent? : Token → Option String
  | .quoted ('"' :: s) =>
    if s.getLast? = some '"' then (unescapeQuoted s.dropLast).map String.ofList else none
  | _ => none

end Token

/-- Wherever a string can begin, the text is one string token with the content, and the text before
it and the text behind it are scanned without it. -/
structure IsString (written content : String) : Prop where
  token : ∀ a b, QuotesClosed a → tokens (a ++ (written.toList ++ b)) =
    tokens a ++ .quoted written.toList :: tokens b
  content : (Token.quoted written.toList).quotedContent? = some content

theorem IsString.placeholders {written content : String} (h : IsString written content)
    {a : List Char} (closed : QuotesClosed a) (b : List Char) :
    placeholders (a ++ (written.toList ++ b)) =
      SparqlClient.placeholders a + SparqlClient.placeholders b := by
  rw [SparqlClient.placeholders, h.token a b closed, List.count_append,
    List.count_cons_of_ne (by simp)]
  rfl

def quoteEscape (c : Char) : List Char :=
  if c = '\\' then ['\\', '\\'] else if c = '"' then ['\\', '"'] else [c]

def inQuotes (s : String) : String := String.ofList ('"' :: s.toList.flatMap quoteEscape ++ ['"'])

theorem toList_inQuotes (s : String) :
    (inQuotes s).toList = '"' :: (s.toList.flatMap quoteEscape ++ ['"']) := by
  simp [inQuotes]

theorem quoteEscape_cases (c : Char) :
    (quoteEscape c = ['\\', c] ∧ c ≠ '\n' ∧ escapeMeaning? c = some c) ∨
      (quoteEscape c = [c] ∧ c ≠ '\\' ∧ c ≠ '"') := by
  unfold quoteEscape
  split
  · exact .inl (by simp_all [escapeMeaning?])
  · split
    · exact .inl (by simp_all [escapeMeaning?])
    · exact .inr (by simp_all)

theorem quotedTail_quoteEscape {s : List Char} (line : '\n' ∉ s) (rest : List Char) :
    quotedTail '"' (s.flatMap quoteEscape ++ '"' :: rest) =
      some (s.flatMap quoteEscape ++ ['"'], rest) := by
  induction s with
  | nil =>
    rw [quotedTail.eq_def]
    exact if_pos rfl
  | cons c s ih =>
    rw [List.mem_cons, not_or] at line
    have behind := ih line.2
    rw [List.flatMap_cons, List.append_assoc, List.append_assoc]
    rcases quoteEscape_cases c with ⟨escaped, other, -⟩ | ⟨plain, backslash, quote⟩
    · simp [escaped, quotedTail, other, behind]
    · rw [plain, List.singleton_append, quotedTail.eq_def]
      simp [backslash, quote, Ne.symm line.1, behind]

theorem quotedTail_quoteEscape_eq_none {s : List Char} (line : '\n' ∈ s) (rest : List Char) :
    quotedTail '"' (s.flatMap quoteEscape ++ rest) = none := by
  induction s with
  | nil => cases line
  | cons c s ih =>
    rw [List.flatMap_cons, List.append_assoc]
    rcases quoteEscape_cases c with ⟨escaped, other, -⟩ | ⟨plain, backslash, quote⟩
    · have behind := ih ((List.mem_cons.1 line).resolve_left (Ne.symm other))
      simp [escaped, quotedTail, other, behind]
    · rw [plain, List.singleton_append, quotedTail.eq_def]
      by_cases here : c = '\n'
      · simp [here]
      · have behind := ih ((List.mem_cons.1 line).resolve_left (Ne.symm here))
        simp [backslash, quote, here, behind]

theorem unescapeQuoted_quoteEscape {s : List Char} (line : '\n' ∉ s) :
    unescapeQuoted (s.flatMap quoteEscape) = some s := by
  induction s with
  | nil => rfl
  | cons c s ih =>
    rw [List.mem_cons, not_or] at line
    have behind := ih line.2
    rw [List.flatMap_cons]
    rcases quoteEscape_cases c with ⟨escaped, -, meaning⟩ | ⟨plain, backslash, quote⟩
    · simp [escaped, unescapeQuoted, meaning, behind]
    · rw [plain, List.singleton_append, unescapeQuoted.eq_def]
      simp [backslash, quote, Ne.symm line.1, behind]

theorem tokens_inQuotes {s : String} (line : '\n' ∉ s.toList) (b : List Char) :
    tokens ((inQuotes s).toList ++ b) = .quoted (inQuotes s).toList :: tokens b := by
  rw [toList_inQuotes, List.cons_append, List.append_assoc, List.singleton_append, tokens]
  simp [next, quotedTail_quoteEscape line]

theorem isString_inQuotes_iff {s : String} : IsString (inQuotes s) s ↔ '\n' ∉ s.toList := by
  constructor
  · intro h line
    have scan := h.token [] [] (by simp [QuotesClosed])
    have unclosed : (tokens (inQuotes s).toList).head? = some (.other '"') := by
      rw [toList_inQuotes, tokens]
      simp [next, quotedTail_quoteEscape_eq_none line]
    rw [List.nil_append, List.append_nil] at scan
    rw [scan] at unclosed
    simp at unclosed
  · intro line
    refine ⟨fun a b closed => ?_, ?_⟩
    · have seam : Breaks ((inQuotes s).toList ++ b) := by
        rw [toList_inQuotes, List.cons_append]
        exact breaks_of_isStop (s := ['"']) (by decide) _
      rw [tokens_append closed seam, tokens_inQuotes line]
    · simp [toList_inQuotes, quotedContent?, unescapeQuoted_quoteEscape line]

theorem toList_inQuotes_of_plain {s : String} (plain : ∀ c ∈ s.toList, c ≠ '\\' ∧ c ≠ '"') :
    (inQuotes s).toList = '"' :: (s.toList ++ ['"']) := by
  have same : s.toList.flatMap quoteEscape = s.toList := by
    rw [List.flatMap_congr (g := fun c => [c]) fun c hc => ?_, List.flatMap_singleton']
    simp [quoteEscape, plain c hc]
  rw [toList_inQuotes, same]

theorem isNull_of_onlyText {v : Value} {s : String} (h : onlyText v = .ok s) :
    v.isNull = false := by
  cases v with
  | null => cases h
  | _ => rfl

theorem separatorText_eq {v : Value} {s : String} (text : onlyText v = .ok s) :
    Compile.separatorText v = .ok ("; separator=" ++ inQuotes s) := by
  have escapes (c : Char) : (if c = '\\' then "\\\\" else if c = '"' then "\\\"" else
      String.singleton c).toList = quoteEscape c := by
    unfold quoteEscape
    split
    · rfl
    · split <;> simp
  have written : "; separator=\"" ++ mapChars (fun c => if c = '\\' then "\\\\" else
      if c = '"' then "\\\"" else String.singleton c) s ++ "\"" =
      "; separator=" ++ inQuotes s := by
    rw [← String.toList_inj]
    simp only [String.toList_append, toList_mapChars, escapes, toList_inQuotes]
    simp
  simp only [Compile.separatorText, isNull_of_onlyText text, text]
  exact congrArg Except.ok written

end SparqlClient
