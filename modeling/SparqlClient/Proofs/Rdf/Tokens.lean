import Mathlib.Data.List.TakeWhile
import SparqlClient.Proofs.Rdf.Data
import SparqlClient.Proofs.Statement.Prologue

/-! Texts in the data of a query or an update. Main statement: a text without a meaning of its own
is written as one string, which is read back as the text; what is taken for an IRI, a label of a
blank node or a variable is written without escapes, and is one token exactly where its characters
are those of such a token. A single token ends where it ends, whatever follows behind a blank. -/

namespace SparqlClient

open Text Shape

namespace Rdf

def isReferenceChar (c : Char) : Bool :=
  isIriChar c && !isBlank c && !(0x7f ≤ c.toNat && c.toNat ≤ 0x9f)

def isVariableChar (c : Char) : Bool :=
  isLabelStart .update c || [(0xb7, 0xb7), (0x300, 0x36f), (0x203f, 0x2040)].any (inRange c)

theorem isVariableChar_of_isLabelStart {c : Char} (h : isLabelStart .update c) :
    isVariableChar c := by
  simp [isVariableChar, h]

theorem isLabelStart_of_isAsciiWord {c : Char} (h : isAsciiWord c) : isLabelStart .update c := by
  rw [isAsciiWord, Bool.or_eq_true, beq_iff_eq] at h
  rcases h with word | rfl
  · rw [Char.isAlphanum, Bool.or_eq_true] at word
    rcases word with letter | digit
    · have code := Statement.isAlpha_iff.1 letter
      simp [isLabelStart, letterRanges, inRange]
      omega
    · simp [isLabelStart, digit]
  · decide

theorem isSigil_of_isAsciiWord {c : Char} (h : isAsciiWord c) : isSigil c = false := by
  rw [isSigil, Bool.or_eq_false_iff, decide_eq_false_iff_not, decide_eq_false_iff_not]
  constructor <;> rintro rfl <;> exact absurd h (by decide)

/-- What follows one token of data: an IRI between brackets, a label of a blank node, a variable,
or a string between double quotes. -/
def token? : List Char → Option (List Char)
  | '<' :: s =>
    match s.dropWhile isReferenceChar with
    | '>' :: rest => some rest
    | _ => none
  | '_' :: ':' :: s => (label? .update s).map Prod.snd
  | '?' :: c :: s => if isLabelStart .update c then some (s.dropWhile isVariableChar) else none
  | '"' :: s => (stringBody? s).map Prod.snd
  | _ => none

def IsToken (text : String) : Prop := token? text.toList = some []

instance (text : String) : Decidable (IsToken text) :=
  inferInstanceAs (Decidable (token? text.toList = some []))

theorem token?_angled (l : List Char) :
    token? ('<' :: l ++ ['>']) = some [] ↔ ∀ c ∈ l, isReferenceChar c := by
  have closing : isReferenceChar '>' = false := by decide
  change (match (l ++ ['>']).dropWhile isReferenceChar with
    | '>' :: rest => some rest
    | _ => none) = some [] ↔ _
  induction l with
  | nil => simp [closing]
  | cons c l ih =>
    rw [List.forall_mem_cons]
    cases own : isReferenceChar c with
    | true => simpa [own] using ih
    | false =>
      have stopped : (c :: l ++ ['>']).dropWhile isReferenceChar = c :: (l ++ ['>']) := by
        simp [own]
      rw [stopped]
      split
      · rename_i rest bracket
        obtain ⟨rfl, rfl⟩ := List.cons.inj bracket
        simp
      · simp

theorem label?_eq_nil_iff (s : List Char) :
    (label? .update s).map Prod.snd = some [] ↔ IsLabel .update s := by
  constructor
  · intro read
    cases s with
    | nil => cases read
    | cons c t =>
      rw [label?] at read
      split at read
      · rename_i start
        have parts := List.takeWhile_append_dropWhile (p := isLabelPart .update) (l := t)
        have dots := dropEndWhile_append (· == '.') (t.takeWhile (isLabelPart .update))
        generalize body : dropEndWhile (· == '.') (t.takeWhile (isLabelPart .update)) = l at *
        have rest : t.drop l.length = [] := Option.some.inj read
        rw [← parts, ← dots, List.append_assoc, List.drop_left, List.append_eq_nil_iff] at rest
        rw [rest.1, List.append_nil] at dots
        rw [rest.2, List.append_nil, ← dots] at parts
        subst parts
        refine ⟨by simp, by simpa using start, ?_, ?_, fun _ _ => rfl⟩
        · exact List.forall_mem_cons.2 ⟨by simp [isLabelPart, start],
            fun x member => List.mem_takeWhile_imp (dots ▸ member)⟩
        · rw [List.getLast?_cons]
          cases ended : l.getLast? with
          | none =>
            rintro ⟨⟩
            exact absurd start (by decide)
          | some x =>
            rintro ⟨⟩
            rw [← body] at ended
            exact absurd (stop_of_dropEndWhile _ _ ended) (by decide)
      · cases read
  · intro label
    have read := label?_text (s := []) label (by simp)
    rw [List.append_nil] at read
    rw [read]
    rfl

theorem stringBody?_append {s t rest : List Char} (h : stringBody? s = some (t, rest))
    (more : List Char) : stringBody? (s ++ more) = some (t, rest ++ more) := by
  refine IsStringBody.read ?_
  replace h := isStringBody_of_stringBody? h
  induction h with
  | close => exact .close
  | escape form later ih =>
    rw [List.append_assoc]
    exact .escape form ih
  | plain quote backslash newline carriage later ih =>
    exact .plain quote backslash newline carriage ih

theorem IsToken.append {text : String} (h : IsToken text) (rest : List Char) :
    token? (text.toList ++ ' ' :: rest) = some (' ' :: rest) := by
  unfold IsToken at h
  generalize text.toList = s at h
  unfold token? at h
  split at h
  · rename_i s
    split at h
    · rename_i t closed
      obtain rfl : t = [] := Option.some.inj h
      have whole := List.takeWhile_append_dropWhile (p := isReferenceChar) (l := s)
      rw [closed] at whole
      have inside : ∀ c ∈ s.takeWhile isReferenceChar, isReferenceChar c :=
        fun c member => List.mem_takeWhile_imp member
      change (match (s ++ ' ' :: rest).dropWhile isReferenceChar with
        | '>' :: rest => some rest
        | _ => none) = _
      rw [← whole, List.append_assoc, List.dropWhile_append_of_pos inside]
      rfl
    · cases h
  · rename_i s
    have stop : isLabelPart .update ' ' = false := by decide
    have read := label?_text (s := ' ' :: rest) ((label?_eq_nil_iff s).1 h) (by simpa using stop)
    change (label? .update (s ++ ' ' :: rest)).map Prod.snd = _
    rw [read]
    rfl
  · rename_i c s
    split at h
    · rename_i start
      have all : ∀ x ∈ s, isVariableChar x := List.dropWhile_eq_nil_iff.1 (Option.some.inj h)
      change (if isLabelStart .update c then
        some ((s ++ ' ' :: rest).dropWhile isVariableChar) else none) = _
      rw [if_pos start, List.dropWhile_append_of_pos all]
      rfl
    · cases h
  · rename_i s
    obtain ⟨⟨t, u⟩, read, rfl⟩ := Option.map_eq_some_iff.1 h
    change (stringBody? (s ++ ' ' :: rest)).map Prod.snd = _
    rw [stringBody?_append read]
    rfl
  · cases h

def bare (s : String) : List Char := dropClosing (dropOpening (trimBy isBlank s.toList))

theorem isToken_angled (s : String) : IsToken (angled s) ↔ ∀ c ∈ bare s, isReferenceChar c := by
  have written : (angled s).toList = '<' :: normalizeIriChars (bare s) ++ ['>'] := by
    simp [angled, normalizeIri, bare]
  rw [IsToken, written, token?_angled, forall_mem_normalizeIriChars (by decide)]

theorem stringBody?_doubleQuoted (s : String) :
    stringBody? ((doubleQuoted s).toList.drop 1) = some (s.toList, []) := by
  have read := stringBody?_text .update s.toList []
  rw [flatMap_spell (d := .update) fun c _ => rfl] at read
  have written : (doubleQuoted s).toList.drop 1 = s.toList.flatMap literalEscape ++ ['"'] := by
    simp [doubleQuoted, escapeLiteral]
  rw [written, read]

theorem isToken_doubleQuoted (s : String) : IsToken (doubleQuoted s) := by
  have written : (doubleQuoted s).toList = '"' :: (doubleQuoted s).toList.drop 1 := by
    simp [doubleQuoted]
  rw [IsToken, written]
  change (stringBody? ((doubleQuoted s).toList.drop 1)).map Prod.snd = _
  rw [stringBody?_doubleQuoted]
  rfl

theorem isToken_label {s : String} (h : startsWith s "_:") :
    IsToken s ↔ IsLabel .update (s.toList.drop 2) := by
  obtain ⟨l, marked⟩ := Option.isSome_iff_exists.1 h
  have whole : s.toList = '_' :: ':' :: l := after?_eq_some_iff.1 marked
  rw [IsToken, whole]
  exact label?_eq_nil_iff l

theorem isToken_variable {s : String} (h : isVariable s) :
    IsToken (withMark s) ↔ ∀ c ∈ s.toList.drop 1, isVariableChar c := by
  unfold isVariable at h
  split at h
  · rename_i mark t shape
    rw [Bool.and_eq_true] at h
    obtain ⟨sigil, name⟩ := h
    unfold isIdentifierChars at name
    split at name
    · rename_i c u
      rw [Bool.and_eq_true] at name
      have word : isAsciiWord c := by
        have ascii := name.1
        rw [isLetterOrLine, Bool.or_eq_true, decide_eq_true_eq] at ascii
        rcases ascii with letter | rfl
        · simp [isAsciiWord, Char.isAlphanum, letter]
        · decide
      have letter := isLabelStart_of_isAsciiWord word
      have written : (withMark s).toList = '?' :: c :: u := by
        have mark : isSigil mark := sigil
        simp [withMark, trimStartOf, shape, mark, isSigil_of_isAsciiWord word]
      rw [IsToken, written, shape]
      change (if isLabelStart .update c then some (u.dropWhile isVariableChar) else none) =
        some [] ↔ ∀ x ∈ c :: u, isVariableChar x
      rw [if_pos letter, Option.some.injEq, List.dropWhile_eq_nil_iff, List.forall_mem_cons]
      exact ⟨fun all => ⟨isVariableChar_of_isLabelStart letter, all⟩, fun all => all.2⟩
    · cases name
  · cases h

/-- Texts in data, by the kind of term that they are taken for. -/
theorem isToken_dataValue (p : Option Prefixes) (s : String) :
    (IsToken (dataValue p (.text s)) ↔ match (classifyText p s).kind with
      | .iri | .urn => ∀ c ∈ bare (classifyText p s).value.plainText, isReferenceChar c
      | .blank => IsLabel .update (s.toList.drop 2)
      | .variable => ∀ c ∈ s.toList.drop 1, isVariableChar c
      | _ => True) ∧
    ((classifyText p s).kind ∉ [.iri, .urn, .blank, .variable] →
      stringBody? ((dataValue p (.text s)).toList.drop 1) = some (s.toList, [])) ∧
    (IsToken (dataValue p (.text s)) → ∀ rest,
      token? ((dataValue p (.text s)).toList ++ ' ' :: rest) = some (' ' :: rest)) := by
  have quoted (kind : (classifyText p s).kind = .compact ∨ (classifyText p s).kind = .raw) :
      dataValue p (.text s) = doubleQuoted s := by
    rcases kind with kind | kind <;>
      simp [dataValue, kind, Term.ofText, Term.plain, Term.render, Value.plainText, Value.truth]
  refine ⟨?_, fun plain => ?_, fun single rest => single.append rest⟩
  · rcases classifyText_cases p s with ⟨mark, read⟩ | ⟨k, x, read, kind⟩ | ⟨name, read⟩ |
      ⟨k, read, kind⟩
    · have written : dataValue p (.text s) = s := by
        simp [dataValue, read, Term.ofText, Term.plain, Term.render, Value.plainText]
      rw [written, read]
      exact isToken_label mark
    · have written : dataValue p (.text s) = angled x := by
        rcases kind with rfl | rfl <;>
          simp [dataValue, read, Term.ofText, Term.plain, Term.render, Value.plainText]
      rw [written, read]
      rcases kind with rfl | rfl <;> exact isToken_angled x
    · have written : dataValue p (.text s) = withMark s := by
        simp [dataValue, read, Term.ofText, Term.plain, Term.render, Value.plainText]
      rw [written, read]
      exact isToken_variable name
    · have single := quoted (by rw [read]; exact kind) ▸ isToken_doubleQuoted s
      rw [read]
      rcases kind with rfl | rfl <;> exact iff_of_true single trivial
  · have kind : (classifyText p s).kind = .compact ∨ (classifyText p s).kind = .raw := by
      rcases classifyText_cases p s with ⟨-, read⟩ | ⟨k, x, read, kind⟩ | ⟨-, read⟩ |
        ⟨k, read, kind⟩
      · simp [read, Term.ofText, Term.plain] at plain
      · rcases kind with rfl | rfl <;> simp [read, Term.ofText, Term.plain] at plain
      · simp [read, Term.ofText, Term.plain] at plain
      · rw [read]
        exact kind
    rw [quoted kind]
    exact stringBody?_doubleQuoted s

/-- A URL ends where its bracket stands, and what is behind becomes text of the query. -/
theorem exists_split_of_text :
    dataValue (some .standard) (.text "http://e/x>.<http://evil>") = "<http://e/x>.<http:/evil>" ∧
    ¬IsToken (dataValue (some .standard) (.text "http://e/x>.<http://evil>")) ∧
    token? "<http://e/x>.<http:/evil>".toList = some ".<http:/evil>".toList := by
  decide +kernel

end Rdf

end SparqlClient
