import Mathlib.Algebra.Group.Nat.Defs
import Mathlib.Data.List.Basic
import Mathlib.Tactic.SplitIfs
import SparqlClient.Proofs.Rdf.Syntax
import SparqlClient.Rdf.NTriples

/-! What is written for a node is read back, whatever follows it. -/

namespace SparqlClient.Rdf

open Text

/-- On lines everything beyond ASCII is written by its number. -/
def spell : Dialect → Char → List Char
  | .lines => escapeUnicodeChar
  | .update => fun c => [c]

theorem spell_ascii (d : Dialect) {c : Char} (h : c.toNat ≤ 0x7F) : spell d c = [c] := by
  cases d with
  | lines => simp [spell, escapeUnicodeChar, h]
  | update => rfl

theorem flatMap_spell {d : Dialect} {l : List Char} (own : ∀ c ∈ l, spell d c = [c]) :
    l.flatMap (spell d) = l := by
  induction l with
  | nil => rfl
  | cons c l ih =>
    rw [List.forall_mem_cons] at own
    rw [List.flatMap_cons, own.1, ih own.2]
    rfl

theorem codePoint?_hex (width : Nat) {c : Char} (h : c.toNat < 16 ^ width) :
    codePoint? (hex hexDigitUpper width c.toNat) = some c := by
  have valid : c.toNat.isValidChar := c.valid
  have fits : c.toNat < Nat.pow 16 width := h
  rw [codePoint?, hexNumber?_hex, Nat.mod_eq_of_lt fits, Option.bind_some, if_pos valid,
    Char.ofNat_toNat]

theorem behind_eq_some_iff {c : Char} {read : Option (List Char × List Char)}
    {t rest : List Char} :
    behind c read = some (t, rest) ↔ ∃ u, t = c :: u ∧ read = some (u, rest) := by
  unfold behind
  rw [Option.map_eq_some_iff]
  constructor
  · rintro ⟨⟨u, rest⟩, read, same⟩
    obtain ⟨rfl, rfl⟩ := Prod.mk.inj same
    exact ⟨u, rfl, read⟩
  · rintro ⟨u, rfl, read⟩
    exact ⟨(u, rest), read, rfl⟩

/-- An escape that gives the number of a character. -/
inductive IsNumbered (x : Char) : List Char → Prop
  | short {a b c d : Char} (code : codePoint? [a, b, c, d] = some x) :
    IsNumbered x ['\\', 'u', a, b, c, d]
  | long {a b c d e f g h : Char} (code : codePoint? [a, b, c, d, e, f, g, h] = some x) :
    IsNumbered x ['\\', 'U', a, b, c, d, e, f, g, h]

/-- The forms of a character: a letter behind a backslash, or its number. -/
inductive IsEscape (x : Char) : List Char → Prop
  | named {e : Char} (known : NTriples.escape? e = some x) : IsEscape x ['\\', e]
  | numbered {w : List Char} (code : IsNumbered x w) : IsEscape x w

theorem isNumbered_spell {c : Char} (beyond : ¬c.toNat ≤ 0x7F) : IsNumbered c (spell .lines c) := by
  unfold spell escapeUnicodeChar
  simp only [if_neg beyond]
  split
  · exact .short (codePoint?_hex 4 (by omega))
  · have bound : c.toNat < 0x110000 := by
      rcases c.valid with low | high
      · exact Nat.lt_trans low (by decide)
      · exact high.2
    exact .long (codePoint?_hex 8 (by omega))

theorem spell_cases (d : Dialect) (c : Char) : spell d c = [c] ∨ IsNumbered c (spell d c) := by
  cases d with
  | update => exact .inl rfl
  | lines =>
    by_cases small : c.toNat ≤ 0x7F
    · exact .inl (spell_ascii .lines small)
    · exact .inr (isNumbered_spell small)

theorem iriBody?_numbered {x : Char} {e : List Char} (h : IsNumbered x e) (s : List Char) :
    iriBody? (e ++ s) = behind x (iriBody? s) := by
  cases h with
  | @short a b c d code =>
    change iriBody? ('\\' :: 'u' :: a :: b :: c :: d :: s) = _
    rw [iriBody?, code]
    rfl
  | @long a b c d e f g h code =>
    change iriBody? ('\\' :: 'U' :: a :: b :: c :: d :: e :: f :: g :: h :: s) = _
    rw [iriBody?, code]
    rfl

theorem stringBody?_numbered {x : Char} {e : List Char} (h : IsNumbered x e) (s : List Char) :
    stringBody? (e ++ s) = behind x (stringBody? s) := by
  cases h with
  | @short a b c d code =>
    change stringBody? ('\\' :: 'u' :: a :: b :: c :: d :: s) = _
    rw [stringBody?, code]
    rfl
  | @long a b c d e f g h code =>
    change stringBody? ('\\' :: 'U' :: a :: b :: c :: d :: e :: f :: g :: h :: s) = _
    rw [stringBody?, code]
    rfl

theorem iriBody?_spell (d : Dialect) {c : Char} (own : isIriChar c) (s : List Char) :
    iriBody? (spell d c ++ s) = behind c (iriBody? s) := by
  rcases spell_cases d c with plain | numbered
  · have ne (x : Char) (breaker : isIriChar x = false) : c ≠ x := by
      rintro rfl
      rw [own] at breaker
      cases breaker
    rw [plain]
    change iriBody? (c :: s) = _
    rw [iriBody?, if_pos own]
    · exact ne '>' (by decide)
    · exact fun a b c d t first => absurd first (ne '\\' (by decide))
    · exact fun a b c d e f g h t first => absurd first (ne '\\' (by decide))
  · exact iriBody?_numbered numbered s

theorem iriBody?_text (d : Dialect) {t : List Char} (own : ∀ c ∈ t, isIriChar c)
    (s : List Char) : iriBody? (t.flatMap (spell d) ++ '>' :: s) = some (t, s) := by
  induction t with
  | nil => rfl
  | cons c t ih =>
    rw [List.forall_mem_cons] at own
    rw [List.flatMap_cons, List.append_assoc, iriBody?_spell d own.1, ih own.2]
    rfl

theorem stringBody?_named {e c : Char} (named : NTriples.escape? e = some c) (s : List Char) :
    stringBody? ('\\' :: e :: s) = behind c (stringBody? s) := by
  rw [stringBody?, named]
  · rfl
  · rintro a b c d t rfl rfl
    simp [NTriples.escape?] at named
  · rintro a b c d e f g h t rfl rfl
    simp [NTriples.escape?] at named

theorem stringBody?_plain {c : Char} (quote : c ≠ '"') (backslash : c ≠ '\\')
    (newline : c ≠ '\n') (carriage : c ≠ '\r') (s : List Char) :
    stringBody? (c :: s) = behind c (stringBody? s) := by
  rw [stringBody?]
  · simp [backslash, newline, carriage]
  · exact quote
  · exact fun a b c d t first => absurd first backslash
  · exact fun a b c d e f g h t first => absurd first backslash
  · exact fun e t first => absurd first backslash

theorem stringBody?_escape {x : Char} {w : List Char} (h : IsEscape x w) (s : List Char) :
    stringBody? (w ++ s) = behind x (stringBody? s) := by
  cases h with
  | named known => exact stringBody?_named known s
  | numbered code => exact stringBody?_numbered code s

/-- The inside of a string with the quote that closes it, and what it is read as. -/
inductive IsStringBody (rest : List Char) : List Char → List Char → Prop
  | close : IsStringBody rest ('"' :: rest) []
  | escape {x : Char} {w s t : List Char} (form : IsEscape x w) (later : IsStringBody rest s t) :
    IsStringBody rest (w ++ s) (x :: t)
  | plain {c : Char} {s t : List Char} (quote : c ≠ '"') (backslash : c ≠ '\\')
    (newline : c ≠ '\n') (carriage : c ≠ '\r') (later : IsStringBody rest s t) :
    IsStringBody rest (c :: s) (c :: t)

theorem IsStringBody.read {s t rest : List Char} (h : IsStringBody rest s t) :
    stringBody? s = some (t, rest) := by
  induction h with
  | close => rfl
  | escape form _ ih =>
    rw [stringBody?_escape form, ih]
    rfl
  | plain quote backslash newline carriage _ ih =>
    rw [stringBody?_plain quote backslash newline carriage, ih]
    rfl

theorem isStringBody_of_stringBody? {s t rest : List Char} (h : stringBody? s = some (t, rest)) :
    IsStringBody rest s t := by
  fun_induction stringBody? s generalizing t with
  | case1 s =>
    obtain ⟨rfl, rfl⟩ := Prod.mk.inj (Option.some.inj h)
    exact .close
  | case2 a b c d s ih =>
    obtain ⟨x, code, read⟩ := Option.bind_eq_some_iff.1 h
    obtain ⟨u, rfl, inner⟩ := behind_eq_some_iff.1 read
    exact .escape (.numbered (.short code)) (ih inner)
  | case3 a b c d e f g i s ih =>
    obtain ⟨x, code, read⟩ := Option.bind_eq_some_iff.1 h
    obtain ⟨u, rfl, inner⟩ := behind_eq_some_iff.1 read
    exact .escape (.numbered (.long code)) (ih inner)
  | case4 e s _ _ ih =>
    obtain ⟨x, known, read⟩ := Option.bind_eq_some_iff.1 h
    obtain ⟨u, rfl, inner⟩ := behind_eq_some_iff.1 read
    exact .escape (.named known) (ih inner)
  | case5 => cases h
  | case6 c s quote _ _ _ other ih =>
    obtain ⟨u, rfl, inner⟩ := behind_eq_some_iff.1 h
    simp only [Bool.or_eq_true, decide_eq_true_eq, not_or] at other
    exact .plain quote other.1.1 other.1.2 other.2 (ih inner)
  | case7 => cases h

theorem stringBody?_spell (d : Dialect) (c : Char) (s : List Char) :
    stringBody? ((literalEscape c).flatMap (spell d) ++ s) = behind c (stringBody? s) := by
  have pair (e : Char) (ascii : e.toNat ≤ 0x7F) :
      ['\\', e].flatMap (spell d) = ['\\', e] := by
    simp [spell_ascii d ascii, spell_ascii d (c := '\\') (by decide)]
  unfold literalEscape
  -- the five escapes, and every other character
  split_ifs with backslash quote newline carriage tab
  · rw [pair _ (by decide), backslash]
    exact stringBody?_named rfl s
  · rw [pair _ (by decide), quote]
    exact stringBody?_named rfl s
  · rw [pair _ (by decide), newline]
    exact stringBody?_named rfl s
  · rw [pair _ (by decide), carriage]
    exact stringBody?_named rfl s
  · rw [pair _ (by decide), tab]
    exact stringBody?_named rfl s
  · rw [List.flatMap_singleton]
    rcases spell_cases d c with plain | numbered
    · rw [plain]
      exact stringBody?_plain quote backslash newline carriage s
    · exact stringBody?_numbered numbered s

theorem stringBody?_text (d : Dialect) (t s : List Char) :
    stringBody? ((t.flatMap literalEscape).flatMap (spell d) ++ '"' :: s) = some (t, s) := by
  induction t with
  | nil => rfl
  | cons c t ih =>
    rw [List.flatMap_cons, List.flatMap_append, List.append_assoc, stringBody?_spell, ih]
    rfl

/-! Labels and tags end where a blank follows. -/

/-- A label of the grammar that is written as it is. -/
structure IsLabel (d : Dialect) (l : List Char) : Prop where
  filled : l ≠ []
  start : ∀ c ∈ l.head?, isLabelStart d c
  parts : ∀ c ∈ l, isLabelPart d c
  last : l.getLast? ≠ some '.'
  own : ∀ c ∈ l, spell d c = [c]

theorem label?_text {d : Dialect} {l s : List Char} (label : IsLabel d l)
    (stop : ∀ c ∈ s.head?, isLabelPart d c = false) :
    label? d (l ++ s) = some (.blank (String.ofList l), s) := by
  obtain ⟨filled, start, parts, last, -⟩ := label
  cases l with
  | nil => exact absurd rfl filled
  | cons c body =>
    rw [List.forall_mem_cons] at parts
    have run : (body ++ s).takeWhile (isLabelPart d) = body :=
      takeWhile_append_of_stop parts.2 stop
    have kept : dropEndWhile (· == '.') body = body := by
      refine dropEndWhile_eq_self fun x ended => ?_
      rw [List.getLast?_cons, Option.mem_def.1 ended] at last
      simpa using last
    rw [List.cons_append, label?, if_pos (start c rfl), run, kept]
    simp

/-- Letters, then parts of letters and digits behind hyphens. -/
def IsTag (l : List Char) : Prop :=
  ∃ first parts, l = first ++ List.flatMap ('-' :: ·) parts ∧ first ≠ [] ∧
    (∀ c ∈ first, c.isAlpha) ∧ ∀ part ∈ parts, part ≠ [] ∧ ∀ c ∈ part, c.isAlphanum

theorem languageParts_append {parts : List (List Char)} {s : List Char} {fuel : Nat}
    (own : ∀ part ∈ parts, part ≠ [] ∧ ∀ c ∈ part, c.isAlphanum)
    (stop : ∀ c ∈ s.head?, c ≠ '-' ∧ c.isAlphanum = false) (enough : parts.length ≤ fuel) :
    NTriples.languageParts fuel (parts.flatMap ('-' :: ·) ++ s) =
      (parts.flatMap ('-' :: ·), s) := by
  induction parts generalizing fuel with
  | nil =>
    cases fuel with
    | zero => rfl
    | succ fuel =>
      cases s with
      | nil => rfl
      | cons c s =>
        rw [List.flatMap_nil, List.nil_append, NTriples.languageParts]
        exact fun t first => absurd (List.cons.inj first).1 (stop c rfl).1
  | cons part parts ih =>
    rw [List.forall_mem_cons] at own
    cases fuel with
    | zero => cases enough
    | succ fuel =>
      have ended : ∀ c ∈ (parts.flatMap ('-' :: ·) ++ s).head?, c.isAlphanum = false := by
        cases parts with
        | nil => exact fun c first => (stop c first).2
        | cons next parts =>
          rintro c ⟨⟩
          rfl
      have run := takeWhile_append_of_stop own.1.2 ended
      have filled : part.isEmpty = false := by simpa using own.1.1
      have rest := ih own.2 (Nat.le_of_succ_le_succ enough)
      rw [List.flatMap_cons, List.cons_append, List.cons_append, List.append_assoc,
        NTriples.languageParts]
      simp [run, filled, rest]

theorem length_le_flatMap_cons {α : Type} {c : Char} {f : α → List Char} (l : List α) :
    l.length ≤ (l.flatMap fun a => c :: f a).length := by
  induction l with
  | nil => exact Nat.le_refl 0
  | cons a l ih =>
    rw [List.flatMap_cons, List.length_append, List.length_cons, List.length_cons]
    omega

theorem annotation?_tag {l s : List Char} (tag : IsTag l)
    (stop : ∀ c ∈ s.head?, c ≠ '-' ∧ c.isAlphanum = false) :
    annotation? ('@' :: (l ++ s)) = some ((some (String.ofList l), none), s) := by
  obtain ⟨first, parts, rfl, filled, letters, own⟩ := tag
  have ended : ∀ c ∈ (parts.flatMap ('-' :: ·) ++ s).head?, c.isAlpha = false := by
    cases parts with
    | nil =>
      intro c next
      have other := (stop c next).2
      rw [Char.isAlphanum, Bool.or_eq_false_iff] at other
      exact other.1
    | cons next parts =>
      rintro c ⟨⟩
      rfl
  have run := takeWhile_append_of_stop letters ended
  have enough : parts.length ≤ (first ++ (parts.flatMap ('-' :: ·) ++ s)).length := by
    have hyphens : parts.length ≤ (parts.flatMap ('-' :: ·)).length :=
      length_le_flatMap_cons parts
    rw [List.length_append, List.length_append]
    omega
  have some : first.isEmpty = false := by simpa using filled
  rw [List.append_assoc, annotation?]
  simp only [run, some, List.drop_left, languageParts_append own stop enough]
  rfl

theorem flatMap_piecesBy (p : Char → Bool) (c : Char) (only : ∀ x, p x = true → x = c)
    {s first : List Char} {rest : List (List Char)} (pieces : piecesBy p s = first :: rest) :
    s = first ++ rest.flatMap (c :: ·) := by
  induction s generalizing first rest with
  | nil =>
    obtain ⟨rfl, rfl⟩ := List.cons.inj pieces
    rfl
  | cons x s ih =>
    rw [piecesBy] at pieces
    split at pieces
    · rename_i separator
      obtain ⟨rfl, rfl⟩ := List.cons.inj pieces
      obtain rfl := only x separator
      obtain ⟨y, ys, split⟩ := List.exists_cons_of_ne_nil (piecesBy_ne_nil p s)
      rw [split, List.flatMap_cons, List.nil_append, List.cons_append, ← ih split]
    · obtain ⟨y, ys, split⟩ := List.exists_cons_of_ne_nil (piecesBy_ne_nil p s)
      rw [split] at pieces
      obtain ⟨rfl, rfl⟩ := List.cons.inj pieces
      rw [List.cons_append, ← ih split]

/-- The check of a language lets a line end through, and nothing else besides tags. -/
theorem exists_tag_of_isLanguageTag {l : String} (checked : Literal.isLanguageTag l = true) :
    ∃ tag, IsTag tag ∧ (l.toList = tag ∨ l.toList = tag ++ ['\n']) := by
  unfold Literal.isLanguageTag at checked
  generalize hb : (if l.toList.getLast? = some '\n' then l.toList.dropLast else l.toList) = body
    at checked
  obtain ⟨first, rest, split⟩ := List.exists_cons_of_ne_nil (piecesBy_ne_nil (· == '-') body)
  simp only [split, Bool.and_eq_true, Bool.not_eq_true', List.all_eq_true] at checked
  obtain ⟨⟨filled, letters⟩, parts⟩ := checked
  refine ⟨body, ⟨first, rest, flatMap_piecesBy (· == '-') '-' (by simp) split,
    by simpa using filled, letters, fun part member => ?_⟩, ?_⟩
  · obtain ⟨some, own⟩ := parts part member
    exact ⟨by simpa using some, own⟩
  · split at hb
    · rename_i line
      rw [← hb]
      exact .inr (List.dropLast_append_getLast? _ line).symm
    · exact .inl hb

theorem isTag_of_isLanguageTag {l : String} (checked : Literal.isLanguageTag l = true)
    (line : l.toList.getLast? ≠ some '\n') : IsTag l.toList := by
  obtain ⟨tag, own, same | ended⟩ := exists_tag_of_isLanguageTag checked
  · exact same ▸ own
  · simp [ended] at line

/-! Nodes. -/

/-- What can be written for the node is in the grammar. -/
def Writable (d : Dialect) : Node → Prop
  | .uri t => ∀ c ∈ t.toList, isIriChar c
  | .blank l => IsLabel d l.toList
  | .literal _ none none => True
  | .literal _ (some l) none => IsTag l.toList
  | .literal _ none (some t) => t ≠ "" ∧ ∀ c ∈ t.toList, isIriChar c
  | _ => False

def spelled (d : Dialect) (text : String) : List Char := text.toList.flatMap (spell d)

theorem toList_escapeUnicode (s : String) : (escapeUnicode s).toList = spelled .lines s :=
  String.toList_ofList

@[simp] theorem spelled_append (d : Dialect) (a b : String) :
    spelled d (a ++ b) = spelled d a ++ spelled d b := by
  simp [spelled]

theorem spelled_ascii (d : Dialect) {text : String} (ascii : ∀ c ∈ text.toList, c.toNat ≤ 0x7F) :
    spelled d text = text.toList :=
  flatMap_spell fun c member => spell_ascii d (ascii c member)

theorem spelled_update (text : String) : spelled .update text = text.toList :=
  flatMap_spell fun _ _ => rfl

variable {d : Dialect} {n : Node} {text : String} {s : List Char}

theorem spelled_angled :
    spelled d ("<" ++ text ++ ">") ++ s = '<' :: (spelled d text ++ '>' :: s) := by
  have opening : spelled d "<" = ['<'] := spelled_ascii d (by decide)
  have closing : spelled d ">" = ['>'] := spelled_ascii d (by decide)
  simp [opening, closing]

theorem spelled_label {l : String} (own : ∀ c ∈ l.toList, spell d c = [c]) :
    spelled d ("_:" ++ l) ++ s = '_' :: ':' :: (l.toList ++ s) := by
  have mark : spelled d "_:" = ['_', ':'] := spelled_ascii d (by decide)
  have kept : spelled d l = l.toList := flatMap_spell own
  simp [mark, kept]

theorem iri?_angled (own : ∀ c ∈ text.toList, isIriChar c) :
    iri? (spelled d ("<" ++ text ++ ">") ++ s) = some (.uri text, s) := by
  have body : iriBody? (spelled d text ++ '>' :: s) = some (text.toList, s) := iriBody?_text d own s
  rw [spelled_angled, iri?, body]
  simp

theorem resource?_angled (own : ∀ c ∈ text.toList, isIriChar c) :
    resource? d (spelled d ("<" ++ text ++ ">") ++ s) = some (.uri text, s) := by
  have read := iri?_angled (d := d) (s := s) own
  rw [spelled_angled] at read ⊢
  exact read

theorem resource?_label {l : String} (label : IsLabel d l.toList)
    (stop : ∀ c ∈ s.head?, isLabelPart d c = false) :
    resource? d (spelled d ("_:" ++ l) ++ s) = some (.blank l, s) := by
  rw [spelled_label label.own, resource?, label?_text label stop, String.ofList_toList]

theorem turtle_uri {t : String} (h : (Node.uri t).turtle = .ok text) : text = "<" ++ t ++ ">" := by
  change Node.uriText t = .ok text at h
  unfold Node.uriText at h
  split at h
  · cases h
  · exact (Except.ok.inj h).symm

theorem isLabelPart_blank (d : Dialect) : isLabelPart d ' ' = false := by cases d <;> decide

theorem resource?_turtle (writable : Writable d n) (own : ∀ t l k, n ≠ .literal t l k)
    (h : n.turtle = .ok text) :
    resource? d (spelled d text ++ ' ' :: s) = some (n, ' ' :: s) := by
  cases n with
  | literal t l k => exact absurd rfl (own t l k)
  | «variable» name => exact writable.elim
  | blank l =>
    obtain rfl := Except.ok.inj h
    exact resource?_label writable (by simp [isLabelPart_blank])
  | uri t =>
    rw [turtle_uri h]
    exact resource?_angled writable

theorem object?_quoted {t said : String} {lang datatype : Option String}
    (read : annotation? (spelled d said ++ s) = some ((lang, datatype), s)) :
    object? d (spelled d (doubleQuoted t ++ said) ++ s) = some (.literal t lang datatype, s) := by
  have quote : spelled d "\"" = ['"'] := spelled_ascii d (by decide)
  have escaped : spelled d (escapeLiteral t) =
      (t.toList.flatMap literalEscape).flatMap (spell d) := by
    rw [spelled, escapeLiteral, String.toList_ofList]
  have body := stringBody?_text d t.toList (spelled d said ++ s)
  simp only [doubleQuoted, spelled_append, quote, escaped, List.append_assoc]
  change literal? (_ ++ '"' :: (spelled d said ++ s)) = _
  rw [literal?, body]
  simp [read]

theorem isAscii_of_isAlphanum {c : Char} (h : c.isAlphanum) : c.toNat ≤ 0x7F := by
  delta Char.isAlphanum Char.isAlpha Char.isUpper Char.isLower Char.isDigit at h
  simp only [Bool.or_eq_true, Bool.and_eq_true, decide_eq_true_eq, UInt32.le_iff_toNat_le,
    ge_iff_le] at h
  have code : c.toNat = c.val.toNat := rfl
  have upper : 'Z'.val.toNat = 90 := rfl
  have lower : 'z'.val.toNat = 122 := rfl
  have nine : '9'.val.toNat = 57 := rfl
  omega

theorem IsTag.chars {l : List Char} (tag : IsTag l) : ∀ c ∈ l, c.isAlphanum ∨ c = '-' := by
  obtain ⟨first, parts, rfl, -, letters, own⟩ := tag
  intro c member
  rcases List.mem_append.1 member with front | behind
  · exact .inl (by simp [Char.isAlphanum, letters c front])
  · obtain ⟨part, listed, inside⟩ := List.mem_flatMap.1 behind
    rcases List.mem_cons.1 inside with rfl | inner
    · exact .inr rfl
    · exact .inl ((own part listed).2 c inner)

theorem IsTag.ascii {l : List Char} (tag : IsTag l) : ∀ c ∈ l, c.toNat ≤ 0x7F := by
  intro c member
  rcases tag.chars c member with letter | rfl
  · exact isAscii_of_isAlphanum letter
  · decide

theorem IsTag.ne_empty {l : String} (tag : IsTag l.toList) : l ≠ "" := by
  rintro rfl
  obtain ⟨first, parts, split, filled, -⟩ := tag
  exact filled (List.append_eq_nil_iff.1 split.symm).1

theorem isAlphanum_blank : ∀ c ∈ (' ' :: s).head?, c ≠ '-' ∧ c.isAlphanum = false := by
  rintro c ⟨⟩
  decide

theorem object?_of_resource? {x : Node × List Char} (other : s.head? ≠ some '"')
    (read : resource? d s = some x) : object? d s = some x := by
  unfold object?
  split
  · exact absurd rfl other
  · rw [read]
    rfl

theorem annotate_tag (text : String) {l : String} (filled : l ≠ "") :
    Node.annotate text (some l) none = text ++ ("@" ++ l) := by
  have kept : (some l).filter (· ≠ "") = some l := by simp [filled]
  rw [Node.annotate, kept]
  exact String.append_assoc

theorem annotate_datatype (text : String) {k : String} (filled : k ≠ "") :
    Node.annotate text none (some k) = text ++ ("^^" ++ ("<" ++ k ++ ">")) := by
  have kept : (some k).filter (· ≠ "") = some k := by simp [filled]
  have mark : text ++ "^^<" = text ++ "^^" ++ "<" := by
    rw [String.append_assoc]
    rfl
  rw [Node.annotate, kept]
  change text ++ "^^<" ++ k ++ ">" = _
  simp only [mark, String.append_assoc]

theorem annotation?_datatype {k : String} (own : ∀ c ∈ k.toList, isIriChar c) :
    annotation? (spelled d ("^^" ++ ("<" ++ k ++ ">")) ++ s) = some ((none, some k), s) := by
  have mark : spelled d "^^" = ['^', '^'] := spelled_ascii d (by decide)
  have body : iriBody? (spelled d k ++ '>' :: s) = some (k.toList, s) := iriBody?_text d own s
  rw [spelled_append, mark, List.append_assoc, spelled_angled]
  change (iriBody? (spelled d k ++ '>' :: s)).map _ = _
  rw [body]
  simp

theorem object?_ntriples (writable : Writable d n) (h : n.ntriples = .ok text) :
    object? d (spelled d text ++ ' ' :: s) = some (n, ' ' :: s) := by
  cases n with
  | «variable» name => exact writable.elim
  | blank l =>
    refine object?_of_resource? ?_ (resource?_turtle writable (by simp) h)
    obtain rfl := Except.ok.inj h
    rw [spelled_label writable.own]
    simp
  | uri t =>
    refine object?_of_resource? ?_ (resource?_turtle writable (by simp) h)
    rw [turtle_uri h, spelled_angled]
    simp
  | literal t lang datatype =>
    have written : Node.annotate (doubleQuoted t) lang datatype = text := Except.ok.inj h
    match lang, datatype, writable with
    | none, none, _ =>
      have said : annotation? (spelled d "" ++ ' ' :: s) = some ((none, none), ' ' :: s) := rfl
      have read := object?_quoted (t := t) said
      rw [String.append_empty] at read
      rw [← written]
      exact read
    | some l, none, tag =>
      have mark : spelled d "@" = ['@'] := spelled_ascii d (by decide)
      have said : annotation? (spelled d ("@" ++ l) ++ ' ' :: s) =
          some ((some l, none), ' ' :: s) := by
        have read := annotation?_tag (s := ' ' :: s) tag isAlphanum_blank
        rw [String.ofList_toList] at read
        rw [spelled_append, mark, spelled_ascii d tag.ascii]
        exact read
      rw [← written, annotate_tag _ tag.ne_empty]
      exact object?_quoted said
    | none, some k, ⟨filled, own⟩ =>
      rw [← written, annotate_datatype _ filled]
      exact object?_quoted (annotation?_datatype own)

/-! Nothing that is written for a node in the grammar breaks its line. -/

def IsUnbroken (s : List Char) : Prop := ∀ c ∈ s, isLineEnd c = false

instance (s : List Char) : Decidable (IsUnbroken s) :=
  inferInstanceAs (Decidable (∀ c ∈ s, isLineEnd c = false))

theorem IsUnbroken.append {a b : List Char} (ha : IsUnbroken a) (hb : IsUnbroken b) :
    IsUnbroken (a ++ b) := List.forall_mem_append.2 ⟨ha, hb⟩

theorem isUnbroken_hex (width n : Nat) : IsUnbroken (hex hexDigitUpper width n) := by
  induction width generalizing n with
  | zero => exact fun c member => nomatch member
  | succ width ih =>
    have digit : ∀ k < 16, isLineEnd (hexDigitUpper k) = false := by decide
    refine (ih (n / 16)).append fun c member => ?_
    rw [List.mem_singleton.1 member]
    exact digit _ (Nat.mod_lt _ (by decide))

theorem isUnbroken_spell (d : Dialect) {c : Char} (own : isLineEnd c = false) :
    IsUnbroken (spell d c) := by
  have alone : IsUnbroken [c] := fun x member => List.mem_singleton.1 member ▸ own
  cases d with
  | update => exact alone
  | lines =>
    have mark : IsUnbroken ['\\', 'u'] ∧ IsUnbroken ['\\', 'U'] := by decide
    unfold spell escapeUnicodeChar
    simp only
    split
    · exact alone
    · split
      · exact mark.1.append (isUnbroken_hex 4 _)
      · exact mark.2.append (isUnbroken_hex 8 _)

theorem isUnbroken_spelled (d : Dialect) {text : String} (own : IsUnbroken text.toList) :
    IsUnbroken (spelled d text) := by
  intro x member
  obtain ⟨c, inside, spelt⟩ := List.mem_flatMap.1 member
  exact isUnbroken_spell d (own c inside) x spelt

theorem isLineEnd_of {p : Char → Bool} (line : p '\n' = false) (carriage : p '\r' = false)
    {c : Char} (own : p c) : isLineEnd c = false := by
  simp only [isLineEnd, Bool.or_eq_false_iff, decide_eq_false_iff_not]
  refine ⟨?_, ?_⟩ <;> rintro rfl
  · rw [own] at line
    cases line
  · rw [own] at carriage
    cases carriage

theorem isUnbroken_literalEscape (c : Char) : IsUnbroken (literalEscape c) := by
  unfold literalEscape
  split_ifs with backslash quote newline carriage tab
  · decide
  · decide
  · decide
  · decide
  · decide
  · simp [IsUnbroken, isLineEnd, newline, carriage]

theorem isUnbroken_angled (own : ∀ c ∈ text.toList, isIriChar c) :
    IsUnbroken ("<" ++ text ++ ">").toList := by
  have brackets : IsUnbroken "<".toList ∧ IsUnbroken ">".toList := by decide
  have body : IsUnbroken text.toList := fun c member =>
    isLineEnd_of (p := isIriChar) (by decide) (by decide) (own c member)
  rw [String.toList_append, String.toList_append]
  exact (brackets.1.append body).append brackets.2

theorem isUnbroken_doubleQuoted (t : String) : IsUnbroken (doubleQuoted t).toList := by
  have quote : IsUnbroken "\"".toList := by decide
  have body : IsUnbroken (escapeLiteral t).toList := by
    intro x member
    rw [escapeLiteral, String.toList_ofList] at member
    obtain ⟨c, -, escaped⟩ := List.mem_flatMap.1 member
    exact isUnbroken_literalEscape c x escaped
  rw [doubleQuoted, String.toList_append, String.toList_append]
  exact (quote.append body).append quote

theorem IsTag.isUnbroken {l : List Char} (tag : IsTag l) : IsUnbroken l := by
  intro c member
  rcases tag.chars c member with letter | rfl
  · exact isLineEnd_of (p := Char.isAlphanum) (by decide) (by decide) letter
  · decide

theorem isUnbroken_ntriples (writable : Writable d n) (h : n.ntriples = .ok text) :
    IsUnbroken text.toList := by
  cases n with
  | «variable» name => exact writable.elim
  | blank l =>
    obtain rfl := Except.ok.inj h
    have mark : IsUnbroken "_:".toList := by decide
    have line : isLabelPart d '\n' = false ∧ isLabelPart d '\r' = false := by
      cases d <;> decide
    rw [String.toList_append]
    exact mark.append fun c member => isLineEnd_of line.1 line.2 (writable.parts c member)
  | uri t =>
    rw [turtle_uri h]
    exact isUnbroken_angled writable
  | literal t lang datatype =>
    have written : Node.annotate (doubleQuoted t) lang datatype = text := Except.ok.inj h
    rw [← written]
    match lang, datatype, writable with
    | none, none, _ => exact isUnbroken_doubleQuoted t
    | some l, none, tag =>
      have mark : IsUnbroken "@".toList := by decide
      rw [annotate_tag _ tag.ne_empty, String.toList_append, String.toList_append]
      exact (isUnbroken_doubleQuoted t).append (mark.append tag.isUnbroken)
    | none, some k, ⟨filled, own⟩ =>
      have mark : IsUnbroken "^^".toList := by decide
      rw [annotate_datatype _ filled, String.toList_append, String.toList_append]
      exact (isUnbroken_doubleQuoted t).append (mark.append (isUnbroken_angled own))

/-! Statements. -/

theorem skip_blank (d : Dialect) (s : List Char) : skip d (' ' :: s) = skip d s := by
  cases d <;> rfl

theorem skip_of_iri? {x : Node × List Char} (read : iri? s = some x) : skip d s = s := by
  unfold iri? at read
  split at read
  · cases d <;> rfl
  · cases read

theorem skip_of_object? {x : Node × List Char} (read : object? d s = some x) : skip d s = s := by
  cases s with
  | nil => rfl
  | cons c s =>
    have word (x : Char) (wide : isGap .update x) : word? (x :: s) = none := by
      have empty : (x :: s).takeWhile (!isGap .update ·) = [] := by simp [wide]
      rw [word?, empty]
      rfl
    by_cases gap : isGap d c
    · exfalso
      simp only [isGap, Bool.or_eq_true, Bool.and_eq_true, decide_eq_true_eq] at gap
      rcases gap with (rfl | rfl) | ⟨-, rfl | rfl⟩ <;>
        simp [object?, resource?, iri?, word ' ' rfl, word '\t' rfl, word '\n' rfl,
          word '\r' rfl] at read
    · simp [skip, gap]

theorem skip_of_resource? {x : Node × List Char} (read : resource? d s = some x) :
    skip d s = s := by
  unfold resource? at read
  split at read
  · cases d <;> rfl
  · exact skip_of_iri? read

theorem skip_of_triple? {x : Triple × List Char} (read : triple? d s = some x) :
    skip d s = s := by
  obtain ⟨y, first, -⟩ := Option.bind_eq_some_iff.1 read
  exact skip_of_resource? first

theorem iri?_turtle (writable : Writable d n) (uri : n.isUri) (h : n.turtle = .ok text) :
    iri? (spelled d text ++ s) = some (n, s) := by
  cases n with
  | uri t =>
    rw [turtle_uri h]
    exact iri?_angled writable
  | _ => cases uri

theorem triple?_spelled {st qt ot : String} {subject predicate object : Node}
    (first : ∀ r, resource? d (spelled d st ++ ' ' :: r) = some (subject, ' ' :: r))
    (second : ∀ r, iri? (spelled d qt ++ ' ' :: r) = some (predicate, ' ' :: r))
    (third : ∀ r, object? d (spelled d ot ++ ' ' :: r) = some (object, ' ' :: r))
    (rest : List Char) :
    triple? d (spelled d (st ++ " " ++ qt ++ " " ++ ot ++ " .") ++ rest) =
      some ((subject, predicate, object), rest) := by
  have blank : spelled d " " = [' '] := spelled_ascii d (by decide)
  have stop : spelled d " ." = [' ', '.'] := spelled_ascii d (by decide)
  have ended : skip d (' ' :: '.' :: rest) = '.' :: rest := by cases d <;> rfl
  have behind := third ('.' :: rest)
  have middle := second (spelled d ot ++ ' ' :: '.' :: rest)
  have start := first (spelled d qt ++ ' ' :: (spelled d ot ++ ' ' :: '.' :: rest))
  have text : spelled d (st ++ " " ++ qt ++ " " ++ ot ++ " .") ++ rest =
      spelled d st ++ ' ' :: (spelled d qt ++ ' ' :: (spelled d ot ++ ' ' :: '.' :: rest)) := by
    simp [blank, stop]
  rw [text]
  simp [triple?, start, middle, behind, skip_blank, skip_of_iri? middle, skip_of_object? behind,
    ended]

end SparqlClient.Rdf
