import SparqlClient.Text.Blank
import SparqlClient.Text.Word

/-! Query text as a sequence of tokens: complete quoted strings on one line, IRI references,
placeholders, and single characters. A question mark is a placeholder unless a letter, a digit
or an underscore of ASCII follows it; glued to an IRI reference it belongs to the reference.
The tokens of a text, written one after the other, are the text. -/

namespace SparqlClient

open Text

/-- The rest of a string after its opening quote: up to the closing quote, and what follows. -/
def quotedTail (q : Char) : List Char → Option (List Char × List Char)
  | [] => none
  | c :: s =>
    if c = q then some ([c], s)
    else if c = '\n' then none
    else if c = '\\' then
      match s with
      | [] => none
      | d :: t => if d = '\n' then none else (quotedTail q t).map fun (a, b) => (c :: d :: a, b)
    else (quotedTail q s).map fun (a, b) => (c :: a, b)

theorem quotedTail_append {q : Char} {s a b : List Char} (h : quotedTail q s = some (a, b)) :
    a ++ b = s := by
  fun_induction quotedTail q s generalizing a b with
  | case1 => simp at h
  | case2 s =>
    obtain ⟨rfl, rfl⟩ := Prod.mk.inj (Option.some.inj h)
    rfl
  | case3 => simp at h
  | case4 => simp at h
  | case5 => simp at h
  | case6 d t _ _ _ ih =>
    obtain ⟨⟨x, y⟩, hx, he⟩ := Option.map_eq_some_iff.1 h
    obtain ⟨rfl, rfl⟩ := Prod.mk.inj he
    simp [ih hx]
  | case7 c s _ _ _ ih =>
    obtain ⟨⟨x, y⟩, hx, he⟩ := Option.map_eq_some_iff.1 h
    obtain ⟨rfl, rfl⟩ := Prod.mk.inj he
    simp [ih hx]

def isIriChar (c : Char) : Bool :=
  !(c = '<' || c = '>' || c = '"' || c = '\x7b' || c = '\x7d' || c = '|' || c = '^' ||
    c = '\x60' || c = '\\' || isBlank c)

def iriTail : List Char → Option (List Char × List Char)
  | [] => none
  | c :: s =>
    if c = '>' then some ([c], s)
    else if isIriChar c then (iriTail s).map fun (a, b) => (c :: a, b)
    else none

theorem iriTail_append {s a b : List Char} (h : iriTail s = some (a, b)) : a ++ b = s := by
  induction s generalizing a with
  | nil => simp [iriTail] at h
  | cons c s ih =>
    rw [iriTail] at h
    split at h
    · rename_i hc
      obtain ⟨rfl, rfl⟩ := Prod.mk.inj (Option.some.inj h)
      rw [hc, List.singleton_append]
    · split at h
      · obtain ⟨⟨x, y⟩, hx, he⟩ := Option.map_eq_some_iff.1 h
        obtain ⟨rfl, rfl⟩ := Prod.mk.inj he
        simp [ih hx]
      · simp at h

inductive Token
  | quoted (text : List Char)
  | iri (text : List Char)
  | placeholder
  | other (c : Char)
  deriving DecidableEq

namespace Token

def chars : Token → List Char
  | .quoted t => t
  | .iri t => t
  | .placeholder => ['?']
  | .other c => [c]

/-- Whether a question mark before this text stands alone. -/
def standsAlone : List Char → Bool
  | c :: _ => !isAsciiWord c
  | [] => true

def glue (a b : List Char) : Token × List Char :=
  match b with
  | '?' :: t => if standsAlone t then (.iri (a ++ ['?']), t) else (.iri a, b)
  | _ => (.iri a, b)

theorem glue_append (a b : List Char) : (glue a b).1.chars ++ (glue a b).2 = a ++ b := by
  unfold glue
  split
  · split <;> simp [chars]
  · rfl

def next (c : Char) (s : List Char) : Token × List Char :=
  if c = '"' || c = '\'' then
    match quotedTail c s with
    | some (a, b) => (.quoted (c :: a), b)
    | none => (.other c, s)
  else if c = '<' then
    match iriTail s with
    | some (a, b) => glue (c :: a) b
    | none => (.other c, s)
  else if c = '?' && standsAlone s then (.placeholder, s)
  else (.other c, s)

theorem next_append (c : Char) (s : List Char) : (next c s).1.chars ++ (next c s).2 = c :: s := by
  unfold next
  split
  · split
    · rename_i a b h
      simp [chars, quotedTail_append h]
    · rfl
  · split
    · split
      · rename_i a b h
        rw [glue_append, List.cons_append, iriTail_append h]
      · rfl
    · split
      · simp_all [chars]
      · rfl

theorem chars_glue_ne_nil (c : Char) (a b : List Char) : (glue (c :: a) b).1.chars ≠ [] := by
  unfold glue
  split
  · split <;> simp [chars]
  · simp [chars]

theorem chars_next_ne_nil (c : Char) (s : List Char) : (next c s).1.chars ≠ [] := by
  unfold next
  split
  · split <;> simp [chars]
  · split
    · split
      · exact chars_glue_ne_nil _ _ _
      · simp [chars]
    · split <;> simp [chars]

theorem length_next (c : Char) (s : List Char) : (next c s).2.length < (c :: s).length := by
  have whole := congrArg List.length (next_append c s)
  have some_char := List.length_pos_iff.2 (chars_next_ne_nil c s)
  simp only [List.length_append] at whole
  omega

end Token

def tokens : List Char → List Token
  | [] => []
  | c :: s => (Token.next c s).1 :: tokens (Token.next c s).2
termination_by s => s.length
decreasing_by exact Token.length_next c s

@[simp] theorem tokens_nil : tokens [] = [] := by rw [tokens]

theorem flatMap_chars_tokens (s : List Char) : (tokens s).flatMap Token.chars = s := by
  fun_induction tokens s with
  | case1 => rfl
  | case2 c s ih => rw [List.flatMap_cons, ih, Token.next_append]

def placeholders (s : List Char) : Nat := (tokens s).count .placeholder

end SparqlClient
