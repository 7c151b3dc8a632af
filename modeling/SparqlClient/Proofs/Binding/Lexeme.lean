import SparqlClient.Proofs.Rdf.Tokens

/-! The pieces of a query by the grammar of SPARQL: IRI references, strings in their four quotings,
variables, comments, escapes in names, and signs of one character. Strings between triple quotes
may go over several lines and hold their own quotes; names of variables may begin with a letter of
any script; a code point may be written as an escape. The pieces of a text, written one after the
other, are the text. -/

namespace SparqlClient

open Text Shape Rdf

inductive Lexeme
  | iri (body : List Char)
  | short (quote : Char) (body : List Char)
  | long (quote : Char) (body : List Char)
  | variable (mark : Char) (name : List Char)
  | comment (body : List Char)
  | escaped (c : Char)
  | sign (c : Char)
  deriving DecidableEq

namespace Lexeme

def chars : Lexeme → List Char
  | .iri body => '<' :: (body ++ ['>'])
  | .short q body => q :: (body ++ [q])
  | .long q body => q :: q :: q :: (body ++ [q, q, q])
  | .variable mark name => mark :: name
  | .comment body => '#' :: body
  | .escaped c => ['\\', c]
  | .sign c => [c]

def isQuote (c : Char) : Bool := c = '"' || c = '\''

def startsCodePoint : List Char → Bool
  | 'u' :: s => (s.take 4).length = 4 && (s.take 4).all fun c => (hexDigit? c).isSome
  | 'U' :: s => (s.take 8).length = 8 && (s.take 8).all fun c => (hexDigit? c).isSome
  | _ => false

def iriBody? : List Char → Option (List Char × List Char)
  | [] => none
  | c :: s =>
    if c = '>' then some ([], s)
    else if Rdf.isIriChar c || (c = '\\' && startsCodePoint s) then behind c (iriBody? s)
    else none

def shortBody? (q : Char) : List Char → Option (List Char × List Char)
  | [] => none
  | c :: s =>
    if c = q then some ([], s)
    else if isLineEnd c then none
    else if c = '\\' then
      match s with
      | [] => none
      | d :: t => if isLineEnd d then none else behind c (behind d (shortBody? q t))
    else behind c (shortBody? q s)

def longBody? (q : Char) : List Char → Option (List Char × List Char)
  | [] => none
  | c :: s =>
    if c = q && s.take 2 = [q, q] then some ([], s.drop 2)
    else if c = '\\' then
      match s with
      | [] => none
      | d :: t => behind c (behind d (longBody? q t))
    else behind c (longBody? q s)

def startsName : List Char → Bool
  | [] => false
  | c :: s => isLabelStart .update c || (c = '\\' && startsCodePoint s)

/-- The piece at the head of `c :: s`, and what follows it. A string that is not closed and a
backslash at the end have no reading. -/
def next? (c : Char) (s : List Char) : Option (Lexeme × List Char) :=
  if isQuote c then
    if s.take 2 = [c, c] then (longBody? c (s.drop 2)).map fun (b, r) => (.long c b, r)
    else (shortBody? c s).map fun (b, r) => (.short c b, r)
  else if c = '<' then
    match iriBody? s with
    | some (b, r) => some (.iri b, r)
    | none => some (.sign c, s)
  else if c = '#' then
    some (.comment (s.takeWhile (!isLineEnd ·)), s.dropWhile (!isLineEnd ·))
  else if c = '\\' then
    match s with
    | [] => none
    | d :: t => some (.escaped d, t)
  else if isSigil c && startsName s then
    some (.variable c (s.takeWhile isVariableChar), s.dropWhile isVariableChar)
  else some (.sign c, s)

theorem iriBody?_append {s b r : List Char} (h : iriBody? s = some (b, r)) :
    b ++ '>' :: r = s := by
  induction s generalizing b with
  | nil => cases h
  | cons c s ih =>
    rw [iriBody?] at h
    split at h
    · rename_i closing
      cases h
      rw [closing, List.nil_append]
    · split at h
      · obtain ⟨u, rfl, read⟩ := behind_eq_some_iff.1 h
        rw [List.cons_append, ih read]
      · cases h

theorem shortBody?_append {q : Char} {s b r : List Char} (h : shortBody? q s = some (b, r)) :
    b ++ q :: r = s := by
  fun_induction shortBody? q s generalizing b with
  | case1 => cases h
  | case2 s =>
    cases h
    rfl
  | case3 => cases h
  | case4 => cases h
  | case5 => cases h
  | case6 d t _ _ _ ih =>
    obtain ⟨u, rfl, inner⟩ := behind_eq_some_iff.1 h
    obtain ⟨v, rfl, read⟩ := behind_eq_some_iff.1 inner
    rw [List.cons_append, List.cons_append, ih read]
  | case7 c s _ _ _ ih =>
    obtain ⟨u, rfl, read⟩ := behind_eq_some_iff.1 h
    rw [List.cons_append, ih read]

theorem longBody?_append {q : Char} {s b r : List Char} (h : longBody? q s = some (b, r)) :
    b ++ q :: q :: q :: r = s := by
  fun_induction longBody? q s generalizing b with
  | case1 => cases h
  | case2 c s closing =>
    rw [Bool.and_eq_true, decide_eq_true_eq, decide_eq_true_eq] at closing
    cases h
    rw [closing.1, ← List.take_append_drop 2 s, closing.2]
    rfl
  | case3 => cases h
  | case4 d t _ ih =>
    obtain ⟨u, rfl, inner⟩ := behind_eq_some_iff.1 h
    obtain ⟨v, rfl, read⟩ := behind_eq_some_iff.1 inner
    rw [List.cons_append, List.cons_append, ih read]
  | case5 c s _ _ ih =>
    obtain ⟨u, rfl, read⟩ := behind_eq_some_iff.1 h
    rw [List.cons_append, ih read]

/-- What may stand at the head of a text: one case for each kind of piece, two for a bracket. -/
inductive Reads : Char → List Char → Lexeme → List Char → Prop
  | long {q : Char} {s b r : List Char} (quote : isQuote q = true)
      (body : longBody? q s = some (b, r)) : Reads q (q :: q :: s) (.long q b) r
  | short {q : Char} {s b r : List Char} (quote : isQuote q = true)
      (body : shortBody? q s = some (b, r)) : Reads q s (.short q b) r
  | iri {s b r : List Char} (body : iriBody? s = some (b, r)) : Reads '<' s (.iri b) r
  | bracket {s : List Char} (unread : iriBody? s = none) : Reads '<' s (.sign '<') s
  | comment (s : List Char) :
      Reads '#' s (.comment (s.takeWhile (!isLineEnd ·))) (s.dropWhile (!isLineEnd ·))
  | escaped (d : Char) (s : List Char) : Reads '\\' (d :: s) (.escaped d) s
  | named {c : Char} {s : List Char} (mark : isSigil c = true) (name : startsName s = true) :
      Reads c s (.variable c (s.takeWhile isVariableChar)) (s.dropWhile isVariableChar)
  | sign {c : Char} {s : List Char} (quote : isQuote c = false) (bracket : c ≠ '<')
      (unnamed : (isSigil c && startsName s) = false) : Reads c s (.sign c) s

theorem reads_of_next? {c : Char} {s r : List Char} {l : Lexeme} (h : next? c s = some (l, r)) :
    Reads c s l r := by
  unfold next? at h
  split at h
  · rename_i quote
    split at h
    · rename_i opening
      obtain ⟨⟨b, r⟩, body, same⟩ := Option.map_eq_some_iff.1 h
      cases same
      rw [← List.take_append_drop 2 s, opening]
      exact .long quote body
    · obtain ⟨⟨b, r⟩, body, same⟩ := Option.map_eq_some_iff.1 h
      cases same
      exact .short quote body
  · rename_i quote
    rw [Bool.not_eq_true] at quote
    split at h
    · rename_i bracket
      subst bracket
      split at h
      · rename_i body
        cases h
        exact .iri body
      · rename_i unread
        cases h
        exact .bracket unread
    · rename_i bracket
      split at h
      · rename_i mark
        cases h
        subst mark
        exact .comment s
      · split at h
        · rename_i backslash
          subst backslash
          split at h
          · cases h
          · cases h
            exact .escaped _ _
        · split at h
          · rename_i named
            rw [Bool.and_eq_true] at named
            cases h
            exact .named named.1 named.2
          · rename_i unnamed
            cases h
            exact .sign quote bracket (by simpa using unnamed)

theorem Reads.append {c : Char} {s r : List Char} {l : Lexeme} (h : Reads c s l r) :
    l.chars ++ r = c :: s := by
  cases h with
  | long _ body => simp [chars, ← longBody?_append body]
  | short _ body => simp [chars, ← shortBody?_append body]
  | iri body => simp [chars, ← iriBody?_append body]
  | comment s => simp [chars]
  | named => simp [chars]
  | bracket | escaped | sign => rfl

theorem length_next? {c : Char} {s r : List Char} {l : Lexeme} (h : next? c s = some (l, r)) :
    r.length < (c :: s).length := by
  have some_char : 0 < l.chars.length := by cases l <;> simp [chars]
  rw [← (reads_of_next? h).append, List.length_append]
  omega

end Lexeme

def lexemes? : List Char → Option (List Lexeme)
  | [] => some []
  | c :: s =>
    match _ : Lexeme.next? c s with
    | none => none
    | some (l, r) => (lexemes? r).map (l :: ·)
termination_by s => s.length
decreasing_by exact Lexeme.length_next? ‹_›

theorem flatMap_chars_lexemes {s : List Char} {ls : List Lexeme} (h : lexemes? s = some ls) :
    ls.flatMap Lexeme.chars = s := by
  fun_induction lexemes? s generalizing ls with
  | case1 =>
    cases h
    rfl
  | case2 => cases h
  | case3 c s l r read ih =>
    obtain ⟨rest, others, rfl⟩ := Option.map_eq_some_iff.1 h
    rw [List.flatMap_cons, ih others, (Lexeme.reads_of_next? read).append]

end SparqlClient
