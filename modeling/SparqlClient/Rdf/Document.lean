import SparqlClient.Rdf.NTriples

/-! Reading N-Triples documents. Each line holds a statement, a comment, or nothing. An IRI has to
have a scheme and no blank behind it; blanks part the members of a statement, which ends with a
full stop. An escape may name half of a surrogate pair: such a statement is read, but it cannot
be written again. -/

namespace SparqlClient.NTriples

/-- Reading a statement, and whether half of a surrogate pair has been met. -/
abbrev Reading := StateT Bool Outcome

def fail {α : Type} : Reading α := throw (.file .malformedTriples)

def isSpace (c : Char) : Bool := c = ' ' || c = '\t'

def linesOf : List Char → List (List Char)
  | [] => [[]]
  | '\r' :: '\n' :: s => [] :: linesOf s
  | c :: s =>
    if c = '\n' || c = '\r' then [] :: linesOf s
    else match linesOf s with
      | [] => [[c]]
      | l :: ls => (c :: l) :: ls

def withoutBlankEnd (ls : List (List Char)) : List (List Char) :=
  match ls.getLast? with
  | some l => if l.all Text.isBlank then ls.dropLast else ls
  | none => ls

def escape? : Char → Option Char
  | 't' => some '\t'
  | 'b' => some '\x08'
  | 'n' => some '\n'
  | 'r' => some '\r'
  | 'f' => some '\x0c'
  | '"' => some '"'
  | '\'' => some '\''
  | '\\' => some '\\'
  | _ => none

def code? (width : Nat) (s : List Char) : Option (Nat × List Char) :=
  let ds := s.take width
  if ds.length = width then (Text.hexNumber? ds).map (·, s.drop width) else none

/-- The character of a code; half of a surrogate pair is marked and replaced. -/
def charOf (n : Nat) : Reading Char := do
  if 0x7fffffff < n then Misuse.fail .overflow
  else if 0x10ffff < n then Misuse.fail .badValue
  else if 0xd800 ≤ n && n ≤ 0xdfff then
    set true
    return '\ufffd'
  else return Char.ofNat n

def unescape : (fuel : Nat) → List Char → Reading (List Char)
  | 0, _ => return []
  | _, [] => return []
  | fuel + 1, '\\' :: c :: s => do
    match escape? c, (if c = 'u' then code? 4 s else if c = 'U' then code? 8 s else none) with
    | some x, _ => return x :: (← unescape fuel s)
    | none, some (n, s) => return (← charOf n) :: (← unescape fuel s)
    | none, none => return '\\' :: (← unescape fuel (c :: s))
  | fuel + 1, c :: s => return c :: (← unescape fuel s)

def plain (s : List Char) : Reading String := return String.ofList (← unescape s.length s)

/-- The inside of angle brackets: a scheme, a colon, and no blank or bracket behind it. -/
def iri? (s : List Char) : Option (List Char × List Char) := do
  let (scheme, s) ← Text.cutAt (· == ':') s
  guard (!scheme.isEmpty)
  let body := s.takeWhile fun c => !(Text.isBlank c || c = '"' || c = '<' || c = '>')
  match s.drop body.length with
  | '>' :: rest => some (scheme ++ ':' :: body, rest)
  | _ => none

def uri (s : List Char) : Reading (Node × List Char) :=
  match iri? s with
  | some (t, rest) => return (.uri (← plain t), rest)
  | none => fail

def isLabelStart (c : Char) : Bool := c.isAlphanum || c = '_' || c = ':'

def isLabelChar (c : Char) : Bool := isLabelStart c || c = '.' || c = '-'

def label (s : List Char) : Reading (Node × List Char) :=
  match s with
  | '_' :: ':' :: c :: s =>
    if isLabelStart c then
      let body := Text.dropEndWhile (· == '.') (s.takeWhile isLabelChar)
      return (.blank (String.ofList (c :: body)), s.drop body.length)
    else fail
  | _ => fail

def quotedPart : List Char → Option (List Char × List Char)
  | [] => none
  | '"' :: s => some ([], s)
  | '\\' :: c :: s => (quotedPart s).map fun (t, rest) => ('\\' :: c :: t, rest)
  | ['\\'] => none
  | c :: s => (quotedPart s).map fun (t, rest) => (c :: t, rest)

def languageParts : (fuel : Nat) → List Char → List Char × List Char
  | 0, s => ([], s)
  | fuel + 1, s =>
    match s with
    | '-' :: t =>
      let part := t.takeWhile Char.isAlphanum
      if part.isEmpty then ([], s)
      else
        let (more, rest) := languageParts fuel (t.drop part.length)
        ('-' :: part ++ more, rest)
    | s => ([], s)

def literal (s : List Char) : Reading (Node × List Char) := do
  match quotedPart s with
  | none => fail
  | some (body, rest) =>
    let (lang, datatype, rest) ← match rest with
      | '@' :: t =>
        let first := t.takeWhile Char.isAlpha
        if first.isEmpty then pure (none, none, rest)
        else
          let (more, after) := languageParts t.length (t.drop first.length)
          pure (some (String.ofList (first ++ more)), none, after)
      | '^' :: '^' :: '<' :: t => match iri? t with
        | some (d, after) => pure (none, some (← plain d), after)
        | none => pure (none, none, rest)
      | _ => pure (none, none, rest)
    return (← Literal.make (.text (← plain body)) lang datatype, rest)

def resource (s : List Char) : Reading (Node × List Char) :=
  match s with
  | '<' :: t => uri t
  | '_' :: _ => label s
  | _ => fail

def behindBlanks : List Char → Reading (List Char)
  | [] => fail
  | c :: s => if isSpace c then return s.dropWhile isSpace else fail

def isEnd (s : List Char) : Bool :=
  match s.dropWhile isSpace with
  | '.' :: rest => match rest.dropWhile isSpace with
    | [] => true
    | c :: _ => c = '#'
  | _ => false

def statement (s : List Char) : Reading (Node × Node × Node) := do
  let (subject, s) ← resource s
  let (predicate, s) ← match ← behindBlanks s with
    | '<' :: t => uri t
    | _ => fail
  let (object, s) ← match ← behindBlanks s with
    | '"' :: t => literal t
    | s => resource s
  if isEnd s then return (subject, predicate, object) else fail

def isStatement (s : List Char) : Bool := !(s.isEmpty || s.head? = some '#')

end NTriples

def Graph.ofDocument (text : String) : Outcome Graph := do
  let lines := (NTriples.withoutBlankEnd (NTriples.linesOf text.toList)).map
    (·.dropWhile NTriples.isSpace)
  let read ← (lines.filter NTriples.isStatement).mapM fun l => (NTriples.statement l).run false
  return { Graph.ofTriples (read.map (·.1)) with
    unwritable := (read.filter (·.2)).map (·.1) }

end SparqlClient
