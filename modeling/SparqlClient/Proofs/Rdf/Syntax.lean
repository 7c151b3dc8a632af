import SparqlClient.Rdf.Document

/-! The grammars of N-Triples 1.1 and of the data of a SPARQL update, as readers for the forms that
are written here: IRIs between angle brackets, labels of blank nodes, strings between double quotes,
and in updates whole numbers and booleans too. An escape is read once, from left to right. Every
other form is refused. -/

namespace SparqlClient

inductive Dialect
  | lines | update
  deriving DecidableEq

namespace Rdf

open Text

abbrev Triple := Node × Node × Node

def behind (c : Char) (read : Option (List Char × List Char)) : Option (List Char × List Char) :=
  read.map fun (t, rest) => (c :: t, rest)

def codePoint? (ds : List Char) : Option Char :=
  (hexNumber? ds).bind fun n => if n.isValidChar then some (Char.ofNat n) else none

def isIriChar (c : Char) : Bool := 32 < c.toNat && !Node.isIriBreaker c

def iriBody? : List Char → Option (List Char × List Char)
  | '>' :: s => some ([], s)
  | '\\' :: 'u' :: a :: b :: c :: d :: s =>
    (codePoint? [a, b, c, d]).bind fun x => behind x (iriBody? s)
  | '\\' :: 'U' :: a :: b :: c :: d :: e :: f :: g :: h :: s =>
    (codePoint? [a, b, c, d, e, f, g, h]).bind fun x => behind x (iriBody? s)
  | c :: s => if isIriChar c then behind c (iriBody? s) else none
  | [] => none

def stringBody? : List Char → Option (List Char × List Char)
  | '"' :: s => some ([], s)
  | '\\' :: 'u' :: a :: b :: c :: d :: s =>
    (codePoint? [a, b, c, d]).bind fun x => behind x (stringBody? s)
  | '\\' :: 'U' :: a :: b :: c :: d :: e :: f :: g :: h :: s =>
    (codePoint? [a, b, c, d, e, f, g, h]).bind fun x => behind x (stringBody? s)
  | '\\' :: e :: s => (NTriples.escape? e).bind fun x => behind x (stringBody? s)
  | c :: s => if c = '\\' || c = '\n' || c = '\r' then none else behind c (stringBody? s)
  | [] => none

def letterRanges : List (Nat × Nat) :=
  [(0x41, 0x5a), (0x61, 0x7a), (0xc0, 0xd6), (0xd8, 0xf6), (0xf8, 0x2ff), (0x370, 0x37d),
    (0x37f, 0x1fff), (0x200c, 0x200d), (0x2070, 0x218f), (0x2c00, 0x2fef), (0x3001, 0xd7ff),
    (0xf900, 0xfdcf), (0xfdf0, 0xfffd), (0x10000, 0xeffff)]

def inRange (c : Char) (r : Nat × Nat) : Bool := r.1 ≤ c.toNat && c.toNat ≤ r.2

/-- A label may begin with a digit as well. A colon is a letter on lines only. -/
def isLabelStart (d : Dialect) (c : Char) : Bool :=
  letterRanges.any (inRange c) || c = '_' || (d = .lines && c = ':') || c.isDigit

def isLabelPart (d : Dialect) (c : Char) : Bool :=
  isLabelStart d c || c = '-' || c = '.' ||
    [(0xb7, 0xb7), (0x300, 0x36f), (0x203f, 0x2040)].any (inRange c)

/-- The longest label, which does not end with a full stop. -/
def label? (d : Dialect) : List Char → Option (Node × List Char)
  | c :: s =>
    if isLabelStart d c then
      let body := dropEndWhile (· == '.') (s.takeWhile (isLabelPart d))
      some (.blank (String.ofList (c :: body)), s.drop body.length)
    else none
  | [] => none

def iri? : List Char → Option (Node × List Char)
  | '<' :: s => (iriBody? s).map fun (t, rest) => (.uri (String.ofList t), rest)
  | _ => none

def resource? (d : Dialect) : List Char → Option (Node × List Char)
  | '_' :: ':' :: s => label? d s
  | s => iri? s

def annotation? : List Char → Option ((Option String × Option String) × List Char)
  | '@' :: s =>
    let first := s.takeWhile Char.isAlpha
    let (more, rest) := NTriples.languageParts s.length (s.drop first.length)
    if first.isEmpty then none else some ((some (String.ofList (first ++ more)), none), rest)
  | '^' :: '^' :: '<' :: s =>
    (iriBody? s).map fun (t, rest) => ((none, some (String.ofList t)), rest)
  | s => some ((none, none), s)

def literal? (s : List Char) : Option (Node × List Char) := do
  let (t, s) ← stringBody? s
  let ((lang, datatype), s) ← annotation? s
  return (.literal (String.ofList t) lang datatype, s)

def isGap (d : Dialect) (c : Char) : Bool :=
  c = ' ' || c = '\t' || (d = .update && (c = '\n' || c = '\r'))

def isWhole (s : List Char) : Bool :=
  let digits := if s.head? = some '+' || s.head? = some '-' then s.tail else s
  !digits.isEmpty && digits.all Char.isDigit

/-- A whole number or a boolean stands for itself, up to a gap. -/
def word? (s : List Char) : Option (Node × List Char) :=
  let w := s.takeWhile (!isGap .update ·)
  let rest := s.drop w.length
  if w = "true".toList || w = "false".toList then
    some (.literal (String.ofList w) none (some (xsd "boolean")), rest)
  else if isWhole w then some (.literal (String.ofList w) none (some (xsd "integer")), rest)
  else none

def object? (d : Dialect) : List Char → Option (Node × List Char)
  | '"' :: s => literal? s
  | s => (resource? d s).or (if d = .update then word? s else none)

def skip (d : Dialect) (s : List Char) : List Char := s.dropWhile (isGap d)

def triple? (d : Dialect) (s : List Char) : Option (Triple × List Char) := do
  let (subject, s) ← resource? d s
  let (predicate, s) ← iri? (skip d s)
  let (object, s) ← object? d (skip d s)
  match skip d s with
  | '.' :: rest => some ((subject, predicate, object), rest)
  | _ => none

def isOver (s : List Char) : Bool :=
  match skip .lines s with
  | [] => true
  | c :: _ => c = '#'

/-- The one statement of a line. -/
def statement? (line : List Char) : Option Triple :=
  (triple? .lines (skip .lines line)).bind fun (t, rest) => if isOver rest then some t else none

def isLineEnd (c : Char) : Bool := c = '\n' || c = '\r'

def document? (text : String) : Option (List Triple) :=
  ((piecesBy isLineEnd text.toList).filter (!isOver ·)).mapM statement?

def triplesUntil? : (fuel : Nat) → List Char → Option (List Triple)
  | 0, _ => none
  | fuel + 1, s =>
    match skip .update s with
    | '\x7d' :: rest => if (skip .update rest).isEmpty then some [] else none
    | s => (triple? .update s).bind fun (t, rest) => (triplesUntil? fuel rest).map (t :: ·)

/-- The triples that an update inserts into the default graph. -/
def inserted? (text : String) : Option (List Triple) :=
  (after? "INSERT DATA \x7b".toList text.toList).bind fun s => triplesUntil? s.length s

end Rdf

end SparqlClient
