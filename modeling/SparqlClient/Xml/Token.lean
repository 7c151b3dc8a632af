import SparqlClient.Text.Quoted
import SparqlClient.Text.Pieces

/-! The pieces of XML content: tags, text, sections of unmarked text, comments and instructions.
Each line end is read as a line feed; in the value of an attribute every blank is a space. A name
has one colon at most. -/

namespace SparqlClient.Xml

open Text

abbrev Attribute := List Char × List Char

inductive Token
  | opening (name : List Char) (attributes : List Attribute)
  | closing (name : List Char)
  | text (s : List Char)
  | verbatim (s : List Char)
  | comment (s : List Char)
  | instruction (target data : List Char)

def lineEnds : List Char → List Char
  | '\r' :: '\n' :: s => '\n' :: lineEnds s
  | '\r' :: s => '\n' :: lineEnds s
  | c :: s => c :: lineEnds s
  | [] => []

def isSpace (c : Char) : Bool := c = ' ' || c = '\t' || c = '\n' || c = '\r'

def isAllowed (c : Char) : Bool := isSpace c || (0x20 ≤ c.toNat && c ≠ '\ufffe' && c ≠ '\uffff')

def isNameStart (c : Char) : Bool :=
  let n := c.toNat
  c.isAlpha || c = '_' || (0xC0 ≤ n && n ≤ 0x2FF && n ≠ 0xD7 && n ≠ 0xF7) ||
    (0x370 ≤ n && n ≤ 0x1FFF && n ≠ 0x37E) || (0x3001 ≤ n && n ≤ 0xD7FF)

def isNameChar (c : Char) : Bool :=
  isNameStart c || c.isDigit || c = '-' || c = '.' || c = '\u00b7' ||
    (0x300 ≤ c.toNat && c.toNat ≤ 0x36F)

def plainName? (s : List Char) : Option (List Char × List Char) :=
  if s.head?.any isNameStart then some (s.takeWhile isNameChar, s.dropWhile isNameChar) else none

def name? (s : List Char) : Option (List Char × List Char) := do
  let (first, s) ← plainName? s
  match s with
  | ':' :: s =>
    let (second, s) ← plainName? s
    if s.head? = some ':' then none else return (first ++ ':' :: second, s)
  | s => return (first, s)

def upTo? (mark : List Char) : List Char → Option (List Char × List Char)
  | [] => none
  | c :: s =>
    match after? mark (c :: s) with
    | some rest => some ([], rest)
    | none => (upTo? mark s).map fun (a, b) => (c :: a, b)

def charOf? (n : Nat) : Option Char :=
  if h : n.isValidChar then some (Char.ofNatAux n h) |>.filter isAllowed else none

def entity? (s : List Char) : Option Char :=
  match s with
  | '#' :: 'x' :: ds =>
    if ds.isEmpty || 8 < (ds.dropWhile (· == '0')).length then none
    else (hexNumber? ds).bind charOf?
  | '#' :: ds =>
    if ds.isEmpty || !ds.all Char.isDigit then none
    else charOf? (ds.foldl (fun n c => n * 10 + (c.toNat - 48)) 0)
  | ['a', 'm', 'p'] => some '&'
  | ['l', 't'] => some '<'
  | ['g', 't'] => some '>'
  | ['q', 'u', 'o', 't'] => some '"'
  | ['a', 'p', 'o', 's'] => some '\''
  | _ => none

def decoded? : (fuel : Nat) → List Char → Option (List Char)
  | 0, s => if s.isEmpty then some [] else none
  | _, [] => some []
  | fuel + 1, '&' :: s => do
    let (name, rest) ← cutAt (· == ';') s
    return (← entity? name) :: (← decoded? fuel rest)
  | fuel + 1, c :: s => (decoded? fuel s).map (c :: ·)

def meant? (s : List Char) : Option (List Char) := decoded? s.length s

def value? (s : List Char) : Option (List Char × List Char) :=
  match s with
  | q :: s =>
    if q = '"' || q = '\'' then do
      let (body, rest) ← cutAt (· == q) s
      if body.contains '<' then none
      else return (← meant? (body.map fun c => if isSpace c then ' ' else c), rest)
    else none
  | [] => none

/-- The attributes of a tag up to its end, and whether the tag closes itself. -/
def attributes? : (fuel : Nat) → List Char → Option (List Attribute × Bool × List Char)
  | 0, _ => none
  | fuel + 1, s =>
    match s.dropWhile isSpace with
    | '>' :: rest => some ([], false, rest)
    | '/' :: '>' :: rest => some ([], true, rest)
    | t => do
      if s.head?.any isSpace then
        let (name, t) ← name? t
        let t ← after? ['='] (t.dropWhile isSpace)
        let (value, t) ← value? (t.dropWhile isSpace)
        let (more, closed, rest) ← attributes? fuel t
        return ((name, value) :: more, closed, rest)
      else none

def comment? (s : List Char) : Option (List Token × List Char) := do
  let (body, rest) ← upTo? ['-', '-'] s
  return ([.comment body], ← after? ['>'] rest)

def verbatim? (s : List Char) : Option (List Token × List Char) := do
  let (body, rest) ← upTo? [']', ']', '>'] s
  return (if body.isEmpty then [] else [.verbatim body], rest)

/-- The name of a document's own declaration is no target. -/
def instruction? (s : List Char) : Option (List Token × List Char) := do
  let (target, s) ← plainName? s
  let (data, rest) ← upTo? ['?', '>'] s
  if target.map Char.toLower = ['x', 'm', 'l'] || !(data.isEmpty || data.head?.any isSpace) then none
  else return ([.instruction target (data.dropWhile isSpace)], rest)

def closing? (s : List Char) : Option (List Token × List Char) := do
  let (name, s) ← name? s
  return ([.closing name], ← after? ['>'] (s.dropWhile isSpace))

def opening? (s : List Char) : Option (List Token × List Char) := do
  let (name, s) ← name? s
  let (attributes, closed, rest) ← attributes? (s.length + 1) s
  return (.opening name attributes :: if closed then [.closing name] else [], rest)

def text? (s : List Char) : Option (List Token × List Char) :=
  let body := s.takeWhile (· ≠ '<')
  if (upTo? [']', ']', '>'] body).isSome then none
  else (meant? body).map fun t => ([.text t], s.drop body.length)

def next? (s : List Char) : Option (List Token × List Char) :=
  match after? ['<', '!', '-', '-'] s, after? "<![CDATA[".toList s, s with
  | some t, _, _ => comment? t
  | _, some t, _ => verbatim? t
  | _, _, '<' :: '?' :: t => instruction? t
  | _, _, '<' :: '/' :: t => closing? t
  | _, _, '<' :: t => opening? t
  | _, _, t => text? t

def tokens? : (fuel : Nat) → List Char → Option (List Token)
  | _, [] => some []
  | 0, _ => none
  | fuel + 1, s => do
    let (ts, rest) ← next? s
    return ts ++ (← tokens? fuel rest)

def read? (s : List Char) : Option (List Token) :=
  let s := lineEnds s
  if s.all isAllowed then tokens? s.length s else none

end SparqlClient.Xml
