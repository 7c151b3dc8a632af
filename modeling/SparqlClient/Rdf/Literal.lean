import SparqlClient.Rdf.Duration
import SparqlClient.Rdf.Escape
import SparqlClient.Text.Base64
import SparqlClient.Xml.Fragment

/-! Literals of a graph in normal form. A text that its datatype can read is written again as
that datatype writes it, so that equal values have equal literals; a text that cannot be read
stays as it is. Other values bring their own datatype. -/

namespace SparqlClient

open Text

namespace Literal

def isLanguageTag (s : String) : Bool :=
  let body := if s.toList.getLast? = some '\n' then s.toList.dropLast else s.toList
  match piecesBy (· == '-') body with
  | first :: rest =>
    !first.isEmpty && first.all Char.isAlpha &&
      rest.all fun part => !part.isEmpty && part.all Char.isAlphanum
  | [] => false

/-- The text before its last character of a kind, unless that is the first character. -/
def beforeLast (c : Char) (s : List Char) : List Char :=
  match cutAt (· == c) s.reverse with
  | some (_, front) => if front.isEmpty then s else front.reverse
  | none => s

def dateText? (s : String) : Option String :=
  let cs := s.toList
  let cs := if cs.getLast? = some 'Z' || cs.getLast? = some 'z' then cs.dropLast else cs
  let cs :=
    if cs.contains 'T' then cs.takeWhile (· ≠ 'T')
    else if cs.tail.contains '+' then beforeLast '+' cs
    else if cs.contains ':' then beforeLast '-' cs
    else cs
  if cs.contains '-' then (Date.ofIso? (String.ofList cs)).map Date.iso else none

def booleanText (s : String) : String :=
  let w := lower s
  if w == "1" || w == "true" then "true" else "false"

def blankLines (s : String) : String :=
  mapChars (fun c => if c = '\t' || c = '\n' || c = '\r' then " " else String.singleton c) s

def collapseBlanks (s : String) : String :=
  String.intercalate " "
    (((piecesBy (· == ' ') (trimBy isBlank s.toList)).filter (!·.isEmpty)).map String.ofList)

def hexText? (s : String) : Option String :=
  if s.toList.length % 2 = 0 && s.toList.all fun c => c.isDigit ||
      ('a' ≤ c.toLower && c.toLower ≤ 'f') then
    some (String.ofList (s.toList.map Char.toLower))
  else none

def base64Text? (s : String) : Option String :=
  (Base64.read? s.toList).map fun octets => String.ofList (Base64.write octets)

def xmlDatatype : String := "http://www.w3.org/1999/02/22-rdf-syntax-ns#XMLLiteral"

/-- The text that a datatype gives to the value it reads from `s`, if it reads one. -/
def normal? (datatype s : String) : Option String :=
  if Node.wholeDatatypes.contains datatype then (Numeral.int? s).map intText
  else if datatype == xsd "decimal" then (Numeral.decimal? s).map Decimal.plainText
  else if datatype == xsd "double" || datatype == xsd "float" then
    (Numeral.float? s).map floatText
  else if datatype == xsd "boolean" then some (booleanText s)
  else if datatype == xsd "date" then dateText? s
  else if datatype == xsd "dateTime" then (Moment.ofIso? s).map Moment.iso
  else if datatype == xsd "time" then (Clock.ofIso? s).map Clock.iso
  else if Node.durationDatatypes.contains datatype then (Duration.ofIso? s).map Duration.iso
  else if datatype == xsd "hexBinary" then hexText? s
  else if datatype == xsd "base64Binary" then (Value.ascii? s).bind base64Text?
  else if datatype == xmlDatatype then Xml.normal? s
  else none

def spaced (datatype : Option String) (s : String) : String :=
  if datatype = some (xsd "normalizedString") then blankLines s
  else if datatype = some (xsd "token") then collapseBlanks (blankLines s)
  else s

def isPlain (datatype : Option String) : Bool :=
  match datatype with
  | none => true
  | some d => (["string", "normalizedString", "token", "language", "anyURI"].map xsd).contains d

def ofOctets (datatype : Option String) (s : String) : String :=
  if isPlain datatype then quotedOctets s
  else
    let d := datatype.getD ""
    let value :=
      if Node.wholeDatatypes.contains d || d == xsd "double" || d == xsd "float" then
        (Value.ascii? s).bind (normal? d)
      else if d == xsd "boolean" then some "false"
      else if d == xsd "hexBinary" then hexText? s
      else if d == xsd "base64Binary" then base64Text? s
      else if d == xmlDatatype then Xml.normal? (quotedOctets s)
      else none
    value.getD s

def ofScalar : Value → String × Option String
  | .float x => (floatText x, some (xsd "double"))
  | .bool b => (if b then "true" else "false", some (xsd "boolean"))
  | .int n => (intText n, some (xsd "integer"))
  | .decimal d => (d.plainText, some (xsd "decimal"))
  | .moment m => (m.iso, some (xsd "dateTime"))
  | .date d => (d.iso, some (xsd "date"))
  | .clock t => (t.iso, some (xsd "time"))
  | v => (v.plainText, none)

def ofText (s : String) (lang datatype : Option String) : Node :=
  .literal (spaced datatype ((datatype.bind (normal? · s)).getD s)) lang datatype

/-- A literal that gets a datatype keeps its text. -/
def make (v : Value) (lang datatype : Option String) : Outcome Node :=
  let lang := lang.filter (· ≠ "")
  if lang.isSome && datatype.isSome then Misuse.fail .wrongType
  else if lang.any (!isLanguageTag ·) then Misuse.fail .badValue
  else match v with
    | .text s => .ok (ofText s lang datatype)
    | .octets s => .ok (.literal (spaced datatype (ofOctets datatype s)) lang datatype)
    | .node (.literal t l d) =>
      let datatype := datatype.or d
      .ok (.literal (spaced datatype t) (lang.or l) datatype)
    | .node n => .ok (ofText n.text lang datatype)
    | v =>
      let (text, own) := ofScalar v
      let datatype := datatype.or own
      .ok (.literal text (if datatype.isSome then none else lang) datatype)

end Literal

namespace Node

def makeVariable (name : String) : Outcome Node :=
  match name.toList with
  | [] => Misuse.fail .invalidIri
  | '?' :: rest => .ok (.variable (String.ofList rest))
  | _ => .ok (.variable name)

def isIriBreaker (c : Char) : Bool :=
  c = '<' || c = '>' || c = '"' || c = ' ' || c = '\x7b' || c = '\x7d' || c = '|' || c = '\\' ||
    c = '^' || c = '\x60'

def uriText (s : String) : Outcome String :=
  if s.toList.any isIriBreaker then Misuse.fail .invalidIri else .ok ("<" ++ s ++ ">")

def specialNumbers (datatype s quoted : String) : String :=
  if datatype == xsd "double" || datatype == xsd "float" || datatype == xsd "decimal" then
    match Numeral.float? s with
    | some x =>
      if x.isInf then replaceAll "Infinity" "INF" (replaceAll "inf" "INF" quoted)
      else if x.isNaN then replaceAll "nan" "NaN" quoted
      else quoted
    | none => quoted
  else quoted

def annotate (text : String) (lang datatype : Option String) : String :=
  match lang.filter (· ≠ ""), datatype.filter (· ≠ "") with
  | some l, _ => text ++ "@" ++ l
  | none, some d => text ++ "^^<" ++ d ++ ">"
  | none, none => text

/-- In the form of Turtle, where a text of several lines stands between triple quotes. -/
def turtle : Node → Outcome String
  | .uri s => uriText s
  | .blank l => .ok ("_:" ++ l)
  | .variable n => .ok ("?" ++ n)
  | .literal t lang datatype =>
    let quoted := turtleQuoted t
    .ok (annotate ((datatype.map (specialNumbers · t quoted)).getD quoted) lang datatype)

end Node

end SparqlClient
