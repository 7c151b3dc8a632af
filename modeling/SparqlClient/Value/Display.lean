import SparqlClient.Text.LetterCase
import SparqlClient.Text.Quoted
import SparqlClient.Value

/-! Two texts of a value: the plain one, which is written into queries and compared, and the
quoted one, which keeps texts apart from other values and is shown in messages. -/

namespace SparqlClient

def floatLayout : Shortest.Layout where
  leastPlace := -3
  greatestPlace := 16
  exponentWidth := 2
  wholeMark := ".0"
  nan := "nan"
  infinity := "inf"

/-- Shortest digits; positional from a ten-thousandth up to sixteen places. -/
def floatText (x : Float) : String := floatLayout.float x

def boolText (b : Bool) : String := if b then "True" else "False"

namespace Node

def display : Node → String
  | .uri t => "rdflib.term.URIRef(" ++ Text.quoted t ++ ")"
  | .blank t => "rdflib.term.BNode(" ++ Text.quoted t ++ ")"
  | .variable t => "rdflib.term.Variable(" ++ Text.quoted t ++ ")"
  | .literal t lang datatype =>
    "rdflib.term.Literal(" ++ Text.quoted t ++
      (lang.map fun l => ", lang=" ++ Text.quoted l).getD "" ++
      (datatype.map fun d => ", datatype=rdflib.term.URIRef(" ++ Text.quoted d ++ ")").getD "" ++ ")"

end Node

def termDisplay (kind : TermKind) (value lang datatype : String) : String :=
  "Term(kind=<TermKind." ++ Text.upper kind.word ++ ": " ++ Text.quoted kind.word ++ ">, value=" ++
    value ++ ", lang=" ++ lang ++ ", datatype=" ++ datatype ++ ")"

namespace Value

mutual

def display : Value → String
  | .null => "None"
  | .bool b => boolText b
  | .int n => intText n
  | .float x => floatText x
  | .decimal d => "Decimal(" ++ Text.quoted d.text ++ ")"
  | .text s => Text.quoted s
  | .octets s => Text.quotedOctets s
  | .date d => d.display
  | .moment m => m.display
  | .clock t => t.display
  | .list items => "[" ++ String.intercalate ", " (displayAll items) ++ "]"
  | .map entries => "\x7b" ++ String.intercalate ", " (displayEntries entries) ++ "\x7d"
  | .node n => n.display
  | .term kind value lang datatype => termDisplay kind (display value) (display lang) (display datatype)

def displayAll : List Value → List String
  | [] => []
  | v :: vs => display v :: displayAll vs

def displayEntries : List (Value × Value) → List String
  | [] => []
  | (k, v) :: es => (display k ++ ": " ++ display v) :: displayEntries es

end

def displayRow (row : List Value) : String :=
  match row with
  | [v] => "(" ++ v.display ++ ",)"
  | vs => "(" ++ String.intercalate ", " (displayAll vs) ++ ")"

def plainText : Value → String
  | .text s => s
  | .decimal d => d.text
  | .date d => d.iso
  | .moment m => m.spaced
  | .clock t => t.iso
  | .node n => n.text
  | v => v.display

@[simp] theorem plainText_text (s : String) : (Value.text s).plainText = s := rfl

@[simp] theorem plainText_node (n : Node) : (Value.node n).plainText = n.text := rfl

end Value

def Term.display (t : Term) : String := t.toValue.display

end SparqlClient
