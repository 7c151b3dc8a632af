import SparqlClient.Calendar

/-! The values a query, a setting or an answer can hold. A caller may hand over a scalar, a
collection, a term of a query or a node of a graph; what a place accepts is decided where the
value is used. -/

namespace SparqlClient

inductive TermKind
  | string | numeric | boolean | iri | urn | blank | compact | variable | raw
  deriving DecidableEq

namespace TermKind

def word : TermKind → String
  | .string => "string"
  | .numeric => "numeric"
  | .boolean => "boolean"
  | .iri => "iri"
  | .urn => "urn"
  | .blank => "blank"
  | .compact => "compact"
  | .variable => "variable"
  | .raw => "raw"

def all : List TermKind :=
  [.string, .numeric, .boolean, .iri, .urn, .blank, .compact, .variable, .raw]

def ofWord? (w : String) : Option TermKind := all.find? (·.word == w)

theorem ofWord?_word (k : TermKind) : ofWord? k.word = some k := by cases k <;> decide

end TermKind

/-- A node of an RDF graph, or a variable in its place. A literal is kept by its lexical form. -/
inductive Node
  | uri (text : String)
  | blank (label : String)
  | variable (name : String)
  | literal (lexical : String) (lang datatype : Option String)
  deriving DecidableEq

namespace Node

def text : Node → String
  | .uri t => t
  | .blank t => t
  | .variable t => t
  | .literal t _ _ => t

def isUri : Node → Bool
  | .uri _ => true
  | _ => false

end Node

/-- `octets s` is the UTF-8 form of `s`; `term` holds the parts of a `Term`, null for a part that
is absent. -/
inductive Value
  | null
  | bool (b : Bool)
  | int (n : Int)
  | float (x : Float)
  | decimal (d : Decimal)
  | text (s : String)
  | octets (s : String)
  | date (d : Date)
  | moment (m : Moment)
  | clock (t : Clock)
  | list (items : List Value)
  | map (entries : List (Value × Value))
  | node (n : Node)
  | term (kind : TermKind) (value lang datatype : Value)

instance : Inhabited Value := ⟨.null⟩

structure Term where
  kind : TermKind
  value : Value
  lang : Value
  datatype : Value

namespace Term

def plain (kind : TermKind) (value : Value) : Term := ⟨kind, value, .null, .null⟩

def ofText (kind : TermKind) (s : String) : Term := plain kind (.text s)

def toValue (t : Term) : Value := .term t.kind t.value t.lang t.datatype

def isResource (t : Term) : Bool := t.kind = .iri || t.kind = .urn

@[simp] theorem isResource_ofText (k : TermKind) (s : String) :
    (ofText k s).isResource = (decide (k = .iri) || decide (k = .urn)) := rfl

end Term

namespace Value

def ofText? (s : Option String) : Value := (s.map text).getD null

def isNull : Value → Bool
  | .null => true
  | _ => false

def chars? : Value → Option String
  | .text s => some s
  | .node n => some n.text
  | _ => none

/-- Terms and nodes stand for themselves in a query; everything else is a scalar. -/
def isInline : Value → Bool
  | .term .. => true
  | .node _ => true
  | _ => false

def term? : Value → Option Term
  | .term k v l d => some ⟨k, v, l, d⟩
  | _ => none

@[simp] theorem term?_toValue (t : Term) : t.toValue.term? = some t := rfl

end Value

end SparqlClient
