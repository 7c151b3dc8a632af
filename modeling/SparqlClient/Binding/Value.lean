import SparqlClient.Binding.Token
import SparqlClient.Term.Render

/-! Binding values to the placeholders of a query. A bound text becomes a string between
apostrophes, except an IRI reference or a variable, which stand for themselves. Values go to the
placeholders from left to right; too few are an error, and what is left over is not used. -/

namespace SparqlClient

open Text Shape

def isReference (s : String) : Bool :=
  match s.toList with
  | '<' :: t =>
    match t.dropWhile fun c => !(c = '<' || c = '>' || isBlank c) with
    | '>' :: rest => atEnd rest
    | _ => false
  | _ => false

def isQuestionVariable (s : String) : Bool :=
  match s.toList with
  | '?' :: t => isIdentifierChars t
  | _ => false

def passesUnquoted (s : String) : Bool := isReference s || isQuestionVariable s

def bindingEscape (c : Char) : List Char :=
  if c = '\\' then ['\\', '\\']
  else if c = '\'' then ['\\', '\'']
  else if c = '\n' then ['\\', 'n']
  else if c = '\r' then ['\\', 'r']
  else [c]

def singleQuoted (s : String) : String :=
  String.ofList ('\'' :: s.toList.flatMap bindingEscape ++ ['\''])

def quoteText (s : String) : String := if passesUnquoted s then s else singleQuoted s

/-- The text that stands for a bound value. A whole number of more than `Numeral.maxDigits` digits is
written like any other, also within a list or a mapping. -/
def quoteValue (prefixes : Option Prefixes) (v : Value) : Outcome String :=
  match v with
  | .term k x l d => .ok ((Term.mk k x l d).render prefixes)
  | .node n => .ok ((Term.ofNode n).render prefixes)
  | .null => CompilationError.fail .nullBinding
  | .bool b => .ok (if b then "true" else "false")
  | .int n => .ok (intText n)
  | .float x => .ok (floatText x)
  | .decimal d => .ok d.text
  | .moment m => .ok (quoteText m.iso)
  | .date d => .ok (quoteText d.iso)
  | v => .ok (quoteText v.plainText)

def substitute (prefixes : Option Prefixes) (given : Nat) :
    List Token → List Value → Outcome (List Char)
  | [], _ => .ok []
  | .placeholder :: _, [] => CompilationError.fail (.tooFewBindings given)
  | .placeholder :: ts, v :: vs => do
    let text ← quoteValue prefixes v
    let rest ← substitute prefixes given ts vs
    return text.toList ++ rest
  | t :: ts, vs => do
    let rest ← substitute prefixes given ts vs
    return t.chars ++ rest

/-- A text without values is left as it is, placeholders included. -/
def bindValues (prefixes : Option Prefixes) (text : String) (values : List Value) :
    Outcome String :=
  if values.isEmpty then .ok text
  else (substitute prefixes values.length (tokens text.toList) values).map String.ofList

end SparqlClient
