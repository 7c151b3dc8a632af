import SparqlClient.Prefixes
import SparqlClient.Term.Make
import SparqlClient.Url

/-! Classification of any value as a term. The first rule that fits decides: terms and nodes
keep their kind, booleans and numbers theirs; a text is a blank node, an absolute URL after
expansion, a URN, an IRI, a variable, a compact name, or else raw text. -/

namespace SparqlClient

open Text Shape

def expandWith (prefixes : Option Prefixes) (s : String) : String :=
  match prefixes with
  | some t => t.expand s
  | none => s

def unbracket (s : String) : String :=
  match s.toList with
  | '<' :: t => if t.getLast? = some '>' then String.ofList t.dropLast else s
  | _ => s

def classifyText (prefixes : Option Prefixes) (text : String) : Term :=
  if startsWith text "_:" then .ofText .blank text
  else
    let candidate := unbracket (trim text)
    let expanded := expandWith prefixes candidate
    if Url.isAbsolute expanded then .ofText .iri expanded
    else if isUrn candidate then .ofText .urn candidate
    else if isIri candidate && !hasBlank candidate then .ofText .iri candidate
    else if isVariable text then .ofText .variable text
    else if isCompact text then .ofText .compact text
    else .ofText .raw text

def classify (prefixes : Option Prefixes) (v : Value) : Term :=
  match v with
  | .term k x l d => ⟨k, x, l, d⟩
  | .node n => .ofNode n
  | .bool _ => .plain .boolean v
  | .int _ | .float _ | .decimal _ => .plain .numeric v
  | v => classifyText prefixes v.plainText

@[simp] theorem classify_toValue (p : Option Prefixes) (t : Term) : classify p t.toValue = t := rfl

@[simp] theorem classify_node (p : Option Prefixes) (n : Node) :
    classify p (.node n) = .ofNode n := rfl

@[simp] theorem classify_text (p : Option Prefixes) (s : String) :
    classify p (.text s) = classifyText p s := rfl

def datatypeIri (prefixes : Option Prefixes) (name : Value) : Outcome String :=
  let text := trim name.plainText
  if isBareName text then .ok (xsd text)
  else
    let term := classifyText prefixes text
    if term.isResource then .ok term.value.plainText
    else CompilationError.fail (.unknownDatatype name.display)

end SparqlClient
