import SparqlClient.Rdf.Literal
import SparqlClient.Term.Render

/-! Graphs and triples as N-Triples documents in ASCII, one statement on a line. Strings that
name a resource become IRI references, blank nodes keep their label, and everything else in the
place of an object becomes a literal. -/

namespace SparqlClient

open Text

def named (v : Value) : Outcome String :=
  match v.chars? with
  | some s => .ok s
  | none => Misuse.fail .wrongType

def toNode (prefixes : Option Prefixes) (position : String) (v : Value) : Outcome Node :=
  match v with
  | .node n => .ok n
  | v =>
    let t := classify prefixes v
    match t.kind with
    | .iri | .urn => (named t.value).map .uri
    | .blank => .ok (.blank (String.ofList (t.value.plainText.toList.drop 2)))
    | kind =>
      if position ≠ "object" then CompilationError.fail (.notAllowedAt v.display position)
      else match kind with
        | .variable => CompilationError.fail (.variableInData v.display)
        | .string => do
          let datatype ← if t.datatype.truth then some <$> named (classify prefixes t.datatype).value
            else pure none
          Literal.make t.value (← if t.lang.isNull then pure none else some <$> named t.lang) datatype
        | .numeric | .boolean => Literal.make t.value none none
        | _ => Literal.make (.text t.value.plainText) none none

namespace Node

def ntriples : Node → Outcome String
  | .literal t lang datatype => .ok (annotate (doubleQuoted t) lang datatype)
  | n => n.turtle

end Node

def statementLine (prefixes : Option Prefixes) (triple : Value) : Outcome String := do
  let (subject, predicate, object) ← triple.triple
  let s ← toNode prefixes "subject" subject
  let p ← toNode prefixes "predicate" predicate
  if p.isUri then
    let o ← toNode prefixes "object" object
    return (← s.turtle) ++ " " ++ (← p.turtle) ++ " " ++ (← o.ntriples) ++ " ."
  else CompilationError.fail (.predicateNotIri predicate.display)

def serializeTriples (prefixes : Option Prefixes) (triples : Value) : Outcome String := do
  let lines ← (← triples.members).mapM (statementLine prefixes)
  return escapeUnicode (String.intercalate "\n" lines ++ if lines.isEmpty then "" else "\n")

/-- A graph, its triples gathered by subject and then by predicate in the order of their first
appearance, none of them twice; and those of them that have no written form. -/
structure Graph where
  triples : List (Node × Node × Node)
  unwritable : List (Node × Node × Node)

namespace Graph

def distinct (ns : List Node) : List Node := ns.eraseDupsBy Node.same

def gather (ts : List (Node × Node × Node)) : List (Node × Node × Node) :=
  (distinct (ts.map (·.1))).flatMap fun s =>
    let own := ts.filter (s.same ·.1)
    (distinct (own.map (·.2.1))).flatMap fun p =>
      (distinct ((own.filter (p.same ·.2.1)).map (·.2.2))).map fun o => (s, p, o)

def ofTriples (ts : List (Node × Node × Node)) : Graph := ⟨gather ts, []⟩

def size (g : Graph) : Nat := g.triples.length

def objectText : Node → Outcome String
  | .literal t lang datatype => .ok (Node.annotate (lineQuoted t) lang datatype)
  | n => n.turtle

def line (g : Graph) (t : Node × Node × Node) : Outcome String := do
  let text := (← t.1.turtle) ++ " " ++ (← t.2.1.turtle) ++ " " ++ (← objectText t.2.2) ++ " .\n"
  if g.unwritable.contains t then Misuse.fail .unencodable else return text

def ntriples (g : Graph) : Outcome String :=
  (g.triples.mapM g.line).map fun lines => escapeUnicode (String.join lines)

end Graph

/-- What can be uploaded: a graph, a finished document, or a list of triples. -/
inductive Upload
  | graph (g : Graph)
  | value (v : Value)

def Upload.ntriples (prefixes : Option Prefixes) : Upload → Outcome String
  | .graph g => g.ntriples
  | .value (.octets s) => .ok (escapeUnicode s)
  | .value v => match v.chars? with
    | some s => .ok (escapeUnicode s)
    | none => serializeTriples prefixes v

end SparqlClient
