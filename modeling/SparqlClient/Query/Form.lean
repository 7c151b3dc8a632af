import SparqlClient.Query.Clause

/-! The forms of a query. Each writes its own head and shares the clauses; clauses without text
take no place. Updates have the forms that delete, insert, or do both for each match. -/

namespace SparqlClient

open Text

namespace Compile

def run {α : Type} (s : QuerySpec) (form : Compile α) : Outcome α :=
  (StateT.run form (.ofSubject s.subject)).map Prod.fst

def whereText (body : Fragment) : Fragment := "WHERE " ++ body.inBraces

def clauses (parts : List Fragment) : Fragment := .joinPresent " " parts

def plain (parts : List String) : List Fragment := parts.map .ofText

def select (p : Prefixes) (s : QuerySpec) : Compile Fragment := do
  let head ← selectClause p s
  let groups ← groupClause p s
  let havings ← havingClause p s
  let orders ← orderClause p s
  let body ← body p s
  let source ← fromClause s
  let slice ← slice s
  return clauses ([.ofText head, .ofText source, whereText body, .ofText groups, havings,
    .ofText orders] ++ plain slice)

def ask (p : Prefixes) (s : QuerySpec) : Compile Fragment := do
  let body ← body p s
  let source ← fromClause s
  return clauses [.ofText "ASK", .ofText source, whereText body]

def template (p : Prefixes) (v : Value) : Outcome String :=
  match v.chars? with
  | some s => .ok (trim s)
  | none => do
    let triples ← v.members
    let lines ← triples.mapM fun t => do
      let (subject, pred, object) ← t.triple
      return wrap p subject ++ " " ++ Write.predicate p pred ++ " " ++ wrap p object ++ " ."
    return String.intercalate " " lines

def anyTriple : Compile String := do return (← get).subject ++ " ?p ?o ."

def withPattern (body : Fragment) (pattern : String) : Fragment :=
  ⟨trim (body.text ++ " " ++ pattern), body.bindings⟩

def construct (p : Prefixes) (s : QuerySpec) (given : Value) : Compile Fragment := do
  let orders ← orderClause p s
  let body ← body p s
  let (head, body) ←
    if given.isNull then do
      let pattern ← anyTriple
      pure (pattern, withPattern body pattern)
    else do pure (← template p given, body)
  let source ← fromClause s
  let slice ← slice s
  return clauses ([.ofText ("CONSTRUCT " ++ inBraces head), .ofText source, whereText body,
    .ofText orders] ++ plain slice)

def describe (p : Prefixes) (s : QuerySpec) (resources : Value) : Compile Fragment := do
  let targets ←
    if resources.truth then do
      pure (String.intercalate " " ((← resources.members).map (wrap p)))
    else do pure (← get).subject
  let head := "DESCRIBE " ++ targets
  if resources.truth && s.wheres.isEmpty && !s.table.truth then return .ofText head
  else
    let body ← body p s
    let source ← fromClause s
    let slice ← slice s
    return clauses ([.ofText head, .ofText source, whereText body] ++ plain slice)

def graphClause (s : QuerySpec) : Outcome (List String) := do
  if s.graph.truth then return ["WITH " ++ (← angledValue s.graph)] else return []

def templateClause (p : Prefixes) (keyword : String) (v : Value) : Outcome (List String) := do
  if v.isNull then return []
  else return [keyword ++ " " ++ inBraces (← template p v)]

/-- Deletes the one template and inserts the other for every match; null stands for none. -/
def modify (p : Prefixes) (s : QuerySpec) (deleted inserted : Value) : Compile Fragment := do
  let body ← body p s
  let graph ← graphClause s
  let delete ← templateClause p "DELETE" deleted
  let insert ← templateClause p "INSERT" inserted
  if deleted.isNull && inserted.isNull then
    (CompilationError.fail .emptyUpdate : Outcome Fragment)
  else return .join " " (plain (graph ++ delete ++ insert) ++ [whereText body])

def deleteSubjects (p : Prefixes) (s : QuerySpec) : Compile Fragment := do
  let body ← body p s
  let graph ← graphClause s
  let pattern ← anyTriple
  return .join " " (plain (graph ++ ["DELETE " ++ inBraces pattern]) ++
    [whereText (withPattern body pattern)])

end Compile

namespace QuerySpec

def select (p : Prefixes) (s : QuerySpec) : Outcome Fragment := Compile.run s (Compile.select p s)

def ask (p : Prefixes) (s : QuerySpec) : Outcome Fragment := Compile.run s (Compile.ask p s)

def construct (p : Prefixes) (s : QuerySpec) (template : Value) : Outcome Fragment :=
  Compile.run s (Compile.construct p s template)

def describe (p : Prefixes) (s : QuerySpec) (resources : Value) : Outcome Fragment :=
  Compile.run s (Compile.describe p s resources)

def insertWhere (p : Prefixes) (s : QuerySpec) (template : Value) : Outcome Fragment :=
  Compile.run s (Compile.modify p s .null template)

def deleteWhere (p : Prefixes) (s : QuerySpec) (template : Value) : Outcome Fragment :=
  Compile.run s
    (if template.isNull then Compile.deleteSubjects p s else Compile.modify p s template .null)

def deleteInsert (p : Prefixes) (s : QuerySpec) (deleted inserted : Value) : Outcome Fragment :=
  Compile.run s (Compile.modify p s deleted inserted)

end QuerySpec

end SparqlClient
