import SparqlClient.Query.Clause

/-! Updates that do not depend on a match: data that is inserted or deleted as it is, whole
resources, and the management of graphs. -/

namespace SparqlClient.Update

open Text

def dataTriple (p : Prefixes) (subject pred object : Value) : String :=
  wrap p subject ++ " " ++ Write.predicate p pred ++ " " ++ dataValue (some p) object ++ " ."

def dataBlock (lines : List String) : Outcome String :=
  if lines.isEmpty then CompilationError.fail .noTriples
  else .ok (String.intercalate " " lines)

def graphBlock (graph : Value) (body : String) : Outcome String := do
  if graph.truth then return "GRAPH " ++ (← angledValue graph) ++ " " ++ inBraces body
  else return body

def dataUpdate (keyword : String) (p : Prefixes) (triples graph : Value) : Outcome String := do
  let lines ← (← triples.members).mapM fun t => do
    let (s, pred, o) ← t.triple
    return dataTriple p s pred o
  return keyword ++ " DATA " ++ inBraces (← graphBlock graph (← dataBlock lines))

def insertData (p : Prefixes) (triples graph : Value) : Outcome String :=
  dataUpdate "INSERT" p triples graph

def deleteData (p : Prefixes) (triples graph : Value) : Outcome String :=
  dataUpdate "DELETE" p triples graph

def deleteBatch (p : Prefixes) (resources graph : Value) : Outcome String := do
  let names := (← resources.members).map (wrap p)
  if names.isEmpty then CompilationError.fail .emptyDeleteBatch
  else
    let target ← if graph.truth then do pure ("WITH " ++ (← angledValue graph) ++ " ")
      else pure ""
    return target ++ "DELETE " ++ inBraces "?s ?p ?o" ++ " WHERE " ++
      inBraces ("?s ?p ?o . FILTER(?s IN (" ++ String.intercalate ", " names ++ "))")

/-- The subject of a record under one of its two names, and the other fields. -/
def recordSubject (fields : Entries) : Outcome (Value × Entries) :=
  let rest := fields.erase "@id"
  let marked := fields.get "@id"
  if marked.truth then .ok (marked, rest)
  else
    let subject := fields.get "id"
    if subject.isNull then CompilationError.fail .recordWithoutId
    else .ok (subject, rest.erase "id")

/-- The values of a field: each item of a list, without nulls. -/
def fieldValues (v : Value) : List Value :=
  (match v with
    | .list items => items
    | v => [v]).filter (!·.isNull)

def recordTriples (p : Prefixes) (table record : Value) :
    Outcome (List (Value × Value × Value)) := do
  let (subject, fields) ← recordSubject (← record.entries)
  let type :=
    if table.truth then [(subject, .text typeIri, (classify (some p) table).toValue)] else []
  return type ++ fields.flatMap fun (pred, v) => (fieldValues v).map fun o => (subject, pred, o)

def insertBatch (p : Prefixes) (records graph table : Value) : Outcome String := do
  let triples := (← (← records.members).mapM (recordTriples p table)).flatten
  if triples.isEmpty then CompilationError.fail .emptyInsertBatch
  else
    let body ← graphBlock graph
      (String.intercalate " " (triples.map fun (s, pred, o) => dataTriple p s pred o))
    return "INSERT DATA " ++ inBraces body

def silently (silent : Bool) : String := if silent then " SILENT" else ""

def load (source graph : Value) (silent : Bool) : Outcome String := do
  let text := "LOAD" ++ silently silent ++ " " ++ (← angledValue source)
  if graph.truth then return text ++ " INTO GRAPH " ++ (← angledValue graph) else return text

def graphKeywords : List String := ["default", "named", "all"]

def graphRef (keywords : List String) (target : Value) : Outcome String :=
  let word := (target.chars?.map trim).getD ""
  if keywords.contains (lower word) then .ok (upper word)
  else (angledValue target).map ("GRAPH " ++ ·)

def clear (target : Value) (silent : Bool) : Outcome String :=
  (graphRef graphKeywords target).map fun t => "CLEAR" ++ silently silent ++ " " ++ t

def drop (target : Value) (silent : Bool) : Outcome String :=
  (graphRef graphKeywords target).map fun t => "DROP" ++ silently silent ++ " " ++ t

def create (graph : Value) (silent : Bool) : Outcome String :=
  (angledValue graph).map fun g => "CREATE" ++ silently silent ++ " GRAPH " ++ g

def operationWord (operation : Value) : Outcome String :=
  match operation with
  | .octets s => .ok ("b" ++ upper (trim s))
  | v => match v.chars? with
    | some s => .ok (upper (trim s))
    | none => Misuse.fail .noMember

def transfer (operation source target : Value) (silent : Bool) : Outcome String := do
  let keyword ← operationWord operation
  if keyword = "COPY" || keyword = "MOVE" || keyword = "ADD" then
    let source ← graphRef ["default"] source
    let target ← graphRef ["default"] target
    return keyword ++ silently silent ++ " " ++ source ++ " TO " ++ target
  else CompilationError.fail (.unknownTransfer operation.plainText)

end SparqlClient.Update
