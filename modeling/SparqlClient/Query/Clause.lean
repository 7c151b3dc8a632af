import SparqlClient.Query.Block

/-! The clauses of a query around its conditions. A clause that refers to a predicate needs the
pattern of the predicate: the conditions may bring it, and otherwise it is added behind them,
where it may be missing unless a group, a condition on groups or an aggregate needs it. -/

namespace SparqlClient

open Text

def typeIri : String := Prefixes.rdf ++ "type"

namespace Compile

def isStar : Value → Bool
  | .text s => s = "*"
  | _ => false

def separatorText (v : Value) : Outcome String := do
  let escape (c : Char) : String :=
    if c = '\\' then "\\\\" else if c = '"' then "\\\"" else String.singleton c
  if v.isNull then return ""
  else return "; separator=\"" ++ mapChars escape (← onlyText v) ++ "\""

def aggregate (p : Prefixes) (a : Aggregate) (distinct : Bool) : Compile String := do
  let target ←
    if isStar a.column || a.column.isNull then
      if a.function = "COUNT" then pure "*"
      else (CompilationError.fail (.aggregateNeedsColumn a.function) : Outcome String)
    else need p a.column false
  let target := if distinct || a.distinct then "DISTINCT " ++ target else target
  return "(" ++ a.function ++ "(" ++ target ++ (← separatorText a.separator) ++ ") as ?aggregate)"

def column (p : Prefixes) (v : Value) : Compile String :=
  match v with
  | .term .raw x _ _ => return x.plainText
  | v => need p v true

def selectClause (p : Prefixes) (s : QuerySpec) : Compile String := do
  match s.aggregate with
  | some a => return "SELECT " ++ (← aggregate p a s.distinct)
  | none =>
    let keyword := if s.distinct then "SELECT DISTINCT " else "SELECT "
    let columns := s.columns.filter (!isStar ·)
    if columns.isEmpty then return keyword ++ "*"
    else return keyword ++ String.intercalate " " (← columns.mapM (column p))

def groupClause (p : Prefixes) (s : QuerySpec) : Compile String := do
  if s.groups.isEmpty then return ""
  else return "GROUP BY " ++ String.intercalate " " (← s.groups.mapM (need p · false))

def having (p : Prefixes) (h : Having) : Compile Fragment :=
  match h with
  | .raw expression _ => return "( " ++ expression ++ " )"
  | .test column o value _ => do
    let ref ← need p column false
    match o with
    | .compare c => return (ref ++ " " ++ c.sign ++ " ") ++ Write.operand p value
    | o => (CompilationError.fail (.havingOperator o.word) : Outcome Fragment)

def havingClause (p : Prefixes) (s : QuerySpec) : Compile Fragment := do
  if s.havings.isEmpty then return .empty
  else
    let tests ← s.havings.mapM fun h => do return (⟨h.connector, ← having p h⟩ : Test)
    return "HAVING( " ++ Clauses.foldTests tests ++ " )"

def orderKey (p : Prefixes) (o : Order) : Compile String :=
  match o.direction with
  | none => return o.column.plainText
  | some d => do
    let direction ← Direction.read (.text d)
    return direction.keyword ++ "(" ++ (← need p o.column true) ++ ")"

def orderClause (p : Prefixes) (s : QuerySpec) : Compile String := do
  if s.effectiveOrders.isEmpty then return ""
  else return "ORDER BY " ++ String.intercalate " " (← s.effectiveOrders.mapM (orderKey p))

def countText (count : Value) : Outcome String := do
  let text := intText (max 0 (← count.whole))
  if Numeral.maxDigits < text.toList.length then Misuse.fail .badValue else return text

def slice (s : QuerySpec) : Outcome (List String) := do
  let limit ← if s.limit.isNull then pure [] else do pure ["LIMIT " ++ (← countText s.limit)]
  let offset ← if s.offset.truth then do pure ["OFFSET " ++ (← countText s.offset)] else pure []
  return limit ++ offset

def fromClause (s : QuerySpec) : Outcome String := do
  if s.graph.truth then return "FROM " ++ (← angledValue s.graph) else return ""

def tableClause (p : Prefixes) (s : QuerySpec) : Compile (List Fragment) := do
  if s.table.truth then
    let table := (classify (some p) s.table).render (some p)
    return [.ofText ((← get).subject ++ " " ++ angled typeIri ++ " " ++ table ++ " .")]
  else return []

/-- The patterns of the predicates that other clauses need and no condition has brought. -/
def neededPatterns : Compile (List Fragment) := do
  let scope ← get
  (scope.needed.filter fun e => !scope.emitted.contains e.1).mapM fun (predicate, optional) => do
    return optionally optional (← pattern predicate (.ofText ((scope.refOf? predicate).getD "")))

def bindText (b : Bind) : Fragment :=
  "BIND(" ++ b.expression ++ (" AS " ++ Shape.withMark b.target ++ ")")

def valuesText (p : Prefixes) (b : ValuesBlock) : Outcome Fragment := do
  let names ← b.names.mapM fun v => (onlyText v).map Shape.withMark
  let row (vs : List Value) : String :=
    "(" ++ String.intercalate " " (vs.map (dataValue (some p))) ++ ")"
  return .ofText ("VALUES (" ++ String.intercalate " " names ++ ") " ++
    inBraces (String.intercalate " " (b.rows.map row)))

/-- The body of the query: its type, its conditions, what other clauses need, and data. -/
def body (p : Prefixes) (s : QuerySpec) : Compile Fragment := do
  let table ← tableClause p s
  let conditions ← block p s.wheres
  let needed ← neededPatterns
  let values ← (s.values.mapM (valuesText p) : Outcome (List Fragment))
  return .joinPresent " " (table ++ conditions :: needed ++ s.binds.map bindText ++ values)

end Compile

end SparqlClient
