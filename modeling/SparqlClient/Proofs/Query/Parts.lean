import SparqlClient.Proofs.Query.Run

/-! Choices inside the clauses and forms of a query, as steps of their own: each clause is a
sequence of steps without branches that meet again. -/

namespace SparqlClient.Compile

open Text

def slicePart (keyword : String) (given : Bool) (count : Value) : Outcome (List String) := do
  if given then return [keyword ++ (← countText count)] else return []

theorem slice_eq (q : QuerySpec) : slice q = do
    let limit ← slicePart "LIMIT " (!q.limit.isNull) q.limit
    let offset ← slicePart "OFFSET " q.offset.truth q.offset
    return limit ++ offset := by
  unfold slice slicePart
  cases q.limit.isNull <;> cases q.offset.truth <;> simp

theorem text_join_plain (parts : List String) (f : Fragment) :
    (Fragment.join " " (plain parts ++ [f])).text = String.intercalate " " (parts ++ [f.text]) := by
  simp [plain, Function.comp_def]

def aggregateTarget (p : Prefixes) (a : Aggregate) : Compile String := do
  if isStar a.column || a.column.isNull then
    if a.function = "COUNT" then return "*"
    else (CompilationError.fail (.aggregateNeedsColumn a.function) : Outcome String)
  else need p a.column false

theorem aggregate_eq (p : Prefixes) (a : Aggregate) (distinct : Bool) : aggregate p a distinct = do
    let target ← aggregateTarget p a
    let separator ← separatorText a.separator
    return "(" ++ a.function ++ "(" ++
      (if distinct || a.distinct then "DISTINCT " ++ target else target) ++ separator ++
      ") as ?aggregate)" := by
  unfold aggregate aggregateTarget
  by_cases whole : isStar a.column || a.column.isNull
  · by_cases counted : a.function = "COUNT"
    · simp [whole, counted]
    · simp [whole, counted]
  · simp [whole]

def constructParts (p : Prefixes) (given : Value) (body : Fragment) :
    Compile (String × Fragment) := do
  if given.isNull then
    let pattern ← anyTriple
    return (pattern, withPattern body pattern)
  else
    let head ← template p given
    return (head, body)

theorem construct_eq (p : Prefixes) (q : QuerySpec) (given : Value) : construct p q given = do
    let orders ← orderClause p q
    let body ← body p q
    let parts ← constructParts p given body
    let source ← fromClause q
    let slice ← slice q
    return clauses ([.ofText ("CONSTRUCT " ++ inBraces parts.1), .ofText source,
      whereText parts.2, .ofText orders] ++ plain slice) := by
  unfold construct constructParts
  cases given.isNull <;> simp

def describeTargets (p : Prefixes) (resources : Value) : Compile String := do
  if resources.truth then
    let members ← resources.members
    return String.intercalate " " (members.map (wrap p))
  else return (← get).subject

/-- Resources alone are described without a body. -/
def describesAlone (q : QuerySpec) (resources : Value) : Bool :=
  resources.truth && q.wheres.isEmpty && !q.table.truth

theorem describe_eq (p : Prefixes) (q : QuerySpec) (resources : Value) :
    describe p q resources = do
      let targets ← describeTargets p resources
      if describesAlone q resources then return .ofText ("DESCRIBE " ++ targets)
      else
        let body ← body p q
        let source ← fromClause q
        let slice ← slice q
        return clauses ([.ofText ("DESCRIBE " ++ targets), .ofText source, whereText body] ++
          plain slice) := by
  unfold describe describeTargets describesAlone
  cases resources.truth <;> simp

end SparqlClient.Compile
