import SparqlClient.Builder.Clauses
import SparqlClient.Connection.Query
import SparqlClient.Query.Update

/-! Executing a builder. The query is written first; a builder without a connection fails only
then. A namespace of the builder holds for the exchange alone. -/

namespace SparqlClient

inductive Execution
  | get (columns : List Value)
  | first
  | exists
  | aggregate (function : String) (column separator : Value)
  | construct (template : Value)
  | describe (resources : Value)
  | delete (template : Value)
  | insertBatch (records : Value)
  | deleteBatch (resources : Value)
  | cacheKey

namespace Execution

def query (b : Builder) : Execution → Outcome Fragment
  | .get columns => (if columns.isEmpty then b else b.select columns).compile
  | .first => do (← b.limit (.int 1)).compile
  | .exists => b.spec.ask b.names
  | .aggregate function column separator => do
    (← b.aggregate (.text function) column separator).compile
  | .construct template => b.spec.construct b.names template
  | .describe resources => b.spec.describe b.names resources
  | .delete template => b.spec.deleteWhere b.names template
  | .insertBatch records =>
    (Update.insertBatch b.names records b.spec.graph b.spec.table).map .ofText
  | .deleteBatch resources => (Update.deleteBatch b.names resources b.spec.graph).map .ofText
  | .cacheKey => b.compile

def batchSize? : Execution → Outcome (Option Nat)
  | .insertBatch v | .deleteBatch v => v.members.map fun vs => some vs.length
  | _ => .ok none

def default (function : String) : Value :=
  if function = "COUNT" || function = "SUM" then .int 0 else .null

def aggregateValue (function : String) (r : ResultSet) : Outcome Value :=
  match r.first.bind (·.find? "aggregate") with
  | none => .ok (default function)
  | some t => do
    let v ← toNumber t
    return if function = "GROUP_CONCAT" && !v.isNull then .text v.plainText else v

end Execution

namespace Exchange

def ofFragment (b : Builder) (f : Fragment) : Exchange ResultSet :=
  results f.text (.list f.bindings) b.remembered b.timeToLive

def withQuery (b : Builder) (e : Execution) (f : Fragment) (size : Nat) : Exchange Answer := do
  let values := Value.list f.bindings
  match e with
  | .get _ => return .results (← ofFragment b f)
  | .first => return ((← ofFragment b f).first.map Answer.row).getD (.value .null)
  | .exists => return .value (.bool (← test f.text values))
  | .aggregate function _ _ => do
    let r ← ofFragment b f
    return .value (← Execution.aggregateValue function r)
  | .construct _ | .describe _ => return .value (.text (← construct f.text values))
  | .delete _ => do
    update f.text values
    return .value .null
  | .insertBatch _ | .deleteBatch _ => do
    update f.text .null
    return .value (.int size)
  | .cacheKey => return .value (.text (← ask (·.cacheKey f.text values)))

def inScope {α : Type} (b : Builder) (body : Exchange α) : Exchange α :=
  match b.spec.namespaceName with
  | none => body
  | some n => within (.text n) body

/-- A key is asked for in the namespace in force; an empty batch sends nothing. -/
def execute (b : Builder) (e : Execution) : Exchange Answer := do
  let b := { b with prefixes := (← get).prefixes }
  match ← e.batchSize? with
  | some 0 => return .value (.int 0)
  | size =>
    let f ← e.query b
    match e with
    | .cacheKey => withQuery b e f 0
    | e => inScope b (withQuery b e f (size.getD 0))

end Exchange

namespace Builder

def executeDetached (b : Builder) (e : Execution) : Outcome Answer := do
  match ← e.batchSize? with
  | some 0 => return .value (.int 0)
  | _ =>
    let _ ← e.query b
    CompilationError.fail .detached

def ofConnection (c : Connection) : Builder :=
  let b := make "?s" c.prefixes true
  if c.config.graph.truth then b.graph c.config.graph else b

end Builder

end SparqlClient
