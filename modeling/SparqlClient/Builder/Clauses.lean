import SparqlClient.Builder.Conditions
import SparqlClient.Rdf.Literal
import SparqlClient.Store.Namespace

/-! The steps of a builder that set the clauses around its conditions. -/

namespace SparqlClient.Builder

open Text

def inNamespace (b : Builder) (name : Value) : Outcome Builder := do
  if name.isNull then return b.withSpec ({ · with namespaceName := none })
  else
    let name ← Namespace.validate name
    return b.withSpec ({ · with namespaceName := some name })

def flatten (columns : List Value) : List Value :=
  columns.flatMap fun
    | .list items => items
    | v => [v]

def select (b : Builder) (columns : List Value) : Builder :=
  let columns := flatten columns
  b.withSpec ({ · with columns := if columns.isEmpty then [.text "*"] else columns })

def addSelect (b : Builder) (columns : List Value) : Builder :=
  b.withSpec fun s =>
    { s with columns := s.columns.filter (!Compile.isStar ·) ++ flatten columns }

def selectExpression (b : Builder) (expression : Value) : Builder :=
  b.addSelect [(Term.raw expression).toValue]

def distinct (b : Builder) (value : Bool) : Builder := b.withSpec ({ · with distinct := value })

def bindTo (b : Builder) (expression : Fragment) (target : Value) : Outcome Builder := do
  let name := Shape.withMark (← onlyText target)
  return b.withSpec fun s => { s with binds := s.binds ++ [⟨expression, name⟩] }

def bind (b : Builder) (expression target values : Value) : Outcome Builder := do
  b.bindTo (← callerText expression values) target

def lexical : Value → String
  | .bool b => if b then "true" else "false"
  | .date d => d.iso
  | .moment m => m.iso
  | .clock t => t.iso
  | v => v.plainText

def typed (b : Builder) (target value datatype : Value) : Outcome Builder := do
  let iri ← datatypeIri (some b.prefixes) datatype
  b.bindTo ⟨"STRDT( ? , " ++ angled iri ++ " )", [.text (lexical value)]⟩ target

def langTagged (b : Builder) (target value lang : Value) : Outcome Builder :=
  if Literal.isLanguageTag lang.plainText then
    b.bindTo ⟨"STRLANG( ? , \"" ++ lang.plainText ++ "\" )", [.text value.plainText]⟩ target
  else CompilationError.fail (.invalidLanguage lang.display)

def rowOf (names : List Value) (row : Value) : Outcome (List Value) :=
  let cells := match row with
    | .list items => items
    | v => [v]
  if cells.length = names.length then .ok cells
  else CompilationError.fail (.rowMismatch (Value.displayRow cells) (Value.displayRow names))

def values (b : Builder) (targets rows : Value) : Outcome Builder := do
  let names ← if targets.chars?.isSome then pure [targets] else targets.members
  let rows ← (← rows.members).mapM (rowOf names)
  return b.withSpec fun s => { s with values := s.values ++ [⟨names, rows⟩] }

def groupBy (b : Builder) (columns : List Value) : Builder :=
  b.withSpec fun s => { s with groups := s.groups ++ flatten columns }

def having (b : Builder) (column operator : Value) (value : Option Value) (connector : Value) :
    Outcome Builder := do
  let (operator, value) := match value with
    | some v => (operator, v)
    | none => (.text "=", operator)
  let o ← Operator.read operator
  let c ← Connector.read connector
  return b.withSpec fun s => { s with havings := s.havings ++ [.test column o value c] }

def havingRaw (b : Builder) (expression values connector : Value) : Outcome Builder := do
  let expression ← callerText expression values
  let c ← Connector.read connector
  return b.withSpec fun s => { s with havings := s.havings ++ [.raw expression c] }

def addOrder (b : Builder) (o : Order) : Builder :=
  b.withSpec fun s => { s with orders := s.orders ++ [o] }

def orderBy (b : Builder) (column direction : Value) : Outcome Builder := do
  let d ← Direction.read direction
  return b.addOrder ⟨column, some d.word⟩

def orderByRaw (b : Builder) (expression : Value) : Builder := b.addOrder ⟨expression, none⟩

def limit (b : Builder) (count : Value) : Outcome Builder := do
  let n ← count.whole
  return b.withSpec ({ · with limit := .int (max 0 n) })

def offset (b : Builder) (count : Value) : Outcome Builder := do
  let n ← count.whole
  return b.withSpec ({ · with offset := .int (max 0 n) })

/-- So many times a value: numbers are multiplied, texts and lists repeated. -/
def times (n : Nat) (v : Value) : Outcome Value :=
  match v with
  | .bool b => .ok (.int (if b then n else 0))
  | .int k => .ok (.int (n * k))
  | .float x => (Value.int n).float?.map fun y => .float (y * x)
  | .decimal d => ((Decimal.ofInt n).mul d).map .decimal
  | .null | .map _ | .date _ | .moment _ | .clock _ | .term .. => Misuse.fail .wrongType
  | v =>
    if Nat.pow 2 63 ≤ n then Misuse.fail .overflow
    else match v with
      | .octets s => .ok (.octets (String.join (List.replicate n s)))
      | .list items => .ok (.list (List.replicate n items).flatten)
      | v => .ok (.text (String.join (List.replicate n v.plainText)))

def forPage (b : Builder) (page size : Value) : Outcome Builder := do
  let p ← page.whole
  (← b.offset (← times (max 1 p - 1).toNat size)).limit size

/-- Without groups an aggregate drops the sort keys. -/
def aggregate (b : Builder) (function column separator : Value) : Outcome Builder := do
  let a ← Aggregate.read function column separator
  return b.withSpec fun s =>
    { s with aggregate := some a, orders := if s.groups.isEmpty then [] else s.orders }

end SparqlClient.Builder
