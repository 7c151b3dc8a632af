import SparqlClient.Query.Fragment

/-! The conditions of a query. A block holds conditions in order; groups, unions and existence
tests hold blocks of their own. Each condition that tests rather than matches is joined to the
ones before it by a connector. -/

namespace SparqlClient

open Text

inductive Connector
  | and | or
  deriving DecidableEq

namespace Connector

def word : Connector → String
  | .and => "and"
  | .or => "or"

def sign : Connector → String
  | .and => "&&"
  | .or => "||"

def read (v : Value) : Outcome Connector :=
  let w := lower (trim v.plainText)
  if w = "and" then .ok .and
  else if w = "or" then .ok .or
  else CompilationError.fail (.unknownConnector v.plainText)

end Connector

inductive Comparison
  | eq | ne | lt | gt | le | ge
  deriving DecidableEq

def Comparison.sign : Comparison → String
  | .eq => "="
  | .ne => "!="
  | .lt => "<"
  | .gt => ">"
  | .le => "<="
  | .ge => ">="

inductive Operator
  | compare (c : Comparison)
  | regex (negated caseless : Bool)
  | lang
  | datatype
  deriving DecidableEq

namespace Operator

def word : Operator → String
  | .compare c => c.sign
  | .regex negated caseless =>
    (if negated then "not " else "") ++ (if caseless then "iregex" else "regex")
  | .lang => "lang"
  | .datatype => "datatype"

def all : List Operator :=
  [.compare .eq, .compare .ne, .compare .lt, .compare .gt, .compare .le, .compare .ge,
    .regex false false, .regex false true, .regex true false, .regex true true, .lang, .datatype]

def ofWord? (w : String) : Option Operator :=
  if w = "<>" then some (.compare .ne)
  else if w = "==" then some (.compare .eq)
  else all.find? (·.word == w)

theorem ofWord?_word (o : Operator) : ofWord? o.word = some o := by
  cases o with
  | compare c => cases c <;> decide
  | regex negated caseless => cases negated <;> cases caseless <;> decide
  | lang => decide
  | datatype => decide

def read (v : Value) : Outcome Operator :=
  match ofWord? (lower (trim v.plainText)) with
  | some o => .ok o
  | none => CompilationError.fail (.unknownOperator v.plainText)

end Operator

structure Between where
  column : Value
  low : Value
  high : Value
  connector : Connector
  negated : Bool

def between (column values connector : Value) (negated : Bool) : Outcome Between := do
  let members ← values.members
  match members with
  | [low, high] => return ⟨column, low, high, ← Connector.read connector, negated⟩
  | vs => CompilationError.fail (.betweenCount column.plainText vs.length)

/-- A sort key. Without a direction the column is written as it is. -/
structure Order where
  column : Value
  direction : Option String

def Order.display (o : Order) : String :=
  "Order(column=" ++ o.column.display ++ ", direction=" ++ (Value.ofText? o.direction).display ++ ")"

inductive GroupKind
  | optional
  | minus
  | service (target : Value)
  | group

/-- Patterns match triples; everything else tests what was matched. An operator is kept as it
was given and read when the query is written. A sort key among the conditions is a mistake of the
caller that shows when the query is written. -/
inductive Condition
  | basic (column : Value) (operator : String) (value : Value) (connector : Connector)
  | within (column : Value) (values : List Value) (connector : Connector) (negated : Bool)
  | between (range : Between)
  | null (column : Value) (connector : Connector)
  | notNull (column : Value) (connector : Connector)
  | raw (pattern : Fragment)
  | filter (expression : Fragment) (connector : Connector)
  | triple (subject predicate object : Value)
  | group (kind : GroupKind) (conditions : List Condition)
  | union (branches : List (List Condition))
  | exists (conditions : List Condition) (connector : Connector) (negated : Bool)
  | path (path : String) (operator : Operator) (value : Value) (connector : Connector)
  | stray (order : Order)

namespace Condition

def isPattern : Condition → Bool
  | .raw _ | .triple .. | .group .. | .union _ => true
  | _ => false

def connector? : Condition → Option Connector
  | .basic _ _ _ c => some c
  | .within _ _ c _ => some c
  | .between r => some r.connector
  | .null _ c => some c
  | .notNull _ c => some c
  | .filter _ c => some c
  | .exists _ c _ => some c
  | .path _ _ _ c => some c
  | _ => none

end Condition

def anyOr : List (Option Connector) → Outcome Bool
  | [] => .ok false
  | none :: _ => Misuse.fail .noMember
  | some .or :: _ => .ok true
  | some .and :: rest => anyOr rest

/-- The tests of a block are folded into one expression if one of them, after the first, is
joined by a disjunction. -/
def isFolded (conditions : List Condition) : Outcome Bool :=
  anyOr (((conditions.filter (!·.isPattern)).drop 1).map (·.connector?))

end SparqlClient
