import SparqlClient.Query.Condition

/-! What a query asks for, clause by clause, before it is written. Without a group an aggregate
has a single answer, so that its sort keys have no effect. -/

namespace SparqlClient

open Text

structure Aggregate where
  function : String
  column : Value
  separator : Value
  distinct : Bool

namespace Aggregate

def functions : List String := ["COUNT", "SUM", "AVG", "MIN", "MAX", "GROUP_CONCAT", "SAMPLE"]

def separatorMark : String := "GROUP_CONCAT_SEPARATOR_"

def make (given name : String) (column separator : Value) : Outcome Aggregate :=
  if !functions.contains name then CompilationError.fail (.unknownAggregate given)
  else if !separator.isNull && name ≠ "GROUP_CONCAT" then CompilationError.fail .separatorNotAllowed
  else .ok ⟨name, column, separator, false⟩

def read (function column separator : Value) : Outcome Aggregate :=
  let given := function.plainText
  let text := trim given
  if startsWith (upper text) separatorMark then
    make given "GROUP_CONCAT" column
      (.text (String.ofList (text.toList.drop separatorMark.toList.length)))
  else make given (upper text) column separator

end Aggregate

inductive Direction
  | asc | desc
  deriving DecidableEq

namespace Direction

def word : Direction → String
  | .asc => "asc"
  | .desc => "desc"

def keyword : Direction → String
  | .asc => "ASC"
  | .desc => "DESC"

def read (v : Value) : Outcome Direction :=
  let w := lower (trim v.plainText)
  if w = "asc" then .ok .asc
  else if w = "desc" then .ok .desc
  else CompilationError.fail (.unknownDirection v.plainText)

theorem read_word (d : Direction) : read (.text d.word) = .ok d := by
  cases d <;> rfl

end Direction

structure Bind where
  expression : Fragment
  target : String

structure ValuesBlock where
  names : List Value
  rows : List (List Value)

/-- A condition on groups: a comparison, or an expression of the caller. -/
inductive Having
  | test (column : Value) (operator : Operator) (value : Value) (connector : Connector)
  | raw (expression : Fragment) (connector : Connector)

def Having.connector : Having → Connector
  | .test _ _ _ c => c
  | .raw _ c => c

structure QuerySpec where
  subject : String
  table : Value := .null
  graph : Value := .null
  namespaceName : Option String := none
  columns : List Value := []
  distinct : Bool := false
  wheres : List Condition := []
  binds : List Bind := []
  values : List ValuesBlock := []
  groups : List Value := []
  havings : List Having := []
  orders : List Order := []
  limit : Value := .null
  offset : Value := .null
  aggregate : Option Aggregate := none

namespace QuerySpec

def ofSubject (subject : String) : QuerySpec where
  subject := subject

def effectiveOrders (s : QuerySpec) : List Order :=
  if s.aggregate.isSome && s.groups.isEmpty then [] else s.orders

end QuerySpec

end SparqlClient
