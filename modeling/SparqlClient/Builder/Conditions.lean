import SparqlClient.Builder.Basic

/-! The steps of a builder that add conditions. Arguments are checked when a step is made, apart
from the columns, which are read when the query is written. -/

namespace SparqlClient

open Text

def isPatternSpecial (c : Char) : Bool :=
  c = '.' || c = '^' || c = '$' || c = '*' || c = '+' || c = '?' || c = '(' || c = ')' ||
    c = '[' || c = ']' || c = '\x7b' || c = '\x7d' || c = '|' || c = '\\'

def wildcardChar (c : Char) : List Char :=
  if isPatternSpecial c then ['\\', c]
  else if c = '%' then ['.', '*']
  else if c = '_' then ['.']
  else [c]

/-- A pattern with the wildcards `%` and `_` as an anchored regular expression. -/
def likeToRegex (pattern : String) : String :=
  String.ofList ('^' :: pattern.toList.flatMap wildcardChar ++ ['$'])

namespace Builder

def add (b : Builder) (c : Condition) : Builder :=
  b.withSpec fun s => { s with wheres := s.wheres ++ [c] }

@[simp] theorem wheres_add (b : Builder) (c : Condition) :
    (b.add c).spec.wheres = b.spec.wheres ++ [c] := rfl

def whereLike (b : Builder) (column pattern connector : Value) (negated : Bool) :
    Outcome Builder := do
  let connector ← Connector.read connector
  let operator := Operator.regex negated true
  return b.add (.basic column operator.word (.text (likeToRegex pattern.plainText)) connector)

/-- Null is compared by equality and inequality alone: it asks whether there is a value. -/
def test (b : Builder) (column operator value connector : Value) : Outcome Builder := do
  let c ← Connector.read connector
  let o := lower (trim operator.plainText)
  if value.isNull && (o = "=" || o = "is") then return b.add (.null column c)
  else if value.isNull && (o = "!=" || o = "<>" || o = "is not") then
    return b.add (.notNull column c)
  else if o = "like" then b.whereLike column value connector false
  else if o = "not like" then b.whereLike column value connector true
  else
    let operator ← Operator.read (.text o)
    return b.add (.basic column operator.word value c)

def testAll (b : Builder) (connector : Value) (entries : Entries) : Outcome Builder :=
  entries.foldlM (fun b (k, v) => b.test k (.text "=") v connector) b

def whereTest (b : Builder) (column : Value) (operator value : Option Value) (connector : Value) :
    Outcome Builder :=
  match column, operator, value with
  | .map entries, _, _ => b.testAll connector entries
  | column, some operator, some value => b.test column operator value connector
  | column, some value, none => b.test column (.text "=") value connector
  | column, none, some value => b.test column .null value connector
  | column, none, none => CompilationError.fail (.missingValue column.plainText)

def whereIn (b : Builder) (column values connector : Value) (negated : Bool) :
    Outcome Builder := do
  let members ← values.members
  return b.add (.within column members (← Connector.read connector) negated)

def whereBetween (b : Builder) (column values connector : Value) (negated : Bool) :
    Outcome Builder := do
  return b.add (.between (← between column values connector negated))

def whereNull (b : Builder) (column connector : Value) : Outcome Builder := do
  return b.add (.null column (← Connector.read connector))

def whereNotNull (b : Builder) (column connector : Value) : Outcome Builder := do
  return b.add (.notNull column (← Connector.read connector))

def callerText (text values : Value) : Outcome Fragment :=
  match text.chars?, values with
  | some t, values => Fragment.ofCaller t values
  | none, .map _ => Misuse.fail .wrongType
  | none, values => Fragment.ofCaller text.plainText values

def whereRaw (b : Builder) (pattern values connector : Value) : Outcome Builder := do
  let pattern ← callerText pattern values
  let _ ← Connector.read connector
  return b.add (.raw pattern)

def filter (b : Builder) (expression values connector : Value) : Outcome Builder := do
  let expression ← callerText expression values
  return b.add (.filter expression (← Connector.read connector))

def whereTriple (b : Builder) (subject predicate object : Value) : Builder :=
  b.add (.triple subject predicate object)

def wherePath (b : Builder) (path operator : Value) (value : Option Value) (connector : Value) :
    Outcome Builder := do
  let (operator, value) := match value with
    | some v => (operator, v)
    | none => (.text "=", operator)
  let o ← Operator.read operator
  return b.add (.path path.plainText o value (← Connector.read connector))

abbrev Step := Builder → Outcome Builder

def nested (b : Builder) (step : Step) : Outcome (List Condition) := do
  let inner ← step (.make b.spec.subject b.prefixes false)
  return inner.spec.wheres

def whereExists (b : Builder) (step : Step) (connector : Value) (negated : Bool) :
    Outcome Builder := do
  let conditions ← b.nested step
  if conditions.isEmpty then return b
  else return b.add (.exists conditions (← Connector.read connector) negated)

def whereGroup (b : Builder) (kind : GroupKind) (step : Step) : Outcome Builder := do
  let conditions ← b.nested step
  if conditions.isEmpty then return b else return b.add (.group kind conditions)

/-- New branches extend a union that was added right before. -/
def addBranches (branches : List (List Condition)) : List Condition → List Condition
  | [] => [.union branches]
  | [.union earlier] => [.union (earlier ++ branches)]
  | c :: cs => c :: addBranches branches cs

def union (b : Builder) (steps : List Step) : Outcome Builder := do
  let branches := (← steps.mapM b.nested).filter (!·.isEmpty)
  if branches.isEmpty then return b
  else return b.withSpec fun s => { s with wheres := addBranches branches s.wheres }

end Builder

end SparqlClient
