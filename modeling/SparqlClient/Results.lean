import SparqlClient.Term.Make

/-! Answers of a store in the JSON form of query results. Each solution becomes a row of terms;
a variable without a value has no place in its row. -/

namespace SparqlClient

open Text Shape

def textOnly (misuse : Misuse) (v : Value) : Outcome String :=
  match v.chars? with
  | some s => .ok s
  | none => Misuse.fail misuse

namespace Term

/-- A numeric literal whose text its datatype cannot read stays a string. -/
def ofNumeric (r : NumericRange) (value datatype : Value) : Outcome Term :=
  match r.read value with
  | .ok v => .ok (plain .numeric v)
  | .error (.misuse .badValue) | .error (.misuse .undefinedOperation) =>
    check ⟨.string, value, .null, datatype⟩
  | .error e => .error e

def ofLiteral (value lang datatype : Value) : Outcome Term := do
  let name : Option String := match ← datatype.checkedKey with
    | .text s => some s
    | _ => none
  match name.bind numericRange? with
  | some r => ofNumeric r value datatype
  | none =>
    if name = some (xsd "boolean") then
      match value with
      | .octets _ => return plain .boolean (.bool false)
      | _ => return plain .boolean (.bool (isTrueWord (← onlyText value)))
    else if lang.truth then check ⟨.string, value, lang, .null⟩
    else check ⟨.string, value, .null, datatype⟩

def ofBinding (binding : Value) : Outcome Term := do
  let fields ← binding.fields
  let kind := (fields.get "type").chars?
  let value := (fields.get? "value").getD (.text "")
  if kind = some "uri" then
    let s ← textOnly .wrongType value
    return ofText (if isUrn s then .urn else .iri) s
  else if kind = some "bnode" then
    return bnode (← onlyText value)
  else ofLiteral value (fields.get "xml:lang") (fields.get "datatype")

end Term

structure Row where
  cells : List (String × Term)

namespace Row

def key (name : Value) : Outcome String :=
  (onlyText name).map (trimStartOf (· == '?'))

def find? (r : Row) (name : String) : Option Term :=
  (r.cells.find? (·.1 == name)).map Prod.snd

def get (r : Row) (name : Value) : Outcome Term := do
  match r.find? (← key name) with
  | some t => return t
  | none => Misuse.fail .missingKey

def contains (r : Row) (name : Value) : Outcome Bool := do
  return (r.find? (← key name)).isSome

def value (r : Row) (name default : Value) : Outcome Value := do
  return ((r.find? (← key name)).map (·.value)).getD default

def size (r : Row) : Nat := r.cells.length

def names (r : Row) : List String := r.cells.map Prod.fst

def toValue (r : Row) : Value := .map (r.cells.map fun (n, t) => (.text n, t.value))

def display (r : Row) : String := "Row(" ++ r.toValue.display ++ ")"

def ofSolution (solution : Value) : Outcome Row := do
  let cells ← (← solution.fields).mapM fun (name, binding) => do
    return (name.plainText, ← Term.ofBinding binding)
  return ⟨cells⟩

end Row

structure ResultSet where
  vars : List Value
  rows : List Row

namespace ResultSet

def part (fields : Entries) (name : String) : Outcome Entries :=
  match fields.get? name with
  | none => .ok []
  | some v => v.fields

def membersOf (fields : Entries) (name : String) : Outcome (List Value) :=
  match fields.get? name with
  | none => .ok []
  | some v => v.members

def ofAnswer (answer : Value) : Outcome ResultSet := do
  let fields ← answer.fields
  let vars ← membersOf (← part fields "head") "vars"
  let solutions ← membersOf (← part fields "results") "bindings"
  return ⟨vars, ← solutions.mapM Row.ofSolution⟩

def size (s : ResultSet) : Nat := s.rows.length

def first (s : ResultSet) : Option Row := s.rows.head?

def get (s : ResultSet) (position : Int) : Outcome Row :=
  let i := if position < 0 then position + s.rows.length else position
  if i < 0 then Misuse.fail .outOfRange
  else match s.rows[i.toNat]? with
    | some r => .ok r
    | none => Misuse.fail .outOfRange

def item (s : ResultSet) : Value → Outcome Row
  | .int n => s.get n
  | .bool b => s.get (if b then 1 else 0)
  | _ => Misuse.fail .wrongType

def column (s : ResultSet) (name : Value) : Outcome (List Value) :=
  s.rows.mapM (·.value name .null)

def toValues (s : ResultSet) : List Value := s.rows.map Row.toValue

def display (s : ResultSet) : String :=
  "ResultSet(variables=" ++ (Value.list s.vars).display ++ ", rows=[" ++
    String.intercalate ", " (s.rows.map Row.display) ++ "])"

end ResultSet

def askAnswer (answer : Value) : Outcome Bool := do
  return ((← answer.fields).get "boolean").truth

/-- A term as a number if it is one or reads as one. A whole number may be too long to be read;
a floating number has a point or an exponent. -/
def toNumber (t : Term) : Outcome Value :=
  match t.kind with
  | .numeric | .boolean => .ok t.value
  | _ =>
    let text := t.value.plainText
    let body := match text.toList with
      | '-' :: s => s
      | '+' :: s => s
      | s => s
    if !body.isEmpty && body.all isDecimalDigit then (Value.text text).whole.map .int
    else if !body.contains '_' && (Numeral.scientific? (Numeral.asciiDigits body)).isSome then
      (Value.text text).float?.map .float
    else .ok (.text text)

end SparqlClient
