import SparqlClient.Number.Arithmetic
import SparqlClient.Value.Use

/-! Times in seconds: whole, floating or decimal numbers. They are compared exactly. A floating
number that is missing comes before and after none; beside a decimal such a comparison has no
answer. -/

namespace SparqlClient

inductive Seconds
  | whole (n : Int)
  | floating (x : Float)
  | decimal (d : Decimal)

namespace Seconds

def toDecimal : Seconds → Decimal
  | .whole n => .ofInt n
  | .floating x => Value.exactDecimal x
  | .decimal d => d

def isDecimal : Seconds → Bool
  | .decimal _ => true
  | _ => false

def lt (a b : Seconds) : Outcome Bool :=
  match a, b with
  | .whole m, .whole n => .ok (m < n)
  | a, b => match a.toDecimal.order? b.toDecimal with
    | some o => .ok (o == .lt)
    | none => if a.isDecimal || b.isDecimal then Misuse.fail .undefinedOperation else .ok false

@[simp] theorem lt_whole (m n : Int) : lt (.whole m) (.whole n) = .ok (decide (m < n)) := rfl

def isNegative (s : Seconds) : Outcome Bool := s.lt (.whole 0)

/-- A floating number takes part only with numbers that can be made floating; a decimal only with
whole numbers and decimals. -/
def add : Seconds → Seconds → Outcome Seconds
  | .whole a, .whole b => .ok (.whole (a + b))
  | .whole a, .floating y => (Value.int a).float?.map fun x => .floating (x + y)
  | .floating x, .whole b => (Value.int b).float?.map fun y => .floating (x + y)
  | .floating x, .floating y => .ok (.floating (x + y))
  | .decimal _, .floating _ => Misuse.fail .wrongType
  | .floating _, .decimal _ => Misuse.fail .wrongType
  | a, b => (a.toDecimal.add b.toDecimal).map .decimal

def ofValue (v : Value) : Outcome Seconds :=
  match v with
  | .bool b => .ok (.whole (if b then 1 else 0))
  | .int n => .ok (.whole n)
  | .float x => .ok (.floating x)
  | .decimal d => .ok (.decimal d)
  | _ => Misuse.fail .wrongType

def toValue : Seconds → Value
  | .whole n => .int n
  | .floating x => .float x
  | .decimal d => .decimal d

def limit? (v : Value) : Outcome (Option Seconds) :=
  match v with
  | .null => .ok none
  | v => do
    let s ← ofValue v
    return if ← s.isNegative then none else some s

end Seconds

end SparqlClient
