import SparqlClient.Error

/-! Sums and products of decimals. A result is the exact one rounded to twenty-eight digits, a
half to the even neighbour; one of more than a million places is refused, and so is a result
that no number is. -/

namespace SparqlClient.Decimal

def precision : Nat := 28

def lastPlace : Int := -1000026

def firstPlace : Int := 999972

def cut (digits places : Nat) : Nat :=
  let unit := Nat.pow 10 places
  let below := digits / unit
  let twice := 2 * (digits % unit)
  if unit < twice || (twice = unit && below % 2 = 1) then below + 1 else below

theorem cut_zero (digits : Nat) : cut digits 0 = digits := by
  simp [cut, Nat.mod_one, Nat.pow]

def placeOf (digits : Nat) (exponent : Int) : Int :=
  max (exponent + digitCount digits - precision) lastPlace

def fit (negative : Bool) (digits : Nat) (exponent : Int) : Outcome Decimal :=
  let place := placeOf digits exponent
  if exponent < place then
    let surplus := (place - exponent).toNat
    let kept := if digitCount digits < surplus then 0 else cut digits surplus
    let (kept, place) :=
      if precision < digitCount kept then (kept / 10, place + 1) else (kept, place)
    if firstPlace < place then Misuse.fail .exponentOverflow
    else .ok (.finite negative kept place)
  else if firstPlace < place then Misuse.fail .exponentOverflow
  else .ok (.finite negative digits exponent)

/-- A result as it is kept. Zero takes the nearest power of ten that there is. -/
def rounded (negative : Bool) (digits : Nat) (exponent : Int) : Outcome Decimal :=
  if digits = 0 then .ok (.finite negative 0 (max lastPlace (min exponent 999999)))
  else fit negative digits exponent

def missing (negative : Bool) (payload : String) : Decimal :=
  let ds := payload.toList
  .nan negative false
    (String.ofList ((ds.drop (ds.length - precision)).dropWhile (· == '0')))

def missing? : Decimal → Decimal → Option (Outcome Decimal)
  | .nan _ true _, _ => some (Misuse.fail .undefinedOperation)
  | _, .nan _ true _ => some (Misuse.fail .undefinedOperation)
  | .nan negative false payload, _ => some (.ok (missing negative payload))
  | _, .nan negative false payload => some (.ok (missing negative payload))
  | _, _ => none

def signed (negative : Bool) (n : Nat) : Int := if negative then -n else n

/-- With a zero added to it, a number takes on the places of the zero, up to one more than are
kept. -/
def padded (negative : Bool) (digits : Nat) (exponent place : Int) : Outcome Decimal :=
  let e := max (min exponent place) (exponent - (precision + 1))
  rounded negative (digits * Nat.pow 10 (exponent - e).toNat) e

/-- The sum of two numbers, of which the first has the greater power of ten. A second so small
that all of its size round alike is replaced by the one that is simplest to align. -/
def aligned (na : Bool) (a : Nat) (ea : Int) (nb : Bool) (b : Nat) (eb : Int) : Outcome Decimal :=
  let least := ea + min (-1) ((digitCount a : Int) - precision - 2)
  let (b, e) := if eb + digitCount b ≤ least then (1, least) else (b, eb)
  let total := signed na (a * Nat.pow 10 (ea - e).toNat) + signed nb b
  rounded (total < 0) total.natAbs e

def sum (na : Bool) (a : Nat) (ea : Int) (nb : Bool) (b : Nat) (eb : Int) : Outcome Decimal :=
  if a = 0 && b = 0 then rounded (na && nb) 0 (min ea eb)
  else if a = 0 then padded nb b eb ea
  else if b = 0 then padded na a ea eb
  else if ea < eb then aligned nb b eb na a ea
  else aligned na a ea nb b eb

def add (x y : Decimal) : Outcome Decimal :=
  match missing? x y with
  | some result => result
  | none => match x, y with
    | .infinite a, .infinite b => if a = b then .ok x else Misuse.fail .undefinedOperation
    | .infinite _, _ => .ok x
    | _, .infinite _ => .ok y
    | .finite na a ea, .finite nb b eb => sum na a ea nb b eb
    | _, _ => .ok x

def mul (x y : Decimal) : Outcome Decimal :=
  match missing? x y with
  | some result => result
  | none => match x, y with
    | .finite na a ea, .finite nb b eb => rounded (na != nb) (a * b) (ea + eb)
    | .infinite a, y => scale a y
    | x, .infinite b => scale b x
    | _, _ => .ok x
where
  scale (negative : Bool) : Decimal → Outcome Decimal
    | .finite n digits _ =>
      if digits = 0 then Misuse.fail .undefinedOperation else .ok (.infinite (negative != n))
    | .infinite n => .ok (.infinite (negative != n))
    | d => .ok d

end SparqlClient.Decimal
