import SparqlClient.Number.Shortest
import SparqlClient.Text.Blank
import SparqlClient.Text.Pieces
import SparqlClient.Text.Word

/-! Reading numbers from text. Digits of every script count, and single underscores may stand
between digits. Whole and floating numbers allow blanks around them except the four separator
controls; decimals allow every blank and drop underscores wherever they stand. -/

namespace SparqlClient.Numeral

open SparqlClient.Text

def isOuterBlank (c : Char) : Bool :=
  isBlank c && !(28 ≤ c.toNat && c.toNat ≤ 31)

def asciiDigits (s : List Char) : List Char :=
  s.map fun c => ((digit? c).map fun d => Char.ofNat (48 + d)).getD c

structure Run where
  value : Nat
  count : Nat
  rest : List Char

def Run.push (r : Run) (c : Char) (rest : List Char) : Run :=
  ⟨r.value * 10 + (c.toNat - 48), r.count + 1, rest⟩

def runFrom (r : Run) : List Char → Run
  | '_' :: c :: s =>
    if 0 < r.count && c.isDigit then runFrom (r.push c s) s else { r with rest := '_' :: c :: s }
  | c :: s => if c.isDigit then runFrom (r.push c s) s else { r with rest := c :: s }
  | [] => { r with rest := [] }

def run (s : List Char) : Run := runFrom ⟨0, 0, []⟩ s

def sign : List Char → Bool × List Char
  | '-' :: s => (true, s)
  | '+' :: s => (false, s)
  | s => (false, s)

/-- The greatest number of digits that is read as a whole number. -/
def maxDigits : Nat := 4300

def int? (s : String) : Option Int :=
  let (negative, cs) := sign (asciiDigits (trimBy isOuterBlank s.toList))
  let r := run cs
  if r.count = 0 || maxDigits < r.count || !r.rest.isEmpty then none
  else some (if negative then -(r.value : Int) else r.value)

def floatOf (m : Nat) (e : Int) : Float :=
  let size : Int := Decimal.digitCount m + e
  if m = 0 || size < -330 then 0.0
  else if 310 < size then 1.0 / 0.0
  else if 0 ≤ e then Float.ofScientific m false e.toNat
  else Float.ofScientific m true (-e).toNat

def scientific? (s : List Char) : Option (Nat × Int) :=
  let whole := run s
  let (value, places, rest) :=
    match whole.rest with
    | '.' :: t =>
      let part := run t
      (whole.value * Nat.pow 10 part.count + part.value, part.count, part.rest)
    | t => (whole.value, 0, t)
  let any := 0 < whole.count || 0 < places
  match any, rest with
  | false, _ => none
  | true, [] => some (value, -(places : Int))
  | true, e :: t =>
    if e = 'e' || e = 'E' then
      let (negative, t) := sign t
      let x := run t
      if x.count = 0 || !x.rest.isEmpty then none
      else some (value, (if negative then -(x.value : Int) else x.value) - places)
    else none

def isWord (w : String) (s : List Char) : Bool := s.map Char.toLower = w.toList

def float? (s : String) : Option Float :=
  let (negative, cs) := sign (asciiDigits (trimBy isOuterBlank s.toList))
  let size :=
    if isWord "inf" cs || isWord "infinity" cs then some (1.0 / 0.0)
    else if isWord "nan" cs then some (0.0 / 0.0)
    else (scientific? cs).map fun (m, e) => floatOf m e
  size.map fun x => if negative then -x else x

/-- A decimal whose power of ten is too great or too small is not read. -/
def decimal? (s : String) : Option Decimal :=
  let (negative, cs) := sign (asciiDigits ((trimBy isBlank s.toList).filter (· ≠ '_')))
  let nan (signaling : Bool) (payload : List Char) : Option Decimal :=
    if payload.all Char.isDigit then
      some (.nan negative signaling (String.ofList (payload.dropWhile (· == '0'))))
    else none
  let small := cs.map Char.toLower
  if isWord "inf" cs || isWord "infinity" cs then some (.infinite negative)
  else match after? ['n', 'a', 'n'] small, after? ['s', 'n', 'a', 'n'] small with
    | some payload, _ => nan false payload
    | none, some payload => nan true payload
    | none, none =>
      ((scientific? cs).map fun (m, e) => Decimal.finite negative m e).filter Decimal.isKept

end SparqlClient.Numeral
