import SparqlClient.Text.Base64
import SparqlClient.Value.Use
import SparqlClient.Yaml.Cursor
import SparqlClient.Yaml.Kind

/-! The values of scalars. A scalar that was given a kind by its tag may have any text, so reading
is wider than the forms by which a kind shows: it fails where the text has no value of the kind.
Underscores may stand in numbers; parts between colons count in sixties. -/

namespace SparqlClient.Yaml.Scalar

open Numeral (sign)

def fault {α : Type} (kind : Misuse) : Reading α := .error (.scalar kind)

def orBad {α : Type} (read : Option α) : Reading α :=
  match read with
  | some x => .ok x
  | none => fault .badValue

def ofBase? (base : Nat) (mark : Char) (s : List Char) : Option Int :=
  let (negative, s) := sign (Numeral.asciiDigits (Text.trimBy Numeral.isOuterBlank s))
  let digits := match s with
    | '0' :: m :: t => if m.toLower = mark then t else s
    | _ => s
  let number := digits.foldl (fun n c => n.bind fun n =>
    ((Text.hexDigit? c).filter (· < base)).map (n * base + ·)) (some 0)
  (number.filter fun _ => !digits.isEmpty).map fun n => if negative then -(n : Int) else n

def ofTen? (s : List Char) : Option Int := Numeral.int? (String.ofList s)

def sixties (parts : List Int) : Int := parts.foldl (fun n p => n * 60 + p) 0

/-- A sign, and the digits behind it. Digits behind a zero count in eights. -/
def whole (s : List Char) : Reading Int := do
  let (negative, body) := sign (s.filter (· ≠ '_'))
  let size ← match body with
    | [] => fault .outOfRange
    | ['0'] => pure 0
    | '0' :: 'b' :: t => orBad (ofBase? 2 'b' t)
    | '0' :: 'x' :: t => orBad (ofBase? 16 'x' t)
    | '0' :: t => orBad (ofBase? 8 'o' ('0' :: t))
    | t => orBad (((Text.piecesBy (· == ':') t).mapM ofTen?).map sixties)
  return if negative then -size else size

def floating (s : List Char) : Reading Float := do
  let s := (s.filter (· ≠ '_')).map Char.toLower
  if s.isEmpty then fault .outOfRange
  let (negative, body) := sign s
  let size ←
    if body = ['.', 'i', 'n', 'f'] then pure (1.0 / 0.0)
    else if body = ['.', 'n', 'a', 'n'] then pure (0.0 / 0.0)
    else
      let parts ← (Text.piecesBy (· == ':') body).mapM fun t =>
        orBad (Numeral.float? (String.ofList t))
      match parts with
      | [x] => pure x
      | _ => pure (parts.reverse.foldl (fun (v, base) p => (v + p * base, base * 60)) (0.0, 1.0)).1
  return if negative then -size else size

def isDay (d : Date) : Bool :=
  1 ≤ d.year && 1 ≤ d.month && d.month ≤ 12 && 1 ≤ d.day && d.day ≤ Calendar.daysIn d.year d.month

def isTime (t : Clock) : Bool :=
  t.hour < 24 && t.minute < 60 && t.second < 60 && (t.offset.getD 0).natAbs < 86400000000

def ofStamp (s : Kind.Stamp) : Reading Value :=
  match s.clock with
  | none => if isDay s.date then .ok (.date s.date) else fault .badValue
  | some t => if isDay s.date && isTime t then .ok (.moment ⟨s.date, t⟩) else fault .badValue

def octets (s : String) : Reading Value :=
  match (Value.ascii? s).bind fun s => Text.Base64.read? s.toList with
  | none => malformed
  | some bytes => match String.fromUTF8? ⟨(bytes.map Nat.toUInt8).toArray⟩ with
    | some t => .ok (.octets t)
    | none => malformed

def value (kind : Kind) (s : String) : Reading Value :=
  match kind with
  | .text => .ok (.text s)
  | .null => .ok .null
  | .truth => match Kind.truth? (Text.lower s) with
    | some b => .ok (.bool b)
    | none => fault .missingKey
  | .whole => (whole s.toList).map .int
  | .floating => (floating s.toList).map .float
  | .moment => match Kind.stamp? (Kind.line s.toList) with
    | some t => ofStamp t
    | none => fault .noMember
  | .octets => octets s
  | _ => malformed

end SparqlClient.Yaml.Scalar
