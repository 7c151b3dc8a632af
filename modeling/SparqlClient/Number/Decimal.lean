/-! Decimal numbers as they are written: a sign, the digits and a power of ten, so that `1.50`
and `1.5` stay apart; the two infinities; and values that are no number. They are ordered by
value, and what is no number has no place in the order. -/

namespace SparqlClient

def natText (n : Nat) : String := String.ofList (Nat.toDigits 10 n)

def intText (n : Int) : String := if n < 0 then "-" ++ natText n.natAbs else natText n.natAbs

inductive Decimal
  | finite (negative : Bool) (digits : Nat) (exponent : Int)
  | infinite (negative : Bool)
  | nan (negative signaling : Bool) (payload : String)
  deriving DecidableEq

namespace Decimal

def signText (negative : Bool) : String := if negative then "-" else ""

def pointed (digits : String) (place : Int) : String :=
  let n : Int := digits.toList.length
  if place ≤ 0 then
    "0." ++ String.ofList (List.replicate (-place).toNat '0') ++ digits
  else if n ≤ place then
    digits ++ String.ofList (List.replicate (place - n).toNat '0')
  else
    String.ofList (digits.toList.take place.toNat) ++ "." ++
      String.ofList (digits.toList.drop place.toNat)

def specialText : Decimal → String
  | .infinite negative => signText negative ++ "Infinity"
  | .nan negative signaling payload =>
    signText negative ++ (if signaling then "sNaN" else "NaN") ++ payload
  | .finite .. => ""

/-- Positional for exponents from nought down to six places after the point, with one digit
before the point and a signed exponent otherwise. -/
def text : Decimal → String
  | .finite negative digits exponent =>
    let ds := natText digits
    let left := exponent + ds.toList.length
    if exponent ≤ 0 && -6 < left then signText negative ++ pointed ds left
    else
      let scale := left - 1
      signText negative ++ pointed ds 1 ++ "E" ++ (if scale < 0 then "" else "+") ++ intText scale
  | d => d.specialText

def plainText : Decimal → String
  | .finite negative digits exponent =>
    if digits = 0 && 0 < exponent then signText negative ++ "0"
    else
      let ds := natText digits
      signText negative ++ pointed ds (exponent + ds.toList.length)
  | d => d.specialText

def isZero : Decimal → Bool
  | .finite _ digits _ => digits = 0
  | _ => false

def truncate? : Decimal → Option Int
  | .finite negative digits exponent =>
    let size :=
      if 0 ≤ exponent then digits * Nat.pow 10 exponent.toNat
      else if (natText digits).toList.length ≤ (-exponent).toNat then 0
      else digits / Nat.pow 10 (-exponent).toNat
    some (if negative then -size else size)
  | _ => none

def isNegative : Decimal → Bool
  | .finite negative digits _ => negative && digits ≠ 0
  | .infinite negative => negative
  | .nan .. => false

def digitCount (n : Nat) : Nat := (Nat.toDigits 10 n).length

/-- Whether the power of ten can be kept: it has eighteen digits and leaves room for as many
places behind the point. -/
def isKept : Decimal → Bool
  | .finite _ digits exponent =>
    -1999999999999999997 ≤ exponent && exponent + digitCount digits ≤ 1000000000000000000
  | _ => true

def ofInt (n : Int) : Decimal := .finite (n < 0) n.natAbs 0

def compareSize (a : Nat) (ea : Int) (b : Nat) (eb : Int) : Ordering :=
  let (sa, sb) := (ea + digitCount a, eb + digitCount b)
  if sa ≠ sb then compare sa sb
  else
    let e := min ea eb
    compare (a * Nat.pow 10 (ea - e).toNat) (b * Nat.pow 10 (eb - e).toNat)

/-- Below all numbers, below zero, zero, above zero, above all numbers. -/
def level? : Decimal → Option Int
  | .infinite negative => some (if negative then -2 else 2)
  | .finite negative digits _ => some (if digits = 0 then 0 else if negative then -1 else 1)
  | .nan .. => none

def order? (a b : Decimal) : Option Ordering := do
  let (la, lb) := (← a.level?, ← b.level?)
  if la ≠ lb then return compare la lb
  else match a, b with
    | .finite negative m ea, .finite _ n eb =>
      if m = 0 then return .eq
      else return if negative then compareSize n eb m ea else compareSize m ea n eb
    | _, _ => return .eq

end Decimal

end SparqlClient
