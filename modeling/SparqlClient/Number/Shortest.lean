import SparqlClient.Number.Decimal

/-! The shortest decimal text of a binary floating-point number. A finite number is `m · 2^q`;
the decimals that round to it fill an interval around it, ends included if `m` is even. The
digits are those of the coarsest decimal grid that meets the interval, and on that grid the
point nearest to the number. -/

namespace SparqlClient.Shortest

structure Ratio where
  num : Nat
  den : Nat

def scaled (b n : Nat) (e : Int) : Ratio :=
  if 0 ≤ e then ⟨n * Nat.pow b e.toNat, 1⟩ else ⟨n, Nat.pow b (-e).toNat⟩

def Ratio.le (a b : Ratio) : Bool := a.num * b.den ≤ b.num * a.den

def Ratio.lt (a b : Ratio) : Bool := a.num * b.den < b.num * a.den

structure Interval where
  low : Ratio
  high : Ratio
  closed : Bool

def Interval.has (i : Interval) (x : Ratio) : Bool :=
  if i.closed then i.low.le x && x.le i.high else i.low.lt x && x.lt i.high

/-- `narrow` says that the number below is only half as far away as the one above. -/
def interval (m : Nat) (q : Int) (narrow : Bool) : Interval where
  low := if narrow then scaled 2 (4 * m - 1) (q - 2) else scaled 2 (2 * m - 1) (q - 1)
  high := scaled 2 (2 * m + 1) (q - 1)
  closed := m % 2 = 0

open Decimal (digitCount)

def magnitude (v : Ratio) : Int :=
  let e : Int := (digitCount v.num : Int) - digitCount v.den
  if (scaled 10 1 e).le v then e else e - 1

structure Digits where
  digits : Nat
  exponent : Int

/-- The neighbours of `v` on the grid of `10^e` that lie in the interval, the nearer first; of
two at one distance the even one. -/
def onGrid (i : Interval) (v : Ratio) (e : Int) : Option Nat :=
  let step := scaled 10 1 e
  let below := (v.num * step.den) / (v.den * step.num)
  let point (n : Nat) : Ratio := ⟨n * step.num, step.den⟩
  let hits := [below, below + 1].filter fun n => 0 < n && i.has (point n)
  match hits with
  | [a, b] =>
    -- twice the distance from `a` in grid steps, against one step
    let twice := 2 * (v.num * step.den - a * (v.den * step.num))
    let one := v.den * step.num
    some (if twice < one then a else if one < twice then b else if a % 2 = 0 then a else b)
  | [a] => some a
  | _ => none

def search (i : Interval) (v : Ratio) (top : Int) : (places : Nat) → (fuel : Nat) → Digits
  | _, 0 => ⟨0, 0⟩
  | places, fuel + 1 =>
    let e := top - places
    match onGrid i v e with
    | some n => ⟨n, e⟩
    | none => search i v top (places + 1) fuel

/-- Seventeen digits always suffice for a number of 64 bits. -/
def digits (m : Nat) (q : Int) (narrow : Bool) : Digits :=
  let v := scaled 2 m q
  search (interval m q narrow) v (magnitude v) 0 18

def stripZeros (d : Digits) : (fuel : Nat) → Digits
  | 0 => d
  | fuel + 1 =>
    if d.digits ≠ 0 && d.digits % 10 = 0 then stripZeros ⟨d.digits / 10, d.exponent + 1⟩ fuel else d

structure Layout where
  leastPlace : Int
  greatestPlace : Int
  exponentWidth : Nat
  wholeMark : String
  nan : String
  infinity : String

def Layout.render (l : Layout) (negative : Bool) (d : Digits) : String :=
  let ds := natText d.digits
  let place := d.exponent + ds.toList.length
  let body :=
    if l.leastPlace ≤ place && place ≤ l.greatestPlace then
      let t := Decimal.pointed ds place
      if ds.toList.length ≤ place then t ++ l.wholeMark else t
    else
      let e := place - 1
      let es := (natText e.natAbs).toList
      let pad := List.replicate (l.exponentWidth - es.length) '0'
      (if ds.toList.length ≤ 1 then ds else Decimal.pointed ds 1) ++
        (if e < 0 then "e-" else "e+") ++ String.ofList (pad ++ es)
  Decimal.signText negative ++ body

structure Bits where
  negative : Bool
  biased : Nat
  fraction : Nat

def bitsOf (x : Float) : Bits :=
  let b := x.toBits.toNat
  ⟨b / Nat.pow 2 63 % 2 = 1, b / Nat.pow 2 52 % 2048, b % Nat.pow 2 52⟩

def Layout.float (l : Layout) (x : Float) : String :=
  let b := bitsOf x
  if b.biased = 2047 then
    if b.fraction = 0 then Decimal.signText b.negative ++ l.infinity else l.nan
  else if b.biased = 0 && b.fraction = 0 then l.render b.negative ⟨0, 0⟩
  else
    let m := if b.biased = 0 then b.fraction else Nat.pow 2 52 + b.fraction
    let q : Int := (if b.biased = 0 then 1 else b.biased : Nat) - 1075
    l.render b.negative (stripZeros (digits m q (b.fraction = 0 && 1 < b.biased)) 20)

end SparqlClient.Shortest
