import SparqlClient.Number.Shortest

/-! Floating-point numbers rounded to a fixed count of significant digits. The exact binary value
is rounded to the nearest decimal, a half to the even neighbour, and zeros at the end are left
out. -/

namespace SparqlClient.Shortest

def Ratio.nearest (v : Ratio) : Nat :=
  let below := v.num / v.den
  let twice := 2 * (v.num % v.den)
  if twice < v.den then below
  else if v.den < twice then below + 1
  else if below % 2 = 0 then below else below + 1

def roundTo (places : Nat) (v : Ratio) : Digits :=
  let e := magnitude v - ((places : Int) - 1)
  let step := scaled 10 1 e
  ⟨(⟨v.num * step.den, v.den * step.num⟩ : Ratio).nearest, e⟩

def Layout.rounded (l : Layout) (places : Nat) (x : Float) : String :=
  let b := bitsOf x
  if b.biased = 2047 then
    if b.fraction = 0 then Decimal.signText b.negative ++ l.infinity else l.nan
  else if b.biased = 0 && b.fraction = 0 then l.render b.negative ⟨0, 0⟩
  else
    let m := if b.biased = 0 then b.fraction else Nat.pow 2 52 + b.fraction
    let q : Int := (if b.biased = 0 then 1 else b.biased : Nat) - 1075
    l.render b.negative (stripZeros (roundTo places (scaled 2 m q)) (places + 1))

/-- Positional from four zeros behind the point to six digits before it. -/
def generalLayout : Layout where
  leastPlace := -3
  greatestPlace := 6
  exponentWidth := 2
  wholeMark := ""
  nan := "nan"
  infinity := "inf"

def general (x : Float) : String := generalLayout.rounded 6 x

theorem nearest_whole (n : Nat) : (⟨n, 1⟩ : Ratio).nearest = n := by
  simp [Ratio.nearest, Nat.mod_one]

end SparqlClient.Shortest
