import SparqlClient.Calendar.Iso
import SparqlClient.Value.Use

/-! Durations: a count of years and months beside a time in millionths of a second. In normal
form twelve months are a year, and the time is in days, hours, minutes and seconds. -/

namespace SparqlClient

/-- A number that is not negative, in units of a power of ten. -/
structure Amount where
  units : Nat
  places : Nat

namespace Amount

def ofText (s : List Char) : Amount :=
  let (whole, part) := (Text.cutAt (· == '.') s).getD (s, [])
  ⟨(Numeral.run (whole ++ part)).value, part.length⟩

def unit (a : Amount) : Nat := Nat.pow 10 a.places

def text (a : Amount) : String := (Decimal.finite false a.units (-(a.places : Int))).text

def inMonths (years months : Amount) : Amount :=
  let places := max years.places months.places
  ⟨years.units * 12 * Nat.pow 10 (places - years.places) +
    months.units * Nat.pow 10 (places - months.places), places⟩

end Amount

structure Duration where
  negative : Bool
  years : Amount
  months : Amount
  millionths : Nat

namespace Duration

def part (count : Nat) (mark : Char) : List Char :=
  if count = 0 then [] else (natText count).toList ++ [mark]

def secondsPart (seconds micro : Nat) : List Char :=
  if micro = 0 then part seconds 'S'
  else (natText seconds).toList ++ '.' ::
    Text.dropEndWhile (· == '0') (Calendar.padded 6 micro).toList ++ ['S']

def calendarPart (d : Duration) : List Char :=
  let total := Amount.inMonths d.years d.months
  let rest : Amount := ⟨total.units % (12 * total.unit), total.places⟩
  part (total.units / (12 * total.unit)) 'Y' ++
    (if d.months.units % (12 * d.months.unit) = 0 then [] else rest.text.toList ++ ['M'])

def timePart (d : Duration) : List Char :=
  let seconds := d.millionths / 1000000
  let time := part (seconds / 3600 % 24) 'H' ++ part (seconds / 60 % 60) 'M' ++
    secondsPart (seconds % 60) (d.millionths % 1000000)
  part (seconds / 86400) 'D' ++ (if time.isEmpty then [] else 'T' :: time)

def iso (d : Duration) : String :=
  match d.calendarPart ++ d.timePart with
  | [] => "P0D"
  | body => (if d.negative then "-P" else "P") ++ String.ofList body

def amount (mark : Char) (s : List Char) : List Char × List Char :=
  let whole := s.takeWhile Char.isDigit
  let rest := s.drop whole.length
  let (number, rest) := match rest with
    | c :: t =>
      let places := t.takeWhile Char.isDigit
      if (c = '.' || c = ',') && !places.isEmpty then (whole ++ '.' :: places, t.drop places.length)
      else (whole, rest)
    | [] => (whole, [])
  match rest with
  | c :: t => if c = mark && !whole.isEmpty then (number, t) else (['0'], s)
  | [] => (['0'], s)

structure Sum where
  whole : Int
  left : Float

/-- Adds so many times a unit. The fraction is multiplied apart from the whole. -/
def Sum.add (s : Sum) (unit : Nat) (number : List Char) : Option Sum := do
  let x ← Numeral.float? (String.ofList number)
  let count ← Value.floatWhole? x
  let fine := Numeral.floatOf unit 0 * (x - x.floor)
  return ⟨s.whole + count * unit + (Value.floatWhole? fine).getD 0, s.left + (fine - fine.floor)⟩

def Sum.nearest (s : Sum) : Int :=
  let n := s.whole + (Value.floatWhole? s.left).getD 0
  let part := s.left - s.left.floor
  if 0.5 < part || (part == 0.5 && n % 2 = 1) then n + 1 else n

/-- A time has fewer than a thousand million days, a negative one no part of a day beyond them. -/
def isInRange (negative : Bool) (millionths : Int) : Bool :=
  if negative then millionths ≤ 86400000000 * 999999999 else millionths < 86400000000 * 1000000000

def ofAmounts? (negative : Bool) (s : List Char) : Option Duration := do
  let (years, s) := amount 'Y' s
  let (months, s) := amount 'M' s
  let (weeks, s) := amount 'W' s
  let (days, s) := amount 'D' s
  let ((hours, minutes, seconds), s) := match s with
    | 'T' :: s =>
      let (hours, s) := amount 'H' s
      let (minutes, s) := amount 'M' s
      let (seconds, s) := amount 'S' s
      ((hours, minutes, seconds), s)
    | s => ((['0'], ['0'], ['0']), s)
  guard s.isEmpty
  let sum ← (⟨0, 0.0⟩ : Sum).add 1000000 seconds
  let sum ← sum.add 60000000 minutes
  let sum ← sum.add 3600000000 hours
  let sum ← sum.add 86400000000 days
  let sum ← sum.add 604800000000 weeks
  guard (isInRange negative sum.nearest)
  return ⟨negative, .ofText years, .ofText months, sum.nearest.toNat⟩

def ofMoment (m : Moment) : Duration :=
  let t := m.clock
  ⟨false, ⟨m.date.year, 0⟩, ⟨m.date.month, 0⟩,
    (((m.date.day * 24 + t.hour) * 60 + t.minute) * 60 + t.second) * 1000000 + t.micro⟩

def withoutSign : List Char → Bool × List Char
  | '-' :: s => (true, s)
  | '+' :: s => (false, s)
  | s => (false, s)

def ofIso? (s : String) : Option Duration :=
  let cs := if s.toList.getLast? = some '\n' then s.toList.dropLast else s.toList
  let (negative, body) := withoutSign cs
  let amounts := match body with
    | 'P' :: c :: t => ofAmounts? negative (c :: t)
    | _ => none
  amounts <|> match s.toList with
    | 'P' :: t => (Moment.ofIso? (String.ofList t)).map ofMoment
    | _ => none

end Duration

end SparqlClient
