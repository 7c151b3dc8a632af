import SparqlClient.Number.Numeral
import SparqlClient.Text.Pieces

/-! Dates, times of day and moments, with an optional distance from universal time in millionths
of a second. They are written in the ISO 8601 form; a moment is also written with a space between its
halves. -/

namespace SparqlClient

structure Date where
  year : Nat
  month : Nat
  day : Nat
  deriving DecidableEq

structure Clock where
  hour : Nat
  minute : Nat
  second : Nat
  micro : Nat
  offset : Option Int
  deriving DecidableEq

structure Moment where
  date : Date
  clock : Clock
  deriving DecidableEq

namespace Calendar

def padded (width n : Nat) : String :=
  let ds := (natText n).toList
  String.ofList (List.replicate (width - ds.length) '0' ++ ds)

end Calendar

open Calendar

def Date.iso (d : Date) : String :=
  padded 4 d.year ++ "-" ++ padded 2 d.month ++ "-" ++ padded 2 d.day

namespace Clock

def offsetText : Option Int → String
  | none => ""
  | some o =>
    let (n, micro) := (o.natAbs / 1000000, o.natAbs % 1000000)
    (if o < 0 then "-" else "+") ++ padded 2 (n / 3600) ++ ":" ++ padded 2 (n / 60 % 60) ++
      (if n % 60 = 0 && micro = 0 then "" else ":" ++ padded 2 (n % 60)) ++
      (if micro = 0 then "" else "." ++ padded 6 micro)

def iso (t : Clock) : String :=
  padded 2 t.hour ++ ":" ++ padded 2 t.minute ++ ":" ++ padded 2 t.second ++
    (if t.micro = 0 then "" else "." ++ padded 6 t.micro) ++ offsetText t.offset

def fields (t : Clock) : List Nat :=
  [t.hour, t.minute] ++
    (if t.micro ≠ 0 then [t.second, t.micro] else if t.second ≠ 0 then [t.second] else [])

def zoneDisplay : Option Int → String
  | none => ""
  | some 0 => ", tzinfo=datetime.timezone.utc"
  | some o =>
    let part (name : String) (n : Int) := if n = 0 then [] else [name ++ "=" ++ intText n]
    let seconds := Int.fdiv o 1000000
    ", tzinfo=datetime.timezone(datetime.timedelta(" ++ String.intercalate ", "
      (part "days" (Int.fdiv seconds 86400) ++ part "seconds" (Int.fmod seconds 86400) ++
        part "microseconds" (Int.fmod o 1000000)) ++ "))"

def display (t : Clock) : String :=
  "datetime.time(" ++ String.intercalate ", " (t.fields.map natText) ++ zoneDisplay t.offset ++ ")"

end Clock

def Date.display (d : Date) : String :=
  "datetime.date(" ++ String.intercalate ", " ([d.year, d.month, d.day].map natText) ++ ")"

namespace Moment

def iso (m : Moment) : String := m.date.iso ++ "T" ++ m.clock.iso

def spaced (m : Moment) : String := m.date.iso ++ " " ++ m.clock.iso

def display (m : Moment) : String :=
  "datetime.datetime(" ++
    String.intercalate ", " (([m.date.year, m.date.month, m.date.day] ++ m.clock.fields).map natText) ++
    Clock.zoneDisplay m.clock.offset ++ ")"

end Moment

namespace Calendar

def isLeap (year : Nat) : Bool := year % 4 = 0 && (year % 100 ≠ 0 || year % 400 = 0)

def daysIn (year month : Nat) : Nat :=
  match month with
  | 2 => if isLeap year then 29 else 28
  | 4 | 6 | 9 | 11 => 30
  | _ => 31

def field? (width : Nat) (s : List Char) : Option (Nat × List Char) :=
  let ds := s.take width
  if ds.length = width && ds.all Char.isDigit then some ((Numeral.run ds).value, s.drop width)
  else none

def mark? (c : Char) : List Char → Option (List Char)
  | x :: s => if x = c then some s else none
  | [] => none

def micro (s : List Char) : Option (Nat × List Char) :=
  let ds := s.takeWhile Char.isDigit
  let six := (ds ++ List.replicate 6 '0').take 6
  if ds.isEmpty then none else some ((Numeral.run six).value, s.drop ds.length)

def dayNumber (d : Date) : Nat :=
  let before := d.year - 1
  before * 365 + before / 4 - before / 100 + before / 400 + d.day +
    (List.range (d.month - 1)).foldl (fun n m => n + daysIn d.year (m + 1)) 0

end Calendar

/-- Millionths of a second since midnight, in universal time if the distance is known. -/
def Clock.millionths (t : Clock) : Int :=
  ((t.hour * 60 + t.minute) * 60 + t.second) * 1000000 + t.micro - t.offset.getD 0

/-- A time with a distance from universal time is never the same as one without. -/
def Clock.same (t u : Clock) : Bool :=
  t.offset.isSome == u.offset.isSome && t.millionths == u.millionths

def Moment.millionths (m : Moment) : Int :=
  dayNumber m.date * 86400000000 + m.clock.millionths

def Moment.same (m n : Moment) : Bool :=
  m.clock.offset.isSome == n.clock.offset.isSome && m.millionths == n.millionths

end SparqlClient
