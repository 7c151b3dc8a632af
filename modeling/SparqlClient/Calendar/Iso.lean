import SparqlClient.Calendar

/-! Reading the ISO 8601 forms. A date is a year with month and day, or with a week and a day of
the week, with hyphens or without. A time is up to three groups of two digits, with colons or
without, a fraction behind the last group, and an offset. -/

namespace SparqlClient.Calendar

def yearLength (year : Nat) : Nat := if isLeap year then 366 else 365

def dayFrom (year : Nat) : (fuel month distance : Nat) → Date
  | 0, month, distance => ⟨year, month, distance + 1⟩
  | fuel + 1, month, distance =>
    if distance < daysIn year month then ⟨year, month, distance + 1⟩
    else dayFrom year fuel (month + 1) (distance - daysIn year month)

def newYearWeekday (year : Nat) : Nat :=
  let before := year - 1
  (before * 365 + before / 4 - before / 100 + before / 400) % 7

def weeks (year : Nat) : Nat :=
  let first := newYearWeekday year
  if first = 3 || (first = 2 && isLeap year) then 53 else 52

/-- A day by its week and its weekday; the first week holds the fourth of January. -/
def ofWeek? (year week weekday : Nat) : Option Date := do
  guard (1 ≤ year && 1 ≤ week && week ≤ weeks year && 1 ≤ weekday && weekday ≤ 7)
  let first := newYearWeekday year
  let days := (week - 1) * 7 + (weekday - 1) + (if first ≤ 3 then 0 else 7)
  if days < first then
    return dayFrom (year - 1) 11 1 (yearLength (year - 1) + days - first)
  else
    let distance := days - first
    if distance < yearLength year then return dayFrom year 11 1 distance
    else
      guard (year < 9999)
      return dayFrom (year + 1) 11 1 (distance - yearLength year)

def markIf (needed : Bool) (c : Char) (s : List Char) : Option (List Char) :=
  if needed then mark? c s else some s

def weekDate? (year : Nat) (hyphens : Bool) (s : List Char) : Option (Date × List Char) := do
  let (week, s) ← field? 2 s
  let (weekday, s) ← if s.isEmpty then some (1, []) else (markIf hyphens '-' s).bind (field? 1)
  return (← ofWeek? year week weekday, s)

def monthDate? (year : Nat) (hyphens : Bool) (s : List Char) : Option (Date × List Char) := do
  let (month, s) ← field? 2 s
  let s ← markIf hyphens '-' s
  let (day, s) ← field? 2 s
  guard (1 ≤ year && 1 ≤ month && month ≤ 12 && 1 ≤ day && day ≤ daysIn year month)
  return (⟨year, month, day⟩, s)

def date? (s : List Char) : Option (Date × List Char) := do
  let (year, s) ← field? 4 s
  let hyphens := s.head? = some '-'
  let s := if hyphens then s.drop 1 else s
  match s with
  | 'W' :: s => weekDate? year hyphens s
  | s => monthDate? year hyphens s

def dateLength (s : List Char) : Nat :=
  if s.length = 7 then 7
  else match s.drop 4 with
    | '-' :: 'W' :: _ :: _ :: '-' :: _ :: c :: _ => if c.isDigit then 8 else 10
    | '-' :: 'W' :: _ :: _ :: '-' :: _ => 10
    | '-' :: 'W' :: _ => 8
    | '-' :: _ => 10
    | 'W' :: _ =>
      let digits := ((s.drop 7).takeWhile Char.isDigit).length
      if digits < 2 then 7 + digits else if digits % 2 = 1 then 7 else 8
    | _ => 8

/-- A fraction of a second in millionths; further digits do not count. Before an offset other
characters do not count either. -/
def fraction? (zoned : Bool) (s : List Char) : Option Nat :=
  let six := s.take 6
  if six.all Char.isDigit && (zoned || s.all Char.isDigit) then
    some ((Numeral.run ((six ++ List.replicate 6 '0').take 6)).value)
  else none

/-- The groups that are left of a time, and its fraction. Before an offset a single character may
stand behind the last group. -/
def groups? (zoned colons : Bool) : (left : Nat) → List Char → Option (List Nat × Nat)
  | 0, s => (fraction? zoned s).map ([], ·)
  | left + 1, s => do
    let (n, s) ← field? 2 s
    match s with
    | [] => return ([n], 0)
    | [_] => if zoned then return ([n], 0) else none
    | c :: t =>
      if c = '.' || c = ',' then (fraction? zoned t).map ([n], ·)
      else
        let rest ← if !colons then some (c :: t) else if c = ':' then some t else none
        let (more, fraction) ← groups? zoned colons left rest
        return (n :: more, fraction)

structure Reading where
  hour : Nat
  minute : Nat
  second : Nat
  micro : Nat

def reading? (zoned : Bool) (s : List Char) : Option Reading := do
  let (groups, fraction) ← groups? zoned ((s.drop 2).head? = some ':') 3 s
  return ⟨groups.getD 0 0, groups.getD 1 0, groups.getD 2 0, fraction⟩

def isZoneMark (c : Char) : Bool := c = '+' || c = '-' || c = 'Z'

def offset? : List Char → Option (Option Int)
  | [] => some none
  | ['Z'] => some (some 0)
  | c :: s => do
    guard (c = '+' || c = '-')
    let r ← reading? false s
    let seconds := r.hour * 3600 + r.minute * 60 + r.second
    guard (seconds < 86400)
    let size := if seconds = 0 then 0 else seconds * 1000000 + r.micro
    return some (if c = '-' then -(size : Int) else size)

def clock? (s : List Char) : Option Clock := do
  let zone := s.dropWhile (!isZoneMark ·)
  let offset ← offset? zone
  let r ← reading? (!zone.isEmpty) (s.takeWhile (!isZoneMark ·))
  guard (r.hour < 24 && r.minute < 60 && r.second < 60)
  return ⟨r.hour, r.minute, r.second, r.micro, offset⟩

end Calendar

def Date.ofIso? (s : String) : Option Date := do
  let cs := s.toList
  guard ([7, 8, 10].contains cs.length)
  return (← Calendar.date? cs).1

def Clock.ofIso? (s : String) : Option Clock :=
  match s.toList with
  | 'T' :: t => Calendar.clock? t
  | t => Calendar.clock? t

def Moment.ofIso? (s : String) : Option Moment := do
  let cs := s.toList
  guard (7 ≤ cs.length)
  let n := Calendar.dateLength cs
  let (date, _) ← Calendar.date? (cs.take n)
  match cs.drop n with
  | [] => return ⟨date, ⟨0, 0, 0, 0, none⟩⟩
  | _ :: rest => return ⟨date, ← Calendar.clock? rest⟩

end SparqlClient
