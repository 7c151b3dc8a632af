import SparqlClient.Calendar

/-! The kinds of the parts of a YAML document. A part is of the kind that its tag names; a scalar
without quotes and without a tag shows its kind by its form. Truth values, whole and floating
numbers, moments and nothing each have their forms, two marks have a meaning only as keys, and every
other scalar is a text. -/

namespace SparqlClient.Yaml

inductive Kind
  | text | null | truth | whole | floating | moment | octets
  | merge | standing
  | sequence | mapping | set | ordered | pairs
  | unknown
  deriving DecidableEq

namespace Kind

def names : List (String × Kind) := [
  ("str", .text), ("null", .null), ("bool", .truth), ("int", .whole), ("float", .floating),
  ("timestamp", .moment), ("binary", .octets), ("merge", .merge), ("value", .standing),
  ("seq", .sequence), ("map", .mapping), ("set", .set), ("omap", .ordered), ("pairs", .pairs)]

def standard : String := "tag:yaml.org,2002:"

def ofTag (tag : String) : Kind := ((Text.dropStart? tag standard).bind fun name => names.lookup name).getD .unknown

theorem ofTag_text : ofTag (standard ++ "str") = .text := by
  simp [ofTag, names, standard, Text.dropStart?, Text.after?]

open Numeral (sign)

def truth? (s : String) : Option Bool :=
  if ["yes", "true", "on"].contains s then some true
  else if ["no", "false", "off"].contains s then some false
  else none

def isCased : List Char → Bool
  | [] => true
  | c :: rest => rest.all Char.isLower && c.isAlpha || (c :: rest).all Char.isUpper

def isTruth (s : List Char) : Bool :=
  isCased s && (truth? (String.ofList (s.map Char.toLower))).isSome

def isNothing (s : List Char) : Bool :=
  ["", "~", "null", "Null", "NULL"].contains (String.ofList s)

def isDigitOr (c : Char) : Bool := c.isDigit || c = '_'

def isOctalOr (c : Char) : Bool := ('0' ≤ c && c ≤ '7') || c = '_'

def isHexOr (c : Char) : Bool :=
  c.isDigit || ('a' ≤ c.toLower && c.toLower ≤ 'f') || c = '_'

def isSixtieth : List Char → Bool
  | [a] => a.isDigit
  | [a, b] => '0' ≤ a && a ≤ '5' && b.isDigit
  | _ => false

def startsDigit (s : List Char) : Bool := s.head?.any Char.isDigit

def isWhole (s : List Char) : Bool :=
  match (sign s).2 with
  | ['0'] => true
  | '0' :: 'b' :: t => !t.isEmpty && t.all fun c => c = '0' || c = '1' || c = '_'
  | '0' :: 'x' :: t => !t.isEmpty && t.all isHexOr
  | '0' :: t => t.all isOctalOr
  | c :: t =>
    c.isDigit && match Text.piecesBy (· == ':') t with
      | lead :: parts => lead.all isDigitOr && parts.all isSixtieth
      | [] => false
  | [] => false

def isExponent : List Char → Bool
  | [] => true
  | e :: s :: t => (e = 'e' || e = 'E') && (s = '+' || s = '-') && !t.isEmpty && t.all Char.isDigit
  | _ => false

def isFraction (s : List Char) : Bool := isExponent (s.dropWhile isDigitOr)

def isFloating (s : List Char) : Bool :=
  let body := (sign s).2
  match Text.cutAt (· == '.') body with
  | none => false
  | some ([], t) =>
    (body.length = s.length && startsDigit t && isFraction t) ||
      ["inf", "Inf", "INF"].contains (String.ofList t) ||
      (body.length = s.length && ["nan", "NaN", "NAN"].contains (String.ofList t))
  | some (front, t) =>
    startsDigit front && match Text.piecesBy (· == ':') front with
      | [lead] => lead.all isDigitOr && isFraction t
      | lead :: parts => lead.all isDigitOr && parts.all isSixtieth && t.all isDigitOr
      | [] => false

structure Stamp where
  date : Date
  clock : Option Clock

def field? (s : List Char) : Option (Nat × List Char) :=
  (Calendar.field? 2 s).or (Calendar.field? 1 s)

def isSpacing (c : Char) : Bool := c = ' ' || c = '\t'

def zone? (s : List Char) : Option (Option Int) :=
  match s.dropWhile isSpacing with
  | [] => if s.isEmpty then some none else none
  | ['Z'] => some (some 0)
  | c :: t => do
    guard (c = '+' || c = '-')
    let (hour, t) ← field? t
    let minute ← match t with
      | [] => some 0
      | ':' :: t => match Calendar.field? 2 t with
        | some (n, []) => some n
        | _ => none
      | _ => none
    let size : Int := (hour * 3600 + minute * 60) * 1000000
    return some (if c = '-' then -size else size)

def clock? (s : List Char) : Option Clock := do
  let (hour, s) ← field? s
  let s ← Calendar.mark? ':' s
  let (minute, s) ← Calendar.field? 2 s
  let s ← Calendar.mark? ':' s
  let (second, s) ← Calendar.field? 2 s
  let (millionths, s) := match s with
    | '.' :: t => (((Calendar.micro t).map Prod.fst).getD 0, t.dropWhile Char.isDigit)
    | s => (0, s)
  return ⟨hour, minute, second, millionths, ← zone? s⟩

def stamp? (s : List Char) : Option Stamp := do
  let (year, s) ← Calendar.field? 4 s
  let s ← Calendar.mark? '-' s
  let (month, s) ← field? s
  let s ← Calendar.mark? '-' s
  let (day, s) ← field? s
  match s with
  | [] => return ⟨⟨year, month, day⟩, none⟩
  | c :: t =>
    guard (c = 'T' || c = 't' || isSpacing c)
    let t := if isSpacing c then t.dropWhile isSpacing else t
    return ⟨⟨year, month, day⟩, some (← clock? t)⟩

/-- A day that stands alone has all its digits. -/
def isMoment (s : List Char) : Bool :=
  (stamp? s).any fun t => t.clock.isSome || s.length = 10

def line (s : List Char) : List Char :=
  match s.reverse with
  | '\n' :: c :: t => (c :: t).reverse
  | _ => s

def shown (text : String) : Kind :=
  let s := line text.toList
  if isTruth s then .truth
  else if isFloating s then .floating
  else if isWhole s then .whole
  else if s = ['<', '<'] then .merge
  else if isNothing s then .null
  else if isMoment s then .moment
  else if s = ['='] then .standing
  else .text

end Kind

end SparqlClient.Yaml
