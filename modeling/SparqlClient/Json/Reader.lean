import SparqlClient.Text.Quoted
import SparqlClient.Value.Use

/-! Reading JSON. Objects keep the order of their keys, and a repeated key keeps its first place
and takes the last value. Whole numbers are exact; a fraction or an exponent makes a floating
number. The names for infinities and for a missing number are accepted. Every reader returns what
is left of the text. -/

namespace SparqlClient.Json

open Text

def isGap (c : Char) : Bool := c = ' ' || c = '\t' || c = '\n' || c = '\r'

def skip (s : List Char) : List Char := s.dropWhile isGap

def unit? : List Char → Option (Nat × List Char)
  | a :: b :: c :: d :: s => do
    return (← hexNumber? [a, b, c, d], s)
  | _ => none

/-- A character given by its number; two halves of a pair make one character. -/
def numbered? (s : List Char) : Option (Char × List Char) := do
  let (n, rest) ← unit? s
  match rest with
  | '\\' :: 'u' :: t =>
    if 0xD800 ≤ n && n < 0xDC00 then
      match unit? t with
      | some (m, t) =>
        if 0xDC00 ≤ m && m < 0xE000 then
          return (Char.ofNat (0x10000 + (n - 0xD800) * 0x400 + (m - 0xDC00)), t)
        else return (Char.ofNat 0xFFFD, rest)
      | none => return (Char.ofNat 0xFFFD, rest)
    else return (if 0xDC00 ≤ n && n < 0xE000 then Char.ofNat 0xFFFD else Char.ofNat n, rest)
  | _ => return (if 0xD800 ≤ n && n < 0xE000 then Char.ofNat 0xFFFD else Char.ofNat n, rest)

def namedEscape? : Char → Option Char
  | '"' => some '"'
  | '\\' => some '\\'
  | '/' => some '/'
  | 'b' => some '\x08'
  | 'f' => some '\x0c'
  | 'n' => some '\n'
  | 'r' => some '\r'
  | 't' => some '\t'
  | _ => none

def string? : (fuel : Nat) → List Char → Option (List Char × List Char)
  | 0, _ => none
  | _ + 1, [] => none
  | _ + 1, '"' :: s => some ([], s)
  | fuel + 1, '\\' :: 'u' :: s => do
    let (c, rest) ← numbered? s
    let (cs, rest) ← string? fuel rest
    return (c :: cs, rest)
  | fuel + 1, '\\' :: e :: s => do
    let c ← namedEscape? e
    let (cs, rest) ← string? fuel s
    return (c :: cs, rest)
  | fuel + 1, c :: s => do
    guard (32 ≤ c.toNat && c ≠ '\\')
    let (cs, rest) ← string? fuel s
    return (c :: cs, rest)

def digits (s : List Char) : List Char × List Char := (s.takeWhile Char.isDigit, s.dropWhile Char.isDigit)

def whole? (s : List Char) : Option (List Char × List Char) :=
  match s with
  | '0' :: rest => some (['0'], rest)
  | c :: _ => if c.isDigit then some (digits s) else none
  | [] => none

def fraction? (s : List Char) : Option (List Char × List Char) :=
  match s with
  | '.' :: t => let (ds, rest) := digits t; if ds.isEmpty then none else some ('.' :: ds, rest)
  | _ => none

def exponent? (s : List Char) : Option (List Char × List Char) :=
  match s with
  | e :: t =>
    if e = 'e' || e = 'E' then
      let (mark, t) := match t with
        | '-' :: u => (['-'], u)
        | '+' :: u => ([], u)
        | u => ([], u)
      let (ds, rest) := digits t
      if ds.isEmpty then none else some ('e' :: mark ++ ds, rest)
    else none
  | [] => none

def number? (s : List Char) : Option (Value × List Char) := do
  let (mark, t) := match s with
    | '-' :: t => (['-'], t)
    | t => ([], t)
  let (ds, t) ← whole? t
  let (part, t) := (fraction? t).getD ([], t)
  let (power, t) := (exponent? t).getD ([], t)
  let text := String.ofList (mark ++ ds ++ part ++ power)
  if part.isEmpty && power.isEmpty then return (.int (← Numeral.int? text), t)
  else return (.float (← Numeral.float? text), t)

def words : List (String × Value) :=
  [("null", .null), ("true", .bool true), ("false", .bool false), ("NaN", .float (0.0 / 0.0)),
    ("Infinity", .float (1.0 / 0.0)), ("-Infinity", .float (-1.0 / 0.0))]

def word? (s : List Char) : Option (Value × List Char) :=
  words.findSome? fun (w, v) => (after? w.toList s).map fun rest => (v, rest)

inductive Fault
  | malformed
  | tooDeep
  deriving DecidableEq

def wellFormed {α : Type} : Option α → Except Fault α
  | some a => .ok a
  | none => .error .malformed

mutual

/-- An array or an object takes a level as soon as it is entered, whatever follows. -/
def readValue : (fuel levels : Nat) → List Char → Except Fault (Value × List Char)
  | 0, _, _ => .error .malformed
  | fuel + 1, levels, s =>
    match s with
    | '"' :: t => do
      let (cs, rest) ← wellFormed (string? t.length.succ t)
      return (.text (String.ofList cs), rest)
    | '[' :: t => match levels with
      | 0 => .error .tooDeep
      | levels + 1 => match skip t with
        | ']' :: rest => return (.list [], rest)
        | u => (readItems fuel levels u).map fun (vs, rest) => (.list vs, rest)
    | '\x7b' :: t => match levels with
      | 0 => .error .tooDeep
      | levels + 1 => match skip t with
        | '\x7d' :: rest => return (.map [], rest)
        | u => (readMembers fuel levels [] u).map fun (es, rest) => (.map es, rest)
    | s => wellFormed ((word? s).or (number? s))

def readItems : (fuel levels : Nat) → List Char → Except Fault (List Value × List Char)
  | 0, _, _ => .error .malformed
  | fuel + 1, levels, s => do
    let (v, rest) ← readValue fuel levels s
    match skip rest with
    | ']' :: rest => return ([v], rest)
    | ',' :: rest =>
      let (vs, rest) ← readItems fuel levels (skip rest)
      return (v :: vs, rest)
    | _ => .error .malformed

def readMembers : (fuel levels : Nat) → Entries → List Char → Except Fault (Entries × List Char)
  | 0, _, _, _ => .error .malformed
  | fuel + 1, levels, es, s =>
    match s with
    | '"' :: t => do
      let (key, rest) ← wellFormed (string? t.length.succ t)
      match skip rest with
      | ':' :: rest =>
        let (v, rest) ← readValue fuel levels (skip rest)
        let es := es.insert (.text (String.ofList key)) v
        match skip rest with
        | '\x7d' :: rest => return (es, rest)
        | ',' :: rest => readMembers fuel levels es (skip rest)
        | _ => .error .malformed
      | _ => .error .malformed
    | _ => .error .malformed

end

/-- A text that holds one value and nothing else but gaps, where no more arrays and objects are
within each other than there are levels. -/
def read (levels : Nat) (s : String) : Except Fault Value := do
  let (v, rest) ← readValue (2 * s.toList.length + 1) levels (skip s.toList)
  if (skip rest).isEmpty then return v else .error .malformed

theorem readValue_brackets {levels fuel : Nat} (enough : 2 * levels < fuel) (s : List Char) :
    readValue fuel levels (List.replicate (levels + 1) '[' ++ s) = .error .tooDeep := by
  induction levels generalizing fuel with
  | zero =>
    obtain ⟨fuel, rfl⟩ := Nat.exists_eq_add_of_lt enough
    simp [readValue]
  | succ levels ih =>
    obtain ⟨fuel, rfl⟩ : ∃ n, fuel = n + 2 := ⟨fuel - 2, by omega⟩
    have inner : readValue fuel levels ('[' :: (List.replicate levels '[' ++ s)) =
        .error .tooDeep := ih (by omega)
    have behind : readItems (fuel + 1) levels ('[' :: (List.replicate levels '[' ++ s)) =
        .error .tooDeep := by
      rw [readItems, inner]
      rfl
    rw [List.replicate_succ, List.replicate_succ, List.cons_append, List.cons_append, readValue]
    change (readItems (fuel + 1) levels ('[' :: (List.replicate levels '[' ++ s))).map _ = _
    rw [behind]
    rfl

theorem read_brackets (levels : Nat) (s : String) :
    read levels (String.ofList (List.replicate (levels + 1) '[') ++ s) = .error .tooDeep := by
  have text : (String.ofList (List.replicate (levels + 1) '[') ++ s).toList =
      List.replicate (levels + 1) '[' ++ s.toList := by simp
  have gap : skip (List.replicate (levels + 1) '[' ++ s.toList) =
      List.replicate (levels + 1) '[' ++ s.toList := rfl
  rw [read, text, gap, readValue_brackets (by simp; omega)]
  rfl

end SparqlClient.Json
