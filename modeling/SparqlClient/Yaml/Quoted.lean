import SparqlClient.Text.Quoted
import SparqlClient.Yaml.Cursor

/-! Scalars between quotes. Between single quotes only a doubled quote is special; between double
quotes a backslash starts an escape. Lines are folded, and no document may end inside. -/

namespace SparqlClient.Yaml.Quoted

def escape? : Char → Option Char
  | '0' => some '\x00'
  | 'a' => some '\x07'
  | 'b' => some '\x08'
  | 't' => some '\t'
  | '\t' => some '\t'
  | 'n' => some '\n'
  | 'v' => some '\x0b'
  | 'f' => some '\x0c'
  | 'r' => some '\r'
  | 'e' => some '\x1b'
  | ' ' => some ' '
  | '"' => some '"'
  | '\\' => some '\\'
  | '/' => some '/'
  | 'N' => some '\u0085'
  | '_' => some '\u00a0'
  | 'L' => some '\u2028'
  | 'P' => some '\u2029'
  | _ => none

def codeLength? : Char → Option Nat
  | 'x' => some 2
  | 'u' => some 4
  | 'U' => some 8
  | _ => none

/-- The character of a code; codes beyond the last character have none. -/
def charOf (n : Nat) : Reading Char :=
  if n ≤ 0x10ffff then .ok (Char.ofNat n)
  else .error (.scalar (if n < Nat.pow 2 31 then .badValue else .overflow))

def breaks : (fuel : Nat) → List Char → Cursor → Reading (List Char × Cursor)
  | 0, acc, c => .ok (acc, c)
  | fuel + 1, acc, c =>
    if c.atSeparator then malformed
    else
      let c := c.skipWhile fun x => x = ' ' || x = '\t'
      if c.peek.any isBreak then
        let (b, c) := c.lineBreak
        breaks fuel (acc ++ b) c
      else .ok (acc, c)

def spaces (c : Cursor) : Reading (List Char × Cursor) := do
  let (blanks, c) := c.takeWhile fun x => x = ' ' || x = '\t'
  match c.peek with
  | none => malformed
  | some x =>
    if isBreak x then
      let (lineEnd, c) := c.lineBreak
      let (more, c) ← breaks (c.rest.length + 1) [] c
      return (folded lineEnd more, c)
    else return (blanks, c)

def escaped (c : Cursor) : Reading (List Char × Cursor) :=
  match c.peek with
  | none => malformed
  | some x =>
    match escape? x, codeLength? x with
    | some y, _ => .ok ([y], c.next)
    | none, some n =>
      let digits := c.next.rest.take n
      match Text.hexNumber? digits with
      | some code =>
        if digits.length = n then (charOf code).map fun y => ([y], c.next.skip n) else malformed
      | none => malformed
    | none, none =>
      if isBreak x then
        let (_, c) := c.lineBreak
        breaks (c.rest.length + 1) [] c
      else malformed

def isWordChar (c : Char) : Bool :=
  !(c = '\'' || c = '"' || c = '\\' || c = ' ' || c = '\t' || isBreak c)

def words (double : Bool) : (fuel : Nat) → List Char → Cursor → Reading (List Char × Cursor)
  | 0, acc, c => .ok (acc, c)
  | fuel + 1, acc, c => do
    let (w, c) := c.takeWhile isWordChar
    let acc := acc ++ w
    match c.peek with
    | some '\'' =>
      if double then words double fuel (acc ++ ['\'']) c.next
      else if c.peekAt 1 = some '\'' then words double fuel (acc ++ ['\'']) (c.skip 2)
      else return (acc, c)
    | some '"' => if double then return (acc, c) else words double fuel (acc ++ ['"']) c.next
    | some '\\' =>
      if double then
        let (t, c) ← escaped c.next
        words double fuel (acc ++ t) c
      else words double fuel (acc ++ ['\\']) c.next
    | _ => return (acc, c)

def scanFrom (double : Bool) (quote : Char) :
    (fuel : Nat) → List Char → Cursor → Reading (List Char × Cursor)
  | 0, _, _ => malformed
  | fuel + 1, acc, c => do
    let (w, c) ← words double (c.rest.length + 1) [] c
    if c.peek = some quote then return (acc ++ w, c.next)
    else
      let (s, c) ← spaces c
      scanFrom double quote fuel (acc ++ w ++ s) c

def scan (double : Bool) (c : Cursor) : Reading (List Char × Cursor) :=
  scanFrom double (if double then '"' else '\'') (c.rest.length + 1) [] c.next

end SparqlClient.Yaml.Quoted
