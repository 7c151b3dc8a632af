import SparqlClient.Text.Quoted
import SparqlClient.Value.Use

/-! Writing values as JSON, on one line or indented, with the entries of mappings in their own
order or sorted by key. A value that JSON does not know fails, unless its text may stand for it. -/

namespace SparqlClient.Json

open Text

structure Style where
  item : String
  key : String
  indent : Option Nat
  sorted : Bool
  lenient : Bool

namespace Style

def compact : Style := ⟨",", ":", none, false, false⟩

def sortedKeys : Style := { compact with sorted := true }

/-- Two spaces for each level; other values are written by their text. -/
def indented : Style := ⟨",", ": ", some 2, false, true⟩

def line (st : Style) (depth : Nat) : String :=
  match st.indent with
  | none => ""
  | some n => String.ofList ('\n' :: List.replicate (n * depth) ' ')

end Style

def escapeChar (c : Char) : List Char :=
  if c = '"' then ['\\', '"']
  else if c = '\\' then ['\\', '\\']
  else if c = '\n' then ['\\', 'n']
  else if c = '\r' then ['\\', 'r']
  else if c = '\t' then ['\\', 't']
  else if c = '\x08' then ['\\', 'b']
  else if c = '\x0c' then ['\\', 'f']
  else if c.toNat < 32 then '\\' :: 'u' :: hex hexDigit 4 c.toNat
  else [c]

def string (s : String) : String := String.ofList ('"' :: s.toList.flatMap escapeChar ++ ['"'])

def floatLayout : Shortest.Layout :=
  { SparqlClient.floatLayout with nan := "NaN", infinity := "Infinity" }

def boolWord (b : Bool) : String := if b then "true" else "false"

def keyText (k : Value) : Outcome String :=
  match k with
  | .null => .ok "null"
  | .bool b => .ok (boolWord b)
  | .int n => .ok (intText n)
  | .float x => .ok (floatLayout.float x)
  | k => match k.chars? with
    | some s => .ok s
    | none => Misuse.fail .wrongType

def bracketed (st : Style) (depth : Nat) (opening closing : String) (parts : List String) : String :=
  if parts.isEmpty then opening ++ closing
  else opening ++ st.line (depth + 1) ++
    String.intercalate (st.item ++ st.line (depth + 1)) parts ++ st.line depth ++ closing

def member (st : Style) (e : String × String) : String := string e.1 ++ st.key ++ e.2

def arranged (st : Style) (es : List (String × String)) : List (String × String) :=
  if st.sorted then es.mergeSort fun a b => a.1 ≤ b.1 else es

mutual

/-- The text of a value in JSON. Neither the digits of a whole number nor the levels of nesting are
limited here, as they are in `Value.hasText` and in what `Json.read` reads. -/
def write (st : Style) (depth : Nat) : Value → Outcome String
  | .null => .ok "null"
  | .bool b => .ok (boolWord b)
  | .int n => .ok (intText n)
  | .float x => .ok (floatLayout.float x)
  | .text s => .ok (string s)
  | .node n => .ok (string n.text)
  | .list items => (writeAll st (depth + 1) items).map (bracketed st depth "[" "]")
  | .map entries => (writeEntries st (depth + 1) entries).map fun es =>
      bracketed st depth "\x7b" "\x7d" ((arranged st es).map (member st))
  | v => if st.lenient then .ok (string v.plainText) else Misuse.fail .wrongType

def writeAll (st : Style) (depth : Nat) : List Value → Outcome (List String)
  | [] => .ok []
  | v :: vs => do
    let a ← write st depth v
    let b ← writeAll st depth vs
    return a :: b

def writeEntries (st : Style) (depth : Nat) :
    List (Value × Value) → Outcome (List (String × String))
  | [] => .ok []
  | (k, v) :: es => do
    let key ← keyText k
    let a ← write st depth v
    let b ← writeEntries st depth es
    return (key, a) :: b

end

end SparqlClient.Json
