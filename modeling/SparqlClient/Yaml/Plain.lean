import SparqlClient.Yaml.Cursor

/-! Scalars without quotes. They end before a comment, before a colon that stands for a value, and
before a line that is indented less; inside brackets also before the marks of the brackets. -/

namespace SparqlClient.Yaml.Plain

def isFlowMark (c : Char) : Bool := c = ',' || c = '[' || c = ']' || c = '\x7b' || c = '\x7d'

def word (flow : Bool) : List Char → List Char
  | [] => []
  | c :: s =>
    if isGap (some c) then []
    else if c = ':' && (isGap s.head? || flow && s.head?.any isFlowMark) then []
    else if flow && (isFlowMark c || c = '?') then []
    else c :: word flow s

def breaks : (fuel : Nat) → List Char → Cursor → Option (List Char) × Cursor
  | 0, acc, c => (some acc, c)
  | fuel + 1, acc, c =>
    match c.peek with
    | some x =>
      if x = ' ' then breaks fuel acc c.next
      else if isBreak x then
        let (b, c) := c.lineBreak
        if c.atSeparator then (none, c) else breaks fuel (acc ++ b) c
      else (some acc, c)
    | none => (some acc, c)

/-- What stands between two words, whether a line ended there, and the cursor behind it. -/
structure Between where
  text : List Char
  broken : Bool
  cursor : Cursor

def spaces (c : Cursor) : Between :=
  let (blanks, c) := c.takeWhile (· == ' ')
  if c.peek.any isBreak then
    let (lineEnd, c) := c.lineBreak
    if c.atSeparator then ⟨[], true, c⟩
    else match breaks c.rest.length [] c with
      | (some more, c) => ⟨folded lineEnd more, true, c⟩
      | (none, c) => ⟨[], true, c⟩
  else ⟨blanks, false, c⟩

def scanFrom (flow : Bool) (indent : Int) : (fuel : Nat) → List Char → Between → Between
  | 0, text, b => ⟨text, b.broken, b.cursor⟩
  | fuel + 1, text, b =>
    let w := word flow b.cursor.rest
    if b.cursor.peek = some '#' || w.isEmpty then ⟨text, b.broken, b.cursor⟩
    else
      let text := text ++ b.text ++ w
      let b := spaces (b.cursor.skip w.length)
      if b.text.isEmpty || !flow && b.cursor.column < indent then ⟨text, b.broken, b.cursor⟩
      else scanFrom flow indent fuel text b

def scan (flow : Bool) (indent : Int) (c : Cursor) : Between :=
  scanFrom flow indent c.rest.length [] ⟨[], false, c⟩

end SparqlClient.Yaml.Plain
