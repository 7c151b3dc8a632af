import SparqlClient.Yaml.Cursor

/-! Scalars that fill the lines under a bar, as they are, or under an angle bracket, folded. Their
indentation is that of the first line unless a digit gives it; a sign says what becomes of the
line ends at the end. -/

namespace SparqlClient.Yaml.Block

/-- What becomes of the line ends at the end: one, none, or all of them stay. -/
inductive Chomp
  | clip | strip | keep
  deriving DecidableEq

structure Header where
  chomp : Chomp
  increment : Option Nat

def chomp? : Option Char → Option Chomp
  | some '+' => some .keep
  | some '-' => some .strip
  | _ => none

def digit? (c : Option Char) : Option Nat := (c.filter Char.isDigit).map fun x => x.toNat - 48

def header (c : Cursor) : Reading (Header × Cursor) := do
  let (h, c) : Header × Cursor :=
    match chomp? c.peek, digit? c.peek with
    | some k, _ => match digit? c.next.peek with
      | some n => (⟨k, some n⟩, c.skip 2)
      | none => (⟨k, none⟩, c.next)
    | none, some n => match chomp? c.next.peek with
      | some k => (⟨k, some n⟩, c.skip 2)
      | none => (⟨.clip, some n⟩, c.next)
    | none, none => (⟨.clip, none⟩, c)
  if h.increment = some 0 || !(c.peek = some ' ' || isStop c.peek) then malformed else return (h, c)

def lineEnd (c : Cursor) : Reading Cursor :=
  let c := c.skipWhile (· == ' ')
  let c := if c.peek = some '#' then c.skipWhile (!isBreak ·) else c
  if isStop c.peek then .ok c.lineBreak.2 else malformed

def opening : (fuel : Nat) → List Char → Nat → Cursor → List Char × Nat × Cursor
  | 0, acc, widest, c => (acc, widest, c)
  | fuel + 1, acc, widest, c =>
    match c.peek with
    | some x =>
      if x = ' ' then opening fuel acc (max widest c.next.column) c.next
      else if isBreak x then
        let (b, c) := c.lineBreak
        opening fuel (acc ++ b) widest c
      else (acc, widest, c)
    | none => (acc, widest, c)

def indentTo (indent : Nat) (c : Cursor) : Cursor :=
  c.skip ((c.rest.takeWhile (· == ' ')).length.min (indent - c.column))

def breaks (indent : Nat) : (fuel : Nat) → List Char → Cursor → List Char × Cursor
  | 0, acc, c => (acc, c)
  | fuel + 1, acc, c =>
    let c := indentTo indent c
    if c.peek.any isBreak then
      let (b, c) := c.lineBreak
      breaks indent fuel (acc ++ b) c
    else (acc, c)

def isBlankStart (c : Cursor) : Bool := c.peek = some ' ' || c.peek = some '\t'

/-- What joins two lines with the given empty lines between them. -/
def joint (fold : Bool) (lineEnd more : List Char) (plain : Bool) : List Char :=
  if fold && lineEnd = ['\n'] && plain then if more.isEmpty then [' '] else [] else lineEnd

def lines (fold : Bool) (indent : Nat) :
    (fuel : Nat) → List Char → List Char → List Char → Cursor →
      List Char × List Char × List Char × Cursor
  | 0, acc, last, more, c => (acc, last, more, c)
  | fuel + 1, acc, last, more, c =>
    if c.column = indent && c.peek.isSome then
      let solid := !isBlankStart c
      let (text, c) := c.takeWhile (!isBreak ·)
      let acc := acc ++ more ++ text
      let (last, c) := c.lineBreak
      let (more, c) := breaks indent (c.rest.length + 1) [] c
      if c.column = indent && c.peek.isSome then
        lines fold indent fuel (acc ++ joint fold last more (solid && !isBlankStart c)) [] more c
      else (acc, last, more, c)
    else (acc, last, more, c)

def scan (fold : Bool) (parent : Int) (c : Cursor) : Reading (List Char × Cursor) := do
  let (h, c) ← header c.next
  let c ← lineEnd c
  let least := (parent + 1).toNat.max 1
  let (indent, more, c) : Nat × List Char × Cursor :=
    match h.increment with
    | none =>
      let (more, widest, c) := opening (c.rest.length + 1) [] 0 c
      (least.max widest, more, c)
    | some n =>
      let indent := least + n - 1
      let (more, c) := breaks indent (c.rest.length + 1) [] c
      (indent, more, c)
  let (text, last, more, c) := lines fold indent (c.rest.length + 1) [] [] more c
  return (match h.chomp with
    | .strip => text
    | .clip => text ++ last
    | .keep => text ++ last ++ more, c)

end SparqlClient.Yaml.Block
