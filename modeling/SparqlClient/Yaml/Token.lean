import SparqlClient.Number.Numeral
import SparqlClient.Yaml.Block
import SparqlClient.Yaml.Plain
import SparqlClient.Yaml.Quoted

/-! The tokens of a YAML text. Indentation opens and closes blocks, so the scan keeps the
indentations of the open blocks; and a key shows only by the colon behind it, so the scan keeps,
for each depth of brackets, where the latest token stands that may turn out to be a key. -/

namespace SparqlClient.Yaml

inductive Directive
  | version (major minor : Nat)
  | handle (name start : String)
  | other
  deriving DecidableEq

inductive Token
  | directive (line : Directive)
  | documentStart
  | documentEnd
  | blockSequence
  | blockMapping
  | blockEnd
  | flowSequence
  | flowSequenceEnd
  | flowMapping
  | flowMappingEnd
  | entry
  | comma
  | key
  | value
  | alias (name : String)
  | anchor (name : String)
  | tag (handle : Option String) (suffix : String)
  | scalar (plain : Bool) (text : String)
  deriving DecidableEq

structure Candidate where
  before : Nat
  required : Bool
  start : Cursor

structure Scan where
  cursor : Cursor
  tokens : Array Token
  flow : Nat
  indent : Int
  indents : List Int
  keyAllowed : Bool
  candidates : List (Nat × Candidate)

abbrev Scanner := StateT Scan Reading

namespace Scanner

def fail {α : Type} : Scanner α := fun _ => malformed

def push (t : Token) : Scanner Unit := modify fun s => { s with tokens := s.tokens.push t }

def allowKey (b : Bool) : Scanner Unit := modify ({ · with keyAllowed := b })

def inBlock : Scanner Bool := return (← get).flow = 0

def skipBlanks : (fuel : Nat) → Cursor → Bool → Cursor × Bool
  | 0, c, broken => (c, broken)
  | fuel + 1, c, broken =>
    let c := c.skipWhile (· == ' ')
    let c := if c.peek = some '#' then c.skipWhile (!isBreak ·) else c
    if c.peek.any isBreak then skipBlanks fuel c.lineBreak.2 true else (c, broken)

def toNextToken : Scanner Unit := modify fun s =>
  let c := if s.cursor.index = 0 && s.cursor.peek = some '\ufeff' then s.cursor.next else s.cursor
  let (c, broken) := skipBlanks (c.rest.length + 1) c false
  { s with cursor := c, keyAllowed := s.keyAllowed || broken && s.flow = 0 }

/-- A key stands on one line with its colon, no more than 1024 characters before it. -/
def dropStale : Scanner Unit := do
  let s ← get
  let stale (k : Candidate) : Bool :=
    k.start.line ≠ s.cursor.line || 1024 < s.cursor.index - k.start.index
  if s.candidates.any fun (_, k) => stale k && k.required then fail
  set { s with candidates := s.candidates.filter fun (_, k) => !stale k }

def dropCandidate : Scanner Unit := do
  let s ← get
  if (s.candidates.lookup s.flow).any Candidate.required then fail
  set { s with candidates := s.candidates.filter (·.1 ≠ s.flow) }

/-- The next token may be a key. In a block it has to be one if it starts a line. -/
def saveCandidate : Scanner Unit := do
  let s ← get
  if s.keyAllowed then
    dropCandidate
    let required := s.flow = 0 && s.indent = s.cursor.column
    modify fun s => { s with
      candidates := (s.flow, ⟨s.tokens.size, required, s.cursor⟩) :: s.candidates }

def closeBlocks (column : Int) : List Int → Int → Array Token → Int × List Int × Array Token
  | outer :: indents, indent, tokens =>
    if column < indent then closeBlocks column indents outer (tokens.push .blockEnd)
    else (indent, outer :: indents, tokens)
  | [], indent, tokens => (indent, [], tokens)

def unwind (column : Int) : Scanner Unit := modify fun s =>
  if s.flow ≠ 0 then s
  else
    let (indent, indents, tokens) := closeBlocks column s.indents s.indent s.tokens
    { s with indent, indents, tokens }

def indentTo (column : Int) : Scanner Bool := do
  let s ← get
  if s.indent < column then
    set { s with indent := column, indents := s.indent :: s.indents }
    return true
  else return false

def advance (n : Nat) : Scanner Unit := modify fun s => { s with cursor := s.cursor.skip n }

def mark (t : Token) : Scanner Unit := do
  advance 1
  push t

def openFlow (t : Token) : Scanner Unit := do
  saveCandidate
  modify fun s => { s with flow := s.flow + 1, keyAllowed := true }
  mark t

def closeFlow (t : Token) : Scanner Unit := do
  if ← inBlock then fail
  dropCandidate
  modify fun s => { s with flow := s.flow - 1, keyAllowed := false }
  mark t

def column : Scanner Int := return (← get).cursor.column

def startMember (t start : Token) : Scanner Unit := do
  if ← inBlock then
    if !(← get).keyAllowed then fail
    if ← indentTo (← column) then push start
    allowKey true
  else allowKey (t = .entry)
  dropCandidate
  mark t

def insertAt (n : Nat) (t : Token) : Scanner Unit := modify fun s =>
  { s with tokens := s.tokens.toList.insertIdx n t |>.toArray }

/-- A colon makes the latest candidate a key. -/
def valueMark : Scanner Unit := do
  let s ← get
  match s.candidates.lookup s.flow with
  | some k =>
    set { s with candidates := s.candidates.filter (·.1 ≠ s.flow) }
    insertAt k.before .key
    if ← inBlock then
      if ← indentTo k.start.column then insertAt k.before .blockMapping
    allowKey false
  | none =>
    if ← inBlock then
      if !s.keyAllowed then fail
      if ← indentTo s.cursor.column then push .blockMapping
    allowKey (s.flow = 0)
    dropCandidate
  mark .value

def isNameChar (c : Char) : Bool := c.isAlphanum || c = '-' || c = '_'

def endsName (c : Option Char) : Bool :=
  isGap c || c.any fun x =>
    x = '?' || x = ':' || x = ',' || x = ']' || x = '\x7d' || x = '%' || x = '@' || x = '\x60'

def anchorMark (make : String → Token) : Scanner Unit := do
  saveCandidate
  allowKey false
  advance 1
  let (name, c) := (← get).cursor.takeWhile isNameChar
  if name.isEmpty || !endsName c.peek then fail
  modify ({ · with cursor := c })
  push (make (String.ofList name))

def isTagChar (c : Char) : Bool :=
  c.isAlphanum || ";/?:@&=+$,_.!~*'()[]%-#".toList.contains c

def isLineChar (c : Char) : Bool := !(c = ' ' || isBreak c)

def escapedOctets : List Char → Reading (List UInt8 × List Char)
  | '%' :: a :: b :: s =>
    match Text.hexNumber? [a, b] with
    | some n => do
      let (octets, rest) ← escapedOctets s
      return (n.toUInt8 :: octets, rest)
    | none => malformed
  | '%' :: _ => malformed
  | s => .ok ([], s)

def unescaped : (fuel : Nat) → List Char → Reading (List Char)
  | 0, _ => .ok []
  | fuel + 1, s =>
    match s with
    | [] => .ok []
    | '%' :: _ => do
      let (octets, rest) ← escapedOctets s
      match String.fromUTF8? ⟨octets.toArray⟩ with
      | some t => return t.toList ++ (← unescaped fuel rest)
      | none => malformed
    | c :: s => (unescaped fuel s).map (c :: ·)

def tagText (c : Cursor) : Reading (String × Cursor) := do
  let (s, c) := c.takeWhile isTagChar
  if s.isEmpty then malformed else return (String.ofList (← unescaped s.length s), c)

def handle (c : Cursor) : Reading (String × Cursor) :=
  let (name, c) := c.next.takeWhile isNameChar
  if c.peek = some '!' then .ok ("!" ++ String.ofList name ++ "!", c.next) else malformed

def tagParts (c : Cursor) : Reading (Option String × String × Cursor) := do
  if c.peekAt 1 = some '<' then
    let (s, c) ← tagText (c.skip 2)
    if c.peek = some '>' then return (none, s, c.next) else malformed
  else if isGap (c.peekAt 1) then return (none, "!", c.next)
  else
    let named := (c.next.rest.takeWhile isLineChar).contains '!'
    let (name, c) ← if named then handle c else pure ("!", c.next)
    let (s, c) ← tagText c
    return (some name, s, c)

def tagMark : Scanner Unit := do
  saveCandidate
  allowKey false
  let (handle, suffix, c) ← (tagParts (← get).cursor : Reading _)
  if !(c.peek = some ' ' || isStop c.peek) then fail
  modify ({ · with cursor := c })
  push (.tag handle suffix)

def blockScalar (fold : Bool) : Scanner Unit := do
  allowKey true
  dropCandidate
  let s ← get
  let (t, c) ← (Block.scan fold s.indent s.cursor : Reading _)
  modify ({ · with cursor := c })
  push (.scalar false (String.ofList t))

def quotedScalar (double : Bool) : Scanner Unit := do
  saveCandidate
  allowKey false
  let (t, c) ← (Quoted.scan double (← get).cursor : Reading _)
  modify ({ · with cursor := c })
  push (.scalar false (String.ofList t))

def plainScalar : Scanner Unit := do
  saveCandidate
  let s ← get
  let b := Plain.scan (s.flow ≠ 0) (s.indent + 1) s.cursor
  modify fun s => { s with cursor := b.cursor, keyAllowed := b.broken }
  push (.scalar true (String.ofList b.text))

def documentMark (t : Token) : Scanner Unit := do
  unwind (-1)
  dropCandidate
  allowKey false
  advance 3
  push t

def version (c : Cursor) : Reading (Directive × Cursor) :=
  let (major, c) := c.takeWhile Char.isDigit
  let (minor, c') := c.next.takeWhile Char.isDigit
  if c.peek = some '.' && !major.isEmpty && !minor.isEmpty then
    .ok (.version (Numeral.run major).value (Numeral.run minor).value, c')
  else malformed

def handleLine (c : Cursor) : Reading (Directive × Cursor) := do
  let (name, c) ←
    if c.peek ≠ some '!' then malformed
    else if c.peekAt 1 = some ' ' then pure ("!", c.next)
    else handle c
  if c.peek ≠ some ' ' then malformed
  else
    let (start, c) ← tagText (c.skipWhile (· == ' '))
    return (.handle name start, c)

def directiveBody (name : List Char) (c : Cursor) : Reading (Directive × Cursor) := do
  let blank := c.skipWhile (· == ' ')
  let (d, c) ←
    if name = "YAML".toList then version blank
    else if name = "TAG".toList then handleLine blank
    else pure (.other, c.skipWhile (!isBreak ·))
  if c.peek = some ' ' || isStop c.peek then return (d, c) else malformed

def directiveLine : Scanner Unit := do
  unwind (-1)
  dropCandidate
  allowKey false
  let (name, c) := (← get).cursor.next.takeWhile isNameChar
  if name.isEmpty || !(c.peek = some ' ' || isStop c.peek) then fail
  let (d, c) ← (directiveBody name c : Reading _)
  let c ← (Block.lineEnd c : Reading _)
  modify ({ · with cursor := c })
  push (.directive d)

def isIndicator (c : Char) : Bool := "-?:,[]\x7b\x7d#&*!|>'\"%@\x60".toList.contains c

def startsPlain (flow : Bool) (c : Cursor) : Bool :=
  match c.peek with
  | none => false
  | some x =>
    !(isGap (some x) || isIndicator x) ||
      (!isGap (c.peekAt 1) && (x = '-' || !flow && (x = '?' || x = ':')))

def token : Scanner Bool := do
  toNextToken
  dropStale
  unwind (← column)
  let s ← get
  let c := s.cursor
  let flow := s.flow ≠ 0
  let alone := isGap (c.peekAt 1)
  match c.peek with
  | none =>
    unwind (-1)
    dropCandidate
    return false
  | some x =>
    if x = '%' && c.column = 0 then directiveLine
    else if c.column = 0 && c.isMark '-' then documentMark .documentStart
    else if c.column = 0 && c.isMark '.' then documentMark .documentEnd
    else if x = '[' then openFlow .flowSequence
    else if x = '\x7b' then openFlow .flowMapping
    else if x = ']' then closeFlow .flowSequenceEnd
    else if x = '\x7d' then closeFlow .flowMappingEnd
    else if x = ',' then
      allowKey true
      dropCandidate
      mark .comma
    else if x = '-' && alone then startMember .entry .blockSequence
    else if x = '?' && (flow || alone) then startMember .key .blockMapping
    else if x = ':' && (flow || alone) then valueMark
    else if x = '*' then anchorMark .alias
    else if x = '&' then anchorMark .anchor
    else if x = '!' then tagMark
    else if x = '|' && !flow then blockScalar false
    else if x = '>' && !flow then blockScalar true
    else if x = '\'' then quotedScalar false
    else if x = '"' then quotedScalar true
    else if startsPlain flow c then plainScalar
    else fail
    return true

def all : (fuel : Nat) → Scanner Unit
  | 0 => fail
  | fuel + 1 => do if ← token then all fuel

end Scanner

def isAllowed (c : Char) : Bool :=
  let n := c.toNat
  n = 9 || n = 10 || n = 13 || (32 ≤ n && n ≤ 126) || n = 0x85 || (0xa0 ≤ n && n ≤ 0xfffd) ||
    0x10000 ≤ n

def Token.scan (s : String) : Reading (List Token) :=
  if s.toList.all isAllowed then do
    let start : Scan := ⟨.start s, #[], 0, -1, [], true, []⟩
    let ((), done) ← (Scanner.all (s.length + 2)).run start
    return done.tokens.toList
  else malformed

end SparqlClient.Yaml
