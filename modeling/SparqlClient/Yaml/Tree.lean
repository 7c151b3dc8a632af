import SparqlClient.Yaml.Kind
import SparqlClient.Yaml.Token

/-! The document that the tokens of a YAML text describe: scalars, sequences and mappings, each
of the kind that its tag or its form gives. Only so many collections may stand within each other.
An alias stands for the part that carries its anchor, and takes up no level of its own. A
collection that an alias puts inside itself is unfolded once, and further inside it is left
unfinished. What is left out is an empty scalar. -/

namespace SparqlClient.Yaml

inductive Tree
  | scalar (kind : Kind) (text : String)
  | sequence (kind : Kind) (items : List Tree)
  | mapping (kind : Kind) (pairs : List (Tree × Tree))
  | unfinished (anchor : String)

namespace Tree

def empty : Tree := .scalar .null ""

def unfold (anchor : String) (t : Tree) : Tree → Tree
  | .scalar k s => .scalar k s
  | .sequence k items => .sequence k (unfoldAll items)
  | .mapping k pairs => .mapping k (unfoldPairs pairs)
  | .unfinished a => if a = anchor then t else .unfinished a
where
  unfoldAll : List Tree → List Tree
    | [] => []
    | u :: us => unfold anchor t u :: unfoldAll us
  unfoldPairs : List (Tree × Tree) → List (Tree × Tree)
    | [] => []
    | (k, x) :: ps => (unfold anchor t k, unfold anchor t x) :: unfoldPairs ps

end Tree

def standardHandles : List (String × String) := [("!", "!"), ("!!", Kind.standard)]

/-- The collections within each other that there is room for. -/
def maxNesting : Nat := 490

structure Source where
  tokens : List Token
  anchors : List (String × Tree)
  handles : List (String × String)
  levels : Nat

abbrev Reader := StateT Source Reading

namespace Reader

def fail {α : Type} : Reader α := fun _ => malformed

def peek : Reader (Option Token) := return (← get).tokens.head?

def drop : Reader Unit := modify fun s => { s with tokens := s.tokens.tail }

def accept (t : Token) : Reader Bool := do
  if (← peek) = some t then
    drop
    return true
  else return false

def expect (t : Token) : Reader Unit := do
  if !(← accept t) then fail

def atAny (ts : List Token) : Reader Bool := return (← peek).all ts.contains

def tagName (handle : Option String) (suffix : String) : Reader String := do
  match handle with
  | none => return suffix
  | some h =>
    match ((← get).handles ++ standardHandles).lookup h with
    | some start => return start ++ suffix
    | none => fail

structure Properties where
  anchor : Option String
  tag : Option String

def anchorHere : Reader (Option String) := do
  match ← peek with
  | some (.anchor a) =>
    drop
    return some a
  | _ => return none

def tagHere : Reader (Option String) := do
  match ← peek with
  | some (.tag h s) =>
    drop
    return some (← tagName h s)
  | _ => return none

def properties : Reader Properties := do
  let anchor ← anchorHere
  let tag ← tagHere
  match anchor with
  | some _ => return ⟨anchor, tag⟩
  | none => return ⟨← anchorHere, tag⟩

def setAnchor (name : String) (t : Tree) : Reader Unit :=
  modify fun s => { s with anchors := (name, t) :: s.anchors }

def keep (anchor : Option String) (t : Tree) : Reader Tree := do
  if let some a := anchor then
    if ((← get).anchors.lookup a).isSome then fail
    setAnchor a t
  return t

def tooDeep {α : Type} : Reader α := fun _ => .error .tooDeep

/-- Reads what takes up one level. -/
def inside (content : Reader Tree) : Reader Tree := do
  match (← get).levels with
  | 0 => tooDeep
  | levels + 1 =>
    modify fun s => { s with levels := levels }
    let t ← content
    modify fun s => { s with levels := levels + 1 }
    return t

/-- Reads a collection, which is not finished where its anchor stands inside it. -/
def within (anchor : Option String) (content : Reader Tree) : Reader Tree := do
  match anchor with
  | none => inside content
  | some a =>
    let _ ← keep anchor (.unfinished a)
    let t ← inside content
    let t := t.unfold a t
    setAnchor a t
    return t

/-- The kind that a tag names. The exclamation mark alone leaves the choice to the form. -/
def Properties.kind (p : Properties) (form : Kind) : Kind :=
  match p.tag with
  | none => form
  | some "!" => form
  | some t => .ofTag t

def Properties.scalar (p : Properties) (plain : Bool) (text : String) : Tree :=
  .scalar (p.kind (if plain || p.tag.isSome then .shown text else .text)) text

mutual

def part (fuel : Nat) (block loose : Bool) : Reader Tree :=
  match fuel with
  | 0 => fail
  | fuel + 1 => do
    if let some (.alias a) ← peek then
      drop
      match (← get).anchors.lookup a with
      | some t => return t
      | none => fail
    else
      let p ← properties
      match ← peek with
      | some (.scalar plain s) =>
        drop
        keep p.anchor (p.scalar plain s)
      | some .flowSequence =>
        drop
        within p.anchor do return .sequence (p.kind .sequence) (← flowItems fuel true)
      | some .flowMapping =>
        drop
        within p.anchor do return .mapping (p.kind .mapping) (← flowPairs fuel true)
      | some .blockSequence =>
        if block then
          drop
          within p.anchor do
            let items ← entries fuel
            expect .blockEnd
            return .sequence (p.kind .sequence) items
        else bare p
      | some .blockMapping =>
        if block then
          drop
          within p.anchor do
            let pairs ← blockPairs fuel
            expect .blockEnd
            return .mapping (p.kind .mapping) pairs
        else bare p
      | some .entry =>
        if loose then
          within p.anchor do return .sequence (p.kind .sequence) (← looseEntries fuel)
        else bare p
      | _ => bare p

def bare (p : Properties) : Reader Tree := do
  if p.anchor.isNone && p.tag.isNone then fail
  keep p.anchor (p.scalar true "")

def partOr (fuel : Nat) (stops : List Token) (block loose : Bool) : Reader Tree :=
  match fuel with
  | 0 => fail
  | fuel + 1 => do
    if ← atAny stops then return .empty else part fuel block loose

def entries (fuel : Nat) : Reader (List Tree) :=
  match fuel with
  | 0 => fail
  | fuel + 1 => do
    if ← accept .entry then
      let t ← partOr fuel [.entry, .blockEnd] true false
      return t :: (← entries fuel)
    else return []

def looseEntries (fuel : Nat) : Reader (List Tree) :=
  match fuel with
  | 0 => fail
  | fuel + 1 => do
    if ← accept .entry then
      let t ← partOr fuel [.entry, .key, .value, .blockEnd] true false
      return t :: (← looseEntries fuel)
    else return []

def blockPairs (fuel : Nat) : Reader (List (Tree × Tree)) :=
  match fuel with
  | 0 => fail
  | fuel + 1 => do
    if ← accept .key then
      let stops := [Token.key, .value, .blockEnd]
      let k ← partOr fuel stops true true
      let v ← if ← accept .value then partOr fuel stops true true else pure .empty
      return (k, v) :: (← blockPairs fuel)
    else return []

def flowItems (fuel : Nat) (first : Bool) : Reader (List Tree) :=
  match fuel with
  | 0 => fail
  | fuel + 1 => do
    if ← accept .flowSequenceEnd then return []
    else
      if !first then expect .comma
      if ← accept .key then
        let t ← inside do
          let k ← partOr fuel [.value, .comma, .flowSequenceEnd] false false
          let v ← if ← accept .value then partOr fuel [.comma, .flowSequenceEnd] false false
            else pure .empty
          return .mapping .mapping [(k, v)]
        return t :: (← flowItems fuel false)
      else if ← accept .flowSequenceEnd then return []
      else
        let t ← part fuel false false
        return t :: (← flowItems fuel false)

def flowPairs (fuel : Nat) (first : Bool) : Reader (List (Tree × Tree)) :=
  match fuel with
  | 0 => fail
  | fuel + 1 => do
    if ← accept .flowMappingEnd then return []
    else
      if !first then expect .comma
      if ← accept .key then
        let k ← partOr fuel [.value, .comma, .flowMappingEnd] false false
        let v ← if ← accept .value then partOr fuel [.comma, .flowMappingEnd] false false
          else pure .empty
        return (k, v) :: (← flowPairs fuel false)
      else if ← accept .flowMappingEnd then return []
      else
        let k ← part fuel false false
        return (k, .empty) :: (← flowPairs fuel false)

end

def dropEnds : Nat → Reader Unit
  | 0 => return ()
  | n + 1 => do if ← accept .documentEnd then dropEnds n

/-- Directives before a document: one version at most, and of the first generation; and handles
of tags, each given once. -/
def directives : Nat → Bool → Reader Unit
  | 0, _ => fail
  | n + 1, versioned => do
    match ← peek with
    | some (.directive d) =>
      drop
      match d with
      | .version major _ =>
        if versioned || major ≠ 1 then fail
        directives n true
      | .handle name start =>
        if ((← get).handles.lookup name).isSome then fail
        modify fun s => { s with handles := (name, start) :: s.handles }
        directives n versioned
      | .other => directives n versioned
    | _ => return ()

def document : Reader (Option Tree) := do
  let n := (← get).tokens.length
  let fuel := 4 * n + 4
  let marked : Reader (Option Tree) := do
    dropEnds n
    if (← peek).isNone then return none
    else
      directives (n + 1) false
      expect .documentStart
      match ← peek with
      | some (.directive _) => return some .empty
      | _ => return some (← partOr fuel [.documentStart, .documentEnd] true false)
  let tree ← match ← peek with
    | none => pure none
    | some (.directive _) => marked
    | some .documentStart => marked
    | some _ => pure (some (← part fuel true false))
  let _ ← accept .documentEnd
  dropEnds n
  if (← peek).isSome then fail else return tree

end Reader

def Tree.read (s : String) : Reading (Option Tree) := do
  let tokens ← Token.scan s
  let (tree, _) ← Reader.document.run ⟨tokens, [], [], maxNesting⟩
  return tree

end SparqlClient.Yaml
