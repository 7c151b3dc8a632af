import SparqlClient.Binding.Value

/-! Named bindings. A marker is a colon and an identifier, where no word character, colon or
variable mark stands before the colon, outside complete strings and IRI references. A marker
whose name has a value becomes a placeholder between blanks; other markers stay. -/

namespace SparqlClient

open Text Shape

inductive NamedToken
  | plain (text : List Char)
  | marker (name : List Char)
  deriving DecidableEq

namespace NamedToken

def chars : NamedToken → List Char
  | .plain t => t
  | .marker n => ':' :: n

def last (t : NamedToken) (before : Option Char) : Option Char := t.chars.getLast?.or before

/-- A colon begins a marker only behind a character that is no part of a name. -/
def mayFollow : Option Char → Bool
  | none => true
  | some c => !(isWord c || c = ':' || c = '?' || c = '$')

def plainNext (c : Char) (s : List Char) : NamedToken × List Char :=
  let tail :=
    if c = '"' || c = '\'' then quotedTail c s else if c = '<' then iriTail s else none
  match tail with
  | some (a, b) => (.plain (c :: a), b)
  | none => (.plain [c], s)

def next (before : Option Char) (c : Char) (s : List Char) : NamedToken × List Char :=
  match s with
  | d :: t =>
    if c = ':' && mayFollow before && isLetterOrLine d then
      (.marker (d :: t.takeWhile isWord), t.dropWhile isWord)
    else plainNext c s
  | [] => plainNext c s

theorem length_plainNext (c : Char) (s : List Char) :
    (plainNext c s).2.length < (c :: s).length := by
  have tail : ∀ a b, (if c = '"' || c = '\'' then quotedTail c s
      else if c = '<' then iriTail s else none) = some (a, b) → b.length ≤ s.length := by
    intro a b h
    have split_eq : a ++ b = s := by
      split at h
      · exact quotedTail_append h
      · split at h
        · exact iriTail_append h
        · simp at h
    have := congrArg List.length split_eq
    simp only [List.length_append] at this
    omega
  unfold plainNext
  simp only
  split
  · rename_i a b h
    have := tail a b h
    simp only [List.length_cons]
    omega
  · simp

theorem length_next (before : Option Char) (c : Char) (s : List Char) :
    (next before c s).2.length < (c :: s).length := by
  unfold next
  split
  · split
    · rename_i d t _
      have := length_dropWhile_le isWord t
      simp only [List.length_cons]
      omega
    · exact length_plainNext ..
  · exact length_plainNext ..

end NamedToken

def namedTokens (before : Option Char) : List Char → List NamedToken
  | [] => []
  | c :: s =>
    (NamedToken.next before c s).1 ::
      namedTokens ((NamedToken.next before c s).1.last before) (NamedToken.next before c s).2
termination_by s => s.length
decreasing_by exact NamedToken.length_next before c s

def nameMarker (values : Entries) : NamedToken → List Char × List Value
  | .plain t => (t, [])
  | .marker n =>
    match values.get? (String.ofList n) with
    | some v => ([' ', '?', ' '], [v])
    | none => (':' :: n, [])

def applyNames (text : String) (values : Entries) : String × List Value :=
  let parts := (namedTokens none text.toList).map (nameMarker values)
  (String.ofList (parts.flatMap Prod.fst), parts.flatMap Prod.snd)

def positional (text : String) : Value → Outcome (String × List Value)
  | .null => .ok (text, [])
  | .map values => .ok (applyNames text values)
  | v => v.members.map (text, ·)

end SparqlClient
