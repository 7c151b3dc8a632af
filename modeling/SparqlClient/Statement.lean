import SparqlClient.Term.Shape

/-! The form of a statement, read off its first word after the prologue: blanks, comment lines
and the declarations of prefixes, base and target graph, in any letter case. -/

namespace SparqlClient

open Text Shape

namespace Statement

def afterComment? : List Char → Option (List Char)
  | '#' :: s => (cutAt (· == '\n') s).map Prod.snd
  | _ => none

theorem length_cutAt {p : Char → Bool} {s a b : List Char} (h : cutAt p s = some (a, b)) :
    b.length < s.length := by
  obtain ⟨c, -, rfl⟩ := eq_of_cutAt h
  simp only [List.length_append, List.length_cons]
  omega

theorem length_afterComment? {s r : List Char} (h : afterComment? s = some r) :
    r.length < s.length := by
  unfold afterComment? at h
  split at h
  · obtain ⟨⟨a, b⟩, hx, rfl⟩ := Option.map_eq_some_iff.1 h
    have := length_cutAt hx
    simp only [List.length_cons]
    omega
  · simp at h

theorem length_dropBlank_le (s : List Char) : (s.dropWhile isBlank).length ≤ s.length :=
  (List.dropWhile_sublist isBlank).length_le

/-- Blanks and whole comment lines. -/
def skipBlanks (s : List Char) : List Char :=
  match _h : afterComment? (s.dropWhile isBlank) with
  | some r => skipBlanks r
  | none => s.dropWhile isBlank
termination_by s.length
decreasing_by
  have := length_afterComment? _h
  have := length_dropBlank_le s
  omega

theorem length_skipBlanks_le (s : List Char) : (skipBlanks s).length ≤ s.length := by
  fun_induction skipBlanks s with
  | case1 s r h ih =>
    have := length_afterComment? h
    have := length_dropBlank_le s
    omega
  | case2 s h => exact length_dropBlank_le s

def someBlanks? : List Char → Option (List Char)
  | c :: s => if isBlank c then some (s.dropWhile isBlank) else none
  | [] => none

def bracketed? : List Char → Option (List Char)
  | '<' :: s => (cutAt (· == '>') s).map Prod.snd
  | _ => none

def prefixName? (s : List Char) : Option (List Char) :=
  match s.dropWhile isNameChar with
  | ':' :: t => some (t.dropWhile isBlank)
  | _ => none

def declaration? (s : List Char) : Option (List Char) :=
  let named := (((afterWord? ['p', 'r', 'e', 'f', 'i', 'x'] s).bind someBlanks?).bind
    prefixName?).bind bracketed?
  let base := ((afterWord? ['b', 'a', 's', 'e'] s).bind someBlanks?).bind bracketed?
  let target := ((afterWord? ['w', 'i', 't', 'h'] s).bind someBlanks?).bind bracketed?
  named.or (base.or target)

/-- Declarations, with blanks and comments after each. The fuel is the length of the text. -/
def skipDeclarations : (fuel : Nat) → List Char → List Char
  | 0, s => s
  | fuel + 1, s =>
    match declaration? s with
    | some r => skipDeclarations fuel (skipBlanks r)
    | none => s

def body (s : List Char) : List Char := skipDeclarations s.length (skipBlanks s)

end Statement

def stripPrologue (text : String) : String := String.ofList (Statement.body text.toList)

/-- `other` is a word that equals a query form only without regard to letter case. -/
inductive StatementKind
  | update | ask | construct | describe | select
  | other (word : String)
  deriving DecidableEq

namespace StatementKind

def word : StatementKind → String
  | .update => "update"
  | .ask => "ask"
  | .construct => "construct"
  | .describe => "describe"
  | .select => "select"
  | .other w => w

def ofWord (w : String) : StatementKind :=
  (([.ask, .construct, .describe, .select] : List StatementKind).find? (·.word == w)).getD (.other w)

def hasWord (s w : List Char) : Bool :=
  match afterWord? w s with
  | some (c :: _) => !isWord c
  | some [] => true
  | none => false

def updateWords : List (List Char) :=
  [['i', 'n', 's', 'e', 'r', 't'], ['d', 'e', 'l', 'e', 't', 'e'], ['l', 'o', 'a', 'd'],
    ['c', 'l', 'e', 'a', 'r'], ['c', 'r', 'e', 'a', 't', 'e'], ['d', 'r', 'o', 'p'],
    ['c', 'o', 'p', 'y'], ['m', 'o', 'v', 'e'], ['a', 'd', 'd']]

def formWords : List (List Char) :=
  [['a', 's', 'k'], ['c', 'o', 'n', 's', 't', 'r', 'u', 'c', 't'],
    ['d', 'e', 's', 'c', 'r', 'i', 'b', 'e'], ['s', 'e', 'l', 'e', 'c', 't']]

def ofBody (s : List Char) : StatementKind :=
  if updateWords.any (hasWord s) then .update
  else match formWords.find? (hasWord s) with
    | some w => ofWord (lower (String.ofList (s.take w.length)))
    | none => .select

end StatementKind

def statementKind (text : String) : StatementKind := .ofBody (Statement.body text.toList)

def isUpdate (text : String) : Bool := statementKind text = .update

end SparqlClient
