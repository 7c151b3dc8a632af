import SparqlClient.Query.Scope

/-! Property paths. The elements of a path are IRI references between angle brackets and names;
everything between them is an operator and stays as it is. A question mark may stand only behind
an IRI, where it cannot be taken for a placeholder. -/

namespace SparqlClient

open Text

inductive PathToken
  | iri (inside : List Char)
  | name (text : List Char)
  | sign (c : Char)
  deriving DecidableEq

namespace PathToken

def isInside (c : Char) : Bool := !(c = '<' || c = '>' || isBlank c)

def isNameChar (c : Char) : Bool :=
  !(isBlank c || c = '/' || c = '|' || c = '^' || c = '*' || c = '+' || c = '?' || c = '(' ||
    c = ')' || c = '!' || c = '<' || c = '>')

def chars : PathToken → List Char
  | .iri inside => '<' :: inside ++ ['>']
  | .name t => t
  | .sign c => [c]

def closing? (s : List Char) : Option (List Char) :=
  match s.dropWhile isInside with
  | '>' :: rest => some rest
  | _ => none

def next (c : Char) (s : List Char) : PathToken × List Char :=
  if c = '<' then
    match closing? s with
    | some rest => (.iri (s.takeWhile isInside), rest)
    | none => (.sign c, s)
  else if isNameChar c then (.name (c :: s.takeWhile isNameChar), s.dropWhile isNameChar)
  else (.sign c, s)

theorem closing?_eq_some {s rest : List Char} (h : closing? s = some rest) :
    s.takeWhile isInside ++ '>' :: rest = s := by
  unfold closing? at h
  split at h
  · rename_i t ht
    obtain rfl := Option.some.inj h
    rw [← ht, List.takeWhile_append_dropWhile]
  · simp at h

theorem next_append (c : Char) (s : List Char) : (next c s).1.chars ++ (next c s).2 = c :: s := by
  unfold next
  split
  · rename_i hc
    split
    · rename_i rest h
      simp [chars, hc, closing?_eq_some h]
    · rfl
  · split
    · simp [chars]
    · rfl

theorem chars_next_ne_nil (c : Char) (s : List Char) : (next c s).1.chars ≠ [] := by
  unfold next
  split
  · split <;> simp [chars]
  · split <;> simp [chars]

theorem length_next (c : Char) (s : List Char) : (next c s).2.length < (c :: s).length := by
  have whole := congrArg List.length (next_append c s)
  have some_char := List.length_pos_iff.2 (chars_next_ne_nil c s)
  simp only [List.length_append] at whole
  omega

end PathToken

def pathTokens : List Char → List PathToken
  | [] => []
  | c :: s => (PathToken.next c s).1 :: pathTokens (PathToken.next c s).2
termination_by s => s.length
decreasing_by exact PathToken.length_next c s

theorem flatMap_chars_pathTokens (s : List Char) :
    (pathTokens s).flatMap PathToken.chars = s := by
  fun_induction pathTokens s with
  | case1 => rfl
  | case2 c s ih => rw [List.flatMap_cons, ih, PathToken.next_append]

namespace Path

/-- Whether some question mark has no closing bracket right before it. -/
def hasLooseOptional (closed : Bool) : List PathToken → Bool
  | [] => false
  | .sign c :: ts => (c = '?' && !closed) || hasLooseOptional (c = '>') ts
  | .iri _ :: ts => hasLooseOptional true ts
  | .name _ :: ts => hasLooseOptional false ts

def element (p : Prefixes) (path : String) (t : PathToken) : Outcome (List Char) :=
  match t with
  | .sign c => .ok [c]
  | t =>
    let text := String.ofList t.chars
    if text = "a" then .ok t.chars
    else
      let term := classifyText (some p) text
      if term.isResource then .ok (angled term.value.plainText).toList
      else CompilationError.fail (.pathElementNotIri text path)

def expand (p : Prefixes) (path : String) : Outcome String := do
  let parts ← (pathTokens (trim path).toList).mapM (element p path)
  let text := parts.flatten
  if text.isEmpty then CompilationError.fail .emptyPath
  else if hasLooseOptional false (pathTokens text) then
    CompilationError.fail (.looseOptional path)
  else return String.ofList text

/-- The last IRI of an expanded path, after which its variable is named. -/
def lastIri? (text : String) : Option String :=
  ((pathTokens text.toList).filterMap fun
    | .iri inside => some (String.ofList inside)
    | _ => none).getLast?

def hint (text : String) : String := ((lastIri? text).filter (· ≠ "")).getD text

end Path

end SparqlClient
