import SparqlClient.Query.Spec
import SparqlClient.Term.Render

/-! The variables of one query. A predicate gets a variable named after the last part of its IRI;
the same predicate always has the same variable, and a name that is taken gets a number. A column
is the name of a predicate, a variable, or an expression. -/

namespace SparqlClient

open Text Shape

/-- `needed` holds the predicates that clauses other than the conditions refer to, each with
whether its pattern may be missing; `emitted` those whose pattern the conditions bring. -/
structure Scope where
  subject : String
  refs : List (String × String)
  taken : List String
  emitted : List String
  needed : List (String × Bool)

abbrev Compile := StateT Scope Outcome

def subjectVariable (subject : String) : String := withMark subject

namespace Scope

def ofSubject (subject : String) : Scope where
  subject := withMark subject
  refs := []
  taken := [trimStartOf isSigil subject, "aggregate", "p", "o"]
  emitted := []
  needed := []

def isPathMark (c : Char) : Bool := c = '/' || c = '#'

def baseName (iri : String) : String :=
  let pieces := piecesBy (fun c => isPathMark c || c = ':') (dropEndWhile isPathMark iri.toList)
  let name := (pieces.getLastD []).map fun c => if isAsciiWord c then c else '_'
  match name with
  | [] => "v"
  | c :: _ => if c.isDigit then String.ofList ('v' :: name) else String.ofList name

def candidates (base : String) (count : Nat) : List String :=
  base :: (List.range count).map fun i => base ++ natText (i + 2)

/-- Among more candidates than names taken one is free. -/
def freshName (base : String) (taken : List String) : String :=
  ((candidates base taken.length).find? fun n => !taken.contains n).getD base

def refOf? (s : Scope) (predicate : String) : Option String :=
  (s.refs.find? (·.1 == predicate)).map Prod.snd

/-- The variable of a predicate, named after `hint`. -/
def variableFor (s : Scope) (predicate hint : String) : String × Scope :=
  match s.refOf? predicate with
  | some v => (v, s)
  | none =>
    let name := freshName (baseName hint) s.taken
    ("?" ++ name, { s with
      taken := name :: s.taken
      refs := s.refs ++ [(predicate, "?" ++ name)] })

def putNeeded (predicate : String) (optional : Bool) : List (String × Bool) → List (String × Bool)
  | [] => [(predicate, optional)]
  | (p, o) :: rest =>
    if p = predicate then (p, o && optional) :: rest else (p, o) :: putNeeded predicate optional rest

end Scope

/-- What a column is written as, and the predicate behind it if it names one. -/
structure Column where
  ref : String
  predicate : Option String

def normalizeIriValue (v : Value) : Outcome String := (onlyText v).map normalizeIri

def angledValue (v : Value) : Outcome String :=
  (normalizeIriValue v).map fun s => "<" ++ s ++ ">"

namespace Compile

def variableFor (predicate hint : String) : Compile String :=
  modifyGet (·.variableFor predicate hint)

def predicateColumn (v : Value) : Compile Column := do
  let predicate ← normalizeIriValue v
  let ref ← variableFor predicate predicate
  return ⟨ref, some predicate⟩

def textColumn (p : Prefixes) (text : String) : Compile Column :=
  match text.toList with
  | c :: rest =>
    if isSigil c then return ⟨"?" ++ String.ofList rest, none⟩
    else
      let t := classifyText (some p) text
      if t.isResource then predicateColumn t.value
      else if isIdentifier text then return ⟨"?" ++ text, none⟩
      else return ⟨text, none⟩
  | [] => return ⟨text, none⟩

def resolve (p : Prefixes) (column : Value) : Compile Column :=
  match column with
  | .term k x l d =>
    if (Term.mk k x l d).isResource then predicateColumn x
    else return ⟨(Term.mk k x l d).render (some p), none⟩
  | v => textColumn p (trim v.plainText)

def need (p : Prefixes) (column : Value) (optional : Bool) : Compile String := do
  let c ← resolve p column
  match c.predicate with
  | none => return c.ref
  | some predicate =>
    modify fun s => { s with needed := Scope.putNeeded predicate optional s.needed }
    return c.ref

def emit (predicate : String) : Compile Unit :=
  modify fun s => { s with emitted := predicate :: s.emitted }

def pattern (predicate : String) (object : Fragment) : Compile Fragment := do
  return ((← get).subject ++ " " ++ angled predicate ++ " ") ++ object ++ " ."

end Compile

def optionally (optional : Bool) (pattern : Fragment) : Fragment :=
  if optional then "OPTIONAL " ++ pattern.inBraces else pattern

end SparqlClient
