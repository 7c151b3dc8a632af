import SparqlClient.Text.Pieces
import SparqlClient.Value.Use

/-! Names for namespaces. A table maps prefixes to namespace IRIs in the order of their first
registration; it expands `prefix:local` names and shortens IRIs by their longest namespace. -/

namespace SparqlClient

structure Prefixes where
  entries : List (String × String)
  deriving DecidableEq

namespace Prefixes

open Text

def rdf : String := "http://www.w3.org/1999/02/22-rdf-syntax-ns#"

def standard : Prefixes where
  entries :=
    [("rdf", rdf), ("rdfs", "http://www.w3.org/2000/01/rdf-schema#"),
      ("owl", "http://www.w3.org/2002/07/owl#"), ("xsd", "http://www.w3.org/2001/XMLSchema#"),
      ("foaf", "http://xmlns.com/foaf/0.1/"), ("skos", "http://www.w3.org/2004/02/skos/core#"),
      ("dc", "http://purl.org/dc/elements/1.1/"), ("dcterms", "http://purl.org/dc/terms/"),
      ("schema", "http://schema.org/")]

def empty : Prefixes := ⟨[]⟩

def isAngle (c : Char) : Bool := c = '<' || c = '>'

/-- A registered name keeps its place when it gets another namespace. -/
def put (name iri : String) : List (String × String) → List (String × String)
  | [] => [(name, iri)]
  | (n, i) :: es => if n = name then (n, iri) :: es else (n, i) :: put name iri es

def register (t : Prefixes) (name iri : String) : Prefixes :=
  ⟨put (trimEndOf (· == ':') name) (trimOf isAngle iri) t.entries⟩

def lookup? (t : Prefixes) (name : String) : Option String :=
  (t.entries.find? (·.1 == name)).map Prod.snd

theorem find?_put (name iri other : String) (es : List (String × String)) :
    (put name iri es).find? (·.1 == other) =
      if name = other then some (name, iri) else es.find? (·.1 == other) := by
  induction es with
  | nil => by_cases h : name = other <;> simp [put, h]
  | cons e es ih =>
    obtain ⟨n, i⟩ := e
    by_cases hn : n = name
    · subst hn
      by_cases h : n = other <;> simp [put, h]
    · by_cases h : name = other
      · subst h
        simp [put, hn, ih]
      · by_cases ho : n = other
        · subst ho
          simp [put, hn, h]
        · simp [put, hn, ho, ih, h]

theorem lookup?_register (t : Prefixes) (name iri other : String) :
    (t.register name iri).lookup? other =
      if trimEndOf (· == ':') name = other then some (trimOf isAngle iri) else t.lookup? other := by
  rw [lookup?, register, find?_put]
  split <;> simp_all [lookup?]

def registerAll (t : Prefixes) (es : List (String × String)) : Prefixes :=
  es.foldl (fun t e => t.register e.1 e.2) t

def ofEntries (start : Prefixes) (es : Entries) : Outcome Prefixes :=
  es.foldlM (fun t (name, iri) => do return t.register (← onlyText name) iri.plainText) start

/-- A name with a registered prefix in full. Names without a colon, with an unknown prefix, or
whose colon is followed by two slashes are returned as they are. -/
def expand (t : Prefixes) (name : String) : String :=
  match cut? ':' name with
  | none => name
  | some (p, rest) =>
    if startsWith rest "//" then name
    else match t.lookup? p with
      | some iri => iri ++ rest
      | none => name

/-- What a namespace leaves of an IRI, if it is a name on one level. -/
def localPart? (iri namespaceIri : String) : Option String :=
  (dropStart? iri namespaceIri).filter fun rest =>
    rest != "" && !rest.toList.contains '/' && !rest.toList.contains '#'

structure Shortened where
  best : Nat
  text : String

def shortenStep (iri : String) (s : Shortened) (e : String × String) : Shortened :=
  if s.best < e.2.toList.length then
    match localPart? iri e.2 with
    | some rest => ⟨e.2.toList.length, e.1 ++ ":" ++ rest⟩
    | none => s
  else s

def shorten (t : Prefixes) (iri : String) : String :=
  (t.entries.foldl (shortenStep iri) ⟨0, iri⟩).text

def sorted (t : Prefixes) : List (String × String) :=
  t.entries.mergeSort fun a b => a.1 < b.1 || (a.1 == b.1 && a.2 ≤ b.2)

def declarations (t : Prefixes) : String :=
  String.intercalate "\n" (t.sorted.map fun (name, iri) => "PREFIX " ++ name ++ ": <" ++ iri ++ ">")

def names (t : Prefixes) : List String := t.entries.map Prod.fst

def size (t : Prefixes) : Nat := t.entries.length

def contains (t : Prefixes) (name : String) : Bool := (t.lookup? name).isSome

def orStandard (t : Prefixes) : Prefixes := if t.entries.isEmpty then standard else t

end Prefixes

end SparqlClient
