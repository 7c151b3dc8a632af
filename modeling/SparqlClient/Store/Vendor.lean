import SparqlClient.Json.Reader
import SparqlClient.Store.Namespace
import SparqlClient.Url

/-! The kinds of stores and where each of them listens. From the endpoint for queries a store
derives the one for updates, the one for graphs, and those of its namespaces. A namespace of one
store is a dataset behind the host, of another a segment of the path; a plain store has none. -/

namespace SparqlClient

open Text

inductive Vendor
  | fuseki | blazegraph | generic
  deriving DecidableEq

namespace Url

def isSlash (c : Char) : Bool := c = '/'

def trimSlashes (s : String) : String := trimEndOf isSlash s

/-- A last slash and a last line end do not count. -/
def isEnd : List Char → Bool
  | [] => true
  | ['\n'] => true
  | ['/'] => true
  | ['/', '\n'] => true
  | _ => false

def services : List String := ["sparql", "update", "query", "data"]

def isServiceEnd (names : List String) (s : List Char) : Bool :=
  isEnd s || names.any fun n => ((after? ('/' :: n.toList) s).map isEnd).getD false

def segment? (names : List String) (s : List Char) : Option (List Char) :=
  let name := s.takeWhile (!isSlash ·)
  if !name.isEmpty && isServiceEnd names (s.drop name.length) then some name else none

def base (endpoint : String) : Outcome String :=
  match split? endpoint with
  | some u => .ok (u.scheme ++ "://" ++ u.authority)
  | none => Misuse.fail .badValue

def dropServiceAt (s : List Char) : Option (List Char) :=
  services.findSome? fun n => (after? ('/' :: n.toList) s).bind fun rest =>
    match rest with
    | [] | ['/'] => some []
    | ['\n'] | ['/', '\n'] => some ['\n']
    | _ => none

def dropService : List Char → List Char
  | [] => []
  | c :: s => (dropServiceAt (c :: s)).getD (c :: dropService s)

def withoutService (endpoint : String) : String :=
  trimSlashes (String.ofList (dropService endpoint.toList))

/-- The first segment behind the host, if the path ends with it or with a service of it. -/
def dataset? (endpoint : String) : Option String := do
  let rest ← (after? ['h', 't', 't', 'p', ':', '/', '/'] endpoint.toList).or
    (after? ['h', 't', 't', 'p', 's', ':', '/', '/'] endpoint.toList)
  let host := rest.takeWhile (!isSlash ·)
  guard (!host.isEmpty)
  match rest.drop host.length with
  | _ :: path => (segment? services path).map String.ofList
  | [] => none

def isUnreserved (c : Char) : Bool :=
  isAsciiWord c || c = '.' || c = '~' || c = '-'

def percentEncoded (c : Char) : List Char :=
  if isUnreserved c then [c]
  else (String.utf8EncodeChar c).flatMap fun b => '%' :: hex hexDigitUpper 2 b.toNat

def encodeComponent (s : String) : String := String.ofList (s.toList.flatMap percentEncoded)

def namespaceMark : List Char := ['/', 'n', 'a', 'm', 'e', 's', 'p', 'a', 'c', 'e', '/']

/-- The last namespace in a path and what comes before it. -/
def namespaceCut? : List Char → Option (List Char × List Char)
  | [] => none
  | c :: s =>
    ((namespaceCut? s).bind fun (a, n) => if c = '\n' then none else some (c :: a, n)).or
      (((after? namespaceMark (c :: s)).bind (segment? ["sparql"])).map fun n => ([], n))

end Url

namespace Vendor

open Url

def name : Vendor → String
  | .fuseki => "fuseki"
  | .blazegraph => "blazegraph"
  | .generic => "generic"

def graphParameter : Vendor → String
  | .blazegraph => "context-uri"
  | _ => "graph"

def triplesType : Vendor → String
  | .fuseki => "application/n-triples; charset=utf-8"
  | .blazegraph => "text/plain"
  | .generic => "application/n-triples"

def hasNamespaces : Vendor → Bool
  | .generic => false
  | _ => true

def requireNamespaces (v : Vendor) : Outcome Unit :=
  if v.hasNamespaces then .ok () else ConfigurationError.fail (.namespacesUnsupported v.name)

def serviceRoot (endpoint : String) : String :=
  let trimmed := trimSlashes endpoint
  match namespaceCut? trimmed.toList with
  | some (root, _) => String.ofList root
  | none => (dropEnd? trimmed "/sparql").getD trimmed

def queryRoot? (trimmed : String) : Option String :=
  let body := (dropEnd? trimmed "\n").getD trimmed
  (["/sparql", "/update", "/query"].findSome? (dropEnd? body ·)).filter fun root =>
    root ≠ "" && !root.toList.contains '\n'

def graphEndpoint (v : Vendor) (endpoint : String) : String :=
  let trimmed := trimSlashes endpoint
  match v with
  | .fuseki => withoutService trimmed
  | .blazegraph => trimmed
  | .generic => match queryRoot? trimmed with
    | some root => root ++ "/data"
    | none => if endsWith trimmed "/data" then trimmed else trimmed ++ "/data"

def graphUrl (v : Vendor) (endpoint : String) (graph : Value) : Outcome String :=
  if graph.truth then
    let mark := if endpoint.toList.contains '?' then "&" else "?"
    match graph with
    | .octets g => .ok (endpoint ++ mark ++ v.graphParameter ++ "=" ++ encodeComponent g)
    | graph => match graph.chars? with
      | some g => .ok (endpoint ++ mark ++ v.graphParameter ++ "=" ++ encodeComponent g)
      | none => Misuse.fail .wrongType
  else .ok endpoint

def updateEndpoint (v : Vendor) (endpoint : String) : String :=
  match v with
  | .fuseki =>
    let trimmed := trimSlashes endpoint
    match (dropEnd? trimmed "/sparql").or (dropEnd? trimmed "/query") with
    | some root => root ++ "/update"
    | none => endpoint
  | _ => endpoint

def namespaceEndpoint (v : Vendor) (endpoint : String) (name : Value) (service : String) :
    Outcome String :=
  match v with
  | .generic => .ok endpoint
  | .fuseki => do
    let n ← Namespace.validate name
    return (← base endpoint) ++ "/" ++ n ++ "/" ++ service
  | .blazegraph => do
    let n ← Namespace.validate name
    return serviceRoot endpoint ++ "/namespace/" ++ n ++ "/sparql"

def namespaceOf? (v : Vendor) (endpoint : String) : Option String :=
  match v with
  | .fuseki => (dataset? endpoint).filter (· ≠ "$")
  | .blazegraph => (namespaceCut? (trimSlashes endpoint).toList).map fun c => String.ofList c.2
  | .generic => none

/-- Where datasets are administered, all of them or one. -/
def datasetsUrl (endpoint : String) (name : Option String) : Outcome String := do
  let url := (← base endpoint) ++ "/$/datasets"
  match name.filter (· ≠ "") with
  | some n => return url ++ "/" ++ n
  | none => return url

def isSuccess (status : Int) : Bool := 200 ≤ status && status < 300

def countFields : List String := ["count", "tripleCount", "quadCount"]

/-- A JSON object as an answer has to report a count. -/
def reportsCount (levels : Nat) (body : String) : Outcome Bool :=
  match Json.read levels body with
  | .ok (.map fields) => .ok (countFields.any fun f => (Entries.get? fields f).isSome)
  | .error .tooDeep => Misuse.fail .tooDeep
  | _ => .ok true

def accepts (v : Vendor) (levels : Nat) (status : Int) (body : String) : Outcome Bool :=
  if !isSuccess status then .ok false
  else match v with
    | .fuseki => if isAllBlank body then .ok true else reportsCount levels body
    | _ => .ok true

def modifiedMark : List Char := ['m', 'o', 'd', 'i', 'f', 'i', 'e', 'd', '=', '"']

def countHere? (s : List Char) : Option Int := do
  let rest ← after? modifiedMark s
  let ds := rest.takeWhile isDecimalDigit
  guard (!ds.isEmpty && (rest.drop ds.length).head? = some '"')
  Numeral.int? (String.ofList ds)

def count? : List Char → Option Int
  | [] => none
  | c :: s => (countHere? (c :: s)).or (count? s)

def modifiedCount (v : Vendor) (body : String) : Option Int :=
  match v with
  | .blazegraph => count? body.toList
  | _ => none

end Vendor

/-- The stores that can be asked for by name. -/
structure Registry where
  entries : List (String × Vendor)

namespace Registry

def standard : Registry :=
  ⟨[("fuseki", .fuseki), ("blazegraph", .blazegraph), ("generic", .generic)]⟩

def keyOf (name : String) : String := lower (trim name)

def put (name : String) (v : Vendor) : List (String × Vendor) → List (String × Vendor)
  | [] => [(name, v)]
  | (n, w) :: es => if n = name then (n, v) :: es else (n, w) :: put name v es

def register (r : Registry) (name : String) (v : Vendor) : Registry :=
  ⟨put (keyOf name) v r.entries⟩

def names (r : Registry) : List String :=
  (r.entries.map Prod.fst).mergeSort fun a b => a ≤ b

def find? (r : Registry) (name : String) : Option Vendor :=
  (r.entries.find? (·.1 == name)).map Prod.snd

def get (r : Registry) (name : Value) : Outcome Vendor :=
  let key := if name.truth then keyOf name.plainText else ""
  match r.find? key with
  | some v => .ok v
  | none => ConfigurationError.fail (.unknownStore name.display r.names)

end Registry

end SparqlClient
