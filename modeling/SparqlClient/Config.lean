import SparqlClient.Prefixes
import SparqlClient.Store.Vendor

/-! Settings of a connection. They come from a mapping; what is missing or empty has a default,
and a number that cannot be read as one counts as missing. The store, the kind of authentication
and the namespace are checked. -/

namespace SparqlClient

open Text

structure AuthConfig where
  type : String
  username : Value
  password : Value

namespace AuthConfig

def none : AuthConfig := ⟨"none", .null, .null⟩

def isEnabled (a : AuthConfig) : Bool := a.type ≠ "none" && a.username.truth

def types : List String := ["none", "basic", "digest"]

def either (a b : Value) : Value := if a.truth then a else b

def ofValue (v : Value) : Outcome AuthConfig :=
  if v.truth then do
    let fields ← v.fields
    let type ← (either (fields.get "type") (.text "basic")).written
    return { type := lower (trim type)
             username := either (fields.get "username") (fields.get "user")
             password := fields.get "password" }
  else .ok none

end AuthConfig

structure ConnectionConfig where
  endpoint : String
  updateEndpoint : Value
  implementation : String
  graph : Value
  namespaceName : Option String
  auth : AuthConfig
  prefixes : List (String × String)
  timeout : Float
  cacheTtl : Option Float

namespace ConnectionConfig

open AuthConfig (either)

def defaultEndpoint : String := "http://localhost:3030/ds/sparql"

/-- A number, if the value is one or reads as one. -/
def number? (v : Value) : Outcome (Option Float) :=
  if v.isNull then .ok none
  else match v.float? with
    | .ok x => .ok (some x)
    | .error (.misuse .wrongType) => .ok none
    | .error (.misuse .badValue) => .ok none
    | .error e => .error e

def prefixEntries (v : Value) : Outcome (List (String × String)) := do
  if v.truth then
    (← v.entries).foldlM (fun es e => return Prefixes.put (← e.1.written) (← e.2.written) es) []
  else return []

def checkStore (r : Registry) (given : Value) : Outcome String := do
  let given ← (either given (.text "generic")).written
  let name := lower (trim given)
  if (r.find? name).isSome then .ok name
  else ConfigurationError.fail (.unknownStore (quoted name) r.names)

def checkAuth (a : AuthConfig) : Outcome Unit :=
  if AuthConfig.types.contains a.type then .ok ()
  else ConfigurationError.fail (.unknownAuth (quoted a.type))

def checkNamespace (v : Value) : Outcome (Option String) :=
  if v.isNull then .ok none else (Namespace.validate v).map some

def ofEntries (r : Registry) (fields : Entries) : Outcome ConnectionConfig := do
  let endpoint ←
    (either (either (fields.get "endpoint") (fields.get "host")) (.text defaultEndpoint)).written
  let auth ← AuthConfig.ofValue (fields.get "auth")
  let prefixes ← prefixEntries (either (fields.get "prefixes") (fields.get "namespaces"))
  let timeout ← number? (fields.get "timeout")
  let ttl ← number? (fields.get "cache_ttl")
  let implementation ← checkStore r (fields.get "implementation")
  checkAuth auth
  let name ← checkNamespace (fields.get "namespace")
  return { endpoint := endpoint
           updateEndpoint := fields.get "update_endpoint"
           implementation := implementation
           graph := fields.get "graph"
           namespaceName := name
           auth := auth
           prefixes := prefixes
           timeout := timeout.getD 15.0
           cacheTtl := ttl }

def ofValue (r : Registry) (v : Value) : Outcome ConnectionConfig := do
  ofEntries r (← if v.truth then v.entries else pure [])

end ConnectionConfig

end SparqlClient
