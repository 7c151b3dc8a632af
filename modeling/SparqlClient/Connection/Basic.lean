import SparqlClient.Cache
import SparqlClient.Config
import SparqlClient.Log
import SparqlClient.Results
import SparqlClient.Store.Admin

/-! A connection to one store: its settings, the namespace in force, prefixes, remembered results
and the session. An exchange is a program on a connection that may fail; what it has done before
it fails stays done. A scope sets the namespace for its body and sets it back however the body
ends. -/

namespace SparqlClient

structure Connection where
  config : ConnectionConfig
  vendor : Vendor
  prefixes : Prefixes
  namespaceName : Option String
  cache : Cache ResultSet
  now : Seconds
  /-- The levels of nesting in a reply for which there is room. -/
  levels : Nat
  session : Session
  events : List Value

abbrev Exchange := ExceptT Error (StateM Connection)

namespace Connection

def queryEndpoint (c : Connection) : Outcome String :=
  match c.namespaceName with
  | none => .ok c.config.endpoint
  | some n => c.vendor.namespaceEndpoint c.config.endpoint (.text n) "sparql"

def updateEndpoint (c : Connection) : Outcome String := do
  let own ← if c.config.updateEndpoint.truth then
      (onlyText c.config.updateEndpoint).map some
    else pure none
  match c.namespaceName with
  | some n => c.vendor.namespaceEndpoint (own.getD c.config.endpoint) (.text n) "update"
  | none => return own.getD (c.vendor.updateEndpoint c.config.endpoint)

def graphEndpoint (c : Connection) : Outcome String :=
  c.queryEndpoint.map c.vendor.graphEndpoint

def graphUrl (c : Connection) (graph : Value) : Outcome String := do
  let endpoint ← c.graphEndpoint
  c.vendor.graphUrl endpoint (AuthConfig.either graph c.config.graph)

def currentNamespace (c : Connection) : Option String :=
  c.namespaceName.or (c.vendor.namespaceOf? c.config.endpoint)

def identity (c : Connection) : Outcome String := do
  let user := c.config.auth.username
  return c.vendor.name ++ "|" ++ (← c.queryEndpoint) ++ "|" ++
    (if user.truth then user.plainText else "")

def cacheKey (c : Connection) (text : String) (bindings : Value) : Outcome String := do
  SparqlClient.cacheKey (.text (← c.identity)) (.text text) bindings

end Connection

namespace Exchange

def ask {α : Type} (f : Connection → Outcome α) : Exchange α := do f (← get)

def logger : Log.Logger := ⟨"connection", .debug, 2048⟩

def record (level : Log.Level) (event : String) (fields : Entries) : Exchange Unit := do
  let e ← logger.entry level event fields
  modify fun c => { c with events := c.events ++ [e] }

/-- A reset needs nothing; a new namespace has to be valid, and the store has to have such. -/
def setNamespace (name : Value) : Exchange Unit := do
  if name.isNull then modify ({ · with namespaceName := none })
  else
    let n ← ask fun c => do
      let n ← Namespace.validate name
      c.vendor.requireNamespaces
      return n
    modify ({ · with namespaceName := some n })
    let _ ← ask (·.queryEndpoint)

def restoring {α : Type} (previous : Option String) (body : Exchange α) : Exchange α :=
  ExceptT.mk do
    let result ← body.run
    modify ({ · with namespaceName := previous })
    return result

def within {α : Type} (name : Value) (body : Exchange α) : Exchange α := do
  let previous := (← get).namespaceName
  setNamespace name
  restoring previous body

def addPrefix (name iri : String) : Exchange Unit :=
  modify fun c => { c with prefixes := c.prefixes.register name iri }

def send (r : Request) : Exchange Reply := do
  let (reply, session) := (← get).session.send r
  modify ({ · with session := session })
  return reply

def close : Exchange Unit := modify fun c => { c with session := c.session.close }

end Exchange

namespace Connection

def make (config : ConnectionConfig) (vendor : Vendor) (server : List Sent → Reply) :
    Connection where
  config := config
  vendor := vendor
  prefixes := Prefixes.standard.registerAll config.prefixes
  namespaceName := none
  cache := .standard
  now := .whole 0
  levels := Value.maxNesting
  session := ⟨server, []⟩
  events := []

def start (r : Registry) (config : ConnectionConfig) (server : List Sent → Reply) :
    Outcome Connection := do
  let vendor ← r.get (.text config.implementation)
  let c := make config vendor server
  match config.namespaceName.filter (· ≠ "") with
  | none => return c
  | some n =>
    let (result, c) := (Exchange.setNamespace (.text n)).run c
    let _ ← result
    return c

end Connection

end SparqlClient
