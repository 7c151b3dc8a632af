import SparqlClient.Connection.Basic
import SparqlClient.Query.Fragment
import SparqlClient.Rdf.NTriples
import SparqlClient.Statement

/-! Queries, updates and uploads. Each is one request: its text is complete before it is sent,
a failure of the exchange is reported with the store, the URL and the status, and nothing is sent
twice. Results that are remembered are sent for only if they are not at hand. -/

namespace SparqlClient

open Text

inductive Answer
  | results (r : ResultSet)
  | row (r : Row)
  | ask (b : Bool)
  | value (v : Value)

namespace Exchange

def prepare (text : String) (values : Value) : Exchange String :=
  ask fun c => do (← Fragment.ofCaller text values).bound (some c.prefixes)

def common (c : Connection) (r : Request) : Entries :=
  [(.text "vendor", .text c.vendor.name), (.text "method", .text r.method),
    (.text "url", .text r.url)]

def exchange (name : String) (r : Request) (extra : Connection → String → Entries) :
    Exchange (Int × String) := do
  let c ← get
  record .info (name ++ ".request") (common c r)
  match ← send r with
  | .failed cause message =>
    record .error (name ++ ".error") (common c r ++ [(.text "error", .text message)])
    throw (.protocol (Admin.failure c.vendor r.url message none (some cause)))
  | .answered status body =>
    record .info (name ++ ".response")
      (common c r ++ [(.text "status", .int status)] ++ extra c body)
    return (status, body)

def request (r : Request) : Exchange String := do
  let (status, body) ← exchange "sparql" r fun _ _ => []
  if Vendor.isSuccess status then return body
  else throw (.protocol (Admin.failure (← get).vendor r.url (first 500 body) (some status) none))

def query (text accept : String) : Exchange String := do
  let url ← ask (·.queryEndpoint)
  request (.ask url (.float (← get).config.timeout) text accept)

def answer (text : String) : Exchange Value := do
  let body ← query text "application/sparql-results+json"
  match Json.read (← get).levels body with
  | .ok v => return v
  | .error .tooDeep => throw (.misuse .tooDeep)
  | .error .malformed =>
    let url ← ask (·.queryEndpoint)
    throw (.protocol (Admin.failure (← get).vendor url "Invalid JSON response" none
      (some "JSONDecodeError")))

def fetch (text : String) : Exchange ResultSet := do
  ResultSet.ofAnswer (← answer text)

/-- The results at hand, or those that `produce` brings, which are kept for a time. -/
def remembered (key : String) (time : Value) (produce : Exchange ResultSet) :
    Exchange (ResultSet × Bool) := do
  let (hit, cache) ← ask fun c => c.cache.get c.now (.text key)
  modify ({ · with cache := cache })
  match hit with
  | some r => return (r, true)
  | none =>
    let r ← produce
    let cache ← ask fun c => c.cache.set c.now (.text key) r time
    modify ({ · with cache := cache })
    return (r, false)

def results (text : String) (values : Value) (cached : Bool) (time : Value) :
    Exchange ResultSet := do
  let text ← prepare text values
  if cached then
    let key ← ask (·.cacheKey text .null)
    let (r, hit) ← remembered key time (fetch text)
    if hit then
      record .debug "cache.hit"
        [(.text "vendor", .text (← get).vendor.name), (.text "key", .text (first 16 key))]
    return r
  else fetch text

def test (text : String) (values : Value) : Exchange Bool := do
  askAnswer (← answer (← prepare text values))

def construct (text : String) (values : Value) : Exchange String := do
  query (← prepare text values) "application/n-triples"

def update (text : String) (values : Value) : Exchange Unit := do
  let text ← prepare text values
  let url ← ask (·.updateEndpoint)
  let _ ← request { Request.plain "POST" url (.float (← get).config.timeout) with
    payload := .form [("update", .text text)]
    headers := [("Content-Type", "application/x-www-form-urlencoded")] }

/-- A query that only asks, or an update, is executed as what it is. -/
def select (text : String) (values : Value) (cached : Bool) (time : Value) : Exchange Answer := do
  match statementKind text with
  | .ask => return .ask (← test text values)
  | .update => do
    update text values
    return .value (.bool true)
  | _ => return .results (← results text values cached time)

def run (text : String) (values : Value) : Exchange Answer := do
  match statementKind text with
  | .construct | .describe => return .value (.text (← construct text values))
  | _ => select text values false .null

def graphRequest (method : String) (graph : Value) (data : Option Upload) : Exchange Unit := do
  let url ← ask (·.graphUrl graph)
  let c ← get
  let timeout := Value.float c.config.timeout
  let r ← match data with
    | none => pure (Request.plain method url timeout)
    | some u => do
      let text ← ask fun c => u.ntriples (some c.prefixes)
      pure (Request.upload method url timeout text c.vendor.triplesType)
  let (status, body) ← exchange "gsp" r fun c body =>
    [(.text "modified", ((c.vendor.modifiedCount body).map Value.int).getD .null)]
  if ← c.vendor.accepts c.levels status body then return ()
  else
    let reason := if body = "" then "bulk operation rejected" else first 500 body
    throw (.protocol (Admin.failure c.vendor url reason (some status) none))

def insertGraph (data : Upload) (graph : Value) : Exchange Unit :=
  graphRequest "POST" graph (some data)

def replaceGraph (data : Upload) (graph : Value) : Exchange Unit :=
  graphRequest "PUT" graph (some data)

def deleteGraph (graph : Value) : Exchange Unit := graphRequest "DELETE" graph none

def administer (name : Value) (task : Admin.Task) : Exchange Bool := do
  let _ ← Namespace.validate name
  ask (·.vendor.requireNamespaces)
  let c ← get
  let (result, session) := Admin.run c.vendor c.session c.config.endpoint name
    (.float c.config.timeout) task
  modify ({ · with session := session })
  result

def recordTask (event : String) (name : Value) (result : String) (done : Bool) : Exchange Unit := do
  record .info event [(.text "vendor", .text (← get).vendor.name), (.text "namespace", name),
    (.text result, .bool done)]

def createNamespace (name properties : Value) : Exchange Bool := do
  let done ← administer name (.create properties)
  recordTask "namespace.create" name "created" done
  return done

def deleteNamespace (name : Value) : Exchange Bool := do
  let done ← administer name .delete
  recordTask "namespace.delete" name "deleted" done
  return done

def namespaceExists (name : Value) : Exchange Bool := administer name .exists

end Exchange

end SparqlClient
