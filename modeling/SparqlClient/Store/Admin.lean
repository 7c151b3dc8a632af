import SparqlClient.Store.Session
import SparqlClient.Store.Vendor

/-! The administration of namespaces. Each task is one request; some failures are answers: a
namespace that is there already, or that is not there. -/

namespace SparqlClient.Admin

open Text

inductive Task
  | create (properties : Value)
  | delete
  | exists

def Task.tolerated : Task → Int
  | .create _ => 409
  | _ => 404

def namespaceProperty : String := "com.bigdata.rdf.sail.namespace"

def propertyFields (properties : Value) : Outcome Entries :=
  if properties.truth then properties.fields else .ok []

/-- One property on a line, the name of the namespace first. -/
def propertyLines (name : String) (properties : Entries) : List String :=
  (namespaceProperty ++ "=" ++ name) ::
    (properties.filter fun e => !e.1.sameKey (.text namespaceProperty)).map fun (k, v) =>
      k.plainText ++ "=" ++ v.plainText

def createInPath (endpoint name : String) (properties timeout : Value) : Outcome Request := do
  let lines := propertyLines name (← propertyFields properties)
  return .upload "POST" (Vendor.serviceRoot endpoint ++ "/namespace") timeout
    (String.intercalate "\n" lines) "text/plain"

def datasetAuth (properties : Entries) : RequestAuth :=
  let username := properties.get "username"
  if username.truth then .basic username ((properties.get? "password").getD (.text "")) else .none

def createDataset (endpoint name : String) (properties timeout : Value) : Outcome Request := do
  let fields ← if properties.truth then properties.entries else pure []
  let url ← Vendor.datasetsUrl endpoint none
  let type := (fields.get? "dbType").getD (.text "tdb2")
  return { Request.plain "POST" url timeout with
    payload := .form [("dbName", .text name), ("dbType", type)]
    auth := datasetAuth fields }

def namespaceUrl (v : Vendor) (endpoint name : String) : Outcome String :=
  match v with
  | .fuseki => Vendor.datasetsUrl endpoint (some name)
  | _ => .ok (Vendor.serviceRoot endpoint ++ "/namespace/" ++ name)

def request (v : Vendor) (endpoint : String) (name timeout : Value) (task : Task) :
    Outcome Request := do
  v.requireNamespaces
  let name ← Namespace.validate name
  match task, v with
  | .create properties, .fuseki => createDataset endpoint name properties timeout
  | .create properties, _ => createInPath endpoint name properties timeout
  | .delete, v => return .plain "DELETE" (← namespaceUrl v endpoint name) timeout
  | .exists, v => return .plain "GET" (← namespaceUrl v endpoint name) timeout

def failure (v : Vendor) (url reason : String) (status : Option Int) (cause : Option String) :
    ProtocolError :=
  ⟨v.name, url, reason, status, cause⟩

def judge (v : Vendor) (url : String) (task : Task) : Reply → Outcome Bool
  | .failed cause message => ProtocolError.fail (failure v url message none (some cause))
  | .answered status body =>
    if Vendor.isSuccess status then .ok true
    else if status = task.tolerated then .ok false
    else ProtocolError.fail (failure v url (first 500 body) (some status) none)

def run (v : Vendor) (s : Session) (endpoint : String) (name timeout : Value) (task : Task) :
    Outcome Bool × Session :=
  match request v endpoint name timeout task with
  | .error e => (.error e, s)
  | .ok r =>
    let (reply, s) := s.send r
    (judge v r.url task reply, s)

end SparqlClient.Admin
