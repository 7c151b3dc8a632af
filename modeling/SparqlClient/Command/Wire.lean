import SparqlClient.Config
import SparqlClient.Json.Reader
import SparqlClient.Json.Writer
import SparqlClient.Store.Session

/-! Requests and replies as lines of JSON. A run leaves the traffic itself to whoever reads its
requests and answers each of them with one line. -/

namespace SparqlClient.Wire

def entry (name : String) (v : Value) : Value × Value := (.text name, v)

def payload : Payload → Entries
  | .none => []
  | .octets s => [entry "body" (.text s)]
  | .form fields => [entry "form" (.map (fields.map fun (n, v) => entry n v))]

def credentials : RequestAuth → Entries
  | .basic username password => [entry "auth" (.list [username, password])]
  | _ => []

def login (a : AuthConfig) : Entries :=
  if a.isEnabled then
    [entry "login" (.map [entry "type" (.text a.type), entry "username" a.username,
      entry "password" (AuthConfig.either a.password (.text ""))])]
  else []

def texts (es : List (String × String)) : Value := .map (es.map fun (n, s) => entry n (.text s))

def ofRequest (a : AuthConfig) (r : Request) : Value :=
  .map ([entry "method" (.text r.method), entry "url" (.text r.url), entry "timeout" r.timeout,
      entry "headers" (texts r.headers)] ++
    (r.query.map fun q => entry "query" (.text q)).toList ++ payload r.payload ++
    credentials r.auth ++ login a)

/-- One request on a line; a value that JSON does not know is written by its text. -/
def line (a : AuthConfig) (r : Request) : Outcome String :=
  Json.write { Json.Style.compact with lenient := true } 0 (.map [entry "request" (ofRequest a r)])

def noReply : Reply := .failed "connection" "no reply"

def textOf (fields : Entries) (name : String) : String := (fields.get name).chars?.getD ""

def replyOf (fields : Entries) : Reply :=
  match (fields.get? "failure").bind Value.chars? with
  | some cause => .failed cause (textOf fields "message")
  | none => .answered ((fields.get "status").whole.toOption.getD 200) (textOf fields "body")

def reply (line : String) : Reply :=
  match Json.read Value.maxNesting line with
  | .ok (.map fields) => replyOf fields
  | _ => noReply

theorem login_none : login .none = [] := rfl

end SparqlClient.Wire
