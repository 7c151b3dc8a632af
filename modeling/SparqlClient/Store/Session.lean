import SparqlClient.Value.Use

/-! Exchanges with a store. A session keeps what was sent, in order; the server is any function
from what it has received to its reply to the last request. -/

namespace SparqlClient

inductive Payload
  | none
  | octets (text : String)
  | form (fields : List (String × Value))

/-- Credentials of one request: not mentioned, none, or a name with a password. -/
inductive RequestAuth
  | absent
  | none
  | basic (username password : Value)

structure Request where
  method : String
  url : String
  query : Option String
  headers : List (String × String)
  payload : Payload
  auth : RequestAuth
  timeout : Value

namespace Request

def plain (method url : String) (timeout : Value) : Request :=
  ⟨method, url, none, [], .none, .absent, timeout⟩

def upload (method url : String) (timeout : Value) (text type : String) : Request :=
  { plain method url timeout with payload := .octets text, headers := [("Content-Type", type)] }

def ask (url : String) (timeout : Value) (query accept : String) : Request :=
  { plain "GET" url timeout with query := some query, headers := [("Accept", accept)] }

end Request

inductive Reply
  | answered (status : Int) (body : String)
  | failed (cause message : String)

inductive Sent
  | request (r : Request)
  | closed

structure Session where
  server : List Sent → Reply
  sent : List Sent

namespace Session

def send (s : Session) (r : Request) : Reply × Session :=
  let sent := s.sent ++ [.request r]
  (s.server sent, { s with sent := sent })

def close (s : Session) : Session := { s with sent := s.sent ++ [.closed] }

@[simp] theorem sent_send (s : Session) (r : Request) :
    (s.send r).2.sent = s.sent ++ [.request r] := rfl

@[simp] theorem server_send (s : Session) (r : Request) : (s.send r).2.server = s.server := rfl

end Session

end SparqlClient
