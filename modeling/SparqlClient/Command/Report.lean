import SparqlClient.Command.Invocation
import SparqlClient.Connection.Query
import SparqlClient.Rdf.Document
import SparqlClient.Table
import SparqlClient.Text.Control

/-! Running a command. A report holds all that a run leaves behind: what it printed and sent, the
files after it, and how it ended. What is printed goes to no terminal. A connection that was
opened is closed however the command ends; an error of this library is printed, any other error
leaves the program. -/

namespace SparqlClient.Command

open Text

structure Report where
  code : Nat
  out : String
  err : String
  sent : List Sent
  disk : Disk
  escaped : Option Error

namespace Report

def ofText (e : Environment) (code : Nat) (out : String) (sent : List Sent) : Report :=
  ⟨code, Control.printed (out ++ "\n"), "", sent, e.disk, none⟩

def ofEscaped (e : Environment) (error : Error) (sent : List Sent) : Report :=
  ⟨1, "", "", sent, e.disk, some error⟩

def ofError (e : Environment) (error : Error) (sent : List Sent) : Report :=
  match error.message? with
  | some m => ⟨1, "", Control.printed ("Error: " ++ m ++ "\n"), sent, e.disk, none⟩
  | none => ofEscaped e error sent

def ofRefusal (e : Environment) (u : Usage) (error : UsageError) : Report :=
  ⟨2, "", Control.printed (u.refusal error), [], e.disk, none⟩

def ofResult {α : Type} (e : Environment) (sent : List Sent) (f : α → Report) :
    Outcome α → Report
  | .ok a => f a
  | .error x => ofError e x sent

end Report

def config (e : Environment) (a : Arguments) : Outcome ConnectionConfig := do
  let c ← ConnectionConfig.load .standard e (a.get? "--config")
  let c := match a.filled? "--endpoint" with
    | some s => { c with endpoint := s, updateEndpoint := .null }
    | none => c
  return match (a.filled? "--implementation").bind storeOf? with
    | some s => { c with implementation := s }
    | none => c

def connect (e : Environment) (server : List Sent → Reply) (a : Arguments) : Outcome Connection := do
  Connection.start .standard (← config e a) server

def withConnection {α : Type} (e : Environment) (server : List Sent → Reply) (a : Arguments)
    (body : Exchange α) : Outcome α × List Sent :=
  match connect e server a with
  | .error x => (.error x, [])
  | .ok c =>
    let (result, c) := (ExceptT.run body).run c
    (result, c.session.close.sent)

theorem getLast?_withConnection {α : Type} (e : Environment) (server : List Sent → Reply)
    (a : Arguments) (body : Exchange α) (c : Connection) (h : connect e server a = .ok c) :
    (withConnection e server a body).2.getLast? = some .closed := by
  rcases hr : (ExceptT.run body).run c with ⟨result, after⟩
  simp [withConnection, h, hr, Session.close]

def booleanText (b : Bool) : String :=
  "\x7b\"boolean\": " ++ Json.boolWord b ++ "\x7d"

def tableText (r : ResultSet) : Outcome String := do
  Table.render (r.vars.map Value.plainText)
    (← r.rows.mapM fun row => r.vars.mapM fun v => row.value v .null)

def answerText (format : String) : Answer → Outcome String
  | .results r =>
    if format = "json" then Json.write .indented 0 (.list r.toValues) else tableText r
  | .row r => .ok (booleanText (r.size ≠ 0))
  | .ask b => .ok (booleanText b)
  | .value v => .ok (booleanText v.truth)

def queryText (form format text : String) : Exchange String := do
  if form = "ask" then return booleanText (← Exchange.test text .null)
  else if form = "construct" then Exchange.construct text .null
  else
    let answer ← Exchange.select text .null false .null
    answerText format answer

def emit (e : Environment) (sent : List Sent) (target : Option String) (text : String) : Report :=
  match target with
  | none => .ofText e 0 text sent
  | some path => match e.disk.write path text with
    | .ok d => .ofText { e with disk := d } 0 ("Wrote " ++ Path.text path) sent
    | .error x => .ofEscaped e x sent

def runQuery (e : Environment) (server : List Sent → Reply) (a : Arguments) : Report :=
  let run (text : String) : Report :=
    let form := (a.get? "--form").getD "select"
    let format := (a.get? "--format").getD "table"
    let (result, sent) := withConnection e server a (queryText form format text)
    .ofResult e sent (emit e sent (a.filled? "--out")) result
  match a.filled? "--file", a.filled? "--sparql" with
  | some path, none => match e.disk.read path with
    | .ok text => run text
    | .error x => .ofEscaped e x []
  | none, some text => run text
  | _, _ => .ofRefusal e query.usage .queryNotOne

def extension (path : String) : String :=
  let name := (piecesBy (· == '/') path.toList).getLast?.getD []
  let behind := (name.dropWhile (· == '.')).reverse
  match cutAt (· == '.') behind with
  | some (e, _) => lower (String.ofList e.reverse)
  | none => if startsWith path "." then lower (String.ofList (path.toList.drop 1)) else ""

def tripleFormats : List String := ["nt", "ntriples", "nt11", "application/n-triples"]

def isTriples (a : Arguments) (path : String) : Bool :=
  match a.filled? "--format" with
  | some format => tripleFormats.contains format
  | none => extension path = "nt" || lower path = "nt"

def readGraph (e : Environment) (a : Arguments) (path : String) : Outcome Graph :=
  if isTriples a path then
    match e.disk.find path with
    | .file text => Graph.ofDocument text
    | .folder => .error (.file .isDirectory)
    | .absent => .error (.file .notFound)
    | .tooLong => .error (.file .nameTooLong)
  else .error (.file .unknownFormat)

def upload (g : Graph) (graph : Value) (replace : Bool) : Exchange String := do
  if replace then Exchange.replaceGraph (.graph g) graph else Exchange.insertGraph (.graph g) graph
  Exchange.ask (·.graphUrl graph)

def runLoad (e : Environment) (server : List Sent → Reply) (a : Arguments) (source : String) :
    Report :=
  match readGraph e a source with
  | .error x => .ofEscaped e x []
  | .ok g =>
    let graph := .ofText? (a.get? "--graph")
    let (result, sent) := withConnection e server a (upload g graph (a.has "--replace"))
    .ofResult e sent (fun url => .ofText e 0 (natText g.size ++ " triples -> " ++ url) sent) result

def runGraphUrl (e : Environment) (server : List Sent → Reply) (a : Arguments) : Report :=
  .ofResult e [] (fun c => match c.graphUrl (.ofText? (a.get? "--graph")) with
    | .ok url => .ofText e 0 url []
    | .error x => .ofEscaped e x []) (connect e server a)

def properties (items : List String) : Usable Entries :=
  items.foldlM (fun es item => match cut? '=' item with
    | some (k, v) => .ok (Entries.insert es (.text (trim k)) (.text (trim v)))
    | none => .error (.notProperty (quoted item))) []

/-- One task on a namespace, the text for each of its answers, and the code of the second. -/
def runTask (e : Environment) (server : List Sent → Reply) (a : Arguments)
    (task : Exchange Bool) (yes no : String) (code : Nat) : Report :=
  let (result, sent) := withConnection e server a task
  .ofResult e sent (fun b => .ofText e (if b then 0 else code) (if b then yes else no) sent) result

def runCreate (e : Environment) (server : List Sent → Reply) (a : Arguments) (name : String) :
    Report :=
  match properties (a.all "--property") with
  | .error x => .ofRefusal e createNamespace.usage x
  | .ok ps =>
    runTask e server a (Exchange.createNamespace (.text name) (.map ps))
      ("created " ++ name) (name ++ " already exists") 0

def run (e : Environment) (server : List Sent → Reply) (c : Command) (a : Arguments) : Report :=
  let name := a.operands.head?.getD ""
  match c with
  | query => runQuery e server a
  | load => runLoad e server a name
  | graphUrl => runGraphUrl e server a
  | createNamespace => runCreate e server a name
  | deleteNamespace =>
    runTask e server a (Exchange.deleteNamespace (.text name)) ("deleted " ++ name)
      (name ++ " not found") 0
  | namespaceExists =>
    runTask e server a (Exchange.namespaceExists (.text name)) "yes" "no" 1

def version : String := "0.1.0"

/-- Runs a command line; `server` gives the reply to the last of the requests sent so far. -/
def Report.ofLine (e : Environment) (server : List Sent → Reply) (args : List String) : Report :=
  match Invocation.read e.disk args with
  | .version => .ofText e 0 (program ++ ", version " ++ version) []
  | .help u true => ⟨0, u.line, "", [], e.disk, none⟩
  | .help u false => ⟨2, "", u.line, [], e.disk, none⟩
  | .refused u x => .ofRefusal e u x
  | .run c a => run e server c a

end SparqlClient.Command
