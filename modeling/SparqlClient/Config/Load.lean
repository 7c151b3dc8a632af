import SparqlClient.Config
import SparqlClient.Disk
import SparqlClient.Yaml.Document

/-! Settings from a file and from the environment. The file is a YAML mapping, whose entry
`sparql` holds the settings if it has one; a file that does not exist changes nothing. Variables
of the environment that are not empty win over the file. -/

namespace SparqlClient

structure Environment where
  disk : Disk
  vars : List (String × String)

namespace Environment

def get? (e : Environment) (name : String) : Option String :=
  (e.vars.lookup name).filter (· ≠ "")

end Environment

namespace ConnectionConfig

def pathVariable : String := "SPARQLBRIDGE_CONFIG"

def overriding : List (String × String) := [
  ("endpoint", "SPARQL_ENDPOINT"), ("update_endpoint", "SPARQL_UPDATE_ENDPOINT"),
  ("implementation", "SPARQL_IMPLEMENTATION"), ("graph", "SPARQL_GRAPH"),
  ("namespace", "SPARQL_NAMESPACE")]

def overrides (e : Environment) : Entries :=
  overriding.filterMap fun (field, name) => (e.get? name).map fun s => (.text field, .text s)

def put (es more : Entries) : Entries := more.foldl (fun es (k, v) => es.insert k v) es

def document (path text : String) : Outcome Value :=
  match Yaml.read text with
  | .ok v => .ok v
  | .error .malformed => ConfigurationError.fail (.invalidYaml path)
  | .error .tooDeep => Misuse.fail .tooDeep
  | .error (.scalar kind) => Misuse.fail kind

/-- The entries of a document; an empty document has none. -/
def ofDocument (path : String) (v : Value) : Outcome Entries :=
  if !v.truth then .ok []
  else match v with
    | .map es => (((Entries.get? es "sparql").getD v).entries).map (put [])
    | _ => ConfigurationError.fail (.notMapping path)

def ofText (path text : String) : Outcome Entries := do ofDocument path (← document path text)

def fileEntries (e : Environment) (path : String) : Outcome Entries :=
  match e.disk.findPlain path with
  | .absent => .ok []
  | _ => do ofText (Path.text path) (← e.disk.read path)

def filePath? (e : Environment) (path : Option String) : Option String :=
  (path.filter (· ≠ "")).or (e.get? pathVariable)

def load (r : Registry) (e : Environment) (path : Option String) : Outcome ConnectionConfig := do
  let entries ← match filePath? e path with
    | some p => fileEntries e p
    | none => pure []
  ofEntries r (put entries (overrides e))

theorem load_of_no_path (r : Registry) (e : Environment) (h : e.get? pathVariable = none) :
    load r e none = ofEntries r (put [] (overrides e)) := by
  simp [load, filePath?, h]

end ConnectionConfig

end SparqlClient
