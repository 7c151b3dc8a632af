import SparqlClient.Command.Report
import SparqlClient.Command.Wire

/-! The program. It sees the files that its arguments name and the variables that are set for it,
writes its requests to standard output and reads the replies from standard input, each on a line,
and then leaves what the report of the run says. -/

namespace SparqlClient.Program

open Text Command

def paths (args : List String) : List String :=
  args ++ args.filterMap (fun a => (cut? '=' a).map Prod.snd) ++
    args.map fun a => String.ofList (a.toList.drop 2)

def readFile? (path : String) : IO (Option (String × String)) := do
  try
    return some (path, ← IO.FS.readFile path)
  catch _ => return none

def readVariables : IO (List (String × String)) :=
  (ConnectionConfig.pathVariable :: ConnectionConfig.overriding.map Prod.snd).filterMapM
    fun name => do return (← IO.getEnv name).map (name, ·)

def environment (args : List String) : IO Environment := do
  let vars ← readVariables
  let named := (vars.lookup ConnectionConfig.pathVariable).toList
  let files ← (paths args ++ named).eraseDups.filterMapM readFile?
  return ⟨.ofList files, vars⟩

def login (e : Environment) (args : List String) : AuthConfig :=
  match Invocation.read e.disk args with
  | .run _ a => ((config e a).toOption.map (·.auth)).getD .none
  | _ => .none

def isRequest : Sent → Bool
  | .request _ => true
  | .closed => false

def replay (e : Environment) (args : List String) (replies : List Reply) : Report :=
  .ofLine e (fun sent => replies[(sent.filter isRequest).length - 1]?.getD Wire.noReply) args

def waiting? (r : Report) (replies : List Reply) : Option Request :=
  match (r.sent.filter isRequest)[replies.length]? with
  | some (.request q) => some q
  | _ => none

/-- Asks for one reply after the other, until no request waits. -/
partial def converse (e : Environment) (args : List String) (replies : List Reply) : IO Report := do
  let r := replay e args replies
  match waiting? r replies with
  | none => return r
  | some q =>
    IO.println ((Wire.line (login e args) q).toOption.getD "")
    (← IO.getStdout).flush
    converse e args (replies ++ [Wire.reply (← (← IO.getStdin).getLine)])

def folderOf (path : String) : String :=
  String.intercalate "/" (((piecesBy (· == '/') path.toList).map String.ofList).dropLast)

def writeFile (path text : String) : IO Unit := do
  let folder := folderOf path
  if folder ≠ "" then IO.FS.createDirAll folder
  IO.FS.writeFile path text

def finish (e : Environment) (r : Report) : IO UInt32 := do
  for (path, text) in r.disk.changes e.disk do
    writeFile path text
  IO.print r.out
  IO.eprint r.err
  if r.escaped.isSome then IO.eprintln "The command could not be carried out."
  return r.code.toUInt32

end SparqlClient.Program

def main (args : List String) : IO UInt32 := do
  let e ← SparqlClient.Program.environment args
  SparqlClient.Program.finish e (← SparqlClient.Program.converse e args [])
