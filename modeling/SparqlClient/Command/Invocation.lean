import SparqlClient.Command.Arguments
import SparqlClient.Config.Load

/-! The commands of the program, and which of them a command line asks for. Options are checked in
the order in which they were given, then the operand, then that nothing is left. -/

namespace SparqlClient

open Text Command

inductive Command
  | query
  | load
  | graphUrl
  | createNamespace
  | deleteNamespace
  | namespaceExists
  deriving DecidableEq

namespace Command

def program : String := "cli"

def all : List Command :=
  [query, load, graphUrl, createNamespace, deleteNamespace, namespaceExists]

def words : Command → List String
  | query => ["query"]
  | load => ["load"]
  | graphUrl => ["gsp-url"]
  | createNamespace => ["namespace", "create"]
  | deleteNamespace => ["namespace", "delete"]
  | namespaceExists => ["namespace", "exists"]

def operand? : Command → Option String
  | query => none
  | load => some "SOURCE"
  | graphUrl => none
  | _ => some "NAME"

def valued (long : String) : Setting := ⟨long, none, true⟩

def help : Setting := ⟨"--help", none, false⟩

def own : Command → List Setting
  | query => [⟨"--file", some 'f', true⟩, ⟨"--sparql", some 'q', true⟩, valued "--form",
      valued "--format", ⟨"--out", some 'o', true⟩]
  | load => [valued "--graph", ⟨"--replace", none, false⟩, valued "--format"]
  | graphUrl => [valued "--graph"]
  | createNamespace => [valued "--property"]
  | _ => []

def settings (c : Command) : List Setting :=
  [valued "--config", valued "--endpoint", valued "--implementation"] ++ c.own ++ [help]

structure Usage where
  path : String
  tail : String

def group (words : List String) : Usage :=
  ⟨String.intercalate " " (program :: words), "[OPTIONS] COMMAND [ARGS]..."⟩

def usage (c : Command) : Usage :=
  ⟨String.intercalate " " (program :: c.words),
    "[OPTIONS]" ++ (c.operand?.map (" " ++ ·)).getD ""⟩

namespace Usage

def line (u : Usage) : String := "Usage: " ++ u.path ++ " " ++ u.tail ++ "\n"

def refusal (u : Usage) (e : UsageError) : String :=
  (if e.showsUsage then u.line ++ "Try '" ++ u.path ++ " --help' for help.\n\n" else "") ++
    "Error: " ++ e.message ++ "\n"

end Usage

/-- The choice that a word stands for; `same` takes words that stand for one choice to one text. -/
def choice? (same : String → String) (choices : List String) (v : String) : Option String :=
  choices.find? fun c => same c == same v

def checkChoice (hint : String) (same : String → String) (choices : List String) (v : String) :
    Usable Unit :=
  if (choice? same choices v).isSome then .ok ()
  else .error (.invalid hint (quoted v ++ " is not one of " ++
    String.intercalate ", " (choices.map quoted) ++ "."))

def checkFound (hint kind v : String) : Found → Usable Unit
  | .absent | .tooLong => .error (.invalid hint (kind ++ " " ++ quoted v ++ " does not exist."))
  | _ => .ok ()

def checkNoFolder (hint v : String) : Found → Usable Unit
  | .folder => .error (.invalid hint ("File " ++ quoted v ++ " is a directory."))
  | _ => .ok ()

def stores : List String := Registry.standard.names

def storeOf? (v : String) : Option String := choice? folded stores v

def checkSetting (c : Command) (d : Disk) (long v : String) : Usable Unit :=
  match long with
  | "--config" => checkNoFolder "'--config'" v (d.find v)
  | "--implementation" => checkChoice "'--implementation'" folded stores v
  | "--file" => checkFound "'--file' / '-f'" "Path" v (d.find v)
  | "--form" => checkChoice "'--form'" id ["select", "ask", "construct"] v
  | "--format" =>
    if c = query then checkChoice "'--format'" id ["json", "table"] v else .ok ()
  | _ => .ok ()

def checkOperand (c : Command) (d : Disk) : List String → Usable Unit
  | [] => match c.operand? with
    | some name => .error (.operandMissing name)
    | none => .ok ()
  | v :: _ =>
    if c = load then do
      checkFound "'SOURCE'" "File" v (d.find v)
      checkNoFolder "'SOURCE'" v (d.find v)
    else .ok ()

def checkRest (c : Command) (operands : List String) : Usable Unit :=
  let rest := if c.operand?.isSome then operands.drop 1 else operands
  if rest.isEmpty then .ok () else .error (.operandsUnexpected rest)

def check (c : Command) (d : Disk) (a : Arguments) : Usable Unit := do
  let given := (a.settings.map Prod.fst).eraseDups
  given.forM fun long => checkSetting c d long ((a.get? long).getD "")
  checkOperand c d a.operands
  checkRest c a.operands

inductive Invocation
  | version
  | help (usage : Usage) (asked : Bool)
  | refused (usage : Usage) (error : UsageError)
  | run (command : Command) (arguments : Arguments)

namespace Invocation

def ofCommand (d : Disk) (c : Command) (args : List String) : Invocation :=
  match Arguments.read c.settings true args with
  | .error e => .refused c.usage e
  | .ok a =>
    if a.has "--help" then .help c.usage true
    else match c.check d a with
      | .error e => .refused c.usage e
      | .ok () => .run c a

def versionSetting : Setting := ⟨"--version", none, false⟩

def groupSettings (words : List String) : List Setting :=
  if words.isEmpty then [versionSetting, Command.help] else [Command.help]

def ofGroupSettings (u : Usage) (a : Arguments) : Option Invocation :=
  a.settings.head?.map fun (long, _) => if long = "--version" then .version else .help u true

def membersOf (words : List String) : List String :=
  (all.filterMap fun c => if words.isPrefixOf c.words then c.words[words.length]? else none).eraseDups

/-- A word that names no command; one that looks like an option is read as one first. -/
def unknown (words : List String) (name : String) (rest : List String) : Invocation :=
  let u := group words
  match Arguments.read (groupSettings words) false (name :: rest) with
  | .error e => .refused u e
  | .ok a => (ofGroupSettings u a).getD
    (.refused u (.unknownCommand name (similar name (membersOf words))))

def ofGroup (words : List String) (next : String → List String → Option Invocation)
    (args : List String) : Invocation :=
  let u := group words
  if args.isEmpty then .help u false
  else match Arguments.read (groupSettings words) false args with
    | .error e => .refused u e
    | .ok a => match ofGroupSettings u a, a.operands with
      | some i, _ => i
      | none, [] => .refused u .commandMissing
      | none, name :: rest => (next name rest).getD (unknown words name rest)

def commandOf? (words : List String) : Option Command := all.find? (·.words = words)

def read (d : Disk) (args : List String) : Invocation :=
  let leaf (words : List String) (rest : List String) : Option Invocation :=
    (commandOf? words).map fun c => ofCommand d c rest
  ofGroup [] (fun name rest =>
    if name = "namespace" then
      some (ofGroup [name] (fun sub rest => leaf [name, sub] rest) rest)
    else leaf [name] rest) args

end Invocation

end Command

end SparqlClient
