import SparqlClient.Text.Pieces
import SparqlClient.Text.Quoted
import SparqlClient.Text.Similar

/-! Options and operands of a command line. A long option takes its value behind an equals sign or
from the next argument, a short one also from the same argument; two hyphens alone end the
options. -/

namespace SparqlClient.Command

open Text

structure Setting where
  long : String
  short : Option Char
  hasValue : Bool

inductive UsageError
  | unknownOption (name : String) (near : List String)
  | valueMissing (option : String)
  | valueUnwanted (option : String)
  | invalid (hint reason : String)
  | operandMissing (name : String)
  | operandsUnexpected (operands : List String)
  | unknownCommand (name : String) (near : List String)
  | commandMissing
  | queryNotOne
  | notProperty (shown : String)
  deriving DecidableEq

namespace UsageError

def suggestion (near : List String) : String :=
  match (near.mergeSort (· ≤ ·)).map quoted with
  | [] => ""
  | [a] => " Did you mean " ++ a ++ "?"
  | many => " (Did you mean one of: " ++ String.intercalate ", " many ++ "?)"

def message : UsageError → String
  | unknownOption name near => "No such option " ++ quoted name ++ "." ++ suggestion near
  | valueMissing option => "Option '" ++ option ++ "' requires an argument."
  | valueUnwanted option => "Option '" ++ option ++ "' does not take a value."
  | invalid hint reason => "Invalid value for " ++ hint ++ ": " ++ reason
  | operandMissing name => "Missing argument '" ++ name ++ "'."
  | operandsUnexpected [a] => "Got unexpected extra argument (" ++ a ++ ")"
  | operandsUnexpected more =>
    "Got unexpected extra arguments (" ++ String.intercalate " " more ++ ")"
  | unknownCommand name near => "No such command " ++ quoted name ++ "." ++ suggestion near
  | commandMissing => "Missing command."
  | queryNotOne => "Provide exactly one of --file or --sparql"
  | notProperty shown => "Expected KEY=VALUE, got " ++ shown

def showsUsage : UsageError → Bool
  | valueMissing _ => false
  | valueUnwanted _ => false
  | _ => true

end UsageError

abbrev Usable (α : Type) := Except UsageError α

structure Arguments where
  settings : List (String × String)
  operands : List String

namespace Arguments

def none : Arguments := ⟨[], []⟩

def addSetting (a : Arguments) (s : Setting) (value : String) : Arguments :=
  { a with settings := a.settings ++ [(s.long, value)] }

def addOperands (a : Arguments) (more : List String) : Arguments :=
  { a with operands := a.operands ++ more }

def all (a : Arguments) (long : String) : List String :=
  a.settings.filterMap fun (n, v) => if n = long then some v else .none

def get? (a : Arguments) (long : String) : Option String := (a.all long).getLast?

def has (a : Arguments) (long : String) : Bool := (a.get? long).isSome

def filled? (a : Arguments) (long : String) : Option String := (a.get? long).filter (· ≠ "")

theorem get?_addSetting (a : Arguments) (s : Setting) (v : String) :
    (a.addSetting s v).get? s.long = some v := by
  simp [addSetting, get?, all]

end Arguments

def isOption (arg : String) : Bool := startsWith arg "-" && arg.toList.length ≠ 1

def valueFrom (name : String) : List String → Usable (String × List String)
  | [] => .error (.valueMissing name)
  | v :: rest => .ok (v, rest)

/-- Short options in one argument; one that has a value takes the rest of it. -/
def readShort (known : List Setting) :
    List Char → List String → Arguments → Usable (Arguments × List String)
  | [], rest, a => .ok (a, rest)
  | c :: cs, rest, a =>
    match known.find? (·.short = some c) with
    | none => .error (.unknownOption (String.ofList ['-', c]) [])
    | some s =>
      if s.hasValue then
        if cs.isEmpty then do
          let (v, rest) ← valueFrom (String.ofList ['-', c]) rest
          return (a.addSetting s v, rest)
        else .ok (a.addSetting s (String.ofList cs), rest)
      else readShort known cs rest (a.addSetting s "")

def readOption (known : List Setting) (arg : String) (rest : List String) (a : Arguments) :
    Usable (Arguments × List String) :=
  let (name, attached) := match cut? '=' arg with
    | some (n, v) => (n, some v)
    | none => (arg, none)
  match known.find? (·.long = name), attached with
  | some s, some v =>
    if s.hasValue then .ok (a.addSetting s v, rest) else .error (.valueUnwanted name)
  | some s, none =>
    if s.hasValue then do
      let (v, rest) ← valueFrom name rest
      return (a.addSetting s v, rest)
    else .ok (a.addSetting s "", rest)
  | none, _ =>
    if startsWith arg "--" then
      .error (.unknownOption name (similar name (known.map Setting.long)))
    else readShort known (arg.toList.drop 1) rest a

/-- Reads a line. If `mixed`, options may stand behind operands; else the first operand ends
them. -/
def readFrom (known : List Setting) (mixed : Bool) :
    (fuel : Nat) → List String → Arguments → Usable Arguments
  | 0, _, a => .ok a
  | _, [], a => .ok a
  | fuel + 1, arg :: rest, a =>
    if arg = "--" then .ok (a.addOperands rest)
    else if isOption arg then do
      let (a, rest) ← readOption known arg rest a
      readFrom known mixed fuel rest a
    else if mixed then readFrom known mixed fuel rest (a.addOperands [arg])
    else .ok (a.addOperands (arg :: rest))

def Arguments.read (known : List Setting) (mixed : Bool) (args : List String) : Usable Arguments :=
  readFrom known mixed args.length args .none

end SparqlClient.Command
