import SparqlClient.Query.Form
import SparqlClient.Seconds

/-! A query under construction: its clauses so far, the prefixes in force, and whether its
results are to be remembered. Every step gives a new builder or fails and changes nothing.
A builder that belongs to no connection can be written as text but not executed. -/

namespace SparqlClient

structure Builder where
  spec : QuerySpec
  prefixes : Prefixes
  attached : Bool
  remembered : Bool
  /-- in seconds; null for no limit -/
  timeToLive : Value

namespace Builder

def make (subject : String) (prefixes : Prefixes) (attached : Bool) : Builder :=
  ⟨.ofSubject subject, prefixes, attached, false, .null⟩

def withSpec (b : Builder) (f : QuerySpec → QuerySpec) : Builder := { b with spec := f b.spec }

@[simp] theorem spec_withSpec (b : Builder) (f : QuerySpec → QuerySpec) :
    (b.withSpec f).spec = f b.spec := rfl

def names (b : Builder) : Prefixes := b.prefixes.orStandard

def compile (b : Builder) : Outcome Fragment := b.spec.select b.names

def text (b : Builder) : Outcome String := b.compile.map Fragment.text

def bindings (b : Builder) : Outcome (List Value) := b.compile.map Fragment.bindings

def query (b : Builder) : Outcome String := do (← b.compile).bound (some b.prefixes)

def display (b : Builder) : Outcome String :=
  b.text.map fun t => "QueryBuilder(" ++ Text.quoted t ++ ")"

/-- Results stay valid for a time, by default that of the connection; a negative time is none. A
time that cannot be compared is refused, but results are remembered from then on. -/
def remember (b : Builder) (time default : Value) : Outcome Unit × Builder :=
  let time := if time.isNull && b.attached then default else time
  let b := { b with remembered := true }
  match Seconds.limit? time with
  | .ok limit => (.ok (), { b with timeToLive := if limit.isSome then time else .null })
  | .error e => (.error e, b)

def rememberForever (b : Builder) : Builder := { b with remembered := true, timeToLive := .null }

def forget (b : Builder) : Builder := { b with remembered := false, timeToLive := .null }

def table (b : Builder) (name : Value) : Builder := b.withSpec ({ · with table := name })

def graph (b : Builder) (name : Value) : Builder := b.withSpec ({ · with graph := name })

end Builder

end SparqlClient
