import SparqlClient.Query.Path

/-! A block of conditions as text: patterns first, then the tests. A pattern without values is
written once. If a disjunction joins the tests they are folded, from the left, into one filter,
and every pattern that a test brings may be missing; otherwise each test is a filter of its own,
and an equality is a pattern that matches the value itself. -/

namespace SparqlClient

open Text

structure Test where
  connector : Connector
  expression : Fragment

/-- What conditions contribute to their block. -/
structure Clauses where
  patterns : List Fragment
  tests : List Test

namespace Clauses

def empty : Clauses := ⟨[], []⟩

def append (a b : Clauses) : Clauses := ⟨a.patterns ++ b.patterns, a.tests ++ b.tests⟩

def ofPattern (f : Fragment) : Clauses := ⟨[f], []⟩

def ofTest (connector : Connector) (expression : Fragment) : Clauses :=
  ⟨[], [⟨connector, expression⟩]⟩

/-- A pattern is left out if it has no values and its text was there before. -/
def dedupe (seen : List String) : List Fragment → List Fragment
  | [] => []
  | f :: fs =>
    if f.bindings.isEmpty && seen.contains f.text then dedupe seen fs
    else f :: dedupe (f.text :: seen) fs

def foldTests : List Test → Fragment
  | [] => .empty
  | t :: ts => ts.foldl (fun e t =>
      "( " ++ (e ++ (" " ++ t.connector.sign ++ " ") ++ t.expression) ++ " )") t.expression

def filterText (e : Fragment) : Fragment := "FILTER( " ++ e ++ " )"

def filters (folded : Bool) (tests : List Test) : List Fragment :=
  if folded && !tests.isEmpty then [filterText (foldTests tests)]
  else tests.map fun t => filterText t.expression

def fragment (c : Clauses) (folded : Bool) : Fragment :=
  .join " " (dedupe [] c.patterns ++ filters folded c.tests)

end Clauses

namespace Write

/-- Terms and nodes are written into the text; a scalar becomes a placeholder. -/
def operand (p : Prefixes) (v : Value) : Fragment :=
  if v.isInline then .ofText ((classify (some p) v).render (some p)) else .placeholder v

/-- In a pattern a text that names a resource, a blank node or a variable stands for it. -/
def nodeOperand (p : Prefixes) (v : Value) : Fragment :=
  match v with
  | .text s =>
    let t := classifyText (some p) s
    match t.kind with
    | .iri | .urn | .blank | .variable => .ofText (t.render (some p))
    | _ => .placeholder v
  | v => operand p v

def predicate (p : Prefixes) (v : Value) : String :=
  if (v.chars?.map trim) = some "a" then "a"
  else
    let t := classify (some p) v
    if t.kind = .variable then t.render none else angled t.value.plainText

def triple (p : Prefixes) (subject pred object : Value) : Fragment :=
  nodeOperand p subject ++ (" " ++ predicate p pred ++ " ") ++ nodeOperand p object ++ " ."

def test (p : Prefixes) (ref : String) (o : Operator) (v label : Value) : Outcome Fragment :=
  match o with
  | .datatype =>
    let t := classify (some p) v
    if t.isResource then .ok (.ofText ("DATATYPE(" ++ ref ++ ") = " ++ t.render none))
    else CompilationError.fail (.datatypeNeedsIri label.plainText)
  | .regex negated caseless =>
    .ok (((if negated then "!" else "") ++ "REGEX( " ++ ref ++ " , ") ++ operand p v ++
      ((if caseless then " , \"i\"" else "") ++ " )"))
  | .lang => .ok (("LANGMATCHES( LANG(" ++ ref ++ ") , ") ++ operand p v ++ " )")
  | .compare c => .ok ((ref ++ " " ++ c.sign ++ " ") ++ operand p v)

def membership (p : Prefixes) (ref : String) (values : List Value) (negated : Bool) : Fragment :=
  if values.isEmpty then .ofText (if negated then "true" else "false")
  else
    (ref ++ (if negated then " NOT IN ( " else " IN ( ")) ++
      Fragment.join " , " (values.map (operand p)) ++ " )"

def range (p : Prefixes) (ref : String) (r : Between) : Fragment :=
  let low := operand p r.low
  let high := operand p r.high
  if r.negated then ("( " ++ ref ++ " < ") ++ low ++ (" || " ++ ref ++ " > ") ++ high ++ " )"
  else ("( " ++ ref ++ " >= ") ++ low ++ (" && " ++ ref ++ " <= ") ++ high ++ " )"

end Write

namespace Compile

/-- Where a block stands: its prefixes, whether its tests are folded, and whether it is the
outermost one, whose patterns serve the other clauses as well. -/
structure Place where
  prefixes : Prefixes
  folded : Bool
  top : Bool

def Place.atTop (l : Place) (predicate : String) : Compile Unit :=
  if l.top then emit predicate else pure ()

def columnPattern (l : Place) (c : Column) (optional : Bool) : Compile Clauses :=
  match c.predicate with
  | none => return .empty
  | some predicate => do
    let pattern ← pattern predicate (.ofText c.ref)
    l.atTop predicate
    return .ofPattern (optionally optional pattern)

def columnTest (l : Place) (c : Column) (optional : Bool) (connector : Connector)
    (expression : Fragment) : Compile Clauses := do
  return (← columnPattern l c optional).append (.ofTest connector expression)

def basic (l : Place) (column : Value) (operator : String) (value : Value)
    (connector : Connector) : Compile Clauses := do
  let c ← resolve l.prefixes column
  let o ← Operator.read (.text operator)
  match o, c.predicate, l.folded with
  | .compare .eq, some predicate, false =>
    return .ofPattern (← pattern predicate (Write.operand l.prefixes value))
  | _, _, _ =>
    let e ← Write.test l.prefixes c.ref o value column
    columnTest l c l.folded connector e

def notNull (l : Place) (column : Value) (connector : Connector) : Compile Clauses := do
  let c ← resolve l.prefixes column
  if l.folded || c.predicate.isNone then
    columnTest l c l.folded connector (.ofText ("BOUND(" ++ c.ref ++ ")"))
  else columnPattern l c false

/-- An equality is a pattern from the subject along the path to the value; any other test, and
every test of a folded block, reaches a variable along the path. -/
def path (l : Place) (path : String) (o : Operator) (value : Value) (connector : Connector) :
    Compile Clauses := do
  let text ← Path.expand l.prefixes path
  let subject := (← get).subject
  let along (object : Fragment) : Fragment := (subject ++ " " ++ text ++ " ") ++ object ++ " ."
  if o = .compare .eq && !l.folded then
    return .ofPattern (along (Write.nodeOperand l.prefixes value))
  else
    let ref ← variableFor text (Path.hint text)
    let e ← Write.test l.prefixes ref o value (.text path)
    return ⟨[optionally l.folded (along (.ofText ref))], [⟨connector, e⟩]⟩

def groupText (p : Prefixes) (kind : GroupKind) (inner : Fragment) : Outcome Fragment :=
  match kind with
  | .group => .ok inner.inBraces
  | .optional => .ok ("OPTIONAL " ++ inner.inBraces)
  | .minus => .ok ("MINUS " ++ inner.inBraces)
  | .service target =>
    if target.truth then .ok (("SERVICE " ++ wrap p target ++ " ") ++ inner.inBraces)
    else CompilationError.fail .serviceNeedsEndpoint

mutual

def condition (l : Place) : Condition → Compile Clauses
  | .basic column operator value connector => basic l column operator value connector
  | .within column values connector negated => do
    let c ← resolve l.prefixes column
    columnTest l c l.folded connector (Write.membership l.prefixes c.ref values negated)
  | .between r => do
    let c ← resolve l.prefixes r.column
    columnTest l c l.folded r.connector (Write.range l.prefixes c.ref r)
  | .null column connector => do
    let c ← resolve l.prefixes column
    columnTest l c true connector (.ofText ("!BOUND(" ++ c.ref ++ ")"))
  | .notNull column connector => notNull l column connector
  | .raw pattern => return .ofPattern pattern
  | .filter expression connector => return .ofTest connector ("( " ++ expression ++ " )")
  | .triple subject pred object => return .ofPattern (Write.triple l.prefixes subject pred object)
  | .group kind conditions => do
    let folded ← isFolded conditions
    let inner ← all ⟨l.prefixes, folded, false⟩ conditions
    let text ← groupText l.prefixes kind (inner.fragment folded)
    return .ofPattern text
  | .union branches => do
    let parts ← blocks l.prefixes branches
    return .ofPattern (.join " UNION " (parts.map Fragment.inBraces))
  | .exists conditions connector negated => do
    let folded ← isFolded conditions
    let inner ← all ⟨l.prefixes, folded, false⟩ conditions
    return .ofTest connector
      ((if negated then "NOT EXISTS " else "EXISTS ") ++ (inner.fragment folded).inBraces)
  | .path p o value connector => path l p o value connector
  | .stray order => do
    let _ ← resolve l.prefixes order.column
    (CompilationError.fail (.strayNode order.display) : Outcome Clauses)

def all (l : Place) : List Condition → Compile Clauses
  | [] => return .empty
  | c :: cs => do
    let a ← condition l c
    let b ← all l cs
    return a.append b

def blocks (p : Prefixes) : List (List Condition) → Compile (List Fragment)
  | [] => return []
  | b :: bs => do
    let folded ← isFolded b
    let inner ← all ⟨p, folded, false⟩ b
    let rest ← blocks p bs
    return inner.fragment folded :: rest

end

def block (p : Prefixes) (conditions : List Condition) : Compile Fragment := do
  let folded ← isFolded conditions
  let clauses ← all ⟨p, folded, true⟩ conditions
  return clauses.fragment folded

end Compile

end SparqlClient
