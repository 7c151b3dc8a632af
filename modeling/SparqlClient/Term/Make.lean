import SparqlClient.Term.Shape
import SparqlClient.Value.Use

/-! Making terms: from the parts a caller names, and from nodes of a graph. Only a string may
carry a language or a datatype, and never both. -/

namespace SparqlClient

namespace Term

open Text Shape

def check (t : Term) : Outcome Term :=
  if (t.lang.truth || t.datatype.truth) && t.kind ≠ .string then
    CompilationError.fail (.annotatedNonString t.kind)
  else if t.lang.truth && t.datatype.truth then CompilationError.fail .langAndDatatype
  else .ok t

theorem check_eq_ok {t u : Term} (h : t.check = .ok u) : u = t := by
  rw [check] at h
  split at h
  · simp [CompilationError.fail] at h
  · split at h
    · simp [CompilationError.fail] at h
    · exact (Except.ok.inj h).symm

def iri (v : Value) : Term :=
  ofText .iri (trimOf (fun c => c = '<' || c = '>') v.plainText)

def var (name : String) : Term := ofText .variable (withMark name)

def withBlankMark (label : String) : String :=
  if startsWith label "_:" then label else "_:" ++ label

def bnode (label : String) : Term := ofText .blank (withBlankMark label)

def raw (v : Value) : Term := plain .raw v

/-- Booleans and bare numbers keep their value; everything else becomes a string. -/
def literal (v lang datatype : Value) : Outcome Term :=
  match v with
  | .bool _ => .ok (plain .boolean v)
  | .int _ | .float _ | .decimal _ =>
    if lang.truth || datatype.truth then check ⟨.string, .text v.plainText, lang, datatype⟩
    else .ok (plain .numeric v)
  | _ => check ⟨.string, .text v.plainText, lang, datatype⟩

inductive NumericRange
  | whole | decimal | floating
  deriving DecidableEq

def numericRange? (datatype : String) : Option NumericRange :=
  if ["integer", "int", "long", "short", "nonNegativeInteger", "positiveInteger"].any
      fun n => xsd n == datatype then some .whole
  else if datatype == xsd "decimal" then some .decimal
  else if datatype == xsd "double" || datatype == xsd "float" then some .floating
  else none

def smallPart : Value → Outcome Int
  | .bool b => .ok (if b then 1 else 0)
  | .int n =>
    if n.natAbs < Nat.pow 2 63 || n = -(Nat.pow 2 63 : Nat) then .ok n else Misuse.fail .overflow
  | _ => Misuse.fail .badValue

def digitPart (v : Value) : Outcome Nat := do
  let n ← smallPart v
  if 0 ≤ n && n ≤ 9 then return n.toNat else Misuse.fail .badValue

/-- A decimal by its parts: nought or one for the sign, the digits, and the power of ten or the
letter of a value that is not finite. -/
def decimalOfParts : List Value → Outcome Decimal
  | [sign, digits, scale] => do
    let sign ← smallPart sign
    if sign ≠ 0 && sign ≠ 1 then Misuse.fail .badValue
    let make : Bool → List Nat → Decimal ← match scale with
      | .text "F" => pure fun negative _ => .infinite negative
      | .text "n" => pure (missing false)
      | .text "N" => pure (missing true)
      | v => do
        let place ← smallPart v
        pure fun negative ds => .finite negative (ds.foldl (· * 10 + ·) 0) place
    let ds ← match digits with
      | .list ds => ds.mapM digitPart
      | _ => Misuse.fail .badValue
    let d := make (sign = 1) ds
    if d.isKept then return d else Misuse.fail .undefinedOperation
  | _ => Misuse.fail .badValue
where
  missing (signaling negative : Bool) (ds : List Nat) : Decimal :=
    .nan negative signaling (String.join ((ds.dropWhile (· = 0)).map natText))

def NumericRange.read (r : NumericRange) (v : Value) : Outcome Value :=
  match r with
  | .whole => v.whole.map .int
  | .floating => v.float?.map .float
  | .decimal => match v with
    | .decimal d => .ok (.decimal d)
    | .bool b => .ok (.decimal (.ofInt (if b then 1 else 0)))
    | .int n => .ok (.decimal (.ofInt n))
    | v => match v.chars? with
      | some s => match Numeral.decimal? s with
        | some d => .ok (.decimal d)
        | none => Misuse.fail .undefinedOperation
      | none => match v with
        | .float x => .ok (.decimal (Value.exactDecimal x))
        | .list parts => (decimalOfParts parts).map .decimal
        | _ => Misuse.fail .wrongType

def isTrueWord (s : String) : Bool :=
  let w := lower (trim s)
  w == "true" || w == "1"

def ofNode : Node → Term
  | .uri t => ofText (if isUrn t then .urn else .iri) t
  | .blank t => bnode t
  | .variable t => var t
  | .literal t lang datatype =>
    match datatype.bind numericRange? with
    | some r => match r.read (.text t) with
      | .ok v => plain .numeric v
      | .error _ => ⟨.string, .text t, .null, .ofText? datatype⟩
    | none =>
      if datatype = some (xsd "boolean") then plain .boolean (.bool (isTrueWord t))
      else match lang.filter (· ≠ "") with
        | some l => ⟨.string, .text t, .text l, .null⟩
        | none => ⟨.string, .text t, .null, .ofText? datatype⟩

def ofNodeValue : Value → Outcome Term
  | .node n => .ok (ofNode n)
  | _ => Misuse.fail .wrongType

end Term

end SparqlClient
