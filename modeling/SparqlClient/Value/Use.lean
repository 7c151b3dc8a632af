import SparqlClient.Error
import SparqlClient.Value.Display

/-! How a value is used where a particular kind is wanted: as a truth, a whole number, a
floating number, a collection to walk through, a mapping. A value that has no such use fails
with the kind of misuse. -/

namespace SparqlClient

def xsd (name : String) : String := "http://www.w3.org/2001/XMLSchema#" ++ name

namespace Node

def wholeDatatypes : List String :=
  ["integer", "int", "long", "short", "nonNegativeInteger", "positiveInteger",
    "nonPositiveInteger", "negativeInteger", "unsignedLong", "unsignedInt", "byte",
    "unsignedShort", "unsignedByte"].map xsd

/-- Literals are the same whatever the letter case of their language. -/
def same : Node → Node → Bool
  | .literal s l d, .literal t m e => s == t && l.map Text.lower == m.map Text.lower && d == e
  | n, m => n == m

def durationDatatypes : List String :=
  ["duration", "dayTimeDuration", "yearMonthDuration"].map xsd

/-- A literal is false if it denotes zero or the false boolean, and so is any empty node. -/
def truth : Node → Bool
  | .literal t _ (some d) =>
    if d == xsd "boolean" then t == "true"
    else if wholeDatatypes.contains d then ((Numeral.int? t).map (· != 0)).getD (t != "")
    else if d == xsd "decimal" then ((Numeral.decimal? t).map (!·.isZero)).getD (t != "")
    else if d == xsd "double" || d == xsd "float" then
      ((Numeral.float? t).map (· != 0.0)).getD (t != "")
    else if durationDatatypes.contains d then t != "" && t != "P0D"
    else t != ""
  | n => n.text != ""

end Node

namespace Value

def truth : Value → Bool
  | .null => false
  | .bool b => b
  | .int n => n != 0
  | .float x => x != 0.0
  | .decimal d => !d.isZero
  | .text s => s != ""
  | .octets s => s != ""
  | .list items => !items.isEmpty
  | .map entries => !entries.isEmpty
  | .node n => n.truth
  | _ => true

theorem isNull_of_truth {v : Value} (h : v.truth) : v.isNull = false := by
  cases v with
  | null => cases h
  | _ => rfl

/-- The levels of values within values that there is room for. -/
def maxNesting : Nat := 990

mutual

/-- The first thing that stands against a text: a whole number with too many digits, or a value
for which no level is left. -/
def textFault? (levels : Nat) : Value → Option Misuse
  | .int n => if n.natAbs < Nat.pow 10 Numeral.maxDigits then none else some .badValue
  | .list items => textFaultIn? levels items
  | .map entries => textFaultInEntries? levels entries
  | .term _ value lang datatype => match levels with
    | 0 => some .tooDeep
    | levels + 1 =>
      ((textFault? levels value).or (textFault? levels lang)).or (textFault? levels datatype)
  | _ => none

def textFaultIn? : (levels : Nat) → List Value → Option Misuse
  | _, [] => none
  | 0, _ :: _ => some .tooDeep
  | levels + 1, v :: vs => (textFault? levels v).or (textFaultIn? (levels + 1) vs)

def textFaultInEntries? : (levels : Nat) → List (Value × Value) → Option Misuse
  | _, [] => none
  | 0, _ :: _ => some .tooDeep
  | levels + 1, (k, v) :: es =>
    ((textFault? levels k).or (textFault? levels v)).or (textFaultInEntries? (levels + 1) es)

end

/-- Nothing stands against the texts of a value. Deep within other calls there is room for fewer
levels than are counted here. -/
def hasText (v : Value) : Bool := (v.textFault? maxNesting).isNone

@[simp] theorem hasText_null : Value.null.hasText = true := by simp [hasText, textFault?]

@[simp] theorem hasText_text (s : String) : (Value.text s).hasText = true := by
  simp [hasText, textFault?]

@[simp] theorem hasText_node (n : Node) : (Value.node n).hasText = true := by
  simp [hasText, textFault?]

def written (v : Value) : Outcome String :=
  match v.textFault? maxNesting with
  | none => .ok v.plainText
  | some kind => Misuse.fail kind

theorem written_of_hasText {v : Value} (h : v.hasText) : v.written = .ok v.plainText := by
  rw [hasText, Option.isNone_iff_eq_none] at h
  rw [written, h]

theorem written_of_not_hasText {v : Value} (h : ¬v.hasText) :
    ∃ kind, v.written = .error (.misuse kind) := by
  cases fault : v.textFault? maxNesting with
  | none => exact absurd (Option.isNone_iff_eq_none.2 fault) h
  | some kind => exact ⟨kind, by rw [written, fault]; rfl⟩

def floatWhole? (x : Float) : Option Int :=
  let b := Shortest.bitsOf x
  if b.biased = 2047 then none
  else
    let m := if b.biased = 0 then b.fraction else Nat.pow 2 52 + b.fraction
    let q : Int := (if b.biased = 0 then 1 else b.biased : Nat) - 1075
    let size := if 0 ≤ q then m * Nat.pow 2 q.toNat else m / Nat.pow 2 (-q).toNat
    some (if b.negative then -size else size)

def exactDecimal (x : Float) : Decimal :=
  let b := Shortest.bitsOf x
  if b.biased = 2047 then
    if b.fraction = 0 then .infinite b.negative else .nan false false ""
  else
    let m := if b.biased = 0 then b.fraction else Nat.pow 2 52 + b.fraction
    let q : Int := (if b.biased = 0 then 1 else b.biased : Nat) - 1075
    let common := Nat.gcd m (Nat.pow 2 (-q).toNat)
    let places := Nat.log2 (Nat.pow 2 (-q).toNat / common)
    .finite b.negative (m * Nat.pow 2 q.toNat / common * Nat.pow 5 places) (-places)

def ascii? (s : String) : Option String := if s.toList.all (·.toNat < 128) then some s else none

def whole : Value → Outcome Int
  | .bool b => .ok (if b then 1 else 0)
  | .int n => .ok n
  | .float x => match floatWhole? x with
    | some n => .ok n
    | none => if x == x then Misuse.fail .overflow else Misuse.fail .badValue
  | .decimal d => match d with
    | .finite .. => .ok (d.truncate?.getD 0)
    | .infinite _ => Misuse.fail .overflow
    | .nan .. => Misuse.fail .badValue
  | .text s => match Numeral.int? s with
    | some n => .ok n
    | none => Misuse.fail .badValue
  | .octets s => match (ascii? s).bind Numeral.int? with
    | some n => .ok n
    | none => Misuse.fail .badValue
  | .node n => match Numeral.int? n.text with
    | some n => .ok n
    | none => Misuse.fail .badValue
  | _ => Misuse.fail .wrongType

def floatOfInt (n : Int) : Float :=
  let x := Numeral.floatOf n.natAbs 0
  if n < 0 then -x else x

def float? : Value → Outcome Float
  | .bool b => .ok (if b then 1.0 else 0.0)
  | .int n =>
    let x := floatOfInt n
    if x.isInf then Misuse.fail .overflow else .ok x
  | .float x => .ok x
  | .decimal d => match d with
    | .finite negative digits exponent =>
      let x := Numeral.floatOf digits exponent
      .ok (if negative then -x else x)
    | .infinite negative => .ok (if negative then -(1.0 / 0.0) else 1.0 / 0.0)
    | .nan _ signaling _ => if signaling then Misuse.fail .badValue else .ok (0.0 / 0.0)
  | .text s => match Numeral.float? s with
    | some x => .ok x
    | none => Misuse.fail .badValue
  | .octets s => match (ascii? s).bind Numeral.float? with
    | some x => .ok x
    | none => Misuse.fail .badValue
  | .node n => match Numeral.float? n.text with
    | some x => .ok x
    | none => Misuse.fail .badValue
  | _ => Misuse.fail .wrongType

def letters (s : String) : List Value := s.toList.map fun c => .text (String.singleton c)

def members : Value → Outcome (List Value)
  | .list items => .ok items
  | .map entries => .ok (entries.map Prod.fst)
  | .text s => .ok (letters s)
  | .node n => .ok (letters n.text)
  | .octets s => .ok ((s.toList.flatMap String.utf8EncodeChar).map fun b => .int b.toNat)
  | _ => Misuse.fail .wrongType

@[simp] theorem members_list (items : List Value) : (Value.list items).members = .ok items := rfl

def triple (v : Value) : Outcome (Value × Value × Value) := do
  match ← v.members with
  | [a, b, c] => return (a, b, c)
  | _ => Misuse.fail .badValue

def number? : Value → Option Decimal
  | .bool b => some (.ofInt (if b then 1 else 0))
  | .int n => some (.ofInt n)
  | .float x => some (exactDecimal x)
  | .decimal d => some d
  | _ => none

/-- Whether two keys of a mapping are the same key. Numbers agree by value, moments as points of
time. -/
def sameKey : Value → Value → Bool
  | .text a, .text b => a == b
  | .node a, .node b => a.same b
  | .null, .null => true
  | .date a, .date b => a == b
  | .moment a, .moment b => a.same b
  | .clock a, .clock b => a.same b
  | .octets a, .octets b => a == b
  | .term k v l d, .term k' v' l' d' => k == k' && v.sameKey v' && l.sameKey l' && d.sameKey d'
  | a, b => match a.number?, b.number? with
    | some x, some y => x.order? y == some .eq
    | _, _ => false

theorem sameKey_text_iff {k : Value} {s : String} : k.sameKey (.text s) ↔ k = .text s := by
  cases k <;> simp [sameKey, number?]

def canBeKey : Value → Bool
  | .list _ => false
  | .map _ => false
  | .decimal (.nan _ signaling _) => !signaling
  | .term _ v l d => v.canBeKey && l.canBeKey && d.canBeKey
  | _ => true

def checkedKey (v : Value) : Outcome Value :=
  if v.canBeKey then .ok v else Misuse.fail .wrongType

end Value

def onlyText (v : Value) : Outcome String :=
  match v with
  | .octets _ => Misuse.fail .wrongType
  | v => match v.chars? with
    | some s => .ok s
    | none => Misuse.fail .noMember

/-- Entries in the order of first insertion; a later value for a key takes the earlier place. -/
abbrev Entries := List (Value × Value)

namespace Entries

def insert : Entries → Value → Value → Entries
  | [], k, v => [(k, v)]
  | (k', v') :: es, k, v =>
    if k'.sameKey k then (k', v) :: es else (k', v') :: insert es k v

def get? (es : Entries) (k : String) : Option Value :=
  (es.find? fun e => e.1.sameKey (.text k)).map Prod.snd

def get (es : Entries) (k : String) : Value := (es.get? k).getD .null

def erase (es : Entries) (k : String) : Entries := es.filter fun e => !e.1.sameKey (.text k)

theorem map_fst_insert (es : Entries) (k v w : Value) :
    (es.insert k v).map Prod.fst = (es.insert k w).map Prod.fst := by
  induction es with
  | nil => rfl
  | cons e es ih =>
    obtain ⟨k', x⟩ := e
    rw [insert, insert]
    split
    · rfl
    · rw [List.map_cons, List.map_cons, ih]

theorem get_cons_of_same {k v : Value} {s : String} (same : k.sameKey (.text s)) (es : Entries) :
    Entries.get ((k, v) :: es) s = v := by
  simp [get, get?, same]

theorem get_cons_of_other {k v : Value} {s : String} (other : ¬k.sameKey (.text s))
    (es : Entries) : Entries.get ((k, v) :: es) s = es.get s := by
  simp [get, get?, other]

theorem get_insert_self (es : Entries) (s : String) (v : Value) :
    Entries.get (es.insert (.text s) v) s = v := by
  induction es with
  | nil => exact get_cons_of_same (Value.sameKey_text_iff.2 rfl) []
  | cons e es ih =>
    obtain ⟨k, w⟩ := e
    rw [insert]
    split
    · rename_i same
      exact get_cons_of_same same es
    · rename_i other
      rw [get_cons_of_other other, ih]

theorem get_insert_of_ne (es : Entries) {s name : String} (ne : s ≠ name) (v : Value) :
    Entries.get (es.insert (.text s) v) name = es.get name := by
  have apart : ¬(Value.text s).sameKey (.text name) := fun same =>
    ne (Value.text.inj (Value.sameKey_text_iff.1 same))
  induction es with
  | nil => exact get_cons_of_other apart []
  | cons e es ih =>
    obtain ⟨k, w⟩ := e
    rw [insert]
    split
    · rename_i same
      obtain rfl := Value.sameKey_text_iff.1 same
      rw [get_cons_of_other apart, get_cons_of_other apart]
    · by_cases here : k.sameKey (.text name)
      · rw [get_cons_of_same here, get_cons_of_same here]
      · rw [get_cons_of_other here, get_cons_of_other here, ih]

theorem erase_insert (es : Entries) (s : String) (v : Value) :
    Entries.erase (es.insert (.text s) v) s = es.erase s := by
  induction es with
  | nil => simp [insert, erase, Value.sameKey]
  | cons e es ih =>
    obtain ⟨k', x⟩ := e
    rw [insert]
    split
    · rename_i same
      simp [erase, same]
    · rename_i other
      rw [erase, erase, List.filter_cons_of_pos (by simpa using other),
        List.filter_cons_of_pos (by simpa using other)]
      exact congrArg _ ih

end Entries

namespace Value

def entries : Value → Outcome Entries
  | .map es => .ok es
  | v => do
    let items ← v.members
    items.foldlM (fun es item => do
      match ← item.members with
      | [k, x] => return es.insert (← k.checkedKey) x
      | _ => Misuse.fail .badValue) []

def fields : Value → Outcome Entries
  | .map es => .ok es
  | _ => Misuse.fail .noMember

end Value

end SparqlClient
