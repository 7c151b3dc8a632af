import SparqlClient.Text.Word
import SparqlClient.Term.Shape
import SparqlClient.Value.Use

/-! Names of the namespaces of a store: letters, digits, underscores and hyphens of ASCII, where
one line end may follow. Everything else is refused. -/

namespace SparqlClient.Namespace

open Text Shape

def isNameChar (c : Char) : Bool := isAsciiWord c || c = '-'

def isName (s : String) : Bool :=
  match s.toList with
  | c :: rest => isNameChar c && atEnd (rest.dropWhile isNameChar)
  | [] => false

def validate (v : Value) : Outcome String :=
  match v.chars? with
  | some s => if isName s then .ok s else ConfigurationError.fail (.invalidNamespace v.display)
  | none => do
    let _ ← v.written
    ConfigurationError.fail (.invalidNamespace v.display)

theorem isName_of_validate {v : Value} {s : String} (h : validate v = .ok s) :
    v.chars? = some s ∧ isName s := by
  unfold validate at h
  split at h
  · split at h
    · obtain rfl := Except.ok.inj h
      exact ⟨‹_›, ‹_›⟩
    · simp [ConfigurationError.fail] at h
  · cases own : v.written <;> simp [own, bind, Except.bind, ConfigurationError.fail] at h

end SparqlClient.Namespace
