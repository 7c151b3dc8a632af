import SparqlClient.Binding.Named
import SparqlClient.Binding.Value

/-! Query text under construction. A fragment is a piece of text together with the values of its
placeholders, in the order of the placeholders. Fragments are put together from left to right,
and so are their values. A whole query is a fragment as well. -/

namespace SparqlClient

structure Fragment where
  text : String
  bindings : List Value

namespace Fragment

def ofText (s : String) : Fragment := ⟨s, []⟩

def empty : Fragment := ofText ""

def placeholder (v : Value) : Fragment := ⟨"?", [v]⟩

instance : Append Fragment := ⟨fun a b => ⟨a.text ++ b.text, a.bindings ++ b.bindings⟩⟩

instance : HAppend String Fragment Fragment := ⟨fun s f => ⟨s ++ f.text, f.bindings⟩⟩

instance : HAppend Fragment String Fragment := ⟨fun f s => ⟨f.text ++ s, f.bindings⟩⟩

@[simp] theorem text_ofText (s : String) : (ofText s).text = s := rfl

@[simp] theorem bindings_ofText (s : String) : (ofText s).bindings = [] := rfl

@[simp] theorem text_append (a b : Fragment) : (a ++ b).text = a.text ++ b.text := rfl

@[simp] theorem bindings_append (a b : Fragment) :
    (a ++ b).bindings = a.bindings ++ b.bindings := rfl

@[simp] theorem text_before (s : String) (f : Fragment) : (s ++ f).text = s ++ f.text := rfl

@[simp] theorem bindings_before (s : String) (f : Fragment) :
    (s ++ f).bindings = f.bindings := rfl

@[simp] theorem text_after (f : Fragment) (s : String) : (f ++ s).text = f.text ++ s := rfl

@[simp] theorem bindings_after (f : Fragment) (s : String) : (f ++ s).bindings = f.bindings := rfl

def join (sep : String) (parts : List Fragment) : Fragment :=
  ⟨String.intercalate sep (parts.map text), parts.flatMap bindings⟩

@[simp] theorem text_join (sep : String) (parts : List Fragment) :
    (join sep parts).text = String.intercalate sep (parts.map text) := rfl

@[simp] theorem bindings_join (sep : String) (parts : List Fragment) :
    (join sep parts).bindings = parts.flatMap bindings := rfl

/-- Parts without text take no place between separators. -/
def joinPresent (sep : String) (parts : List Fragment) : Fragment :=
  ⟨String.intercalate sep ((parts.map text).filter (· ≠ "")), parts.flatMap bindings⟩

def inBraces (f : Fragment) : Fragment := ⟨Text.inBraces f.text, f.bindings⟩

@[simp] theorem bindings_inBraces (f : Fragment) : f.inBraces.bindings = f.bindings := rfl

def ofCaller (text : String) (values : Value) : Outcome Fragment :=
  (positional text values).map fun (t, vs) => ⟨t, vs⟩

def bound (prefixes : Option Prefixes) (f : Fragment) : Outcome String :=
  bindValues prefixes f.text f.bindings

end Fragment

end SparqlClient
