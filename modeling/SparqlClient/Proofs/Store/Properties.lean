import SparqlClient.Proofs.Store.Endpoints
import SparqlClient.Store.Admin

/-! The text that creates a namespace, read as a file of properties: a key, an equals sign and a
value on a line, where blanks around the key do not count and of several values of a key the last
is in force. Main statement: what each property of the caller brings is read on its own, so that
the namespace has the name that was asked for and no other, unless a line of a property gives it
one. -/

namespace SparqlClient

open Text

namespace Properties

def isLineEnd (c : Char) : Bool := c = '\n' || c = '\r'

def assignment? (line : List Char) : Option (String × String) :=
  (cutAt (· == '=') line).map fun (key, value) =>
    (String.ofList (trimBy isBlank key), String.ofList value)

def valuesOf (key text : String) : List String :=
  ((piecesBy isLineEnd text.toList).filterMap assignment?).filterMap fun (k, v) =>
    if k = key then some v else none

def value? (key text : String) : Option String := (valuesOf key text).getLast?

theorem valuesOf_append (key s t : String) :
    valuesOf key (s ++ "\n" ++ t) = valuesOf key s ++ valuesOf key t := by
  have lines : (s ++ "\n" ++ t).toList = s.toList ++ '\n' :: t.toList := by simp
  rw [valuesOf, lines, piecesBy_append rfl, List.filterMap_append, List.filterMap_append]
  rfl

theorem valuesOf_intercalate (key line : String) (lines : List String) :
    valuesOf key (String.intercalate "\n" (line :: lines)) =
      (line :: lines).flatMap (valuesOf key) := by
  induction lines generalizing line with
  | nil => simp
  | cons next rest ih =>
    rw [String.intercalate_cons_cons, valuesOf_append, ih, ← List.flatMap_cons]

theorem valuesOf_line {key k v : String} (apart : '=' ∉ k.toList)
    (keyLine : ∀ c ∈ k.toList, isLineEnd c = false)
    (valueLine : ∀ c ∈ v.toList, isLineEnd c = false) :
    valuesOf key (k ++ "=" ++ v) = if trim k = key then [v] else [] := by
  have text : (k ++ "=" ++ v).toList = k.toList ++ '=' :: v.toList := by simp
  have whole : ∀ c ∈ k.toList ++ '=' :: v.toList, isLineEnd c = false := by
    simp only [List.mem_append, List.mem_cons]
    rintro c (own | rfl | own)
    · exact keyLine c own
    · rfl
    · exact valueLine c own
  have read : assignment? (k.toList ++ '=' :: v.toList) = some (trim k, v) := by
    rw [assignment?, cutAt_append (notMem_iff_beq.1 apart) (beq_self_eq_true '=')]
    simp only [Option.map_some, String.ofList_toList, trim, trimOf]
  rw [valuesOf, text, piecesBy_eq_singleton whole]
  simp only [List.filterMap_cons, read, List.filterMap_nil]
  split <;> simp_all

end Properties

namespace Admin

open Properties

def propertyText (e : Value × Value) : String := e.1.plainText ++ "=" ++ e.2.plainText

/-- A property that is written and gives the namespace another name on one of its lines. -/
def Redirects (name : String) (e : Value × Value) : Prop :=
  e.1.sameKey (.text namespaceProperty) = false ∧
    ∃ v ∈ valuesOf namespaceProperty (propertyText e), v ≠ name

instance (name : String) (e : Value × Value) : Decidable (Redirects name e) :=
  inferInstanceAs (Decidable (_ ∧ _))

theorem not_redirects_of_line {name k v : String} (apart : '=' ∉ k.toList)
    (keyLine : ∀ c ∈ k.toList, isLineEnd c = false)
    (valueLine : ∀ c ∈ v.toList, isLineEnd c = false)
    (other : trim k = namespaceProperty → k = namespaceProperty) :
    ¬Redirects name (.text k, .text v) := by
  rintro ⟨written, x, given, -⟩
  rw [propertyText, Value.plainText_text, Value.plainText_text,
    valuesOf_line apart keyLine valueLine] at given
  split at given
  · rename_i own
    rw [Value.sameKey_text_iff.2 (congrArg Value.text (other own))] at written
    cases written
  · cases given

theorem valuesOf_propertyLines {name : String} (plain : Namespace.IsPlain name) (es : Entries) :
    valuesOf namespaceProperty (String.intercalate "\n" (propertyLines name es)) =
      name :: (es.filter fun e => !e.1.sameKey (.text namespaceProperty)).flatMap fun e =>
        valuesOf namespaceProperty (propertyText e) := by
  have line : ∀ c ∈ name.toList, isLineEnd c = false := by
    intro c hc
    simp [isLineEnd, plain.ne_of_mem hc (d := '\n') (by decide),
      plain.ne_of_mem hc (d := '\r') (by decide)]
  have first : valuesOf namespaceProperty (namespaceProperty ++ "=" ++ name) = [name] := by
    rw [valuesOf_line (by decide) (by decide) line, if_pos (by decide)]
  rw [propertyLines, valuesOf_intercalate, List.flatMap_cons, first, List.flatMap_map]
  rfl

theorem forall_values_iff {name : String} (plain : Namespace.IsPlain name) (es : Entries) :
    (∀ v ∈ valuesOf namespaceProperty (String.intercalate "\n" (propertyLines name es)), v = name) ↔
      ∀ e ∈ es, ¬Redirects name e := by
  simp only [valuesOf_propertyLines plain, List.forall_mem_cons, true_and, List.mem_flatMap,
    List.mem_filter, Bool.not_eq_true']
  constructor
  · rintro own e he ⟨written, v, given, other⟩
    exact other (own v ⟨e, ⟨he, written⟩, given⟩)
  · rintro kept v ⟨e, ⟨he, written⟩, given⟩
    by_cases own : v = name
    · exact own
    · exact absurd ⟨written, v, given, own⟩ (kept e he)

/-- The store is told the name that was asked for and no other just where no property of the caller
gives another name on a line of its own. -/
theorem name_of_created {name : String} (plain : Namespace.IsPlain name) (endpoint : String)
    (timeout : Value) (es : Entries) :
    ∃ r body, request .blazegraph endpoint (.text name) timeout (.create (.map es)) = .ok r ∧
      r.method = "POST" ∧ r.payload = .octets body ∧
      ((value? namespaceProperty body = some name ∧
          ∀ v ∈ valuesOf namespaceProperty body, v = name) ↔
        ∀ e ∈ es, ¬Redirects name e) := by
  have given : propertyFields (.map es) = .ok es := by
    cases es <;> rfl
  have created : createInPath endpoint name (.map es) timeout =
      .ok (.upload "POST" (Vendor.serviceRoot endpoint ++ "/namespace") timeout
        (String.intercalate "\n" (propertyLines name es)) "text/plain") := by
    rw [createInPath, given]
    rfl
  have sent : request .blazegraph endpoint (.text name) timeout (.create (.map es)) =
      createInPath endpoint name (.map es) timeout := by
    rw [request, plain.validate]
    rfl
  refine ⟨_, _, sent.trans created, rfl, rfl, ?_⟩
  rw [← forall_values_iff plain es, and_iff_right_iff_imp]
  intro own
  rw [value?, List.getLast?_eq_some_getLast (by rw [valuesOf_propertyLines plain]; simp)]
  exact congrArg some (own _ (List.getLast_mem _))

theorem name_of_created_harmless : ∃ r body, Namespace.IsPlain "kb" ∧
    request .blazegraph "http://h/blazegraph/sparql" (.text "kb") .null
      (.create (.map [(.text namespaceProperty, .text "other"), (.text "quads", .text "a=b"),
        (.text "x", .text "1\ny=2")])) = .ok r ∧
    r.payload = .octets body ∧ value? namespaceProperty body = some "kb" ∧
    ∀ v ∈ valuesOf namespaceProperty body, v = "kb" := by
  have plain : Namespace.IsPlain "kb" := ⟨by decide, by decide⟩
  obtain ⟨r, body, sent, -, payload, named⟩ :=
    name_of_created plain "http://h/blazegraph/sparql" .null
      [(.text namespaceProperty, .text "other"), (.text "quads", .text "a=b"),
        (.text "x", .text "1\ny=2")]
  have kept := named.2 (by decide +kernel)
  exact ⟨r, body, plain, sent, payload, kept.1, kept.2⟩

def Brings (key text other : String) : Prop :=
  ∃ r body, request .blazegraph "http://h/blazegraph/sparql" (.text "kb") .null
      (.create (.map [(.text key, .text text)])) = .ok r ∧
    r.payload = .octets body ∧ value? namespaceProperty body = some other ∧ other ≠ "kb"

/-- Blanks around the key, an equals sign in it and a line end in a value each bring another name. -/
theorem exists_redirected : Brings " com.bigdata.rdf.sail.namespace" "other" "other" ∧
    Brings "com.bigdata.rdf.sail.namespace=other" "" "other=" ∧
    Brings "x" "1\ncom.bigdata.rdf.sail.namespace=other" "other" :=
  ⟨⟨_, _, rfl, rfl, by decide +kernel, by decide⟩, ⟨_, _, rfl, rfl, by decide +kernel, by decide⟩,
    ⟨_, _, rfl, rfl, by decide +kernel, by decide⟩⟩

end Admin

end SparqlClient
