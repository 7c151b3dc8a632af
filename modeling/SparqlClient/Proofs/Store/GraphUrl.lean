import Mathlib.Data.List.TakeWhile
import SparqlClient.Store.Vendor

/-! The URL of a graph: the endpoint with one more parameter in its query. Main statement: the value
of the parameter holds nothing that counts in a URL and is read as the name of the graph, and the
parameters of the endpoint are as they were. Hence no two graphs have the same URL. -/

namespace SparqlClient

open Text

namespace Url

/-! A component, as it is written and as it is read. -/

def IsSafe (c : Char) : Prop := c.isAlphanum ∨ c ∈ ['_', '.', '~', '-']

instance : DecidablePred IsSafe := fun c =>
  inferInstanceAs (Decidable (c.isAlphanum ∨ c ∈ ['_', '.', '~', '-']))

def hexDigits : List Char := "0123456789ABCDEF".toList

/-- Safe characters, and octets in two digits behind a percent sign. -/
inductive IsComponent : List Char → Prop
  | nil : IsComponent []
  | plain {c : Char} {s : List Char} (safe : IsSafe c) (rest : IsComponent s) :
    IsComponent (c :: s)
  | octet {a b : Char} {s : List Char} (high : a ∈ hexDigits) (low : b ∈ hexDigits)
    (rest : IsComponent s) : IsComponent ('%' :: a :: b :: s)

/-- The octets of a component. A percent sign without two digits is a character like others. -/
def octets : List Char → List UInt8
  | '%' :: a :: b :: s =>
    match hexNumber? [a, b] with
    | some n => UInt8.ofNat n :: octets s
    | none => String.utf8EncodeChar '%' ++ octets (a :: b :: s)
  | c :: s => String.utf8EncodeChar c ++ octets s
  | [] => []

/-- The text of a component, if its octets are one in UTF-8. -/
def decodeComponent? (s : String) : Option String :=
  String.fromUTF8? (octets s.toList).toByteArray

theorem isSafe_iff {c : Char} : isUnreserved c ↔ IsSafe c := by
  simp [isUnreserved, isAsciiWord, IsSafe, or_assoc]

theorem hexDigitUpper_mem : ∀ n < 16, hexDigitUpper n ∈ hexDigits := by decide

theorem IsComponent.append {s t : List Char} (first : IsComponent s) (second : IsComponent t) :
    IsComponent (s ++ t) := by
  induction first with
  | nil => exact second
  | plain safe _ ih => exact .plain safe ih
  | octet high low _ ih => exact .octet high low ih

theorem IsComponent.not_mem {s : List Char} (h : IsComponent s) {d : Char} (marked : ¬IsSafe d)
    (other : d ≠ '%') : d ∉ s := by
  have digit : ∀ c ∈ hexDigits, IsSafe c := by
    intro c member
    refine .inl ?_
    revert c
    decide
  induction h with
  | nil => exact List.not_mem_nil
  | plain safe _ ih =>
    rw [List.mem_cons, not_or]
    refine ⟨?_, ih⟩
    rintro rfl
    exact marked safe
  | octet high low _ ih =>
    simp only [List.mem_cons, not_or]
    refine ⟨other, ?_, ?_, ih⟩
    · rintro rfl
      exact marked (digit _ high)
    · rintro rfl
      exact marked (digit _ low)

def triple (b : UInt8) : List Char := '%' :: hex hexDigitUpper 2 b.toNat

theorem triple_eq (b : UInt8) :
    triple b = ['%', hexDigitUpper (b.toNat / 16 % 16), hexDigitUpper (b.toNat % 16)] := rfl

theorem octets_triple (b : UInt8) (s : List Char) : octets (triple b ++ s) = b :: octets s := by
  have number : hexNumber? (hex hexDigitUpper 2 b.toNat) = some b.toNat := by
    have small : b.toNat < Nat.pow 16 2 := b.toNat_lt
    rw [hexNumber?_hex, Nat.mod_eq_of_lt small]
  have digits : hexNumber? [hexDigitUpper (b.toNat / 16 % 16), hexDigitUpper (b.toNat % 16)] =
      some b.toNat := number
  rw [triple_eq]
  change octets ('%' :: _ :: _ :: s) = _
  rw [octets, digits]
  simp

theorem octets_cons {c : Char} (other : c ≠ '%') (s : List Char) :
    octets (c :: s) = String.utf8EncodeChar c ++ octets s := by
  rw [octets]
  rintro a b t rfl
  exact absurd rfl other

theorem octets_triples (bs : List UInt8) (s : List Char) :
    octets (bs.flatMap triple ++ s) = bs ++ octets s := by
  induction bs with
  | nil => rfl
  | cons b bs ih => rw [List.flatMap_cons, List.append_assoc, octets_triple, ih, List.cons_append]

theorem isComponent_triples (bs : List UInt8) : IsComponent (bs.flatMap triple) := by
  induction bs with
  | nil => exact .nil
  | cons b bs ih =>
    rw [List.flatMap_cons, triple_eq]
    exact .octet (hexDigitUpper_mem _ (Nat.mod_lt _ (by decide)))
      (hexDigitUpper_mem _ (Nat.mod_lt _ (by decide))) ih

theorem percentEncoded_cases (c : Char) :
    (IsSafe c ∧ percentEncoded c = [c]) ∨
      percentEncoded c = (String.utf8EncodeChar c).flatMap triple := by
  unfold percentEncoded
  split
  · rename_i safe
    exact .inl ⟨isSafe_iff.1 safe, rfl⟩
  · exact .inr rfl

theorem octets_percentEncoded (c : Char) (s : List Char) :
    octets (percentEncoded c ++ s) = String.utf8EncodeChar c ++ octets s := by
  rcases percentEncoded_cases c with ⟨safe, own⟩ | own
  · rw [own]
    refine octets_cons ?_ s
    rintro rfl
    exact absurd safe (by decide)
  · rw [own, octets_triples]

theorem octets_encoded (l : List Char) :
    octets (l.flatMap percentEncoded) = l.flatMap String.utf8EncodeChar := by
  induction l with
  | nil => rfl
  | cons c l ih => rw [List.flatMap_cons, octets_percentEncoded, ih, List.flatMap_cons]

theorem toList_encodeComponent (g : String) :
    (encodeComponent g).toList = g.toList.flatMap percentEncoded := String.toList_ofList

theorem isComponent_encodeComponent (g : String) : IsComponent (encodeComponent g).toList := by
  rw [toList_encodeComponent]
  induction g.toList with
  | nil => exact .nil
  | cons c l ih =>
    rw [List.flatMap_cons]
    refine IsComponent.append ?_ ih
    rcases percentEncoded_cases c with ⟨safe, own⟩ | own
    · rw [own]
      exact .plain safe .nil
    · rw [own]
      exact isComponent_triples _

theorem decodeComponent?_encodeComponent (g : String) :
    decodeComponent? (encodeComponent g) = some g := by
  have own : (g.toList.flatMap String.utf8EncodeChar).toByteArray = g.toByteArray :=
    String.utf8Encode_toList
  rw [decodeComponent?, toList_encodeComponent, octets_encoded, own, String.fromUTF8?,
    dif_pos g.isValidUTF8]
  rfl

/-! The parameters of a URL. -/

def query? (url : List Char) : Option (List Char) :=
  (cutAt (· == '?') (url.takeWhile (· ≠ '#'))).map Prod.snd

def parameter (s : List Char) : String × String :=
  match cutAt (· == '=') s with
  | some (name, value) => (String.ofList name, String.ofList value)
  | none => (String.ofList s, "")

def parameters (url : String) : List (String × String) :=
  match query? url.toList with
  | some query => (piecesBy (· == '&') query).map parameter
  | none => []

def withParameter (endpoint name value : String) : String :=
  endpoint ++ (if '?' ∈ endpoint.toList then "&" else "?") ++ name ++ "=" ++ value

theorem query?_append_of_fragment {e : List Char} (held : '#' ∈ e) (t : List Char) :
    query? (e ++ t) = query? e := by
  have stopped : (e ++ t).takeWhile (· ≠ '#') = e.takeWhile (· ≠ '#') := by
    rw [List.takeWhile_append, if_neg]
    intro whole
    have all := List.mem_takeWhile_imp ((List.takeWhile_prefix _).eq_of_length whole ▸ held)
    simp at all
  rw [query?, query?, stopped]

theorem query?_eq {e : List Char} (none : '#' ∉ e) :
    query? e = (cutAt (· == '?') e).map Prod.snd := by
  have whole : e.takeWhile (· ≠ '#') = e := by
    rw [List.takeWhile_eq_self_iff]
    intro c member
    have other : c ≠ '#' := fun own => none (own ▸ member)
    simpa using other
  rw [query?, whole]

theorem parameter_eq {name value : String} (named : '=' ∉ name.toList) :
    parameter (name.toList ++ '=' :: value.toList) = (name, value) := by
  have cut : cutAt (· == '=') (name.toList ++ '=' :: value.toList) =
      some (name.toList, value.toList) :=
    cutAt_append (notMem_iff_beq.1 named) (beq_self_eq_true _)
  simp only [parameter, cut, String.ofList_toList]

theorem toList_withParameter (endpoint name value : String) :
    (withParameter endpoint name value).toList =
      endpoint.toList ++ (if '?' ∈ endpoint.toList then '&' else '?') ::
        (name.toList ++ '=' :: value.toList) := by
  rw [withParameter]
  split <;> simp

/-- Behind a fragment there are no parameters; elsewhere there is one more. -/
theorem parameters_withParameter {endpoint name value : String}
    (named : ∀ d ∈ ['#', '&', '='], d ∉ name.toList) (own : IsComponent value.toList) :
    parameters (withParameter endpoint name value) =
      parameters endpoint ++ if '#' ∈ endpoint.toList then [] else [(name, value)] := by
  rw [parameters, parameters, toList_withParameter]
  by_cases held : '#' ∈ endpoint.toList
  · rw [query?_append_of_fragment held, if_pos held, List.append_nil]
  have delimiters : ∀ d ∈ ['#', '&'],
      d ∈ ['#', '&', '='] ∧ d ≠ '=' ∧ ¬IsSafe d ∧ d ≠ '%' := by decide
  have apart : ∀ d ∈ ['#', '&'], d ∉ name.toList ++ '=' :: value.toList := by
    intro d delimiter
    obtain ⟨listed, other, marked, unsigned⟩ := delimiters d delimiter
    simp [named d listed, other, own.not_mem marked unsigned]
  have single : piecesBy (· == '&') (name.toList ++ '=' :: value.toList) =
      [name.toList ++ '=' :: value.toList] :=
    piecesBy_eq_singleton (notMem_iff_beq.1 (apart '&' (by decide)))
  have last : parameter (name.toList ++ '=' :: value.toList) = (name, value) :=
    parameter_eq (named '=' (by decide))
  rw [if_neg held]
  generalize name.toList ++ '=' :: value.toList = added at *
  have line : '#' ∉ endpoint.toList ++ (if '?' ∈ endpoint.toList then '&' else '?') :: added := by
    have mark : '#' ≠ if '?' ∈ endpoint.toList then '&' else '?' := by split <;> decide
    simp [held, mark, apart]
  rw [query?_eq line, query?_eq held]
  cases cut : cutAt (· == '?') endpoint.toList with
  | none =>
    have unmarked := cutAt_eq_none_iff.1 cut
    rw [if_neg (notMem_iff_beq.2 unmarked), cutAt_append unmarked (beq_self_eq_true _)]
    simp [single, last]
  | some parts =>
    obtain ⟨front, query⟩ := parts
    have before := forall_not_of_cutAt cut
    obtain ⟨d, mark, text⟩ := eq_of_cutAt cut
    obtain rfl : d = '?' := by simpa using mark
    have present : '?' ∈ endpoint.toList := by simp [text]
    rw [if_pos present, text, List.append_assoc, List.cons_append, cutAt_append before mark]
    simp [piecesBy_append, single, last]

end Url

namespace Vendor

open Url

variable (v : Vendor) (endpoint : String)

theorem graphUrl_text {g : String} (given : g ≠ "") : v.graphUrl endpoint (.text g) =
    .ok (withParameter endpoint v.graphParameter (encodeComponent g)) := by
  have truth : (Value.text g).truth = true := by simpa [Value.truth] using given
  unfold graphUrl withParameter
  simp [truth, Value.chars?]

theorem graphUrl_empty : v.graphUrl endpoint (.text "") = .ok endpoint := rfl

theorem graphUrl_injective {g g' : String}
    (same : v.graphUrl endpoint (.text g) = v.graphUrl endpoint (.text g')) : g = g' := by
  have longer (value : String) : withParameter endpoint v.graphParameter value ≠ endpoint := by
    intro own
    have lists := congrArg (·.toList.length) own
    simp [toList_withParameter] at lists
  by_cases given : g = "" <;> by_cases given' : g' = ""
  · rw [given, given']
  · rw [given, graphUrl_empty, graphUrl_text v endpoint given'] at same
    exact absurd (Except.ok.inj same).symm (longer _)
  · rw [given', graphUrl_empty, graphUrl_text v endpoint given] at same
    exact absurd (Except.ok.inj same) (longer _)
  · rw [graphUrl_text v endpoint given, graphUrl_text v endpoint given'] at same
    have lists := congrArg String.toList (Except.ok.inj same)
    rw [toList_withParameter, toList_withParameter] at lists
    have values : encodeComponent g = encodeComponent g' := by
      simpa [String.toList_inj] using lists
    have read := decodeComponent?_encodeComponent g
    rw [values, decodeComponent?_encodeComponent] at read
    exact (Option.some.inj read).symm

theorem graphParameter_apart : ∀ d ∈ ['#', '&', '='], d ∉ v.graphParameter.toList := by
  cases v <;> decide

/-- A graph is named by the value of one parameter behind those of the endpoint. The value is read
as the name, no delimiter stands in it, and no other name gives the same URL. -/
theorem url_of_graph {g : String} (given : g ≠ "") : ∃ code,
    v.graphUrl endpoint (.text g) = .ok (withParameter endpoint v.graphParameter code) ∧
    IsComponent code.toList ∧ decodeComponent? code = some g ∧
    parameters (withParameter endpoint v.graphParameter code) =
      parameters endpoint ++ (if '#' ∈ endpoint.toList then [] else [(v.graphParameter, code)]) ∧
    ∀ g', v.graphUrl endpoint (.text g') = v.graphUrl endpoint (.text g) → g' = g := by
  have component := isComponent_encodeComponent g
  exact ⟨encodeComponent g, v.graphUrl_text endpoint given, component,
    decodeComponent?_encodeComponent g,
    parameters_withParameter v.graphParameter_apart component,
    fun _ same => v.graphUrl_injective endpoint same⟩

theorem url_of_graph_delimiters : "é&a=c#" ≠ "" ∧ ∃ code,
    Vendor.blazegraph.graphUrl "http://h/ds?a=b" (.text "é&a=c#") =
      .ok (withParameter "http://h/ds?a=b" "context-uri" code) ∧
    IsComponent code.toList ∧ decodeComponent? code = some "é&a=c#" ∧
    parameters (withParameter "http://h/ds?a=b" "context-uri" code) =
      parameters "http://h/ds?a=b" ++ [("context-uri", code)] ∧
    ∀ g', Vendor.blazegraph.graphUrl "http://h/ds?a=b" (.text g') =
      Vendor.blazegraph.graphUrl "http://h/ds?a=b" (.text "é&a=c#") → g' = "é&a=c#" :=
  ⟨by decide, Vendor.blazegraph.url_of_graph "http://h/ds?a=b" (by decide)⟩

end Vendor

end SparqlClient
