import Mathlib.Data.List.Basic
import SparqlClient.Query.Update

/-! The triples that a batch of records writes: for each record its type and then one triple for each
item of each field, in order, without the two keys that name it. Main statement: this is what is
written exactly if no record has two names. No triple is ever lost; a second name is written as a
field. -/

namespace SparqlClient

open Text

theorem flatMap_filter {α β : Type} (q : α → Bool) (f : α → List β) (l : List α) :
    (l.filter q).flatMap f = l.flatMap fun x => if q x then f x else [] := by
  induction l with
  | nil => rfl
  | cons x l ih => cases kept : q x <;> simp [kept, ih]

theorem flatMap_sublist {α β : Type} {f g : α → List β} {l : List α}
    (parts : ∀ x ∈ l, (f x).Sublist (g x)) : (l.flatMap f).Sublist (l.flatMap g) := by
  induction l with
  | nil => exact .refl _
  | cons x l ih =>
    rw [List.forall_mem_cons] at parts
    exact parts.1.append (ih parts.2)

theorem flatMap_eq_iff {α β : Type} {f g : α → List β} {l : List α}
    (parts : ∀ x ∈ l, (f x).Sublist (g x)) : l.flatMap f = l.flatMap g ↔ ∀ x ∈ l, f x = g x := by
  induction l with
  | nil => simp
  | cons x l ih =>
    rw [List.forall_mem_cons] at parts ⊢
    rw [← ih parts.2]
    refine ⟨fun same => ?_, fun same => by rw [List.flatMap_cons, same.1, same.2]; rfl⟩
    have lengths := congrArg List.length same
    have first := parts.1.length_le
    have later := (flatMap_sublist parts.2).length_le
    simp only [List.flatMap_cons, List.length_append] at lengths
    exact ⟨parts.1.eq_of_length (by omega), (flatMap_sublist parts.2).eq_of_length (by omega)⟩

namespace Update

abbrev Triple := Value × Value × Value

/-! What a record should give. -/

def isNameKey (k : Value) : Bool := k.sameKey (.text "@id") || k.sameKey (.text "id")

def items : Value → List Value
  | .null => []
  | .list values => values.filter (!·.isNull)
  | v => [v]

def IsNameless (es : Entries) : Prop := (es.get "@id").isNull ∧ (es.get "id").isNull

instance (es : Entries) : Decidable (IsNameless es) :=
  inferInstanceAs (Decidable ((es.get "@id").isNull ∧ (es.get "id").isNull))

/-- The marked name goes first, unless it is empty and there is another one. -/
def nameOf (es : Entries) : Value :=
  if (es.get "@id").truth ∨ (es.get "id").isNull then es.get "@id" else es.get "id"

def fieldTriples (name : Value) (e : Value × Value) : List Triple :=
  (items e.2).map fun v => (name, e.1, v)

def resourceTriples (p : Prefixes) (table name : Value) (fields : Entries) : List Triple :=
  (if table.truth then [(name, .text typeIri, (classify (some p) table).toValue)] else []) ++
    fields.flatMap (fieldTriples name)

def triplesOf (p : Prefixes) (table : Value) (es : Entries) : List Triple :=
  resourceTriples p table (nameOf es) (es.filter fun e => !isNameKey e.1)

/-- A record has one name: behind a marked one nothing is written for the other, and a marked one that
is empty does not stand alone. -/
structure HasOneName (es : Entries) : Prop where
  single : ∀ e ∈ es, e.1.sameKey (.text "id") → (es.get "@id").truth → items e.2 = []
  filled : (es.get "id").isNull → (es.get "@id").isNull ∨ (es.get "@id").truth

variable (p : Prefixes) (table : Value)

theorem not_isNameKey_of_mem {es : Entries} {t : Triple} (member : t ∈ triplesOf p table es) :
    isNameKey t.2.1 = false := by
  rcases List.mem_append.1 member with type | field
  · split at type
    · obtain rfl := List.mem_singleton.1 type
      rfl
    · cases type
  · obtain ⟨e, kept, inside⟩ := List.mem_flatMap.1 field
    obtain ⟨v, -, rfl⟩ := List.mem_map.1 inside
    simpa using (List.mem_filter.1 kept).2

example : triplesOf ⟨[]⟩ .null [(.text "p", .list [.text "x", .null, .int 1]), (.text "id", .text "a"),
    (.text "q", .null)] =
    [(.text "a", .text "p", .text "x"), (.text "a", .text "p", .int 1)] := rfl

/-! What a record gives. -/

def IsRefused (es : Entries) : Prop := (es.get "@id").truth = false ∧ (es.get "id").isNull

instance (es : Entries) : Decidable (IsRefused es) :=
  inferInstanceAs (Decidable ((es.get "@id").truth = false ∧ (es.get "id").isNull))

/-- Whether a field is written: behind a marked name, one under the other name is. -/
def isWritten (es : Entries) (k : Value) : Bool :=
  !k.sameKey (.text "@id") && ((es.get "@id").truth || !k.sameKey (.text "id"))

def written (es : Entries) : List Triple :=
  resourceTriples p table (nameOf es) (es.filter fun e => isWritten es e.1)

theorem IsNameless.isRefused {es : Entries} (nameless : IsNameless es) : IsRefused es := by
  refine ⟨Bool.eq_false_iff.2 fun marked => ?_, nameless.2⟩
  have given := nameless.1
  rw [Value.isNull_of_truth marked] at given
  cases given

theorem fieldTriples_eq (name : Value) :
    fieldTriples name = fun e => (fieldValues e.2).map fun v => (name, e.1, v) := by
  funext ⟨k, v⟩
  cases v <;> rfl

theorem recordTriples_map (es : Entries) : recordTriples p table (.map es) =
    if IsRefused es then CompilationError.fail .recordWithoutId else .ok (written p table es) := by
  have steps : recordTriples p table (.map es) =
      (recordSubject es).map fun r => resourceTriples p table r.1 r.2 := by
    simp only [resourceTriples, fieldTriples_eq]
    change (recordSubject es >>= _) = _
    cases recordSubject es <;> rfl
  rw [steps, recordSubject, written, nameOf]
  cases marked : (es.get "@id").truth <;> cases null : (es.get "id").isNull <;>
    simp [IsRefused, isWritten, marked, null, Except.map, CompilationError.fail, Entries.erase,
      List.filter_filter, Bool.and_comm]

theorem isWritten_eq {es : Entries} {k : Value} (other : k.sameKey (.text "id") = false) :
    isWritten es k = !isNameKey k := by
  simp [isWritten, isNameKey, other]

theorem fields_sublist (es : Entries) (e : Value × Value) :
    (if !isNameKey e.1 then fieldTriples (nameOf es) e else []).Sublist
      (if isWritten es e.1 then fieldTriples (nameOf es) e else []) := by
  cases key : e.1.sameKey (.text "id") with
  | true => simp [isNameKey, key]
  | false => rw [isWritten_eq key]

theorem fields_eq_iff (es : Entries) (e : Value × Value) :
    (if !isNameKey e.1 then fieldTriples (nameOf es) e else []) =
      (if isWritten es e.1 then fieldTriples (nameOf es) e else []) ↔
      (e.1.sameKey (.text "id") → (es.get "@id").truth → items e.2 = []) := by
  cases key : e.1.sameKey (.text "id") with
  | true =>
    have apart : e.1.sameKey (.text "@id") = false := by
      rw [Value.sameKey_text_iff.1 key]
      rfl
    cases marked : (es.get "@id").truth <;> simp [isNameKey, isWritten, key, apart, marked, fieldTriples]
  | false => simp [isWritten_eq key]

theorem triplesOf_sublist (es : Entries) : (triplesOf p table es).Sublist (written p table es) := by
  refine (List.Sublist.refl _).append ?_
  rw [flatMap_filter, flatMap_filter]
  exact flatMap_sublist fun e _ => fields_sublist es e

theorem triplesOf_eq_iff (es : Entries) : triplesOf p table es = written p table es ↔
    ∀ e ∈ es, e.1.sameKey (.text "id") → (es.get "@id").truth → items e.2 = [] := by
  rw [triplesOf, written, resourceTriples, resourceTriples, List.append_cancel_left_eq,
    flatMap_filter, flatMap_filter, flatMap_eq_iff fun e _ => fields_sublist es e]
  exact forall₂_congr fun e _ => fields_eq_iff es e

theorem HasOneName.iff_written {es : Entries} (named : ¬IsNameless es) :
    HasOneName es ↔ ¬IsRefused es ∧ triplesOf p table es = written p table es := by
  rw [triplesOf_eq_iff]
  constructor
  · rintro ⟨single, filled⟩
    refine ⟨fun ⟨blank, null⟩ => ?_, single⟩
    rcases filled null with absent | marked
    · exact named ⟨absent, null⟩
    · rw [blank] at marked
      cases marked
  · rintro ⟨accepted, single⟩
    refine ⟨single, fun null => .inr ?_⟩
    by_contra blank
    exact accepted ⟨Bool.eq_false_iff.2 blank, null⟩

/-! A batch. -/

def tripleText (t : Triple) : String := dataTriple p t.1 t.2.1 t.2.2

def inGraph (graph : Option String) (body : String) : String :=
  match graph with
  | some g => if g = "" then body else "GRAPH " ++ angled g ++ " " ++ inBraces body
  | none => body

/-- Triples are written one after the other; there must be one. -/
def writeTriples (graph : Option String) (ts : List Triple) : Outcome String :=
  if ts.isEmpty then CompilationError.fail .emptyInsertBatch
  else .ok ("INSERT DATA " ++
    inBraces (inGraph graph (String.intercalate " " (ts.map (tripleText p)))))

/-- What a batch should give: the triples of its records, unless one has no name. -/
def batchOutcome (graph : Option String) (records : List Entries) : Outcome String :=
  if ∃ es ∈ records, IsNameless es then CompilationError.fail .recordWithoutId
  else writeTriples p graph (records.flatMap (triplesOf p table))

theorem graphBlock_ofText? (graph : Option String) (body : String) :
    graphBlock (.ofText? graph) body = .ok (inGraph graph body) := by
  cases graph with
  | none => rfl
  | some g =>
    by_cases empty : g = ""
    · rw [empty]
      rfl
    · have given : (Value.text g).truth = true := by simpa [Value.truth] using empty
      change (if (Value.text g).truth then _ else _) = _
      rw [if_pos given, inGraph, if_neg empty]
      rfl

theorem mapM_recordTriples (records : List Entries) :
    (records.map Value.map).mapM (recordTriples p table) =
      if ∃ es ∈ records, IsRefused es then CompilationError.fail .recordWithoutId
      else .ok (records.map (written p table)) := by
  induction records with
  | nil => rfl
  | cons es records ih =>
    rw [List.map_cons, List.mapM_cons, recordTriples_map, ih]
    by_cases first : IsRefused es <;> by_cases later : ∃ es ∈ records, IsRefused es <;>
      simp only [first, later, List.exists_mem_cons_iff, or_true, or_false, if_true, if_false] <;> rfl

theorem insertBatch_map (graph : Option String) (records : List Entries) :
    insertBatch p (.list (records.map .map)) (.ofText? graph) table =
      if ∃ es ∈ records, IsRefused es then CompilationError.fail .recordWithoutId
      else writeTriples p graph (records.flatMap (written p table)) := by
  simp only [insertBatch, Value.members_list, graphBlock_ofText?]
  change ((records.map Value.map).mapM (recordTriples p table) >>= _) = _
  rw [mapM_recordTriples]
  split
  · rfl
  · change ite _ _ _ = _
    rw [writeTriples, List.flatMap_def]
    rfl

def spaced (ts : List Triple) : List Char := ts.flatMap fun t => (tripleText p t).toList ++ [' ']

theorem length_spaced_cons (t : Triple) (ts : List Triple) :
    (spaced p (t :: ts)).length = (tripleText p t).length + 1 + (spaced p ts).length := by
  rw [spaced, List.flatMap_cons, List.length_append, List.length_append, String.length_toList]
  rfl

theorem length_intercalate (t : Triple) (ts : List Triple) :
    (String.intercalate " " ((t :: ts).map (tripleText p))).length + 1 =
      (spaced p (t :: ts)).length := by
  induction ts generalizing t with
  | nil =>
    rw [length_spaced_cons]
    exact congrArg (·.length + 1) String.intercalate_singleton
  | cons u ts ih =>
    rw [List.map_cons, List.map_cons, String.intercalate_cons_cons, ← List.map_cons,
      String.length_append, String.length_append, Nat.add_assoc, ih, length_spaced_cons p t]
    rfl

theorem eq_of_length_spaced {few many : List Triple} (lost : few.Sublist many)
    (same : (spaced p few).length = (spaced p many).length) : few = many := by
  obtain ⟨more, all⟩ := lost.exists_perm_append
  have total : (spaced p many).length = (spaced p few).length + (spaced p more).length := by
    rw [spaced, (all.flatMap_right _).length_eq, List.flatMap_append, List.length_append]
    rfl
  cases more with
  | nil => exact lost.eq_of_length (by simpa using all.length_eq.symm)
  | cons t more =>
    rw [length_spaced_cons] at total
    omega

theorem exists_length_inGraph (graph : Option String) :
    ∃ k, ∀ body, (inGraph graph body).length = k + body.length := by
  cases graph with
  | none => exact ⟨0, fun body => (Nat.zero_add _).symm⟩
  | some g =>
    by_cases empty : g = ""
    · exact ⟨0, fun body => by rw [inGraph, if_pos empty, Nat.zero_add]⟩
    · refine ⟨("GRAPH " ++ angled g ++ " " ++ inBraces "").length, fun body => ?_⟩
      rw [inGraph, if_neg empty, inBraces, inBraces]
      simp only [String.length_append, String.length_empty]
      omega

theorem writeTriples_injective {graph : Option String} {few many : List Triple}
    (lost : few.Sublist many) (same : writeTriples p graph few = writeTriples p graph many) :
    few = many := by
  cases many with
  | nil => exact List.sublist_nil.1 lost
  | cons t many =>
    cases few with
    | nil => cases same
    | cons u few =>
      have bodies := congrArg String.length (Except.ok.inj same)
      obtain ⟨k, lengths⟩ := exists_length_inGraph graph
      simp only [String.length_append, inBraces, lengths] at bodies
      refine eq_of_length_spaced p lost ?_
      rw [← length_intercalate, ← length_intercalate]
      omega

theorem writeTriples_eq_iff (graph : Option String) (records : List Entries) :
    writeTriples p graph (records.flatMap (written p table)) =
        writeTriples p graph (records.flatMap (triplesOf p table)) ↔
      ∀ es ∈ records, triplesOf p table es = written p table es := by
  have parts : ∀ es ∈ records, (triplesOf p table es).Sublist (written p table es) :=
    fun es _ => triplesOf_sublist p table es
  rw [← flatMap_eq_iff parts]
  exact ⟨fun same => writeTriples_injective p (flatMap_sublist parts) same.symm,
    fun same => by rw [same]⟩

theorem recordWithoutId_ne {graph : Option String} {ts : List Triple} :
    CompilationError.fail .recordWithoutId ≠ writeTriples p graph ts := by
  rw [writeTriples]
  split <;> exact nofun

/-- A batch is refused for a record without a name or for want of triples, or else each record writes
its type and one triple for each item of each field, in order and under no name: exactly so unless a
record has two names. -/
theorem batch_of_records (graph : Option String) (records : List Entries) :
    (insertBatch p (.list (records.map .map)) (.ofText? graph) table =
        batchOutcome p table graph records ↔
      (∃ es ∈ records, IsNameless es) ∨ ∀ es ∈ records, HasOneName es) ∧
    ∀ t ∈ records.flatMap (triplesOf p table), isNameKey t.2.1 = false := by
  constructor
  · rw [insertBatch_map, batchOutcome]
    by_cases nameless : ∃ es ∈ records, IsNameless es
    · have refused : ∃ es ∈ records, IsRefused es :=
        nameless.imp fun es => And.imp_right IsNameless.isRefused
      simp [nameless, refused]
    · have named : ∀ es ∈ records, ¬IsNameless es := by simpa using nameless
      rw [if_neg nameless, or_iff_right nameless]
      by_cases refused : ∃ es ∈ records, IsRefused es
      · -- an empty marked name alone is refused, and should not be
        obtain ⟨es, member, bare⟩ := refused
        rw [if_pos ⟨es, member, bare⟩]
        refine iff_of_false (recordWithoutId_ne p) fun own => ?_
        exact ((HasOneName.iff_written p table (named es member)).1 (own es member)).1 bare
      · rw [if_neg refused, writeTriples_eq_iff]
        refine forall₂_congr fun es member => ?_
        rw [HasOneName.iff_written p table (named es member)]
        exact (and_iff_right fun bare => refused ⟨es, member, bare⟩).symm
  · intro t member
    obtain ⟨es, -, inside⟩ := List.mem_flatMap.1 member
    exact not_isNameKey_of_mem p table inside

/-- A record that is named twice: the other name is written as a predicate. -/
theorem exists_name_as_predicate : ∃ es : Entries, ¬IsNameless es ∧
    insertBatch ⟨[]⟩ (.list [.map es]) .null .null =
      .ok "INSERT DATA \x7b <http://e/a> <http://e/p> \"x\" . <http://e/a> <id> \"b\" . \x7d" ∧
    batchOutcome ⟨[]⟩ .null none [es] =
      .ok "INSERT DATA \x7b <http://e/a> <http://e/p> \"x\" . \x7d" := by
  refine ⟨[(.text "@id", .text "http://e/a"), (.text "http://e/p", .text "x"),
    (.text "id", .text "b")], ?_, ?_, ?_⟩
  · decide
  · decide +kernel
  · decide +kernel

end Update

end SparqlClient
