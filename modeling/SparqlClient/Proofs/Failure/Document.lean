import SparqlClient.Proofs.Failure.Exchange
import SparqlClient.Proofs.Number.Reading

/-! Answers in the JSON form of query results. Main statement: where an answer is a document of
that form, nothing fails in decoding it, whatever its values say. -/

namespace SparqlClient

variable {P : Error → Prop}

namespace Term

theorem failsWith_ofNumeric_text (r : NumericRange) (s : String) (datatype : Value) :
    FailsWith P (ofNumeric r (.text s) datatype) := by
  have string : FailsWith P (check ⟨.string, .text s, .null, datatype⟩) :=
    failsWith_check (.inl rfl)
  unfold ofNumeric
  cases r with
  | whole =>
    rw [NumericRange.read, Value.whole]
    cases Numeral.int? s with
    | none => exact string
    | some n => exact failsWith_ok _
  | floating =>
    rw [NumericRange.read, Value.float?]
    cases Numeral.float? s with
    | none => exact string
    | some x => exact failsWith_ok _
  | decimal =>
    simp only [NumericRange.read, Value.chars?]
    cases Numeral.decimal? s with
    | none => exact string
    | some d => exact failsWith_ok _

theorem failsWith_ofLiteral_text (s : String) (lang : Value) {datatype : Value}
    (named : datatype = .null ∨ ∃ d, datatype = .text d) :
    FailsWith P (ofLiteral (.text s) lang datatype) := by
  have key : datatype.checkedKey = .ok datatype := by
    obtain rfl | ⟨d, rfl⟩ := named <;> rfl
  unfold ofLiteral
  rw [key]
  refine failsWith_bind.2 ⟨failsWith_ok _, fun key _ => ?_⟩
  extract_lets name
  clear_value name
  split
  · exact failsWith_ofNumeric_text _ s datatype
  · split
    · simp [onlyText, Value.chars?]
    · split
      · exact failsWith_check (.inr rfl)
      · exact failsWith_check (.inl rfl)

end Term

namespace ResultSet

/-- A value of a solution: its text and its datatype are texts, if it has them. -/
def IsBinding (v : Value) : Prop :=
  ∃ fields, v = .map fields ∧
    (∀ value, Entries.get? fields "value" = some value → ∃ s, value = .text s) ∧
    ∀ datatype, Entries.get? fields "datatype" = some datatype →
      datatype = .null ∨ ∃ d, datatype = .text d

def IsSolution (v : Value) : Prop := ∃ fields, v = .map fields ∧ ∀ e ∈ fields, IsBinding e.2

def HasList (fields : Entries) (part list : String) (Q : Value → Prop) : Prop :=
  ∀ v, fields.get? part = some v → ∃ inner, v = .map inner ∧
    ∀ v, Entries.get? inner list = some v → ∃ items, v = .list items ∧ ∀ item ∈ items, Q item

/-- The JSON form of query results. -/
def IsDocument (v : Value) : Prop :=
  ∃ fields, v = .map fields ∧ HasList fields "head" "vars" (fun _ => True) ∧
    HasList fields "results" "bindings" IsSolution

theorem failsWith_ofBinding_of_isBinding {v : Value} (h : IsBinding v) :
    FailsWith P (Term.ofBinding v) := by
  obtain ⟨fields, rfl, value, datatype⟩ := h
  obtain ⟨s, text⟩ : ∃ s, (Entries.get? fields "value").getD (.text "") = .text s := by
    cases there : Entries.get? fields "value" with
    | none => exact ⟨"", rfl⟩
    | some x =>
      obtain ⟨s, rfl⟩ := value x there
      exact ⟨s, rfl⟩
  have named : Entries.get fields "datatype" = .null ∨
      ∃ d, Entries.get fields "datatype" = .text d := by
    rw [Entries.get]
    cases there : Entries.get? fields "datatype" with
    | none => exact .inl rfl
    | some x => exact datatype x there
  unfold Term.ofBinding
  refine failsWith_bind.2 ⟨failsWith_ok _, fun es read => ?_⟩
  obtain rfl : fields = es := Except.ok.inj read
  simp only [text]
  split
  · simp [textOnly, Value.chars?]
  · split
    · simp [onlyText, Value.chars?]
    · exact Term.failsWith_ofLiteral_text s _ named

theorem failsWith_ofSolution_of_isSolution {v : Value} (h : IsSolution v) :
    FailsWith P (Row.ofSolution v) := by
  obtain ⟨fields, rfl, bindings⟩ := h
  unfold Row.ofSolution
  refine failsWith_bind.2 ⟨failsWith_ok _, fun es read => ?_⟩
  obtain rfl : fields = es := Except.ok.inj read
  refine failsWith_bind.2 ⟨failsWith_mapM fun e he => ?_, fun _ _ => failsWith_pure _⟩
  exact failsWith_bind.2 ⟨failsWith_ofBinding_of_isBinding (bindings e he), fun _ _ =>
    failsWith_pure _⟩

theorem HasList.listed {fields : Entries} {part list : String} {Q : Value → Prop}
    (h : HasList fields part list Q) : ∃ inner items, ResultSet.part fields part = .ok inner ∧
      membersOf inner list = .ok items ∧ ∀ item ∈ items, Q item := by
  cases there : fields.get? part with
  | none => exact ⟨[], [], by rw [ResultSet.part, there], rfl, by simp⟩
  | some v =>
    obtain ⟨inner, rfl, lists⟩ := h v there
    refine ⟨inner, ?_⟩
    have known : ResultSet.part fields part = .ok inner := by
      rw [ResultSet.part, there]
      rfl
    cases listed : Entries.get? inner list with
    | none => exact ⟨[], known, by rw [membersOf, listed], by simp⟩
    | some w =>
      obtain ⟨items, rfl, all⟩ := lists w listed
      exact ⟨items, known, by rw [membersOf, listed]; rfl, all⟩

theorem failsWith_ofAnswer_of_isDocument {v : Value} (h : IsDocument v) :
    FailsWith P (ofAnswer v) := by
  obtain ⟨fields, rfl, head, results⟩ := h
  obtain ⟨names, vars, first, named, -⟩ := head.listed
  obtain ⟨body, solutions, second, solved, all⟩ := results.listed
  have read : ofAnswer (.map fields) =
      solutions.mapM Row.ofSolution >>= fun rows => pure ⟨vars, rows⟩ := by
    rw [ofAnswer]
    simp only [Value.fields, bind, Except.bind, first, named, second, solved]
  rw [read]
  exact failsWith_bind.2 ⟨failsWith_mapM fun s hs => failsWith_ofSolution_of_isSolution (all s hs),
    fun _ _ => failsWith_pure _⟩

end ResultSet

def ResultSet.IsShort (r : ResultSet) : Prop :=
  ∀ t, r.first.bind (·.find? "aggregate") = some t → t.IsShort

theorem failsWith_aggregateValue_of_isShort {r : ResultSet} (short : r.IsShort)
    (function : String) : FailsWith P (Execution.aggregateValue function r) := by
  unfold Execution.aggregateValue
  split
  · exact failsWith_ok _
  · rename_i t there
    obtain ⟨v, known⟩ := toNumber_eq_ok (short t there)
    rw [known]
    exact failsWith_ok _

end SparqlClient
