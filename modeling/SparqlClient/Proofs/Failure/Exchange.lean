import SparqlClient.Proofs.Failure.Query

/-! The two sides of a request. Whatever is done before one is sent, from the text of a query and
its values to the octets of an upload and the URL, fails without a report of an exchange; whatever
is done with the answer fails without blaming the query or a setting. In particular no term of an
answer breaks the rule on languages and datatypes. -/

namespace SparqlClient

open Text Error

namespace Json

theorem failsWith_keyText {P : Error → Prop} [AllowsMisuse P] (k : Value) :
    FailsWith P (keyText k) := by
  unfold keyText
  split
  case h_5 => split <;> simp
  all_goals simp

mutual

theorem failsWith_write {P : Error → Prop} [AllowsMisuse P] (st : Style) (depth : Nat)
    (v : Value) : FailsWith P (write st depth v) := by
  cases v with
  | list items => simp [write, failsWith_writeAll st (depth + 1) items]
  | map entries => simp [write, failsWith_writeEntries st (depth + 1) entries]
  | _ => simp [write]

theorem failsWith_writeAll {P : Error → Prop} [AllowsMisuse P] (st : Style) (depth : Nat)
    (vs : List Value) : FailsWith P (writeAll st depth vs) := by
  match vs with
  | [] => simp [writeAll]
  | v :: vs => simp [writeAll, failsWith_write st depth v, failsWith_writeAll st depth vs]

theorem failsWith_writeEntries {P : Error → Prop} [AllowsMisuse P] (st : Style) (depth : Nat)
    (es : List (Value × Value)) : FailsWith P (writeEntries st depth es) := by
  match es with
  | [] => simp [writeEntries]
  | (k, v) :: es =>
    simp [writeEntries, failsWith_keyText, failsWith_write st depth v,
      failsWith_writeEntries st depth es]

end

end Json

section

variable {P : Error → Prop} [AllowsMisuse P]

theorem failsWith_cacheKey (identity text bindings : Value) :
    FailsWith P (cacheKey identity text bindings) := by
  simp [cacheKey, Json.failsWith_write]

theorem Decimal.failsWith_rounded (negative : Bool) (digits : Nat) (exponent : Int) :
    FailsWith P (rounded negative digits exponent) := by
  unfold rounded fit
  split
  · simp
  · simp only
    split
    · split <;> simp
    · split <;> simp

theorem Decimal.failsWith_add (x y : Decimal) : FailsWith P (x.add y) := by
  unfold Decimal.add
  split
  · rename_i result missing
    unfold missing? at missing
    split at missing
    all_goals first
      | cases missing
        simp
      | cases missing
  · split
    case h_4 =>
      unfold sum
      simp [failsWith_rounded, padded, aligned]
    all_goals simp

namespace Seconds

theorem failsWith_lt (a b : Seconds) : FailsWith P (a.lt b) := by
  unfold lt
  split
  · simp
  · split
    · simp
    · split <;> simp

theorem failsWith_add (a b : Seconds) : FailsWith P (a.add b) := by
  unfold add
  split
  case h_7 => simp [Decimal.failsWith_add]
  all_goals simp

theorem failsWith_limit? (v : Value) : FailsWith P (limit? v) := by
  have ofValue (v : Value) : FailsWith P (ofValue v) := by
    cases v <;> simp [Seconds.ofValue]
  unfold limit?
  split
  · simp
  · simp [ofValue, isNegative, failsWith_lt]

end Seconds

namespace Cache

variable {α : Type}

theorem failsWith_get (c : Cache α) (now : Seconds) (key : Value) :
    FailsWith P (c.get now key) := by
  have expired (e : Stored α) : FailsWith P (Stored.isExpired now e) := by
    unfold Stored.isExpired
    split <;> simp [Seconds.failsWith_lt]
  unfold get
  rw [failsWith_bind]
  refine ⟨key.failsWith_checkedKey, fun k _ => ?_⟩
  split <;> simp [expired]

theorem failsWith_set (c : Cache α) (now : Seconds) (key : Value) (value : α) (time : Value) :
    FailsWith P (c.set now key value time) := by
  unfold set
  rw [failsWith_bind]
  refine ⟨Seconds.failsWith_limit? time, fun limit _ => ?_⟩
  cases limit <;> simp [Seconds.failsWith_add]

end Cache

end

/-! Before a request. -/

namespace Namespace

theorem local_validate (v : Value) : FailsWith IsLocal (validate v) := by
  unfold validate
  split
  · split <;> simp
  · simp

end Namespace

namespace Vendor

theorem failsWith_accepts {P : Error → Prop} [AllowsMisuse P] (v : Vendor) (levels : Nat)
    (status : Int) (body : String) : FailsWith P (v.accepts levels status body) := by
  unfold accepts reportsCount
  split
  · exact failsWith_ok _
  · split
    · split
      · exact failsWith_ok _
      · split <;> simp
    · exact failsWith_ok _

theorem local_requireNamespaces (v : Vendor) : FailsWith IsLocal v.requireNamespaces := by
  simp [requireNamespaces]

theorem failsWith_base {P : Error → Prop} [AllowsMisuse P] (endpoint : String) :
    FailsWith P (Url.base endpoint) := by
  unfold Url.base
  split <;> simp

theorem local_namespaceEndpoint (v : Vendor) (endpoint : String) (name : Value)
    (service : String) : FailsWith IsLocal (v.namespaceEndpoint endpoint name service) := by
  cases v <;> simp [namespaceEndpoint, Namespace.local_validate, failsWith_base]

theorem local_graphUrl (v : Vendor) (endpoint : String) (graph : Value) :
    FailsWith IsLocal (v.graphUrl endpoint graph) := by
  unfold graphUrl
  split
  · simp only
    split
    · simp
    · split <;> simp
  · simp

theorem local_datasetsUrl (endpoint : String) (name : Option String) :
    FailsWith IsLocal (datasetsUrl endpoint name) := by
  unfold datasetsUrl
  simp only [failsWith_bind]
  refine ⟨failsWith_base endpoint, fun _ _ => ?_⟩
  split <;> simp

end Vendor

namespace Connection

variable (c : Connection)

theorem local_queryEndpoint : FailsWith IsLocal c.queryEndpoint := by
  unfold queryEndpoint
  split
  · simp
  · exact Vendor.local_namespaceEndpoint _ _ _ _

theorem local_updateEndpoint : FailsWith IsLocal c.updateEndpoint := by
  unfold updateEndpoint
  cases c.namespaceName with
  | none => simp
  | some n => simp [Vendor.local_namespaceEndpoint]

theorem local_graphUrl (graph : Value) : FailsWith IsLocal (c.graphUrl graph) := by
  simp [graphUrl, graphEndpoint, local_queryEndpoint, Vendor.local_graphUrl]

theorem local_cacheKey (text : String) (bindings : Value) :
    FailsWith IsLocal (c.cacheKey text bindings) := by
  simp [cacheKey, identity, local_queryEndpoint, failsWith_cacheKey]

end Connection

theorem local_substitute (prefixes : Option Prefixes) (given : Nat) (ts : List Token)
    (vs : List Value) : FailsWith IsLocal (substitute prefixes given ts vs) := by
  have quote (v : Value) : FailsWith IsLocal (quoteValue prefixes v) := by
    cases v <;> simp [quoteValue]
  fun_induction substitute prefixes given ts vs with
  | case1 => simp
  | case2 => simp
  | case3 ts v vs ih => simp [quote, ih]
  | case4 t ts vs _ _ ih => simp [ih]

theorem local_bindValues (prefixes : Option Prefixes) (text : String) (values : List Value) :
    FailsWith IsLocal (bindValues prefixes text values) := by
  simp [bindValues, local_substitute]

theorem local_ofCaller (text : String) (values : Value) :
    FailsWith IsLocal (Fragment.ofCaller text values) := by
  unfold Fragment.ofCaller positional
  split <;> simp

namespace Node

theorem failsWith_turtle {P : Error → Prop} [AllowsMisuse P] (n : Node) :
    FailsWith P n.turtle := by
  cases n <;> simp [turtle, uriText]

end Node

theorem local_make (v : Value) (lang datatype : Option String) :
    FailsWith IsLocal (Literal.make v lang datatype) := by
  unfold Literal.make
  simp only
  split
  · simp
  · split
    · simp
    · split <;> simp

theorem local_toNode (prefixes : Option Prefixes) (position : String) (v : Value) :
    FailsWith IsLocal (toNode prefixes position v) := by
  have name (v : Value) : FailsWith IsLocal (named v) := by
    unfold named
    split <;> simp
  unfold toNode
  split
  · simp
  · simp only
    split
    · simp [name]
    · simp [name]
    · simp
    · split
      · simp
      · split
        · simp
        · simp [name, local_make]
        · simp [local_make]
        · simp [local_make]
        · simp [local_make]

theorem local_statementLine (prefixes : Option Prefixes) (triple : Value) :
    FailsWith IsLocal (statementLine prefixes triple) := by
  have object (n : Node) : FailsWith IsLocal n.ntriples := by
    unfold Node.ntriples
    split
    · simp
    · exact n.failsWith_turtle
  simp [statementLine, local_toNode, Node.failsWith_turtle, object]

theorem local_ntriples (prefixes : Option Prefixes) (u : Upload) :
    FailsWith IsLocal (u.ntriples prefixes) := by
  have line (g : Graph) (t : Node × Node × Node) : FailsWith IsLocal (g.line t) := by
    have object (n : Node) : FailsWith IsLocal (Graph.objectText n) := by
      unfold Graph.objectText
      split
      · simp
      · exact n.failsWith_turtle
    simp [Graph.line, Node.failsWith_turtle, object]
  unfold Upload.ntriples
  split
  · rw [Graph.ntriples, failsWith_map]
    exact failsWith_mapM fun t _ => line _ t
  · simp
  · split
    · simp
    · simp only [serializeTriples, failsWith_bind]
      refine ⟨Value.failsWith_members _, fun triples _ => ?_⟩
      exact ⟨failsWith_mapM fun t _ => local_statementLine prefixes t, fun _ _ => failsWith_pure _⟩

namespace Update

theorem local_insertBatch (p : Prefixes) (records graph table : Value) :
    FailsWith IsLocal (insertBatch p records graph table) := by
  have subject (fields : Entries) : FailsWith IsLocal (recordSubject fields) := by
    simp [recordSubject]
  have triples (record : Value) : FailsWith IsLocal (recordTriples p table record) := by
    simp [recordTriples, subject]
  have block (body : String) : FailsWith IsLocal (graphBlock graph body) := by
    simp [graphBlock]
  unfold insertBatch
  rw [failsWith_bind]
  refine ⟨Value.failsWith_members _, fun vs _ => ?_⟩
  rw [failsWith_bind]
  exact ⟨failsWith_mapM fun r _ => triples r, fun _ _ => by simp [block]⟩

theorem local_deleteBatch (p : Prefixes) (resources graph : Value) :
    FailsWith IsLocal (deleteBatch p resources graph) := by
  simp [deleteBatch]

end Update

namespace Execution

theorem local_query (b : Builder) (e : Execution) : FailsWith IsLocal (e.query b) := by
  have aggregate (function : String) (column separator : Value) :
      FailsWith IsLocal (b.aggregate (.text function) column separator) := by
    have make (given name : String) (column separator : Value) :
        FailsWith IsLocal (Aggregate.make given name column separator) := by
      simp [Aggregate.make]
    have read : FailsWith IsLocal (Aggregate.read (.text function) column separator) := by
      unfold Aggregate.read
      simp only
      split <;> exact make _ _ _ _
    simp [Builder.aggregate, read]
  have write (s : QuerySpec) (form : Form) : FailsWith IsLocal (s.write b.names form) :=
    local_write b.names s form
  have compile (b : Builder) : FailsWith IsLocal b.compile := local_write b.names b.spec .select
  cases e with
  | get columns => exact compile _
  | first => simp [query, Builder.limit, compile]
  | «exists» => exact write b.spec .ask
  | aggregate function column separator => simp [query, aggregate, compile]
  | construct template => exact write b.spec (.construct template)
  | describe resources => exact write b.spec (.describe resources)
  | delete template => exact write b.spec (.deleteWhere template)
  | insertBatch records => simp [query, Update.local_insertBatch]
  | deleteBatch resources => simp [query, Update.local_deleteBatch]
  | cacheKey => exact compile _

theorem failsWith_batchSize? {P : Error → Prop} [AllowsMisuse P] (e : Execution) :
    FailsWith P e.batchSize? := by
  cases e <;> simp [batchSize?]

end Execution

theorem Admin.local_request (v : Vendor) (endpoint : String) (name timeout : Value)
    (task : Admin.Task) : FailsWith IsLocal (Admin.request v endpoint name timeout task) := by
  have address (n : String) : FailsWith IsLocal (namespaceUrl v endpoint n) := by
    cases v <;> simp [namespaceUrl, Vendor.local_datasetsUrl]
  unfold request
  simp only [failsWith_bind]
  refine ⟨v.local_requireNamespaces, fun _ _ => ⟨Namespace.local_validate name, fun n _ => ?_⟩⟩
  split
  · simp [createDataset, Vendor.local_datasetsUrl]
  · simp [createInPath, propertyFields]
  · simp [address]
  · simp [address]

/-! Behind an answer. -/

theorem Term.failsWith_check {P : Error → Prop} {value lang datatype : Value}
    (h : lang.truth = false ∨ datatype.truth = false) :
    FailsWith P (Term.check ⟨.string, value, lang, datatype⟩) := by
  rcases h with h | h <;> simp [check, h]

namespace Term

section

variable {P : Error → Prop} [AllowsMisuse P]

theorem failsWith_decimalOfParts (parts : List Value) : FailsWith P (decimalOfParts parts) := by
  have small (v : Value) : FailsWith P (smallPart v) := by
    cases v <;> simp [smallPart]
  have digit (v : Value) : FailsWith P (digitPart v) := by
    simp [digitPart, small]
  have digits (ds : List Value) : FailsWith P (ds.mapM digitPart) :=
    failsWith_mapM fun d _ => digit d
  unfold decimalOfParts
  split
  · simp only [failsWith_bind, small, true_and]
    intro sign _
    split
    · exact failsWith_misuse _
    · split
      case h_4 =>
        refine failsWith_bind.2 ⟨small _, fun place _ => failsWith_bind.2 ⟨failsWith_pure _, ?_⟩⟩
        intro make _
        split <;> simp [digits]
      all_goals
        refine failsWith_bind.2 ⟨failsWith_pure _, fun make _ => ?_⟩
        split <;> simp [digits]
  · simp

theorem failsWith_read (r : NumericRange) (v : Value) : FailsWith P (r.read v) := by
  cases r with
  | whole => simp [NumericRange.read]
  | floating => simp [NumericRange.read]
  | decimal =>
    unfold NumericRange.read
    simp only
    split
    case h_4 =>
      split
      · split <;> simp
      · split <;> simp [failsWith_decimalOfParts]
    all_goals simp

theorem failsWith_ofNumeric (r : NumericRange) (value datatype : Value) :
    FailsWith P (ofNumeric r value datatype) := by
  have read := failsWith_read (P := P) r value
  unfold ofNumeric
  split
  · simp
  · exact failsWith_check (.inl rfl)
  · exact failsWith_check (.inl rfl)
  · rename_i e _ _ failed
    exact (failsWith_error e).2 (read e failed)

theorem failsWith_ofLiteral (value lang datatype : Value) :
    FailsWith P (ofLiteral value lang datatype) := by
  unfold ofLiteral
  refine failsWith_bind.2 ⟨by simp, fun key _ => ?_⟩
  extract_lets name
  clear_value name
  split
  · exact failsWith_ofNumeric _ value datatype
  · split
    · split <;> simp
    · split
      · exact failsWith_check (.inr rfl)
      · exact failsWith_check (.inl rfl)

theorem failsWith_ofBinding (binding : Value) : FailsWith P (ofBinding binding) := by
  simp [ofBinding, failsWith_ofLiteral]

end

end Term

section

variable {P : Error → Prop} [AllowsMisuse P]

/-- No answer breaks the rule on languages and datatypes. -/
theorem failsWith_ofAnswer (answer : Value) : FailsWith P (ResultSet.ofAnswer answer) := by
  have row (solution : Value) : FailsWith P (Row.ofSolution solution) := by
    simp only [Row.ofSolution, failsWith_bind]
    refine ⟨solution.failsWith_fields, fun fields _ => ?_⟩
    exact ⟨failsWith_mapM fun e _ => by simp [Term.failsWith_ofBinding], fun _ _ => by simp⟩
  have part (fields : Entries) (name : String) : FailsWith P (ResultSet.part fields name) := by
    unfold ResultSet.part
    split <;> simp
  have listed (fields : Entries) (name : String) :
      FailsWith P (ResultSet.membersOf fields name) := by
    unfold ResultSet.membersOf
    split <;> simp
  have rows (solutions : List Value) : FailsWith P (solutions.mapM Row.ofSolution) :=
    failsWith_mapM fun s _ => row s
  simp [ResultSet.ofAnswer, part, listed, rows]

theorem failsWith_askAnswer (answer : Value) : FailsWith P (askAnswer answer) := by
  simp [askAnswer]

theorem failsWith_aggregateValue (function : String) (r : ResultSet) :
    FailsWith P (Execution.aggregateValue function r) := by
  have number (t : Term) : FailsWith P (toNumber t) := by
    unfold toNumber
    split
    · simp
    · simp
    · extract_lets text body
      split
      · simp
      · split <;> simp
  unfold Execution.aggregateValue
  split
  · simp
  · simp [number]

theorem Admin.remote_judge (v : Vendor) (url : String) (task : Admin.Task) (reply : Reply) :
    FailsWith IsRemote (Admin.judge v url task reply) := by
  cases reply with
  | failed cause message => exact (failsWith_error _).2 (isRemote_protocol _)
  | answered status body =>
    unfold judge
    simp only
    split
    · simp
    · split
      · simp
      · exact (failsWith_error _).2 (isRemote_protocol _)

end

end SparqlClient
