import SparqlClient.Proofs.Connection.Executions

/-! Calls that execute something, on a connection or through a builder. Main statement: a call
sends one request and never a second one, unless its results are at hand or there is nothing to
send; and where a query cannot be written, bound or encoded, or a setting is refused, nothing has
been sent. Whether a request is sent, and which, does not depend on what the store would answer. -/

namespace SparqlClient

open Error

inductive Call
  | select (text : String) (values : Value) (cached : Bool) (time : Value)
  | ask (text : String) (values : Value)
  | construct (text : String) (values : Value)
  | update (text : String) (values : Value)
  | run (text : String) (values : Value)
  | insertGraph (data : Option Upload) (graph : Value)
  | replaceGraph (data : Option Upload) (graph : Value)
  | deleteGraph (graph : Value)
  | createNamespace (name properties : Value)
  | deleteNamespace (name : Value)
  | namespaceExists (name : Value)
  | execute (b : Builder) (e : Execution)

/-- A query whose results may be at hand: where it is asked, its text with the values in place,
and the time for which new results are kept. -/
structure Lookup where
  place : Connection
  text : String
  time : Value

namespace Lookup

def key (l : Lookup) : Outcome String := l.place.cacheKey l.text .null

def AtHand (l : Lookup) : Prop :=
  ∃ key r k, l.key = .ok key ∧ l.place.cache.get l.place.now (.text key) = .ok (some r, k)

theorem atHand_iff {l : Lookup} {key : String} {hit : Option ResultSet} {k : Cache ResultSet}
    (keyed : l.key = .ok key) (found : l.place.cache.get l.place.now (.text key) = .ok (hit, k)) :
    l.AtHand ↔ hit.isSome := by
  unfold AtHand
  rw [keyed]
  cases hit <;> simp [found]

end Lookup

namespace Connection

def selectRequest (c : Connection) (text : String) (values : Value) (cached : Bool) :
    Outcome (Option Request) :=
  match statementKind text with
  | .ask => (c.testRequest text values).map some
  | .update => (c.changeRequest text values).map some
  | _ => c.resultsRequest text values cached

def runRequest (c : Connection) (text : String) (values : Value) : Outcome (Option Request) :=
  match statementKind text with
  | .construct | .describe => (c.triplesRequest text values).map some
  | _ => c.selectRequest text values false

def lookup? (c : Connection) (text : String) (values : Value) (cached : Bool) (time : Value) :
    Option Lookup :=
  if cached then (c.prepared text values).toOption.map fun bound => ⟨c, bound, time⟩ else none

def selectLookup? (c : Connection) (text : String) (values : Value) (cached : Bool)
    (time : Value) : Option Lookup :=
  match statementKind text with
  | .ask | .update => none
  | _ => c.lookup? text values cached time

theorem local_prepared (c : Connection) (text : String) (values : Value) :
    FailsWith IsLocal (c.prepared text values) := by
  simp [prepared, Fragment.bound, local_ofCaller, local_bindValues]

theorem local_queryRequest (c : Connection) (text accept : String) :
    FailsWith IsLocal (c.queryRequest text accept) := by
  simp [queryRequest, local_queryEndpoint]

theorem local_resultsRequest (c : Connection) (text : String) (values : Value) (cached : Bool) :
    FailsWith IsLocal (c.resultsRequest text values cached) := by
  unfold resultsRequest
  refine failsWith_bind.2 ⟨c.local_prepared text values, fun bound _ => ?_⟩
  refine failsWith_ite.2 ⟨fun _ => ?_, fun _ => by simp [local_queryRequest]⟩
  refine failsWith_bind.2 ⟨c.local_cacheKey bound .null, fun key _ => ?_⟩
  refine failsWith_bind.2 ⟨Cache.failsWith_get _ _ _, fun (hit, _) _ => ?_⟩
  cases hit <;> simp [local_queryRequest]

theorem local_testRequest (c : Connection) (text : String) (values : Value) :
    FailsWith IsLocal (c.testRequest text values) := by
  simp [testRequest, local_prepared, local_queryRequest]

theorem local_triplesRequest (c : Connection) (text : String) (values : Value) :
    FailsWith IsLocal (c.triplesRequest text values) := by
  simp [triplesRequest, local_prepared, local_queryRequest]

theorem local_changeRequest (c : Connection) (text : String) (values : Value) :
    FailsWith IsLocal (c.changeRequest text values) := by
  simp [changeRequest, updateRequest, local_prepared, local_updateEndpoint]

theorem local_selectRequest (c : Connection) (text : String) (values : Value) (cached : Bool) :
    FailsWith IsLocal (c.selectRequest text values cached) := by
  unfold selectRequest
  split <;> simp [local_testRequest, local_changeRequest, local_resultsRequest]

theorem local_runRequest (c : Connection) (text : String) (values : Value) :
    FailsWith IsLocal (c.runRequest text values) := by
  unfold runRequest
  split <;> simp [local_triplesRequest, local_selectRequest]

theorem local_graphRequest (c : Connection) (method : String) (graph : Value)
    (data : Option Upload) : FailsWith IsLocal (c.graphRequest method graph data) := by
  unfold graphRequest
  refine failsWith_bind.2 ⟨c.local_graphUrl graph, fun url _ => ?_⟩
  cases data <;> simp [local_ntriples]

theorem resultsRequest_eq_none_iff {c : Connection} {text : String} {values : Value}
    {cached : Bool} (time : Value) {request : Option Request}
    (h : c.resultsRequest text values cached = .ok request) :
    request = none ↔ ∃ l, c.lookup? text values cached time = some l ∧ l.AtHand := by
  obtain ⟨bound, prepared, h⟩ := Outcome.bind_eq_ok_iff.1 h
  unfold lookup?
  cases cached with
  | false =>
    obtain ⟨r, -, h⟩ := Outcome.bind_eq_ok_iff.1 h
    simp [Outcome.pure_eq_ok_iff.1 h]
  | true =>
    obtain ⟨key, keyed, h⟩ := Outcome.bind_eq_ok_iff.1 h
    obtain ⟨⟨hit, k⟩, found, h⟩ := Outcome.bind_eq_ok_iff.1 h
    have atHand := Lookup.atHand_iff (l := ⟨c, bound, time⟩) keyed found
    have looked : (if true then (c.prepared text values).toOption.map fun bound =>
        (⟨c, bound, time⟩ : Lookup) else none) = some ⟨c, bound, time⟩ := by
      rw [prepared]
      rfl
    rw [looked]
    cases hit with
    | some r => simp [atHand, Outcome.pure_eq_ok_iff.1 h]
    | none =>
      obtain ⟨r, -, h⟩ := Outcome.bind_eq_ok_iff.1 h
      simp [atHand, Outcome.pure_eq_ok_iff.1 h]

theorem local_taskRequest (c : Connection) (name : Value) (task : Admin.Task) :
    FailsWith IsLocal (c.taskRequest name task) := by
  simp [taskRequest, Namespace.local_validate, Vendor.local_requireNamespaces, Admin.local_request]

end Connection

namespace Execution

theorem written_eq_none_iff {b : Builder} {e : Execution} {c : Connection}
    {content : Option Fragment} (h : e.written b c = .ok content) :
    content = none ↔ e.batchSize? = .ok (some 0) := by
  unfold written at h
  obtain ⟨size, counted, h⟩ := Outcome.bind_eq_ok_iff.1 h
  rw [counted]
  split at h
  · simp [Outcome.pure_eq_ok_iff.1 h]
  · rename_i filled
    obtain ⟨f, -, h⟩ := Outcome.bind_eq_ok_iff.1 h
    simpa [Outcome.pure_eq_ok_iff.1 h] using filled

def rowsOf? (b : Builder) (e : Execution) (f : Fragment) (c : Connection) : Option Lookup :=
  match e with
  | .get _ | .first | .aggregate .. =>
    c.lookup? f.text (.list f.bindings) b.remembered b.timeToLive
  | _ => none

def lookup? (b : Builder) (e : Execution) (c : Connection) : Option Lookup := do
  let f ← (← (e.written b c).toOption)
  e.rowsOf? b f (← (e.place b c).toOption)

theorem local_request? (b : Builder) (e : Execution) (c : Connection) :
    FailsWith IsLocal (e.request? b c) := by
  have written : FailsWith IsLocal (e.written b c) := by
    refine failsWith_bind.2 ⟨e.failsWith_batchSize?, fun size _ => ?_⟩
    split <;> simp [local_query]
  have place : FailsWith IsLocal (e.place b c) := by
    unfold Execution.place
    cases e.scope? b with
    | none => exact failsWith_ok c
    | some name => simp [Connection.moved, Namespace.local_validate,
        Vendor.local_requireNamespaces, Connection.local_queryEndpoint]
  have query (f : Fragment) (d : Connection) : FailsWith IsLocal (e.queryRequest b f d) := by
    cases e <;> simp [queryRequest, Connection.local_resultsRequest, Connection.local_testRequest,
      Connection.local_triplesRequest, Connection.local_changeRequest, Connection.local_cacheKey]
  refine failsWith_bind.2 ⟨written, fun content _ => ?_⟩
  cases content <;> simp [place, query]

end Execution

namespace Call

def exchange : Call → Exchange Answer
  | .select text values cached time => Exchange.select text values cached time
  | .ask text values => do return .ask (← Exchange.test text values)
  | .construct text values => do return .value (.text (← Exchange.construct text values))
  | .update text values => do
    Exchange.update text values
    return .value (.bool true)
  | .run text values => Exchange.run text values
  | .insertGraph data graph => do
    Exchange.graphRequest "POST" graph data
    return .value (.bool true)
  | .replaceGraph data graph => do
    Exchange.graphRequest "PUT" graph data
    return .value (.bool true)
  | .deleteGraph graph => do
    Exchange.deleteGraph graph
    return .value (.bool true)
  | .createNamespace name properties => do
    return .value (.bool (← Exchange.createNamespace name properties))
  | .deleteNamespace name => do return .value (.bool (← Exchange.deleteNamespace name))
  | .namespaceExists name => do return .value (.bool (← Exchange.namespaceExists name))
  | .execute b e => Exchange.execute b e

/-- The request of a call, settled before anything is sent. -/
def request? : Call → Connection → Outcome (Option Request)
  | .select text values cached _, c => c.selectRequest text values cached
  | .ask text values, c => (c.testRequest text values).map some
  | .construct text values, c => (c.triplesRequest text values).map some
  | .update text values, c => (c.changeRequest text values).map some
  | .run text values, c => c.runRequest text values
  | .insertGraph data graph, c => (c.graphRequest "POST" graph data).map some
  | .replaceGraph data graph, c => (c.graphRequest "PUT" graph data).map some
  | .deleteGraph graph, c => (c.graphRequest "DELETE" graph none).map some
  | .createNamespace name properties, c => (c.taskRequest name (.create properties)).map some
  | .deleteNamespace name, c => (c.taskRequest name .delete).map some
  | .namespaceExists name, c => (c.taskRequest name .exists).map some
  | .execute b e, c => e.request? b c

def lookup? : Call → Connection → Option Lookup
  | .select text values cached time, c => c.selectLookup? text values cached time
  | .execute b e, c => e.lookup? b c
  | _, _ => none

/-- An empty batch, or only the question for a key. -/
def IsIdle : Call → Prop
  | .execute _ e => e.batchSize? = .ok (some 0) ∨ e = .cacheKey
  | _ => False

def Spared (call : Call) (c : Connection) : Prop :=
  call.IsIdle ∨ ∃ l, call.lookup? c = some l ∧ l.AtHand

end Call

namespace Exchange

variable {c : Connection}

theorem select_performs (text : String) (values : Value) (cached : Bool) (time : Value) :
    Performs (select text values cached time) c (c.selectRequest text values cached) := by
  unfold select Connection.selectRequest
  cases statementKind text with
  | ask => exact (test_performs _ _).bind fun _ _ _ _ _ => settles_pure _
  | update => exact (update_performs _ _).bind fun _ _ _ _ _ => settles_pure _
  | _ => exact (results_performs _ _ _ _).bind fun _ _ _ _ _ => settles_pure _

theorem run_performs (text : String) (values : Value) :
    Performs (run text values) c (c.runRequest text values) := by
  unfold run Connection.runRequest
  cases statementKind text with
  | construct => exact (construct_performs _ _).bind fun _ _ _ _ _ => settles_pure _
  | describe => exact (construct_performs _ _).bind fun _ _ _ _ _ => settles_pure _
  | _ => exact select_performs text values false .null

end Exchange

namespace Call

open Exchange

theorem performs {call : Call} (c : Connection) (h : ∀ b e, call ≠ .execute b e) :
    Performs call.exchange c (call.request? c) := by
  cases call with
  | select text values cached time => exact select_performs text values cached time
  | ask text values => exact (test_performs _ _).bind fun _ _ _ _ _ => settles_pure _
  | construct text values => exact (construct_performs _ _).bind fun _ _ _ _ _ => settles_pure _
  | update text values => exact (update_performs _ _).bind fun _ _ _ _ _ => settles_pure _
  | run text values => exact run_performs text values
  | insertGraph data graph =>
    exact (graphRequest_performs _ _ _).bind fun _ _ _ _ _ => settles_pure _
  | replaceGraph data graph =>
    exact (graphRequest_performs _ _ _).bind fun _ _ _ _ _ => settles_pure _
  | deleteGraph graph => exact (graphRequest_performs _ _ _).bind fun _ _ _ _ _ => settles_pure _
  | createNamespace name properties =>
    exact (createNamespace_performs _ _).bind fun _ _ _ _ _ => settles_pure _
  | deleteNamespace name => exact (deleteNamespace_performs _).bind fun _ _ _ _ _ => settles_pure _
  | namespaceExists name => exact (administer_performs _ _).bind fun _ _ _ _ _ => settles_pure _
  | execute b e => exact absurd rfl (h b e)

theorem sends (call : Call) (c : Connection) : Sends call.exchange c (call.request? c) := by
  cases call with
  | execute b e => exact execute_sends b e
  | _ => exact (performs c fun b e => by simp).sends

/-! Nothing of a plan is the report of an exchange. -/

theorem local_request? (call : Call) (c : Connection) :
    FailsWith IsLocal (call.request? c) := by
  cases call with
  | select text values cached time => exact c.local_selectRequest text values cached
  | run text values => exact c.local_runRequest text values
  | execute b e => exact Execution.local_request? b e c
  | _ => simp [request?, Connection.local_testRequest, Connection.local_triplesRequest,
      Connection.local_changeRequest, Connection.local_graphRequest, Connection.local_taskRequest]

theorem ne_none_of_map {x : Outcome Request} {request : Option Request}
    (h : x.map some = .ok request) : request ≠ none := by
  obtain ⟨r, -, rfl⟩ := Outcome.map_eq_ok_iff.1 h
  simp

theorem selectRequest_eq_none_iff {c : Connection} {text : String} {values : Value}
    {cached : Bool} (time : Value) {request : Option Request}
    (h : c.selectRequest text values cached = .ok request) :
    request = none ↔ ∃ l, (select text values cached time).lookup? c = some l ∧ l.AtHand := by
  unfold Connection.selectRequest at h
  unfold lookup? Connection.selectLookup?
  cases kind : statementKind text with
  | ask =>
    rw [kind] at h
    simp [kind, ne_none_of_map h]
  | update =>
    rw [kind] at h
    simp [kind, ne_none_of_map h]
  | _ =>
    rw [kind] at h
    simp only [kind]
    exact Connection.resultsRequest_eq_none_iff time h

theorem execute_eq_none_iff {b : Builder} {e : Execution} {c : Connection}
    {request : Option Request} (h : e.request? b c = .ok request) :
    request = none ↔ (execute b e).Spared c := by
  obtain ⟨content, written, h⟩ := Outcome.bind_eq_ok_iff.1 h
  have idle := Execution.written_eq_none_iff written
  cases content with
  | none => simp [Outcome.pure_eq_ok_iff.1 h, Spared, IsIdle, idle.1 rfl]
  | some f =>
    obtain ⟨d, place, h⟩ := Outcome.bind_eq_ok_iff.1 h
    have busy : e.batchSize? ≠ .ok (some 0) := fun empty => nomatch idle.2 empty
    cases e with
    | get | first | aggregate =>
      have rows := Connection.resultsRequest_eq_none_iff b.timeToLive h
      simpa [Spared, IsIdle, lookup?, Execution.lookup?, Execution.rowsOf?, busy, written, place,
        Except.toOption] using rows
    | cacheKey =>
      obtain ⟨key, -, h⟩ := Outcome.map_eq_ok_iff.1 h
      simp [Spared, IsIdle, ← h]
    | _ =>
      simp [Spared, IsIdle, lookup?, Execution.lookup?, Execution.rowsOf?, busy, written, place,
        Except.toOption, ne_none_of_map h]

theorem request?_eq_none_iff {call : Call} {c : Connection} {request : Option Request}
    (h : call.request? c = .ok request) : request = none ↔ call.Spared c := by
  cases call with
  | select text values cached time =>
    simp only [Spared, IsIdle, false_or]
    exact selectRequest_eq_none_iff time h
  | run text values =>
    have sent : request ≠ none := by
      change c.runRequest text values = .ok request at h
      unfold Connection.runRequest at h
      split at h
      · exact ne_none_of_map h
      · exact ne_none_of_map h
      · have uncached : (select text values false .null).lookup? c = none := by
          simp only [lookup?, Connection.selectLookup?, Connection.lookup?]
          split <;> rfl
        simp [selectRequest_eq_none_iff .null h, uncached]
    simp [Spared, IsIdle, lookup?, sent]
  | execute b e => exact execute_eq_none_iff h
  | _ => simp [Spared, IsIdle, lookup?, ne_none_of_map h]

end Call

/-- Whatever the store answers, a call sends its one request or nothing. -/
theorem one_request (call : Call) (c : Connection) :
    let result := (call.exchange.runOn c).1
    let sent := (call.exchange.runOn c).2.session.sent
    (sent = c.session.sent ∨ ∃ r, sent = c.session.sent ++ [.request r]) ∧
    (∀ answer, result = .ok answer →
      (call.Spared c → sent = c.session.sent) ∧
      (¬call.Spared c → ∃ r, sent = c.session.sent ++ [.request r])) ∧
    (∀ failure, result = .error (.protocol failure) →
      ∃ r, sent = c.session.sent ++ [.request r]) ∧
    (∀ cause, result = .error (.compilation cause) → sent = c.session.sent) ∧
    (∀ cause, result = .error (.configuration cause) → sent = c.session.sent) ∧
    ∀ e, call.request? c = .error e → result = .error e ∧ sent = c.session.sent := by
  intro result sent
  have sends := call.sends c
  cases plan : call.request? c with
  | error e =>
    rw [plan] at sends
    have failed : result = .error e := sends.1
    have nothing : sent = c.session.sent := congrArg Session.sent sends.2
    have known : IsLocal e := call.local_request? c e plan
    simp [failed, nothing, known _]
  | ok request =>
    rw [plan] at sends
    have fails : FailsWith (Exchange.Behind request) result := sends.1
    have spared := Call.request?_eq_none_iff plan
    cases request with
    | none =>
      have nothing : sent = c.session.sent := congrArg Session.sent sends.2
      have failure : ∀ f, result ≠ .error (.protocol f) := fun f h => (fails _ h).1 f rfl
      simp [nothing, failure, ← spared]
    | some r =>
      have one : sent = c.session.sent ++ [.request r] := congrArg Session.sent sends.2
      have query : ∀ cause, result ≠ .error (.compilation cause) := fun cause h =>
        (fails _ h).1 cause rfl
      have setting : ∀ cause, result ≠ .error (.configuration cause) := fun cause h =>
        (fails _ h).2 cause rfl
      simp [one, query, setting, ← spared]

end SparqlClient
