import SparqlClient.Proofs.Connection.Sends

/-! The one request of each exchange. Queries, updates, uploads and tasks of administration are
followed step by step to the request that they send; results that are at hand are the one case in
which none is sent. -/

namespace SparqlClient.Exchange

open Error

variable {c : Connection}

theorem request_performs (r : Request) : Performs (request r) c (.ok (some r)) := by
  unfold request
  refine (exchange_performs _ r _).bind ?_
  rintro _ ⟨⟩ ⟨status, body⟩ d _
  simp only
  split
  · exact settles_pure _
  · exact settles_get.bind fun _ _ _ _ => settles_throw (isRemote_protocol _)

theorem query_performs (text accept : String) :
    Performs (query text accept) c ((c.queryRequest text accept).map some) := by
  unfold query Connection.queryRequest
  rw [Outcome.map_bind]
  exact performs_ask fun url _ => performs_get (request_performs _)

/-- An answer that is not JSON is reported with the endpoint, which is known by then. -/
theorem answer_performs (text : String) :
    Performs (answer text) c ((c.queryRequest text Connection.answerType).map some) := by
  unfold answer
  refine (query_performs text _).bind fun request plan body d steady => ?_
  obtain ⟨r, planned, rfl⟩ := Outcome.map_eq_ok_iff.1 plan
  obtain ⟨url, known, -⟩ := Outcome.bind_eq_ok_iff.1 planned
  refine settles_get.bind fun _ d' still _ => ?_
  split
  · exact settles_pure _
  · exact settles_throw (AllowsMisuse.misuse _)
  · refine (settles_ask ?_).bind fun _ _ _ _ =>
      settles_get.bind fun _ _ _ _ => settles_throw (isRemote_protocol _)
    rw [(steady.trans still).queryEndpoint, known]
    exact failsWith_ok url

theorem fetch_performs (text : String) :
    Performs (fetch text) c ((c.queryRequest text Connection.answerType).map some) :=
  (answer_performs text).bind fun _ _ answer _ _ => settles_lift (failsWith_ofAnswer answer)

theorem remembered_performs {key : String} {time : Value} {produce : Exchange ResultSet}
    {plan : Outcome (Option Request)}
    (h : ∀ k, Performs produce { c with cache := k } plan) :
    Performs (remembered key time produce) c (do
      let (hit, _) ← c.cache.get c.now (.text key)
      match hit with
      | some _ => return none
      | none => plan) := by
  unfold remembered
  refine performs_ask fun (hit, k) _ => ?_
  refine performs_behind (runOn_modify _) (c.steady_with k _ _) rfl ?_
  cases hit with
  | some r => exact (settles_pure (r, true)).performs
  | none =>
    refine (h k).bind fun _ _ r d _ => ?_
    exact (settles_ask (Cache.failsWith_set _ _ _ _ _)).bind fun _ _ _ _ =>
      (settles_cache _).bind fun _ _ _ _ => settles_pure _

theorem results_performs (text : String) (values : Value) (cached : Bool) (time : Value) :
    Performs (results text values cached time) c (c.resultsRequest text values cached) := by
  unfold results Connection.resultsRequest
  refine performs_ask fun bound _ => ?_
  cases cached with
  | false => exact fetch_performs bound
  | true =>
    refine performs_ask fun key _ => ?_
    refine (remembered_performs fun k => fetch_performs bound).bind fun request _ r d _ => ?_
    simp only
    split
    · exact settles_get.bind fun _ _ _ _ => (settles_record _ _ _).bind fun _ _ _ _ =>
        settles_pure _
    · exact settles_pure _

theorem test_performs (text : String) (values : Value) :
    Performs (test text values) c ((c.testRequest text values).map some) := by
  unfold test Connection.testRequest
  rw [Outcome.map_bind]
  exact performs_ask fun bound _ => (answer_performs bound).bind fun _ _ answer _ _ =>
    settles_lift (failsWith_askAnswer answer)

theorem construct_performs (text : String) (values : Value) :
    Performs (construct text values) c ((c.triplesRequest text values).map some) := by
  unfold construct Connection.triplesRequest
  rw [Outcome.map_bind]
  exact performs_ask fun bound _ => query_performs bound _

theorem update_performs (text : String) (values : Value) :
    Performs (update text values) c ((c.changeRequest text values).map some) := by
  unfold update Connection.changeRequest Connection.updateRequest
  simp only [Outcome.map_bind]
  exact performs_ask fun bound _ => performs_ask fun url _ => performs_get
    ((request_performs _).bind fun _ _ _ _ _ => settles_pure _)

theorem graphRequest_performs (method : String) (graph : Value) (data : Option Upload) :
    Performs (graphRequest method graph data) c ((c.graphRequest method graph data).map some) := by
  unfold graphRequest Connection.graphRequest
  rw [Outcome.map_bind]
  refine performs_ask fun url _ => performs_get ?_
  rcases data with _ | u
  on_goal 2 =>
    simp only [Outcome.map_bind]
    refine performs_ask fun text _ => ?_
  all_goals
    refine (exchange_performs _ _ _).bind ?_
    rintro _ ⟨⟩ ⟨status, body⟩ d _
    refine (settles_lift (Vendor.failsWith_accepts _ _ _ _)).bind fun _ _ _ _ => ?_
    split
    · exact settles_pure _
    · exact settles_throw (isRemote_protocol _)

theorem administer_performs (name : Value) (task : Admin.Task) :
    Performs (administer name task) c ((c.taskRequest name task).map some) := by
  unfold administer Connection.taskRequest
  simp only [Outcome.map_bind]
  refine performs_lift fun _ _ => performs_ask fun _ _ => performs_get ?_
  unfold Admin.run
  cases Admin.request c.vendor c.config.endpoint name (.float c.config.timeout) task with
  | error e => exact ⟨.refl c, rfl, rfl⟩
  | ok r =>
    have sent : Performs (modify ({ · with session := (c.session.send r).2 }) : Exchange PUnit) c
        (.ok (some r)) :=
      ⟨c.steady_with _ (c.session.send r).2 _, failsWith_ok _, rfl⟩
    refine sent.bind ?_
    rintro _ ⟨⟩ _ d _
    exact settles_lift (Admin.remote_judge _ _ _ _)

theorem createNamespace_performs (name properties : Value) :
    Performs (createNamespace name properties) c
      ((c.taskRequest name (.create properties)).map some) :=
  (administer_performs name _).bind fun _ _ _ _ _ =>
    (settles_get.bind fun _ _ _ _ => settles_record _ _ _).bind fun _ _ _ _ => settles_pure _

theorem deleteNamespace_performs (name : Value) :
    Performs (deleteNamespace name) c ((c.taskRequest name .delete).map some) :=
  (administer_performs name _).bind fun _ _ _ _ _ =>
    (settles_get.bind fun _ _ _ _ => settles_record _ _ _).bind fun _ _ _ _ => settles_pure _

end SparqlClient.Exchange
