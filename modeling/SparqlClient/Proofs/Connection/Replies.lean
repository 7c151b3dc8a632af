import SparqlClient.Proofs.Cache.Entries
import SparqlClient.Proofs.Connection.Remembered
import SparqlClient.Proofs.Failure.Document

/-! What a store can make of a call. Main statement: a call that has sent its request ends with an
answer, or with a report of the reply that names the store, the URL and the status that refused it,
or for a time that cannot be kept, or for a body with more levels of nesting than there is room
for; as long as a reply that is JSON has the form that the call reads. -/

namespace SparqlClient

/-- How a reply is reported that is no answer, with the store and the URL. -/
inductive Reply.Reports (v : Vendor) (url : String) (levels : ℕ) : Reply → Error → Prop
  | failed (cause message : String) :
    Reports v url levels (.failed cause message) (.protocol ⟨v.name, url, message, none, some cause⟩)
  | refused {status : Int} (body : String) (refused : Vendor.isSuccess status = false) :
    Reports v url levels (.answered status body)
      (.protocol ⟨v.name, url, Text.first 500 body, some status, none⟩)
  | unread {status : Int} {body : String} (success : Vendor.isSuccess status)
    (unread : Json.read levels body = .error .malformed) :
    Reports v url levels (.answered status body)
      (.protocol ⟨v.name, url, "Invalid JSON response", none, some "JSONDecodeError"⟩)

namespace Connection

/-- What comes of reading the body of a reply that reports success. -/
def Reads (c : Connection) (r : Request) (x : Except Json.Fault Value) : Prop :=
  ∃ status body, (c.session.send r).1 = .answered status body ∧ Vendor.isSuccess status ∧
    Json.read c.levels body = x

def Reports (c : Connection) (r : Request) (e : Error) : Prop :=
  (c.session.send r).1.Reports c.vendor r.url c.levels e

theorem resultsRequest_fetched {c : Connection} {text bound : String} {values : Value}
    (prepared : c.prepared text values = .ok bound) :
    c.resultsRequest text values false = (c.queryRequest bound answerType).map some := by
  rw [resultsRequest, prepared]
  rfl

theorem resultsRequest_missing {c : Connection} {text bound key : String} {values : Value}
    {k : Cache ResultSet} (prepared : c.prepared text values = .ok bound)
    (keyed : c.cacheKey bound .null = .ok key)
    (missing : c.cache.get c.now (.text key) = .ok (none, k)) :
    c.resultsRequest text values true = (c.queryRequest bound answerType).map some := by
  simp only [resultsRequest, prepared, keyed, missing, bind, Except.bind, if_true]
  rfl

/-- What can go wrong with a good plan; `P` is the caller's own part in it. -/
def Faults (c : Connection) (P : Error → Prop) : Option Request → Error → Prop
  | none, _ => False
  | some r, e => c.Reports r e ∨ P e

theorem failsWith_of_reports {α : Type} {P : Error → Prop} {c : Connection} {r : Request}
    {reply : Reply} {e : Error} (replied : (c.session.send r).1 = reply)
    (h : reply.Reports c.vendor r.url c.levels e) :
    FailsWith (c.Faults P (some r)) (.error e : Outcome α) := by
  refine (failsWith_error e).2 (.inl ?_)
  rw [Reports, replied]
  exact h

end Connection

inductive Use
  | unread
  | truth
  | rows
  | number
  deriving DecidableEq

/-- The form of JSON value that is read in this way. -/
def Use.Suits : Use → Value → Prop
  | .unread, _ => True
  | .truth, v => ∃ fields, v = .map fields
  | .rows, v => ResultSet.IsDocument v
  | .number, v => ResultSet.IsDocument v ∧ ∀ rows, ResultSet.ofAnswer v = .ok rows → rows.IsShort

/-- What is read suits the use, unless `P` allows for a body that there is no room for. -/
def Use.Admits (P : Error → Prop) (use : Use) : Except Json.Fault Value → Prop
  | .ok v => use.Suits v
  | .error .tooDeep => use ≠ .unread → P (.misuse .tooDeep)
  | .error .malformed => True

theorem Use.Admits.rows {P : Error → Prop} {x : Except Json.Fault Value}
    (h : Use.number.Admits P x) : Use.rows.Admits P x := by
  match x, h with
  | .ok _, h => exact h.1
  | .error .tooDeep, h => exact fun _ => h (by decide)
  | .error .malformed, _ => trivial

namespace Exchange

variable {α β : Type} {P : Error → Prop} {c : Connection} {m : Exchange α} {f : α → Exchange β}

def Heeds (P : Error → Prop) (m : Exchange α) (c : Connection)
    (plan : Outcome (Option Request)) : Prop :=
  ∀ request, plan = .ok request → FailsWith (c.Faults P request) (m.runOn c).1

theorem failsWith_runOn_bind {Q : Error → Prop} (hm : FailsWith Q (m.runOn c).1)
    (hf : ∀ a d, m.runOn c = (.ok a, d) → FailsWith Q ((f a).runOn d).1) :
    FailsWith Q ((m >>= f).runOn c).1 := by
  rw [runOn_bind]
  cases ran : m.runOn c with
  | mk r d =>
    cases r with
    | error e => exact (failsWith_error e).2 (hm e (by rw [ran]))
    | ok a => exact hf a d ran

theorem Heeds.bind {plan : Outcome (Option Request)} (hm : Heeds P m c plan)
    (hf : ∀ request, plan = .ok request → ∀ a d, m.runOn c = (.ok a, d) →
      FailsWith (c.Faults P request) ((f a).runOn d).1) : Heeds P (m >>= f) c plan :=
  fun request planned => failsWith_runOn_bind (hm request planned) (hf request planned)

theorem heeds_known {x : Outcome α} {plan : α → Outcome (Option Request)}
    (ran : m.runOn c = (x, c)) (h : ∀ a, x = .ok a → Heeds P (f a) c (plan a)) :
    Heeds P (m >>= f) c (x >>= plan) := by
  intro request planned
  obtain ⟨a, rfl, planned⟩ := Outcome.bind_eq_ok_iff.1 planned
  rw [runOn_bind, ran]
  exact h a rfl request planned

theorem heeds_ask {g : Connection → Outcome α} {plan : α → Outcome (Option Request)}
    (h : ∀ a, g c = .ok a → Heeds P (f a) c (plan a)) :
    Heeds P (ask g >>= f) c (g c >>= plan) :=
  heeds_known (runOn_ask g) h

theorem heeds_lift {x : Outcome α} {plan : α → Outcome (Option Request)}
    (h : ∀ a, x = .ok a → Heeds P (f a) c (plan a)) :
    Heeds P ((liftM x : Exchange α) >>= f) c (x >>= plan) :=
  heeds_known (runOn_lift x) h

theorem heeds_get {g : Connection → Exchange β} {plan : Outcome (Option Request)}
    (h : Heeds P (g c) c plan) : Heeds P (get >>= g) c plan := by
  intro request planned
  rw [runOn_bind, runOn_get]
  exact h request planned

/-! Steps behind the request that cannot fail. -/

theorem failsWith_runOn_pure {Q : Error → Prop} (a : α) :
    FailsWith Q ((pure a : Exchange α).runOn c).1 :=
  failsWith_ok a

theorem failsWith_runOn_record {Q : Error → Prop} (level : Log.Level) (event : String)
    (fields : Entries) : FailsWith Q ((record level event fields).runOn c).1 := by
  obtain ⟨e, ran⟩ := runOn_record (c := c) level event fields
  rw [ran]
  exact failsWith_ok ()

theorem failsWith_runOn_recordTask {Q : Error → Prop} (event : String) (name : Value)
    (result : String) (done : Bool) :
    FailsWith Q ((recordTask event name result done).runOn c).1 :=
  failsWith_runOn_bind (failsWith_ok c) fun _ _ _ => failsWith_runOn_record _ _ _

theorem Heeds.map {plan : Outcome (Option Request)} {g : α → β} (hm : Heeds P m c plan) :
    Heeds P (m >>= fun a => pure (g a)) c plan :=
  hm.bind fun _ _ _ _ _ => failsWith_runOn_pure _

theorem request_heeds (r : Request) : Heeds P (request r) c (.ok (some r)) := by
  rintro _ ⟨⟩
  obtain ⟨events, ran⟩ := runOn_exchange (c := c) "sparql" r fun _ _ => []
  unfold request
  rw [runOn_bind, ran]
  cases reply : (c.session.send r).1 with
  | failed cause message => exact Connection.failsWith_of_reports reply (.failed cause message)
  | answered status body =>
    simp only
    split
    · exact failsWith_ok _
    · rename_i refused
      exact Connection.failsWith_of_reports reply (.refused body (Bool.eq_false_iff.2 refused))

theorem query_heeds (text accept : String) :
    Heeds P (query text accept) c ((c.queryRequest text accept).map some) := by
  unfold query Connection.queryRequest
  rw [Outcome.map_bind]
  exact heeds_ask fun url _ => heeds_get (request_heeds _)

theorem answer_heeds {text : String} (deep : ∀ r,
    c.queryRequest text Connection.answerType = .ok r → c.Reads r (.error .tooDeep) →
      P (.misuse .tooDeep)) :
    Heeds P (answer text) c ((c.queryRequest text Connection.answerType).map some) := by
  unfold answer
  refine (query_heeds text _).bind fun request plan body d ran => ?_
  obtain ⟨r, planned, rfl⟩ := Outcome.map_eq_ok_iff.1 plan
  obtain ⟨r', status, planned', success, reply⟩ := query_ok ran
  obtain rfl : r = r' := Except.ok.inj (planned.symm.trans planned')
  have steady := (query_performs (c := c) text "application/sparql-results+json").steady
  rw [ran] at steady
  rw [runOn_bind, runOn_get]
  simp only
  split
  · exact failsWith_runOn_pure _
  · rename_i nested
    rw [steady.levels] at nested
    exact (failsWith_error _).2 (.inr (deep r planned ⟨status, body, reply, success, nested⟩))
  · rename_i unread
    -- the endpoint that is reported is the one that was asked
    obtain ⟨url, known, asked⟩ := Outcome.bind_eq_ok_iff.1 planned
    obtain rfl := Outcome.pure_eq_ok_iff.1 asked
    rw [runOn_bind, runOn_ask, steady.queryEndpoint, known]
    refine Connection.failsWith_of_reports reply ?_
    rw [steady.levels] at unread
    rw [← steady.vendor]
    exact .unread success unread

theorem fetch_heeds {text : String} (admits : ∀ r x,
    c.queryRequest text Connection.answerType = .ok r → c.Reads r x → Use.rows.Admits P x) :
    Heeds P (fetch text) c ((c.queryRequest text Connection.answerType).map some) := by
  have deep (r : Request) (planned : c.queryRequest text Connection.answerType = .ok r)
      (nested : c.Reads r (.error .tooDeep)) : P (.misuse .tooDeep) :=
    admits r _ planned nested (by decide)
  refine (answer_heeds deep).bind fun request _ v d ran => ?_
  obtain ⟨r, status, body, planned, success, reply, parsed⟩ := answer_ok ran
  rw [runOn_lift]
  exact ResultSet.failsWith_ofAnswer_of_isDocument
    (admits r (.ok v) planned ⟨status, body, reply, success, parsed⟩)

theorem remembered_heeds {key : String} {time : Value} {text : String}
    (late : ∀ e, c.now.ending time = .error e → P e)
    (admits : ∀ k, c.cache.get c.now (.text key) = .ok (none, k) → ∀ r x,
      c.queryRequest text Connection.answerType = .ok r → c.Reads r x → Use.rows.Admits P x) :
    Heeds P (remembered key time (fetch text)) c (do
      let (hit, _) ← c.cache.get c.now (.text key)
      match hit with
      | some _ => return none
      | none => return some (← c.queryRequest text Connection.answerType)) := by
  unfold remembered
  refine heeds_ask fun (hit, k) found request planned => ?_
  rw [runOn_bind, runOn_modify]
  cases hit with
  | some rows => exact failsWith_ok _
  | none =>
    have fetched := (fetch_heeds (P := P) (c := { c with cache := k }) (admits k found)).bind
      (f := fun rows => keep key time rows) ?_
    · exact fetched request planned
    · intro request plan rows d ran
      have steady := (fetch_performs (c := { c with cache := k }) text).steady
      rw [ran] at steady
      obtain ⟨r, -, rfl⟩ := Outcome.map_eq_ok_iff.1 plan
      rw [runOn_keep, Cache.set_eq, steady.now]
      cases ends : c.now.ending time with
      | error e => exact (failsWith_error e).2 (.inr (late e ends))
      | ok expires => exact failsWith_ok _

theorem results_heeds {text : String} {values : Value} {cached : Bool} {time : Value}
    (late : cached → ∀ e, c.now.ending time = .error e → P e)
    (admits : ∀ r x, c.resultsRequest text values cached = .ok (some r) → c.Reads r x →
      Use.rows.Admits P x) :
    Heeds P (results text values cached time) c (c.resultsRequest text values cached) := by
  unfold results
  refine heeds_ask fun bound prepared => ?_
  have bound_eq : c.prepared text values = .ok bound := prepared
  cases cached with
  | false =>
    refine fetch_heeds fun r x asked => admits r x ?_
    rw [Connection.resultsRequest_fetched bound_eq, asked]
    rfl
  | true =>
    refine heeds_ask fun key keyed => ?_
    refine (remembered_heeds (late rfl) fun k missing r x asked => admits r x ?_).bind
      fun request _ (rows, hit) d _ => ?_
    · rw [Connection.resultsRequest_missing bound_eq keyed missing, asked]
      rfl
    · simp only
      split
      · exact failsWith_runOn_bind (failsWith_ok d) fun _ _ _ =>
          failsWith_runOn_bind (failsWith_runOn_record _ _ _) fun _ _ _ => failsWith_runOn_pure _
      · exact failsWith_runOn_pure _

theorem remembered_ok {key text : String} {time : Value} {rows : ResultSet} {hit : Bool}
    {d : Connection} (h : (remembered key time (fetch text)).runOn c = (.ok (rows, hit), d)) :
    (∃ e ∈ c.cache.entries, e.value = rows) ∨ ∃ r,
      (∃ k, c.cache.get c.now (.text key) = .ok (none, k)) ∧
        c.queryRequest text Connection.answerType = .ok r ∧
          (c.session.send r).1.Decodes c.levels rows := by
  obtain ⟨⟨found, k⟩, c₁, looked, h⟩ := runOn_bind_ok h
  rw [runOn_ask] at looked
  obtain ⟨got, rfl⟩ := Prod.mk.inj looked
  obtain ⟨_, c₂, kept, h⟩ := runOn_bind_ok h
  obtain rfl : { c with cache := k } = c₂ := (Prod.mk.inj kept).2
  cases found with
  | some r =>
    cases h
    obtain ⟨e, member, -, value, -⟩ := (Cache.get_eq_ok got).2 rows rfl
    exact .inl ⟨e, member, value⟩
  | none =>
    obtain ⟨fetched, c₃, ran, h⟩ := runOn_bind_ok h
    obtain ⟨r, planned, decodes⟩ := fetch_ok ran
    obtain ⟨_, c₄, -, h⟩ := runOn_bind_ok h
    obtain ⟨_, c₅, -, h⟩ := runOn_bind_ok h
    cases h
    exact .inr ⟨r, ⟨k, got⟩, planned, decodes⟩

theorem results_ok {text : String} {values : Value} {cached : Bool} {time : Value}
    {rows : ResultSet} {d : Connection}
    (h : (results text values cached time).runOn c = (.ok rows, d)) :
    (∃ e ∈ c.cache.entries, e.value = rows) ∨ ∃ r,
      c.resultsRequest text values cached = .ok (some r) ∧
        (c.session.send r).1.Decodes c.levels rows := by
  obtain ⟨bound, c₁, prepared, h⟩ := runOn_bind_ok h
  rw [prepare, runOn_ask] at prepared
  obtain ⟨known, rfl⟩ := Prod.mk.inj prepared
  have bound_eq : c.prepared text values = .ok bound := known
  cases cached with
  | false =>
    obtain ⟨r, asked, decodes⟩ := fetch_ok h
    refine .inr ⟨r, ?_, decodes⟩
    rw [Connection.resultsRequest_fetched bound_eq, asked]
    rfl
  | true =>
    obtain ⟨key, c₁, sought, h⟩ := runOn_bind_ok h
    rw [runOn_ask] at sought
    obtain ⟨keyed, rfl⟩ := Prod.mk.inj sought
    obtain ⟨⟨brought, hit⟩, c₂, ran, h⟩ := runOn_bind_ok h
    obtain rfl : brought = rows := by
      cases hit with
      | false =>
        cases h
        rfl
      | true =>
        obtain ⟨_, c₃, -, h⟩ := runOn_bind_ok h
        obtain ⟨_, c₄, -, h⟩ := runOn_bind_ok h
        cases h
        rfl
    refine (remembered_ok ran).imp_right fun ⟨r, ⟨k, missing⟩, asked, decodes⟩ =>
      ⟨r, ?_, decodes⟩
    rw [Connection.resultsRequest_missing bound_eq keyed missing, asked]
    rfl

theorem test_heeds {text : String} {values : Value}
    (admits : ∀ r x, c.testRequest text values = .ok r → c.Reads r x → Use.truth.Admits P x) :
    Heeds P (test text values) c ((c.testRequest text values).map some) := by
  unfold test Connection.testRequest
  rw [Outcome.map_bind]
  refine heeds_ask fun bound prepared => ?_
  have bound_eq : c.prepared text values = .ok bound := prepared
  have asked {r : Request} (planned : c.queryRequest bound Connection.answerType = .ok r) :
      c.testRequest text values = .ok r := by
    rw [Connection.testRequest, bound_eq]
    exact planned
  have deep (r : Request) (planned : c.queryRequest bound Connection.answerType = .ok r)
      (nested : c.Reads r (.error .tooDeep)) : P (.misuse .tooDeep) :=
    admits r _ (asked planned) nested (by decide)
  refine (answer_heeds deep).bind fun request _ v d ran => ?_
  obtain ⟨r, status, body, planned, success, reply, parsed⟩ := answer_ok ran
  obtain ⟨es, rfl⟩ := admits r (.ok v) (asked planned) ⟨status, body, reply, success, parsed⟩
  rw [runOn_lift]
  exact failsWith_ok _

theorem construct_heeds (text : String) (values : Value) :
    Heeds P (construct text values) c ((c.triplesRequest text values).map some) := by
  unfold construct Connection.triplesRequest
  rw [Outcome.map_bind]
  exact heeds_ask fun bound _ => query_heeds bound _

theorem update_heeds (text : String) (values : Value) :
    Heeds P (update text values) c ((c.changeRequest text values).map some) := by
  unfold update Connection.changeRequest Connection.updateRequest
  simp only [Outcome.map_bind]
  exact heeds_ask fun bound _ => heeds_ask fun url _ => heeds_get (request_heeds _).map

theorem administer_heeds (name : Value) (task : Admin.Task) :
    Heeds P (administer name task) c ((c.taskRequest name task).map some) := by
  unfold administer Connection.taskRequest
  simp only [Outcome.map_bind]
  refine heeds_lift fun _ _ => heeds_ask fun _ _ => heeds_get fun request planned => ?_
  obtain ⟨r, known, rfl⟩ := Outcome.map_eq_ok_iff.1 planned
  unfold Admin.run
  rw [known]
  simp only
  rw [runOn_bind, runOn_modify]
  simp only
  rw [runOn_lift]
  cases reply : (c.session.send r).1 with
  | failed cause message => exact Connection.failsWith_of_reports reply (.failed cause message)
  | answered status body =>
    unfold Admin.judge
    simp only
    split
    · exact failsWith_ok _
    · rename_i refused
      split
      · exact failsWith_ok _
      · exact Connection.failsWith_of_reports reply (.refused body (Bool.eq_false_iff.2 refused))

theorem createNamespace_heeds (name properties : Value) :
    Heeds P (createNamespace name properties) c
      ((c.taskRequest name (.create properties)).map some) :=
  (administer_heeds name _).bind fun _ _ _ _ _ =>
    failsWith_runOn_bind (failsWith_runOn_recordTask _ _ _ _) fun _ _ _ => failsWith_runOn_pure _

theorem deleteNamespace_heeds (name : Value) :
    Heeds P (deleteNamespace name) c ((c.taskRequest name .delete).map some) :=
  (administer_heeds name _).bind fun _ _ _ _ _ =>
    failsWith_runOn_bind (failsWith_runOn_recordTask _ _ _ _) fun _ _ _ => failsWith_runOn_pure _

end Exchange

namespace Execution

def use : Execution → Use
  | .get _ | .first => .rows
  | .aggregate .. => .number
  | .exists => .truth
  | _ => .unread

end Execution

namespace Call

def useOf (text : String) : Use :=
  match statementKind text with
  | .ask => .truth
  | .update => .unread
  | _ => .rows

def useInRun (text : String) : Use :=
  match statementKind text with
  | .construct | .describe => .unread
  | _ => useOf text

/-- Changes of a graph leave it to the store what a body says. -/
def use? : Call → Option Use
  | .select text .. => some (useOf text)
  | .ask .. => some .truth
  | .construct .. | .update .. => some .unread
  | .run text _ => some (useInRun text)
  | .createNamespace .. | .deleteNamespace _ | .namespaceExists _ => some .unread
  | .execute _ e => some e.use
  | .insertGraph .. | .replaceGraph .. | .deleteGraph _ => none

def time? : Call → Option Value
  | .select _ _ cached time => if cached then some time else none
  | .execute b _ => if b.remembered then some b.timeToLive else none
  | _ => none

def Overruns (call : Call) (c : Connection) (e : Error) : Prop :=
  ∃ time, call.time? = some time ∧ c.now.ending time = .error e

end Call

namespace Exchange

variable {P : Error → Prop} {c : Connection}

theorem select_heeds {text : String} {values : Value} {cached : Bool} {time : Value}
    (late : cached → ∀ e, c.now.ending time = .error e → P e)
    (admits : ∀ r x, c.selectRequest text values cached = .ok (some r) → c.Reads r x →
      (Call.useOf text).Admits P x) :
    Heeds P (select text values cached time) c (c.selectRequest text values cached) := by
  unfold select Connection.selectRequest
  unfold Connection.selectRequest Call.useOf at admits
  cases kind : statementKind text with
  | ask =>
    rw [kind] at admits
    exact (test_heeds fun r x h => admits r x (Outcome.map_eq_ok_iff.2 ⟨r, h, rfl⟩)).map
  | update => exact (update_heeds _ _).map
  | _ =>
    rw [kind] at admits
    exact (results_heeds late admits).map

theorem run_heeds {text : String} {values : Value}
    (admits : ∀ r x, c.runRequest text values = .ok (some r) → c.Reads r x →
      (Call.useInRun text).Admits P x) :
    Heeds P (run text values) c (c.runRequest text values) := by
  unfold run Connection.runRequest
  unfold Connection.runRequest Call.useInRun at admits
  cases kind : statementKind text with
  | construct | describe =>
    exact (construct_heeds _ _).map
  | _ =>
    rw [kind] at admits
    exact select_heeds (by simp) admits

theorem withQuery_heeds {b : Builder} {e : Execution} {f : Fragment} {size : ℕ}
    (late : b.remembered → ∀ e, c.now.ending b.timeToLive = .error e → P e)
    (admits : ∀ r x, e.queryRequest b f c = .ok (some r) → c.Reads r x → e.use.Admits P x)
    (short : e.use = .number → ∀ entry ∈ c.cache.entries, entry.value.IsShort) :
    Heeds P (withQuery b e f size) c (e.queryRequest b f c) := by
  cases e with
  | get columns =>
    exact (results_heeds late admits).map
  | first => exact (results_heeds late admits).map
  | «exists» =>
    exact (test_heeds fun r x h => admits r x (Outcome.map_eq_ok_iff.2 ⟨r, h, rfl⟩)).map
  | aggregate function column separator =>
    refine (results_heeds late fun r x h a => (admits r x h a).rows).bind fun _ _ rows d ran => ?_
    have few : rows.IsShort := by
      rcases results_ok ran with ⟨entry, member, rfl⟩ | ⟨r, asked, status, body, v, decodes⟩
      · exact short rfl entry member
      · obtain ⟨reply, success, parsed, decoded⟩ := decodes
        exact (admits r (.ok v) asked ⟨status, body, reply, success, parsed⟩).2 rows decoded
    refine failsWith_runOn_bind ?_ fun _ _ _ => failsWith_runOn_pure _
    rw [runOn_lift]
    exact failsWith_aggregateValue_of_isShort few function
  | construct | describe =>
    exact (construct_heeds _ _).map
  | delete | insertBatch | deleteBatch =>
    exact (update_heeds _ _).map
  | cacheKey =>
    rintro request planned
    obtain ⟨key, keyed, rfl⟩ := Outcome.map_eq_ok_iff.1 planned
    unfold withQuery
    rw [runOn_bind, runOn_ask, keyed]
    exact failsWith_ok _

theorem execute_heeds {b : Builder} {e : Execution}
    (late : b.remembered → ∀ e, c.now.ending b.timeToLive = .error e → P e)
    (admits : ∀ r x, e.request? b c = .ok (some r) → c.Reads r x → e.use.Admits P x)
    (short : e.use = .number → ∀ entry ∈ c.cache.entries, entry.value.IsShort) :
    Heeds P (execute b e) c (e.request? b c) := by
  intro request planned
  rw [runOn_execute]
  obtain ⟨content, written, planned'⟩ := Outcome.bind_eq_ok_iff.1 planned
  rw [written]
  cases content with
  | none => exact failsWith_ok _
  | some f =>
    obtain ⟨d, entered, asked⟩ := Outcome.bind_eq_ok_iff.1 planned'
    have steady := (withQuery_performs (c := c) { b with prefixes := c.prefixes } e f e.size).steady
    obtain ⟨err, n, closed, run⟩ | ⟨d', entered', run⟩ := runOn_placed (c := c) b e steady
    · rw [closed] at entered
      cases entered
    · obtain rfl : d = d' := Except.ok.inj (entered.symm.trans entered')
      obtain ⟨n, rfl⟩ := Execution.place_eq entered
      simp only
      rw [run]
      refine withQuery_heeds (b := { b with prefixes := c.prefixes }) (c := c.inNamespace n)
        late (fun r x h => admits r x ?_) short request asked
      rw [Execution.request?, written]
      simp only [bind, Except.bind, entered]
      exact h

end Exchange

namespace Call

open Exchange

variable {call : Call} {c : Connection} {use : Use} {P : Error → Prop}

theorem heeds (used : call.use? = some use) (late : ∀ e, call.Overruns c e → P e)
    (admits : ∀ r x, call.request? c = .ok (some r) → c.Reads r x → use.Admits P x)
    (short : use = .number → ∀ entry ∈ c.cache.entries, entry.value.IsShort) :
    Heeds P call.exchange c (call.request? c) := by
  cases call with
  | select text values cached time =>
    obtain rfl := Option.some.inj used
    exact select_heeds (fun kept e ends => late e ⟨time, by simp [time?, kept], ends⟩) admits
  | ask text values =>
    obtain rfl := Option.some.inj used
    refine (test_heeds fun r x asked => admits r x ?_).map
    rw [request?, asked]
    rfl
  | construct text values =>
    exact (construct_heeds _ _).map
  | update text values => exact (update_heeds _ _).map
  | run text values =>
    obtain rfl := Option.some.inj used
    exact run_heeds admits
  | createNamespace name properties =>
    exact (createNamespace_heeds _ _).map
  | deleteNamespace name =>
    exact (deleteNamespace_heeds _).map
  | namespaceExists name =>
    exact (administer_heeds _ _).map
  | execute b e =>
    obtain rfl := Option.some.inj used
    exact execute_heeds (fun kept e ends => late e ⟨b.timeToLive, by simp [time?, kept], ends⟩)
      admits short
  | insertGraph | replaceGraph | deleteGraph => cases used

end Call

/-- What goes wrong before a request is sent is known before. -/
theorem reports_of_call (call : Call) (c : Connection) {use : Use} (used : call.use? = some use)
    (suits : ∀ r v, call.request? c = .ok (some r) → c.Reads r (.ok v) → use.Suits v)
    (short : use = .number → ∀ entry ∈ c.cache.entries, entry.value.IsShort) :
    let result := (call.exchange.runOn c).1
    (∀ e, call.request? c = .error e → result = .error e) ∧
    (call.request? c = .ok none → ∃ answer, result = .ok answer) ∧
    ∀ r e, call.request? c = .ok (some r) → result = .error e →
      c.Reports r e ∨ call.Overruns c e ∨
        use ≠ .unread ∧ c.Reads r (.error .tooDeep) ∧ e = .misuse .tooDeep := by
  let Excused (e : Error) : Prop := call.Overruns c e ∨ use ≠ .unread ∧
    ∃ r, call.request? c = .ok (some r) ∧ c.Reads r (.error .tooDeep) ∧ e = .misuse .tooDeep
  have admits (r : Request) (x : Except Json.Fault Value)
      (planned : call.request? c = .ok (some r)) (read : c.Reads r x) : use.Admits Excused x :=
    match x, read with
    | .ok v, read => suits r v planned read
    | .error .tooDeep, read => fun reading => .inr ⟨reading, r, planned, read, rfl⟩
    | .error .malformed, _ => trivial
  have heeds := Call.heeds used (fun e late => .inl late) admits short
  refine ⟨fun e planned => ?_, fun planned => ?_, fun r e planned failed => ?_⟩
  · have sends := call.sends c
    rw [planned] at sends
    exact sends.1
  · cases ended : (call.exchange.runOn c).1 with
    | ok answer => exact ⟨answer, rfl⟩
    | error e => exact (heeds none planned e ended).elim
  · rcases heeds _ planned e failed with reported | late | ⟨reading, r', planned', read, kind⟩
    · exact .inl reported
    · exact .inr (.inl late)
    · obtain rfl : r = r' := Option.some.inj (Except.ok.inj (planned.symm.trans planned'))
      exact .inr (.inr ⟨reading, read, kind⟩)

def facing (reply : Reply) : Connection :=
  .make ⟨"http://localhost:3030/ds/sparql", .null, "fuseki", .null, none, .none, [], 30, none⟩
    .fuseki fun _ => reply

theorem reports_of_call_asked :
    let call : Call := .ask "ASK" .null
    let down := facing (.answered 503 "down")
    let up := facing (.answered 200 "\x7b\"boolean\": true\x7d")
    (∃ r, call.request? down = .ok (some r) ∧ down.Reports r
      (.protocol ⟨"fuseki", "http://localhost:3030/ds/sparql", "down", some 503, none⟩)) ∧
    ∃ answer, (call.exchange.runOn up).1 = .ok answer := by
  have asked (reply : Reply) : (Call.ask "ASK" .null).request? (facing reply) = .ok (some
      (.ask "http://localhost:3030/ds/sparql" (.float 30) "ASK" Connection.answerType)) :=
    rfl
  have parsed : ∃ fields,
      Json.read Value.maxNesting "\x7b\"boolean\": true\x7d" = .ok (.map fields) := by
    have form : ((Json.read Value.maxNesting "\x7b\"boolean\": true\x7d").toOption.map
        (·.fields.isOk)) = some true := by decide +kernel
    cases read : Json.read Value.maxNesting "\x7b\"boolean\": true\x7d" with
    | error fault =>
      rw [read] at form
      cases form
    | ok v =>
      rw [read] at form
      cases v with
      | map fields => exact ⟨fields, rfl⟩
      | _ => cases form
  constructor
  · have report := reports_of_call (.ask "ASK" .null) (facing (.answered 503 "down")) rfl
      (by rintro r v - ⟨status, body, ⟨⟩, ⟨⟩, -⟩) (by rintro ⟨⟩)
    refine ⟨_, asked _, (report.2.2 _ _ (asked _) rfl).resolve_right ?_⟩
    rintro (⟨time, ⟨⟩, -⟩ | ⟨-, -, ⟨⟩⟩)
  · have report := reports_of_call (.ask "ASK" .null)
      (facing (.answered 200 "\x7b\"boolean\": true\x7d")) rfl ?_ (by rintro ⟨⟩)
    · rcases ended : ((Call.ask "ASK" .null).exchange.runOn
          (facing (.answered 200 "\x7b\"boolean\": true\x7d"))).1 with e | answer
      · obtain ⟨fields, parsed⟩ := parsed
        rcases report.2.2 _ e (asked _) ended with
          reported | ⟨time, ⟨⟩, -⟩ | ⟨-, ⟨_, _, ⟨⟩, -, nested⟩, -⟩
        · cases reported with
          | unread _ unread => cases parsed.symm.trans unread
          | refused _ refused => cases refused
        · cases parsed.symm.trans nested
      · exact ⟨answer, rfl⟩
    · rintro r v - ⟨status, body, ⟨⟩, -, read⟩
      obtain ⟨fields, parsed⟩ := parsed
      exact ⟨fields, (Except.ok.inj (parsed.symm.trans read)).symm⟩

namespace Exchange

variable {c : Connection}

theorem answer_of_tooDeep {text : String} {r : Request}
    (planned : c.queryRequest text Connection.answerType = .ok r)
    (deep : c.Reads r (.error .tooDeep)) :
    ((answer text).runOn c).1 = .error (.misuse .tooDeep) := by
  obtain ⟨status, body, reply, success, read⟩ := deep
  have levels := (query_performs (c := c) text "application/sparql-results+json").steady.levels
  have queried := query_of_success planned success reply
  change ((query text "application/sparql-results+json").runOn c).1 = .ok body at queried
  unfold answer
  rw [runOn_bind]
  cases ran : (query text "application/sparql-results+json").runOn c with
  | mk x d =>
    rw [ran] at levels queried
    obtain rfl : x = .ok body := queried
    replace levels : d.levels = c.levels := levels
    simp only
    rw [runOn_bind, runOn_get]
    simp only
    rw [levels, read]
    rfl

end Exchange

theorem misuse_of_brackets {c : Connection} {text s : String} {values : Value} {r : Request}
    {status : ℤ} (asked : c.testRequest text values = .ok r) (success : Vendor.isSuccess status)
    (reply : (c.session.send r).1 =
      .answered status (String.ofList (List.replicate (c.levels + 1) '[') ++ s)) :
    ((Call.ask text values).exchange.runOn c).1 = .error (.misuse .tooDeep) := by
  obtain ⟨bound, prepared, planned⟩ := Outcome.bind_eq_ok_iff.1 asked
  have failed := Exchange.answer_of_tooDeep planned ⟨_, _, reply, success, Json.read_brackets _ s⟩
  have known : (Exchange.prepare text values).runOn c = (.ok bound, c) :=
    (Exchange.runOn_ask _).trans (congrArg (·, c) prepared)
  refine Exchange.runOn_bind_of_error ?_
  unfold Exchange.test
  rw [Exchange.runOn_bind, known]
  exact Exchange.runOn_bind_of_error failed

/-- A list is no answer, and brackets of too many levels are not read. Neither is reported as a
failed exchange. -/
theorem exists_misuse_of_answer :
    (∃ c r, (Call.ask "ASK" .null).request? c = .ok (some r) ∧
      (c.session.send r).1 = .answered 200 "[]" ∧
      ((Call.ask "ASK" .null).exchange.runOn c).1 = .error (.misuse .noMember)) ∧
    ∃ c r body, (Call.ask "ASK" .null).request? c = .ok (some r) ∧
      (c.session.send r).1 = .answered 200 body ∧
      ((Call.ask "ASK" .null).exchange.runOn c).1 = .error (.misuse .tooDeep) := by
  constructor
  · exact ⟨facing (.answered 200 "[]"), _, rfl, rfl, rfl⟩
  · let body := String.ofList (List.replicate (Value.maxNesting + 1) '[') ++ ""
    have asked : (facing (.answered 200 body)).testRequest "ASK" .null = .ok
        (.ask "http://localhost:3030/ds/sparql" (.float 30) "ASK" Connection.answerType) := rfl
    exact ⟨facing (.answered 200 body), _, body, congrArg (·.map some) asked, rfl,
      misuse_of_brackets (s := "") asked (by decide) rfl⟩

end SparqlClient
