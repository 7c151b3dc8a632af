import SparqlClient.Proofs.Connection.Run

/-! Exchanges and their one request. Whether an exchange sends, and what, is settled before
anything is sent: a step that fails before leaves the session as it was, the request is sent once,
and what follows it judges the reply. -/

namespace SparqlClient

open Error

theorem Outcome.map_bind {α β γ : Type} (x : Outcome α) (f : α → Outcome β) (g : β → γ) :
    (x >>= f).map g = x >>= fun a => (f a).map g := by
  cases x <;> rfl

namespace Connection

/-- Only the session, the remembered results and the events may differ. -/
structure Steady (c d : Connection) : Prop where
  config : d.config = c.config
  vendor : d.vendor = c.vendor
  prefixes : d.prefixes = c.prefixes
  namespaceName : d.namespaceName = c.namespaceName
  now : d.now = c.now
  levels : d.levels = c.levels

theorem steady_with (c : Connection) (k : Cache ResultSet) (session : Session)
    (events : List Value) :
    c.Steady { c with cache := k, session := session, events := events } :=
  ⟨rfl, rfl, rfl, rfl, rfl, rfl⟩

theorem Steady.refl (c : Connection) : c.Steady c := c.steady_with c.cache c.session c.events

theorem Steady.trans {c d e : Connection} (first : c.Steady d) (second : d.Steady e) :
    c.Steady e where
  config := second.config.trans first.config
  vendor := second.vendor.trans first.vendor
  prefixes := second.prefixes.trans first.prefixes
  namespaceName := second.namespaceName.trans first.namespaceName
  now := second.now.trans first.now
  levels := second.levels.trans first.levels

theorem Steady.queryEndpoint {c d : Connection} (h : c.Steady d) :
    d.queryEndpoint = c.queryEndpoint := by
  rw [Connection.queryEndpoint, Connection.queryEndpoint, h.namespaceName, h.config, h.vendor]

/-! What is sent, before it is sent. -/

def prepared (c : Connection) (text : String) (values : Value) : Outcome String := do
  (← Fragment.ofCaller text values).bound (some c.prefixes)

def queryRequest (c : Connection) (text accept : String) : Outcome Request := do
  return .ask (← c.queryEndpoint) (.float c.config.timeout) text accept

def updateRequest (c : Connection) (text : String) : Outcome Request := do
  let url ← c.updateEndpoint
  return { Request.plain "POST" url (.float c.config.timeout) with
    payload := .form [("update", .text text)]
    headers := [("Content-Type", "application/x-www-form-urlencoded")] }

def graphRequest (c : Connection) (method : String) (graph : Value) (data : Option Upload) :
    Outcome Request := do
  let url ← c.graphUrl graph
  match data with
  | none => return .plain method url (.float c.config.timeout)
  | some u =>
    let text ← u.ntriples (some c.prefixes)
    return .upload method url (.float c.config.timeout) text c.vendor.triplesType

def taskRequest (c : Connection) (name : Value) (task : Admin.Task) : Outcome Request := do
  let _ ← Namespace.validate name
  c.vendor.requireNamespaces
  Admin.request c.vendor c.config.endpoint name (.float c.config.timeout) task

def answerType : String := "application/sparql-results+json"

def resultsRequest (c : Connection) (text : String) (values : Value) (cached : Bool) :
    Outcome (Option Request) := do
  let text ← c.prepared text values
  if cached then
    let key ← c.cacheKey text .null
    let (hit, _) ← c.cache.get c.now (.text key)
    match hit with
    | some _ => return none
    | none => return some (← c.queryRequest text answerType)
  else return some (← c.queryRequest text answerType)

def testRequest (c : Connection) (text : String) (values : Value) : Outcome Request := do
  c.queryRequest (← c.prepared text values) answerType

def triplesRequest (c : Connection) (text : String) (values : Value) : Outcome Request := do
  c.queryRequest (← c.prepared text values) "application/n-triples"

def changeRequest (c : Connection) (text : String) (values : Value) : Outcome Request := do
  c.updateRequest (← c.prepared text values)

end Connection

def Session.after (s : Session) : Option Request → Session
  | none => s
  | some r => (s.send r).2

namespace Exchange

/-- With a request the reply may be a failure; without one only misuse is left. -/
def Behind : Option Request → Error → Prop
  | none, e => e.IsLocal ∧ e.IsRemote
  | some _, e => e.IsRemote

instance (request : Option Request) : AllowsMisuse (Behind request) := by
  refine ⟨fun kind => ?_⟩
  cases request with
  | none => exact ⟨AllowsMisuse.misuse kind, AllowsMisuse.misuse kind⟩
  | some r => exact AllowsMisuse.misuse (P := IsRemote) kind

/-- The plan is kept: an error of the plan is the error of the exchange, and otherwise it sends
what was planned and fails for nothing that could have been known before. -/
def Sends {α : Type} (m : Exchange α) (c : Connection) : Outcome (Option Request) → Prop
  | .error e => (m.runOn c).1 = .error e ∧ (m.runOn c).2.session = c.session
  | .ok request => FailsWith (Behind request) (m.runOn c).1 ∧
    (m.runOn c).2.session = c.session.after request

structure Performs {α : Type} (m : Exchange α) (c : Connection)
    (plan : Outcome (Option Request)) : Prop where
  steady : c.Steady (m.runOn c).2
  sends : m.Sends c plan

/-- Nothing is sent, and nothing but such errors can come of it. -/
structure Settles {α : Type} (P : Error → Prop) (m : Exchange α) (c : Connection) : Prop where
  steady : c.Steady (m.runOn c).2
  session : (m.runOn c).2.session = c.session
  fails : FailsWith P (m.runOn c).1

variable {α β : Type} {P : Error → Prop} {c : Connection} {m : Exchange α} {f : α → Exchange β}

theorem sends_error {e : Error} {d : Connection} (ran : m.runOn c = (.error e, d))
    (session : d.session = c.session) : Sends m c (.error e) :=
  ⟨by rw [ran], by rw [ran]; exact session⟩

theorem sends_ok {r : Outcome α} {d : Connection} {request : Option Request}
    (ran : m.runOn c = (r, d)) (fails : FailsWith (Behind request) r)
    (session : d.session = c.session.after request) : Sends m c (.ok request) :=
  ⟨by rw [ran]; exact fails, by rw [ran]; exact session⟩

theorem Settles.of_runOn {r : Outcome α} {d : Connection} (ran : m.runOn c = (r, d))
    (steady : c.Steady d) (session : d.session = c.session) (fails : FailsWith P r) :
    Settles P m c :=
  ⟨by rw [ran]; exact steady, by rw [ran]; exact session, by rw [ran]; exact fails⟩

theorem Performs.of_error {e : Error} {d : Connection} (ran : m.runOn c = (.error e, d))
    (steady : c.Steady d) (session : d.session = c.session) : Performs m c (.error e) :=
  ⟨by rw [ran]; exact steady, sends_error ran session⟩

theorem Performs.of_ok {r : Outcome α} {d : Connection} {request : Option Request}
    (ran : m.runOn c = (r, d)) (steady : c.Steady d) (fails : FailsWith (Behind request) r)
    (session : d.session = c.session.after request) : Performs m c (.ok request) :=
  ⟨by rw [ran]; exact steady, sends_ok ran fails session⟩

theorem settles_pure (a : α) : Settles P (pure a) c :=
  ⟨.refl c, rfl, failsWith_ok a⟩

theorem settles_lift {x : Outcome α} (h : FailsWith P x) :
    Settles P (liftM x : Exchange α) c :=
  .of_runOn (runOn_lift x) (.refl c) rfl h

theorem settles_throw {e : Error} (h : P e) : Settles P (throw e : Exchange α) c :=
  ⟨.refl c, rfl, (failsWith_error e).2 h⟩

theorem settles_ask {g : Connection → Outcome α} (h : FailsWith P (g c)) :
    Settles P (ask g) c :=
  .of_runOn (runOn_ask g) (.refl c) rfl h

theorem settles_get : Settles P (get : Exchange Connection) c :=
  ⟨.refl c, rfl, failsWith_ok c⟩

theorem settles_record (level : Log.Level) (event : String) (fields : Entries) :
    Settles P (record level event fields) c := by
  obtain ⟨e, ran⟩ := runOn_record (c := c) level event fields
  exact .of_runOn ran (c.steady_with _ _ _) rfl (failsWith_ok ())

theorem settles_cache (k : Cache ResultSet) :
    Settles P (modify ({ · with cache := k }) : Exchange PUnit) c :=
  ⟨c.steady_with k _ _, rfl, failsWith_ok ()⟩

theorem Settles.bind (hm : Settles P m c)
    (hf : ∀ a d, c.Steady d → m.runOn c = (.ok a, d) → Settles P (f a) d) :
    Settles P (m >>= f) c := by
  have ran := runOn_bind (c := c) m f
  cases first : m.runOn c with
  | mk r d =>
    have steady := hm.steady
    have session := hm.session
    have fails := hm.fails
    rw [first] at ran steady session fails
    cases r with
    | error e => exact .of_runOn ran steady session ((failsWith_error e).2 (fails e rfl))
    | ok a =>
      have rest := hf a d steady first
      exact .of_runOn ran (steady.trans rest.steady) (rest.session.trans session) rest.fails

theorem Settles.performs (h : Settles (Behind none) m c) : Performs m c (.ok none) :=
  ⟨h.steady, h.fails, h.session⟩

theorem Performs.bind {plan : Outcome (Option Request)} (hm : Performs m c plan)
    (hf : ∀ request, plan = .ok request → ∀ a d, c.Steady d → Settles (Behind request) (f a) d) :
    Performs (m >>= f) c plan := by
  have ran := runOn_bind (c := c) m f
  obtain ⟨steady, sends⟩ := hm
  cases first : m.runOn c with
  | mk r d =>
    rw [first] at ran steady
    cases plan with
    | error e =>
      obtain ⟨failed, session⟩ := sends
      rw [first] at failed session
      obtain rfl : r = .error e := failed
      exact .of_error ran steady session
    | ok request =>
      obtain ⟨fails, session⟩ := sends
      rw [first] at fails session
      cases r with
      | error e => exact .of_ok ran steady ((failsWith_error e).2 (fails e rfl)) session
      | ok a =>
        have rest := hf request rfl a d steady
        exact .of_ok ran (steady.trans rest.steady) rest.fails (rest.session.trans session)

theorem performs_behind {plan : Outcome (Option Request)} {a : α} {d : Connection}
    (ran : m.runOn c = (.ok a, d)) (steady : c.Steady d) (session : d.session = c.session)
    (h : Performs (f a) d plan) : Performs (m >>= f) c plan := by
  have whole := runOn_bind (c := c) m f
  rw [ran] at whole
  have stays := steady.trans h.steady
  cases plan with
  | error e =>
    obtain ⟨failed, rest⟩ := h.sends
    exact .of_error (whole.trans (Prod.ext failed rfl)) stays (rest.trans session)
  | ok request =>
    obtain ⟨fails, rest⟩ := h.sends
    rw [session] at rest
    exact .of_ok whole stays fails rest

theorem performs_known {x : Outcome α} {plan : α → Outcome (Option Request)}
    (ran : m.runOn c = (x, c)) (h : ∀ a, x = .ok a → Performs (f a) c (plan a)) :
    Performs (m >>= f) c (x >>= plan) := by
  cases x with
  | ok a => exact performs_behind ran (.refl c) rfl (h a rfl)
  | error e =>
    have whole := runOn_bind (c := c) m f
    rw [ran] at whole
    exact .of_error whole (.refl c) rfl

theorem performs_ask {g : Connection → Outcome α} {plan : α → Outcome (Option Request)}
    (h : ∀ a, g c = .ok a → Performs (f a) c (plan a)) :
    Performs (ask g >>= f) c (g c >>= plan) :=
  performs_known (runOn_ask g) h

theorem performs_lift {x : Outcome α} {plan : α → Outcome (Option Request)}
    (h : ∀ a, x = .ok a → Performs (f a) c (plan a)) :
    Performs ((liftM x : Exchange α) >>= f) c (x >>= plan) :=
  performs_known (runOn_lift x) h

theorem performs_get {g : Connection → Exchange β} {plan : Outcome (Option Request)}
    (h : Performs (g c) c plan) : Performs (get >>= g) c plan :=
  performs_behind runOn_get (.refl c) rfl h

theorem exchange_performs (name : String) (r : Request)
    (extra : Connection → String → Entries) :
    Performs (exchange name r extra) c (.ok (some r)) := by
  obtain ⟨events, ran⟩ := runOn_exchange (c := c) name r extra
  refine .of_ok ran (c.steady_with _ _ _) ?_ rfl
  cases (c.session.send r).1 with
  | failed cause message => exact (failsWith_error _).2 (isRemote_protocol _)
  | answered status body => exact failsWith_ok _

end Exchange

end SparqlClient
