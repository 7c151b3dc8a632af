import SparqlClient.Proofs.Connection.Calls

/-! Programs on a connection: steps one after the other and blocks in the scope of a namespace, at
any depth. What follows a step sees how it has ended and may go on, choose or fail. What a program
does is a list of events, in which every step stands between the connection before and after it. -/

namespace SparqlClient

inductive Step
  | call (k : Call)
  | setNamespace (name : Value)
  | addPrefix (name iri : String)
  | invalidate (key : Value)
  | advance (time : Seconds)

inductive Program
  | done (result : Outcome Answer)
  | step (s : Step) (next : Outcome Answer → Program)
  | within (name : Value) (body : Program) (next : Outcome Answer → Program)

namespace Exchange

def attempt {α : Type} (m : Exchange α) : Exchange (Outcome α) := ExceptT.mk do
  let result ← ExceptT.run m
  return .ok result

theorem runOn_attempt {α : Type} (m : Exchange α) (c : Connection) :
    (attempt m).runOn c = (.ok (m.runOn c).1, (m.runOn c).2) := rfl

end Exchange

namespace Connection

def entered? (c : Connection) (name : Value) : Option Connection :=
  match (Exchange.setNamespace name).runOn c with
  | (.ok _, d) => some d
  | (.error _, _) => none

theorem entered?_eq_toOption (c : Connection) (name : Value) :
    c.entered? name = (c.moved name).toOption := by
  unfold entered?
  obtain ⟨e, n, failed, ran⟩ | ⟨d, moved, ran⟩ := Exchange.runOn_setNamespace (c := c) name
  · rw [failed, ran]
    rfl
  · rw [moved, ran]
    rfl

theorem entered?_eq_some_iff {c d : Connection} {name : Value} :
    c.entered? name = some d ↔ c.moved name = .ok d := by
  rw [entered?_eq_toOption]
  cases c.moved name <;> simp [Except.toOption]

end Connection

namespace Exchange

theorem runOn_block {α : Type} {c : Connection} (name : Value) (body : Exchange α) :
    match c.entered? name with
    | some d => (within name body).runOn c =
        ((body.runOn d).1, (body.runOn d).2.inNamespace c.namespaceName)
    | none => ∃ e n, (within name body).runOn c = (.error e, c.inNamespace n) := by
  rw [Connection.entered?_eq_toOption]
  obtain ⟨e, n, failed, ran⟩ | ⟨d, moved, ran⟩ := runOn_within (c := c) name body
  · rw [failed]
    exact ⟨e, n, ran⟩
  · rw [moved]
    exact ran

end Exchange

theorem Cache.entries_invalidate {α : Type} {c k : Cache α} {key : Value}
    (h : c.invalidate key = .ok k) : ∀ e ∈ k.entries, e ∈ c.entries := by
  unfold invalidate at h
  split at h
  · cases h
    simp [clear]
  · obtain ⟨key, -, rfl⟩ := Outcome.map_eq_ok_iff.1 h
    exact fun e he => List.mem_of_mem_filter he

namespace Step

def exchange : Step → Exchange Answer
  | .call k => k.exchange
  | .setNamespace name => do
    Exchange.setNamespace name
    return .value .null
  | .addPrefix name iri => do
    Exchange.addPrefix name iri
    return .value .null
  | .invalidate key => do
    let cache ← Exchange.ask (·.cache.invalidate key)
    modify ({ · with cache := cache })
    return .value .null
  | .advance time => do
    let now ← Exchange.ask (·.now.add time)
    modify ({ · with now := now })
    return .value now.toValue

def block? (c : Connection) : Step → Option Value
  | .call (.execute b e) => match e.written b c with
    | .ok (some _) => e.scope? b
    | _ => none
  | _ => none

/-- Whether the step sets the namespace and does not set it back: it is asked to, or it fails
to enter the scope of a builder. -/
def setsNamespace (c : Connection) (s : Step) : Bool :=
  match s with
  | .setNamespace _ => true
  | s => match s.block? c with
    | some name => (c.entered? name).isNone
    | none => false

structure Leads (s : Step) (c d : Connection) : Prop where
  config : d.config = c.config
  vendor : d.vendor = c.vendor
  namespaceName : s.setsNamespace c = false → d.namespaceName = c.namespaceName
  entries : (∀ k, s ≠ .call k) → ∀ e ∈ d.cache.entries, e ∈ c.cache.entries
  sent : d.session.sent = c.session.sent ∨ ∃ k r, s = .call k ∧ k.request? c = .ok (some r) ∧
    d.session.sent = c.session.sent ++ [.request r]

theorem leads (s : Step) (c : Connection) : s.Leads c (s.exchange.runOn c).2 := by
  cases s with
  | call k =>
    have sent : ((call k).exchange.runOn c).2.session.sent = c.session.sent ∨
        ∃ k' r, call k = .call k' ∧ k'.request? c = .ok (some r) ∧
          ((call k).exchange.runOn c).2.session.sent = c.session.sent ++ [.request r] := by
      have sends := k.sends c
      cases plan : k.request? c with
      | error e =>
        rw [plan] at sends
        exact .inl (congrArg Session.sent sends.2)
      | ok request =>
        rw [plan] at sends
        cases request with
        | none => exact .inl (congrArg Session.sent sends.2)
        | some r => exact .inr ⟨k, r, rfl, plan, congrArg Session.sent sends.2⟩
    -- only a builder that fails to enter its scope can leave another namespace behind
    by_cases built : ∃ b e, k = .execute b e
    · obtain ⟨b, e, rfl⟩ := built
      obtain ⟨config, vendor, kept⟩ := Exchange.execute_keeps (c := c) b e
      refine ⟨config, vendor, fun stays => ?_, fun other => absurd rfl (other _), sent⟩
      rcases kept with same | ⟨f, name, err, written, named, failed⟩
      · exact same
      · simp [setsNamespace, block?, written, named, Connection.entered?_eq_toOption, failed,
          Except.toOption] at stays
    · have steady := (Call.performs c fun b e h => built ⟨b, e, h⟩).steady
      exact ⟨steady.config, steady.vendor, fun _ => steady.namespaceName,
        fun other => absurd rfl (other k), sent⟩
  | setNamespace name =>
    have ran := Exchange.runOn_bind (c := c) (Exchange.setNamespace name)
      fun _ => (return .value .null : Exchange Answer)
    obtain ⟨e, n, -, set⟩ | ⟨d, moved, set⟩ := Exchange.runOn_setNamespace (c := c) name
    · rw [set] at ran
      rw [exchange, ran]
      exact ⟨rfl, rfl, by simp [setsNamespace], fun _ _ he => he, .inl rfl⟩
    · obtain rfl := Connection.moved_eq moved
      rw [set] at ran
      rw [exchange, ran]
      exact ⟨rfl, rfl, by simp [setsNamespace], fun _ _ he => he, .inl rfl⟩
  | addPrefix name iri => exact ⟨rfl, rfl, fun _ => rfl, fun _ _ he => he, .inl rfl⟩
  | invalidate key =>
    rw [exchange, Exchange.runOn_bind, Exchange.runOn_ask]
    cases removed : c.cache.invalidate key with
    | error e => exact ⟨rfl, rfl, fun _ => rfl, fun _ _ he => he, .inl rfl⟩
    | ok k => exact ⟨rfl, rfl, fun _ => rfl, fun _ => Cache.entries_invalidate removed, .inl rfl⟩
  | advance time =>
    rw [exchange, Exchange.runOn_bind, Exchange.runOn_ask]
    cases c.now.add time <;> exact ⟨rfl, rfl, fun _ => rfl, fun _ _ he => he, .inl rfl⟩

end Step

/-- A step with the connection before and after it. A home is the namespace of the innermost open
scope, as long as no change of namespace has come since. -/
structure Stage where
  home : Option (Option String)
  step : Step
  before : Connection
  result : Outcome Answer
  after : Connection

namespace Stage

def sent (m : Stage) : List Sent := m.after.session.sent.drop m.before.session.sent.length

def sender (m : Stage) : Option (Option String) :=
  match m.step.block? m.before with
  | some name => some (Connection.named name)
  | none => m.home

end Stage

inductive Event
  | step (m : Stage)
  | block (before after : Connection)

namespace Event

def sent : Event → List Sent
  | .step m => m.sent
  | .block .. => []

end Event

namespace Step

/-- A home outlasts what leaves the namespace as it was. -/
def keep (home : Option (Option String)) (c d : Connection) : Option (Option String) :=
  if d.namespaceName = c.namespaceName then home else none

def homeAfter (home : Option (Option String)) (c : Connection) (s : Step) :
    Option (Option String) :=
  if s.setsNamespace c then keep home c (s.exchange.runOn c).2 else home

def stage (home : Option (Option String)) (c : Connection) (s : Step) : Stage :=
  let (r, d) := s.exchange.runOn c
  ⟨home, s, c, r, d⟩

def events (home : Option (Option String)) (c : Connection) (s : Step) : List Event :=
  .step (s.stage home c) ::
    (((s.block? c).bind c.entered?).map fun _ => .block c (s.stage home c).after).toList

variable {home : Option (Option String)} {c : Connection} {s : Step}

theorem step_mem_events {m : Stage} (h : .step m ∈ s.events home c) : m = s.stage home c := by
  unfold events at h
  cases entered : (s.block? c).bind c.entered? <;> simpa [entered] using h

theorem block_mem_events {before after : Connection} (h : .block before after ∈ s.events home c) :
    before = c ∧ after = (s.exchange.runOn c).2 ∧ s.setsNamespace c = false := by
  unfold events at h
  cases entered : (s.block? c).bind c.entered? with
  | none => simp [entered] at h
  | some inside =>
    obtain ⟨name, opened, entered'⟩ := Option.bind_eq_some_iff.1 entered
    have stays : s.setsNamespace c = false := by
      unfold setsNamespace
      split
      · cases opened
      · simp [opened, entered']
    simp [entered] at h
    exact ⟨h.1, h.2, stays⟩

theorem sent_stage (home : Option (Option String)) (c : Connection) (s : Step) :
    (s.stage home c).sent = [] ∨
    ∃ k r, s = .call k ∧ k.request? c = .ok (some r) ∧ (s.stage home c).sent = [.request r] := by
  change (s.exchange.runOn c).2.session.sent.drop c.session.sent.length = [] ∨
    ∃ k r, s = .call k ∧ k.request? c = .ok (some r) ∧
      (s.exchange.runOn c).2.session.sent.drop c.session.sent.length = [.request r]
  obtain same | ⟨k, r, called, planned, one⟩ := (s.leads c).sent
  · exact .inl (by simp [same])
  · exact .inr ⟨k, r, called, planned, by simp [one]⟩

theorem sent_runOn :
    (s.exchange.runOn c).2.session.sent = c.session.sent ++ (s.stage home c).sent := by
  change _ = _ ++ (s.exchange.runOn c).2.session.sent.drop c.session.sent.length
  obtain same | ⟨_, r, -, -, one⟩ := (s.leads c).sent
  · simp [same]
  · simp [one]

theorem flatMap_sent_events : (s.events home c).flatMap Event.sent = (s.stage home c).sent := by
  unfold events
  cases (s.block? c).bind c.entered? <;> simp [Event.sent, stage]

end Step

namespace Program

def exchange : Program → Exchange Answer
  | .done result => liftM result
  | .step s next => do (next (← Exchange.attempt s.exchange)).exchange
  | .within name body next => do
    (next (← Exchange.attempt (Exchange.within name body.exchange))).exchange

def events : Program → Option (Option String) → Connection → List Event
  | .done _, _, _ => []
  | .step s next, home, c =>
    let (r, d) := s.exchange.runOn c
    s.events home c ++ (next r).events (s.homeAfter home c) d
  | .within name body next, home, c =>
    let (r, d) := (Exchange.within name body.exchange).runOn c
    match c.entered? name with
    | some inside => body.events (some (Connection.named name)) inside ++
        .block c d :: (next r).events home d
    | none => (next r).events (Step.keep home c d) d

/-- What holds of a history, the home and the connection at every point of a run: steps keep it,
and so do the beginning and the end of a block. -/
structure Invariant (I : List Event → Option (Option String) → Connection → Prop) : Prop where
  step {h home c} (s : Step) : I h home c →
    I (h ++ s.events home c) (s.homeAfter home c) (s.exchange.runOn c).2
  enter {h home c d} {name : Value} : c.entered? name = some d → I h home c →
    I h (some (Connection.named name)) d
  leave {h h' home home' c d} : I h home c → I h' home' d →
    I (h' ++ [.block c (d.inNamespace c.namespaceName)]) home (d.inNamespace c.namespaceName)
  refused {h home c n} : I h home c → I h (Step.keep home c (c.inNamespace n)) (c.inNamespace n)

theorem Invariant.run {I : List Event → Option (Option String) → Connection → Prop}
    (inv : Invariant I) (p : Program) {h : List Event} (home : Option (Option String))
    {c : Connection} (holds : I h home c) :
    ∃ home', I (h ++ p.events home c) home' (p.exchange.runOn c).2 := by
  -- the history before is arbitrary: a body and what follows it extend it in turn
  induction p generalizing h home c with
  | done result =>
    rw [exchange, events, List.append_nil, Exchange.runOn_lift]
    exact ⟨home, holds⟩
  | step s next ih =>
    rw [exchange, events, Exchange.runOn_bind, Exchange.runOn_attempt, ← List.append_assoc]
    exact ih _ _ (inv.step s holds)
  | within name body next ihBody ihNext =>
    have ran := Exchange.runOn_block (c := c) name body.exchange
    rw [exchange, events, Exchange.runOn_bind, Exchange.runOn_attempt]
    cases inside : c.entered? name with
    | some d =>
      rw [inside] at ran
      obtain ⟨home', inBody⟩ := ihBody _ (inv.enter inside holds)
      rw [ran]
      simp only
      rw [List.append_cons, ← List.append_assoc, ← List.append_assoc]
      exact ihNext _ _ (inv.leave holds inBody)
    | none =>
      rw [inside] at ran
      obtain ⟨e, n, ran⟩ := ran
      rw [ran]
      exact ihNext _ _ (inv.refused holds)

end Program

end SparqlClient
