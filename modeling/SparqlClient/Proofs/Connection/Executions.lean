import SparqlClient.Proofs.Connection.Requests
import SparqlClient.Proofs.Connection.Scope

/-! Executions of builders. A builder writes its query first, or finds that there is nothing to
send; then it enters its scope, if it has a namespace of its own, and sends its request from there.
-/

namespace SparqlClient

namespace Execution

def written (b : Builder) (e : Execution) (c : Connection) : Outcome (Option Fragment) := do
  match ← e.batchSize? with
  | some 0 => return none
  | _ => return some (← e.query { b with prefixes := c.prefixes })

def size (e : Execution) : Nat :=
  match e.batchSize? with
  | .ok (some n) => n
  | _ => 0

/-- The scope in which a builder does its exchange. A key is asked for outside of it. -/
def scope? (b : Builder) : Execution → Option Value
  | .cacheKey => none
  | _ => b.spec.namespaceName.map .text

def place (b : Builder) (e : Execution) (c : Connection) : Outcome Connection :=
  match e.scope? b with
  | none => .ok c
  | some name => c.moved name

theorem place_eq {b : Builder} {e : Execution} {c d : Connection} (h : e.place b c = .ok d) :
    ∃ n, d = c.inNamespace n := by
  unfold place at h
  cases named : e.scope? b with
  | none =>
    rw [named] at h
    exact ⟨c.namespaceName, (Except.ok.inj h).symm⟩
  | some name =>
    rw [named] at h
    exact ⟨_, Connection.moved_eq h⟩

def queryRequest (b : Builder) (e : Execution) (f : Fragment) (c : Connection) :
    Outcome (Option Request) :=
  let values := Value.list f.bindings
  match e with
  | .get _ | .first | .aggregate .. => c.resultsRequest f.text values b.remembered
  | .exists => (c.testRequest f.text values).map some
  | .construct _ | .describe _ => (c.triplesRequest f.text values).map some
  | .delete _ => (c.changeRequest f.text values).map some
  | .insertBatch _ | .deleteBatch _ => (c.changeRequest f.text .null).map some
  | .cacheKey => (c.cacheKey f.text values).map fun _ => none

def request? (b : Builder) (e : Execution) (c : Connection) : Outcome (Option Request) := do
  match ← e.written b c with
  | none => return none
  | some f => e.queryRequest b f (← e.place b c)

end Execution

namespace Exchange

variable {c : Connection}

theorem withQuery_performs (b : Builder) (e : Execution) (f : Fragment) (size : Nat) :
    Performs (withQuery b e f size) c (e.queryRequest b f c) := by
  have rows : Performs (ofFragment b f) c
      (c.resultsRequest f.text (.list f.bindings) b.remembered) := results_performs _ _ _ _
  cases e with
  | get columns => exact rows.bind fun _ _ _ _ _ => settles_pure _
  | first => exact rows.bind fun _ _ _ _ _ => settles_pure _
  | «exists» => exact (test_performs _ _).bind fun _ _ _ _ _ => settles_pure _
  | aggregate function column separator =>
    refine rows.bind fun _ _ r _ _ => ?_
    exact (settles_lift (failsWith_aggregateValue _ _)).bind fun _ _ _ _ => settles_pure _
  | construct template => exact (construct_performs _ _).bind fun _ _ _ _ _ => settles_pure _
  | describe resources => exact (construct_performs _ _).bind fun _ _ _ _ _ => settles_pure _
  | delete template => exact (update_performs _ _).bind fun _ _ _ _ _ => settles_pure _
  | insertBatch records => exact (update_performs _ _).bind fun _ _ _ _ _ => settles_pure _
  | deleteBatch resources => exact (update_performs _ _).bind fun _ _ _ _ _ => settles_pure _
  | cacheKey =>
    have plan : Execution.queryRequest b .cacheKey f c =
        c.cacheKey f.text (.list f.bindings) >>= fun _ => .ok none := by
      rw [Execution.queryRequest]
      cases c.cacheKey f.text (.list f.bindings) <;> rfl
    rw [plan]
    exact performs_ask fun _ _ => (settles_pure _).performs

def placed (b : Builder) (e : Execution) (body : Exchange Answer) : Exchange Answer :=
  match e.scope? b with
  | none => body
  | some name => within name body

theorem withQuery_eq_placed {b b' : Builder} (same : b'.spec = b.spec) (e : Execution)
    (f : Fragment) (size : Nat) :
    (match e with
      | .cacheKey => withQuery b' e f 0
      | e => inScope b' (withQuery b' e f size)) = placed b e (withQuery b' e f size) := by
  have named (body : Exchange Answer) : inScope b' body =
      match b.spec.namespaceName.map Value.text with
      | none => body
      | some name => within name body := by
    unfold inScope
    rw [same]
    cases b.spec.namespaceName <;> rfl
  cases e with
  | cacheKey => rfl
  | _ => exact named _

theorem runOn_execute (b : Builder) (e : Execution) :
    (execute b e).runOn c = match e.written b c with
      | .error err => (.error err, c)
      | .ok none => (.ok (.value (.int 0)), c)
      | .ok (some f) =>
        (placed b e (withQuery { b with prefixes := c.prefixes } e f e.size)).runOn c := by
  unfold execute Execution.written
  rw [runOn_bind, runOn_get]
  simp only
  rw [runOn_bind, runOn_lift]
  cases counted : e.batchSize? with
  | error err => rfl
  | ok size =>
    have reported : e.size = size.getD 0 := by
      rw [Execution.size, counted]
      cases size <;> rfl
    rw [reported]
    rcases size with _ | _ | n
    case some.zero => rfl
    all_goals
      simp only
      rw [runOn_bind, runOn_lift]
      simp only [bind, Except.bind]
      cases e.query { b with prefixes := c.prefixes } with
      | error err => rfl
      | ok f => exact congrArg (runOn · c) (withQuery_eq_placed rfl e f _)

/-- A scope that cannot be entered leaves only the namespace open. -/
theorem runOn_placed (b : Builder) (e : Execution) {body : Exchange Answer}
    (steady : c.Steady (body.runOn c).2) :
    (∃ err n, e.place b c = .error err ∧
      (placed b e body).runOn c = (.error err, c.inNamespace n)) ∨
    ∃ d, e.place b c = .ok d ∧ (placed b e body).runOn c =
      ((body.runOn d).1, (body.runOn d).2.inNamespace c.namespaceName) := by
  unfold placed Execution.place
  cases e.scope? b with
  | some name => exact runOn_within name body
  | none =>
    have same : (body.runOn c).2.inNamespace c.namespaceName = (body.runOn c).2 := by
      rw [← steady.namespaceName, Connection.inNamespace_self]
    exact .inr ⟨c, rfl, by rw [same]⟩

theorem execute_keeps (b : Builder) (e : Execution) :
    ((execute b e).runOn c).2.config = c.config ∧ ((execute b e).runOn c).2.vendor = c.vendor ∧
    (((execute b e).runOn c).2.namespaceName = c.namespaceName ∨
      ∃ f name err, e.written b c = .ok (some f) ∧ e.scope? b = some name ∧
        c.moved name = .error err) := by
  have ran := runOn_execute (c := c) b e
  cases said : e.written b c with
  | error err =>
    rw [said] at ran
    rw [ran]
    exact ⟨rfl, rfl, .inl rfl⟩
  | ok content =>
    rw [said] at ran
    cases content with
    | none =>
      rw [ran]
      exact ⟨rfl, rfl, .inl rfl⟩
    | some f =>
      have body (d : Connection) := (withQuery_performs (c := d) b e f e.size).steady
      obtain ⟨err, n, closed, run⟩ | ⟨d, entered, run⟩ := runOn_placed (c := c) b e (body c)
      · rw [ran.trans run]
        refine ⟨rfl, rfl, .inr ⟨f, ?_⟩⟩
        unfold Execution.place at closed
        cases named : e.scope? b with
        | none =>
          rw [named] at closed
          cases closed
        | some name =>
          rw [named] at closed
          exact ⟨name, err, rfl, rfl, closed⟩
      · obtain ⟨n, rfl⟩ := Execution.place_eq entered
        rw [ran.trans run]
        exact ⟨(body (c.inNamespace n)).config, (body (c.inNamespace n)).vendor, .inl rfl⟩

theorem execute_sends (b : Builder) (e : Execution) : Sends (execute b e) c (e.request? b c) := by
  have ran := runOn_execute (c := c) b e
  unfold Execution.request?
  cases said : e.written b c with
  | error err =>
    rw [said] at ran
    exact sends_error ran rfl
  | ok content =>
    rw [said] at ran
    cases content with
    | none => exact sends_ok ran (failsWith_ok _) rfl
    | some f =>
      have body (d : Connection) := withQuery_performs (c := d) b e f e.size
      obtain ⟨err, n, closed, run⟩ | ⟨d, entered, run⟩ :=
        runOn_placed (c := c) b e (body c).steady
      · simp only [closed]
        exact sends_error (ran.trans run) rfl
      · obtain ⟨n, rfl⟩ := Execution.place_eq entered
        simp only [entered]
        have sends := (body (c.inNamespace n)).sends
        change Sends _ c (e.queryRequest b f (c.inNamespace n))
        cases plan : e.queryRequest b f (c.inNamespace n) with
        | error err =>
          rw [plan] at sends
          obtain ⟨failed, session⟩ := sends
          exact ⟨(congrArg (·.1) (ran.trans run)).trans failed,
            (congrArg (·.2.session) (ran.trans run)).trans session⟩
        | ok request =>
          rw [plan] at sends
          obtain ⟨fails, session⟩ := sends
          exact sends_ok (ran.trans run) fails session

end Exchange

end SparqlClient
