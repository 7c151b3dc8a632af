import SparqlClient.Proofs.Connection.Executions

/-! Changes of namespace that are refused. A name that is not accepted and a store without
namespaces are found out before anything has changed. The endpoint of the new namespace is looked
at after it, and where the store derives it from an endpoint that cannot be split, the new namespace
stays in force behind the failure (`namespace_of_refused`). -/

namespace SparqlClient

namespace Connection

variable {c d : Connection} {name : Value} {n : String} {e : Error}

/-- The store puts its namespaces behind the authority of the endpoint, and that is none: there are
brackets without an address in them, or delimiters in disguise. -/
def IsUnsplit (c : Connection) : Prop :=
  c.vendor = .fuseki ∧ Url.split? c.config.endpoint = none

theorem validate_text (valid : Namespace.validate name = .ok n) :
    Namespace.validate (.text n) = .ok n := by
  have isName := (Namespace.isName_of_validate valid).2
  simp [Namespace.validate, Value.chars?, isName]

theorem queryEndpoint_of_isUnsplit (unsplit : c.IsUnsplit)
    (valid : Namespace.validate name = .ok n) :
    (c.inNamespace (some n)).queryEndpoint = Misuse.fail .badValue := by
  have endpoint : (c.inNamespace (some n)).queryEndpoint =
      c.vendor.namespaceEndpoint c.config.endpoint (.text n) "sparql" := rfl
  rw [endpoint, unsplit.1, Vendor.namespaceEndpoint, validate_text valid, Url.base, unsplit.2]
  rfl

theorem queryEndpoint_eq_ok (splits : ¬c.IsUnsplit) (valid : Namespace.validate name = .ok n) :
    ∃ url, (c.inNamespace (some n)).queryEndpoint = .ok url := by
  have endpoint : (c.inNamespace (some n)).queryEndpoint =
      c.vendor.namespaceEndpoint c.config.endpoint (.text n) "sparql" := rfl
  rw [endpoint]
  cases kind : c.vendor with
  | generic => exact ⟨_, rfl⟩
  | blazegraph =>
    rw [Vendor.namespaceEndpoint, validate_text valid]
    exact ⟨_, rfl⟩
  | fuseki =>
    cases split : Url.split? c.config.endpoint with
    | none => exact absurd ⟨kind, split⟩ splits
    | some u =>
      rw [Vendor.namespaceEndpoint, validate_text valid, Url.base, split]
      exact ⟨_, rfl⟩

end Connection

namespace Exchange

open Connection

variable {c d : Connection} {name : Value} {n : String} {e : Error}

theorem runOn_setNamespace_null (null : name.isNull = true) :
    (setNamespace name).runOn c = (.ok (), c.inNamespace none) := by
  rw [setNamespace, if_pos null, runOn_modify]
  rfl

def checked (name : Value) (c : Connection) : Outcome String := do
  let n ← Namespace.validate name
  c.vendor.requireNamespaces
  return n

theorem runOn_setNamespace_given (given : name.isNull = false) :
    (setNamespace name).runOn c = match checked name c with
      | .error e => (.error e, c)
      | .ok n => ((c.inNamespace (some n)).queryEndpoint.map fun _ => (),
          c.inNamespace (some n)) := by
  have looked (n : String) : (ask (·.queryEndpoint) >>= fun _ => (pure () : Exchange Unit)).runOn
      (c.inNamespace (some n)) =
        ((c.inNamespace (some n)).queryEndpoint.map fun _ => (), c.inNamespace (some n)) := by
    rw [runOn_bind, runOn_ask]
    cases (c.inNamespace (some n)).queryEndpoint <;> rfl
  have steps : setNamespace name = ask (checked name) >>= fun n =>
      modify ({ · with namespaceName := some n }) >>= fun _ =>
        ask (·.queryEndpoint) >>= fun _ => pure () := by
    rw [setNamespace, if_neg (by simp [given])]
    rfl
  rw [steps, runOn_bind, runOn_ask]
  cases checked name c with
  | error e => rfl
  | ok n => exact looked n

theorem requireNamespaces_of_isUnsplit (unsplit : c.IsUnsplit) :
    c.vendor.requireNamespaces = .ok () := by
  rw [unsplit.1]
  rfl

theorem setNamespace_refused (refused : (setNamespace name).runOn c = (.error e, d)) :
    (∃ n, Namespace.validate name = .ok n ∧ c.IsUnsplit ∧ d = c.inNamespace (some n) ∧
      e = .misuse .badValue ∧ d.queryEndpoint = .error e) ∨
    ¬(c.IsUnsplit ∧ ∃ n, Namespace.validate name = .ok n) ∧ d = c := by
  cases null : name.isNull with
  | true =>
    rw [runOn_setNamespace_null null] at refused
    cases refused
  | false =>
    rw [runOn_setNamespace_given null] at refused
    cases valid : Namespace.validate name with
    | error invalid =>
      rw [checked, valid] at refused
      cases refused
      exact .inr ⟨by simp, rfl⟩
    | ok n =>
      rw [checked, valid] at refused
      by_cases unsplit : c.IsUnsplit
      · have endpoint := queryEndpoint_of_isUnsplit unsplit valid
        rw [requireNamespaces_of_isUnsplit unsplit] at refused
        simp only [bind, Except.bind, pure, Except.pure, endpoint] at refused
        cases refused
        exact .inl ⟨n, rfl, unsplit, rfl, rfl, endpoint⟩
      · refine .inr ⟨fun both => unsplit both.1, ?_⟩
        obtain ⟨url, endpoint⟩ := queryEndpoint_eq_ok unsplit valid
        cases able : c.vendor.requireNamespaces with
        | error unable =>
          rw [able] at refused
          cases refused
          rfl
        | ok _ =>
          rw [able] at refused
          simp only [bind, Except.bind, pure, Except.pure, endpoint] at refused
          cases refused

theorem within_refused {α : Type} (refused : (setNamespace name).runOn c = (.error e, d))
    (body : Exchange α) : (within name body).runOn c = (.error e, d) := by
  rw [within, runOn_bind, runOn_get]
  change ((setNamespace name) >>= fun _ => restoring c.namespaceName body).runOn c = _
  rw [runOn_bind, refused]

theorem execute_refused (refused : (setNamespace name).runOn c = (.error e, d)) {b : Builder}
    {x : Execution} {f : Fragment} (written : x.written b c = .ok (some f))
    (scope : x.scope? b = some name) : (execute b x).runOn c = (.error e, d) := by
  rw [runOn_execute, written]
  change (placed b x _).runOn c = _
  rw [placed, scope]
  exact within_refused refused _

/-- A change of namespace that is refused, on its own, by a block, or by a builder with a namespace
once its query is written, leaves the connection as it was, endpoints included. The one exception
is a name that is accepted, for a store that puts its namespaces behind the authority of an endpoint
that cannot be split: then the new namespace is in force, and every request is refused. -/
theorem namespace_of_refused (refused : (setNamespace name).runOn c = (.error e, d)) :
    (∀ (α : Type) (body : Exchange α), (within name body).runOn c = (.error e, d)) ∧
    (∀ b x f, x.written b c = .ok (some f) → x.scope? b = some name →
      (execute b x).runOn c = (.error e, d)) ∧
    ((∃ n, Namespace.validate name = .ok n ∧ c.IsUnsplit ∧ d = c.inNamespace (some n) ∧
        e = .misuse .badValue ∧ d.queryEndpoint = .error e) ∨
      ¬(c.IsUnsplit ∧ ∃ n, Namespace.validate name = .ok n) ∧ d = c) :=
  ⟨fun _ => within_refused refused, fun _ _ _ => execute_refused refused,
    setNamespace_refused refused⟩

def cutOff (store : String) : ConnectionConfig :=
  ⟨"http://[/ds/sparql", .null, store, .null, none, .none, [], 30, none⟩

def cutOffStore (v : Vendor) : Connection :=
  .make (cutOff v.name) v fun _ => .answered 200 ""

theorem namespace_of_refused_unsupported :
    let c := cutOffStore .generic
    (setNamespace (.text "tenant")).runOn c =
      (.error (.configuration (.namespacesUnsupported "generic")), c) ∧
    (within (.text "tenant") (pure ())).runOn c =
      (.error (.configuration (.namespacesUnsupported "generic")), c) ∧
    ¬c.IsUnsplit := by
  have refused : (setNamespace (.text "tenant")).runOn (cutOffStore .generic) =
      (.error (.configuration (.namespacesUnsupported "generic")), cutOffStore .generic) := rfl
  obtain ⟨inside, -, ⟨n, -, unsplit, -⟩ | -⟩ := namespace_of_refused refused
  · cases unsplit.1
  · exact ⟨refused, inside Unit (pure ()), fun unsplit => by cases unsplit.1⟩

/-- The scope has failed before its body and leaves its namespace behind. -/
theorem exists_namespace_ne : ∃ (c d : Connection) (e : Error),
    (within (.text "a") (pure ())).runOn c = (.error e, d) ∧
    c.namespaceName = none ∧ d.namespaceName = some "a" ∧
    c.queryEndpoint = .ok "http://[/ds/sparql" ∧ d.queryEndpoint = .error e := by
  have split : Url.split? "http://[/ds/sparql" = none := by decide +kernel
  have endpoint : ((cutOffStore .fuseki).inNamespace (some "a")).queryEndpoint =
      Misuse.fail .badValue :=
    queryEndpoint_of_isUnsplit ⟨rfl, split⟩
      (show Namespace.validate (.text "a") = .ok "a" from rfl)
  refine ⟨cutOffStore .fuseki, (cutOffStore .fuseki).inNamespace (some "a"), .misuse .badValue,
    ?_, rfl, rfl, rfl, endpoint⟩
  refine within_refused ?_ (pure ())
  rw [runOn_setNamespace_given rfl]
  exact congrArg (·.map (fun _ => ()), _) endpoint

end Exchange

end SparqlClient
