import SparqlClient.Proofs.Connection.Executions
import SparqlClient.Proofs.Statement.Forms
import SparqlClient.Proofs.Store.Names

/-! What a builder shows and what it sends. Rows, a first row and an aggregate are asked for with
the query of a builder that carries the columns, the limit or the aggregate. Main statement: what
that builder shows as its query is what is sent, in one request to the namespace in force, and
where it cannot be shown nothing is sent and the failure is the same. -/

namespace SparqlClient

open Statement

def Execution.asked? (b : Builder) : Execution → Option (Outcome Builder)
  | .get columns => some (.ok (if columns.isEmpty then b else b.select columns))
  | .first => some (b.limit (.int 1))
  | .aggregate function column separator =>
    some (b.aggregate (.text function) column separator)
  | _ => none

/-- The connection in the namespace of a builder, if that has one. -/
def Connection.homeOf (c : Connection) (b : Builder) : Connection :=
  match b.spec.namespaceName with
  | none => c
  | some n => c.inNamespace (some n)

theorem Namespace.validate_of_isAccepted {n : String} (h : IsAccepted n) :
    validate (.text n) = .ok n := by
  simp [validate, Value.chars?, isName_iff.2 h]

namespace Connection

variable {c : Connection} {b : Builder}

theorem homeOf_config : (c.homeOf b).config = c.config := by
  unfold homeOf
  split <;> rfl

theorem homeOf_prefixes : (c.homeOf b).prefixes = c.prefixes := by
  unfold homeOf
  split <;> rfl

theorem prepared_eq (f : Fragment) :
    c.prepared f.text (.list f.bindings) = f.bound (some c.prefixes) := rfl

end Connection

namespace Execution

variable {c : Connection} {b : Builder} {e : Execution} {asked : Outcome Builder} {url : String}

theorem query_eq (h : e.asked? b = some asked) : e.query b = asked >>= Builder.compile := by
  cases e with
  | get columns =>
    obtain rfl := Option.some.inj h
    rfl
  | first =>
    obtain rfl := Option.some.inj h
    rfl
  | aggregate function column separator =>
    obtain rfl := Option.some.inj h
    rfl
  | _ => cases h

theorem prefixes_asked {b' : Builder} (h : e.asked? b = some (.ok b')) :
    b'.prefixes = b.prefixes := by
  cases e with
  | get columns =>
    obtain rfl := Except.ok.inj (Option.some.inj h)
    split <;> rfl
  | first =>
    obtain ⟨n, -, limited⟩ := Outcome.bind_eq_ok_iff.1 (Option.some.inj h)
    obtain rfl := Outcome.pure_eq_ok_iff.1 limited
    rfl
  | aggregate function column separator =>
    obtain ⟨a, -, aggregated⟩ := Outcome.bind_eq_ok_iff.1 (Option.some.inj h)
    obtain rfl := Outcome.pure_eq_ok_iff.1 aggregated
    rfl
  | _ => cases h

theorem written_eq (shared : b.prefixes = c.prefixes) (h : e.asked? b = some asked) :
    e.written b c = (asked >>= Builder.compile).map some := by
  have same : { b with prefixes := c.prefixes } = b := by rw [← shared]
  have rows : e.batchSize? = .ok none := by
    cases e <;> first | rfl | cases h
  unfold written
  rw [same, rows, query_eq h]
  rfl

theorem place_eq_home
    (named : ∀ n, b.spec.namespaceName = some n → Namespace.IsAccepted n ∧ c.vendor.hasNamespaces)
    (known : (c.homeOf b).queryEndpoint = .ok url) (h : e.asked? b = some asked) :
    e.place b c = .ok (c.homeOf b) := by
  have scope : e.scope? b = b.spec.namespaceName.map .text := by
    cases e <;> first | rfl | cases h
  unfold Connection.homeOf at known ⊢
  unfold place
  rw [scope]
  cases own : b.spec.namespaceName with
  | none => rfl
  | some n =>
    rw [own] at known
    obtain ⟨accepted, able⟩ := named n own
    have moved : c.moved (.text n) = do
        let _ ← Namespace.validate (.text n)
        c.vendor.requireNamespaces
        let _ ← (c.inNamespace (some n)).queryEndpoint
        return c.inNamespace (some n) := rfl
    simp only [Option.map_some, moved, Namespace.validate_of_isAccepted accepted,
      Vendor.requireNamespaces, able, if_true, known]
    rfl

theorem request?_eq (shared : b.prefixes = c.prefixes) (plain : b.remembered = false)
    (named : ∀ n, b.spec.namespaceName = some n → Namespace.IsAccepted n ∧ c.vendor.hasNamespaces)
    (known : (c.homeOf b).queryEndpoint = .ok url) (h : e.asked? b = some asked) :
    e.request? b c = (asked >>= Builder.query).map fun text =>
      some (.ask url (.float c.config.timeout) text Connection.answerType) := by
  have rows (f : Fragment) : e.queryRequest b f (c.homeOf b) =
      (f.bound (some c.prefixes)).map fun text =>
        some (.ask url (.float c.config.timeout) text Connection.answerType) := by
    have asks : e.queryRequest b f (c.homeOf b) =
        (c.homeOf b).resultsRequest f.text (.list f.bindings) b.remembered := by
      cases e <;> first | rfl | cases h
    rw [asks, plain, Connection.resultsRequest, Connection.prepared_eq, Connection.homeOf_prefixes]
    simp only [Connection.queryRequest, known, Connection.homeOf_config]
    cases f.bound (some c.prefixes) <;> rfl
  unfold request?
  rw [written_eq shared h, place_eq_home named known h]
  cases made : asked with
  | error err => rfl
  | ok b' =>
    have names : b'.prefixes = c.prefixes := (prefixes_asked (made ▸ h)).trans shared
    have compiled : (.ok b' : Outcome Builder) >>= Builder.compile = b'.compile := rfl
    have bound : (.ok b' : Outcome Builder) >>= Builder.query =
        b'.compile >>= fun f => f.bound (some c.prefixes) := by
      rw [← names]
      rfl
    rw [compiled, bound]
    cases b'.compile with
    | error err => rfl
    | ok f => exact rows f

end Execution

theorem Exchange.ofFragment_eq {b b' : Builder} {f : Fragment} (h : b'.compile = .ok f) :
    Exchange.select f.text (.list f.bindings) b.remembered b.timeToLive = do
      return .results (← Exchange.ofFragment b f) := by
  obtain ⟨_, h⟩ := Compile.run_eq_ok h
  have kind : statementKind ("" ++ f.text) = .select :=
    (Compile.select_opens h).statementKind IsPrologue.nil
  rw [String.empty_append] at kind
  unfold Exchange.select
  rw [kind]
  rfl

/-- Without remembered results. -/
theorem sent_of_preview {c : Connection} {b : Builder} {e : Execution} {asked : Outcome Builder}
    {url : String} (shared : b.prefixes = c.prefixes) (plain : b.remembered = false)
    (named : ∀ n, b.spec.namespaceName = some n → Namespace.IsAccepted n ∧ c.vendor.hasNamespaces)
    (known : (c.homeOf b).queryEndpoint = .ok url) (h : e.asked? b = some asked) :
    let ran := (Exchange.execute b e).runOn c
    (∀ b' f, asked = .ok b' → b'.compile = .ok f →
      Exchange.select f.text (.list f.bindings) b.remembered b.timeToLive = do
        return .results (← Exchange.ofFragment b f)) ∧
    match asked >>= Builder.query with
    | .error err => ran.1 = .error err ∧ ran.2.session = c.session
    | .ok text => ran.2.session.sent = c.session.sent ++
        [.request (.ask url (.float c.config.timeout) text Connection.answerType)] := by
  refine ⟨fun b' f _ written => Exchange.ofFragment_eq written, ?_⟩
  have sends := Exchange.execute_sends (c := c) b e
  rw [Execution.request?_eq shared plain named known h] at sends
  generalize asked >>= Builder.query = query at sends
  cases query with
  | error err => exact sends
  | ok text => exact congrArg Session.sent sends.2

def elsewhere (c : Connection) : Builder :=
  ((Builder.ofConnection c).table (.text "foaf:Person")).withSpec
    ({ · with namespaceName := some "b" })

theorem sent_of_preview_counted :
    let c := Connection.make ⟨"http://h/a/sparql", .null, "fuseki", .null, none, .none, [], 30,
      none⟩ .fuseki fun _ => .answered 200 ""
    let e : Execution := .aggregate "COUNT" (.text "*") .null
    let text := "SELECT (COUNT(*) as ?aggregate) WHERE \x7b ?s <" ++ typeIri ++
      "> <http://xmlns.com/foaf/0.1/Person> . \x7d"
    ((elsewhere c).aggregate (.text "COUNT") (.text "*") .null >>= Builder.query) = .ok text ∧
    ((Exchange.execute (elsewhere c) e).runOn c).2.session.sent =
      [.request (.ask "http://h/b/sparql" (.float 30) text Connection.answerType)] := by
  intro c e text
  have shown : ((elsewhere c).aggregate (.text "COUNT") (.text "*") .null >>= Builder.query) =
      .ok text := by
    decide +kernel
  have named : ∀ n, (elsewhere c).spec.namespaceName = some n →
      Namespace.IsAccepted n ∧ c.vendor.hasNamespaces := by
    rintro n ⟨⟩
    exact ⟨Namespace.isName_iff.1 (by decide), rfl⟩
  have known : (c.homeOf (elsewhere c)).queryEndpoint = .ok "http://h/b/sparql" := by
    decide +kernel
  have sent := (sent_of_preview (e := e) rfl rfl named known rfl).2
  rw [shown] at sent
  exact ⟨shown, sent⟩

end SparqlClient
