import SparqlClient.Proofs.Connection.Run

/-! Changes of namespace. Setting a namespace touches nothing else; a scope is entered once that
has gone well, and its end puts back the namespace it has found. A builder with a namespace of its
own does its exchange in such a scope, after its query is written. -/

namespace SparqlClient

namespace Connection

def inNamespace (c : Connection) (n : Option String) : Connection := { c with namespaceName := n }

@[simp] theorem inNamespace_self (c : Connection) : c.inNamespace c.namespaceName = c := rfl

/-- The namespace that a value names; null names none. -/
def named (name : Value) : Option String := if name.isNull then none else name.chars?

def moved (c : Connection) (name : Value) : Outcome Connection := do
  if !name.isNull then
    let _ ← Namespace.validate name
    c.vendor.requireNamespaces
    let _ ← (c.inNamespace (named name)).queryEndpoint
  return c.inNamespace (named name)

theorem moved_eq {c d : Connection} {name : Value} (h : c.moved name = .ok d) :
    d = c.inNamespace (named name) := by
  unfold moved at h
  split at h
  · obtain ⟨_, -, h⟩ := Outcome.bind_eq_ok_iff.1 h
    obtain ⟨_, -, h⟩ := Outcome.bind_eq_ok_iff.1 h
    obtain ⟨_, -, h⟩ := Outcome.bind_eq_ok_iff.1 h
    exact Outcome.pure_eq_ok_iff.1 h
  · exact Outcome.pure_eq_ok_iff.1 h

end Connection

namespace Exchange

variable {α : Type} {c : Connection}

theorem runOn_setNamespace (name : Value) :
    (∃ e n, c.moved name = .error e ∧ (setNamespace name).runOn c = (.error e, c.inNamespace n)) ∨
    ∃ d, c.moved name = .ok d ∧ (setNamespace name).runOn c = (.ok (), d) := by
  have sought (n : String) :
      ((modify ({ · with namespaceName := some n }) : Exchange PUnit) >>= fun _ =>
        ask (·.queryEndpoint) >>= fun _ => (pure () : Exchange Unit)).runOn c =
        ((c.inNamespace (some n)).queryEndpoint.map fun _ => (), c.inNamespace (some n)) := by
    rw [runOn_bind, runOn_modify]
    change (ask (·.queryEndpoint) >>= fun _ => (pure () : Exchange Unit)).runOn
      (c.inNamespace (some n)) = _
    rw [runOn_bind, runOn_ask]
    cases (c.inNamespace (some n)).queryEndpoint <;> rfl
  unfold Connection.moved setNamespace
  cases null : name.isNull with
  | true => exact .inr ⟨c.inNamespace (Connection.named name), rfl, by
      simp [Connection.named, null, runOn_modify, Connection.inNamespace]⟩
  | false =>
    simp only [Bool.false_eq_true, if_false, Bool.not_false, if_true, runOn_bind (ask _), runOn_ask]
    cases valid : Namespace.validate name with
    | error e => exact .inl ⟨e, c.namespaceName, rfl, rfl⟩
    | ok n =>
      have isNamed : Connection.named name = some n := by
        simp [Connection.named, null, (Namespace.isName_of_validate valid).1]
      rw [isNamed]
      cases able : c.vendor.requireNamespaces with
      | error e => exact .inl ⟨e, c.namespaceName, rfl, rfl⟩
      | ok _ =>
        have entered := sought n
        cases found : (c.inNamespace (some n)).queryEndpoint with
        | error e =>
          rw [found] at entered
          exact .inl ⟨e, some n, rfl, entered⟩
        | ok url =>
          rw [found] at entered
          exact .inr ⟨c.inNamespace (some n), rfl, entered⟩

theorem runOn_within (name : Value) (body : Exchange α) :
    (∃ e n, c.moved name = .error e ∧ (within name body).runOn c = (.error e, c.inNamespace n)) ∨
    ∃ d, c.moved name = .ok d ∧ (within name body).runOn c =
      ((body.runOn d).1, (body.runOn d).2.inNamespace c.namespaceName) := by
  have ran : (within name body).runOn c =
      ((setNamespace name) >>= fun _ => restoring c.namespaceName body).runOn c := by
    rw [within, runOn_bind, runOn_get]
  rw [ran, runOn_bind]
  obtain ⟨e, n, failed, entered⟩ | ⟨d, moved, entered⟩ := runOn_setNamespace (c := c) name
  · exact .inl ⟨e, n, failed, by rw [entered]⟩
  · exact .inr ⟨d, moved, by rw [entered]; rfl⟩

end Exchange

end SparqlClient
