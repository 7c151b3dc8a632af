import SparqlClient.Proofs.Builder.Edits
import SparqlClient.Proofs.Connection.Namespaces

/-! What can be reached on a connection, with builders that are made on it and scopes that are open
at the same time. Main statement: wherever a namespace stands, in force, in a builder, kept for the
end of a scope or in a request, it has passed the check of names; and a name that does not pass is
refused everywhere, with the same report, before anything is sent or changed. -/

namespace SparqlClient

structure Situation where
  connection : Connection
  builders : List Builder
  scopes : List (Option String)

namespace Situation

/-- One thing that can be done. A scope that cannot be entered is no more than a step that sets the
namespace, and the end of a scope need not be that of the innermost one. -/
inductive Next (s : Situation) : Situation → Prop
  | step (st : Step) : Next s { s with connection := (st.exchange.runOn s.connection).2 }
  | enter {d : Connection} (name : Value)
    (entered : (Exchange.setNamespace name).runOn s.connection = (.ok (), d)) :
    Next s { s with connection := d, scopes := s.connection.namespaceName :: s.scopes }
  | leave {inner outer : List (Option String)} {n : Option String}
    (opened : s.scopes = inner ++ n :: outer) :
    Next s { s with connection := s.connection.inNamespace n, scopes := inner ++ outer }
  | build : Next s { s with builders := s.builders ++ [.ofConnection s.connection] }
  | copy {b : Builder} (own : b ∈ s.builders) : Next s { s with builders := s.builders ++ [b] }
  | edit {before behind : List Builder} {b : Builder} (e : Builder.Edit)
    (own : s.builders = before ++ b :: behind) :
    Next s { s with builders := before ++ e.after b :: behind }

inductive Reached : Situation → Prop
  | start {r : Registry} {config : ConnectionConfig} {server : List Sent → Reply} {c : Connection}
    (started : Connection.start r config server = .ok c) : Reached ⟨c, [], []⟩
  | next {s t : Situation} (reached : Reached s) (done : Next s t) : Reached t

structure Accepted (s : Situation) : Prop where
  inForce : ∀ n, s.connection.namespaceName = some n → Namespace.IsAccepted n
  ofBuilders : ∀ b ∈ s.builders, ∀ n, b.spec.namespaceName = some n → Namespace.IsAccepted n
  ofScopes : ∀ n, some n ∈ s.scopes → Namespace.IsAccepted n

end Situation

namespace Connection

theorem isAccepted_of_moved {c d : Connection} {name : Value} (h : c.moved name = .ok d)
    {n : String} (isNamed : named name = some n) : Namespace.IsAccepted n := by
  unfold moved at h
  unfold named at isNamed
  cases null : name.isNull with
  | true => simp [null] at isNamed
  | false =>
    simp only [null, Bool.not_false, if_true, Bool.false_eq_true, if_false] at h isNamed
    obtain ⟨m, valid, -⟩ := Outcome.bind_eq_ok_iff.1 h
    obtain ⟨chars, accepted⟩ := Namespace.isAccepted_of_validate valid
    obtain rfl := Option.some.inj (isNamed.symm.trans chars)
    exact accepted

end Connection

namespace Exchange

variable {α : Type} {c : Connection} {n : String}

theorem isAccepted_setNamespace (name : Value)
    (h : ((setNamespace name).runOn c).2.namespaceName = some n) :
    c.namespaceName = some n ∨ Namespace.IsAccepted n := by
  unfold setNamespace at h
  cases null : name.isNull with
  | true => simp [null, runOn_modify] at h
  | false =>
    simp only [null, Bool.false_eq_true, if_false, runOn_bind, runOn_ask] at h
    cases valid : Namespace.validate name with
    | error e => exact .inl (by simpa [valid, bind, Except.bind] using h)
    | ok m =>
      cases able : c.vendor.requireNamespaces with
      | error e => exact .inl (by simpa [valid, able, bind, Except.bind] using h)
      | ok _ =>
        simp only [valid, able, bind, Except.bind, pure, Except.pure, runOn_modify] at h
        obtain rfl : m = n := by
          cases found : (c.inNamespace (some m)).queryEndpoint with
          | error e =>
            unfold Connection.inNamespace at found
            rw [found] at h
            exact Option.some.inj h
          | ok url =>
            unfold Connection.inNamespace at found
            rw [found] at h
            exact Option.some.inj h
        exact .inr (Namespace.isAccepted_of_validate valid).2

theorem isAccepted_within {name : Value} {body : Exchange α}
    (h : ((within name body).runOn c).2.namespaceName = some n) :
    c.namespaceName = some n ∨ Namespace.IsAccepted n := by
  rw [within, runOn_bind, runOn_get] at h
  simp only [runOn_bind (setNamespace name)] at h
  cases ran : (setNamespace name).runOn c with
  | mk r d =>
    rw [ran] at h
    cases r with
    | error e => exact isAccepted_setNamespace name (by rw [ran]; exact h)
    | ok _ => exact .inl h

theorem isAccepted_execute {b : Builder} {e : Execution}
    (h : ((execute b e).runOn c).2.namespaceName = some n) :
    c.namespaceName = some n ∨ Namespace.IsAccepted n := by
  obtain ⟨-, -, same | ⟨f, name, err, written, opened, -⟩⟩ := execute_keeps (c := c) b e
  · exact .inl (same ▸ h)
  · have ran := runOn_execute (c := c) b e
    rw [written] at ran
    simp only [placed, opened] at ran
    rw [ran] at h
    exact isAccepted_within h

end Exchange

namespace Step

variable {c : Connection} {n : String}

theorem isAccepted_runOn (s : Step) (h : (s.exchange.runOn c).2.namespaceName = some n) :
    c.namespaceName = some n ∨ Namespace.IsAccepted n := by
  cases sets : s.setsNamespace c with
  | false => exact .inl ((s.leads c).namespaceName sets ▸ h)
  | true =>
    cases s with
    | setNamespace name =>
      rw [exchange, Exchange.runOn_bind] at h
      refine Exchange.isAccepted_setNamespace name ?_
      cases ran : (Exchange.setNamespace name).runOn c with
      | mk r d =>
        rw [ran] at h
        cases r <;> exact h
    | call k =>
      cases k with
      | execute b e => exact Exchange.isAccepted_execute h
      | _ => simp [setsNamespace, block?] at sets
    | _ => simp [setsNamespace, block?] at sets

end Step

namespace Call

/-- The namespace that a call puts into its request: the one it administers, that of the builder it
executes, or the one in force. -/
def carries (c : Connection) (k : Call) : Option String :=
  match k with
  | .createNamespace name _ | .deleteNamespace name | .namespaceExists name => name.chars?
  | k => match (Step.call k).block? c with
    | some name => Connection.named name
    | none => c.namespaceName

variable {c : Connection} {k : Call} {r : Request}

theorem reaches_carries (h : k.request? c = .ok (some r)) :
    k.Reaches (c.inNamespace (k.carries c)) r := by
  have reached := reaches_of_request? h
  cases k with
  | execute b e =>
    simp only [carries]
    cases opened : (Step.call (.execute b e)).block? c with
    | none =>
      rw [opened] at reached
      exact reached
    | some name =>
      rw [opened] at reached
      exact reached
  | _ => exact reached

theorem isAccepted_administered {c : Connection} {name : Value} {task : Admin.Task}
    (h : c.taskRequest name task = .ok r) {n : String} (isNamed : name.chars? = some n) :
    Namespace.IsAccepted n := by
  obtain ⟨m, valid, -⟩ := Outcome.bind_eq_ok_iff.1 h
  obtain ⟨chars, accepted⟩ := Namespace.isAccepted_of_validate valid
  obtain rfl := Option.some.inj (isNamed.symm.trans chars)
  exact accepted

theorem isAccepted_carries (h : k.request? c = .ok (some r)) {n : String}
    (carried : k.carries c = some n) : c.namespaceName = some n ∨ Namespace.IsAccepted n := by
  cases k with
  | createNamespace | deleteNamespace | namespaceExists =>
    exact .inr (isAccepted_administered (Connection.planned_of_map h) carried)
  | execute b e =>
    obtain ⟨content, written, h⟩ := Outcome.bind_eq_ok_iff.1 h
    cases content with
    | none => cases h
    | some f =>
      obtain ⟨d, place, -⟩ := Outcome.bind_eq_ok_iff.1 h
      have opened : (Step.call (.execute b e)).block? c = e.scope? b := by
        simp [Step.block?, written]
      unfold Execution.place at place
      simp only [carries, opened] at carried
      cases scope : e.scope? b with
      | none => exact .inl (by simpa [scope] using carried)
      | some name =>
        rw [scope] at place carried
        exact .inr (Connection.isAccepted_of_moved place carried)
  | _ => exact .inl carried

end Call

namespace Situation

variable {s t : Situation}

theorem Accepted.step (accepted : s.Accepted) (st : Step) {n : String}
    (h : (st.exchange.runOn s.connection).2.namespaceName = some n) : Namespace.IsAccepted n := by
  rcases st.isAccepted_runOn h with before | checked
  · exact accepted.inForce n before
  · exact checked

theorem Accepted.withBuilder {b : Builder} (accepted : s.Accepted)
    (own : ∀ n, b.spec.namespaceName = some n → Namespace.IsAccepted n) :
    Accepted { s with builders := s.builders ++ [b] } := by
  refine { accepted with ofBuilders := fun x member => ?_ }
  rcases List.mem_append.1 member with old | new
  · exact accepted.ofBuilders x old
  · obtain rfl := List.mem_singleton.1 new
    exact own

theorem Accepted.next (accepted : s.Accepted) (done : s.Next t) : t.Accepted := by
  cases done with
  | step st => exact { accepted with inForce := fun n => accepted.step st }
  | enter name entered =>
    refine ⟨fun n h => ?_, accepted.ofBuilders, fun n h => ?_⟩
    · rcases Exchange.isAccepted_setNamespace name (by rw [entered]; exact h)
        with before | checked
      · exact accepted.inForce n before
      · exact checked
    · rcases List.mem_cons.1 h with before | outer
      · exact accepted.inForce n before.symm
      · exact accepted.ofScopes n outer
  | leave opened =>
    refine ⟨fun n h => accepted.ofScopes n ?_, accepted.ofBuilders, fun n h =>
      accepted.ofScopes n ?_⟩
    · rw [opened]
      exact List.mem_append_right _ (h ▸ List.mem_cons_self ..)
    · rw [opened]
      rcases List.mem_append.1 h with inner | outer
      · exact List.mem_append_left _ inner
      · exact List.mem_append_right _ (List.mem_cons_of_mem _ outer)
  | build =>
    refine accepted.withBuilder fun n h => ?_
    unfold Builder.ofConnection at h
    simp only at h
    split at h <;> cases h
  | copy own => exact accepted.withBuilder (accepted.ofBuilders _ own)
  | edit e own =>
    have kept := own ▸ accepted.ofBuilders
    refine { accepted with ofBuilders := fun b member n h => ?_ }
    rcases List.mem_append.1 member with before | later
    · exact kept b (List.mem_append_left _ before) n h
    · rcases List.mem_cons.1 later with rfl | behind
      · rcases Builder.namespaceName_after h with same | checked
        · exact kept _ (List.mem_append_right _ (List.mem_cons_self ..)) n same
        · exact checked
      · exact kept b (List.mem_append_right _ (List.mem_cons_of_mem _ behind)) n h

theorem accepted_start {r : Registry} {config : ConnectionConfig} {server : List Sent → Reply}
    {c : Connection} (started : Connection.start r config server = .ok c) :
    Accepted ⟨c, [], []⟩ := by
  refine ⟨fun n h => ?_, by simp, by simp⟩
  obtain ⟨vendor, -, made⟩ := Outcome.bind_eq_ok_iff.1 started
  change c.namespaceName = some n at h
  cases given : config.namespaceName.filter (· ≠ "") with
  | none =>
    simp only [given] at made
    obtain rfl := Outcome.pure_eq_ok_iff.1 made
    cases h
  | some m =>
    simp only [given] at made
    obtain ⟨_, -, made⟩ := Outcome.bind_eq_ok_iff.1 made
    obtain rfl := Outcome.pure_eq_ok_iff.1 made
    rcases Exchange.isAccepted_setNamespace (.text m) h with before | checked
    · cases before
    · exact checked

theorem Reached.accepted (reached : s.Reached) : s.Accepted := by
  induction reached with
  | start started => exact accepted_start started
  | next _ done ih => exact ih.next done

end Situation

/-- Wherever a name can be given, this one is refused with the same report, and the connection is
left as it was. An empty name in the settings of a new connection is none. -/
structure Connection.Refuses (c : Connection) (name : String) : Prop where
  settings : ConnectionConfig.checkNamespace (.text name) = .error (Namespace.refusal name)
  start {r : Registry} {config : ConnectionConfig} {server : List Sent → Reply} {v : Vendor}
    (given : config.namespaceName = some name) (filled : name ≠ "")
    (known : r.get (.text config.implementation) = .ok v) :
    Connection.start r config server = .error (Namespace.refusal name)
  set : (Exchange.setNamespace (.text name)).runOn c = (.error (Namespace.refusal name), c)
  within {α : Type} (body : Exchange α) :
    (Exchange.within (.text name) body).runOn c = (.error (Namespace.refusal name), c)
  builder (b : Builder) : b.inNamespace (.text name) = .error (Namespace.refusal name)
  administer (task : Admin.Task) :
    (Exchange.administer (.text name) task).runOn c = (.error (Namespace.refusal name), c)
  endpoint {v : Vendor} (able : v ≠ .generic) (endpoint service : String) :
    v.namespaceEndpoint endpoint (.text name) service = .error (Namespace.refusal name)
  request {v : Vendor} (able : v ≠ .generic) (endpoint : String) (timeout : Value)
    (task : Admin.Task) :
    Admin.request v endpoint (.text name) timeout task = .error (Namespace.refusal name)

theorem Connection.refuses (c : Connection) {name : String} (bad : ¬Namespace.IsAccepted name) :
    c.Refuses name := by
  have refused := Namespace.validate_eq_refusal bad
  have set (c : Connection) :
      (Exchange.setNamespace (.text name)).runOn c = (.error (Namespace.refusal name), c) := by
    unfold Exchange.setNamespace
    simp only [Value.isNull, Bool.false_eq_true, if_false, Exchange.runOn_bind, Exchange.runOn_ask,
      refused]
    simp [bind, Except.bind]
  refine ⟨by simp [ConnectionConfig.checkNamespace, Value.isNull, refused, Except.map],
    fun {r config server v} given filled known => ?_, set c, fun body => ?_, fun b => ?_,
    fun task => ?_, fun {v} able endpoint service => ?_, fun {v} able endpoint timeout task => ?_⟩
  · have kept : config.namespaceName.filter (· ≠ "") = some name := by
      simp [given, filled]
    have ran := set (Connection.make config v server)
    unfold Connection.start
    rw [known, kept]
    change ((Exchange.setNamespace (.text name)).runOn (Connection.make config v server)).1.bind _
      = _
    rw [ran]
    rfl
  · rw [Exchange.within, Exchange.runOn_bind, Exchange.runOn_get]
    simp only [Exchange.runOn_bind, set]
  · simp [Builder.inNamespace, Value.isNull, refused, bind, Except.bind]
  · rw [Exchange.administer, Exchange.runOn_bind, Exchange.runOn_lift, refused]
  · cases v with
    | generic => exact absurd rfl able
    | _ => simp [Vendor.namespaceEndpoint, refused, bind, Except.bind]
  · cases v with
    | generic => exact absurd rfl able
    | _ => simp [Admin.request, Vendor.requireNamespaces, Vendor.hasNamespaces, refused, bind,
        Except.bind]

/-- In every situation the namespaces have passed the check; the next step sends nothing or one
request, for a namespace that has passed it as well; and what does not pass is refused. -/
theorem names_of_situation {s : Situation} (reached : s.Reached) :
    s.Accepted ∧
    (∀ st : Step, (st.exchange.runOn s.connection).2.session.sent = s.connection.session.sent ∨
      ∃ k r, st = .call k ∧
        (st.exchange.runOn s.connection).2.session.sent =
          s.connection.session.sent ++ [.request r] ∧
        (∀ n, k.carries s.connection = some n → Namespace.IsAccepted n) ∧
        k.Reaches (s.connection.inNamespace (k.carries s.connection)) r) ∧
    ∀ name, ¬Namespace.IsAccepted name → s.connection.Refuses name := by
  have accepted := reached.accepted
  refine ⟨accepted, fun st => ?_, fun name bad => s.connection.refuses bad⟩
  rcases (st.leads s.connection).sent with nothing | ⟨k, r, called, planned, sent⟩
  · exact .inl nothing
  · refine .inr ⟨k, r, called, sent, fun n carried => ?_, Call.reaches_carries planned⟩
    rcases Call.isAccepted_carries planned carried with before | checked
    · exact accepted.inForce n before
    · exact checked

def tenancy (n : String) : ConnectionConfig :=
  ⟨"http://h/sparql", .null, "blazegraph", .null, some n, .none, [], 30, none⟩

theorem names_of_situation_tenancy : ∃ s : Situation, s.Reached ∧
    s.connection.namespaceName = some "tenant-a" ∧
    s.builders.map (·.spec.namespaceName) = [some "tenant_b"] ∧
    s.Accepted ∧ s.connection.Refuses "../tenant-c" := by
  have started :
      Connection.start .standard (tenancy "tenant-a") (fun _ => .answered 200 "") = .ok _ := rfl
  have built := (Situation.Reached.start started).next .build
  have chosen := built.next (@Situation.Next.edit _ [] [] _ (.inNamespace (.text "tenant_b")) rfl)
  have bad : ¬Namespace.IsAccepted "../tenant-c" := by
    rw [← Namespace.isName_iff]
    decide
  obtain ⟨accepted, -, refuses⟩ := names_of_situation chosen
  exact ⟨_, chosen, rfl, rfl, accepted, refuses _ bad⟩

/-- A line end behind a name is let through. -/
theorem exists_reached_lineEnd : ∃ s : Situation, s.Reached ∧
    s.connection.namespaceName = some "a\n" ∧ ¬Namespace.IsPlain "a\n" ∧
    s.connection.queryEndpoint = .ok "http://h/namespace/a\n/sparql" := by
  have started :
      Connection.start .standard (tenancy "a\n") (fun _ => .answered 200 "") = .ok _ := rfl
  refine ⟨_, .start started, rfl, ?_, rfl⟩
  rintro ⟨-, plain⟩
  exact absurd (plain '\n' (by decide)) (by decide)

end SparqlClient
