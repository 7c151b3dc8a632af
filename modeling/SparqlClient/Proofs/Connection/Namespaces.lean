import SparqlClient.Proofs.Connection.Program

/-! Namespaces along a program. Main statement: whatever is done inside a block and however it
ends, it ends in the namespace in which it has begun; and what is sent goes to the endpoints of
the innermost open scope, as long as no change of namespace has come since. -/

namespace SparqlClient

namespace Connection

/-- A query is a parameter of the URL and goes to the endpoint for queries; else it is an update. -/
def Addresses (c : Connection) (r : Request) : Prop :=
  match r.query with
  | some _ => c.queryEndpoint = .ok r.url
  | none => c.updateEndpoint = .ok r.url

variable {c : Connection} {text accept : String} {values : Value} {cached : Bool} {r : Request}

theorem addresses_query (h : c.queryRequest text accept = .ok r) : c.Addresses r := by
  obtain ⟨url, known, h⟩ := Outcome.bind_eq_ok_iff.1 h
  obtain rfl := Outcome.pure_eq_ok_iff.1 h
  exact known

theorem addresses_results (h : c.resultsRequest text values cached = .ok (some r)) :
    c.Addresses r := by
  have sent {bound : String} (h : (do return some (← c.queryRequest bound answerType)) =
      (.ok (some r) : Outcome (Option Request))) : c.Addresses r := by
    obtain ⟨r', planned, h⟩ := Outcome.bind_eq_ok_iff.1 h
    obtain rfl := Option.some.inj (Outcome.pure_eq_ok_iff.1 h)
    exact addresses_query planned
  obtain ⟨bound, -, h⟩ := Outcome.bind_eq_ok_iff.1 h
  split at h
  · obtain ⟨key, -, h⟩ := Outcome.bind_eq_ok_iff.1 h
    obtain ⟨⟨hit, k⟩, -, h⟩ := Outcome.bind_eq_ok_iff.1 h
    cases hit with
    | some found => cases h
    | none => exact sent h
  · exact sent h

theorem addresses_test (h : c.testRequest text values = .ok r) : c.Addresses r := by
  obtain ⟨bound, -, h⟩ := Outcome.bind_eq_ok_iff.1 h
  exact addresses_query h

theorem addresses_triples (h : c.triplesRequest text values = .ok r) : c.Addresses r := by
  obtain ⟨bound, -, h⟩ := Outcome.bind_eq_ok_iff.1 h
  exact addresses_query h

theorem addresses_change (h : c.changeRequest text values = .ok r) : c.Addresses r := by
  obtain ⟨bound, -, h⟩ := Outcome.bind_eq_ok_iff.1 h
  obtain ⟨url, known, h⟩ := Outcome.bind_eq_ok_iff.1 h
  obtain rfl := Outcome.pure_eq_ok_iff.1 h
  exact known

theorem graphUrl_graphRequest {method : String} {graph : Value} {data : Option Upload}
    (h : c.graphRequest method graph data = .ok r) : c.graphUrl graph = .ok r.url := by
  obtain ⟨url, known, h⟩ := Outcome.bind_eq_ok_iff.1 h
  cases data with
  | none =>
    obtain rfl := Outcome.pure_eq_ok_iff.1 h
    exact known
  | some u =>
    obtain ⟨body, -, h⟩ := Outcome.bind_eq_ok_iff.1 h
    obtain rfl := Outcome.pure_eq_ok_iff.1 h
    exact known

theorem planned_of_map {x : Outcome Request} (h : x.map some = .ok (some r)) : x = .ok r := by
  obtain ⟨r', planned, h⟩ := Outcome.map_eq_ok_iff.1 h
  rw [planned, Option.some.inj h]

theorem addresses_select (h : c.selectRequest text values cached = .ok (some r)) :
    c.Addresses r := by
  unfold selectRequest at h
  split at h
  · exact addresses_test (planned_of_map h)
  · exact addresses_change (planned_of_map h)
  · exact addresses_results h

theorem addresses_run (h : c.runRequest text values = .ok (some r)) : c.Addresses r := by
  unfold runRequest at h
  split at h
  · exact addresses_triples (planned_of_map h)
  · exact addresses_triples (planned_of_map h)
  · exact addresses_select h

theorem addresses_execution {b : Builder} {e : Execution} {f : Fragment}
    (h : e.queryRequest b f c = .ok (some r)) : c.Addresses r := by
  cases e with
  | get | first | aggregate => exact addresses_results h
  | «exists» => exact addresses_test (planned_of_map h)
  | construct | describe => exact addresses_triples (planned_of_map h)
  | delete | insertBatch | deleteBatch => exact addresses_change (planned_of_map h)
  | cacheKey =>
    obtain ⟨_, -, h⟩ := Outcome.map_eq_ok_iff.1 h
    cases h

end Connection

namespace Call

/-- Where a call sends to: queries and updates to their endpoints, uploads to the URL of their
graph, and a task of administration to an address of its own, whatever the namespace. -/
def Reaches (c : Connection) (r : Request) : Call → Prop
  | .insertGraph _ graph | .replaceGraph _ graph | .deleteGraph graph =>
    c.graphUrl graph = .ok r.url
  | .createNamespace name properties => c.taskRequest name (.create properties) = .ok r
  | .deleteNamespace name => c.taskRequest name .delete = .ok r
  | .namespaceExists name => c.taskRequest name .exists = .ok r
  | _ => c.Addresses r

variable {c : Connection} {r : Request}

theorem reaches_of_request? {k : Call} (h : k.request? c = .ok (some r)) :
    match (Step.call k).block? c with
    | some name => k.Reaches (c.inNamespace (Connection.named name)) r
    | none => k.Reaches c r := by
  open Connection in
  cases k with
  | select => exact addresses_select h
  | ask => exact addresses_test (planned_of_map h)
  | construct => exact addresses_triples (planned_of_map h)
  | update => exact addresses_change (planned_of_map h)
  | run => exact addresses_run h
  | insertGraph | replaceGraph | deleteGraph => exact graphUrl_graphRequest (planned_of_map h)
  | createNamespace | deleteNamespace | namespaceExists => exact planned_of_map h
  | execute b e =>
    obtain ⟨content, written, h⟩ := Outcome.bind_eq_ok_iff.1 h
    cases content with
    | none => cases h
    | some f =>
      obtain ⟨d, place, h⟩ := Outcome.bind_eq_ok_iff.1 h
      have reaches := addresses_execution h
      unfold Execution.place at place
      rw [Step.block?, written]
      cases named : e.scope? b with
      | none =>
        rw [named] at place
        obtain rfl := Except.ok.inj place
        exact reaches
      | some name =>
        rw [named] at place
        obtain rfl := moved_eq place
        exact reaches

theorem reaches_congr {d : Connection} (config : d.config = c.config) (vendor : d.vendor = c.vendor)
    (n : Option String) (k : Call) :
    k.Reaches (d.inNamespace n) r ↔ k.Reaches (c.inNamespace n) r := by
  obtain ⟨_, _, _, _, _, _, _, _⟩ := c
  obtain ⟨_, _, _, _, _, _, _, _⟩ := d
  obtain rfl := config
  obtain rfl := vendor
  cases k <;> rfl

end Call

/-- What a run has kept of the connection on which it has begun, and of all it has sent. -/
structure Housed (first : Connection) (h : List Event) (home : Option (Option String))
    (c : Connection) : Prop where
  config : c.config = first.config
  vendor : c.vendor = first.vendor
  home : ∀ n, home = some n → c.namespaceName = n
  blocks : ∀ before after, .block before after ∈ h → after.namespaceName = before.namespaceName
  requests : ∀ stage, .step stage ∈ h → ∀ n, stage.sender = some n → ∀ r, .request r ∈ stage.sent →
    ∃ k, stage.step = .call k ∧ k.Reaches (first.inNamespace n) r
  sent : c.session.sent = first.session.sent ++ h.flatMap Event.sent

namespace Housed

variable {first c : Connection} {h : List Event} {home : Option (Option String)}

theorem keep {d : Connection} (housed : Housed first h home c) :
    ∀ n, Step.keep home c d = some n → d.namespaceName = n := by
  intro n kept
  unfold Step.keep at kept
  split at kept
  · rename_i same
    exact same.trans (housed.home n kept)
  · cases kept

theorem homeAfter (housed : Housed first h home c) (s : Step) :
    ∀ n, s.homeAfter home c = some n → (s.exchange.runOn c).2.namespaceName = n := by
  intro n after
  unfold Step.homeAfter at after
  cases sets : s.setsNamespace c with
  | true => exact housed.keep n (by simpa [sets] using after)
  | false =>
    have same := (s.leads c).namespaceName sets
    exact same.trans (housed.home n (by simpa [sets] using after))

theorem reaches (housed : Housed first h home c) {k : Call} {r : Request}
    (planned : k.request? c = .ok (some r)) {n : Option String}
    (sender : ((Step.call k).stage home c).sender = some n) :
    k.Reaches (first.inNamespace n) r := by
  refine (Call.reaches_congr housed.config housed.vendor n k).1 ?_
  have reached := Call.reaches_of_request? planned
  unfold Stage.sender at sender
  change (match (Step.call k).block? c with
    | some name => some (Connection.named name)
    | none => home) = some n at sender
  cases opened : (Step.call k).block? c with
  | some name =>
    rw [opened] at reached sender
    obtain rfl := Option.some.inj sender
    exact reached
  | none =>
    rw [opened] at reached sender
    obtain rfl := housed.home n sender
    exact reached

theorem step (housed : Housed first h home c) (s : Step) :
    Housed first (h ++ s.events home c) (s.homeAfter home c) (s.exchange.runOn c).2 := by
  have leads := s.leads c
  refine ⟨leads.config.trans housed.config, leads.vendor.trans housed.vendor, housed.homeAfter s,
    fun before after member => ?_, fun stage member n sender r sends => ?_, ?_⟩
  · rcases List.mem_append.1 member with earlier | now
    · exact housed.blocks before after earlier
    · obtain ⟨rfl, rfl, stays⟩ := Step.block_mem_events now
      exact leads.namespaceName stays
  · rcases List.mem_append.1 member with earlier | now
    · exact housed.requests stage earlier n sender r sends
    · obtain rfl := Step.step_mem_events now
      obtain nothing | ⟨k, r', rfl, planned, one⟩ := Step.sent_stage home c s
      · rw [nothing] at sends
        cases sends
      · rw [one] at sends
        obtain rfl := Sent.request.inj (List.mem_singleton.1 sends)
        exact ⟨k, rfl, housed.reaches planned sender⟩
  · rw [List.flatMap_append, Step.flatMap_sent_events, ← List.append_assoc, ← housed.sent]
    exact Step.sent_runOn

theorem invariant (first : Connection) : Program.Invariant (Housed first) where
  step s housed := housed.step s
  enter entered housed := by
    obtain rfl := Connection.moved_eq (Connection.entered?_eq_some_iff.1 entered)
    exact { housed with home := fun n same => Option.some.inj same }
  leave {h h' home home' c d} before inside := by
    refine ⟨inside.config, inside.vendor, before.home, fun b a member => ?_,
      fun stage member => inside.requests stage ?_, ?_⟩
    · rcases List.mem_append.1 member with earlier | now
      · exact inside.blocks b a earlier
      · obtain ⟨rfl, rfl⟩ := Event.block.inj (List.mem_singleton.1 now)
        rfl
    · simpa using member
    · change d.session.sent = _
      simpa [Event.sent] using inside.sent
  refused housed := { housed with home := housed.keep }

end Housed

/-- Blocks end where they have begun; what is sent is all there is, and each request goes to the
namespace of the innermost open scope. -/
theorem namespaces_of_program (p : Program) (c : Connection) :
    (∀ before after, .block before after ∈ p.events none c →
      after.namespaceName = before.namespaceName) ∧
    (∀ stage, .step stage ∈ p.events none c → ∀ n, stage.sender = some n →
      ∀ r, .request r ∈ stage.sent → ∃ k, stage.step = .call k ∧ k.Reaches (c.inNamespace n) r) ∧
    (p.exchange.runOn c).2.session.sent =
      c.session.sent ++ (p.events none c).flatMap Event.sent := by
  have start : Housed c [] none c := ⟨rfl, rfl, by simp, by simp, by simp, by simp⟩
  obtain ⟨home, housed⟩ := (Housed.invariant c).run p none start
  rw [List.nil_append] at housed
  exact ⟨housed.blocks, housed.requests, housed.sent⟩

end SparqlClient
