import SparqlClient.Proofs.Query.Conditions

/-! How a scope grows while a query is written. A predicate or a path keeps its variable, what is
needed stays needed, and a predicate counts as emitted only where a pattern reaches its variable. -/

namespace SparqlClient

open Text

def IsVariable (ref : String) : Prop := ∃ name, ref = "?" ++ name ∧ IsName name.toList

/-- Among the parts is the pattern from the subject along a way to `ref`, on its own or where it
may be missing. -/
def Reached (parts : List Fragment) (subject way ref : String) : Prop :=
  ∃ f ∈ parts, ∃ optional,
    f.text = (optionally optional (Compile.along subject way (.ofText ref))).text

def Covers (parts fs : List Fragment) : Prop := ∀ f ∈ fs, ∃ g ∈ parts, g.text = f.text

theorem Reached.covered {parts fs : List Fragment} {subject way ref : String}
    (h : Reached fs subject way ref) (covers : Covers parts fs) :
    Reached parts subject way ref := by
  obtain ⟨f, hf, optional, written⟩ := h
  obtain ⟨g, hg, same⟩ := covers f hf
  exact ⟨g, hg, optional, same.trans written⟩

theorem covers_of_subset {parts fs : List Fragment} (h : ∀ f ∈ fs, f ∈ parts) : Covers parts fs :=
  fun f hf => ⟨f, h f hf, rfl⟩

namespace Scope

theorem refOf?_append (s : Scope) (q predicate ref : String) :
    { s with refs := s.refs ++ [(predicate, ref)] }.refOf? q =
      match s.refOf? q with
      | some v => some v
      | none => if predicate = q then some ref else none := by
  unfold refOf?
  rw [List.find?_append]
  cases s.refs.find? (·.1 == q) with
  | some e => rfl
  | none =>
    by_cases same : predicate = q
    · simp [same]
    · simp [same]

theorem mem_keys_putNeeded {q r : String} {optional : Bool} {needed : List (String × Bool)} :
    r ∈ (putNeeded q optional needed).map Prod.fst ↔ r = q ∨ r ∈ needed.map Prod.fst := by
  induction needed with
  | nil => simp [putNeeded]
  | cons e rest ih =>
    obtain ⟨q', o'⟩ := e
    rw [putNeeded]
    split
    · rename_i same
      simp [same]
    · rw [List.map_cons, List.mem_cons, ih, List.map_cons, List.mem_cons, or_left_comm]

/-- The scope `t` is reached from `s`. -/
structure Le (s t : Scope) : Prop where
  subject : t.subject = s.subject
  refs : ∀ q ref, s.refOf? q = some ref → t.refOf? q = some ref
  needed : ∀ q ∈ s.needed.map Prod.fst, q ∈ t.needed.map Prod.fst

theorem Le.refl (s : Scope) : s.Le s := ⟨rfl, fun _ _ => id, fun _ => id⟩

theorem Le.trans {s t u : Scope} (first : s.Le t) (second : t.Le u) : s.Le u where
  subject := second.subject.trans first.subject
  refs := fun q ref h => second.refs q ref (first.refs q ref h)
  needed := fun q h => second.needed q (first.needed q h)

def Named (s : Scope) : Prop := ∀ e ∈ s.refs, IsVariable e.2

theorem Named.isVariable {s : Scope} (h : s.Named) {q ref : String}
    (known : s.refOf? q = some ref) : IsVariable ref :=
  h _ (mem_refs_of_refOf? known)

/-- From `s` to `t` the patterns are added to a block. What is emitted on the way has its pattern
among them, and inside another block nothing is. -/
structure Grows (top : Bool) (patterns : List Fragment) (s t : Scope) : Prop extends Le s t where
  named : s.Named → t.Named
  emitted : ∀ q ∈ t.emitted, q ∈ s.emitted ∨ top = true ∧
    ∃ ref, t.refOf? q = some ref ∧ Reached patterns t.subject (angled q) ref

theorem Grows.refl (top : Bool) (patterns : List Fragment) (s : Scope) :
    s.Grows top patterns s :=
  ⟨.refl s, id, fun _ => .inl⟩

theorem Grows.append {top : Bool} {a b : List Fragment} {s t u : Scope}
    (first : s.Grows top a t) (second : t.Grows top b u) : s.Grows top (a ++ b) u where
  toLe := first.toLe.trans second.toLe
  named := fun h => second.named (first.named h)
  emitted := by
    intro q hq
    rcases second.emitted q hq with before | ⟨outermost, ref, known, reached⟩
    · rcases first.emitted q before with before | ⟨outermost, ref, known, reached⟩
      · exact .inl before
      · have covers : Covers (a ++ b) a := covers_of_subset fun f => List.mem_append_left b
        rw [← second.subject] at reached
        exact .inr ⟨outermost, ref, second.refs q ref known, reached.covered covers⟩
    · have covers : Covers (a ++ b) b := covers_of_subset fun f => List.mem_append_right a
      exact .inr ⟨outermost, ref, known, reached.covered covers⟩

theorem Grows.silent {patterns : List Fragment} {s t : Scope} (h : s.Grows false patterns t)
    (top : Bool) (others : List Fragment) : s.Grows top others t where
  toLe := h.toLe
  named := h.named
  emitted := by
    intro q hq
    rcases h.emitted q hq with before | ⟨outermost, -⟩
    · exact .inl before
    · cases outermost

theorem Grows.emitted_eq_nil {patterns : List Fragment} {s t : Scope}
    (h : s.Grows false patterns t) (none_yet : s.emitted = []) : t.emitted = [] := by
  rw [List.eq_nil_iff_forall_not_mem]
  intro q hq
  rcases h.emitted q hq with before | ⟨outermost, -⟩
  · rw [none_yet] at before
    cases before
  · cases outermost

theorem grows_variableFor (s : Scope) (q hint : String) :
    s.Grows false [] (s.variableFor q hint).2 := by
  rcases s.variableFor_cases q hint with ⟨v, -, same⟩ | ⟨name, unknown, free, fresh⟩
  · rw [same]
    exact .refl _ _ s
  · rw [fresh]
    refine ⟨⟨rfl, ?_, fun _ => id⟩, ?_, fun _ => .inl⟩
    · intro r ref known
      exact (s.refOf?_append r q _).trans (by rw [known])
    · intro named e he
      rcases List.mem_append.1 he with old | new
      · exact named e old
      · rw [List.mem_singleton.1 new, free]
        exact ⟨_, rfl, isName_freshName (isName_baseName hint) s.taken⟩

theorem refOf?_variableFor (s : Scope) (q hint : String) :
    (s.variableFor q hint).2.refOf? q = some (s.variableFor q hint).1 := by
  rcases s.variableFor_cases q hint with ⟨v, known, same⟩ | ⟨name, unknown, -, fresh⟩
  · rw [same]
    exact known
  · rw [fresh]
    exact (s.refOf?_append q q _).trans (by rw [unknown, if_pos rfl])

end Scope

namespace Compile

variable {p : Prefixes} {s t : Scope}

theorem resolve_grows {v : Value} {c : Column} (h : Gives (resolve p v) s c t) :
    s.Grows false [] t := by
  rw [resolve_gives] at h
  cases form : columnForm p v with
  | written text =>
    rw [form] at h
    cases h
    exact .refl _ _ s
  | predicate iri =>
    rw [form] at h
    obtain ⟨q, -, he⟩ := Outcome.map_eq_ok_iff.1 h
    cases he
    exact s.grows_variableFor q q

theorem resolve_writes {v : Value} {c : Column} (h : Gives (resolve p v) s c t) :
    match columnForm p v with
    | .written text => c = ⟨text, none⟩
    | .predicate iri => ∃ q, normalizeIriValue iri = .ok q ∧ c.predicate = some q ∧
      t.refOf? q = some c.ref := by
  rw [resolve_gives] at h
  cases form : columnForm p v with
  | written text =>
    rw [form] at h
    cases h
    rfl
  | predicate iri =>
    rw [form] at h
    obtain ⟨q, hq, he⟩ := Outcome.map_eq_ok_iff.1 h
    cases he
    exact ⟨q, hq, rfl, s.refOf?_variableFor q q⟩

theorem refOf?_resolve {v : Value} {c : Column} {q : String} (h : Gives (resolve p v) s c t)
    (behind : c.predicate = some q) : t.refOf? q = some c.ref := by
  have writes := resolve_writes h
  cases form : columnForm p v with
  | written text =>
    rw [form] at writes
    rw [writes] at behind
    cases behind
  | predicate iri =>
    rw [form] at writes
    obtain ⟨r, -, named, known⟩ := writes
    rw [named] at behind
    cases behind
    exact known

/-- Steps that emit nothing, one after the other. What relates a value to its result as the scope
stands keeps relating them as the scope grows. -/
theorem mapM_grows {α β : Type} {R : Scope → α → β → Prop} {f : α → Compile β} {l : List α}
    {bs : List β} (mono : ∀ s t, s.Le t → ∀ a b, R s a b → R t a b)
    (step : ∀ a ∈ l, ∀ s b t, Gives (f a) s b t → s.Grows false [] t ∧ R t a b)
    (h : Gives (l.mapM f) s bs t) : s.Grows false [] t ∧ List.Forall₂ (R t) l bs := by
  induction l generalizing s bs with
  | nil =>
    rw [List.mapM_nil] at h
    obtain ⟨rfl, rfl⟩ := pure_gives.1 h
    exact ⟨.refl _ _ t, .nil⟩
  | cons a l ih =>
    rw [List.mapM_cons] at h
    obtain ⟨b, u, first, rest⟩ := bind_gives.1 h
    obtain ⟨others, w, behind, last⟩ := bind_gives.1 rest
    obtain ⟨rfl, rfl⟩ := pure_gives.1 last
    rw [List.forall_mem_cons] at step
    obtain ⟨to_u, written⟩ := step.1 s b u first
    obtain ⟨to_t, each⟩ := ih step.2 behind
    exact ⟨to_u.append to_t, .cons (mono u t to_t.toLe a b written) each⟩

end Compile

end SparqlClient
