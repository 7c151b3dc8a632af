import SparqlClient.Proofs.Query.Column

/-! What the step of a condition can do. A test of a column is an expression behind the pattern of
its column, or a pattern alone; nested conditions are a block of their own. -/

namespace SparqlClient.Compile

open Text

def along (subject way : String) (object : Fragment) : Fragment :=
  (subject ++ " " ++ way ++ " ") ++ object ++ " ."

variable {l : Place} {s t : Scope} {c : Column} {optional : Bool} {column value : Value}
  {connector : Connector} {a : Clauses}

theorem pattern_gives {q : String} {object f : Fragment} :
    Gives (pattern q object) s f t ↔ f = along s.subject (angled q) object ∧ t = s := by
  simp only [pattern, bind_gives, get_gives, pure_gives]
  constructor
  · rintro ⟨_, _, ⟨rfl, rfl⟩, rfl, rfl⟩
    exact ⟨rfl, rfl⟩
  · rintro ⟨rfl, rfl⟩
    exact ⟨_, _, ⟨rfl, rfl⟩, rfl, rfl⟩

theorem columnPattern_gives (h : Gives (columnPattern l c optional) s a t) :
    c.predicate = none ∧ a = .empty ∧ t = s ∨
      ∃ q, c.predicate = some q ∧ Gives (l.atTop q) s () t ∧
        a = .ofPattern (optionally optional (along s.subject (angled q) (.ofText c.ref))) := by
  unfold columnPattern at h
  split at h
  · rename_i absent
    obtain ⟨rfl, rfl⟩ := pure_gives.1 h
    exact .inl ⟨absent, rfl, rfl⟩
  · rename_i q named
    obtain ⟨f, u, written, rest⟩ := bind_gives.1 h
    obtain ⟨rfl, rfl⟩ := pattern_gives.1 written
    obtain ⟨x, v, emitted, last⟩ := bind_gives.1 rest
    obtain ⟨rfl, rfl⟩ := pure_gives.1 last
    exact .inr ⟨q, named, emitted, rfl⟩

theorem columnTest_gives {e : Fragment} (h : Gives (columnTest l c optional connector e) s a t) :
    ∃ b, Gives (columnPattern l c optional) s b t ∧ a = b.append (.ofTest connector e) := by
  obtain ⟨b, u, pattern, last⟩ := bind_gives.1 h
  obtain ⟨rfl, rfl⟩ := pure_gives.1 last
  exact ⟨b, pattern, rfl⟩

theorem basic_gives {operator : String}
    (h : Gives (condition l (.basic column operator value connector)) s a t) :
    ∃ c u o, Gives (resolve l.prefixes column) s c u ∧ Operator.read (.text operator) = .ok o ∧
      ((∃ q, o = .compare .eq ∧ c.predicate = some q ∧ l.folded = false ∧ t = u ∧
          a = .ofPattern (along u.subject (angled q) (Write.operand l.prefixes value))) ∨
        (o = .compare .eq → l.folded = false → c.predicate = none) ∧
          ∃ e, Write.test l.prefixes c.ref o value column = .ok e ∧
            Gives (columnTest l c l.folded connector e) u a t) := by
  rw [condition] at h
  obtain ⟨c, u, resolved, step⟩ := bind_gives.1 h
  obtain ⟨o, v, lifted, rest⟩ := bind_gives.1 step
  obtain ⟨ho, rfl⟩ := lift_gives.1 lifted
  refine ⟨c, v, o, resolved, ho, ?_⟩
  split at rest
  · rename_i q named unfolded
    obtain ⟨f, w, written, last⟩ := bind_gives.1 rest
    obtain ⟨rfl, rfl⟩ := pattern_gives.1 written
    obtain ⟨rfl, rfl⟩ := pure_gives.1 last
    exact .inl ⟨q, rfl, named, unfolded, rfl, rfl⟩
  · rename_i other
    obtain ⟨e, w, written, last⟩ := bind_gives.1 rest
    obtain ⟨he, rfl⟩ := lift_gives.1 written
    refine .inr ⟨fun equality unfolded => ?_, e, he, last⟩
    cases named : c.predicate with
    | none => rfl
    | some q => exact absurd unfolded (other q equality named)

theorem notNull_gives (h : Gives (condition l (.notNull column connector)) s a t) :
    ∃ c u, Gives (resolve l.prefixes column) s c u ∧
      ((l.folded = false → c.predicate = none) ∧
          Gives (columnTest l c l.folded connector (.ofText ("BOUND(" ++ c.ref ++ ")"))) u a t ∨
        l.folded = false ∧ c.predicate ≠ none ∧ Gives (columnPattern l c false) u a t) := by
  rw [condition] at h
  obtain ⟨c, u, resolved, rest⟩ := bind_gives.1 h
  refine ⟨c, u, resolved, ?_⟩
  split at rest
  · rename_i tested
    exact .inl ⟨fun unfolded => by simpa [unfolded] using tested, rest⟩
  · rename_i required
    obtain ⟨unfolded, named⟩ : l.folded = false ∧ c.predicate ≠ none := by simpa using required
    exact .inr ⟨unfolded, named, rest⟩

theorem path_gives {path : String} {o : Operator}
    (h : Gives (condition l (.path path o value connector)) s a t) :
    ∃ text, Path.expand l.prefixes path = .ok text ∧
      ((o = .compare .eq && !l.folded) = true ∧ t = s ∧
          a = .ofPattern (along s.subject text (Write.nodeOperand l.prefixes value)) ∨
        (o = .compare .eq && !l.folded) = false ∧
          ∃ ref e, s.variableFor text (Path.hint text) = (ref, t) ∧
            Write.test l.prefixes ref o value (.text path) = .ok e ∧
            a = ⟨[optionally l.folded (along s.subject text (.ofText ref))],
              [⟨connector, e⟩]⟩) := by
  rw [condition] at h
  obtain ⟨text, u, lifted, step⟩ := bind_gives.1 h
  obtain ⟨expanded, rfl⟩ := lift_gives.1 lifted
  obtain ⟨scope, v, read, rest⟩ := bind_gives.1 step
  obtain ⟨rfl, rfl⟩ := get_gives.1 read
  refine ⟨text, expanded, ?_⟩
  split at rest
  · rename_i matched
    obtain ⟨rfl, rfl⟩ := pure_gives.1 rest
    exact .inl ⟨matched, rfl, rfl⟩
  · rename_i kept
    obtain ⟨ref, w, named, tested⟩ := bind_gives.1 rest
    obtain ⟨e, x, written, last⟩ := bind_gives.1 tested
    obtain ⟨he, rfl⟩ := lift_gives.1 written
    obtain ⟨rfl, rfl⟩ := pure_gives.1 last
    exact .inr ⟨Bool.eq_false_iff.2 kept, ref, e, modifyGet_gives.1 named, he, rfl⟩

/-- A block of conditions: the outermost one, or one inside another condition. -/
def blockAt (p : Prefixes) (top : Bool) (conditions : List Condition) : Compile Fragment := do
  let folded ← isFolded conditions
  let clauses ← all ⟨p, folded, top⟩ conditions
  return clauses.fragment folded

theorem block_eq (p : Prefixes) (conditions : List Condition) :
    block p conditions = blockAt p true conditions := rfl

theorem blockAt_gives {p : Prefixes} {top : Bool} {conditions : List Condition} {s t : Scope}
    {f : Fragment} (h : Gives (blockAt p top conditions) s f t) :
    ∃ a, Gives (all ⟨p, foldsTests conditions, top⟩ conditions) s a t ∧
      f = a.fragment (foldsTests conditions) := by
  obtain ⟨folded, u, lifted, rest⟩ := bind_gives.1 h
  obtain ⟨decided, rfl⟩ := lift_gives.1 lifted
  obtain rfl := isFolded_eq_ok decided
  obtain ⟨a, v, compiled, last⟩ := bind_gives.1 rest
  obtain ⟨rfl, rfl⟩ := pure_gives.1 last
  exact ⟨a, compiled, rfl⟩

theorem condition_group (l : Place) (kind : GroupKind) (conditions : List Condition) :
    condition l (.group kind conditions) = do
      let inner ← blockAt l.prefixes false conditions
      let text ← groupText l.prefixes kind inner
      return .ofPattern text := by
  simp only [condition, blockAt, bind_assoc, pure_bind]

theorem condition_exists (l : Place) (conditions : List Condition) (connector : Connector)
    (negated : Bool) :
    condition l (.exists conditions connector negated) = do
      let inner ← blockAt l.prefixes false conditions
      return .ofTest connector
        ((if negated then "NOT EXISTS " else "EXISTS ") ++ inner.inBraces) := by
  simp only [condition, blockAt, bind_assoc, pure_bind]

theorem blocks_cons (p : Prefixes) (b : List Condition) (bs : List (List Condition)) :
    blocks p (b :: bs) = do
      let inner ← blockAt p false b
      let rest ← blocks p bs
      return inner :: rest := by
  simp only [blocks, blockAt, bind_assoc, pure_bind]

end SparqlClient.Compile
