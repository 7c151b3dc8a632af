import SparqlClient.Proofs.Query.Conditions
import SparqlClient.Proofs.Query.Reading

/-! What the tests of a block become. A disjunction folds them into one filter, and all their
patterns may then be missing; without one each test is a filter of its own, or a pattern that is
required stands for it. -/

namespace SparqlClient

open Text

namespace Condition

def IsMatch (p : Prefixes) : Condition → Prop
  | .basic column operator _ _ => Operator.read (.text operator) = .ok (.compare .eq) ∧
    ∃ iri, columnForm p column = .predicate iri
  | .notNull column _ => ∃ iri, columnForm p column = .predicate iri
  | .path _ o _ _ => o = .compare .eq
  | _ => False

def MatchedBy (p : Prefixes) (s : Scope) (pattern : Fragment) : Condition → Prop
  | .basic column _ value _ => ∃ c t q, Compile.Gives (Compile.resolve p column) s c t ∧
    c.predicate = some q ∧
    pattern = Compile.along s.subject (angled q) (Write.operand p value)
  | .notNull column _ => ∃ c t q, Compile.Gives (Compile.resolve p column) s c t ∧
    c.predicate = some q ∧ pattern = Compile.along s.subject (angled q) (.ofText c.ref)
  | .path text _ value _ => ∃ way, Path.expand p text = .ok way ∧
    pattern = Compile.along s.subject way (Write.nodeOperand p value)
  | _ => False

def TestedBy (p : Prefixes) (s : Scope) (e : Fragment) : Condition → Prop
  | .basic column operator value _ => ∃ c t o, Compile.Gives (Compile.resolve p column) s c t ∧
    Operator.read (.text operator) = .ok o ∧ Write.test p c.ref o value column = .ok e
  | .within column values _ negated => ∃ c t, Compile.Gives (Compile.resolve p column) s c t ∧
    e = Write.membership p c.ref values negated
  | .between r => ∃ c t, Compile.Gives (Compile.resolve p r.column) s c t ∧
    e = Write.range p c.ref r
  | .null column _ => ∃ c t, Compile.Gives (Compile.resolve p column) s c t ∧
    e = .ofText ("!BOUND(" ++ c.ref ++ ")")
  | .notNull column _ => ∃ c t, Compile.Gives (Compile.resolve p column) s c t ∧
    e = .ofText ("BOUND(" ++ c.ref ++ ")")
  | .filter expression _ => e = "( " ++ expression ++ " )"
  | .exists conditions _ negated => ∃ inner t,
    Compile.Gives (Compile.blockAt p false conditions) s inner t ∧
    e = (if negated then "NOT EXISTS " else "EXISTS ") ++ inner.inBraces
  | .path text o value _ => ∃ way ref t, Path.expand p text = .ok way ∧
    s.variableFor way (Path.hint way) = (ref, t) ∧ Write.test p ref o value (.text text) = .ok e
  | _ => False

end Condition

/-- The part of a test in its block. -/
inductive Plays (p : Prefixes) (folded : Bool) (s : Scope) (c : Condition) (a : Clauses) :
    Role → Prop
  | tested (connector : Connector) (e : Fragment) (joined : c.connector? = some connector)
      (once : a.tests = [⟨connector, e⟩]) (stands : c.TestedBy p s e)
      (optional : folded = true → ∀ f ∈ a.patterns, ∃ g, f = optionally true g)
      (unmatched : folded = false → ¬c.IsMatch p) : Plays p folded s c a (.tested e)
  | matched (pattern : Fragment) (connector : Connector) (joined : c.connector? = some connector)
      (unfolded : folded = false) (alone : a = .ofPattern pattern) (isMatch : c.IsMatch p)
      (stands : c.MatchedBy p s pattern) : Plays p folded s c a (.matched pattern)

/-- What each condition of a block brings to it, and the roles of its tests. -/
inductive Brings (p : Prefixes) (folded top : Bool) :
    Scope → List Condition → List Clauses → List Role → Scope → Prop
  | nil {s : Scope} : Brings p folded top s [] [] [] s
  | pattern {c : Condition} {cs : List Condition} {a : Clauses} {parts : List Clauses}
      {roles : List Role} {s t u : Scope} (kind : c.isPattern = true)
      (compiled : Compile.Gives (Compile.condition ⟨p, folded, top⟩ c) s a t)
      (untested : a.tests = []) (rest : Brings p folded top t cs parts roles u) :
      Brings p folded top s (c :: cs) (a :: parts) roles u
  | test {c : Condition} {cs : List Condition} {a : Clauses} {parts : List Clauses} {r : Role}
      {roles : List Role} {s t u : Scope} (kind : c.isPattern = false)
      (compiled : Compile.Gives (Compile.condition ⟨p, folded, top⟩ c) s a t)
      (plays : Plays p folded s c a r) (rest : Brings p folded top t cs parts roles u) :
      Brings p folded top s (c :: cs) (a :: parts) (r :: roles) u

def connectorsOf (conditions : List Condition) : List Connector :=
  (conditions.filter (!·.isPattern)).filterMap (·.connector?)

namespace Compile

variable {l : Place} {s t : Scope}

theorem subject_resolve {p : Prefixes} {v : Value} {c : Column}
    (h : Gives (resolve p v) s c t) : t.subject = s.subject := by
  rw [resolve_gives] at h
  cases form : columnForm p v with
  | written text =>
    rw [form] at h
    cases h
    rfl
  | predicate iri =>
    rw [form] at h
    obtain ⟨q, -, he⟩ := Outcome.map_eq_ok_iff.1 h
    cases he
    rcases Scope.variableFor_cases s q q with ⟨v, -, same⟩ | ⟨name, -, -, fresh⟩
    · rw [same]
    · rw [fresh]

theorem named_iff {p : Prefixes} {v : Value} {c : Column} (h : Gives (resolve p v) s c t) :
    c.predicate ≠ none ↔ ∃ iri, columnForm p v = .predicate iri := by
  rw [resolve_gives] at h
  cases form : columnForm p v with
  | written text =>
    rw [form] at h
    cases h
    simp
  | predicate iri =>
    rw [form] at h
    obtain ⟨q, -, he⟩ := Outcome.map_eq_ok_iff.1 h
    cases he
    simp

theorem columnPattern_parts {c : Column} {optional : Bool} {a : Clauses}
    (h : Gives (columnPattern l c optional) s a t) :
    a.tests = [] ∧ ∀ f ∈ a.patterns, ∃ g, f = optionally optional g := by
  rcases columnPattern_gives h with ⟨-, rfl, -⟩ | ⟨q, -, -, rfl⟩
  · exact ⟨rfl, by simp [Clauses.empty]⟩
  · exact ⟨rfl, by simp [Clauses.ofPattern]⟩

theorem columnTest_plays {c : Condition} {column : Column} {optional : Bool}
    {connector : Connector} {e : Fragment} {a : Clauses} {u : Scope}
    (h : Gives (columnTest l column optional connector e) u a t)
    (joined : c.connector? = some connector) (stands : c.TestedBy l.prefixes s e)
    (may : l.folded = true → optional = true)
    (unmatched : l.folded = false → ¬c.IsMatch l.prefixes) :
    Plays l.prefixes l.folded s c a (.tested e) := by
  obtain ⟨b, hb, rfl⟩ := columnTest_gives h
  obtain ⟨untested, patterns⟩ := columnPattern_parts hb
  refine .tested connector e joined ?_ stands ?_ unmatched
  · rw [Clauses.append, untested]
    rfl
  · intro folded f hf
    rw [may folded] at patterns
    exact patterns f (by simpa [Clauses.append, Clauses.ofTest] using hf)

theorem condition_plays {c : Condition} {a : Clauses} (kind : c.isPattern = false)
    (h : Gives (condition l c) s a t) :
    ∃ r, Plays l.prefixes l.folded s c a r := by
  cases c with
  | basic column operator value connector =>
    obtain ⟨c, u, o, hc, ho, ⟨q, rfl, hq, unfolded, rfl, rfl⟩ | ⟨other, e, he, last⟩⟩ :=
      basic_gives h
    · have named : c.predicate ≠ none := by simp [hq]
      refine ⟨_, .matched _ connector rfl unfolded rfl ⟨ho, (named_iff hc).1 named⟩
        ⟨c, _, q, hc, hq, ?_⟩⟩
      rw [subject_resolve hc]
    · refine ⟨_, columnTest_plays last rfl ⟨c, u, o, hc, ho, he⟩ id ?_⟩
      rintro unfolded ⟨equality, form⟩
      have absent := other (Except.ok.inj (ho.symm.trans equality)) unfolded
      exact absurd absent ((named_iff hc).2 form)
  | within column values connector negated =>
    rw [condition] at h
    obtain ⟨c, u, hc, rest⟩ := bind_gives.1 h
    exact ⟨_, columnTest_plays rest rfl ⟨c, u, hc, rfl⟩ id fun _ => id⟩
  | between r =>
    rw [condition] at h
    obtain ⟨c, u, hc, rest⟩ := bind_gives.1 h
    exact ⟨_, columnTest_plays rest rfl ⟨c, u, hc, rfl⟩ id fun _ => id⟩
  | null column connector =>
    rw [condition] at h
    obtain ⟨c, u, hc, rest⟩ := bind_gives.1 h
    exact ⟨_, columnTest_plays rest rfl ⟨c, u, hc, rfl⟩ (fun _ => rfl) fun _ => id⟩
  | notNull column connector =>
    obtain ⟨c, u, hc, ⟨other, rest⟩ | ⟨unfolded, named, rest⟩⟩ := notNull_gives h
    · refine ⟨_, columnTest_plays rest rfl ⟨c, u, hc, rfl⟩ id ?_⟩
      rintro unfolded form
      exact absurd (other unfolded) ((named_iff hc).2 form)
    · obtain ⟨absent, -, -⟩ | ⟨q, hq, -, rfl⟩ := columnPattern_gives rest
      · exact absurd absent named
      · refine ⟨_, .matched _ connector rfl unfolded rfl ((named_iff hc).1 named)
          ⟨c, u, q, hc, hq, ?_⟩⟩
        rw [subject_resolve hc]
        rfl
  | filter expression connector =>
    rw [condition] at h
    obtain ⟨rfl, rfl⟩ := pure_gives.1 h
    exact ⟨_, .tested connector _ rfl rfl rfl (fun _ f hf => by cases hf) fun _ => id⟩
  | «exists» conditions connector negated =>
    rw [condition_exists] at h
    obtain ⟨inner, u, compiled, last⟩ := bind_gives.1 h
    obtain ⟨rfl, rfl⟩ := pure_gives.1 last
    exact ⟨_, .tested connector _ rfl rfl ⟨inner, t, compiled, rfl⟩
      (fun _ f hf => by cases hf) fun _ => id⟩
  | path path o value connector =>
    obtain ⟨text, ht, ⟨required, -, rfl⟩ | ⟨kept, ref, e, named, he, rfl⟩⟩ := path_gives h
    · obtain ⟨equality, unfolded⟩ : o = .compare .eq ∧ l.folded = false := by simpa using required
      exact ⟨_, .matched _ connector rfl unfolded rfl equality ⟨text, ht, rfl⟩⟩
    · refine ⟨_, .tested connector e rfl rfl ⟨text, ref, t, ht, named, he⟩ ?_ ?_⟩
      · rintro folded f hf
        rw [List.mem_singleton.1 hf, folded]
        exact ⟨_, rfl⟩
      · rintro unfolded equality
        have equality : o = .compare .eq := equality
        simp [unfolded, equality] at kept
  | stray order =>
    rw [condition] at h
    obtain ⟨c, u, hc, rest⟩ := bind_gives.1 h
    cases (lift_gives.1 rest).1
  | _ => cases kind

theorem condition_untested {c : Condition} {a : Clauses} (kind : c.isPattern = true)
    (h : Gives (condition l c) s a t) : a.tests = [] := by
  cases c with
  | raw pattern =>
    rw [condition] at h
    obtain ⟨rfl, rfl⟩ := pure_gives.1 h
    rfl
  | triple subject pred object =>
    rw [condition] at h
    obtain ⟨rfl, rfl⟩ := pure_gives.1 h
    rfl
  | group kind conditions =>
    rw [condition_group] at h
    obtain ⟨inner, u, -, rest⟩ := bind_gives.1 h
    obtain ⟨text, v, -, last⟩ := bind_gives.1 rest
    obtain ⟨rfl, rfl⟩ := pure_gives.1 last
    rfl
  | union branches =>
    rw [condition] at h
    obtain ⟨parts, u, -, last⟩ := bind_gives.1 h
    obtain ⟨rfl, rfl⟩ := pure_gives.1 last
    rfl
  | _ => cases kind

theorem all_brings {p : Prefixes} {folded top : Bool} {cs : List Condition} {a : Clauses}
    (h : Gives (all ⟨p, folded, top⟩ cs) s a t) :
    ∃ parts roles, Brings p folded top s cs parts roles t ∧
      a = ⟨parts.flatMap Clauses.patterns, parts.flatMap Clauses.tests⟩ := by
  induction cs generalizing s a with
  | nil =>
    rw [all] at h
    obtain ⟨rfl, rfl⟩ := pure_gives.1 h
    exact ⟨[], [], .nil, rfl⟩
  | cons c cs ih =>
    rw [all] at h
    obtain ⟨b, u, compiled, rest⟩ := bind_gives.1 h
    obtain ⟨d, v, others, last⟩ := bind_gives.1 rest
    obtain ⟨rfl, rfl⟩ := pure_gives.1 last
    obtain ⟨parts, roles, brings, rfl⟩ := ih others
    cases kind : c.isPattern with
    | true =>
      have untested := condition_untested kind compiled
      exact ⟨b :: parts, roles, .pattern kind compiled untested brings, rfl⟩
    | false =>
      obtain ⟨r, plays⟩ := condition_plays kind compiled
      exact ⟨b :: parts, r :: roles, .test kind compiled plays brings, rfl⟩

end Compile

namespace Brings

variable {p : Prefixes} {folded top : Bool} {cs : List Condition} {parts : List Clauses}
  {roles : List Role} {s t : Scope}

theorem connectorsOf_cons_pattern {c : Condition} (kind : c.isPattern = true) :
    connectorsOf (c :: cs) = connectorsOf cs := by
  rw [connectorsOf, List.filter_cons_of_neg (by simp [kind]), connectorsOf]

theorem connectorsOf_cons_test {c : Condition} {connector : Connector}
    (kind : c.isPattern = false) (joined : c.connector? = some connector) :
    connectorsOf (c :: cs) = connector :: connectorsOf cs := by
  rw [connectorsOf, List.filter_cons_of_pos (by simp [kind]), List.filterMap_cons_some joined,
    connectorsOf]

theorem joined {c : Condition} {a : Clauses} {r : Role}
    (h : Plays p folded s c a r) : ∃ connector, c.connector? = some connector := by
  cases h with
  | tested connector e joined => exact ⟨connector, joined⟩
  | matched pattern connector joined => exact ⟨connector, joined⟩

theorem length_roles (h : Brings p folded top s cs parts roles t) :
    roles.length = (connectorsOf cs).length := by
  induction h with
  | nil => rfl
  | pattern kind _ _ _ ih => rw [ih, connectorsOf_cons_pattern kind]
  | test kind _ plays _ ih =>
    obtain ⟨connector, joined⟩ := joined plays
    rw [connectorsOf_cons_test kind joined, List.length_cons, List.length_cons, ih]

theorem of_folded (h : Brings p true top s cs parts roles t) :
    (parts.flatMap Clauses.tests).map Test.connector = connectorsOf cs ∧
      roles = (parts.flatMap Clauses.tests).map fun t => .tested t.expression := by
  induction h with
  | nil => exact ⟨rfl, rfl⟩
  | pattern kind _ untested _ ih =>
    rw [connectorsOf_cons_pattern kind, List.flatMap_cons, untested]
    exact ih
  | test kind _ plays _ ih =>
    obtain ⟨connectors, expressions⟩ := ih
    cases plays with
    | tested connector e joined once =>
      rw [connectorsOf_cons_test kind joined, List.flatMap_cons, once, ← connectors, expressions]
      exact ⟨rfl, rfl⟩
    | matched pattern connector joined unfolded => cases unfolded

theorem expressions (h : Brings p folded top s cs parts roles t) :
    (parts.flatMap Clauses.tests).map Test.expression = roles.filterMap Role.expression? := by
  induction h with
  | nil => rfl
  | pattern _ _ untested _ ih =>
    rw [List.flatMap_cons, untested]
    exact ih
  | test _ _ plays _ ih =>
    rw [List.flatMap_cons, List.map_append, ih]
    cases plays with
    | tested connector e joined once => rw [once]; rfl
    | matched pattern connector joined unfolded alone => rw [alone]; rfl

theorem mem_patterns (h : Brings p folded top s cs parts roles t) {pattern : Fragment}
    (hr : .matched pattern ∈ roles) : pattern ∈ parts.flatMap Clauses.patterns := by
  induction h with
  | nil => cases hr
  | pattern _ _ _ _ ih =>
    rw [List.flatMap_cons, List.mem_append]
    exact .inr (ih hr)
  | test _ _ plays _ ih =>
    rw [List.flatMap_cons, List.mem_append]
    rcases List.mem_cons.1 hr with rfl | hr
    · cases plays with
      | matched pattern connector joined unfolded alone =>
        rw [alone]
        exact .inl (List.mem_singleton.2 rfl)
    · exact .inr (ih hr)

theorem connectors_eq (h : Brings p folded top s cs parts roles t) :
    (cs.filter (!·.isPattern)).map (·.connector?) = (connectorsOf cs).map some := by
  induction h with
  | nil => rfl
  | pattern kind _ _ _ ih =>
    rw [List.filter_cons_of_neg (by simp [kind]), connectorsOf_cons_pattern kind, ih]
  | test kind _ plays _ ih =>
    obtain ⟨connector, joined⟩ := joined plays
    rw [List.filter_cons_of_pos (by simp [kind]), connectorsOf_cons_test kind joined,
      List.map_cons, List.map_cons, ih, joined]

theorem foldsTests_eq (h : Brings p folded top s cs parts roles t) :
    foldsTests cs = ((connectorsOf cs).drop 1).any (· = .or) := by
  rw [SparqlClient.foldsTests_eq, h.connectors_eq, ← List.map_drop, List.any_map]
  simp only [Function.comp_def, Option.some.injEq]

end Brings

theorem Clauses.mem_dedupe {fs : List Fragment} {f : Fragment} (h : f ∈ fs) (seen : List String) :
    f.text ∈ seen ∨ ∃ g ∈ dedupe seen fs, g.text = f.text := by
  induction fs generalizing seen with
  | nil => cases h
  | cons e fs ih =>
    rw [dedupe]
    split
    · rename_i repeated
      rw [Bool.and_eq_true] at repeated
      rcases List.mem_cons.1 h with rfl | h
      · exact .inl (by simpa using repeated.2)
      · exact ih h seen
    · rcases List.mem_cons.1 h with rfl | h
      · exact .inr ⟨f, List.mem_cons_self .., rfl⟩
      · rcases ih h (e.text :: seen) with before | ⟨g, hg, same⟩
        · rcases List.mem_cons.1 before with first | before
          · exact .inr ⟨e, List.mem_cons_self .., first.symm⟩
          · exact .inl before
        · exact .inr ⟨g, List.mem_cons_of_mem _ hg, same⟩

section

variable {p : Prefixes} {top : Bool} {cs : List Condition} {parts : List Clauses}
  {roles : List Role} {s t : Scope}

theorem Brings.connectorsOf_ne_nil (folded : foldsTests cs = true)
    (h : Brings p true top s cs parts roles t) : connectorsOf cs ≠ [] := by
  intro none
  rw [h.foldsTests_eq, none] at folded
  cases folded

theorem Brings.filters_eq (h : Brings p (foldsTests cs) top s cs parts roles t) :
    Clauses.filters (foldsTests cs) (parts.flatMap Clauses.tests) =
      (blockFilters (foldsTests cs) (connectorsOf cs) roles).map fun φ =>
        Clauses.filterText (φ.written (Role.expressionAt roles)) := by
  cases folded : foldsTests cs with
  | true =>
    rw [folded] at h
    obtain ⟨connectors, expressions⟩ := h.of_folded
    have some_test := h.connectorsOf_ne_nil folded
    rw [← connectors, ne_eq, List.map_eq_nil_iff] at some_test
    have present : (parts.flatMap Clauses.tests).isEmpty = false := by simpa using some_test
    rw [Clauses.filters, present, Bool.not_false, Bool.and_true, if_pos rfl, blockFilters,
      if_pos rfl, List.map_singleton, ← connectors, Formula.written_leftFold some_test]
    intro i u hu
    rw [Role.expressionAt, expressions, List.getElem?_map, hu]
    rfl
  | false =>
    rw [folded] at h
    have texts : (parts.flatMap Clauses.tests).map (fun u => Clauses.filterText u.expression) =
        ((parts.flatMap Clauses.tests).map Test.expression).map Clauses.filterText := by
      rw [List.map_map, Function.comp_def]
    rw [Clauses.filters, Bool.false_and, if_neg Bool.false_ne_true, blockFilters,
      if_neg Bool.false_ne_true, texts, h.expressions, ← written_unfolded, List.map_map,
      Function.comp_def]

theorem Brings.accepts_eq (h : Brings p (foldsTests cs) top s cs parts roles t)
    (v : Nat → Bool) :
    accepts (foldsTests cs) (connectorsOf cs) roles v = readsTrue (connectorsOf cs) v := by
  cases folded : foldsTests cs with
  | true =>
    rw [folded] at h
    refine accepts_folded (h.connectorsOf_ne_nil folded) ?_ v
    rw [h.of_folded.2]
    intro r hr
    obtain ⟨u, -, rfl⟩ := List.mem_map.1 hr
    rfl
  | false =>
    have conjunction := h.foldsTests_eq.symm.trans folded
    rw [accepts_unfolded, readsTrue_of_and conjunction, h.length_roles]

/-- A block is its patterns and one filter, or one for each test that no pattern stands for; it
accepts what its connectors, read from left to right, make of its tests. -/
theorem blockAt_reads {f : Fragment} (h : Compile.Gives (Compile.blockAt p top cs) s f t) :
    ∃ parts roles, Brings p (foldsTests cs) top s cs parts roles t ∧
      roles.length = (connectorsOf cs).length ∧
      f = .join " " (Clauses.dedupe [] (parts.flatMap Clauses.patterns) ++
        (blockFilters (foldsTests cs) (connectorsOf cs) roles).map fun φ =>
          Clauses.filterText (φ.written (Role.expressionAt roles))) ∧
      (∀ pattern, .matched pattern ∈ roles →
        ∃ g ∈ Clauses.dedupe [] (parts.flatMap Clauses.patterns), g.text = pattern.text) ∧
      ∀ v, accepts (foldsTests cs) (connectorsOf cs) roles v = readsTrue (connectorsOf cs) v := by
  obtain ⟨a, compiled, rfl⟩ := Compile.blockAt_gives h
  obtain ⟨parts, roles, brings, rfl⟩ := Compile.all_brings compiled
  refine ⟨parts, roles, brings, brings.length_roles, ?_, ?_, brings.accepts_eq⟩
  · rw [Clauses.fragment, brings.filters_eq]
  · intro pattern hr
    rcases Clauses.mem_dedupe (brings.mem_patterns hr) [] with before | kept
    · cases before
    · exact kept

end

def alternatives : List Condition :=
  [.notNull (.text "<http://e/p>") .and, .filter ⟨"?a > ?", [.int 1]⟩ .or,
    .within (.text "?b") [.int 3, .int 4] .and true]

theorem blockAt_reads_alternatives : ∃ f t,
    Compile.Gives (Compile.blockAt .empty true alternatives) (.ofSubject "?s") f t ∧
    f.text = "OPTIONAL { ?s <http://e/p> ?p2 . } FILTER( ( ( BOUND(?p2) || ( ?a > ? ) ) " ++
      "&& ?b NOT IN ( ? , ? ) ) )" ∧
    ∃ parts roles, Brings .empty (foldsTests alternatives) true (.ofSubject "?s") alternatives
        parts roles t ∧
      roles.length = (connectorsOf alternatives).length ∧
      f = .join " " (Clauses.dedupe [] (parts.flatMap Clauses.patterns) ++
        (blockFilters (foldsTests alternatives) (connectorsOf alternatives) roles).map fun φ =>
          Clauses.filterText (φ.written (Role.expressionAt roles))) ∧
      (∀ pattern, .matched pattern ∈ roles →
        ∃ g ∈ Clauses.dedupe [] (parts.flatMap Clauses.patterns), g.text = pattern.text) ∧
      ∀ v, accepts (foldsTests alternatives) (connectorsOf alternatives) roles v =
        readsTrue (connectorsOf alternatives) v :=
  ⟨_, _, rfl, by decide +kernel, blockAt_reads rfl⟩

end SparqlClient
