import SparqlClient.Proofs.Query.Anchors
import SparqlClient.Proofs.Query.Placeholders

/-! Columns outside the conditions and their patterns. A clause may write the variable of a
predicate long before the body is written; the conditions then bring its pattern, or it is added
behind them. So no form of a query refers to a variable that its outermost block does not reach. -/

namespace SparqlClient

open Text Compile

/-- As the scope stands a predicate has this variable, and its pattern is asked for. -/
def Scope.Wants (p : Prefixes) (s : Scope) (v : Value) (ref : String) : Prop :=
  match columnForm p v with
  | .written text => ref = text
  | .predicate iri => ∃ q, normalizeIriValue iri = .ok q ∧ s.refOf? q = some ref ∧
    q ∈ s.needed.map Prod.fst

namespace QuerySpec

/-! How the clauses are written when a column `v` may be written as `ref` where `R v ref`. -/

def AggregateBy (R : Value → String → Prop) (a : Aggregate) (distinct : Bool)
    (text : String) : Prop :=
  ∃ target separator,
    (if isStar a.column || a.column.isNull then target = "*" else R a.column target) ∧
    text = "(" ++ a.function ++ "(" ++
      (if distinct || a.distinct then "DISTINCT " ++ target else target) ++ separator ++
      ") as ?aggregate)"

def HeadBy (R : Value → String → Prop) (q : QuerySpec) (text : String) : Prop :=
  match q.aggregate with
  | some a => ∃ target, AggregateBy R a q.distinct target ∧ text = "SELECT " ++ target
  | none => ∃ refs, List.Forall₂ R (q.columns.filter (!isStar ·)) refs ∧
    text = (if q.distinct then "SELECT DISTINCT " else "SELECT ") ++
      (if (q.columns.filter (!isStar ·)).isEmpty then "*" else String.intercalate " " refs)

def GroupsBy (R : Value → String → Prop) (q : QuerySpec) (text : String) : Prop :=
  ∃ refs, List.Forall₂ R q.groups refs ∧
    text = if q.groups.isEmpty then "" else "GROUP BY " ++ String.intercalate " " refs

def HavingBy (R : Value → String → Prop) (p : Prefixes) : Having → Test → Prop
  | .test column o value connector, t => ∃ ref c, o = .compare c ∧ R column ref ∧
    t = ⟨connector, (ref ++ " " ++ c.sign ++ " ") ++ Write.operand p value⟩
  | .raw expression connector, t => t = ⟨connector, "( " ++ expression ++ " )"⟩

def HavingsBy (R : Value → String → Prop) (p : Prefixes) (q : QuerySpec) (f : Fragment) : Prop :=
  ∃ tests, List.Forall₂ (HavingBy R p) q.havings tests ∧
    f = if q.havings.isEmpty then .empty else "HAVING( " ++ Clauses.foldTests tests ++ " )"

def OrderBy (R : Value → String → Prop) (o : Order) (text : String) : Prop :=
  match o.direction with
  | none => text = o.column.plainText
  | some d => ∃ direction ref, Direction.read (.text d) = .ok direction ∧ R o.column ref ∧
    text = direction.keyword ++ "(" ++ ref ++ ")"

def OrdersBy (R : Value → String → Prop) (q : QuerySpec) (text : String) : Prop :=
  ∃ keys, List.Forall₂ (OrderBy R) q.effectiveOrders keys ∧
    text = if q.effectiveOrders.isEmpty then "" else "ORDER BY " ++ String.intercalate " " keys

section

variable {R S : Value → String → Prop} {p : Prefixes} {q : QuerySpec}
  (weaker : ∀ v ref, R v ref → S v ref)

include weaker

theorem AggregateBy.imp {a : Aggregate} {distinct : Bool} {text : String}
    (h : AggregateBy R a distinct text) : AggregateBy S a distinct text := by
  obtain ⟨target, separator, written, rfl⟩ := h
  refine ⟨target, separator, ?_, rfl⟩
  split
  · rename_i whole
    rwa [if_pos whole] at written
  · rename_i named
    rw [if_neg named] at written
    exact weaker _ _ written

theorem HeadBy.imp {text : String} (h : HeadBy R q text) : HeadBy S q text := by
  unfold HeadBy at h ⊢
  split at h
  · obtain ⟨target, written, rfl⟩ := h
    exact ⟨target, written.imp weaker, rfl⟩
  · obtain ⟨refs, each, rfl⟩ := h
    exact ⟨refs, each.imp weaker, rfl⟩

theorem GroupsBy.imp {text : String} (h : GroupsBy R q text) : GroupsBy S q text := by
  obtain ⟨refs, each, rfl⟩ := h
  exact ⟨refs, each.imp weaker, rfl⟩

theorem HavingBy.imp {h : Having} {t : Test} (by_R : HavingBy R p h t) : HavingBy S p h t := by
  cases h with
  | test column o value connector =>
    obtain ⟨ref, c, ho, written, rfl⟩ := by_R
    exact ⟨ref, c, ho, weaker _ _ written, rfl⟩
  | raw expression connector => exact by_R

theorem HavingsBy.imp {f : Fragment} (h : HavingsBy R p q f) : HavingsBy S p q f := by
  obtain ⟨tests, each, rfl⟩ := h
  exact ⟨tests, each.imp fun _ _ => HavingBy.imp weaker, rfl⟩

theorem OrderBy.imp {o : Order} {text : String} (h : OrderBy R o text) : OrderBy S o text := by
  unfold OrderBy at h ⊢
  split at h
  · exact h
  · obtain ⟨direction, ref, read, written, rfl⟩ := h
    exact ⟨direction, ref, read, weaker _ _ written, rfl⟩

theorem OrdersBy.imp {text : String} (h : OrdersBy R q text) : OrdersBy S q text := by
  obtain ⟨keys, each, rfl⟩ := h
  exact ⟨keys, each.imp fun _ _ => OrderBy.imp weaker, rfl⟩

end

/-- The body is the block of the conditions, the patterns that other clauses need, and the rest;
`parts` are the patterns at the outermost level. -/
def BodyAnchored (p : Prefixes) (q : QuerySpec) (parts : List Fragment) (body : Fragment) : Prop :=
  ∃ table as needed values,
    AllAnchored p (subjectVariable q.subject)
      (Clauses.dedupe [] (as.flatMap Clauses.patterns)) q.wheres as ∧
    parts = Clauses.dedupe [] (as.flatMap Clauses.patterns) ++ needed ∧
    body = .joinPresent " " (table ++
      Clauses.fragment ⟨as.flatMap Clauses.patterns, as.flatMap Clauses.tests⟩
        (foldsTests q.wheres) :: needed ++ q.binds.map bindText ++ values)

def Shows (q : QuerySpec) (body shown : Fragment) : Prop :=
  shown = body ∨ shown = withPattern body (subjectVariable q.subject ++ " ?p ?o .")

/-- In the text of the form every predicate that a clause refers to, and every predicate or path
that a block tests, has its pattern: the former at the outermost level, the latter in the block. -/
def Anchored (p : Prefixes) (q : QuerySpec) (f : Fragment) : Form → Prop
  | .select => ∃ parts body head source groups havings orders slice,
    q.BodyAnchored p parts body ∧
    q.HeadBy (Value.Anchored p (subjectVariable q.subject) parts) head ∧
    q.GroupsBy (Value.Anchored p (subjectVariable q.subject) parts) groups ∧
    q.HavingsBy (Value.Anchored p (subjectVariable q.subject) parts) p havings ∧
    q.OrdersBy (Value.Anchored p (subjectVariable q.subject) parts) orders ∧
    f = clauses ([.ofText head, .ofText source, whereText body, .ofText groups, havings,
      .ofText orders] ++ plain slice)
  | .ask => ∃ parts body source, q.BodyAnchored p parts body ∧
    f = clauses [.ofText "ASK", .ofText source, whereText body]
  | .construct _ => ∃ parts body shown template source orders slice,
    q.BodyAnchored p parts body ∧ q.Shows body shown ∧
    q.OrdersBy (Value.Anchored p (subjectVariable q.subject) parts) orders ∧
    f = clauses ([.ofText ("CONSTRUCT " ++ inBraces template), .ofText source, whereText shown,
      .ofText orders] ++ plain slice)
  | .describe resources => describesAlone q resources = true ∨
    ∃ parts body targets source slice, q.BodyAnchored p parts body ∧
      f = clauses ([.ofText ("DESCRIBE " ++ targets), .ofText source, whereText body] ++
        plain slice)
  | .insertWhere _ | .deleteWhere _ | .deleteInsert _ _ => ∃ parts body shown texts,
    q.BodyAnchored p parts body ∧ q.Shows body shown ∧
    f = .join " " (plain texts ++ [whereText shown])

end QuerySpec

theorem Scope.wants_mono (p : Prefixes) (s t : Scope) (grown : s.Le t) (v : Value) (ref : String)
    (h : s.Wants p v ref) : t.Wants p v ref := by
  unfold Scope.Wants at h ⊢
  cases form : columnForm p v with
  | written text =>
    rw [form] at h
    exact h
  | predicate iri =>
    rw [form] at h
    obtain ⟨q, hq, known, needed⟩ := h
    exact ⟨q, hq, grown.refs q ref known, grown.needed q needed⟩

namespace Compile

variable {p : Prefixes} {s t : Scope} {q : QuerySpec}

theorem need_wants {v : Value} {optional : Bool} {ref : String}
    (h : Gives (need p v optional) s ref t) : s.Grows false [] t ∧ t.Wants p v ref := by
  obtain ⟨c, u, resolved, rest⟩ := bind_gives.1 h
  have grown := resolve_grows resolved
  have writes := resolve_writes resolved
  unfold Scope.Wants
  cases form : columnForm p v with
  | written text =>
    rw [form] at writes
    rw [writes] at rest
    obtain ⟨rfl, rfl⟩ := pure_gives.1 rest
    exact ⟨grown, rfl⟩
  | predicate iri =>
    rw [form] at writes
    obtain ⟨r, hr, behind, known⟩ := writes
    rw [behind] at rest
    obtain ⟨x, w, changed, last⟩ := bind_gives.1 rest
    obtain rfl := modify_gives.1 changed
    obtain ⟨rfl, rfl⟩ := pure_gives.1 last
    refine ⟨⟨⟨grown.subject, grown.refs, ?_⟩, grown.named, grown.emitted⟩, r, hr, known, ?_⟩
    · intro k hk
      exact Scope.mem_keys_putNeeded.2 (.inr (grown.needed k hk))
    · exact Scope.mem_keys_putNeeded.2 (.inl rfl)

theorem orderKey_wants {o : Order} {text : String} (h : Gives (orderKey p o) s text t) :
    s.Grows false [] t ∧ QuerySpec.OrderBy (t.Wants p) o text := by
  unfold orderKey at h
  unfold QuerySpec.OrderBy
  cases directed : o.direction with
  | none =>
    rw [directed] at h
    obtain ⟨rfl, rfl⟩ := pure_gives.1 h
    exact ⟨.refl _ _ t, rfl⟩
  | some d =>
    rw [directed] at h
    obtain ⟨direction, u, read, rest⟩ := bind_gives.1 h
    obtain ⟨hd, rfl⟩ := lift_gives.1 read
    obtain ⟨ref, v, needed, last⟩ := bind_gives.1 rest
    obtain ⟨rfl, rfl⟩ := pure_gives.1 last
    obtain ⟨grown, wants⟩ := need_wants needed
    exact ⟨grown, direction, ref, hd, wants, rfl⟩

theorem orderClause_wants {text : String} (h : Gives (orderClause p q) s text t) :
    s.Grows false [] t ∧ q.OrdersBy (t.Wants p) text := by
  unfold orderClause at h
  split at h
  · rename_i none_given
    obtain ⟨rfl, rfl⟩ := pure_gives.1 h
    refine ⟨.refl _ _ t, [], ?_, by rw [if_pos none_given]⟩
    rw [List.isEmpty_iff.1 none_given]
    exact .nil
  · rename_i some_given
    obtain ⟨keys, u, written, last⟩ := bind_gives.1 h
    obtain ⟨rfl, rfl⟩ := pure_gives.1 last
    obtain ⟨grown, each⟩ := mapM_grows (R := fun s => QuerySpec.OrderBy (s.Wants p))
      (fun s t to_t _ _ => QuerySpec.OrderBy.imp (Scope.wants_mono p s t to_t))
      (fun o _ s text t => orderKey_wants) written
    exact ⟨grown, keys, each, by rw [if_neg some_given]⟩

theorem neededPatterns_reach {parts : List Fragment} (h : Gives neededPatterns s parts t) :
    t = s ∧ ∀ r ∈ s.needed.map Prod.fst, r ∉ s.emitted → ∀ ref, s.refOf? r = some ref →
      Reached parts s.subject (angled r) ref := by
  unfold neededPatterns at h
  obtain ⟨u, v, read, rest⟩ := bind_gives.1 h
  obtain ⟨rfl, rfl⟩ := get_gives.1 read
  obtain ⟨rfl, each⟩ := mapM_gives (I := (· = v))
    (Q := fun e f => f = optionally e.2
      (along v.subject (angled e.1) (.ofText ((v.refOf? e.1).getD ""))))
    (fun e _ s f t same compiled => by
      obtain ⟨g, w, written, last⟩ := bind_gives.1 compiled
      obtain ⟨rfl, rfl⟩ := pattern_gives.1 written
      obtain ⟨rfl, rfl⟩ := pure_gives.1 last
      exact ⟨same, by rw [same]⟩) rfl rest
  refine ⟨rfl, fun r needed unmatched ref known => ?_⟩
  obtain ⟨e, he, rfl⟩ := List.mem_map.1 needed
  have left : e ∈ t.needed.filter fun e => !t.emitted.contains e.1 :=
    List.mem_filter.2 ⟨he, by simpa using unmatched⟩
  obtain ⟨f, hf, written⟩ := forall₂_left each left
  rw [known] at written
  exact ⟨f, hf, e.2, congrArg Fragment.text written⟩

theorem body_anchored {f : Fragment} (hs : s.Named) (unmatched : s.emitted = [])
    (start : s.subject = subjectVariable q.subject) (h : Gives (body p q) s f t) :
    t.subject = s.subject ∧ ∃ parts, q.BodyAnchored p parts f ∧ ∀ v ref, s.Wants p v ref →
      v.Anchored p (subjectVariable q.subject) parts ref := by
  unfold body at h
  obtain ⟨table, u, first, rest⟩ := bind_gives.1 h
  obtain rfl : u = s := by
    unfold tableClause at first
    split at first
    · obtain ⟨w, x, read, last⟩ := bind_gives.1 first
      obtain ⟨rfl, rfl⟩ := get_gives.1 read
      exact (pure_gives.1 last).2
    · exact (pure_gives.1 first).2
  obtain ⟨conditions, v, second, behind⟩ := bind_gives.1 rest
  rw [block_eq] at second
  obtain ⟨a, compiled, rfl⟩ := blockAt_gives second
  obtain ⟨grown, as, rfl, each⟩ := all_anchored _ q.wheres hs compiled
  obtain ⟨needed, w, third, data⟩ := bind_gives.1 behind
  obtain ⟨rfl, reach⟩ := neededPatterns_reach third
  obtain ⟨values, x, fourth, last⟩ := bind_gives.1 data
  obtain ⟨-, rfl⟩ := lift_gives.1 fourth
  obtain ⟨rfl, rfl⟩ := pure_gives.1 last
  have block := each _ (covers_dedupe _)
  rw [start] at block
  refine ⟨grown.subject, _, ⟨table, as, needed, values, block, rfl, rfl⟩, fun v ref wanted => ?_⟩
  have wants := Scope.wants_mono p _ _ grown.toLe v ref wanted
  unfold Scope.Wants at wants
  unfold Value.Anchored
  cases form : columnForm p v with
  | written text =>
    rw [form] at wants
    exact wants
  | predicate iri =>
    rw [form] at wants
    obtain ⟨r, hr, known, asked⟩ := wants
    refine ⟨r, hr, (grown.named hs).isVariable known, ?_⟩
    rw [← start, ← grown.subject]
    by_cases emitted : r ∈ t.emitted
    · rcases grown.emitted r emitted with before | ⟨-, ref', same, reached⟩
      · rw [unmatched] at before
        cases before
      · obtain rfl := Option.some.inj (known.symm.trans same)
        have within := reached.covered (covers_dedupe _)
        exact within.covered (covers_of_subset fun f => List.mem_append_left _)
    · exact (reach r asked emitted ref known).covered
        (covers_of_subset fun f => List.mem_append_right _)

end Compile

end SparqlClient
