import SparqlClient.Proofs.Query.Ownership
import SparqlClient.Proofs.Query.Parts

/-! The clauses around the conditions. Only binds and conditions on groups keep values; every other
clause is inlined. -/

namespace SparqlClient

open Text

theorem Scope.mem_putNeeded {q : String} {optional : Bool} {needed : List (String × Bool)}
    {e : String × Bool} (h : e ∈ putNeeded q optional needed) :
    e.1 = q ∨ ∃ d ∈ needed, d.1 = e.1 := by
  induction needed with
  | nil =>
    rw [putNeeded, List.mem_singleton] at h
    exact .inl (h ▸ rfl)
  | cons d rest ih =>
    obtain ⟨q', o'⟩ := d
    rw [putNeeded] at h
    split at h
    · rename_i same
      rcases List.mem_cons.1 h with rfl | h
      · exact .inl same
      · exact .inr ⟨e, List.mem_cons_of_mem _ h, rfl⟩
    · rcases List.mem_cons.1 h with rfl | h
      · exact .inr ⟨_, List.mem_cons_self .., rfl⟩
      · rcases ih h with new | ⟨d, hd, same⟩
        · exact .inl new
        · exact .inr ⟨d, List.mem_cons_of_mem _ hd, same⟩

def Order.Inlined (p : Prefixes) (o : Order) : Prop :=
  match o.direction with
  | none => SparqlClient.Inlined o.column.plainText
  | some _ => o.column.InlinedColumn p

/-- The name of the function stands right before a bracket, so that it has to end there. -/
structure Aggregate.Inlined (p : Prefixes) (a : Aggregate) : Prop where
  function : Leads a.function
  column : Compile.isStar a.column = false → a.column.isNull = false → a.column.InlinedColumn p
  separator : ∀ text, Compile.separatorText a.separator = .ok text → SparqlClient.Inlined text

def Having.Inlined (p : Prefixes) : Having → Prop
  | .test column _ value _ => column.InlinedColumn p ∧ value.Inlined p
  | .raw expression _ => expression.Fits

structure Bind.Inlined (b : Bind) : Prop where
  expression : b.expression.Fits
  target : SparqlClient.Inlined (Shape.withMark b.target)

structure ValuesBlock.Inlined (p : Prefixes) (b : ValuesBlock) : Prop where
  names : ∀ v ∈ b.names, ∀ text, onlyText v = .ok text →
    SparqlClient.Inlined (Shape.withMark text)
  rows : ∀ row ∈ b.rows, ∀ v ∈ row, SparqlClient.Inlined (dataValue (some p) v)

namespace QuerySpec

structure BodyInlined (p : Prefixes) (q : QuerySpec) : Prop where
  subject : SparqlClient.Inlined (subjectVariable q.subject)
  table : q.table.truth → SparqlClient.Inlined ((classify (some p) q.table).render (some p))
  wheres : AllInlined p (foldsTests q.wheres) q.wheres
  binds : ∀ b ∈ q.binds, b.Inlined
  values : ∀ b ∈ q.values, b.Inlined p

def SelectionInlined (p : Prefixes) (q : QuerySpec) : Prop :=
  match q.aggregate with
  | some a => a.Inlined p
  | none => ∀ v ∈ q.columns, Compile.isStar v = false → v.InlinedColumn p

end QuerySpec

namespace Compile

variable {p : Prefixes} {s t : Scope}

theorem need_inlined {v : Value} {optional : Bool} {ref : String} (hs : s.Inlined)
    (hv : v.InlinedColumn p) (h : Gives (need p v optional) s ref t) :
    SparqlClient.Inlined ref ∧ t.Inlined := by
  obtain ⟨c, u, hc, rest⟩ := bind_gives.1 h
  obtain ⟨inlined, hu⟩ := resolve_inlined hs hv hc
  split at rest
  · obtain ⟨rfl, rfl⟩ := pure_gives.1 rest
    exact ⟨inlined.ref, hu⟩
  · rename_i q hq
    obtain ⟨x, w, changed, last⟩ := bind_gives.1 rest
    obtain rfl := modify_gives.1 changed
    obtain ⟨rfl, rfl⟩ := pure_gives.1 last
    refine ⟨inlined.ref, hu.subject, hu.refs, ?_⟩
    intro e he
    rcases Scope.mem_putNeeded he with new | ⟨d, hd, same⟩
    · rw [new]
      exact inlined.predicate q hq
    · rw [← same]
      exact hu.needed d hd

theorem mapM_inlined {α : Type} {f : α → Compile String} {l : List α} {texts : List String}
    (step : ∀ a ∈ l, ∀ s x t, s.Inlined → Gives (f a) s x t → SparqlClient.Inlined x ∧ t.Inlined)
    (hs : s.Inlined) (h : Gives (l.mapM f) s texts t) :
    (∀ x ∈ texts, SparqlClient.Inlined x) ∧ t.Inlined := by
  obtain ⟨ht, each⟩ := mapM_gives (I := Scope.Inlined) (Q := fun _ x => SparqlClient.Inlined x)
    (fun a ha s x t hs hx => (step a ha s x t hs hx).symm) hs h
  exact ⟨forall₂_right each, ht⟩

theorem separatorText_breaks {v : Value} {text : String} (h : separatorText v = .ok text)
    {rest : List Char} (hr : Breaks rest) : Breaks (text.toList ++ rest) := by
  unfold separatorText at h
  simp only at h
  split at h
  · obtain rfl := Outcome.pure_eq_ok_iff.1 h
    exact hr
  · obtain ⟨written, -, last⟩ := Outcome.bind_eq_ok_iff.1 h
    obtain rfl := Outcome.pure_eq_ok_iff.1 last
    rw [String.toList_append, String.toList_append, List.append_assoc, List.append_assoc]
    exact breaks_of_isStop (by decide) _

theorem aggregateTarget_inlined {a : Aggregate} {target : String} (hs : s.Inlined)
    (ha : a.Inlined p) (h : Gives (aggregateTarget p a) s target t) :
    SparqlClient.Inlined target ∧ t.Inlined := by
  unfold aggregateTarget at h
  split at h
  · split at h
    · obtain ⟨rfl, rfl⟩ := pure_gives.1 h
      exact ⟨asks_of_isInert (by decide), hs⟩
    · cases (lift_gives.1 h).1
  · rename_i named
    rw [Bool.or_eq_true, not_or, Bool.not_eq_true, Bool.not_eq_true] at named
    exact need_inlined hs (ha.column named.1 named.2) h

theorem aggregate_inlined {a : Aggregate} {distinct : Bool} {text : String} (hs : s.Inlined)
    (ha : a.Inlined p) (h : Gives (aggregate p a distinct) s text t) :
    SparqlClient.Inlined text ∧ t.Inlined := by
  rw [aggregate_eq] at h
  obtain ⟨target, u, resolved, rest⟩ := bind_gives.1 h
  obtain ⟨inlined, hu⟩ := aggregateTarget_inlined hs ha resolved
  obtain ⟨separator, v, written, last⟩ := bind_gives.1 rest
  obtain ⟨hw, rfl⟩ := lift_gives.1 written
  obtain ⟨rfl, rfl⟩ := pure_gives.1 last
  refine ⟨?_, hu⟩
  have marked : SparqlClient.Inlined
      (if distinct || a.distinct then "DISTINCT " ++ target else target) := by
    split
    · exact (leads_of_isInert (by decide)).append_inlined inlined
    · exact inlined
  have opening : Leads ("(" ++ a.function ++ "(") :=
    ((leads_of_isInert (by decide)).append ha.function).append (leads_of_isInert (by decide))
  have closing : Trails ") as ?aggregate)" := trails_of_isInert (by decide) (by decide)
  have behind : Trails (separator ++ ") as ?aggregate)") := by
    refine ⟨(ha.separator _ hw).append closing, ?_⟩
    rw [String.toList_append]
    exact separatorText_breaks hw closing.breaks
  rw [String.append_assoc]
  exact (opening.append_inlined marked).append behind

theorem column_inlined {v : Value} {text : String} (hs : s.Inlined) (hv : v.InlinedColumn p)
    (h : Gives (column p v) s text t) : SparqlClient.Inlined text ∧ t.Inlined := by
  unfold column at h
  split at h
  · obtain ⟨rfl, rfl⟩ := pure_gives.1 h
    exact ⟨hv, hs⟩
  · exact need_inlined hs hv h

theorem selectClause_inlined {q : QuerySpec} {text : String} (hs : s.Inlined)
    (assumed : q.SelectionInlined p) (h : Gives (selectClause p q) s text t) :
    SparqlClient.Inlined text ∧ t.Inlined := by
  unfold selectClause at h
  unfold QuerySpec.SelectionInlined at assumed
  split at h
  · rename_i a ha
    rw [ha] at assumed
    obtain ⟨inner, u, written, last⟩ := bind_gives.1 h
    obtain ⟨rfl, rfl⟩ := pure_gives.1 last
    obtain ⟨inlined, ht⟩ := aggregate_inlined hs assumed written
    exact ⟨(leads_of_isInert (by decide)).append_inlined inlined, ht⟩
  · rename_i ha
    rw [ha] at assumed
    have keyword : Leads (if q.distinct then "SELECT DISTINCT " else "SELECT ") := by
      split <;> exact leads_of_isInert (by decide)
    simp only at h
    split at h
    · obtain ⟨rfl, rfl⟩ := pure_gives.1 h
      exact ⟨keyword.append_inlined (asks_of_isInert (by decide)), hs⟩
    · obtain ⟨texts, u, written, last⟩ := bind_gives.1 h
      obtain ⟨rfl, rfl⟩ := pure_gives.1 last
      obtain ⟨inlined, ht⟩ := mapM_inlined (fun v hv s x t hs hx =>
        column_inlined hs (assumed v (List.mem_of_mem_filter hv)
          (by simpa using List.of_mem_filter hv)) hx) hs written
      exact ⟨keyword.append_inlined (inlined_intercalate links_blank inlined), ht⟩

theorem groupClause_inlined {q : QuerySpec} {text : String} (hs : s.Inlined)
    (assumed : ∀ v ∈ q.groups, v.InlinedColumn p) (h : Gives (groupClause p q) s text t) :
    SparqlClient.Inlined text ∧ t.Inlined := by
  unfold groupClause at h
  split at h
  · obtain ⟨rfl, rfl⟩ := pure_gives.1 h
    exact ⟨inlined_empty, hs⟩
  · obtain ⟨texts, u, written, last⟩ := bind_gives.1 h
    obtain ⟨rfl, rfl⟩ := pure_gives.1 last
    obtain ⟨inlined, ht⟩ := mapM_inlined (fun v hv s x t hs hx =>
      need_inlined hs (assumed v hv) hx) hs written
    exact ⟨(leads_of_isInert (by decide)).append_inlined
      (inlined_intercalate links_blank inlined), ht⟩

theorem orderKey_inlined {o : Order} {text : String} (hs : s.Inlined) (ho : o.Inlined p)
    (h : Gives (orderKey p o) s text t) : SparqlClient.Inlined text ∧ t.Inlined := by
  unfold orderKey at h
  unfold Order.Inlined at ho
  split at h
  · rename_i raw
    rw [raw] at ho
    obtain ⟨rfl, rfl⟩ := pure_gives.1 h
    exact ⟨ho, hs⟩
  · rename_i d hd
    rw [hd] at ho
    obtain ⟨direction, u, read, rest⟩ := bind_gives.1 h
    obtain ⟨-, rfl⟩ := lift_gives.1 read
    obtain ⟨ref, v, needed, last⟩ := bind_gives.1 rest
    obtain ⟨rfl, rfl⟩ := pure_gives.1 last
    obtain ⟨inlined, ht⟩ := need_inlined hs ho needed
    have keyword : Leads (direction.keyword ++ "(") := by
      cases direction <;> exact leads_of_isInert (by decide)
    exact ⟨inlined_call keyword inlined, ht⟩

theorem orderClause_inlined {q : QuerySpec} {text : String} (hs : s.Inlined)
    (assumed : ∀ o ∈ q.effectiveOrders, o.Inlined p) (h : Gives (orderClause p q) s text t) :
    SparqlClient.Inlined text ∧ t.Inlined := by
  unfold orderClause at h
  split at h
  · obtain ⟨rfl, rfl⟩ := pure_gives.1 h
    exact ⟨inlined_empty, hs⟩
  · obtain ⟨texts, u, written, last⟩ := bind_gives.1 h
    obtain ⟨rfl, rfl⟩ := pure_gives.1 last
    obtain ⟨inlined, ht⟩ := mapM_inlined (fun o ho s x t hs hx =>
      orderKey_inlined hs (assumed o ho) hx) hs written
    exact ⟨(leads_of_isInert (by decide)).append_inlined
      (inlined_intercalate links_blank inlined), ht⟩

theorem having_from {h : Having} {f : Fragment} (hs : s.Inlined) (assumed : h.Inlined p)
    (compiled : Gives (having p h) s f t) :
    From p (Owner.listed p (.having h)) f ∧ t.Inlined := by
  have writes : Owner.Writes p f (.having h) := ⟨s, t, compiled⟩
  cases h with
  | raw expression connector =>
    obtain ⟨rfl, rfl⟩ := pure_gives.1 compiled
    have fits := (Fragment.Fits.before assumed (leads_of_isInert (s := "( ") (by decide))).after
      (trails_of_isInert (s := " )") (by decide) (by decide))
    exact ⟨.of_owner fits rfl writes, hs⟩
  | test column o value connector =>
    unfold having at compiled
    obtain ⟨ref, u, needed, rest⟩ := bind_gives.1 compiled
    obtain ⟨inlined, hu⟩ := need_inlined hs assumed.1 needed
    split at rest
    · rename_i c
      obtain ⟨rfl, rfl⟩ := pure_gives.1 rest
      have written : Write.test p ref (.compare c) value column =
          .ok ((ref ++ " " ++ c.sign ++ " ") ++ Write.operand p value) := rfl
      have operand_assumed : (Operator.compare c).Inlined p value := assumed.2
      have fits := Write.test_fits inlined operand_assumed written
      exact ⟨.of_owner fits (Write.operand_bindings value) writes, hu⟩
    · cases (lift_gives.1 rest).1

theorem fromAll_of_forall₂ {α β : Type} {own : α → List Owner} {write : β → Fragment}
    {l : List α} {bs : List β} (h : List.Forall₂ (fun a b => From p (own a) (write b)) l bs) :
    FromAll p (l.flatMap own) (bs.map write) := by
  induction h with
  | nil => exact .nil
  | cons first _ ih => exact .cons first ih

theorem havingClause_from {q : QuerySpec} {f : Fragment} (hs : s.Inlined)
    (assumed : ∀ h ∈ q.havings, h.Inlined p) (compiled : Gives (havingClause p q) s f t) :
    From p (q.havings.flatMap fun h => Owner.listed p (.having h)) f ∧ t.Inlined := by
  unfold havingClause at compiled
  split at compiled
  · rename_i none_given
    obtain ⟨rfl, rfl⟩ := pure_gives.1 compiled
    rw [List.isEmpty_iff.1 none_given]
    exact ⟨.ofText inlined_empty, hs⟩
  · obtain ⟨tests, u, written, last⟩ := bind_gives.1 compiled
    obtain ⟨rfl, rfl⟩ := pure_gives.1 last
    obtain ⟨ht, each⟩ := mapM_gives (I := Scope.Inlined)
      (Q := fun h test => From p (Owner.listed p (.having h)) test.expression)
      (fun h hh s test t hs compiled => by
        obtain ⟨e, v, he, last⟩ := bind_gives.1 compiled
        obtain ⟨rfl, rfl⟩ := pure_gives.1 last
        exact (having_from hs (assumed h hh) he).symm) hs written
    exact ⟨((fromAll_of_forall₂ each).foldTests.before (leads_of_isInert (by decide))).after
      (trails_of_isInert (by decide) (by decide)), ht⟩

theorem inlined_typeIri : SparqlClient.Inlined (angled typeIri) := by decide +kernel

theorem tableClause_from {q : QuerySpec} {parts : List Fragment} (hs : s.Inlined)
    (assumed : q.table.truth → SparqlClient.Inlined ((classify (some p) q.table).render (some p)))
    (h : Gives (tableClause p q) s parts t) : FromAll p [] parts ∧ t = s := by
  unfold tableClause at h
  split at h
  · rename_i given
    obtain ⟨u, v, read, last⟩ := bind_gives.1 h
    obtain ⟨rfl, rfl⟩ := get_gives.1 read
    obtain ⟨rfl, rfl⟩ := pure_gives.1 last
    have fits := along_fits hs.subject inlined_typeIri (Fragment.fits_ofText (assumed given))
    exact ⟨.singleton (.of_plain fits rfl), rfl⟩
  · obtain ⟨rfl, rfl⟩ := pure_gives.1 h
    exact ⟨.nil, rfl⟩

theorem neededPatterns_from {parts : List Fragment} (hs : s.Inlined)
    (h : Gives neededPatterns s parts t) : FromAll p [] parts ∧ t = s := by
  unfold neededPatterns at h
  obtain ⟨u, v, read, rest⟩ := bind_gives.1 h
  obtain ⟨rfl, rfl⟩ := get_gives.1 read
  have keep : ∀ e ∈ v.needed.filter (fun e => !v.emitted.contains e.1), ∀ s f t, s = v →
      Gives (do return optionally e.2 (← pattern e.1 (.ofText ((v.refOf? e.1).getD "")))) s f t →
      t = v ∧ From p [] f := by
    intro e he s f t same compiled
    subst same
    obtain ⟨f, u, hp, last⟩ := bind_gives.1 compiled
    obtain ⟨rfl, rfl⟩ := pattern_gives.1 hp
    obtain ⟨rfl, rfl⟩ := pure_gives.1 last
    have ref : SparqlClient.Inlined ((t.refOf? e.1).getD "") := by
      cases known : t.refOf? e.1 with
      | none => exact inlined_empty
      | some v => exact hs.refs _ (Scope.mem_refs_of_refOf? known)
    have fits := along_fits hs.subject (hs.needed e (List.mem_of_mem_filter he))
      (Fragment.fits_ofText ref)
    exact ⟨rfl, optionally_from (.of_plain fits rfl) e.2⟩
  obtain ⟨ht, each⟩ := mapM_gives (I := fun t => t = v) (Q := fun _ f => From p [] f) keep rfl rest
  exact ⟨.plain (forall₂_right each), ht⟩

theorem bindText_from {b : Bind} (h : b.Inlined) :
    From p (Owner.listed p (.bind b)) (bindText b) := by
  have target : Trails (" AS " ++ Shape.withMark b.target ++ ")") := by
    rw [String.append_assoc]
    exact (links_of_isInert (by decide) (by decide)).append_trails
      (h.target.append (trails_of_isInert (by decide) (by decide)))
  have fits := (h.expression.before (leads_of_isInert (s := "BIND(") (by decide))).after target
  exact .of_owner fits rfl rfl

theorem row_inlined {p : Prefixes} {row : List Value}
    (h : ∀ v ∈ row, SparqlClient.Inlined (dataValue (some p) v)) :
    SparqlClient.Inlined ("(" ++ String.intercalate " " (row.map (dataValue (some p))) ++ ")") :=
  inlined_call (leads_of_isInert (by decide))
    (inlined_intercalate links_blank (by rwa [List.forall_mem_map]))

theorem valuesText_from {b : ValuesBlock} {f : Fragment} (assumed : b.Inlined p)
    (h : valuesText p b = .ok f) : From p [] f := by
  obtain ⟨names, read, last⟩ := Outcome.bind_eq_ok_iff.1 h
  obtain rfl := Outcome.pure_eq_ok_iff.1 last
  have names_inlined : ∀ name ∈ names, SparqlClient.Inlined name := by
    refine Outcome.forall_mem_of_mapM (fun v hv name hn => ?_) read
    obtain ⟨text, ht, rfl⟩ := Outcome.map_eq_ok_iff.1 hn
    exact assumed.names v hv text ht
  have head : Leads ("VALUES (" ++ String.intercalate " " names ++ ") ") :=
    ((leads_of_isInert (by decide)).append_inlined
      (inlined_intercalate links_blank names_inlined)).leads
        (links_of_isInert (by decide) (by decide))
  have rows := inlined_intercalate links_blank (List.forall_mem_map.2 fun row hr =>
    row_inlined (assumed.rows row hr))
  exact .ofText (head.append_inlined (inlined_inBraces rows))

theorem body_from {q : QuerySpec} {f : Fragment} (hs : s.Inlined) (assumed : q.BodyInlined p)
    (h : Gives (body p q) s f t) : From p (q.bodyOwners p) f ∧ t.Inlined := by
  unfold body at h
  obtain ⟨table, u, first, rest⟩ := bind_gives.1 h
  obtain ⟨from_table, rfl⟩ := tableClause_from hs assumed.table first
  obtain ⟨conditions, v, second, behind⟩ := bind_gives.1 rest
  obtain ⟨from_conditions, hv⟩ := block_from hs assumed.wheres second
  obtain ⟨needed, w, third, data⟩ := bind_gives.1 behind
  obtain ⟨from_needed, rfl⟩ := neededPatterns_from (p := p) hv third
  obtain ⟨values, x, fourth, last⟩ := bind_gives.1 data
  obtain ⟨written, rfl⟩ := lift_gives.1 fourth
  obtain ⟨rfl, rfl⟩ := pure_gives.1 last
  have from_values : FromAll p [] values := .plain
    (Outcome.forall_mem_of_mapM (fun b hb f hf => valuesText_from (assumed.values b hb) hf) written)
  have from_binds : FromAll p (q.binds.flatMap fun b => Owner.listed p (.bind b))
      (q.binds.map bindText) :=
    fromAll_of_forall₂ (List.forall₂_same.2 fun b hb => bindText_from (assumed.binds b hb))
  have parts := ((from_table.append (.cons from_conditions from_needed)).append from_binds).append
    from_values
  rw [List.nil_append, List.append_nil, List.append_nil] at parts
  exact ⟨parts.joinPresent links_blank, hv⟩

end Compile

end SparqlClient
