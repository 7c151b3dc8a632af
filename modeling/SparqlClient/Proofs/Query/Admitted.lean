import SparqlClient.Proofs.Query.Clauses
import SparqlClient.Proofs.Query.Texts

/-! Which variables the block of a query names: those that its texts name, and those that are made
for predicates and paths, whose names are free. What is said of a step is said of every set of
variables that admits both. -/

namespace SparqlClient

open Text

section Admitted

variable {K : String → Prop} {p : Prefixes}

/-- Whatever a scope has put into a text or can put into one is admitted. -/
structure Scope.Admitted (K : String → Prop) (s : Scope) : Prop where
  subject : Within K s.subject
  refs : ∀ e ∈ s.refs, Within K e.2
  needed : ∀ e ∈ s.needed, Within K (angled e.1)
  free : ∀ name, IsName name.toList → name ∉ s.taken → K name

theorem Scope.Admitted.variableFor {s : Scope} (h : s.Admitted K) (q hint : String) :
    Within K (s.variableFor q hint).1 ∧ (s.variableFor q hint).2.Admitted K := by
  obtain ⟨v, known, same⟩ | ⟨name, -, made, fresh⟩ := variableFor_cases s q hint
  · rw [same]
    exact ⟨h.refs _ (mem_refs_of_refOf? known), h⟩
  · have word : IsName name.toList := made ▸ isName_freshName (isName_baseName hint) s.taken
    have unused : name ∉ s.taken := made ▸ freshName_notMem _ _
    have own := within_variable word (h.free name word unused)
    rw [fresh]
    refine ⟨own, h.subject, ?_, h.needed, ?_⟩
    · intro e he
      rcases List.mem_append.1 he with he | he
      · exact h.refs e he
      · rw [List.mem_singleton.1 he]
        exact own
    · intro other hother apart
      exact h.free other hother fun taken => apart (List.mem_cons_of_mem _ taken)

structure Column.Admitted (K : String → Prop) (c : Column) : Prop where
  ref : Within K c.ref
  predicate : ∀ q, c.predicate = some q → Within K (angled q)

structure Clauses.Admitted (K : String → Prop) (c : Clauses) : Prop where
  patterns : ∀ f ∈ c.patterns, Within K f.text
  tests : ∀ t ∈ c.tests, Within K t.expression.text

namespace Clauses

theorem admitted_empty : Clauses.empty.Admitted K := ⟨by simp [empty], by simp [empty]⟩

theorem admitted_ofPattern {f : Fragment} (h : Within K f.text) : (ofPattern f).Admitted K :=
  ⟨by simpa [ofPattern] using h, by simp [ofPattern]⟩

theorem admitted_ofTest {e : Fragment} (connector : Connector) (h : Within K e.text) :
    (ofTest connector e).Admitted K :=
  ⟨by simp [ofTest], by simpa [ofTest] using h⟩

theorem Admitted.append {c d : Clauses} (hc : c.Admitted K) (hd : d.Admitted K) :
    (c.append d).Admitted K :=
  ⟨List.forall_mem_append.2 ⟨hc.patterns, hd.patterns⟩,
    List.forall_mem_append.2 ⟨hc.tests, hd.tests⟩⟩

theorem Admitted.fragment {c : Clauses} (h : c.Admitted K) (folded : Bool) :
    Within K (c.fragment folded).text := by
  apply within_intercalate spans_blank
  rw [List.forall_mem_map, List.forall_mem_append]
  exact ⟨fun f hf => h.patterns f (dedupe_subset [] _ hf), filters_within h.tests folded⟩

end Clauses

namespace Compile

variable {l : Place} {q : QuerySpec} {s t : Scope} {part : Clauses}

theorem resolve_admitted {v : Value} {c : Column} (hs : s.Admitted K)
    (hv : ∀ x ∈ v.columnTexts p, Within K x) (h : Gives (resolve p v) s c t) :
    c.Admitted K ∧ t.Admitted K := by
  rw [resolve_gives] at h
  unfold Value.columnTexts at hv
  cases form : columnForm p v with
  | written text =>
    rw [form] at h hv
    cases h
    exact ⟨⟨hv _ (List.mem_singleton.2 rfl), by simp⟩, hs⟩
  | predicate iri =>
    rw [form] at h hv
    obtain ⟨q, hq, he⟩ := Outcome.map_eq_ok_iff.1 h
    cases he
    obtain ⟨ref, scope⟩ := hs.variableFor q q
    refine ⟨⟨ref, ?_⟩, scope⟩
    rintro _ ⟨⟩
    exact hv _ (ColumnForm.mem_predicateTexts hq)

theorem atTop_admitted {q : String} {u : Unit} (hs : s.Admitted K)
    (h : Gives (l.atTop q) s u t) : t.Admitted K := by
  unfold Place.atTop at h
  split at h
  · rw [emit, modify_gives] at h
    rw [h]
    exact ⟨hs.subject, hs.refs, hs.needed, hs.free⟩
  · rw [pure_gives] at h
    rw [h.2]
    exact hs

theorem columnPattern_admitted {c : Column} {optional : Bool} (hs : s.Admitted K)
    (hc : c.Admitted K) (h : Gives (columnPattern l c optional) s part t) :
    part.Admitted K ∧ t.Admitted K := by
  rcases columnPattern_gives h with ⟨-, rfl, rfl⟩ | ⟨q, hq, hx, rfl⟩
  · exact ⟨Clauses.admitted_empty, hs⟩
  · have matched : Within K (along s.subject (angled q) (.ofText c.ref)).text :=
      along_within hs.subject (hc.predicate q hq) hc.ref
    exact ⟨Clauses.admitted_ofPattern (optionally_within matched optional), atTop_admitted hs hx⟩

theorem columnTest_admitted {c : Column} {optional : Bool} {connector : Connector} {e : Fragment}
    (hs : s.Admitted K) (hc : c.Admitted K) (he : Within K e.text)
    (h : Gives (columnTest l c optional connector e) s part t) :
    part.Admitted K ∧ t.Admitted K := by
  obtain ⟨a, ha, rfl⟩ := columnTest_gives h
  obtain ⟨pattern, scope⟩ := columnPattern_admitted hs hc ha
  exact ⟨pattern.append (Clauses.admitted_ofTest connector he), scope⟩

theorem basic_admitted {column value : Value} {operator : String} {connector : Connector}
    (hs : s.Admitted K)
    (texts : ∀ x ∈ (Condition.basic column operator value connector).texts l.prefixes l.folded,
      Within K x)
    (h : Gives (condition l (.basic column operator value connector)) s part t) :
    part.Admitted K ∧ t.Admitted K := by
  obtain ⟨c, u, o, hc, ho, cases⟩ := basic_gives h
  rw [Condition.texts, ho, List.forall_mem_append] at texts
  obtain ⟨column_admitted, hu⟩ := resolve_admitted hs texts.1 hc
  rcases cases with ⟨q, rfl, hq, -, rfl, rfl⟩ | ⟨-, e, he, last⟩
  · have matched := along_within hu.subject (column_admitted.predicate q hq)
      (Write.operand_within texts.2)
    exact ⟨Clauses.admitted_ofPattern matched, hu⟩
  · exact columnTest_admitted hu column_admitted
      (Write.test_within column_admitted.ref texts.2 he) last

theorem path_admitted {path : String} {o : Operator} {value : Value} {connector : Connector}
    (hs : s.Admitted K)
    (texts : ∀ x ∈ (Condition.path path o value connector).texts l.prefixes l.folded, Within K x)
    (h : Gives (condition l (.path path o value connector)) s part t) :
    part.Admitted K ∧ t.Admitted K := by
  obtain ⟨text, ht, cases⟩ := path_gives h
  rw [Condition.texts, List.forall_mem_append] at texts
  have way := texts.1 text (mem_writtenText.2 ht)
  rcases cases with ⟨matched, rfl, rfl⟩ | ⟨tested, ref, e, named, he, rfl⟩
  · rw [if_pos matched] at texts
    exact ⟨Clauses.admitted_ofPattern
      (along_within hs.subject way (Write.nodeOperand_within texts.2)), hs⟩
  · rw [tested, if_neg Bool.false_ne_true] at texts
    obtain ⟨own, hw⟩ := hs.variableFor text (Path.hint text)
    rw [named] at own hw
    have pattern : Within K (along s.subject text (.ofText ref)).text :=
      along_within hs.subject way own
    exact ⟨⟨List.forall_mem_singleton.2 (optionally_within pattern _),
      List.forall_mem_singleton.2 (Write.test_within own texts.2 he)⟩, hw⟩

mutual

theorem condition_admitted (l : Place) (c : Condition) {s t : Scope} {part : Clauses}
    (hs : s.Admitted K) (texts : ∀ x ∈ c.texts l.prefixes l.folded, Within K x)
    (h : Gives (condition l c) s part t) : part.Admitted K ∧ t.Admitted K := by
  cases c with
  | basic column operator value connector => exact basic_admitted hs texts h
  | within column values connector negated =>
    rw [Condition.texts, List.forall_mem_append] at texts
    rw [condition] at h
    obtain ⟨c, u, hc, rest⟩ := bind_gives.1 h
    obtain ⟨own, hu⟩ := resolve_admitted hs texts.1 hc
    exact columnTest_admitted hu own (Write.membership_within own.ref texts.2 negated) rest
  | between r =>
    rw [Condition.texts, List.forall_mem_append, List.forall_mem_append] at texts
    rw [condition] at h
    obtain ⟨c, u, hc, rest⟩ := bind_gives.1 h
    obtain ⟨own, hu⟩ := resolve_admitted hs texts.1 hc
    exact columnTest_admitted hu own (Write.range_within own.ref texts.2.1 texts.2.2) rest
  | null column connector =>
    rw [condition] at h
    obtain ⟨c, u, hc, rest⟩ := bind_gives.1 h
    obtain ⟨own, hu⟩ := resolve_admitted hs texts hc
    exact columnTest_admitted hu own (within_call (fronts_of_isFront (by decide)) own.ref) rest
  | notNull column connector =>
    obtain ⟨c, u, hc, ⟨-, rest⟩ | ⟨-, -, rest⟩⟩ := notNull_gives h
    all_goals obtain ⟨own, hu⟩ := resolve_admitted hs texts hc
    · exact columnTest_admitted hu own (within_call (fronts_of_isFront (by decide)) own.ref) rest
    · exact columnPattern_admitted hu own rest
  | raw pattern =>
    rw [condition] at h
    obtain ⟨rfl, rfl⟩ := pure_gives.1 h
    exact ⟨Clauses.admitted_ofPattern (texts _ (List.mem_singleton.2 rfl)), hs⟩
  | filter expression connector =>
    rw [condition] at h
    obtain ⟨rfl, rfl⟩ := pure_gives.1 h
    have own : Within K expression.text := texts _ (List.mem_singleton.2 rfl)
    exact ⟨Clauses.admitted_ofTest connector (((fronts_of_isFront (by decide)).append_within
      own).append (backs_of_isBack (by decide))), hs⟩
  | triple subject pred object =>
    rw [Condition.texts, List.forall_mem_append, List.forall_mem_cons] at texts
    rw [condition] at h
    obtain ⟨rfl, rfl⟩ := pure_gives.1 h
    exact ⟨Clauses.admitted_ofPattern
      (Write.triple_within texts.1 texts.2.1 texts.2.2), hs⟩
  | group kind conditions =>
    rw [Condition.texts, List.forall_mem_append] at texts
    rw [condition_group] at h
    obtain ⟨text, u, nested, braced⟩ := bind_gives.1 h
    obtain ⟨inner, compiled, rfl⟩ := blockAt_gives nested
    obtain ⟨f, w, written, last⟩ := bind_gives.1 braced
    obtain ⟨hw, rfl⟩ := lift_gives.1 written
    obtain ⟨rfl, rfl⟩ := pure_gives.1 last
    obtain ⟨own, ht⟩ := all_admitted ⟨l.prefixes, _, false⟩ conditions hs texts.2 compiled
    exact ⟨Clauses.admitted_ofPattern (groupText_within (own.fragment _) texts.1 hw), ht⟩
  | union branches =>
    rw [condition] at h
    obtain ⟨parts, u, compiled, last⟩ := bind_gives.1 h
    obtain ⟨rfl, rfl⟩ := pure_gives.1 last
    obtain ⟨own, ht⟩ := blocks_admitted l.prefixes branches hs texts compiled
    have joined : Within K (Fragment.join " UNION " (parts.map Fragment.inBraces)).text := by
      apply within_intercalate (spans_of_isSpan (by decide))
      rw [List.map_map, List.forall_mem_map]
      exact fun f hf => (own f hf).inBraces
    exact ⟨Clauses.admitted_ofPattern joined, ht⟩
  | «exists» conditions connector negated =>
    rw [condition_exists] at h
    obtain ⟨text, u, nested, last⟩ := bind_gives.1 h
    obtain ⟨inner, compiled, rfl⟩ := blockAt_gives nested
    obtain ⟨rfl, rfl⟩ := pure_gives.1 last
    obtain ⟨own, ht⟩ := all_admitted ⟨l.prefixes, _, false⟩ conditions hs texts compiled
    have keyword : Fronts K (if negated then "NOT EXISTS " else "EXISTS ") := by
      cases negated <;> exact fronts_of_isFront (by decide)
    exact ⟨Clauses.admitted_ofTest connector (keyword.append_within (own.fragment _).inBraces), ht⟩
  | path path o value connector => exact path_admitted hs texts h
  | stray order =>
    rw [condition] at h
    obtain ⟨c, u, hc, rest⟩ := bind_gives.1 h
    cases (lift_gives.1 rest).1

theorem all_admitted (l : Place) (cs : List Condition) {s t : Scope} {part : Clauses}
    (hs : s.Admitted K) (texts : ∀ x ∈ textsOfAll l.prefixes l.folded cs, Within K x)
    (h : Gives (all l cs) s part t) : part.Admitted K ∧ t.Admitted K := by
  match cs with
  | [] =>
    rw [all] at h
    obtain ⟨rfl, rfl⟩ := pure_gives.1 h
    exact ⟨Clauses.admitted_empty, hs⟩
  | c :: cs =>
    rw [textsOfAll, List.forall_mem_append] at texts
    rw [all] at h
    obtain ⟨a, u, first, rest⟩ := bind_gives.1 h
    obtain ⟨b, v, others, last⟩ := bind_gives.1 rest
    obtain ⟨rfl, rfl⟩ := pure_gives.1 last
    obtain ⟨own, hu⟩ := condition_admitted l c hs texts.1 first
    obtain ⟨later, ht⟩ := all_admitted l cs hu texts.2 others
    exact ⟨own.append later, ht⟩

theorem blocks_admitted (p : Prefixes) (bs : List (List Condition)) {s t : Scope}
    {parts : List Fragment} (hs : s.Admitted K) (texts : ∀ x ∈ textsOfBranches p bs, Within K x)
    (h : Gives (blocks p bs) s parts t) :
    (∀ f ∈ parts, Within K f.text) ∧ t.Admitted K := by
  match bs with
  | [] =>
    rw [blocks] at h
    obtain ⟨rfl, rfl⟩ := pure_gives.1 h
    exact ⟨by simp, hs⟩
  | b :: bs =>
    rw [textsOfBranches, List.forall_mem_append] at texts
    rw [blocks_cons] at h
    obtain ⟨text, u, nested, rest⟩ := bind_gives.1 h
    obtain ⟨inner, compiled, rfl⟩ := blockAt_gives nested
    obtain ⟨parts, w, others, last⟩ := bind_gives.1 rest
    obtain ⟨rfl, rfl⟩ := pure_gives.1 last
    obtain ⟨own, hv⟩ := all_admitted ⟨p, _, false⟩ b hs texts.1 compiled
    obtain ⟨later, ht⟩ := blocks_admitted p bs hv texts.2 others
    exact ⟨List.forall_mem_cons.2 ⟨own.fragment _, later⟩, ht⟩

end

theorem block_admitted {cs : List Condition} {f : Fragment} (hs : s.Admitted K)
    (texts : ∀ x ∈ textsOfAll p (foldsTests cs) cs, Within K x) (h : Gives (block p cs) s f t) :
    Within K f.text ∧ t.Admitted K := by
  rw [block_eq] at h
  obtain ⟨inner, compiled, rfl⟩ := blockAt_gives h
  obtain ⟨own, ht⟩ := all_admitted ⟨p, _, true⟩ cs hs texts compiled
  exact ⟨own.fragment _, ht⟩

theorem need_admitted {v : Value} {optional : Bool} {ref : String} (hs : s.Admitted K)
    (hv : ∀ x ∈ (columnForm p v).predicateTexts, Within K x)
    (h : Gives (need p v optional) s ref t) : t.Admitted K := by
  obtain ⟨c, u, hc, rest⟩ := bind_gives.1 h
  rw [resolve_gives] at hc
  cases form : columnForm p v with
  | written text =>
    rw [form] at hc
    cases hc
    obtain ⟨-, rfl⟩ := pure_gives.1 rest
    exact hs
  | predicate iri =>
    rw [form] at hc hv
    obtain ⟨q, hq, he⟩ := Outcome.map_eq_ok_iff.1 hc
    cases he
    obtain ⟨-, hu⟩ := hs.variableFor q q
    obtain ⟨x, w, changed, last⟩ := bind_gives.1 rest
    obtain rfl := modify_gives.1 changed
    obtain ⟨-, rfl⟩ := pure_gives.1 last
    refine ⟨hu.subject, hu.refs, ?_, hu.free⟩
    intro e he
    rcases Scope.mem_putNeeded he with new | ⟨d, hd, same⟩
    · rw [new]
      exact hv _ (ColumnForm.mem_predicateTexts hq)
    · rw [← same]
      exact hu.needed d hd

theorem orderKey_admitted {o : Order} {text : String} (hs : s.Admitted K)
    (ho : ∀ x ∈ o.predicateTexts p, Within K x) (h : Gives (orderKey p o) s text t) :
    t.Admitted K := by
  unfold orderKey at h
  unfold Order.predicateTexts at ho
  split at h
  · obtain ⟨-, rfl⟩ := pure_gives.1 h
    exact hs
  · rename_i d hd
    rw [hd, Option.isSome_some, if_pos rfl] at ho
    obtain ⟨direction, u, read, rest⟩ := bind_gives.1 h
    obtain ⟨-, rfl⟩ := lift_gives.1 read
    obtain ⟨ref, v, needed, last⟩ := bind_gives.1 rest
    obtain ⟨-, rfl⟩ := pure_gives.1 last
    exact need_admitted hs ho needed

theorem orderClause_admitted {text : String} (hs : s.Admitted K)
    (texts : ∀ x ∈ q.effectiveOrders.flatMap (Order.predicateTexts p), Within K x)
    (h : Gives (orderClause p q) s text t) : t.Admitted K := by
  unfold orderClause at h
  split at h
  · obtain ⟨-, rfl⟩ := pure_gives.1 h
    exact hs
  · obtain ⟨keys, u, written, last⟩ := bind_gives.1 h
    obtain ⟨-, rfl⟩ := pure_gives.1 last
    refine (mapM_gives (I := Scope.Admitted K) (Q := fun _ _ => True) ?_ hs written).1
    intro o member s x t hs key
    exact ⟨orderKey_admitted hs (fun x hx => texts x (List.mem_flatMap.2 ⟨o, member, hx⟩)) key,
      trivial⟩

theorem tableClause_within {parts : List Fragment} (hs : s.Admitted K)
    (texts : ∀ x ∈ (if q.table.truth then [(classify (some p) q.table).render (some p)] else []),
      Within K x)
    (h : Gives (tableClause p q) s parts t) : (∀ f ∈ parts, Within K f.text) ∧ t = s := by
  unfold tableClause at h
  split at h
  · rename_i given
    rw [if_pos given, List.forall_mem_singleton] at texts
    obtain ⟨u, v, read, last⟩ := bind_gives.1 h
    obtain ⟨rfl, rfl⟩ := get_gives.1 read
    obtain ⟨rfl, rfl⟩ := pure_gives.1 last
    have type : Within K (angled typeIri) :=
      ⟨inlined_typeIri.closed, by
        rw [show variableNames (angled typeIri) = [] by decide +kernel]
        exact List.forall_mem_nil _⟩
    have typed : Within K (along t.subject (angled typeIri)
        (.ofText ((classify (some p) q.table).render (some p)))).text :=
      along_within hs.subject type texts
    exact ⟨List.forall_mem_singleton.2 typed, rfl⟩
  · obtain ⟨rfl, rfl⟩ := pure_gives.1 h
    exact ⟨List.forall_mem_nil _, rfl⟩

theorem neededPatterns_within {parts : List Fragment} (hs : s.Admitted K)
    (h : Gives neededPatterns s parts t) : (∀ f ∈ parts, Within K f.text) ∧ t = s := by
  unfold neededPatterns at h
  obtain ⟨u, v, read, rest⟩ := bind_gives.1 h
  obtain ⟨rfl, rfl⟩ := get_gives.1 read
  have keep : ∀ e ∈ v.needed.filter (fun e => !v.emitted.contains e.1), ∀ s f t, s = v →
      Gives (do return optionally e.2 (← pattern e.1 (.ofText ((v.refOf? e.1).getD "")))) s f t →
      t = v ∧ Within K f.text := by
    intro e he s f t same compiled
    subst same
    obtain ⟨f, u, hp, last⟩ := bind_gives.1 compiled
    obtain ⟨rfl, rfl⟩ := pattern_gives.1 hp
    obtain ⟨rfl, rfl⟩ := pure_gives.1 last
    have ref : Within K ((t.refOf? e.1).getD "") := by
      cases known : t.refOf? e.1 with
      | none => exact within_empty
      | some v => exact hs.refs _ (Scope.mem_refs_of_refOf? known)
    have needed := hs.needed e (List.mem_of_mem_filter he)
    exact ⟨rfl, optionally_within (along_within hs.subject needed ref) e.2⟩
  obtain ⟨ht, each⟩ := mapM_gives (I := fun t => t = v) (Q := fun _ f => Within K f.text) keep rfl
    rest
  exact ⟨forall₂_right each, ht⟩

/-- Whatever texts a block is made of, it names no variable that neither they name nor is free. -/
theorem body_within {f : Fragment} (hs : s.Admitted K)
    (texts : ∀ x ∈ q.bodyTexts p, Within K x) (h : Gives (body p q) s f t) : Within K f.text := by
  rw [QuerySpec.bodyTexts, List.forall_mem_cons, List.forall_mem_append, List.forall_mem_append,
    List.forall_mem_append] at texts
  obtain ⟨-, table_texts, wheres_texts, binds_texts, values_texts⟩ := texts
  unfold body at h
  obtain ⟨table, u, first, rest⟩ := bind_gives.1 h
  obtain ⟨table_within, rfl⟩ := tableClause_within hs table_texts first
  obtain ⟨conditions, v, second, behind⟩ := bind_gives.1 rest
  obtain ⟨conditions_within, hv⟩ := block_admitted hs wheres_texts second
  obtain ⟨needed, w, third, data⟩ := bind_gives.1 behind
  obtain ⟨needed_within, rfl⟩ := neededPatterns_within hv third
  obtain ⟨values, x, fourth, last⟩ := bind_gives.1 data
  obtain ⟨written, rfl⟩ := lift_gives.1 fourth
  obtain ⟨rfl, rfl⟩ := pure_gives.1 last
  have values_within : ∀ f ∈ values, Within K f.text :=
    Outcome.forall_mem_of_mapM (fun b hb f hf => valuesText_within
      (fun x hx => values_texts x (List.mem_flatMap.2 ⟨b, hb, hx⟩)) hf) written
  have binds_within : ∀ f ∈ q.binds.map bindText, Within K f.text :=
    List.forall_mem_map.2 fun b hb => bindText_within fun x hx =>
      binds_texts x (List.mem_flatMap.2 ⟨b, hb, hx⟩)
  refine within_intercalate spans_blank fun x hx => ?_
  obtain ⟨f, hf, rfl⟩ := List.mem_map.1 (List.mem_of_mem_filter hx)
  simp only [List.mem_append, List.mem_cons] at hf
  obtain ((member | rfl | member) | member) | member := hf
  · exact table_within f member
  · exact conditions_within
  · exact needed_within f member
  · exact binds_within f member
  · exact values_within f member

theorem admitted_ofSubject (hs : Within K (subjectVariable q.subject))
    (free : ∀ name, name ∉ (Scope.ofSubject q.subject).taken → K name) :
    (Scope.ofSubject q.subject).Admitted K :=
  ⟨hs, by simp [Scope.ofSubject], by simp [Scope.ofSubject], fun name _ => free name⟩

end Compile

end Admitted

end SparqlClient
