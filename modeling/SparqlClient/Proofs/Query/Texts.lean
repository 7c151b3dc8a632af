import SparqlClient.Proofs.Query.Parts
import SparqlClient.Proofs.Query.Variables

/-! The texts of a query, as they are written into the block of its conditions, node by node. What
a node writes stays within every set of variables that its texts stay within. -/

namespace SparqlClient

open Text

def writtenText (x : Outcome String) : List String := x.toOption.toList

theorem mem_writtenText {x : Outcome String} {s : String} : s ∈ writtenText x ↔ x = .ok s := by
  cases x <;> simp [writtenText, Except.toOption, eq_comm]

namespace Value

def texts (p : Prefixes) (v : Value) : List String :=
  if v.isInline then [(classify (some p) v).render (some p)] else []

def textsInPattern (p : Prefixes) (v : Value) : List String :=
  if v.standsForNode p then [(classify (some p) v).render (some p)] else []

end Value

def Operator.texts (p : Prefixes) (v : Value) : Operator → List String
  | .datatype => if (classify (some p) v).isResource then [(classify (some p) v).render none] else []
  | _ => v.texts p

namespace ColumnForm

/-- A predicate is written as an IRI, and a variable is made for it. -/
def predicateTexts : ColumnForm → List String
  | .written _ => []
  | .predicate iri => writtenText ((normalizeIriValue iri).map angled)

def texts : ColumnForm → List String
  | .written text => [text]
  | .predicate iri => (predicate iri).predicateTexts

theorem mem_predicateTexts {iri : Value} {q : String} (h : normalizeIriValue iri = .ok q) :
    angled q ∈ (predicate iri).predicateTexts :=
  mem_writtenText.2 (Outcome.map_eq_ok_iff.2 ⟨q, h, rfl⟩)

end ColumnForm

def Value.columnTexts (p : Prefixes) (v : Value) : List String := (columnForm p v).texts

def GroupKind.texts (p : Prefixes) : GroupKind → List String
  | .service target => [wrap p target]
  | _ => []

mutual

def Condition.texts (p : Prefixes) (folded : Bool) : Condition → List String
  | .basic column operator value _ => column.columnTexts p ++
    match Operator.read (.text operator) with
    | .ok o => o.texts p value
    | .error _ => []
  | .within column values _ _ => column.columnTexts p ++ values.flatMap (Value.texts p)
  | .between r => r.column.columnTexts p ++ (r.low.texts p ++ r.high.texts p)
  | .null column _ => column.columnTexts p
  | .notNull column _ => column.columnTexts p
  | .raw pattern => [pattern.text]
  | .filter expression _ => [expression.text]
  | .triple subject pred object =>
    subject.textsInPattern p ++ Write.predicate p pred :: object.textsInPattern p
  | .group kind conditions => kind.texts p ++ textsOfAll p (foldsTests conditions) conditions
  | .union branches => textsOfBranches p branches
  | .exists conditions _ _ => textsOfAll p (foldsTests conditions) conditions
  | .path path o value _ => writtenText (Path.expand p path) ++
    if o = .compare .eq && !folded then value.textsInPattern p else o.texts p value
  | .stray _ => []

def textsOfAll (p : Prefixes) (folded : Bool) : List Condition → List String
  | [] => []
  | c :: cs => c.texts p folded ++ textsOfAll p folded cs

def textsOfBranches (p : Prefixes) : List (List Condition) → List String
  | [] => []
  | b :: bs => textsOfAll p (foldsTests b) b ++ textsOfBranches p bs

end

def Order.predicateTexts (p : Prefixes) (o : Order) : List String :=
  if o.direction.isSome then (columnForm p o.column).predicateTexts else []

def Bind.texts (b : Bind) : List String := [b.expression.text, Shape.withMark b.target]

def ValuesBlock.texts (p : Prefixes) (b : ValuesBlock) : List String :=
  b.names.flatMap (fun v => writtenText ((onlyText v).map Shape.withMark)) ++
    b.rows.flatMap fun row => row.map (dataValue (some p))

namespace QuerySpec

def bodyTexts (p : Prefixes) (q : QuerySpec) : List String :=
  subjectVariable q.subject ::
    ((if q.table.truth then [(classify (some p) q.table).render (some p)] else []) ++
      (textsOfAll p (foldsTests q.wheres) q.wheres ++
        (q.binds.flatMap Bind.texts ++ q.values.flatMap (ValuesBlock.texts p))))

end QuerySpec

section Texts

variable {K : String → Prop} {p : Prefixes}

namespace Write

theorem operand_within {v : Value} (h : ∀ s ∈ v.texts p, Within K s) :
    Within K (operand p v).text := by
  unfold operand
  split
  · rename_i inline
    exact h _ (by simp [Value.texts, inline])
  · exact within_placeholder

theorem nodeOperand_within {v : Value} (h : ∀ s ∈ v.textsInPattern p, Within K s) :
    Within K (nodeOperand p v).text := by
  rw [nodeOperand_eq]
  split
  · rename_i node
    exact h _ (by simp [Value.textsInPattern, node])
  · exact within_placeholder

theorem triple_within {subject pred object : Value}
    (hs : ∀ s ∈ subject.textsInPattern p, Within K s) (hp : Within K (predicate p pred))
    (ho : ∀ s ∈ object.textsInPattern p, Within K s) :
    Within K (triple p subject pred object).text :=
  ((nodeOperand_within hs).link hp.spans (nodeOperand_within ho)).append
    (backs_of_isBack (by decide))

theorem spans_sign (c : Comparison) : Spans K (" " ++ c.sign ++ " ") := by
  cases c <;> exact spans_of_isSpan (by decide)

theorem backs_regex (caseless : Bool) :
    Backs K ((if caseless then " , \"i\"" else "") ++ " )") := by
  cases caseless with
  | false => exact backs_of_isBack (by decide)
  | true =>
    have silent : variableNames " , \"i\" )" = [] := by decide +kernel
    refine ⟨⟨(trails_regex true).inlined.closed, ?_⟩, (trails_regex true).breaks, by decide +kernel⟩
    intro v hv
    exact absurd (silent ▸ hv) List.not_mem_nil

theorem call_within {opening ref between operand closing : String} (ho : Fronts K opening)
    (href : Within K ref) (hb : Spans K between) (hv : Within K operand) (hc : Backs K closing) :
    Within K (opening ++ ref ++ between ++ operand ++ closing) :=
  ((ho.append_within href).link hb hv).append hc

theorem test_within {ref : String} {o : Operator} {v label : Value} {e : Fragment}
    (href : Within K ref) (hv : ∀ s ∈ o.texts p v, Within K s)
    (h : test p ref o v label = .ok e) : Within K e.text := by
  cases o with
  | compare c =>
    obtain rfl := Except.ok.inj h
    have written := href.link (spans_sign c) (operand_within hv)
    simpa only [Fragment.text_before, String.append_assoc] using written
  | regex negated caseless =>
    obtain rfl := Except.ok.inj h
    have opening : Fronts K ((if negated then "!" else "") ++ "REGEX( ") := by
      cases negated <;> exact fronts_of_isFront (by decide)
    exact call_within opening href (spans_of_isSpan (by decide)) (operand_within hv)
      (backs_regex caseless)
  | lang =>
    obtain rfl := Except.ok.inj h
    exact call_within (fronts_of_isFront (by decide)) href (spans_of_isSpan (by decide))
      (operand_within hv) (backs_of_isBack (by decide))
  | datatype =>
    simp only [test] at h
    split at h
    · rename_i resource
      obtain rfl := Except.ok.inj h
      have type : Within K ((classify (some p) v).render none) :=
        hv _ (by simp [Operator.texts, resource])
      exact ((fronts_of_isFront (by decide)).append_within href).link (spans_of_isSpan (by decide))
        type
    · cases h

theorem membership_within {ref : String} {values : List Value} (href : Within K ref)
    (hv : ∀ s ∈ values.flatMap (Value.texts p), Within K s) (negated : Bool) :
    Within K (membership p ref values negated).text := by
  unfold membership
  split
  · cases negated <;> exact within_of_isSilent (by decide)
  · have opening : Spans K (if negated then " NOT IN ( " else " IN ( ") := by
      cases negated <;> exact spans_of_isSpan (by decide)
    have members : Within K (Fragment.join " , " (values.map (operand p))).text := by
      apply within_intercalate (spans_of_isSpan (by decide))
      rw [List.map_map, List.forall_mem_map]
      exact fun v member => operand_within fun s hs => hv s (List.mem_flatMap.2 ⟨v, member, hs⟩)
    exact (href.link opening members).append (backs_of_isBack (by decide))

theorem bounds_within {ref below joint above low high : String} (href : Within K ref)
    (hlow : Within K low) (hhigh : Within K high) (hb : Spans K below) (hj : Spans K joint)
    (ha : Spans K above) :
    Within K ("( " ++ ref ++ below ++ low ++ (joint ++ ref ++ above) ++ high ++ " )") := by
  have first : Within K ("( " ++ ref ++ below ++ low) :=
    ((fronts_of_isFront (by decide)).append_within href).link hb hlow
  have second : Spans K (joint ++ ref ++ above) := by
    rw [String.append_assoc]
    exact hj.append (href.fronts ha)
  exact (first.link second hhigh).append (backs_of_isBack (by decide))

theorem range_within {ref : String} {r : Between} (href : Within K ref)
    (low : ∀ s ∈ r.low.texts p, Within K s) (high : ∀ s ∈ r.high.texts p, Within K s) :
    Within K (range p ref r).text := by
  unfold range
  split
  · exact bounds_within href (operand_within low) (operand_within high)
      (spans_of_isSpan (by decide)) (spans_of_isSpan (by decide)) (spans_of_isSpan (by decide))
  · exact bounds_within href (operand_within low) (operand_within high)
      (spans_of_isSpan (by decide)) (spans_of_isSpan (by decide)) (spans_of_isSpan (by decide))

end Write

namespace Clauses

theorem dedupe_subset (seen : List String) (fs : List Fragment) : dedupe seen fs ⊆ fs := by
  induction fs generalizing seen with
  | nil => simp [dedupe]
  | cons f fs ih =>
    rw [dedupe]
    split
    · exact fun g hg => List.mem_cons_of_mem f (ih seen hg)
    · exact List.cons_subset_cons f (ih _)

theorem foldTests_within {tests : List Test} (h : ∀ t ∈ tests, Within K t.expression.text) :
    Within K (foldTests tests).text := by
  cases tests with
  | nil => exact within_empty
  | cons t ts =>
    rw [List.forall_mem_cons] at h
    obtain ⟨first, rest⟩ := h
    rw [foldTests]
    generalize t.expression = e at first
    induction ts generalizing e with
    | nil => exact first
    | cons u us ih =>
      rw [List.forall_mem_cons] at rest
      have sign : Spans K (" " ++ u.connector.sign ++ " ") := by
        cases u.connector <;> exact spans_of_isSpan (by decide)
      have joined := (fronts_of_isFront (by decide) : Fronts K "( ").append_within
        (first.link sign rest.1)
      exact ih rest.2 _ (joined.append (backs_of_isBack (by decide)))

theorem filterText_within {e : Fragment} (h : Within K e.text) : Within K (filterText e).text :=
  ((fronts_of_isFront (by decide)).append_within h).append (backs_of_isBack (by decide))

theorem filters_within {tests : List Test} (h : ∀ t ∈ tests, Within K t.expression.text)
    (folded : Bool) : ∀ f ∈ filters folded tests, Within K f.text := by
  unfold filters
  split
  · rw [List.forall_mem_singleton]
    exact filterText_within (foldTests_within h)
  · rw [List.forall_mem_map]
    exact fun t ht => filterText_within (h t ht)

end Clauses

namespace Compile

theorem along_within {subject way : String} {object : Fragment} (hs : Within K subject)
    (hw : Within K way) (ho : Within K object.text) : Within K (along subject way object).text :=
  ((hs.parts hw).link spans_blank ho).append (backs_of_isBack (by decide))

theorem optionally_within {f : Fragment} (h : Within K f.text) (optional : Bool) :
    Within K (optionally optional f).text := by
  cases optional with
  | false => exact h
  | true => exact (fronts_of_isFront (by decide)).append_within h.inBraces

theorem groupText_within {kind : GroupKind} {inner f : Fragment} (h : Within K inner.text)
    (texts : ∀ x ∈ kind.texts p, Within K x) (hf : groupText p kind inner = .ok f) :
    Within K f.text := by
  cases kind with
  | group =>
    obtain rfl := Except.ok.inj hf
    exact h.inBraces
  | optional =>
    obtain rfl := Except.ok.inj hf
    exact (fronts_of_isFront (by decide)).append_within h.inBraces
  | minus =>
    obtain rfl := Except.ok.inj hf
    exact (fronts_of_isFront (by decide)).append_within h.inBraces
  | service target =>
    rw [groupText] at hf
    split at hf
    · obtain rfl := Except.ok.inj hf
      have endpoint : Within K (wrap p target) := texts _ (List.mem_singleton.2 rfl)
      exact ((fronts_of_isFront (by decide)).append_within endpoint).link spans_blank h.inBraces
    · cases hf

theorem within_call {opening ref : String} (ho : Fronts K opening) (href : Within K ref) :
    Within K (opening ++ ref ++ ")") :=
  (ho.append_within href).append (backs_of_isBack (by decide))

theorem bindText_within {b : Bind} (texts : ∀ x ∈ b.texts, Within K x) :
    Within K (bindText b).text := by
  rw [Bind.texts, List.forall_mem_cons, List.forall_mem_singleton] at texts
  have opening : Within K ("BIND(" ++ b.expression.text) :=
    (fronts_of_isFront (by decide)).append_within texts.1
  have written := (opening.link (spans_of_isSpan (s := " AS ") (by decide)) texts.2).append
    (backs_of_isBack (s := ")") (by decide))
  simpa only [bindText, Fragment.text_before, Fragment.text_after, String.append_assoc] using
    written

theorem valuesText_within {b : ValuesBlock} {f : Fragment}
    (texts : ∀ x ∈ b.texts p, Within K x) (h : valuesText p b = .ok f) : Within K f.text := by
  rw [ValuesBlock.texts, List.forall_mem_append] at texts
  obtain ⟨names, read, last⟩ := Outcome.bind_eq_ok_iff.1 h
  obtain rfl := Outcome.pure_eq_ok_iff.1 last
  have names_within : ∀ name ∈ names, Within K name := by
    refine Outcome.forall_mem_of_mapM (fun v hv name hn => ?_) read
    exact texts.1 name (List.mem_flatMap.2 ⟨v, hv, mem_writtenText.2 hn⟩)
  have rows_within : ∀ row ∈ b.rows,
      Within K ("(" ++ String.intercalate " " (row.map (dataValue (some p))) ++ ")") := by
    intro row member
    refine within_call (fronts_of_isFront (by decide)) (within_intercalate spans_blank ?_)
    exact fun x hx => texts.2 x (List.mem_flatMap.2 ⟨row, member, hx⟩)
  have head : Within K ("VALUES (" ++ String.intercalate " " names) :=
    (fronts_of_isFront (by decide)).append_within (within_intercalate spans_blank names_within)
  exact head.link (spans_of_isSpan (by decide))
    (within_intercalate spans_blank (List.forall_mem_map.2 rows_within)).inBraces

end Compile

end Texts

end SparqlClient
