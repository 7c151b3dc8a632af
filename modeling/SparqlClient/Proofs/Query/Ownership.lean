import SparqlClient.Proofs.Query.Assembly

/-! The conditions of a query put every value behind the placeholder of its node. What is assumed
of a condition is that each text it inlines asks for no value and leaves no quote open. -/

namespace SparqlClient

open Text

namespace Scope

/-- Whatever a scope can put into a text is inlined. -/
structure Inlined (s : Scope) : Prop where
  subject : SparqlClient.Inlined s.subject
  refs : ∀ e ∈ s.refs, SparqlClient.Inlined e.2
  needed : ∀ e ∈ s.needed, SparqlClient.Inlined (angled e.1)

theorem Inlined.variableFor {s : Scope} (h : s.Inlined) (q hint : String) :
    SparqlClient.Inlined (s.variableFor q hint).1 ∧ (s.variableFor q hint).2.Inlined := by
  obtain ⟨v, known, same⟩ | ⟨name, -, rfl, fresh⟩ := variableFor_cases s q hint
  · rw [same]
    exact ⟨h.refs _ (mem_refs_of_refOf? known), h⟩
  · have marked := (leads_variable (isName_freshName (isName_baseName hint) s.taken)).inlined
    rw [fresh]
    refine ⟨marked, h.subject, ?_, h.needed⟩
    intro e he
    rcases List.mem_append.1 he with he | he
    · exact h.refs e he
    · rw [List.mem_singleton.1 he]
      exact marked

end Scope

def ColumnForm.Inlined : ColumnForm → Prop
  | .written text => SparqlClient.Inlined text
  | .predicate iri => ∀ q, normalizeIriValue iri = .ok q → SparqlClient.Inlined (angled q)

def Value.InlinedColumn (p : Prefixes) (v : Value) : Prop := (columnForm p v).Inlined

structure Column.Inlined (c : Column) : Prop where
  ref : SparqlClient.Inlined c.ref
  predicate : ∀ q, c.predicate = some q → SparqlClient.Inlined (angled q)

def GroupKind.Inlined (p : Prefixes) : GroupKind → Prop
  | .service target => SparqlClient.Inlined (wrap p target)
  | _ => True

mutual

def Condition.Inlined (p : Prefixes) (folded : Bool) : Condition → Prop
  | .basic column operator value _ => column.InlinedColumn p ∧
    ∀ o, Operator.read (.text operator) = .ok o → o.Inlined p value
  | .within column values _ _ => column.InlinedColumn p ∧ ∀ v ∈ values, v.Inlined p
  | .between r => r.column.InlinedColumn p ∧ r.low.Inlined p ∧ r.high.Inlined p
  | .null column _ => column.InlinedColumn p
  | .notNull column _ => column.InlinedColumn p
  | .raw pattern => pattern.Fits
  | .filter expression _ => expression.Fits
  | .triple subject pred object => subject.InlinedInPattern p ∧
    SparqlClient.Inlined (Write.predicate p pred) ∧ object.InlinedInPattern p
  | .group kind conditions => kind.Inlined p ∧ AllInlined p (foldsTests conditions) conditions
  | .union branches => BranchesInlined p branches
  | .exists conditions _ _ => AllInlined p (foldsTests conditions) conditions
  | .path path o value _ => (∀ text, Path.expand p path = .ok text → SparqlClient.Inlined text) ∧
    if o = .compare .eq && !folded then value.InlinedInPattern p else o.Inlined p value
  | .stray _ => True

def AllInlined (p : Prefixes) (folded : Bool) : List Condition → Prop
  | [] => True
  | c :: cs => c.Inlined p folded ∧ AllInlined p folded cs

def BranchesInlined (p : Prefixes) : List (List Condition) → Prop
  | [] => True
  | b :: bs => AllInlined p (foldsTests b) b ∧ BranchesInlined p bs

end

namespace Clauses

def From (p : Prefixes) (os : List Owner) (c : Clauses) : Prop :=
  ∃ a b, FromAll p a c.patterns ∧ FromAll p b (c.tests.map Test.expression) ∧ (a ++ b).Perm os

namespace From

variable {p : Prefixes} {os a b : List Owner}

theorem empty : From p [] .empty := ⟨[], [], .nil, .nil, .refl _⟩

theorem ofPattern {f : Fragment} (h : SparqlClient.From p os f) : From p os (.ofPattern f) :=
  ⟨os, [], .singleton h, .nil, by simp⟩

theorem ofTest {e : Fragment} (connector : Connector) (h : SparqlClient.From p os e) :
    From p os (.ofTest connector e) :=
  ⟨[], os, .nil, .singleton h, .refl _⟩

theorem append {c d : Clauses} (hc : From p a c) (hd : From p b d) :
    From p (a ++ b) (c.append d) := by
  obtain ⟨a₁, a₂, patterns_c, tests_c, listed_c⟩ := hc
  obtain ⟨b₁, b₂, patterns_d, tests_d, listed_d⟩ := hd
  refine ⟨a₁ ++ b₁, a₂ ++ b₂, patterns_c.append patterns_d, ?_, ?_⟩
  · rw [Clauses.append, List.map_append]
    exact tests_c.append tests_d
  · exact (perm_interchange a₁ b₁ a₂ b₂).trans (listed_c.append listed_d)

/-- Patterns are written before tests, so that only the order of the owners changes. -/
theorem fragment {c : Clauses} (h : From p os c) (folded : Bool) :
    SparqlClient.From p os (c.fragment folded) := by
  obtain ⟨a, b, patterns, tests, listed⟩ := h
  exact (((patterns.dedupe []).append (tests.filters folded)).join links_blank).perm listed

end From

end Clauses

namespace Compile

variable {p : Prefixes} {l : Place} {s t : Scope}

theorem resolve_inlined {v : Value} {c : Column} (hs : s.Inlined) (hv : v.InlinedColumn p)
    (h : Gives (resolve p v) s c t) : c.Inlined ∧ t.Inlined := by
  rw [resolve_gives] at h
  unfold Value.InlinedColumn at hv
  cases form : columnForm p v with
  | written text =>
    rw [form] at h hv
    cases h
    exact ⟨⟨hv, by simp⟩, hs⟩
  | predicate iri =>
    rw [form] at h hv
    obtain ⟨q, hq, he⟩ := Outcome.map_eq_ok_iff.1 h
    cases he
    obtain ⟨ref, scope⟩ := hs.variableFor q q
    refine ⟨⟨ref, ?_⟩, scope⟩
    rintro _ ⟨⟩
    exact hv q hq

theorem along_fits {subject way : String} {object : Fragment} (hs : SparqlClient.Inlined subject)
    (hw : SparqlClient.Inlined way) (ho : object.Fits) :
    (along subject way object).Fits :=
  (ho.before ((hs.parts hw).leads links_blank)).after
    (trails_of_isInert (by decide) (by decide))

theorem optionally_from {os : List Owner} {f : Fragment} (h : From p os f) (optional : Bool) :
    From p os (optionally optional f) := by
  cases optional with
  | false => exact h
  | true => exact h.inBraces.before (leads_of_isInert (by decide))

theorem atTop_gives {q : String} {u : Unit} (hs : s.Inlined) (h : Gives (l.atTop q) s u t) :
    t.Inlined := by
  unfold Place.atTop at h
  split at h
  · rw [emit, modify_gives] at h
    rw [h]
    exact ⟨hs.subject, hs.refs, hs.needed⟩
  · rw [pure_gives] at h
    rw [h.2]
    exact hs

theorem columnPattern_from {c : Column} {optional : Bool} {part : Clauses} (hs : s.Inlined)
    (hc : c.Inlined) (h : Gives (columnPattern l c optional) s part t) :
    part.From l.prefixes [] ∧ t.Inlined := by
  rcases columnPattern_gives h with ⟨-, rfl, rfl⟩ | ⟨q, hq, hx, rfl⟩
  · exact ⟨.empty, hs⟩
  · have fits := along_fits hs.subject (hc.predicate q hq) (Fragment.fits_ofText hc.ref)
    exact ⟨.ofPattern (optionally_from (.of_plain fits rfl) optional), atTop_gives hs hx⟩

theorem columnTest_from {c : Column} {optional : Bool} {connector : Connector} {e : Fragment}
    {part : Clauses} {os : List Owner} (hs : s.Inlined) (hc : c.Inlined)
    (he : e ∈ part.tests.map Test.expression → From l.prefixes os e)
    (h : Gives (columnTest l c optional connector e) s part t) :
    part.From l.prefixes os ∧ t.Inlined := by
  obtain ⟨a, ha, rfl⟩ := columnTest_gives h
  obtain ⟨pattern, scope⟩ := columnPattern_from hs hc ha
  refine ⟨pattern.append (.ofTest connector (he ?_)), scope⟩
  simp [Clauses.append, Clauses.ofTest]

theorem owned {c : Condition} {part : Clauses} {f : Fragment} (h : Gives (condition l c) s part t)
    (fits : f.Fits) (values : f.bindings = c.values l.prefixes l.folded)
    (written : f ∈ part.patterns ∨ f ∈ part.tests.map Test.expression) :
    From l.prefixes (Owner.listed l.prefixes (.condition l.folded c)) f :=
  .of_owner fits values ⟨l.top, s, part, t, h, written⟩

theorem basic_from {column value : Value} {operator : String} {connector : Connector}
    {part : Clauses} (hs : s.Inlined)
    (assumed : (Condition.basic column operator value connector).Inlined l.prefixes l.folded)
    (h : Gives (condition l (.basic column operator value connector)) s part t) :
    part.From l.prefixes
        (Owner.listed l.prefixes (.condition l.folded (.basic column operator value connector))) ∧
      t.Inlined := by
  obtain ⟨c, u, o, hc, ho, cases⟩ := basic_gives h
  obtain ⟨column_assumed, operand_assumed⟩ := assumed
  obtain ⟨inlined, hv⟩ := resolve_inlined hs column_assumed hc
  have values : Condition.values l.prefixes l.folded (.basic column operator value connector) =
      o.kept value := by
    rw [Condition.values, ho]
  rcases cases with ⟨q, rfl, hq, -, rfl, rfl⟩ | ⟨-, e, he, last⟩
  · have fits := along_fits hv.subject (inlined.predicate q hq)
      (Write.operand_fits (operand_assumed _ ho))
    refine ⟨.ofPattern (owned h fits ?_ (.inl (List.mem_singleton.2 rfl))), hv⟩
    rw [values]
    exact Write.operand_bindings value
  · have fits := Write.test_fits inlined.ref (operand_assumed _ ho) he
    have kept := values ▸ Write.test_bindings he
    exact columnTest_from hv inlined (fun listed => owned h fits kept (.inr listed)) last

theorem path_from {path : String} {o : Operator} {value : Value} {connector : Connector}
    {part : Clauses} (hs : s.Inlined)
    (assumed : (Condition.path path o value connector).Inlined l.prefixes l.folded)
    (h : Gives (condition l (.path path o value connector)) s part t) :
    part.From l.prefixes
        (Owner.listed l.prefixes (.condition l.folded (.path path o value connector))) ∧
      t.Inlined := by
  obtain ⟨text, ht, cases⟩ := path_gives h
  obtain ⟨path_assumed, operand_assumed⟩ := assumed
  have way := path_assumed text ht
  rcases cases with ⟨matched, rfl, rfl⟩ | ⟨tested, ref, e, named, he, rfl⟩
  · rw [if_pos matched] at operand_assumed
    have fits := along_fits hs.subject way (Write.nodeOperand_fits operand_assumed)
    refine ⟨.ofPattern (owned h fits ?_ (.inl (List.mem_singleton.2 rfl))), hs⟩
    rw [Condition.values, if_pos matched]
    exact Write.nodeOperand_bindings value
  · rw [tested, if_neg Bool.false_ne_true] at operand_assumed
    obtain ⟨ref_inlined, hw⟩ := hs.variableFor text (Path.hint text)
    rw [named] at ref_inlined hw
    have fits := Write.test_fits ref_inlined operand_assumed he
    have pattern := along_fits hs.subject way (Fragment.fits_ofText ref_inlined)
    refine ⟨⟨[], _, .singleton (optionally_from (.of_plain pattern rfl) _),
      .singleton (owned h fits ?_ (.inr (List.mem_singleton.2 rfl))), .refl _⟩, hw⟩
    rw [Condition.values, tested, if_neg Bool.false_ne_true]
    exact Write.test_bindings he

theorem inlined_call {opening ref : String} (ho : Leads opening)
    (href : SparqlClient.Inlined ref) : SparqlClient.Inlined (opening ++ ref ++ ")") :=
  (ho.append_inlined href).append (trails_of_isInert (by decide) (by decide))

theorem groupText_from {kind : GroupKind} {os : List Owner} {inner f : Fragment}
    (h : From p os inner) (assumed : kind.Inlined p) (hf : groupText p kind inner = .ok f) :
    From p os f := by
  cases kind with
  | group =>
    obtain rfl := Except.ok.inj hf
    exact h.inBraces
  | optional =>
    obtain rfl := Except.ok.inj hf
    exact h.inBraces.before (leads_of_isInert (by decide))
  | minus =>
    obtain rfl := Except.ok.inj hf
    exact h.inBraces.before (leads_of_isInert (by decide))
  | service target =>
    rw [groupText] at hf
    split at hf
    · obtain rfl := Except.ok.inj hf
      exact h.inBraces.before
        (((leads_of_isInert (by decide)).append_inlined assumed).leads links_blank)
    · cases hf

mutual

theorem condition_from (l : Place) (c : Condition) {s t : Scope} {part : Clauses}
    (hs : s.Inlined) (assumed : c.Inlined l.prefixes l.folded)
    (h : Gives (condition l c) s part t) :
    part.From l.prefixes (c.owners l.prefixes l.folded) ∧ t.Inlined := by
  -- what an owner writes is said of the whole step, which is taken apart in each case
  have whole := h
  cases c with
  | basic column operator value connector => exact basic_from hs assumed h
  | within column values connector negated =>
    rw [condition] at h
    obtain ⟨c, u, hc, rest⟩ := bind_gives.1 h
    obtain ⟨inlined, hu⟩ := resolve_inlined hs assumed.1 hc
    have fits := Write.membership_fits inlined.ref assumed.2 negated
    have kept := Write.membership_bindings (p := l.prefixes) c.ref values negated
    exact columnTest_from hu inlined (fun listed => owned whole fits kept (.inr listed)) rest
  | between r =>
    rw [condition] at h
    obtain ⟨c, u, hc, rest⟩ := bind_gives.1 h
    obtain ⟨inlined, hu⟩ := resolve_inlined hs assumed.1 hc
    have fits := Write.range_fits inlined.ref assumed.2.1 assumed.2.2
    have kept := Write.range_bindings (p := l.prefixes) c.ref r
    exact columnTest_from hu inlined (fun listed => owned whole fits kept (.inr listed)) rest
  | null column connector =>
    rw [condition] at h
    obtain ⟨c, u, hc, rest⟩ := bind_gives.1 h
    obtain ⟨inlined, hu⟩ := resolve_inlined hs assumed hc
    have bound := inlined_call (leads_of_isInert (s := "!BOUND(") (by decide)) inlined.ref
    exact columnTest_from hu inlined (fun _ => .ofText bound) rest
  | notNull column connector =>
    obtain ⟨c, u, hc, ⟨-, rest⟩ | ⟨-, -, rest⟩⟩ := notNull_gives h
    all_goals obtain ⟨inlined, hu⟩ := resolve_inlined hs assumed hc
    · have bound := inlined_call (leads_of_isInert (s := "BOUND(") (by decide)) inlined.ref
      exact columnTest_from hu inlined (fun _ => .ofText bound) rest
    · exact columnPattern_from hu inlined rest
  | raw pattern =>
    rw [condition] at h
    obtain ⟨rfl, rfl⟩ := pure_gives.1 h
    exact ⟨.ofPattern (owned whole assumed rfl (.inl (List.mem_singleton.2 rfl))), hs⟩
  | filter expression connector =>
    rw [condition] at h
    obtain ⟨rfl, rfl⟩ := pure_gives.1 h
    have fits := (Fragment.Fits.before assumed (leads_of_isInert (s := "( ") (by decide))).after
      (trails_of_isInert (s := " )") (by decide) (by decide))
    exact ⟨.ofTest connector (owned whole fits rfl (.inr (List.mem_singleton.2 rfl))), hs⟩
  | triple subject pred object =>
    rw [condition] at h
    obtain ⟨rfl, rfl⟩ := pure_gives.1 h
    have fits := Write.triple_fits assumed.1 assumed.2.1 assumed.2.2
    have kept := Write.triple_bindings (p := l.prefixes) subject pred object
    exact ⟨.ofPattern (owned whole fits kept (.inl (List.mem_singleton.2 rfl))), hs⟩
  | group kind conditions =>
    rw [condition_group] at h
    obtain ⟨text, u, nested, braced⟩ := bind_gives.1 h
    obtain ⟨inner, compiled, rfl⟩ := blockAt_gives nested
    obtain ⟨f, w, written, last⟩ := bind_gives.1 braced
    obtain ⟨hw, rfl⟩ := lift_gives.1 written
    obtain ⟨rfl, rfl⟩ := pure_gives.1 last
    obtain ⟨from_inner, ht⟩ := all_from ⟨l.prefixes, _, false⟩ conditions hs assumed.2 compiled
    exact ⟨.ofPattern (groupText_from (from_inner.fragment _) assumed.1 hw), ht⟩
  | union branches =>
    rw [condition] at h
    obtain ⟨parts, u, compiled, last⟩ := bind_gives.1 h
    obtain ⟨rfl, rfl⟩ := pure_gives.1 last
    obtain ⟨from_parts, ht⟩ := blocks_from l.prefixes branches hs assumed compiled
    have joined := (from_parts.map fun a f hf => hf.inBraces).join
      (links_of_isInert (s := " UNION ") (by decide) (by decide))
    exact ⟨.ofPattern joined, ht⟩
  | «exists» conditions connector negated =>
    rw [condition_exists] at h
    obtain ⟨text, u, nested, last⟩ := bind_gives.1 h
    obtain ⟨inner, compiled, rfl⟩ := blockAt_gives nested
    obtain ⟨rfl, rfl⟩ := pure_gives.1 last
    obtain ⟨from_inner, ht⟩ := all_from ⟨l.prefixes, _, false⟩ conditions hs assumed compiled
    have keyword : Leads (if negated then "NOT EXISTS " else "EXISTS ") := by
      cases negated <;> exact leads_of_isInert (by decide)
    exact ⟨.ofTest connector ((from_inner.fragment _).inBraces.before keyword), ht⟩
  | path path o value connector => exact path_from hs assumed h
  | stray order =>
    rw [condition] at h
    obtain ⟨c, u, hc, rest⟩ := bind_gives.1 h
    cases (lift_gives.1 rest).1

theorem all_from (l : Place) (cs : List Condition) {s t : Scope} {part : Clauses}
    (hs : s.Inlined) (assumed : AllInlined l.prefixes l.folded cs)
    (h : Gives (all l cs) s part t) :
    part.From l.prefixes (ownersOfAll l.prefixes l.folded cs) ∧ t.Inlined := by
  match cs with
  | [] =>
    rw [all] at h
    obtain ⟨rfl, rfl⟩ := pure_gives.1 h
    exact ⟨.empty, hs⟩
  | c :: cs =>
    rw [all] at h
    obtain ⟨a, u, first, rest⟩ := bind_gives.1 h
    obtain ⟨b, v, others, last⟩ := bind_gives.1 rest
    obtain ⟨rfl, rfl⟩ := pure_gives.1 last
    obtain ⟨from_first, hu⟩ := condition_from l c hs assumed.1 first
    obtain ⟨from_others, ht⟩ := all_from l cs hu assumed.2 others
    exact ⟨from_first.append from_others, ht⟩

theorem blocks_from (p : Prefixes) (bs : List (List Condition)) {s t : Scope}
    {parts : List Fragment} (hs : s.Inlined) (assumed : BranchesInlined p bs)
    (h : Gives (blocks p bs) s parts t) :
    FromAll p (ownersOfBranches p bs) parts ∧ t.Inlined := by
  match bs with
  | [] =>
    rw [blocks] at h
    obtain ⟨rfl, rfl⟩ := pure_gives.1 h
    exact ⟨.nil, hs⟩
  | b :: bs =>
    rw [blocks_cons] at h
    obtain ⟨text, u, nested, rest⟩ := bind_gives.1 h
    obtain ⟨inner, compiled, rfl⟩ := blockAt_gives nested
    obtain ⟨parts, w, others, last⟩ := bind_gives.1 rest
    obtain ⟨rfl, rfl⟩ := pure_gives.1 last
    obtain ⟨from_inner, hv⟩ := all_from ⟨p, _, false⟩ b hs assumed.1 compiled
    obtain ⟨from_others, ht⟩ := blocks_from p bs hv assumed.2 others
    exact ⟨.cons (from_inner.fragment _) from_others, ht⟩

end

theorem block_from {cs : List Condition} {f : Fragment} (hs : s.Inlined)
    (assumed : AllInlined p (foldsTests cs) cs) (h : Gives (block p cs) s f t) :
    From p (ownersOfAll p (foldsTests cs) cs) f ∧ t.Inlined := by
  rw [block_eq] at h
  obtain ⟨inner, compiled, rfl⟩ := blockAt_gives h
  obtain ⟨from_inner, ht⟩ := all_from ⟨p, _, true⟩ cs hs assumed compiled
  exact ⟨from_inner.fragment _, ht⟩

end Compile

end SparqlClient
