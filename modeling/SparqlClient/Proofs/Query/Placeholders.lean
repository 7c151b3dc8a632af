import SparqlClient.Proofs.Query.Clauses

/-! Every form of a query has exactly the placeholders that its nodes wrote, and the values come in
the order of their placeholders, although patterns are written before tests and conditions on
groups behind everything else. -/

namespace SparqlClient

open Text

/-- A template of the caller is text, or triples whose parts are inlined one by one. -/
def Value.InlinedTemplate (p : Prefixes) (v : Value) : Prop :=
  match v.chars? with
  | some s => SparqlClient.Inlined (trim s)
  | none => ∀ triples, v.members = .ok triples → ∀ t ∈ triples, ∀ a b c,
    t.triple = .ok (a, b, c) → SparqlClient.Inlined (wrap p a) ∧
      SparqlClient.Inlined (Write.predicate p b) ∧ SparqlClient.Inlined (wrap p c)

namespace QuerySpec

def GraphInlined (q : QuerySpec) : Prop :=
  ∀ g, angledValue q.graph = .ok g → SparqlClient.Inlined g

def OrdersInlined (p : Prefixes) (q : QuerySpec) : Prop := ∀ o ∈ q.effectiveOrders, o.Inlined p

def Inlined (p : Prefixes) (q : QuerySpec) : Form → Prop
  | .select => q.BodyInlined p ∧ q.GraphInlined ∧ q.OrdersInlined p ∧ q.SelectionInlined p ∧
    (∀ v ∈ q.groups, v.InlinedColumn p) ∧ ∀ h ∈ q.havings, h.Inlined p
  | .ask => q.BodyInlined p ∧ q.GraphInlined
  | .construct template => q.BodyInlined p ∧ q.GraphInlined ∧ q.OrdersInlined p ∧
    template.InlinedTemplate p
  | .describe resources => (∀ vs, resources.members = .ok vs → ∀ v ∈ vs,
    SparqlClient.Inlined (wrap p v)) ∧
    (Compile.describesAlone q resources = false → q.BodyInlined p ∧ q.GraphInlined)
  | .insertWhere template => q.BodyInlined p ∧ q.GraphInlined ∧ template.InlinedTemplate p
  | .deleteWhere template => q.BodyInlined p ∧ q.GraphInlined ∧ template.InlinedTemplate p
  | .deleteInsert deleted inserted => q.BodyInlined p ∧ q.GraphInlined ∧
    deleted.InlinedTemplate p ∧ inserted.InlinedTemplate p

end QuerySpec

namespace Compile

variable {p : Prefixes} {s t : Scope} {q : QuerySpec}

theorem inlined_ofSubject (h : q.BodyInlined p) : (Scope.ofSubject q.subject).Inlined :=
  ⟨h.subject, by simp [Scope.ofSubject], by simp [Scope.ofSubject]⟩

theorem fromClause_inlined {text : String} (assumed : q.GraphInlined)
    (h : fromClause q = .ok text) : Inlined text := by
  unfold fromClause at h
  split at h
  · obtain ⟨g, hg, last⟩ := Outcome.bind_eq_ok_iff.1 h
    obtain rfl := Outcome.pure_eq_ok_iff.1 last
    exact (leads_of_isInert (by decide)).append_inlined (assumed g hg)
  · obtain rfl := Outcome.pure_eq_ok_iff.1 h
    exact inlined_empty

theorem graphClause_inlined {texts : List String} (assumed : q.GraphInlined)
    (h : graphClause q = .ok texts) : ∀ x ∈ texts, Inlined x := by
  unfold graphClause at h
  split at h
  · obtain ⟨g, hg, last⟩ := Outcome.bind_eq_ok_iff.1 h
    obtain rfl := Outcome.pure_eq_ok_iff.1 last
    rw [List.forall_mem_singleton]
    exact (leads_of_isInert (by decide)).append_inlined (assumed g hg)
  · obtain rfl := Outcome.pure_eq_ok_iff.1 h
    simp

theorem inlined_intText_max (n : Int) : Inlined (intText (max 0 n)) := by
  rw [intText, if_neg (by omega)]
  exact asks_of_isInert (isInert_of_isAsciiWord (isName_natText _).2)

theorem countText_inlined {v : Value} {text : String} (h : countText v = .ok text) :
    Inlined text := by
  unfold countText at h
  obtain ⟨n, -, last⟩ := Outcome.bind_eq_ok_iff.1 h
  simp only at last
  split at last
  · cases last
  · obtain rfl := Outcome.pure_eq_ok_iff.1 last
    exact inlined_intText_max n

theorem slicePart_inlined {keyword : String} (word : Leads keyword) {given : Bool} {count : Value}
    {texts : List String} (h : slicePart keyword given count = .ok texts) :
    ∀ x ∈ texts, Inlined x := by
  unfold slicePart at h
  split at h
  · obtain ⟨text, ht, last⟩ := Outcome.bind_eq_ok_iff.1 h
    obtain rfl := Outcome.pure_eq_ok_iff.1 last
    rw [List.forall_mem_singleton]
    exact word.append_inlined (countText_inlined ht)
  · obtain rfl := Outcome.pure_eq_ok_iff.1 h
    simp

theorem slice_inlined {texts : List String} (h : slice q = .ok texts) :
    ∀ x ∈ texts, Inlined x := by
  rw [slice_eq] at h
  obtain ⟨limit, hl, rest⟩ := Outcome.bind_eq_ok_iff.1 h
  obtain ⟨offset, ho, last⟩ := Outcome.bind_eq_ok_iff.1 rest
  obtain rfl := Outcome.pure_eq_ok_iff.1 last
  intro x hx
  rcases List.mem_append.1 hx with hx | hx
  · exact slicePart_inlined (leads_of_isInert (by decide)) hl x hx
  · exact slicePart_inlined (leads_of_isInert (by decide)) ho x hx

theorem template_inlined {v : Value} {text : String} (assumed : v.InlinedTemplate p)
    (h : template p v = .ok text) : Inlined text := by
  unfold template at h
  unfold Value.InlinedTemplate at assumed
  cases given : v.chars? with
  | some s =>
    rw [given] at h assumed
    obtain rfl := Except.ok.inj h
    exact assumed
  | none =>
    rw [given] at h assumed
    obtain ⟨triples, ht, rest⟩ := Outcome.bind_eq_ok_iff.1 h
    obtain ⟨lines, hl, last⟩ := Outcome.bind_eq_ok_iff.1 rest
    obtain rfl := Outcome.pure_eq_ok_iff.1 last
    refine inlined_intercalate links_blank (Outcome.forall_mem_of_mapM (fun t hx line hl => ?_) hl)
    obtain ⟨⟨a, b, c⟩, parts, last⟩ := Outcome.bind_eq_ok_iff.1 hl
    obtain rfl := Outcome.pure_eq_ok_iff.1 last
    obtain ⟨ha, hb, hc⟩ := assumed triples ht t hx a b c parts
    exact ((ha.parts hb).parts hc).append (trails_of_isInert (by decide) (by decide))

theorem templateClause_inlined {keyword : String} {v : Value} {texts : List String}
    (assumed : v.InlinedTemplate p) (word : Leads (keyword ++ " "))
    (h : templateClause p keyword v = .ok texts) : ∀ x ∈ texts, Inlined x := by
  unfold templateClause at h
  split at h
  · obtain rfl := Outcome.pure_eq_ok_iff.1 h
    simp
  · obtain ⟨text, ht, last⟩ := Outcome.bind_eq_ok_iff.1 h
    obtain rfl := Outcome.pure_eq_ok_iff.1 last
    rw [List.forall_mem_singleton]
    exact word.append_inlined (inlined_inBraces (template_inlined assumed ht))

theorem plain_from {texts : List String} (h : ∀ x ∈ texts, Inlined x) :
    FromAll p [] (plain texts) :=
  .plain (List.forall_mem_map.2 fun x hx => .ofText (h x hx))

theorem whereText_from {os : List Owner} {body : Fragment} (h : From p os body) :
    From p os (whereText body) :=
  h.inBraces.before (leads_of_isInert (by decide))

theorem anyTriple_gives {text : String} :
    Gives anyTriple s text t ↔ text = s.subject ++ " ?p ?o ." ∧ t = s := by
  simp only [anyTriple, bind_gives, get_gives, pure_gives]
  constructor
  · rintro ⟨_, _, ⟨rfl, rfl⟩, rfl, rfl⟩
    exact ⟨rfl, rfl⟩
  · rintro ⟨rfl, rfl⟩
    exact ⟨_, _, ⟨rfl, rfl⟩, rfl, rfl⟩

theorem inlined_anyTriple {subject : String} (h : Inlined subject) :
    Inlined (subject ++ " ?p ?o .") :=
  h.append (trails_of_isInert (by decide) (by decide))

theorem dropEndWhile_of_last {q : Char → Bool} {c : Char} (hc : q c = false) (s : List Char) :
    dropEndWhile q (s ++ [c]) = s ++ [c] := by
  simp [dropEndWhile, hc]

theorem trim_eq_trimStart {text : String} {s : List Char} {c : Char} (h : text.toList = s ++ [c])
    (hc : isBlank c = false) : trim text = trimStartOf isBlank text := by
  rw [trim, trimOf, trimStartOf, trimBy, h, List.dropWhile_append]
  split
  · simp [hc, dropEndWhile]
  · rw [dropEndWhile_of_last hc]

theorem withPattern_from {os : List Owner} {body : Fragment} {subject : String}
    (h : From p os body) (hs : Inlined subject) :
    From p os (withPattern body (subject ++ " ?p ?o .")) := by
  have behind : Trails (" " ++ (subject ++ " ?p ?o .")) :=
    links_blank.append_trails (inlined_anyTriple hs)
  have cut := (h.after behind).trimStart
  have whole : body.text ++ " " ++ (subject ++ " ?p ?o .") =
      (body ++ (" " ++ (subject ++ " ?p ?o ."))).text := by
    rw [Fragment.text_after, String.append_assoc]
  have last : (body ++ (" " ++ (subject ++ " ?p ?o ."))).text.toList =
      (body.text ++ " " ++ subject ++ " ?p ?o ").toList ++ ['.'] := by
    simp only [Fragment.text_after, String.toList_append, List.append_assoc]
    rfl
  rw [withPattern, whole, trim_eq_trimStart last (by decide)]
  exact cut

theorem select_from {f : Fragment} (hs : s.Inlined) (assumed : q.Inlined p .select)
    (h : Gives (select p q) s f t) : From p (q.owners p .select) f := by
  obtain ⟨body_assumed, graph, orders, selection, groups, havings⟩ := assumed
  obtain ⟨head, s₁, compiled_head, h₁⟩ := bind_gives.1 h
  obtain ⟨head_inlined, hs₁⟩ := selectClause_inlined hs selection compiled_head
  obtain ⟨group, s₂, compiled_groups, h₂⟩ := bind_gives.1 h₁
  obtain ⟨group_inlined, hs₂⟩ := groupClause_inlined hs₁ groups compiled_groups
  obtain ⟨having, s₃, compiled_havings, h₃⟩ := bind_gives.1 h₂
  obtain ⟨from_havings, hs₃⟩ := havingClause_from hs₂ havings compiled_havings
  obtain ⟨order, s₄, compiled_orders, h₄⟩ := bind_gives.1 h₃
  obtain ⟨order_inlined, hs₄⟩ := orderClause_inlined hs₃ orders compiled_orders
  obtain ⟨body, s₅, compiled_body, h₅⟩ := bind_gives.1 h₄
  obtain ⟨from_body, hs₅⟩ := body_from hs₄ body_assumed compiled_body
  obtain ⟨source, s₆, compiled_source, h₆⟩ := bind_gives.1 h₅
  obtain ⟨hg, rfl⟩ := lift_gives.1 compiled_source
  obtain ⟨slice, s₇, compiled_slice, last⟩ := bind_gives.1 h₆
  obtain ⟨hl, rfl⟩ := lift_gives.1 compiled_slice
  obtain ⟨rfl, rfl⟩ := pure_gives.1 last
  have parts := (FromAll.cons (.ofText head_inlined) (.cons (.ofText (fromClause_inlined graph hg))
    (.cons (whereText_from from_body) (.cons (.ofText group_inlined) (.cons from_havings
      (.singleton (.ofText order_inlined))))))).append (plain_from (slice_inlined hl))
  simp only [List.nil_append, List.append_nil] at parts
  exact parts.joinPresent links_blank

theorem ask_from {f : Fragment} (hs : s.Inlined) (assumed : q.Inlined p .ask)
    (h : Gives (ask p q) s f t) : From p (q.owners p .ask) f := by
  obtain ⟨body_assumed, graph⟩ := assumed
  obtain ⟨body, s₁, compiled_body, h₁⟩ := bind_gives.1 h
  obtain ⟨from_body, hs₁⟩ := body_from hs body_assumed compiled_body
  obtain ⟨source, s₂, compiled_source, last⟩ := bind_gives.1 h₁
  obtain ⟨hg, rfl⟩ := lift_gives.1 compiled_source
  obtain ⟨rfl, rfl⟩ := pure_gives.1 last
  have parts := FromAll.cons (.ofText (asks_of_isInert (s := "ASK".toList) (by decide)))
    (.cons (.ofText (fromClause_inlined graph hg)) (.singleton (whereText_from from_body)))
  exact parts.joinPresent links_blank

theorem constructParts_from {given : Value} {os : List Owner} {body : Fragment}
    {parts : String × Fragment} (hs : s.Inlined) (assumed : given.InlinedTemplate p)
    (hb : From p os body) (h : Gives (constructParts p given body) s parts t) :
    Inlined parts.1 ∧ From p os parts.2 := by
  unfold constructParts at h
  split at h
  · obtain ⟨pattern, u, written, last⟩ := bind_gives.1 h
    obtain ⟨rfl, rfl⟩ := anyTriple_gives.1 written
    obtain ⟨rfl, rfl⟩ := pure_gives.1 last
    exact ⟨inlined_anyTriple hs.subject, withPattern_from hb hs.subject⟩
  · obtain ⟨head, u, written, last⟩ := bind_gives.1 h
    obtain ⟨hh, rfl⟩ := lift_gives.1 written
    obtain ⟨rfl, rfl⟩ := pure_gives.1 last
    exact ⟨template_inlined assumed hh, hb⟩

theorem construct_from {f : Fragment} {given : Value} (hs : s.Inlined)
    (assumed : q.Inlined p (.construct given)) (h : Gives (construct p q given) s f t) :
    From p (q.owners p (.construct given)) f := by
  obtain ⟨body_assumed, graph, orders, template_assumed⟩ := assumed
  rw [construct_eq] at h
  obtain ⟨order, s₁, compiled_orders, h₁⟩ := bind_gives.1 h
  obtain ⟨order_inlined, hs₁⟩ := orderClause_inlined hs orders compiled_orders
  obtain ⟨body, s₂, compiled_body, h₂⟩ := bind_gives.1 h₁
  obtain ⟨from_body, hs₂⟩ := body_from hs₁ body_assumed compiled_body
  obtain ⟨parts, s₃, compiled_parts, h₃⟩ := bind_gives.1 h₂
  obtain ⟨head_inlined, from_where⟩ := constructParts_from hs₂ template_assumed from_body
    compiled_parts
  obtain ⟨source, s₄, compiled_source, h₄⟩ := bind_gives.1 h₃
  obtain ⟨hg, rfl⟩ := lift_gives.1 compiled_source
  obtain ⟨slice, s₅, compiled_slice, last⟩ := bind_gives.1 h₄
  obtain ⟨hl, rfl⟩ := lift_gives.1 compiled_slice
  obtain ⟨rfl, rfl⟩ := pure_gives.1 last
  have head : Inlined ("CONSTRUCT " ++ inBraces parts.1) :=
    (leads_of_isInert (by decide)).append_inlined (inlined_inBraces head_inlined)
  have listed := (FromAll.cons (.ofText head) (.cons (.ofText (fromClause_inlined graph hg))
    (.cons (whereText_from from_where) (.singleton (.ofText order_inlined))))).append
      (plain_from (slice_inlined hl))
  simp only [List.nil_append, List.append_nil] at listed
  exact listed.joinPresent links_blank

theorem describeTargets_inlined {resources : Value} {targets : String}
    (subject : resources.truth = false → Inlined s.subject)
    (members : ∀ vs, resources.members = .ok vs → ∀ v ∈ vs, Inlined (wrap p v))
    (h : Gives (describeTargets p resources) s targets t) : Inlined targets ∧ t = s := by
  unfold describeTargets at h
  split at h
  · obtain ⟨vs, u, read, last⟩ := bind_gives.1 h
    obtain ⟨hv, rfl⟩ := lift_gives.1 read
    obtain ⟨rfl, rfl⟩ := pure_gives.1 last
    exact ⟨inlined_intercalate links_blank (List.forall_mem_map.2 (members vs hv)), rfl⟩
  · rename_i none_given
    obtain ⟨u, v, read, last⟩ := bind_gives.1 h
    obtain ⟨rfl, rfl⟩ := get_gives.1 read
    obtain ⟨rfl, rfl⟩ := pure_gives.1 last
    exact ⟨subject (by simpa using none_given), rfl⟩

theorem describe_from {f : Fragment} {resources : Value} (hs : q.BodyInlined p → s.Inlined)
    (assumed : q.Inlined p (.describe resources)) (h : Gives (describe p q resources) s f t) :
    From p (q.owners p (.describe resources)) f := by
  obtain ⟨resources_assumed, body_assumed⟩ := assumed
  rw [describe_eq] at h
  obtain ⟨targets, s₁, compiled_targets, h₁⟩ := bind_gives.1 h
  obtain ⟨targets_inlined, rfl⟩ := describeTargets_inlined
    (fun none_given => (hs (body_assumed (by simp [describesAlone, none_given])).1).subject)
    resources_assumed compiled_targets
  have head : Inlined ("DESCRIBE " ++ targets) :=
    (leads_of_isInert (by decide)).append_inlined targets_inlined
  split at h₁
  · rename_i alone
    obtain ⟨rfl, rfl⟩ := pure_gives.1 h₁
    rw [QuerySpec.owners, if_pos alone]
    exact .ofText head
  · rename_i alone
    obtain ⟨body_assumed, graph⟩ := body_assumed (by simpa using alone)
    obtain ⟨body, s₂, compiled_body, h₂⟩ := bind_gives.1 h₁
    obtain ⟨from_body, hs₂⟩ := body_from (hs body_assumed) body_assumed compiled_body
    obtain ⟨source, s₃, compiled_source, h₃⟩ := bind_gives.1 h₂
    obtain ⟨hg, rfl⟩ := lift_gives.1 compiled_source
    obtain ⟨slice, s₄, compiled_slice, last⟩ := bind_gives.1 h₃
    obtain ⟨hl, rfl⟩ := lift_gives.1 compiled_slice
    obtain ⟨rfl, rfl⟩ := pure_gives.1 last
    rw [QuerySpec.owners, if_neg alone]
    have listed := (FromAll.cons (.ofText head) (.cons (.ofText (fromClause_inlined graph hg))
      (.singleton (whereText_from from_body)))).append (plain_from (slice_inlined hl))
    simp only [List.nil_append, List.append_nil] at listed
    exact listed.joinPresent links_blank

theorem modify_from {f : Fragment} {deleted inserted : Value} (hs : s.Inlined)
    (body_assumed : q.BodyInlined p) (graph : q.GraphInlined)
    (hd : deleted.InlinedTemplate p) (hi : inserted.InlinedTemplate p)
    (h : Gives (Compile.modify p q deleted inserted) s f t) : From p (q.bodyOwners p) f := by
  obtain ⟨body, s₁, compiled_body, h₁⟩ := bind_gives.1 h
  obtain ⟨from_body, hs₁⟩ := body_from hs body_assumed compiled_body
  obtain ⟨target, s₂, compiled_target, h₂⟩ := bind_gives.1 h₁
  obtain ⟨hg, rfl⟩ := lift_gives.1 compiled_target
  obtain ⟨delete, s₃, compiled_delete, h₃⟩ := bind_gives.1 h₂
  obtain ⟨delete_text, rfl⟩ := lift_gives.1 compiled_delete
  obtain ⟨insert, s₄, compiled_insert, h₄⟩ := bind_gives.1 h₃
  obtain ⟨insert_text, rfl⟩ := lift_gives.1 compiled_insert
  split at h₄
  · cases (lift_gives.1 h₄).1
  · obtain ⟨rfl, rfl⟩ := pure_gives.1 h₄
    have texts : ∀ x ∈ target ++ delete ++ insert, Inlined x := by
      simp only [List.forall_mem_append]
      exact ⟨⟨graphClause_inlined graph hg,
        templateClause_inlined hd (leads_of_isInert (by decide)) delete_text⟩,
        templateClause_inlined hi (leads_of_isInert (by decide)) insert_text⟩
    exact ((plain_from texts).append (.singleton (whereText_from from_body))).join links_blank

theorem deleteSubjects_from {f : Fragment} (hs : s.Inlined) (body_assumed : q.BodyInlined p)
    (graph : q.GraphInlined) (h : Gives (deleteSubjects p q) s f t) :
    From p (q.bodyOwners p) f := by
  obtain ⟨body, s₁, compiled_body, h₁⟩ := bind_gives.1 h
  obtain ⟨from_body, hs₁⟩ := body_from hs body_assumed compiled_body
  obtain ⟨target, s₂, compiled_target, h₂⟩ := bind_gives.1 h₁
  obtain ⟨hg, rfl⟩ := lift_gives.1 compiled_target
  obtain ⟨pattern, s₃, written, last⟩ := bind_gives.1 h₂
  obtain ⟨rfl, rfl⟩ := anyTriple_gives.1 written
  obtain ⟨rfl, rfl⟩ := pure_gives.1 last
  have delete : Inlined ("DELETE " ++ inBraces (t.subject ++ " ?p ?o .")) :=
    (leads_of_isInert (by decide)).append_inlined
      (inlined_inBraces (inlined_anyTriple hs₁.subject))
  have texts : ∀ x ∈ target ++ ["DELETE " ++ inBraces (t.subject ++ " ?p ?o .")], Inlined x :=
    List.forall_mem_append.2 ⟨graphClause_inlined graph hg, List.forall_mem_singleton.2 delete⟩
  exact ((plain_from texts).append
    (.singleton (whereText_from (withPattern_from from_body hs₁.subject)))).join links_blank

end Compile

/-- Every form is composed of inlined text and of what the owners of its values wrote. -/
theorem QuerySpec.write_from {p : Prefixes} {q : QuerySpec} {form : Form} {f : Fragment}
    (assumed : q.Inlined p form) (h : q.write p form = .ok f) : From p (q.owners p form) f := by
  have null_inlined : Value.null.InlinedTemplate p := by
    intro triples given
    cases given
  cases form with
  | select =>
    obtain ⟨t, ht⟩ := Compile.run_eq_ok h
    exact Compile.select_from (Compile.inlined_ofSubject assumed.1) assumed ht
  | ask =>
    obtain ⟨t, ht⟩ := Compile.run_eq_ok h
    exact Compile.ask_from (Compile.inlined_ofSubject assumed.1) assumed ht
  | construct template =>
    obtain ⟨t, ht⟩ := Compile.run_eq_ok h
    exact Compile.construct_from (Compile.inlined_ofSubject assumed.1) assumed ht
  | describe resources =>
    obtain ⟨t, ht⟩ := Compile.run_eq_ok h
    exact Compile.describe_from Compile.inlined_ofSubject assumed ht
  | insertWhere template =>
    obtain ⟨t, ht⟩ := Compile.run_eq_ok h
    exact Compile.modify_from (Compile.inlined_ofSubject assumed.1) assumed.1 assumed.2.1
      null_inlined assumed.2.2 ht
  | deleteWhere template =>
    obtain ⟨t, ht⟩ := Compile.run_eq_ok h
    split at ht
    · exact Compile.deleteSubjects_from (Compile.inlined_ofSubject assumed.1) assumed.1
        assumed.2.1 ht
    · exact Compile.modify_from (Compile.inlined_ofSubject assumed.1) assumed.1 assumed.2.1
        assumed.2.2 null_inlined ht
  | deleteInsert deleted inserted =>
    obtain ⟨t, ht⟩ := Compile.run_eq_ok h
    exact Compile.modify_from (Compile.inlined_ofSubject assumed.1) assumed.1 assumed.2.1
      assumed.2.2.1 assumed.2.2.2 ht

/-- From nought, placeholder `k` of the pieces is placeholder `i` of the piece `x`. -/
def PlaceholderAt (ps : List Piece) (k : Nat) (x : Piece) (i : Nat) : Prop :=
  ∃ before after, ps = before ++ x :: after ∧
    k = (before.flatMap fun y => tokens y.content.text.toList).count .placeholder + i ∧
    i < placeholders x.content.text.toList

theorem PlaceholderAt.cons {ps : List Piece} {k i : Nat} {x : Piece} (h : PlaceholderAt ps k x i)
    (y : Piece) : PlaceholderAt (y :: ps) (placeholders y.content.text.toList + k) x i := by
  obtain ⟨before, after, rfl, rfl, bound⟩ := h
  refine ⟨y :: before, after, rfl, ?_, bound⟩
  rw [List.flatMap_cons, List.count_append, Nat.add_assoc]
  rfl

theorem placeholderAt_of_lt {ps : List Piece} (fits : ∀ x ∈ ps, x.content.Fits) {k : Nat}
    (h : k < (ps.flatMap fun x => x.content.bindings).length) :
    ∃ x i, x ∈ ps ∧ PlaceholderAt ps k x i ∧ i < x.content.bindings.length ∧
      (ps.flatMap fun x => x.content.bindings)[k]? = x.content.bindings[i]? := by
  induction ps generalizing k with
  | nil => simp at h
  | cons y ps ih =>
    rw [List.forall_mem_cons] at fits
    have count := fits.1.count
    rw [List.flatMap_cons] at h ⊢
    by_cases first : k < y.content.bindings.length
    · refine ⟨y, k, List.mem_cons_self .., ⟨[], ps, rfl, by simp, by omega⟩, first, ?_⟩
      rw [List.getElem?_append_left first]
    -- the first piece has as many placeholders as values: the others are behind both
    · rw [List.length_append] at h
      obtain ⟨x, i, mem, place, bound, same⟩ := ih fits.2
        (show k - y.content.bindings.length < _ by omega)
      refine ⟨x, i, List.mem_cons_of_mem _ mem, ?_, bound, ?_⟩
      · have behind := place.cons y
        rwa [count, Nat.add_sub_cancel' (by omega)] at behind
      · rw [List.getElem?_append_right (by omega), same]

/-- Each binding is the value of the node that wrote its placeholder, and the scanner finds these
placeholders and no others. -/
theorem placeholders_write {p : Prefixes} {q : QuerySpec} {form : Form} {f : Fragment}
    (assumed : q.Inlined p form) (h : q.write p form = .ok f) :
    placeholders f.text.toList = f.bindings.length ∧
      ∃ ps, Composed p ps f ∧ (owners ps).Perm (q.owners p form) ∧
        ∀ k < f.bindings.length, ∃ x o i, PlaceholderAt ps k x i ∧ x.owner = some o ∧
          f.bindings[k]? = (o.values p)[i]? := by
  obtain ⟨ps, composed, listed⟩ := QuerySpec.write_from assumed h
  refine ⟨composed.fits.count, ps, composed, listed, ?_⟩
  intro k hk
  rw [composed.bindings] at hk
  obtain ⟨x, i, mem, place, bound, same⟩ :=
    placeholderAt_of_lt (fun x hx => (composed.written x hx).fits) hk
  have written := composed.written x mem
  cases owner : x.owner with
  | none =>
    rw [written.plain owner] at bound
    simp at bound
  | some o =>
    obtain ⟨-, values, -⟩ := written.owned o owner
    exact ⟨x, o, i, place, owner, by rw [composed.bindings, same, values]⟩

def interleaved : QuerySpec where
  subject := "s"
  wheres := [.filter ⟨"?a > ?", [.int 1]⟩ .and, .raw ⟨"?s ?p ?", [.int 2]⟩,
    .exists [.within (.text "?b") [.int 3, .int 4] .and false] .or true]
  binds := [⟨⟨"? + 1", [.int 6]⟩, "c"⟩]
  havings := [.raw ⟨"?n < ?", [.int 5]⟩ .and]

theorem placeholders_write_interleaved : ∃ f, interleaved.write .empty .select = .ok f ∧
    f.text = "SELECT * WHERE \x7b ?s ?p ? FILTER( ( ( ?a > ? ) || NOT EXISTS " ++
      "\x7b FILTER( ?b IN ( ? , ? ) ) \x7d ) ) BIND(? + 1 AS ?c) \x7d HAVING( ( ?n < ? ) )" ∧
    f.bindings = [.int 2, .int 1, .int 3, .int 4, .int 6, .int 5] ∧
    placeholders f.text.toList = f.bindings.length ∧
    ∃ ps, Composed .empty ps f ∧ (owners ps).Perm (interleaved.owners .empty .select) ∧
      ∀ k < f.bindings.length, ∃ x o i, PlaceholderAt ps k x i ∧ x.owner = some o ∧
        f.bindings[k]? = (o.values .empty)[i]? := by
  refine ⟨_, rfl, by decide +kernel, rfl, placeholders_write ?_ rfl⟩
  have fits (f : Fragment) (h : decide f.Fits = true) : f.Fits := of_decide_eq_true h
  have inlined (s : String) (h : decide (Inlined s) = true) : Inlined s := of_decide_eq_true h
  have wheres : AllInlined .empty true interleaved.wheres := by
    refine ⟨fits _ (by decide +kernel), fits _ (by decide +kernel), ⟨⟨?_, ?_⟩, trivial⟩, trivial⟩
    · exact inlined "?b" (by decide +kernel)
    · simp [Value.Inlined, Value.isInline]
  have body : interleaved.BodyInlined .empty := by
    refine ⟨inlined _ (by decide +kernel), ?_, wheres, ?_, ?_⟩
    · intro given
      cases given
    · rintro b (_ | ⟨_, ⟨⟩⟩)
      exact ⟨fits _ (by decide +kernel), inlined _ (by decide +kernel)⟩
    · rintro b ⟨⟩
  refine ⟨body, ?_, ?_, ?_, ?_, ?_⟩
  · intro g given
    cases given
  · rintro o ⟨⟩
  · rintro v ⟨⟩
  · rintro v ⟨⟩
  · rintro h (_ | ⟨_, ⟨⟩⟩)
    exact fits _ (by decide +kernel)

end SparqlClient
