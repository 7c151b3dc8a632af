import SparqlClient.Proofs.Query.Admitted
import SparqlClient.Proofs.Query.Anchored
import SparqlClient.Proofs.Query.Placeholders

/-! The pattern that matches every triple of the subject, and that a graph or a deletion without a
template is made of. Its variables have fixed names, which are kept from the variables that are
made for predicates and paths. Main statement: if no text of the block names one of them, each
occurs once in the block, in this pattern, so that every solution of what stands in front of the
pattern goes together with every predicate and every object. -/

namespace SparqlClient

open Text

/-- The forms that match every triple of the subject if they have no template. -/
inductive OpenForm
  | construct
  | deleteWhere

namespace OpenForm

def form : OpenForm → Form
  | .construct => .construct .null
  | .deleteWhere => .deleteWhere .null

def keyword : OpenForm → String
  | .construct => "CONSTRUCT "
  | .deleteWhere => "DELETE "

def body (p : Prefixes) (q : QuerySpec) : OpenForm → Compile Fragment
  | .construct => do
    let _ ← Compile.orderClause p q
    Compile.body p q
  | .deleteWhere => Compile.body p q

end OpenForm

def openNames : List String := ["p", "o"]

namespace QuerySpec

def anyTriple (q : QuerySpec) : String := subjectVariable q.subject ++ " ?p ?o ."

def whereTexts (p : Prefixes) (q : QuerySpec) : OpenForm → List String
  | .construct => q.effectiveOrders.flatMap (Order.predicateTexts p) ++ q.bodyTexts p
  | .deleteWhere => q.bodyTexts p

end QuerySpec

theorem variableNames_trimStart (text : String) :
    variableNames (trimStartOf isBlank text) = variableNames text := by
  rw [variableNames, variableNames, trimStartOf, String.toList_ofList]
  induction text.toList with
  | nil => rfl
  | cons c s ih =>
    by_cases blank : isBlank c
    · have plain : Shape.isSigil c = false := by
        rw [Shape.isSigil, Bool.or_eq_false_iff, decide_eq_false_iff_not, decide_eq_false_iff_not]
        constructor <;> rintro rfl <;> exact absurd blank (by decide)
      rw [List.dropWhile_cons_of_pos blank, ih, bareText, bareText, tokens_cons_of_isBlank blank,
        List.map_cons, markedNames, Token.bare, plain, Bool.false_and, if_neg Bool.false_ne_true]
    · rw [List.dropWhile_cons_of_neg blank]

theorem variableNames_anyTriple : variableNames " ?p ?o ." = openNames := by decide +kernel

theorem backs_anyTriple : Backs (fun _ => True) " ?p ?o ." :=
  have trails : Trails " ?p ?o ." := trails_of_isInert (by decide) (by decide)
  ⟨⟨trails.inlined.closed, fun _ _ => trivial⟩, trails.breaks, by decide +kernel⟩

theorem Within.weaken {K : String → Prop} {s : String} (h : Within K s) :
    Within (fun _ => True) s :=
  ⟨h.closed, fun _ _ => trivial⟩

theorem variableNames_withPattern {K : String → Prop} {q : QuerySpec} {body : Fragment}
    (hb : Within K body.text) (hs : Within K (subjectVariable q.subject)) :
    variableNames (Compile.withPattern body q.anyTriple).text =
      variableNames body.text ++ (variableNames (subjectVariable q.subject) ++ openNames) := by
  have last : (body.text ++ " " ++ q.anyTriple).toList =
      (body.text ++ " " ++ (subjectVariable q.subject ++ " ?p ?o ")).toList ++ ['.'] := by
    simp only [QuerySpec.anyTriple, String.toList_append, List.append_assoc]
    rfl
  have front := spans_blank (K := fun _ => True)
  have subject := hs.weaken.append backs_anyTriple
  rw [Compile.withPattern, Compile.trim_eq_trimStart last (by decide), variableNames_trimStart,
    QuerySpec.anyTriple, String.append_assoc,
    variableNames_append (hb.weaken.scan (front.append_within subject))
      (.inr (front.append_within subject).starts),
    variableNames_append (front.scan _) (.inl front.ends),
    variableNames_append (hs.weaken.scan backs_anyTriple) (.inr backs_anyTriple.starts),
    variableNames_anyTriple, show variableNames " " = [] by decide +kernel, List.nil_append]

theorem exists_intercalate_suffix (sep : String) (a : List String) {l : List String}
    (hl : l ≠ []) : ∃ before,
      String.intercalate sep (a ++ l) = before ++ String.intercalate sep l := by
  by_cases empty : a = []
  · exact ⟨"", by rw [empty, List.nil_append, String.empty_append]⟩
  · exact ⟨_, String.intercalate_append_of_ne_nil empty hl⟩

theorem exists_intercalate_head (sep x : String) (b : List String) : ∃ after,
    String.intercalate sep (x :: b) = x ++ after := by
  cases b with
  | nil => exact ⟨"", by simp⟩
  | cons y b => exact ⟨_, by rw [String.intercalate_cons_cons, String.append_assoc]⟩

theorem exists_intercalate (sep : String) (a : List String) (x : String) (b : List String)
    (y : String) (c : List String) : ∃ before between after,
      String.intercalate sep (a ++ x :: (b ++ y :: c)) =
        before ++ x ++ between ++ y ++ after := by
  obtain ⟨before, front⟩ := exists_intercalate_suffix sep a (List.cons_ne_nil x (b ++ y :: c))
  obtain ⟨between, middle⟩ := exists_intercalate_suffix sep b (List.cons_ne_nil y c)
  obtain ⟨after, back⟩ := exists_intercalate_head sep y c
  refine ⟨before, sep ++ between, after, ?_⟩
  rw [front, String.intercalate_cons_of_ne_nil (by simp), middle, back]
  simp only [String.append_assoc]

theorem exists_joinPresent (a : List Fragment) {x : Fragment} (hx : x.text ≠ "")
    (b : List Fragment) {y : Fragment} (hy : y.text ≠ "") (c : List Fragment) :
    ∃ before between after, (Fragment.joinPresent " " (a ++ x :: (b ++ y :: c))).text =
      before ++ x.text ++ between ++ y.text ++ after := by
  have present (fs : List Fragment) {f : Fragment} (hf : f.text ≠ "") (gs : List Fragment) :
      ((fs ++ f :: gs).map Fragment.text).filter (· ≠ "") =
        (fs.map Fragment.text).filter (· ≠ "") ++
          f.text :: (gs.map Fragment.text).filter (· ≠ "") := by
    simp [hf]
  rw [Fragment.joinPresent, present a hx, present b hy]
  exact exists_intercalate ..

namespace Compile

variable {p : Prefixes} {q : QuerySpec} {s t : Scope} {f : Fragment}

theorem run_of_gives {α : Type} {form : Compile α} {a : α}
    (h : Gives form (.ofSubject q.subject) a t) : run q form = .ok a :=
  Outcome.map_eq_ok_iff.2 ⟨(a, t), h, rfl⟩

/-- The pattern stands in the head, between braces, and behind the block. -/
def Matches (q : QuerySpec) (form : OpenForm) (body f : Fragment) : Prop :=
  ∃ before between after, f.text = before ++ (form.keyword ++ inBraces q.anyTriple) ++ between ++
    (whereText (withPattern body q.anyTriple)).text ++ after

theorem deleteSubjects_matches (h : Gives (deleteSubjects p q) (.ofSubject q.subject) f t) :
    ∃ body, run q (OpenForm.deleteWhere.body p q) = .ok body ∧ Matches q .deleteWhere body f := by
  obtain ⟨body, s₁, compiled, h₁⟩ := bind_gives.1 h
  obtain ⟨same, -⟩ := body_anchored (by rintro e ⟨⟩) rfl rfl compiled
  obtain ⟨graph, s₂, said, h₂⟩ := bind_gives.1 h₁
  obtain ⟨-, rfl⟩ := lift_gives.1 said
  obtain ⟨pattern, s₃, written, last⟩ := bind_gives.1 h₂
  obtain ⟨rfl, rfl⟩ := anyTriple_gives.1 written
  obtain ⟨rfl, rfl⟩ := pure_gives.1 last
  refine ⟨body, run_of_gives compiled, ?_⟩
  have pattern : t.subject ++ " ?p ?o ." = q.anyTriple := by rw [same]; rfl
  obtain ⟨before, between, after, split⟩ := exists_intercalate " " graph
    ("DELETE " ++ inBraces q.anyTriple) [] (whereText (withPattern body q.anyTriple)).text []
  refine ⟨before, between, after, ?_⟩
  rw [pattern, text_join_plain, OpenForm.keyword, ← split, List.append_assoc]
  rfl

theorem construct_matches (h : Gives (construct p q .null) (.ofSubject q.subject) f t) :
    ∃ body, run q (OpenForm.construct.body p q) = .ok body ∧ Matches q .construct body f := by
  rw [construct_eq] at h
  obtain ⟨orders, s₁, compiled_orders, h₁⟩ := bind_gives.1 h
  obtain ⟨grown, -⟩ := orderClause_wants compiled_orders
  obtain ⟨body, s₂, compiled, h₂⟩ := bind_gives.1 h₁
  obtain ⟨same, -⟩ := body_anchored (grown.named (by rintro e ⟨⟩)) (grown.emitted_eq_nil rfl)
    grown.subject compiled
  obtain ⟨parts, s₃, compiled_parts, h₃⟩ := bind_gives.1 h₂
  obtain ⟨pattern, s₄, written, made⟩ := bind_gives.1 compiled_parts
  obtain ⟨rfl, rfl⟩ := anyTriple_gives.1 written
  obtain ⟨rfl, rfl⟩ := pure_gives.1 made
  obtain ⟨source, s₅, compiled_source, h₄⟩ := bind_gives.1 h₃
  obtain ⟨-, rfl⟩ := lift_gives.1 compiled_source
  obtain ⟨slice, s₆, compiled_slice, last⟩ := bind_gives.1 h₄
  obtain ⟨-, rfl⟩ := lift_gives.1 compiled_slice
  obtain ⟨rfl, rfl⟩ := pure_gives.1 last
  refine ⟨body, run_of_gives (bind_gives.2 ⟨orders, s₁, compiled_orders, compiled⟩), ?_⟩
  have pattern : t.subject ++ " ?p ?o ." = q.anyTriple := by rw [same, grown.subject]; rfl
  have head : (Fragment.ofText ("CONSTRUCT " ++ inBraces q.anyTriple)).text ≠ "" := by simp
  have block : (whereText (withPattern body q.anyTriple)).text ≠ "" := by simp [whereText]
  rw [pattern]
  exact exists_joinPresent [] head [.ofText source] block (.ofText orders :: plain slice)

theorem run_body_within {K : String → Prop} {form : OpenForm} {body : Fragment}
    (texts : ∀ x ∈ q.whereTexts p form, Within K x)
    (free : ∀ name, name ∉ (Scope.ofSubject q.subject).taken → K name)
    (h : run q (form.body p q) = .ok body) :
    Within K body.text ∧ Within K (subjectVariable q.subject) := by
  obtain ⟨t, ht⟩ := run_eq_ok h
  cases form with
  | construct =>
    rw [QuerySpec.whereTexts, List.forall_mem_append] at texts
    have subject := texts.2 _ (List.mem_cons_self ..)
    obtain ⟨orders, u, compiled_orders, compiled⟩ := bind_gives.1 ht
    have hu := orderClause_admitted (admitted_ofSubject subject free) texts.1 compiled_orders
    exact ⟨body_within hu texts.2 compiled, subject⟩
  | deleteWhere =>
    have subject := texts _ (List.mem_cons_self ..)
    exact ⟨body_within (admitted_ofSubject subject free) texts ht, subject⟩

end Compile

theorem QuerySpec.write_matches {p : Prefixes} {q : QuerySpec} {form : OpenForm} {f : Fragment}
    (h : q.write p form.form = .ok f) :
    ∃ body, Compile.run q (form.body p q) = .ok body ∧ Compile.Matches q form body f := by
  cases form with
  | construct =>
    obtain ⟨t, ht⟩ := Compile.run_eq_ok h
    exact Compile.construct_matches ht
  | deleteWhere =>
    obtain ⟨t, ht⟩ := Compile.run_eq_ok h
    exact Compile.deleteSubjects_matches ht

def Extends {α : Type} (μ ν : String → Option α) : Prop := ∀ v x, μ v = some x → ν v = some x

theorem exists_extends {α : Type} {μ : String → Option α} (predicate : μ "p" = none)
    (object : μ "o" = none) (x y : α) :
    ∃ ν, Extends μ ν ∧ ν "p" = some x ∧ ν "o" = some y := by
  refine ⟨fun v => if v = "p" then some x else if v = "o" then some y else μ v, ?_, rfl, rfl⟩
  intro v z bound
  have other_p : v ≠ "p" := by
    rintro rfl
    simp [predicate] at bound
  have other_o : v ≠ "o" := by
    rintro rfl
    simp [object] at bound
  simpa [other_p, other_o] using bound

/-- Unless a text of the block names one of them, the predicate and the object of the pattern occur
in the block once each, so that the pattern ranges over every triple of each subject. -/
theorem QuerySpec.ranges_over_triples {p : Prefixes} {q : QuerySpec} {form : OpenForm}
    {f : Fragment} (texts : ∀ s ∈ q.whereTexts p form, Within (· ∉ openNames) s)
    (h : q.write p form.form = .ok f) :
    ∃ body, Compile.run q (form.body p q) = .ok body ∧ Compile.Matches q form body f ∧
      variableNames (Compile.withPattern body q.anyTriple).text =
        variableNames body.text ++ (variableNames (subjectVariable q.subject) ++ openNames) ∧
      (∀ v ∈ openNames,
        (variableNames (Compile.withPattern body q.anyTriple).text).count v = 1) ∧
      ∀ (α : Type) (μ : String → Option α),
        (∀ v, μ v ≠ none → v ∈ variableNames body.text ++
          variableNames (subjectVariable q.subject)) →
        ∀ x y, ∃ ν, Extends μ ν ∧ ν "p" = some x ∧ ν "o" = some y := by
  obtain ⟨body, ran, shape⟩ := QuerySpec.write_matches h
  have free (name : String) (unused : name ∉ (Scope.ofSubject q.subject).taken) :
      name ∉ openNames := by
    intro named
    exact unused (List.mem_cons_of_mem _ (List.mem_cons_of_mem _ named))
  obtain ⟨hb, hs⟩ := Compile.run_body_within texts free ran
  have names := variableNames_withPattern hb hs
  have front (v : String) (named : v ∈ openNames) :
      v ∉ variableNames body.text ++ variableNames (subjectVariable q.subject) := by
    rw [List.mem_append]
    rintro (member | member)
    · exact hb.names v member named
    · exact hs.names v member named
  refine ⟨body, ran, shape, names, fun v named => ?_, fun α μ bound x y => ?_⟩
  · rw [names, ← List.append_assoc, List.count_append, List.count_eq_zero.2 (front v named)]
    revert v
    decide
  · have unbound (v : String) (named : v ∈ openNames) : μ v = none := by
      by_contra some_value
      exact front v named (bound v some_value)
    exact exists_extends (unbound "p" (by decide)) (unbound "o" (by decide)) x y

def sorted : QuerySpec where
  subject := "s"
  wheres := [.triple (.text "?s") (.text "http://e/knows") (.text "?friend"),
    .filter ⟨"?friend != ?", [.int 1]⟩ .and]
  orders := [⟨.text "http://e/p", some "asc"⟩]

theorem ranges_over_triples_sorted : ∃ f, sorted.write .empty (.construct .null) = .ok f ∧
    f.text = "CONSTRUCT \x7b ?s ?p ?o . \x7d WHERE \x7b ?s <http://e/knows> ?friend . " ++
      "FILTER( ( ?friend != ? ) ) OPTIONAL \x7b ?s <http://e/p> ?p2 . \x7d ?s ?p ?o . \x7d " ++
      "ORDER BY ASC(?p2)" ∧
    (∀ s ∈ sorted.whereTexts .empty .construct, Within (· ∉ openNames) s) ∧
    ∃ body, Compile.run sorted (OpenForm.construct.body .empty sorted) = .ok body ∧
      Compile.Matches sorted .construct body f ∧
      ∀ v ∈ openNames,
        (variableNames (Compile.withPattern body sorted.anyTriple).text).count v = 1 := by
  have texts : ∀ s ∈ sorted.whereTexts .empty .construct, Within (· ∉ openNames) s := by
    decide +kernel
  obtain ⟨body, ran, shape, -, once, -⟩ := QuerySpec.ranges_over_triples texts rfl
  exact ⟨_, rfl, by decide +kernel, texts, body, ran, shape, once⟩

def acquainted : QuerySpec where
  subject := "s"
  wheres := [.triple (.text "?s") (.text "http://xmlns.com/foaf/0.1/knows") (.text "?o")]

/-- A variable of the caller has the name of the pattern's object, so that a triple with another
object than one that the subject knows is not matched. -/
theorem exists_clash : ∃ f body, acquainted.write .empty (.deleteWhere .null) = .ok f ∧
    f.text = "DELETE \x7b ?s ?p ?o . \x7d " ++
      "WHERE \x7b ?s <http://xmlns.com/foaf/0.1/knows> ?o . ?s ?p ?o . \x7d" ∧
    Compile.run acquainted (OpenForm.deleteWhere.body .empty acquainted) = .ok body ∧
    variableNames body.text = ["s", "o"] ∧
    (variableNames (Compile.withPattern body acquainted.anyTriple).text).count "o" = 2 ∧
    ∃ μ : String → Option Nat, (∀ v, μ v ≠ none → v ∈ variableNames body.text) ∧
      ¬∃ ν, Extends μ ν ∧ ν "o" = some 2 := by
  have block : (Compile.run acquainted (OpenForm.deleteWhere.body .empty acquainted)).toOption.map
      Fragment.text = some "?s <http://xmlns.com/foaf/0.1/knows> ?o ." := by decide +kernel
  cases ran : Compile.run acquainted (OpenForm.deleteWhere.body .empty acquainted) with
  | error e =>
    rw [ran] at block
    cases block
  | ok body =>
    rw [ran] at block
    have text : body.text = "?s <http://xmlns.com/foaf/0.1/knows> ?o ." := Option.some.inj block
    have names : variableNames body.text = ["s", "o"] := by
      rw [text]
      decide +kernel
    refine ⟨_, body, rfl, by decide +kernel, rfl, names, ?_,
      fun v => if v = "o" then some 1 else none, ?_, ?_⟩
    · change (variableNames (trim (body.text ++ " " ++ acquainted.anyTriple))).count "o" = 2
      rw [text]
      decide +kernel
    · intro v bound
      rw [names]
      by_cases object : v = "o"
      · simp [object]
      · simp [object] at bound
    · rintro ⟨ν, kept, other⟩
      rw [kept "o" 1 (by simp)] at other
      cases other

end SparqlClient
