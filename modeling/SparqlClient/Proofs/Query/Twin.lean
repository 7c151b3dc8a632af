import SparqlClient.Proofs.Query.Conditions
import SparqlClient.Proofs.Query.Parts

/-! Two queries written side by side. Twin fragments have the same text, and their values come in
pairs at the same positions; twin steps start from one scope and end in one scope, or fail with the
same error. -/

namespace SparqlClient

open Text

inductive Outcome.Agree {α β : Type} (R : α → β → Prop) : Outcome α → Outcome β → Prop
  | error (e : Error) : Agree R (.error e) (.error e)
  | ok {a : α} {b : β} (h : R a b) : Agree R (.ok a) (.ok b)

namespace Outcome.Agree

variable {α β γ δ : Type} {R : α → β → Prop} {S : γ → δ → Prop}

theorem refl (x : Outcome α) : Agree Eq x x := by
  cases x with
  | error e => exact .error e
  | ok a => exact .ok rfl

theorem imp {T : α → β → Prop} {x : Outcome α} {y : Outcome β} (h : Agree R x y)
    (weaker : ∀ a b, R a b → T a b) : Agree T x y := by
  cases h with
  | error e => exact .error e
  | ok h => exact .ok (weaker _ _ h)

theorem bind {x : Outcome α} {y : Outcome β} {f : α → Outcome γ} {g : β → Outcome δ}
    (h : Agree R x y) (step : ∀ a b, R a b → Agree S (f a) (g b)) :
    Agree S (x >>= f) (y >>= g) := by
  cases h with
  | error e => exact .error e
  | ok h => exact step _ _ h

theorem map {x : Outcome α} {y : Outcome β} {f : α → γ} {g : β → δ} (h : Agree R x y)
    (step : ∀ a b, R a b → S (f a) (g b)) : Agree S (x.map f) (y.map g) := by
  cases h with
  | error e => exact .error e
  | ok h => exact .ok (step _ _ h)

end Outcome.Agree

namespace Compile

variable {α β γ δ : Type} {R : α → β → Prop} {S : γ → δ → Prop}

/-- Two steps that agree from every scope, and leave the same scope behind. -/
def Agree (R : α → β → Prop) (m : Compile α) (n : Compile β) : Prop :=
  ∀ s, Outcome.Agree (fun x y => R x.1 y.1 ∧ y.2 = x.2) (StateT.run m s) (StateT.run n s)

namespace Agree

theorem refl (m : Compile α) : Agree Eq m m := fun s =>
  (Outcome.Agree.refl (StateT.run m s)).imp fun _ _ same => same ▸ ⟨rfl, rfl⟩

theorem pure {a : α} {b : β} (h : R a b) : Agree R (Pure.pure a) (Pure.pure b) := fun _ =>
  .ok ⟨h, rfl⟩

theorem bind {m : Compile α} {n : Compile β} {f : α → Compile γ} {g : β → Compile δ}
    (h : Agree R m n) (step : ∀ a b, R a b → Agree S (f a) (g b)) :
    Agree S (m >>= f) (n >>= g) := by
  intro s
  rw [StateT.run_bind, StateT.run_bind]
  refine (h s).bind ?_
  rintro ⟨a, t⟩ ⟨b, u⟩ ⟨related, same⟩
  obtain rfl : u = t := same
  exact step a b related u

theorem after (m : Compile α) {f : α → Compile γ} {g : α → Compile δ}
    (step : ∀ a, Agree S (f a) (g a)) : Agree S (m >>= f) (m >>= g) :=
  (refl m).bind fun a _ same => same ▸ step a

theorem afterLift (x : Outcome α) {f : α → Compile γ} {g : α → Compile δ}
    (step : ∀ a, x = .ok a → Agree S (f a) (g a)) :
    Agree S (liftM x >>= f) (liftM x >>= g) := by
  cases x with
  | error e => exact fun s => .error e
  | ok a => exact step a rfl

theorem lift {x : Outcome α} {y : Outcome β} (h : Outcome.Agree R x y) :
    Agree R (liftM x : Compile α) (liftM y : Compile β) := by
  cases h with
  | error e => exact fun s => .error e
  | ok h => exact pure h

end Agree

end Compile

namespace Fragment

/-- The same text, and values that are paired by their positions. -/
def Twin (pairs : List (Value × Value)) (f g : Fragment) : Prop :=
  g.text = f.text ∧ ∃ placed : List (Value × Value), placed.Perm pairs ∧
    f.bindings = placed.map Prod.fst ∧ g.bindings = placed.map Prod.snd

namespace Twin

variable {k j : List (Value × Value)} {f g f' g' : Fragment}

theorem of_bindings {vs ws : List Value} (text : g.text = f.text) (left : f.bindings = vs)
    (right : g.bindings = ws) (length : ws.length = vs.length) : Twin (vs.zip ws) f g :=
  ⟨text, _, .refl _, left.trans (List.map_fst_zip (by omega)).symm,
    right.trans (List.map_snd_zip (by omega)).symm⟩

theorem of_plain (h : f.bindings = []) : Twin [] f f := ⟨rfl, [], .refl _, h, h⟩

theorem ofText (s : String) : Twin [] (.ofText s) (.ofText s) := of_plain rfl

theorem perm (h : Twin k f g) (same : k.Perm j) : Twin j f g := by
  obtain ⟨text, placed, listed, left, right⟩ := h
  exact ⟨text, placed, listed.trans same, left, right⟩

theorem append (h : Twin k f g) (h' : Twin j f' g') : Twin (k ++ j) (f ++ f') (g ++ g') := by
  obtain ⟨text, placed, listed, left, right⟩ := h
  obtain ⟨text', placed', listed', left', right'⟩ := h'
  refine ⟨?_, placed ++ placed', listed.append listed', ?_, ?_⟩
  · rw [text_append, text_append, text, text']
  · rw [bindings_append, left, left', List.map_append]
  · rw [bindings_append, right, right', List.map_append]

theorem mapText (h : Twin k f g) (change : String → String) :
    Twin k ⟨change f.text, f.bindings⟩ ⟨change g.text, g.bindings⟩ :=
  ⟨congrArg change h.1, h.2⟩

theorem before (h : Twin k f g) (s : String) : Twin k (s ++ f) (s ++ g) := h.mapText (s ++ ·)

theorem after (h : Twin k f g) (s : String) : Twin k (f ++ s) (g ++ s) := h.mapText (· ++ s)

theorem inBraces (h : Twin k f g) : Twin k f.inBraces g.inBraces := h.mapText Text.inBraces

theorem bindings_eq_nil (h : Twin k f g) : f.bindings = [] ↔ k = [] := by
  obtain ⟨-, placed, listed, left, -⟩ := h
  rw [left, List.map_eq_nil_iff]
  constructor
  · rintro rfl
    exact listed.nil_eq.symm
  · rintro rfl
    exact listed.eq_nil

theorem isEmpty (h : Twin k f g) : g.bindings.isEmpty = f.bindings.isEmpty := by
  obtain ⟨-, placed, -, left, right⟩ := h
  rw [left, right, List.isEmpty_map, List.isEmpty_map]

end Twin

end Fragment

def Test.Twin (pairs : List (Value × Value)) (t u : Test) : Prop :=
  u.connector = t.connector ∧ t.expression.Twin pairs u.expression

inductive Twins {α : Type} (R : List (Value × Value) → α → α → Prop) :
    List (Value × Value) → List α → List α → Prop
  | nil : Twins R [] [] []
  | cons {k j : List (Value × Value)} {a b : α} {as bs : List α} (first : R k a b)
      (rest : Twins R j as bs) : Twins R (k ++ j) (a :: as) (b :: bs)

namespace Twins

variable {α β : Type} {R : List (Value × Value) → α → α → Prop}
  {S : List (Value × Value) → β → β → Prop} {k j : List (Value × Value)} {as bs cs ds : List α}

theorem singleton {a b : α} (h : R k a b) : Twins R k [a] [b] := by
  rw [← List.append_nil k]
  exact .cons h .nil

theorem append (h : Twins R k as bs) (h' : Twins R j cs ds) :
    Twins R (k ++ j) (as ++ cs) (bs ++ ds) := by
  induction h with
  | nil => exact h'
  | cons first _ ih =>
    rw [List.append_assoc]
    exact .cons first ih

theorem map {f : α → β} (h : Twins R k as bs) (keep : ∀ k a b, R k a b → S k (f a) (f b)) :
    Twins S k (as.map f) (bs.map f) := by
  induction h with
  | nil => exact .nil
  | cons first _ ih => exact .cons (keep _ _ _ first) ih

theorem same (h : ∀ a ∈ as, R [] a a) : Twins R [] as as := by
  induction as with
  | nil => exact .nil
  | cons a as ih =>
    rw [List.forall_mem_cons] at h
    exact .cons h.1 (ih h.2)

theorem isEmpty (h : Twins R k as bs) : bs.isEmpty = as.isEmpty := by
  cases h <;> rfl

variable {fs gs : List Fragment}

theorem texts (h : Twins Fragment.Twin k fs gs) : gs.map Fragment.text = fs.map Fragment.text := by
  induction h with
  | nil => rfl
  | cons first _ ih => rw [List.map_cons, List.map_cons, first.1, ih]

theorem bindings (h : Twins Fragment.Twin k fs gs) :
    ∃ placed : List (Value × Value), placed.Perm k ∧
      fs.flatMap Fragment.bindings = placed.map Prod.fst ∧
      gs.flatMap Fragment.bindings = placed.map Prod.snd := by
  induction h with
  | nil => exact ⟨[], .refl _, rfl, rfl⟩
  | cons first _ ih =>
    obtain ⟨-, placed, listed, left, right⟩ := first
    obtain ⟨others, listed', left', right'⟩ := ih
    refine ⟨placed ++ others, listed.append listed', ?_, ?_⟩
    · rw [List.flatMap_cons, left, left', List.map_append]
    · rw [List.flatMap_cons, right, right', List.map_append]

theorem join (h : Twins Fragment.Twin k fs gs) (sep : String) :
    Fragment.Twin k (.join sep fs) (.join sep gs) :=
  ⟨by rw [Fragment.text_join, Fragment.text_join, h.texts], h.bindings⟩

theorem joinPresent (h : Twins Fragment.Twin k fs gs) (sep : String) :
    Fragment.Twin k (.joinPresent sep fs) (.joinPresent sep gs) :=
  ⟨by rw [Fragment.joinPresent, Fragment.joinPresent, h.texts], h.bindings⟩

theorem dedupe (h : Twins Fragment.Twin k fs gs) (seen : List String) :
    Twins Fragment.Twin k (Clauses.dedupe seen fs) (Clauses.dedupe seen gs) := by
  induction h generalizing seen with
  | nil => exact .nil
  | @cons k j f g fs gs first _ ih =>
    rw [Clauses.dedupe, Clauses.dedupe, first.isEmpty, first.1]
    split
    · rename_i repeated
      rw [Bool.and_eq_true, List.isEmpty_iff] at repeated
      rw [first.bindings_eq_nil.1 repeated.1]
      exact ih seen
    · exact .cons first (ih _)

theorem foldTests {ts us : List Test} (h : Twins Test.Twin k ts us) :
    Fragment.Twin k (Clauses.foldTests ts) (Clauses.foldTests us) := by
  cases h with
  | nil => exact .ofText ""
  | @cons k j t u ts us first rest =>
    rw [Clauses.foldTests, Clauses.foldTests]
    obtain ⟨-, start⟩ := first
    generalize t.expression = e at start
    generalize u.expression = e' at start
    induction rest generalizing k e e' with
    | nil =>
      rw [List.append_nil]
      exact start
    | @cons k' j t u ts us second _ ih =>
      rw [List.foldl_cons, List.foldl_cons, ← List.append_assoc, second.1]
      exact ih _ _ (((start.after _).append second.2).before "( " |>.after " )")

theorem filters {ts us : List Test} (h : Twins Test.Twin k ts us) (folded : Bool) :
    Twins Fragment.Twin k (Clauses.filters folded ts) (Clauses.filters folded us) := by
  unfold Clauses.filters
  rw [h.isEmpty]
  split
  · exact .singleton (h.foldTests.before "FILTER( " |>.after " )")
  · exact h.map fun k t u twin => twin.2.before "FILTER( " |>.after " )"

end Twins

namespace Clauses

def Twin (pairs : List (Value × Value)) (c d : Clauses) : Prop :=
  ∃ k j, Twins Fragment.Twin k c.patterns d.patterns ∧ Twins Test.Twin j c.tests d.tests ∧
    (k ++ j).Perm pairs

namespace Twin

variable {k j : List (Value × Value)} {f g : Fragment} {c d c' d' : Clauses}

theorem empty : Twin [] .empty .empty := ⟨[], [], .nil, .nil, .refl _⟩

theorem ofPattern (h : f.Twin k g) : Twin k (.ofPattern f) (.ofPattern g) :=
  ⟨k, [], .singleton h, .nil, by simp⟩

theorem ofTest (connector : Connector) (h : f.Twin k g) :
    Twin k (.ofTest connector f) (.ofTest connector g) :=
  ⟨[], k, .nil, .singleton ⟨rfl, h⟩, .refl _⟩

theorem append (h : Twin k c d) (h' : Twin j c' d') :
    Twin (k ++ j) (c.append c') (d.append d') := by
  obtain ⟨k₁, k₂, patterns, tests, listed⟩ := h
  obtain ⟨j₁, j₂, patterns', tests', listed'⟩ := h'
  exact ⟨k₁ ++ j₁, k₂ ++ j₂, patterns.append patterns', tests.append tests',
    (perm_interchange k₁ j₁ k₂ j₂).trans (listed.append listed')⟩

theorem fragment (h : Twin k c d) (folded : Bool) :
    Fragment.Twin k (c.fragment folded) (d.fragment folded) := by
  obtain ⟨a, b, patterns, tests, listed⟩ := h
  exact (((patterns.dedupe []).append (tests.filters folded)).join " ").perm listed

end Twin

end Clauses

end SparqlClient
