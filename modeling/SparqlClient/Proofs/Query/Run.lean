import Mathlib.Data.List.Forall2
import SparqlClient.Query.Form

/-! Steps of a query under construction as relations between the scope before and the scope after.
A sequence of steps splits into its steps, and what each step keeps the sequence keeps. -/

namespace SparqlClient

theorem Outcome.bind_eq_ok_iff {α β : Type} {x : Outcome α} {f : α → Outcome β} {b : β} :
    x >>= f = .ok b ↔ ∃ a, x = .ok a ∧ f a = .ok b := by
  cases x <;> simp [bind, Except.bind]

theorem Outcome.map_eq_ok_iff {α β : Type} {x : Outcome α} {f : α → β} {b : β} :
    x.map f = .ok b ↔ ∃ a, x = .ok a ∧ f a = b := by
  cases x <;> simp [Except.map]

theorem Outcome.pure_eq_ok_iff {α : Type} {a b : α} : (pure a : Outcome α) = .ok b ↔ b = a := by
  simp [pure, Except.pure, eq_comm]

theorem Outcome.forall_mem_of_mapM {α β : Type} {P : β → Prop} {f : α → Outcome β} {l : List α}
    {bs : List β} (step : ∀ a ∈ l, ∀ b, f a = .ok b → P b) (h : l.mapM f = .ok bs) :
    ∀ b ∈ bs, P b := by
  induction l generalizing bs with
  | nil =>
    rw [List.mapM_nil, Outcome.pure_eq_ok_iff] at h
    simp [h]
  | cons a l ih =>
    rw [List.mapM_cons, Outcome.bind_eq_ok_iff] at h
    obtain ⟨b, hb, h⟩ := h
    obtain ⟨rest, hr, h⟩ := Outcome.bind_eq_ok_iff.1 h
    obtain rfl := Outcome.pure_eq_ok_iff.1 h
    rw [List.forall_mem_cons] at step
    exact List.forall_mem_cons.2 ⟨step.1 b hb, ih step.2 hr⟩

theorem Outcome.forall₂_of_mapM {α β : Type} {f : α → Outcome β} {l : List α} {bs : List β}
    (h : l.mapM f = .ok bs) : List.Forall₂ (fun a b => f a = .ok b) l bs := by
  induction l generalizing bs with
  | nil =>
    rw [List.mapM_nil, Outcome.pure_eq_ok_iff] at h
    exact h ▸ .nil
  | cons a l ih =>
    rw [List.mapM_cons, Outcome.bind_eq_ok_iff] at h
    obtain ⟨b, first, h⟩ := h
    obtain ⟨rest, others, h⟩ := Outcome.bind_eq_ok_iff.1 h
    obtain rfl := Outcome.pure_eq_ok_iff.1 h
    exact .cons first (ih others)

theorem forall₂_right {α β : Type} {P : β → Prop} {l : List α} {bs : List β}
    (h : List.Forall₂ (fun _ b => P b) l bs) : ∀ b ∈ bs, P b := by
  induction h with
  | nil => simp
  | cons first _ ih => exact List.forall_mem_cons.2 ⟨first, ih⟩

theorem forall₂_left {α β : Type} {R : α → β → Prop} {l : List α} {bs : List β}
    (h : List.Forall₂ R l bs) {a : α} (ha : a ∈ l) : ∃ b ∈ bs, R a b := by
  induction h with
  | nil => cases ha
  | cons first _ ih =>
    rcases List.mem_cons.1 ha with rfl | later
    · exact ⟨_, List.mem_cons_self .., first⟩
    · obtain ⟨b, hb, related⟩ := ih later
      exact ⟨b, List.mem_cons_of_mem _ hb, related⟩

theorem forall₂_of_forall_mem {α β : Type} {P : α → Prop} {R : α → β → Prop} {l : List α}
    {bs : List β} (h : List.Forall₂ (fun a b => P a → R a b) l bs) (all : ∀ a ∈ l, P a) :
    List.Forall₂ R l bs := by
  induction h with
  | nil => exact .nil
  | cons first _ ih =>
    rw [List.forall_mem_cons] at all
    exact .cons (first all.1) (ih all.2)

theorem forall₂_join {α β γ : Type} {R : α → β → Prop} {S : α → γ → Prop} {l : List α}
    {bs : List β} {cs : List γ} (h : List.Forall₂ R l bs) (k : List.Forall₂ S l cs) :
    List.Forall₂ (fun b c => ∃ a ∈ l, R a b ∧ S a c) bs cs := by
  induction h generalizing cs with
  | nil =>
    cases k
    exact .nil
  | cons first _ ih =>
    cases k with
    | cons second rest =>
      refine .cons ⟨_, List.mem_cons_self .., first, second⟩ ((ih rest).imp ?_)
      rintro b c ⟨a, member, both⟩
      exact ⟨a, List.mem_cons_of_mem _ member, both⟩

theorem perm_interchange {α : Type} (a b c d : List α) :
    ((a ++ b) ++ (c ++ d)).Perm ((a ++ c) ++ (b ++ d)) := by
  rw [List.append_assoc, List.append_assoc, List.perm_append_left_iff, ← List.append_assoc,
    ← List.append_assoc, List.perm_append_right_iff]
  exact List.perm_append_comm

inductive Form
  | select
  | ask
  | construct (template : Value)
  | describe (resources : Value)
  | insertWhere (template : Value)
  | deleteWhere (template : Value)
  | deleteInsert (deleted inserted : Value)

def QuerySpec.write (s : QuerySpec) (p : Prefixes) : Form → Outcome Fragment
  | .select => s.select p
  | .ask => s.ask p
  | .construct template => s.construct p template
  | .describe resources => s.describe p resources
  | .insertWhere template => s.insertWhere p template
  | .deleteWhere template => s.deleteWhere p template
  | .deleteInsert deleted inserted => s.deleteInsert p deleted inserted

/-- Whether a test after the first is joined by a disjunction. -/
def foldsTests (conditions : List Condition) : Bool :=
  ((conditions.filter (!·.isPattern)).drop 1).any (·.connector? = some .or)

theorem foldsTests_eq (conditions : List Condition) : foldsTests conditions =
    (((conditions.filter (!·.isPattern)).map (·.connector?)).drop 1).any (· = some .or) := by
  rw [foldsTests, ← List.map_drop, List.any_map]
  rfl

theorem anyOr_eq_ok {connectors : List (Option Connector)} {b : Bool}
    (h : anyOr connectors = .ok b) : connectors.any (· = some .or) = b := by
  induction connectors with
  | nil => exact Except.ok.inj h
  | cons c rest ih =>
    match c with
    | none => cases h
    | some .or => exact Except.ok.inj h
    | some .and => exact ih h

theorem isFolded_eq_ok {conditions : List Condition} {b : Bool}
    (h : isFolded conditions = .ok b) : b = foldsTests conditions := by
  rw [foldsTests_eq, ← List.map_drop, anyOr_eq_ok h]

/-- Both match or both test, and a test is joined like the other. -/
def Condition.MarkedLike (c d : Condition) : Prop :=
  d.isPattern = c.isPattern ∧ d.connector? = c.connector?

theorem connectors_eq {cs ds : List Condition} (h : List.Forall₂ Condition.MarkedLike cs ds) :
    (ds.filter (!·.isPattern)).map (·.connector?) =
      (cs.filter (!·.isPattern)).map (·.connector?) := by
  induction h with
  | nil => rfl
  | cons first _ ih =>
    obtain ⟨pattern, connector⟩ := first
    rw [List.filter_cons, List.filter_cons, pattern]
    split
    · rw [List.map_cons, List.map_cons, connector, ih]
    · exact ih

theorem isFolded_eq {cs ds : List Condition} (h : List.Forall₂ Condition.MarkedLike cs ds) :
    isFolded ds = isFolded cs := by
  rw [isFolded, isFolded, List.map_drop, List.map_drop, connectors_eq h]

namespace Compile

variable {α β : Type}

/-- From the scope `s` the step ends well, with the result `a` and the scope `t`. -/
def Gives (m : Compile α) (s : Scope) (a : α) (t : Scope) : Prop := StateT.run m s = .ok (a, t)

theorem pure_gives {a b : α} {s t : Scope} :
    Gives (pure a) s b t ↔ b = a ∧ t = s := by
  rw [Gives, StateT.run_pure]
  simp [pure, Except.pure, eq_comm]

theorem bind_gives {m : Compile α} {f : α → Compile β} {s t : Scope} {b : β} :
    Gives (m >>= f) s b t ↔ ∃ a u, Gives m s a u ∧ Gives (f a) u b t := by
  simp only [Gives, StateT.run_bind, Outcome.bind_eq_ok_iff, Prod.exists]

theorem lift_gives {x : Outcome α} {a : α} {s t : Scope} :
    Gives (liftM x) s a t ↔ x = .ok a ∧ t = s := by
  cases x with
  | error e => simp [Gives, liftM, monadLift, MonadLift.monadLift, StateT.lift, StateT.run, bind,
      Except.bind]
  | ok b => simp [Gives, liftM, monadLift, MonadLift.monadLift, StateT.lift, StateT.run, bind,
      Except.bind, pure, Except.pure, eq_comm]

theorem get_gives {a s t : Scope} : Gives get s a t ↔ a = s ∧ t = s := by
  simp [Gives, get, getThe, MonadStateOf.get, StateT.get, StateT.run, pure, Except.pure, eq_comm]

theorem modifyGet_gives {f : Scope → α × Scope} {s t : Scope} {a : α} :
    Gives (modifyGet f) s a t ↔ f s = (a, t) := by
  simp [Gives, modifyGet, MonadStateOf.modifyGet, StateT.modifyGet, StateT.run, pure, Except.pure]

theorem mapM_gives {I : Scope → Prop} {Q : α → β → Prop} {f : α → Compile β} {l : List α}
    (step : ∀ a ∈ l, ∀ s b t, I s → Gives (f a) s b t → I t ∧ Q a b) {s t : Scope}
    {bs : List β} (hs : I s) (h : Gives (l.mapM f) s bs t) : I t ∧ List.Forall₂ Q l bs := by
  induction l generalizing s bs with
  | nil =>
    rw [List.mapM_nil, pure_gives] at h
    obtain ⟨rfl, rfl⟩ := h
    exact ⟨hs, .nil⟩
  | cons a l ih =>
    rw [List.mapM_cons] at h
    obtain ⟨b, u, hb, h⟩ := bind_gives.1 h
    obtain ⟨rest, v, hr, h⟩ := bind_gives.1 h
    obtain ⟨rfl, rfl⟩ := pure_gives.1 h
    rw [List.forall_mem_cons] at step
    obtain ⟨hu, first⟩ := step.1 _ _ _ hs hb
    obtain ⟨hv, others⟩ := ih step.2 hu hr
    exact ⟨hv, .cons first others⟩

theorem run_eq_ok {s : QuerySpec} {form : Compile α} {a : α} (h : run s form = .ok a) :
    ∃ t, Gives form (.ofSubject s.subject) a t := by
  obtain ⟨⟨b, t⟩, hb, he⟩ := Outcome.map_eq_ok_iff.1 h
  obtain rfl : b = a := he
  exact ⟨t, hb⟩

end Compile

theorem modify_gives {f : Scope → Scope} {s t : Scope} {a : PUnit} :
    Compile.Gives (modify f) s a t ↔ t = f s := by
  simp [Compile.Gives, modify, modifyGet, MonadStateOf.modifyGet, StateT.modifyGet, StateT.run,
    pure, Except.pure, eq_comm]

end SparqlClient
