import SparqlClient.Proofs.Query.Conditions
import SparqlClient.Proofs.Query.Parts

/-! Queries whose columns are exchanged for others that mean the same. Each step of the one ends
well where the step of the other does, with the same result and the same scope. Errors are left
out: the one of a datatype test shows the column as it was given. -/

namespace SparqlClient

section

variable (R : Value → Value → Prop)

mutual

/-- Equal but for the columns, which `R` relates, however deep they stand. -/
def Condition.Exchanged : Condition → Condition → Prop
  | .basic column operator value connector, d =>
    ∃ w, d = .basic w operator value connector ∧ R column w
  | .within column values connector negated, d =>
    ∃ w, d = .within w values connector negated ∧ R column w
  | .between r, d => ∃ w, d = .between { r with column := w } ∧ R r.column w
  | .null column connector, d => ∃ w, d = .null w connector ∧ R column w
  | .notNull column connector, d => ∃ w, d = .notNull w connector ∧ R column w
  | .group kind conditions, d => ∃ ds, d = .group kind ds ∧ AllExchanged conditions ds
  | .union branches, d => ∃ ds, d = .union ds ∧ BranchesExchanged branches ds
  | .exists conditions connector negated, d => ∃ ds, d = .exists ds connector negated ∧
    AllExchanged conditions ds
  | c, d => d = c

def AllExchanged : List Condition → List Condition → Prop
  | [], ds => ds = []
  | c :: cs, ds => ∃ d rest, ds = d :: rest ∧ c.Exchanged d ∧ AllExchanged cs rest

def BranchesExchanged : List (List Condition) → List (List Condition) → Prop
  | [], ds => ds = []
  | b :: bs, ds => ∃ d rest, ds = d :: rest ∧ AllExchanged b d ∧ BranchesExchanged bs rest

end

def Having.Exchanged : Having → Having → Prop
  | .test column operator value connector, h =>
    ∃ w, h = .test w operator value connector ∧ R column w
  | .raw expression connector, h => h = .raw expression connector

def Order.Exchanged (o d : Order) : Prop :=
  d = o ∨ o.direction ≠ none ∧ ∃ w, d = { o with column := w } ∧ R o.column w

def Aggregate.Exchanged (a b : Aggregate) : Prop := ∃ w, b = { a with column := w } ∧ R a.column w

structure QuerySpec.Exchanged (q r : QuerySpec) : Prop where
  rest : r = { q with
    columns := r.columns, wheres := r.wheres, groups := r.groups, havings := r.havings,
    orders := r.orders, aggregate := r.aggregate }
  columns : List.Forall₂ R q.columns r.columns
  wheres : AllExchanged R q.wheres r.wheres
  groups : List.Forall₂ R q.groups r.groups
  havings : List.Forall₂ (Having.Exchanged R) q.havings r.havings
  orders : List.Forall₂ (Order.Exchanged R) q.orders r.orders
  aggregate : Option.Rel (Aggregate.Exchanged R) q.aggregate r.aggregate

end

variable {R : Value → Value → Prop} {p : Prefixes}

theorem Condition.Exchanged.marks {c d : Condition} (h : c.Exchanged R d) : c.MarkedLike d := by
  cases c with
  | basic => obtain ⟨w, rfl, -⟩ := h; exact ⟨rfl, rfl⟩
  | within => obtain ⟨w, rfl, -⟩ := h; exact ⟨rfl, rfl⟩
  | between => obtain ⟨w, rfl, -⟩ := h; exact ⟨rfl, rfl⟩
  | null => obtain ⟨w, rfl, -⟩ := h; exact ⟨rfl, rfl⟩
  | notNull => obtain ⟨w, rfl, -⟩ := h; exact ⟨rfl, rfl⟩
  | group => obtain ⟨ds, rfl, -⟩ := h; exact ⟨rfl, rfl⟩
  | union => obtain ⟨ds, rfl, -⟩ := h; exact ⟨rfl, rfl⟩
  | «exists» => obtain ⟨ds, rfl, -⟩ := h; exact ⟨rfl, rfl⟩
  | _ => obtain rfl := h; exact ⟨rfl, rfl⟩

theorem AllExchanged.marks {cs ds : List Condition} (h : AllExchanged R cs ds) :
    List.Forall₂ Condition.MarkedLike cs ds := by
  induction cs generalizing ds with
  | nil =>
    obtain rfl := h
    exact .nil
  | cons c cs ih =>
    obtain ⟨d, rest, rfl, first, others⟩ := h
    exact .cons first.marks (ih others)

namespace Compile

variable {α β : Type}

/-- Two steps that end well from the same scopes, with the same results. -/
def Same (m n : Compile α) : Prop := ∀ s a t, Gives m s a t ↔ Gives n s a t

namespace Same

variable {m n : Compile α} {f g : α → Compile β}

theorem refl (m : Compile α) : Same m m := fun _ _ _ => .rfl

theorem bind (h : Same m n) (each : ∀ a, Same (f a) (g a)) : Same (m >>= f) (n >>= g) := by
  intro s b t
  rw [bind_gives, bind_gives]
  exact exists₂_congr fun a u => and_congr (h s a u) (each a u b t)

theorem after (m : Compile α) (each : ∀ a, Same (f a) (g a)) : Same (m >>= f) (m >>= g) :=
  (refl m).bind each

theorem followed (h : Same m n) (f : α → Compile β) : Same (m >>= f) (n >>= f) :=
  h.bind fun a => refl (f a)

theorem lift {x y : Outcome α} (h : ∀ a, x = .ok a ↔ y = .ok a) :
    Same (liftM x : Compile α) (liftM y) := by
  intro s a t
  rw [lift_gives, lift_gives, h]

theorem run (h : Same m n) {q r : QuerySpec} (subject : r.subject = q.subject) (a : α) :
    Compile.run q m = .ok a ↔ Compile.run r n = .ok a := by
  simp only [Compile.run, Outcome.map_eq_ok_iff, Prod.exists, subject]
  exact exists₂_congr fun b t => and_congr_left fun _ => h _ b t

end Same

/-- Columns that every clause writes in the same way. -/
structure Interchangeable (p : Prefixes) (v w : Value) : Prop where
  resolve : Compile.resolve p w = Compile.resolve p v
  selected : column p w = column p v
  star : isStar w = isStar v
  null : w.isNull = v.isNull

variable {l : Place}

theorem Interchangeable.need {v w : Value} (h : Interchangeable p v w) (optional : Bool) :
    need p w optional = need p v optional := by
  rw [Compile.need, Compile.need, h.resolve]

theorem test_relabelled (ref : String) (o : Operator) (v label other : Value) (f : Fragment) :
    Write.test p ref o v label = .ok f ↔ Write.test p ref o v other = .ok f := by
  cases o with
  | datatype =>
    simp only [Write.test]
    by_cases resource : (classify (some p) v).isResource
    · rw [if_pos resource, if_pos resource]
    · rw [if_neg resource, if_neg resource]
      constructor <;> intro h <;> cases h
  | _ => rfl

theorem basic_same {v w : Value} (h : Interchangeable l.prefixes v w) (operator : String)
    (value : Value) (connector : Connector) :
    Same (basic l v operator value connector) (basic l w operator value connector) := by
  unfold basic
  rw [h.resolve]
  refine .after _ fun c => .after _ fun o => ?_
  split
  · exact .refl _
  · exact (Same.lift (test_relabelled _ _ _ _ _)).followed _

theorem blockAt_same {top : Bool} {cs ds : List Condition} (h : AllExchanged R cs ds)
    (inner : ∀ folded, Same (all ⟨p, folded, top⟩ cs) (all ⟨p, folded, top⟩ ds)) :
    Same (blockAt p top cs) (blockAt p top ds) := by
  unfold blockAt
  rw [isFolded_eq h.marks]
  exact .after _ fun folded => (inner folded).followed _

mutual

theorem condition_same (means : ∀ v w, R v w → Interchangeable p v w) (folded top : Bool)
    (c d : Condition) (h : c.Exchanged R d) :
    Same (condition ⟨p, folded, top⟩ c) (condition ⟨p, folded, top⟩ d) := by
  cases c with
  | basic column operator value connector =>
    obtain ⟨w, rfl, related⟩ := h
    simp only [condition]
    exact basic_same (means _ _ related) operator value connector
  | within column values connector negated =>
    obtain ⟨w, rfl, related⟩ := h
    simp only [condition, (means _ _ related).resolve]
    exact .refl _
  | between r =>
    obtain ⟨w, rfl, related⟩ := h
    simp only [condition, (means _ _ related).resolve]
    exact .refl _
  | null column connector =>
    obtain ⟨w, rfl, related⟩ := h
    simp only [condition, (means _ _ related).resolve]
    exact .refl _
  | notNull column connector =>
    obtain ⟨w, rfl, related⟩ := h
    simp only [condition, notNull, (means _ _ related).resolve]
    exact .refl _
  | group kind cs =>
    obtain ⟨ds, rfl, exchanged⟩ := h
    rw [condition_group, condition_group]
    exact (blockAt_same exchanged fun folded =>
      all_same means folded false cs ds exchanged).followed _
  | union bs =>
    obtain ⟨ds, rfl, exchanged⟩ := h
    simp only [condition]
    exact (blocks_same means bs ds exchanged).followed _
  | «exists» cs connector negated =>
    obtain ⟨ds, rfl, exchanged⟩ := h
    rw [condition_exists, condition_exists]
    exact (blockAt_same exchanged fun folded =>
      all_same means folded false cs ds exchanged).followed _
  | _ =>
    obtain rfl := h
    exact .refl _

theorem all_same (means : ∀ v w, R v w → Interchangeable p v w) (folded top : Bool)
    (cs ds : List Condition) (h : AllExchanged R cs ds) :
    Same (all ⟨p, folded, top⟩ cs) (all ⟨p, folded, top⟩ ds) := by
  match cs with
  | [] =>
    obtain rfl := h
    exact .refl _
  | c :: cs =>
    obtain ⟨d, rest, rfl, first, others⟩ := h
    simp only [all]
    exact (condition_same means folded top c d first).bind fun a =>
      (all_same means folded top cs rest others).followed _

theorem blocks_same (means : ∀ v w, R v w → Interchangeable p v w)
    (bs ds : List (List Condition)) (h : BranchesExchanged R bs ds) :
    Same (blocks p bs) (blocks p ds) := by
  match bs with
  | [] =>
    obtain rfl := h
    exact .refl _
  | b :: bs =>
    obtain ⟨d, rest, rfl, first, others⟩ := h
    rw [blocks_cons, blocks_cons]
    exact (blockAt_same first fun folded => all_same means folded false b d first).bind fun inner =>
      (blocks_same means bs rest others).followed _

end

theorem mapM_eq {f : α → Compile β} {as bs : List α}
    (h : List.Forall₂ (fun a b => f b = f a) as bs) : bs.mapM f = as.mapM f := by
  induction h with
  | nil => rfl
  | cons first _ ih => rw [List.mapM_cons, List.mapM_cons, first, ih]

theorem isEmpty_eq {S : α → β → Prop} {as : List α} {bs : List β} (h : List.Forall₂ S as bs) :
    bs.isEmpty = as.isEmpty := by
  cases h <;> rfl

theorem aggregate_exchanged (means : ∀ v w, R v w → Interchangeable p v w) {a b : Aggregate}
    (h : a.Exchanged R b) (distinct : Bool) : aggregate p b distinct = aggregate p a distinct := by
  obtain ⟨w, rfl, related⟩ := h
  have same := means _ _ related
  unfold aggregate
  rw [same.star, same.null, same.need]

theorem having_exchanged (means : ∀ v w, R v w → Interchangeable p v w) {h g : Having}
    (exchanged : h.Exchanged R g) : having p g = having p h ∧ g.connector = h.connector := by
  cases h with
  | test column operator value connector =>
    obtain ⟨w, rfl, related⟩ := exchanged
    refine ⟨?_, rfl⟩
    simp only [having, (means _ _ related).need]
  | raw expression connector =>
    obtain rfl := exchanged
    exact ⟨rfl, rfl⟩

theorem orderKey_exchanged (means : ∀ v w, R v w → Interchangeable p v w) {o d : Order}
    (h : o.Exchanged R d) : orderKey p d = orderKey p o := by
  obtain rfl | ⟨directed, w, rfl, related⟩ := h
  · rfl
  · unfold orderKey
    cases direction : o.direction with
    | none => exact absurd direction directed
    | some word => simp only [(means _ _ related).need]

end Compile

namespace QuerySpec.Exchanged

open Compile

variable {q r : QuerySpec}

theorem fromClause_eq (h : q.Exchanged R r) : fromClause r = fromClause q := by
  rw [h.rest]
  rfl

theorem slice_eq (h : q.Exchanged R r) : slice r = slice q := by
  rw [h.rest]
  rfl

theorem tableClause_eq (h : q.Exchanged R r) : tableClause p r = tableClause p q := by
  rw [h.rest]
  rfl

theorem effectiveOrders (h : q.Exchanged R r) :
    List.Forall₂ (Order.Exchanged R) q.effectiveOrders r.effectiveOrders := by
  have single : r.aggregate.isSome = q.aggregate.isSome := by
    have related := h.aggregate
    generalize q.aggregate = a, r.aggregate = b at related ⊢
    cases related <;> rfl
  unfold QuerySpec.effectiveOrders
  rw [single, isEmpty_eq h.groups]
  split
  · exact .nil
  · exact h.orders

variable (means : ∀ v w, R v w → Interchangeable p v w)

include means

theorem selectClause_eq (h : q.Exchanged R r) : selectClause p r = selectClause p q := by
  have distinct : r.distinct = q.distinct := by rw [h.rest]
  have columns := List.rel_filter (R := R) (p := (!isStar ·)) (q := (!isStar ·))
    (fun v w related => by simp [(means v w related).star]) h.columns
  have written : (r.columns.filter (!isStar ·)).mapM (column p) =
      (q.columns.filter (!isStar ·)).mapM (column p) :=
    mapM_eq (columns.imp fun v w related => (means v w related).selected)
  have related := h.aggregate
  unfold selectClause
  rw [distinct]
  generalize q.aggregate = a, r.aggregate = b at related ⊢
  cases related with
  | none => simp only [isEmpty_eq columns, written]
  | some exchanged => simp only [aggregate_exchanged means exchanged]

theorem groupClause_eq (h : q.Exchanged R r) : groupClause p r = groupClause p q := by
  have written : r.groups.mapM (need p · false) = q.groups.mapM (need p · false) :=
    mapM_eq (h.groups.imp fun v w related => (means v w related).need false)
  unfold groupClause
  rw [isEmpty_eq h.groups, written]

theorem havingClause_eq (h : q.Exchanged R r) : havingClause p r = havingClause p q := by
  have written := mapM_eq (f := fun h => do return (⟨h.connector, ← having p h⟩ : Test))
    (h.havings.imp fun h g exchanged => by
      obtain ⟨same, connector⟩ := having_exchanged means exchanged
      simp only [same, connector])
  unfold havingClause
  rw [isEmpty_eq h.havings, written]

theorem orderClause_eq (h : q.Exchanged R r) : orderClause p r = orderClause p q := by
  have orders := h.effectiveOrders
  have written := mapM_eq (f := orderKey p) (orders.imp fun _ _ => orderKey_exchanged means)
  unfold orderClause
  rw [isEmpty_eq orders, written]

theorem body_same (h : q.Exchanged R r) : Same (body p q) (body p r) := by
  have values : r.values = q.values := by rw [h.rest]
  have binds : r.binds = q.binds := by rw [h.rest]
  unfold body
  rw [h.tableClause_eq, values, binds, block_eq, block_eq]
  refine .after _ fun table => ?_
  exact (blockAt_same h.wheres fun folded =>
    all_same means folded true _ _ h.wheres).followed _

theorem select_same (h : q.Exchanged R r) : Same (Compile.select p q) (Compile.select p r) := by
  unfold Compile.select
  rw [h.selectClause_eq means, h.groupClause_eq means, h.havingClause_eq means,
    h.orderClause_eq means, h.fromClause_eq, h.slice_eq]
  refine .after _ fun head => .after _ fun groups => .after _ fun havings => ?_
  exact .after _ fun orders => (h.body_same means).followed _

/-- Interchangeable columns leave a query what it is. -/
theorem select_eq_ok_iff (h : q.Exchanged R r) (f : Fragment) :
    q.select p = .ok f ↔ r.select p = .ok f := by
  have subject : r.subject = q.subject := by rw [h.rest]
  exact (h.select_same means).run subject f

end QuerySpec.Exchanged

end SparqlClient
