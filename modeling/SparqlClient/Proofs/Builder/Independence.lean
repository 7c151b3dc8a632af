import Mathlib.Data.List.Basic
import SparqlClient.Proofs.Builder.Edits

/-! Steps of a builder that set different clauses. A step reads and writes the content of its own
clauses and nothing else, apart from an aggregate, which drops the sort keys of a query without
groups; and the text of a query takes no sort keys of that kind into account. Main statement: two
steps on different clauses give the same query in either order, unless groups follow an aggregate
that has dropped sort keys. -/

namespace SparqlClient.Builder

inductive Clause
  | table | graph | namespace | columns | distinct | wheres | binds | values | groups | havings
  | orders | limit | offset | aggregate | memory
  deriving DecidableEq

namespace Clause

abbrev Content : Clause → Type
  | table | graph | limit | offset => Value
  | «namespace» => Option String
  | columns | groups => List Value
  | distinct => Bool
  | wheres => List Condition
  | binds => List Bind
  | values => List ValuesBlock
  | havings => List Having
  | orders => List Order
  | aggregate => Option Aggregate
  | memory => Bool × Value

end Clause

def content (b : Builder) : (k : Clause) → k.Content
  | .table => b.spec.table
  | .graph => b.spec.graph
  | .namespace => b.spec.namespaceName
  | .columns => b.spec.columns
  | .distinct => b.spec.distinct
  | .wheres => b.spec.wheres
  | .binds => b.spec.binds
  | .values => b.spec.values
  | .groups => b.spec.groups
  | .havings => b.spec.havings
  | .orders => b.spec.orders
  | .limit => b.spec.limit
  | .offset => b.spec.offset
  | .aggregate => b.spec.aggregate
  | .memory => (b.remembered, b.timeToLive)

def replace (b : Builder) : (k : Clause) → k.Content → Builder
  | .table, x => b.withSpec ({ · with table := x })
  | .graph, x => b.withSpec ({ · with graph := x })
  | .namespace, x => b.withSpec ({ · with namespaceName := x })
  | .columns, x => b.withSpec ({ · with columns := x })
  | .distinct, x => b.withSpec ({ · with distinct := x })
  | .wheres, x => b.withSpec ({ · with wheres := x })
  | .binds, x => b.withSpec ({ · with binds := x })
  | .values, x => b.withSpec ({ · with values := x })
  | .groups, x => b.withSpec ({ · with groups := x })
  | .havings, x => b.withSpec ({ · with havings := x })
  | .orders, x => b.withSpec ({ · with orders := x })
  | .limit, x => b.withSpec ({ · with limit := x })
  | .offset, x => b.withSpec ({ · with offset := x })
  | .aggregate, x => b.withSpec ({ · with aggregate := x })
  | .memory, x => { b with remembered := x.1, timeToLive := x.2 }

structure Related (b d : Builder) : Prop where
  subject : b.spec.subject = d.spec.subject
  prefixes : b.prefixes = d.prefixes
  attached : b.attached = d.attached

section

variable {b d : Builder}

theorem content_replace (k : Clause) (x : k.Content) : (b.replace k x).content k = x := by
  cases k <;> rfl

theorem content_replace_of_ne {k l : Clause} (h : l ≠ k) (x : k.Content) :
    (b.replace k x).content l = b.content l := by
  cases k <;> cases l <;> first | rfl | exact absurd rfl h

theorem related_replace (k : Clause) (x : k.Content) : b.Related (b.replace k x) := by
  cases k <;> exact ⟨rfl, rfl, rfl⟩

theorem Related.refl (b : Builder) : b.Related b := ⟨rfl, rfl, rfl⟩

theorem Related.symm (h : b.Related d) : d.Related b :=
  ⟨h.subject.symm, h.prefixes.symm, h.attached.symm⟩

theorem Related.trans {e : Builder} (h : b.Related d) (h' : d.Related e) : b.Related e :=
  ⟨h.subject.trans h'.subject, h.prefixes.trans h'.prefixes, h.attached.trans h'.attached⟩

theorem eq_of_contents (related : b.Related d) (h : ∀ k, b.content k = d.content k) : b = d := by
  obtain ⟨⟨_, _, _, _, _, _, _, _, _, _, _, _, _, _, _⟩, _, _, _, _⟩ := b
  obtain ⟨⟨_, _, _, _, _, _, _, _, _, _, _, _, _, _, _⟩, _, _, _, _⟩ := d
  obtain ⟨subject, prefixes, attached⟩ := related
  have memory := h .memory
  simp only [content, Prod.mk.injEq] at subject prefixes attached memory
  have contents := fun k => h k
  simp only [content] at contents
  cases contents .table
  cases contents .graph
  cases contents .namespace
  cases contents .columns
  cases contents .distinct
  cases contents .wheres
  cases contents .binds
  cases contents .values
  cases contents .groups
  cases contents .havings
  cases contents .orders
  cases contents .limit
  cases contents .offset
  cases contents .aggregate
  simp [subject, prefixes, attached, memory]

end

/-- A step that writes the content of these clauses. It reads no other content, and whether it is
possible depends on none. -/
structure Local (ks : List Clause) (x : Builder → Outcome Builder) : Prop where
  related {b d : Builder} : x b = .ok d → b.Related d
  frame {b d : Builder} {k : Clause} : x b = .ok d → k ∉ ks → b.content k = d.content k
  follows {b b' d : Builder} : b.Related b' → x b = .ok d →
    ∃ d', x b' = .ok d' ∧ ∀ k, b.content k = b'.content k → d.content k = d'.content k

namespace Local

variable {α : Type} {ks : List Clause} {x y : Builder → Outcome Builder}
  {f : α → Builder → Outcome Builder}

theorem modify (k : Clause) (g : k.Content → k.Content) :
    Local [k] fun b => .ok (b.replace k (g (b.content k))) where
  related h := by
    obtain rfl := Except.ok.inj h
    exact related_replace k _
  frame h other := by
    obtain rfl := Except.ok.inj h
    exact (content_replace_of_ne (by simpa using other) _).symm
  follows {b b' d} _ h := by
    obtain rfl := Except.ok.inj h
    refine ⟨_, rfl, fun l same => ?_⟩
    by_cases own : l = k
    · subst own
      rw [content_replace, content_replace, same]
    · rw [content_replace_of_ne own, content_replace_of_ne own, same]

theorem ok : Local ks .ok where
  related h := Except.ok.inj h ▸ .refl _
  frame h _ := by rw [Except.ok.inj h]
  follows {b b' d} _ h := ⟨b', rfl, fun k same => by rw [← Except.ok.inj h, same]⟩

theorem error (e : Error) : Local ks fun _ => .error e where
  related h := by cases h
  frame h := by cases h
  follows _ h := by cases h

theorem seq (hx : Local ks x) (hy : Local ks y) : Local ks fun b => x b >>= y where
  related h := by
    obtain ⟨d, first, second⟩ := Outcome.bind_eq_ok_iff.1 h
    exact (hx.related first).trans (hy.related second)
  frame h other := by
    obtain ⟨d, first, second⟩ := Outcome.bind_eq_ok_iff.1 h
    exact (hx.frame first other).trans (hy.frame second other)
  follows {b b' e} related h := by
    obtain ⟨d, first, second⟩ := Outcome.bind_eq_ok_iff.1 h
    obtain ⟨d', first', same⟩ := hx.follows related first
    have still : d.Related d' :=
      (hx.related first).symm.trans (related.trans (hx.related first'))
    obtain ⟨e', second', same'⟩ := hy.follows still second
    exact ⟨e', Outcome.bind_eq_ok_iff.2 ⟨d', first', second'⟩, fun k h => same' k (same k h)⟩

theorem read {o : Builder → Outcome α} (same : ∀ {b b' : Builder}, b.Related b' → o b = o b')
    (h : ∀ a, Local ks (f a)) : Local ks fun b => o b >>= (f · b) where
  related made := by
    obtain ⟨a, -, made⟩ := Outcome.bind_eq_ok_iff.1 made
    exact (h a).related made
  frame made other := by
    obtain ⟨a, -, made⟩ := Outcome.bind_eq_ok_iff.1 made
    exact (h a).frame made other
  follows related made := by
    obtain ⟨a, found, made⟩ := Outcome.bind_eq_ok_iff.1 made
    obtain ⟨d', made', same'⟩ := (h a).follows related made
    exact ⟨d', Outcome.bind_eq_ok_iff.2 ⟨a, same related ▸ found, made'⟩, same'⟩

theorem check {o : Outcome α} (h : ∀ a, Local ks (f a)) : Local ks fun b => o >>= (f · b) :=
  read (o := fun _ => o) (fun _ => rfl) h

theorem ite {c : Prop} [Decidable c] (hx : Local ks x) (hy : Local ks y) :
    Local ks fun b => if c then x b else y b := by
  split
  · exact hx
  · exact hy

theorem mono {ls : List Clause} (h : Local ks x) (sub : ks ⊆ ls) : Local ls x where
  related := h.related
  frame made other := h.frame made fun own => other (sub own)
  follows := h.follows

end Local

theorem local_add (c : Condition) : Local [.wheres] fun b => .ok (b.add c) :=
  .modify .wheres (· ++ [c])

theorem local_whereLike (column pattern connector : Value) (negated : Bool) :
    Local [.wheres] fun b => b.whereLike column pattern connector negated :=
  .check fun _ => local_add _

theorem local_test (column operator value connector : Value) :
    Local [.wheres] fun b => b.test column operator value connector := by
  refine .check fun c => ?_
  refine .ite (local_add _) (.ite (local_add _) (.ite ?_ (.ite ?_ ?_)))
  · exact local_whereLike _ _ _ _
  · exact local_whereLike _ _ _ _
  · exact .check fun _ => local_add _

theorem local_testAll (connector : Value) (entries : Entries) :
    Local [.wheres] fun b => b.testAll connector entries := by
  unfold testAll
  induction entries with
  | nil => exact .ok
  | cons e entries ih => exact (local_test _ _ _ _).seq ih

theorem local_whereTest (column : Value) (operator value : Option Value) (connector : Value) :
    Local [.wheres] fun b => b.whereTest column operator value connector := by
  unfold whereTest
  split
  · exact local_testAll connector _
  · exact local_test _ _ _ _
  · exact local_test _ _ _ _
  · exact local_test _ _ _ _
  · exact .error _

theorem nested_congr {b b' : Builder} (related : b.Related b') (step : Step) :
    b.nested step = b'.nested step := by
  unfold nested
  rw [related.subject, related.prefixes]

theorem local_bindTo (expression : Fragment) (target : Value) :
    Local [.binds] fun b => b.bindTo expression target :=
  .check fun name => .modify .binds (· ++ [(⟨expression, Shape.withMark name⟩ : Bind)])

theorem local_limit (count : Value) : Local [.limit] fun b => b.limit count :=
  .check fun n => .modify .limit fun _ => .int (max 0 n)

theorem local_offset (count : Value) : Local [.offset] fun b => b.offset count :=
  .check fun n => .modify .offset fun _ => .int (max 0 n)

theorem local_values (targets rows : Value) :
    Local [.values] fun b => b.values targets rows := by
  have filled (names : List Value) : Local [.values] fun b => do
      let rows ← (← rows.members).mapM (rowOf names)
      return b.withSpec fun s => { s with values := s.values ++ [⟨names, rows⟩] } :=
    .check fun _ => .check fun rows => .modify .values (· ++ [(⟨names, rows⟩ : ValuesBlock)])
  unfold values
  split
  · exact filled [targets]
  · exact .check filled

theorem local_remember (time default : Value) :
    Local [.memory] fun b => (b.remember time default).1.map fun _ =>
      (b.remember time default).2 := by
  have steps : (fun b : Builder => (b.remember time default).1.map fun _ =>
      (b.remember time default).2) = fun b => do
        let time := if time.isNull && b.attached then default else time
        let kept ← (Seconds.limit? time).map fun limit => if limit.isSome then time else .null
        return b.replace .memory (true, kept) := by
    funext b
    unfold remember
    simp only
    cases Seconds.limit? (if time.isNull && b.attached then default else time) <;> rfl
  rw [steps]
  exact .read (fun related => by rw [related.attached]) fun kept =>
    .modify .memory fun _ => (true, kept)

namespace Edit

def clauses : Edit → List Clause
  | .table _ => [.table]
  | .graph _ => [.graph]
  | .inNamespace _ => [.namespace]
  | .select _ | .addSelect _ | .selectExpression _ => [.columns]
  | .distinct _ => [.distinct]
  | .whereTest .. | .whereLike .. | .whereIn .. | .whereBetween .. | .whereNull ..
  | .whereNotNull .. | .whereRaw .. | .filter .. | .whereTriple .. | .wherePath ..
  | .whereExists .. | .whereGroup .. | .union _ => [.wheres]
  | .bind .. | .typed .. | .langTagged .. => [.binds]
  | .values .. => [.values]
  | .groupBy _ => [.groups]
  | .having .. | .havingRaw .. => [.havings]
  | .orderBy .. | .orderByRaw _ => [.orders]
  | .limit _ => [.limit]
  | .offset _ => [.offset]
  | .forPage .. => [.limit, .offset]
  | .aggregate .. => [.aggregate]
  | .remember .. | .rememberForever | .forget => [.memory]

def applyOwn (b : Builder) : Edit → Outcome Builder
  | .aggregate function column separator => do
    return b.replace .aggregate (some (← Aggregate.read function column separator))
  | e => e.apply b

theorem local_applyOwn (e : Edit) : Local e.clauses e.applyOwn := by
  cases e with
  | table name => exact .modify .table fun _ => name
  | graph name => exact .modify .graph fun _ => name
  | inNamespace name =>
    exact .ite (.modify .namespace fun _ => none) (.check fun n => .modify .namespace fun _ => some n)
  | select columns =>
    exact .modify .columns fun _ =>
      if (flatten columns).isEmpty then [.text "*"] else flatten columns
  | addSelect columns =>
    exact .modify .columns fun given => given.filter (!Compile.isStar ·) ++ flatten columns
  | selectExpression expression =>
    exact .modify .columns fun given =>
      given.filter (!Compile.isStar ·) ++ flatten [(Term.raw expression).toValue]
  | distinct value => exact .modify .distinct fun _ => value
  | whereTest column operator value connector => exact local_whereTest _ _ _ _
  | whereLike column pattern connector negated => exact local_whereLike _ _ _ _
  | whereIn column given connector negated =>
    exact .check fun _ => .check fun _ => local_add _
  | whereBetween column given connector negated => exact .check fun _ => local_add _
  | whereNull column connector => exact .check fun _ => local_add _
  | whereNotNull column connector => exact .check fun _ => local_add _
  | whereRaw pattern given connector => exact .check fun _ => .check fun _ => local_add _
  | filter expression given connector => exact .check fun _ => .check fun _ => local_add _
  | whereTriple subject predicate object => exact local_add _
  | wherePath path operator value connector =>
    exact .check fun _ => .check fun _ => local_add _
  | whereExists step connector negated =>
    exact .read (nested_congr · step) fun _ => .ite .ok (.check fun _ => local_add _)
  | whereGroup kind step => exact .read (nested_congr · step) fun _ => .ite .ok (local_add _)
  | union steps =>
    have same {b b' : Builder} (related : b.Related b') :
        steps.mapM b.nested = steps.mapM b'.nested := by
      rw [show b.nested = b'.nested from funext (nested_congr related)]
    exact .read same fun branches => .ite .ok (.modify .wheres (addBranches _))
  | bind expression target given => exact .check fun _ => local_bindTo _ _
  | typed target value datatype =>
    exact .read (fun related => by rw [related.prefixes]) fun _ => local_bindTo _ _
  | langTagged target value lang => exact .ite (local_bindTo _ _) (.error _)
  | values targets rows =>
    exact local_values targets rows
  | groupBy columns => exact .modify .groups (· ++ flatten columns)
  | having column operator value connector =>
    exact .check fun o => .check fun c => .modify .havings (· ++ [Having.test column o _ c])
  | havingRaw expression given connector =>
    exact .check fun f => .check fun c => .modify .havings (· ++ [Having.raw f c])
  | orderBy column direction =>
    exact .check fun d => .modify .orders (· ++ [(⟨column, some d.word⟩ : Order)])
  | orderByRaw expression => exact .modify .orders (· ++ [(⟨expression, none⟩ : Order)])
  | limit count => exact local_limit count
  | offset count => exact local_offset count
  | forPage page size =>
    have first (count : Value) : Local [.limit, .offset] _ := (local_offset count).mono (by simp)
    have second : Local [.limit, .offset] _ := (local_limit size).mono (by simp)
    exact .check fun _ => .check fun count => (first count).seq second
  | aggregate function column separator => exact .check fun a => .modify .aggregate fun _ => some a
  | remember time default => exact local_remember time default
  | rememberForever => exact .modify .memory fun _ => (true, .null)
  | forget => exact .modify .memory fun _ => (false, .null)

end Edit

/-- Sort keys that have no effect are dropped. -/
def settled (b : Builder) : Builder := b.replace .orders b.spec.effectiveOrders

theorem effectiveOrders_settled (b : Builder) :
    b.settled.spec.effectiveOrders = b.spec.effectiveOrders := by
  change (if b.spec.aggregate.isSome && b.spec.groups.isEmpty then [] else b.spec.effectiveOrders) =
    b.spec.effectiveOrders
  unfold QuerySpec.effectiveOrders
  split <;> rfl

theorem select_congr {s : QuerySpec} {orders : List Order} (p : Prefixes)
    (same : ({ s with orders := orders } : QuerySpec).effectiveOrders = s.effectiveOrders) :
    ({ s with orders := orders } : QuerySpec).select p = s.select p := by
  have keys : Compile.orderClause p { s with orders := orders } = Compile.orderClause p s := by
    unfold Compile.orderClause
    rw [same]
  have query : Compile.select p { s with orders := orders } = Compile.select p s := by
    unfold Compile.select
    rw [keys]
    rfl
  exact congrArg (Compile.run s) query

theorem compile_congr {b d : Builder} (related : b.Related d)
    (same : ∀ k, k ≠ .orders → b.content k = d.content k)
    (orders : b.spec.effectiveOrders = d.spec.effectiveOrders) : b.compile = d.compile := by
  have whole : b.replace .orders d.spec.orders = d := by
    refine eq_of_contents ((related_replace _ _).symm.trans related) fun k => ?_
    by_cases own : k = .orders
    · subst own
      exact content_replace _ _
    · rw [content_replace_of_ne own, same k own]
  have written : (b.replace .orders d.spec.orders).compile = b.compile := by
    refine select_congr b.names ?_
    rw [orders]
    exact congrArg (·.spec.effectiveOrders) whole
  rw [← written, whole]

theorem compile_settled (b : Builder) : b.settled.compile = b.compile :=
  (compile_congr (related_replace _ _) (fun _ other => (content_replace_of_ne other _).symm)
    (effectiveOrders_settled b).symm).symm

theorem settled_eq_self {b : Builder} (h : b.spec.groups ≠ [] ∨ b.spec.orders = []) :
    b.settled = b := by
  have same : b.spec.effectiveOrders = b.spec.orders := by
    unfold QuerySpec.effectiveOrders
    rcases h with grouped | unsorted
    · simp [grouped]
    · simp [unsorted]
  unfold settled
  rw [same]
  rfl

theorem effectiveOrders_eq_nil {s : QuerySpec} (h : s.aggregate.isSome) (ungrouped : s.groups = []) :
    s.effectiveOrders = [] := by
  simp [QuerySpec.effectiveOrders, h, ungrouped]

namespace Edit

variable {b b₁ b₂ d : Builder} {e e' : Edit}

def drops : Edit → Bool
  | .aggregate .. => true
  | _ => false

theorem applyOwn_eq (b : Builder) (h : e.drops = false) : e.applyOwn b = e.apply b := by
  cases e with
  | aggregate => cases h
  | _ => rfl

theorem apply_eq (b : Builder) (h : e.drops) : e.apply b = (e.applyOwn b).map settled := by
  cases e with
  | aggregate function column separator =>
    have one (a : Aggregate) : (b.replace .aggregate (some a)).settled = b.withSpec fun s =>
        { s with aggregate := some a, orders := if s.groups.isEmpty then [] else s.orders } := by
      have orders : (b.replace .aggregate (some a)).spec.effectiveOrders =
          if b.spec.groups.isEmpty then [] else b.spec.orders := by
        simp [QuerySpec.effectiveOrders, replace]
      unfold settled
      rw [orders]
      rfl
    change b.aggregate function column separator = (do
      return b.replace .aggregate (some (← Aggregate.read function column separator))
        : Outcome Builder).map settled
    unfold Builder.aggregate
    cases Aggregate.read function column separator with
    | error err => rfl
    | ok a => exact congrArg Except.ok (one a).symm
  | _ => cases h

theorem clauses_of_drops (h : e.drops) : e.clauses = [.aggregate] := by
  cases e <;> first | rfl | cases h

theorem isSome_of_drops (h : e.drops) (made : e.applyOwn b = .ok d) :
    d.spec.aggregate.isSome := by
  cases e with
  | aggregate function column separator =>
    obtain ⟨a, -, made⟩ := Outcome.bind_eq_ok_iff.1 made
    obtain rfl := Outcome.pure_eq_ok_iff.1 made
    rfl
  | _ => cases h

theorem orders_not_mem (h : .groups ∈ e.clauses) : .orders ∉ e.clauses := by
  cases e <;> simp [clauses] at h ⊢

theorem applyOwn_comm (apart : e.clauses.Disjoint e'.clauses) (first : e.applyOwn b = .ok b₁)
    (second : e'.applyOwn b = .ok b₂) : ∃ d, e'.applyOwn b₁ = .ok d ∧ e.applyOwn b₂ = .ok d := by
  have own := local_applyOwn e
  have own' := local_applyOwn e'
  obtain ⟨d, behind, same⟩ := own'.follows (own.related first) second
  obtain ⟨d', behind', same'⟩ := own.follows (own'.related second) first
  obtain rfl : d = d' := by
    have left := (own'.related behind).symm.trans (own.related first).symm
    refine eq_of_contents (left.trans ((own'.related second).trans (own.related behind')))
      fun k => ?_
    by_cases mine : k ∈ e.clauses
    · have other := apart mine
      exact (own'.frame behind other).symm.trans (same' k (own'.frame second other))
    · exact (same k (own.frame first mine)).symm.trans (own.frame behind' mine)
  exact ⟨d, behind, behind'⟩

/-- A step drops sort keys that would have come into effect again with the groups of another. -/
structure LosesOrder (b : Builder) (e : Edit) (other : Builder) : Prop where
  drops : e.drops
  ungrouped : b.spec.groups = []
  sorted : b.spec.orders ≠ []
  grouped : other.spec.groups ≠ []

theorem compile_of_drops (apart : e.clauses.Disjoint e'.clauses) (drops : e.drops)
    (first : e.apply b = .ok b₁) (second : e'.apply b = .ok b₂) :
    ∃ d d', e'.apply b₁ = .ok d ∧ e.apply b₂ = .ok d' ∧
      (¬LosesOrder b e b₂ → d.compile = d'.compile) ∧
      (LosesOrder b e b₂ → d = d'.replace .orders []) := by
  have alone := clauses_of_drops drops
  have keeps : e'.drops = false := by
    by_contra h
    have alike := clauses_of_drops (e := e') (by simpa using h)
    rw [alone, alike] at apart
    exact apart (a := .aggregate) (by simp) (by simp)
  rw [apply_eq b drops] at first
  obtain ⟨c, one, rfl⟩ := Outcome.map_eq_ok_iff.1 first
  rw [← applyOwn_eq b keeps] at second
  obtain ⟨m, behind, before⟩ := applyOwn_comm apart one second
  have own := local_applyOwn e
  have own' := local_applyOwn e'
  have given : c.spec.aggregate.isSome := isSome_of_drops drops one
  have given' : m.spec.aggregate.isSome := isSome_of_drops drops before
  have groups : b.spec.groups = c.spec.groups := own.frame (k := .groups) one (by simp [alone])
  have orders : b.spec.orders = c.spec.orders := own.frame (k := .orders) one (by simp [alone])
  have groups' : b₂.spec.groups = m.spec.groups :=
    own.frame (k := .groups) before (by simp [alone])
  obtain ⟨d, made, same⟩ := own'.follows (related_replace .orders c.spec.effectiveOrders) behind
  have elsewhere (k : Clause) (other : k ≠ .orders) : m.content k = d.content k :=
    same k (content_replace_of_ne other _).symm
  have related : m.Related d := (own'.related behind).symm.trans
    ((related_replace .orders c.spec.effectiveOrders).trans (own'.related made))
  refine ⟨d, m.settled, by rw [← applyOwn_eq _ keeps]; exact made, ?_, fun kept => ?_,
    fun loses => ?_⟩
  · rw [apply_eq b₂ drops, before]
    rfl
  · rw [compile_settled]
    by_cases effective : b.spec.groups ≠ [] ∨ b.spec.orders = []
    · -- nothing is dropped
      have whole : c.settled = c := settled_eq_self (groups ▸ orders ▸ effective)
      obtain rfl : m = d := Except.ok.inj (behind.symm.trans (whole ▸ made))
      rfl
    · rw [not_or, not_not] at effective
      have ungrouped : m.spec.groups = [] := by
        by_contra grouped
        exact kept ⟨drops, effective.1, effective.2, groups' ▸ grouped⟩
      have ungrouped' : d.spec.groups = [] := (elsewhere .groups (by simp)).symm.trans ungrouped
      have aggregates : m.spec.aggregate = d.spec.aggregate := elsewhere .aggregate (by simp)
      refine (compile_congr related elsewhere ?_).symm
      rw [effectiveOrders_eq_nil given' ungrouped,
        effectiveOrders_eq_nil (aggregates ▸ given') ungrouped']
  · have set : .groups ∈ e'.clauses := by
      by_contra other
      exact loses.grouped ((own'.frame (k := .groups) second other).symm.trans loses.ungrouped)
    have unsorted : d.spec.orders = [] := by
      have kept : c.spec.effectiveOrders = d.spec.orders :=
        own'.frame (k := .orders) made (orders_not_mem set)
      rw [← kept, effectiveOrders_eq_nil given (groups ▸ loses.ungrouped)]
    rw [settled_eq_self (.inl (groups' ▸ loses.grouped))]
    refine eq_of_contents (related.symm.trans (related_replace _ _)) fun k => ?_
    by_cases sorted : k = .orders
    · subst sorted
      rw [content_replace]
      exact unsorted
    · rw [content_replace_of_ne sorted, elsewhere k sorted]

/-- In either order the two steps give the same query, unless sort keys are lost in one of them. -/
theorem compile_of_apart {b b₁ b₂ : Builder} {e e' : Edit} (apart : e.clauses.Disjoint e'.clauses)
    (first : e.apply b = .ok b₁) (second : e'.apply b = .ok b₂) :
    ∃ d d', e'.apply b₁ = .ok d ∧ e.apply b₂ = .ok d' ∧
      (¬LosesOrder b e b₂ → ¬LosesOrder b e' b₁ → d.compile = d'.compile) ∧
      (LosesOrder b e b₂ → d = d'.replace .orders []) ∧
      (LosesOrder b e' b₁ → d' = d.replace .orders []) := by
  cases drops : e.drops with
  | true =>
    obtain ⟨d, d', made, made', same, lost⟩ := compile_of_drops apart drops first second
    refine ⟨d, d', made, made', fun kept _ => same kept, lost, fun loses => ?_⟩
    rw [clauses_of_drops drops, clauses_of_drops loses.drops] at apart
    exact absurd (by simp) (apart (a := .aggregate) (by simp))
  | false =>
    cases drops' : e'.drops with
    | true =>
      obtain ⟨d', d, made', made, same, lost⟩ := compile_of_drops (fun _ h h' => apart h' h) drops' second first
      refine ⟨d, d', made, made', fun _ kept => (same kept).symm, fun loses => ?_, lost⟩
      exact absurd loses.drops (by simp [drops])
    | false =>
      rw [← applyOwn_eq b drops] at first
      rw [← applyOwn_eq b drops'] at second
      obtain ⟨d, behind, before⟩ := applyOwn_comm apart first second
      rw [applyOwn_eq _ drops'] at behind
      rw [applyOwn_eq _ drops] at before
      exact ⟨d, d, behind, before, fun _ _ => rfl,
        fun loses => absurd loses.drops (by simp [drops]),
        fun loses => absurd loses.drops (by simp [drops'])⟩

def sorted : Builder := (Builder.make "?s" .standard false).addOrder ⟨.text "?t", some "asc"⟩

def counted : Edit := .aggregate (.text "count") (.text "*") .null

def limited : Edit := .limit (.int 1)

def grouped : Edit := .groupBy [.text "?t"]

theorem compile_of_apart_limited : ∃ b₁ b₂ d d', counted.apply sorted = .ok b₁ ∧
    limited.apply sorted = .ok b₂ ∧ limited.apply b₁ = .ok d ∧ counted.apply b₂ = .ok d' ∧
    d.compile = d'.compile := by
  obtain ⟨b₁, first⟩ : ∃ b₁, counted.apply sorted = .ok b₁ := ⟨_, rfl⟩
  obtain ⟨b₂, second, plain⟩ : ∃ b₂, limited.apply sorted = .ok b₂ ∧ b₂.spec.groups = [] :=
    ⟨_, rfl, rfl⟩
  obtain ⟨d, d', made, made', same, -⟩ :=
    compile_of_apart (by simp [counted, limited, clauses]) first second
  exact ⟨b₁, b₂, d, d', first, second, made, made',
    same (fun loses => loses.grouped plain) fun loses => by cases loses.drops⟩

/-- Groups bring the sort keys into effect again, but not behind an aggregate. -/
theorem exists_text_ne : counted.clauses.Disjoint grouped.clauses ∧
    (counted.apply sorted >>= grouped.apply >>= Builder.text) =
      .ok "SELECT (COUNT(*) as ?aggregate) WHERE \x7b  \x7d GROUP BY ?t" ∧
    (grouped.apply sorted >>= counted.apply >>= Builder.text) =
      .ok "SELECT (COUNT(*) as ?aggregate) WHERE \x7b  \x7d GROUP BY ?t ORDER BY ASC(?t)" := by
  refine ⟨by simp [counted, grouped, clauses], ?_, ?_⟩ <;> decide +kernel

end Edit

end SparqlClient.Builder
