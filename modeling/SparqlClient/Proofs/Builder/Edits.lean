import SparqlClient.Builder.Clauses
import SparqlClient.Proofs.Query.Run
import SparqlClient.Proofs.Store.Names

/-! The steps of a builder as data, each with its arguments. Main statement: a step other than the
choice of a namespace leaves the namespace of the builder as it was, and that choice sets a name
that has been checked or none. -/

namespace SparqlClient.Builder

/-- A step inside another one builds a nested block; the time to live of a connection stands
beside the time that is asked for. -/
inductive Edit
  | table (name : Value)
  | graph (name : Value)
  | inNamespace (name : Value)
  | select (columns : List Value)
  | addSelect (columns : List Value)
  | selectExpression (expression : Value)
  | distinct (value : Bool)
  | whereTest (column : Value) (operator value : Option Value) (connector : Value)
  | whereLike (column pattern connector : Value) (negated : Bool)
  | whereIn (column values connector : Value) (negated : Bool)
  | whereBetween (column values connector : Value) (negated : Bool)
  | whereNull (column connector : Value)
  | whereNotNull (column connector : Value)
  | whereRaw (pattern values connector : Value)
  | filter (expression values connector : Value)
  | whereTriple (subject predicate object : Value)
  | wherePath (path operator : Value) (value : Option Value) (connector : Value)
  | whereExists (step : Step) (connector : Value) (negated : Bool)
  | whereGroup (kind : GroupKind) (step : Step)
  | union (steps : List Step)
  | bind (expression target values : Value)
  | typed (target value datatype : Value)
  | langTagged (target value lang : Value)
  | values (targets rows : Value)
  | groupBy (columns : List Value)
  | having (column operator : Value) (value : Option Value) (connector : Value)
  | havingRaw (expression values connector : Value)
  | orderBy (column direction : Value)
  | orderByRaw (expression : Value)
  | limit (count : Value)
  | offset (count : Value)
  | forPage (page size : Value)
  | aggregate (function column separator : Value)
  | remember (time default : Value)
  | rememberForever
  | forget

namespace Edit

/-- What a step makes of a builder, if it succeeds. To remember results is the one step that has
an effect where it fails. -/
def apply (b : Builder) : Edit → Outcome Builder
  | .table name => .ok (b.table name)
  | .graph name => .ok (b.graph name)
  | .inNamespace name => b.inNamespace name
  | .select columns => .ok (b.select columns)
  | .addSelect columns => .ok (b.addSelect columns)
  | .selectExpression expression => .ok (b.selectExpression expression)
  | .distinct value => .ok (b.distinct value)
  | .whereTest column operator value connector => b.whereTest column operator value connector
  | .whereLike column pattern connector negated => b.whereLike column pattern connector negated
  | .whereIn column given connector negated => b.whereIn column given connector negated
  | .whereBetween column given connector negated =>
    b.whereBetween column given connector negated
  | .whereNull column connector => b.whereNull column connector
  | .whereNotNull column connector => b.whereNotNull column connector
  | .whereRaw pattern given connector => b.whereRaw pattern given connector
  | .filter expression given connector => b.filter expression given connector
  | .whereTriple subject predicate object => .ok (b.whereTriple subject predicate object)
  | .wherePath path operator value connector => b.wherePath path operator value connector
  | .whereExists step connector negated => b.whereExists step connector negated
  | .whereGroup kind step => b.whereGroup kind step
  | .union steps => b.union steps
  | .bind expression target given => b.bind expression target given
  | .typed target value datatype => b.typed target value datatype
  | .langTagged target value lang => b.langTagged target value lang
  | .values targets rows => b.values targets rows
  | .groupBy columns => .ok (b.groupBy columns)
  | .having column operator value connector => b.having column operator value connector
  | .havingRaw expression given connector => b.havingRaw expression given connector
  | .orderBy column direction => b.orderBy column direction
  | .orderByRaw expression => .ok (b.orderByRaw expression)
  | .limit count => b.limit count
  | .offset count => b.offset count
  | .forPage page size => b.forPage page size
  | .aggregate function column separator => b.aggregate function column separator
  | .remember time default => (b.remember time default).1.map fun _ => (b.remember time default).2
  | .rememberForever => .ok b.rememberForever
  | .forget => .ok b.forget

def after (b : Builder) (e : Edit) : Builder :=
  match e with
  | .remember time default => (b.remember time default).2
  | e => match e.apply b with
    | .ok d => d
    | .error _ => b

end Edit

def Keeps (b : Builder) (x : Outcome Builder) : Prop :=
  ∀ d, x = .ok d → d.spec.namespaceName = b.spec.namespaceName

section

variable {b d : Builder}

@[simp] theorem keeps_ok : b.Keeps (.ok d) ↔ d.spec.namespaceName = b.spec.namespaceName := by
  simp [Keeps]

@[simp] theorem keeps_pure : b.Keeps (pure d) ↔ d.spec.namespaceName = b.spec.namespaceName :=
  keeps_ok

@[simp] theorem keeps_compilation (cause : CompilationError) :
    b.Keeps (CompilationError.fail cause) := by
  simp [Keeps, CompilationError.fail]

@[simp] theorem keeps_bind {α : Type} {x : Outcome α} {f : α → Outcome Builder} :
    b.Keeps (x >>= f) ↔ ∀ a, x = .ok a → b.Keeps (f a) := by
  cases x <;> simp [Keeps, Bind.bind, Except.bind]

@[simp] theorem keeps_map {α : Type} {x : Outcome α} {f : α → Builder} :
    b.Keeps (f <$> x) ↔ ∀ a, x = .ok a → (f a).spec.namespaceName = b.spec.namespaceName := by
  cases x <;> simp [Keeps, Functor.map, Except.map]

@[simp] theorem keeps_ite {c : Prop} [Decidable c] {x y : Outcome Builder} :
    b.Keeps (if c then x else y) ↔ (c → b.Keeps x) ∧ (¬c → b.Keeps y) := by
  split <;> simp_all

theorem Keeps.trans {x : Outcome Builder} (h : d.Keeps x)
    (same : d.spec.namespaceName = b.spec.namespaceName) : b.Keeps x :=
  fun e made => (h e made).trans same

end

theorem keeps_test (b : Builder) (column operator value connector : Value) :
    b.Keeps (b.test column operator value connector) := by
  simp [test, whereLike, add]

theorem keeps_testAll (b : Builder) (connector : Value) (entries : Entries) :
    b.Keeps (b.testAll connector entries) := by
  unfold testAll
  induction entries generalizing b with
  | nil => simp
  | cons e entries ih =>
    rw [List.foldlM_cons, keeps_bind]
    intro d made
    exact (ih d).trans (keeps_test b _ _ _ _ d made)

theorem keeps_whereTest (b : Builder) (column : Value) (operator value : Option Value)
    (connector : Value) : b.Keeps (b.whereTest column operator value connector) := by
  unfold whereTest
  split
  · exact keeps_testAll b connector _
  · exact keeps_test b _ _ _ _
  · exact keeps_test b _ _ _ _
  · exact keeps_test b _ _ _ _
  · simp

theorem keeps_bindTo (b : Builder) (expression : Fragment) (target : Value) :
    b.Keeps (b.bindTo expression target) := by
  simp [bindTo]

theorem keeps_limit (b : Builder) (count : Value) : b.Keeps (b.limit count) := by simp [limit]

theorem keeps_offset (b : Builder) (count : Value) : b.Keeps (b.offset count) := by simp [offset]

theorem spec_remember (b : Builder) (time default : Value) :
    (b.remember time default).2.spec = b.spec := by
  unfold remember
  simp only
  split <;> rfl

theorem keeps_apply {b : Builder} {e : Edit} (h : ∀ name, e ≠ .inNamespace name) :
    b.Keeps (e.apply b) := by
  cases e with
  | inNamespace name => exact absurd rfl (h name)
  | whereTest column operator value connector => exact keeps_whereTest b _ _ _ _
  | forPage page size =>
    simp only [Edit.apply, forPage, keeps_bind]
    intro _ _ _ _ d made
    exact (keeps_limit d size).trans (keeps_offset b _ d made)
  | typed target value datatype => simp [Edit.apply, typed, keeps_bindTo]
  | langTagged target value lang => simp [Edit.apply, langTagged, keeps_bindTo]
  | bind expression target given => simp [Edit.apply, Builder.bind, keeps_bindTo]
  | remember time default =>
    intro d made
    obtain ⟨_, -, rfl⟩ := Outcome.map_eq_ok_iff.1 made
    rw [spec_remember]
  | table | graph | select | addSelect | selectExpression | distinct | whereTriple | groupBy
  | orderByRaw | rememberForever | forget => exact keeps_ok.2 rfl
  | whereLike => simp [Edit.apply, whereLike, add]
  | whereIn => simp [Edit.apply, whereIn, add]
  | whereBetween => simp [Edit.apply, whereBetween, add]
  | whereNull => simp [Edit.apply, whereNull, add]
  | whereNotNull => simp [Edit.apply, whereNotNull, add]
  | whereRaw => simp [Edit.apply, whereRaw, add]
  | filter => simp [Edit.apply, filter, add]
  | wherePath => simp [Edit.apply, wherePath, add]
  | whereExists => simp [Edit.apply, whereExists, add]
  | whereGroup => simp [Edit.apply, whereGroup, add]
  | union => simp [Edit.apply, union]
  | values => simp [Edit.apply, values]
  | having => simp [Edit.apply, having]
  | havingRaw => simp [Edit.apply, havingRaw]
  | orderBy => simp [Edit.apply, orderBy, addOrder]
  | limit count => exact keeps_limit b count
  | offset count => exact keeps_offset b count
  | aggregate => simp [Edit.apply, aggregate]

theorem namespaceName_after {b : Builder} {e : Edit} {n : String}
    (h : (e.after b).spec.namespaceName = some n) :
    b.spec.namespaceName = some n ∨ Namespace.IsAccepted n := by
  by_cases chosen : ∃ name, e = .inNamespace name
  · obtain ⟨name, rfl⟩ := chosen
    unfold Edit.after Edit.apply inNamespace at h
    cases null : name.isNull with
    | true => simp [null, pure, Except.pure] at h
    | false =>
      cases checked : Namespace.validate name with
      | error err => exact .inl (by simpa [null, checked, Bind.bind, Except.bind] using h)
      | ok m =>
        obtain rfl : m = n := by
          simpa [null, checked, Bind.bind, Except.bind, pure, Except.pure] using h
        exact .inr (Namespace.isAccepted_of_validate checked).2
  · left
    rw [← h]
    unfold Edit.after
    split
    · rw [spec_remember]
    · have kept := keeps_apply (b := b) fun name same => chosen ⟨name, same⟩
      split
      · exact (kept _ ‹_›).symm
      · rfl

end SparqlClient.Builder
