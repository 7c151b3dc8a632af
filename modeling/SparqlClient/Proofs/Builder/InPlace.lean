import SparqlClient.Proofs.Builder.Edits
import SparqlClient.Proofs.Number.Multiple

/-! The steps of a builder in place. A program on a builder checks arguments, runs callbacks and
changes clauses one after the other, and what it has changed stays changed where it fails. Main
statement: each step, run in place in this way, does what it does to a builder that is given back
whole, so that the query is as it was where the step has failed. -/

namespace SparqlClient.Builder

open Text

/-- A program that changes a builder as it goes. -/
abbrev Work := ExceptT Error (StateM Builder)

namespace Work

def runOn {α : Type} (w : Work α) (b : Builder) : Outcome α × Builder := ExceptT.run w b

def ask {α : Type} (f : Builder → Outcome α) : Work α := do f (← get)

def refuse (e : CompilationError) : Work Unit := (CompilationError.fail e : Outcome Unit)

def change (f : QuerySpec → QuerySpec) : Work Unit := modify (·.withSpec f)

def step (w : Work Unit) : Step := fun b => (w.runOn b).1.map fun _ => (w.runOn b).2

def allOrNothing (b : Builder) : Outcome Builder → Outcome Unit × Builder
  | .ok d => (.ok (), d)
  | .error e => (.error e, b)

def ofStep (s : Step) : Work Unit := fun b => allOrNothing b (s b)

def block (callback : Work Unit) : Work (List Condition) := do
  let b ← get
  let (result, inner) := callback.runOn (.make b.spec.subject b.prefixes false)
  result
  return inner.spec.wheres

section

variable {α β : Type} {b : Builder}

theorem runOn_bind (w : Work α) (f : α → Work β) :
    (w >>= f).runOn b = match w.runOn b with
      | (.ok a, d) => (f a).runOn d
      | (.error e, d) => (.error e, d) := by
  have ran : (w >>= f).runOn b = (ExceptT.bindCont f (w.runOn b).1) (w.runOn b).2 := rfl
  rw [ran]
  cases w.runOn b with
  | mk r d => cases r <;> rfl

theorem runOn_lift (x : Outcome α) : (liftM x : Work α).runOn b = (x, b) := by
  cases x <;> rfl

theorem runOn_ask (f : Builder → Outcome α) : (ask f).runOn b = (f b, b) := by
  rw [ask, runOn_bind]
  exact runOn_lift (f b)

theorem runOn_ofStep (s : Step) : (ofStep s).runOn b = allOrNothing b (s b) := rfl

theorem step_ofStep (s : Step) : (ofStep s).step = s := by
  funext b
  rw [step, runOn_ofStep]
  cases s b <;> rfl

theorem runOn_block (callback : Work Unit) :
    (block callback).runOn b = (b.nested callback.step, b) := by
  rw [block, runOn_bind]
  change ((liftM (callback.runOn _).1 : Work Unit) >>= _).runOn b = _
  rw [runOn_bind, runOn_lift, Builder.nested, step]
  cases (callback.runOn _).1 <;> rfl

theorem runOn_block_ofStep (callback : Work Unit) :
    (block (ofStep callback.step)).runOn b = (block callback).runOn b := by
  rw [runOn_block, runOn_block, step_ofStep]

theorem runOn_mapM_block (steps : List Step) :
    (steps.mapM fun s => block (ofStep s)).runOn b = (steps.mapM b.nested, b) := by
  induction steps with
  | nil => rfl
  | cons s steps ih =>
    rw [List.mapM_cons, List.mapM_cons, runOn_bind, runOn_block, step_ofStep]
    cases b.nested s with
    | error e => rfl
    | ok conditions =>
      change runOn (List.mapM _ steps >>= _) b = _
      rw [runOn_bind, ih]
      cases steps.mapM b.nested <;> rfl

end

def append (c : Condition) : Work Unit := change fun s => { s with wheres := s.wheres ++ [c] }

def like (column pattern connector : Value) (negated : Bool) : Work Unit := do
  let c ← Connector.read connector
  let operator := Operator.regex negated true
  append (.basic column operator.word (.text (likeToRegex pattern.plainText)) c)

def test (column operator value connector : Value) : Work Unit := do
  let c ← Connector.read connector
  let o := lower (trim operator.plainText)
  if value.isNull && (o = "=" || o = "is") then append (.null column c)
  else if value.isNull && (o = "!=" || o = "<>" || o = "is not") then append (.notNull column c)
  else if o = "like" then like column value connector false
  else if o = "not like" then like column value connector true
  else
    let operator ← Operator.read (.text o)
    append (.basic column operator.word value c)

def testAll (connector : Value) (entries : Entries) : Work Unit :=
  entries.forM fun (k, v) => test k (.text "=") v connector

def whereTest (column : Value) (operator value : Option Value) (connector : Value) : Work Unit :=
  match column, operator, value with
  | .map entries, _, _ => testAll connector entries
  | column, some operator, some value => test column operator value connector
  | column, some value, none => test column (.text "=") value connector
  | column, none, some value => test column .null value connector
  | column, none, none => refuse (.missingValue column.plainText)

def bindTo (expression : Fragment) (target : Value) : Work Unit := do
  let name ← onlyText target
  change fun s => { s with binds := s.binds ++ [⟨expression, Shape.withMark name⟩] }

def limit (count : Value) : Work Unit := do
  let n ← count.whole
  change ({ · with limit := .int (max 0 n) })

def offset (count : Value) : Work Unit := do
  let n ← count.whole
  change ({ · with offset := .int (max 0 n) })

def addOrder (o : Order) : Work Unit := change fun s => { s with orders := s.orders ++ [o] }

def addValues (rows : Value) (names : List Value) : Work Unit := do
  let members ← rows.members
  let rows ← (members.mapM (rowOf names) : Outcome (List (List Value)))
  change fun s => { s with values := s.values ++ [⟨names, rows⟩] }

def addUnion (branches : List (List Condition)) : Work Unit := do
  match (← get).spec.wheres.getLast? with
  | some (.union earlier) =>
    change fun s => { s with wheres := s.wheres.dropLast ++ [.union (earlier ++ branches)] }
  | _ => append (.union branches)

end Work

namespace Edit

open Work

/-- A step as it goes. A mapping adds one condition after the other, and a page sets first where it
starts and then how long it is. -/
def work : Edit → Work Unit
  | .table name => change ({ · with table := name })
  | .graph name => change ({ · with graph := name })
  | .inNamespace name => do
    if name.isNull then change ({ · with namespaceName := none })
    else
      let name ← Namespace.validate name
      change ({ · with namespaceName := some name })
  | .select columns =>
    let columns := flatten columns
    change ({ · with columns := if columns.isEmpty then [.text "*"] else columns })
  | .addSelect columns =>
    change fun s =>
      { s with columns := s.columns.filter (!Compile.isStar ·) ++ flatten columns }
  | .selectExpression expression =>
    change fun s =>
      { s with columns := s.columns.filter (!Compile.isStar ·) ++ [(Term.raw expression).toValue] }
  | .distinct value => change ({ · with distinct := value })
  | .whereTest column operator value connector => Work.whereTest column operator value connector
  | .whereLike column pattern connector negated => like column pattern connector negated
  | .whereIn column given connector negated => do
    let members ← given.members
    append (.within column members (← Connector.read connector) negated)
  | .whereBetween column given connector negated => do
    append (.between (← between column given connector negated))
  | .whereNull column connector => do append (.null column (← Connector.read connector))
  | .whereNotNull column connector => do append (.notNull column (← Connector.read connector))
  | .whereRaw pattern given connector => do
    let pattern ← callerText pattern given
    let _ ← Connector.read connector
    append (.raw pattern)
  | .filter expression given connector => do
    let expression ← callerText expression given
    append (.filter expression (← Connector.read connector))
  | .whereTriple subject predicate object => append (.triple subject predicate object)
  | .wherePath path operator value connector => do
    let (operator, value) := match value with
      | some v => (operator, v)
      | none => (.text "=", operator)
    let o ← Operator.read operator
    append (.path path.plainText o value (← Connector.read connector))
  | .whereExists step connector negated => do
    let conditions ← block (ofStep step)
    if conditions.isEmpty then return ()
    else append (.exists conditions (← Connector.read connector) negated)
  | .whereGroup kind step => do
    let conditions ← block (ofStep step)
    if conditions.isEmpty then return () else append (.group kind conditions)
  | .union steps => do
    let branches := (← steps.mapM fun s => block (ofStep s)).filter (!·.isEmpty)
    if branches.isEmpty then return () else addUnion branches
  | .bind expression target given => do Work.bindTo (← callerText expression given) target
  | .typed target value datatype => do
    let iri ← ask fun b => datatypeIri (some b.prefixes) datatype
    Work.bindTo ⟨"STRDT( ? , " ++ angled iri ++ " )", [.text (lexical value)]⟩ target
  | .langTagged target value lang =>
    if Literal.isLanguageTag lang.plainText then
      Work.bindTo ⟨"STRLANG( ? , \"" ++ lang.plainText ++ "\" )", [.text value.plainText]⟩ target
    else refuse (.invalidLanguage lang.display)
  | .values targets rows =>
    if targets.chars?.isSome then addValues rows [targets]
    else do addValues rows (← targets.members)
  | .groupBy columns => change fun s => { s with groups := s.groups ++ flatten columns }
  | .having column operator value connector => do
    let (operator, value) := match value with
      | some v => (operator, v)
      | none => (.text "=", operator)
    let o ← Operator.read operator
    let c ← Connector.read connector
    change fun s => { s with havings := s.havings ++ [.test column o value c] }
  | .havingRaw expression given connector => do
    let expression ← callerText expression given
    let c ← Connector.read connector
    change fun s => { s with havings := s.havings ++ [.raw expression c] }
  | .orderBy column direction => do
    let d ← Direction.read direction
    Work.addOrder ⟨column, some d.word⟩
  | .orderByRaw expression => Work.addOrder ⟨expression, none⟩
  | .limit count => Work.limit count
  | .offset count => Work.offset count
  | .forPage page size => do
    let p ← page.whole
    let count ← times (max 1 p - 1).toNat size
    Work.offset count
    Work.limit size
  | .aggregate function column separator => do
    let a ← Aggregate.read function column separator
    change ({ · with aggregate := some a })
    if (← get).spec.groups.isEmpty then change ({ · with orders := [] })
  | .remember time default => do
    let b ← get
    let time := if time.isNull && b.attached then default else time
    modify ({ · with remembered := true })
    let limit ← Seconds.limit? time
    modify ({ · with timeToLive := if limit.isSome then time else .null })
  | .rememberForever => modify ({ · with remembered := true, timeToLive := .null })
  | .forget => modify ({ · with remembered := false, timeToLive := .null })

end Edit

/-- In place a program does what a step does to a builder, or it fails as the step does and leaves
the builder as it was. -/
structure Work.Commits (w : Work Unit) (x : Step) : Prop where
  run (b : Builder) : w.runOn b = allOrNothing b (x b)

namespace Work.Commits

variable {α : Type} {w v : Work Unit} {x y : Step} {f : α → Step} {g : α → Work Unit}

theorem modified (f : Builder → Builder) : Work.Commits (modify f) fun b => .ok (f b) :=
  ⟨fun _ => rfl⟩

theorem change (f : QuerySpec → QuerySpec) : (change f).Commits fun b => .ok (b.withSpec f) :=
  modified _

theorem done : Work.Commits (pure ()) .ok := ⟨fun _ => rfl⟩

theorem refused (e : CompilationError) : (refuse e).Commits fun _ => CompilationError.fail e :=
  ⟨fun _ => rfl⟩

theorem look {l : Work α} {o : Builder → Outcome α} (found : ∀ b, l.runOn b = (o b, b))
    (h : ∀ a, (g a).Commits (f a)) : (l >>= g).Commits fun b => o b >>= (f · b) := by
  refine ⟨fun b => ?_⟩
  change _ = allOrNothing b (o b >>= (f · b))
  rw [runOn_bind, found]
  cases o b with
  | error e => rfl
  | ok a => exact (h a).run b

theorem check {o : Outcome α} (h : ∀ a, o = .ok a → (g a).Commits (f a)) :
    (liftM o >>= g : Work Unit).Commits fun b => o >>= (f · b) := by
  refine ⟨fun b => ?_⟩
  change _ = allOrNothing b (o >>= (f · b))
  rw [runOn_bind, runOn_lift]
  cases o with
  | error e => rfl
  | ok a => exact (h a rfl).run b

theorem ite {c : Prop} [Decidable c] (hw : w.Commits x) (hv : v.Commits y) :
    (if c then w else v).Commits fun b => if c then x b else y b := by
  split
  · exact hw
  · exact hv

theorem seq (hw : w.Commits x) (hv : v.Commits y)
    (sure : ∀ b d, x b = .ok d → ∃ e, y d = .ok e) :
    (do w; v).Commits fun b => x b >>= y := by
  refine ⟨fun b => ?_⟩
  rw [runOn_bind, hw.run b]
  cases first : x b with
  | error e => rfl
  | ok d =>
    obtain ⟨e, second⟩ := sure b d first
    change v.runOn d = allOrNothing b (y d)
    rw [hv.run d, second]
    rfl

end Work.Commits

section

open Work

theorem commits_append (c : Condition) : (append c).Commits fun b => .ok (b.add c) := .change _

theorem commits_like (column pattern connector : Value) (negated : Bool) :
    (like column pattern connector negated).Commits
      fun b => b.whereLike column pattern connector negated :=
  .check fun _ _ => commits_append _

theorem commits_test (column operator value connector : Value) :
    (Work.test column operator value connector).Commits
      fun b => b.test column operator value connector := by
  refine .check fun c _ => .ite (commits_append _) (.ite (commits_append _) ?_)
  exact .ite (commits_like ..) (.ite (commits_like ..) (.check fun _ _ => commits_append _))

theorem test_equal {connector : Value} {c : Connector} (read : Connector.read connector = .ok c)
    (b : Builder) (column value : Value) :
    ∃ d, b.test column (.text "=") value connector = .ok d := by
  have sign : lower (trim (Value.text "=").plainText) = "=" := by decide +kernel
  rw [Builder.test, read, sign]
  cases value.isNull <;> exact ⟨_, rfl⟩

theorem testAll_of_read {connector : Value} {c : Connector}
    (read : Connector.read connector = .ok c) (b : Builder) (entries : Entries) :
    ∃ d, b.testAll connector entries = .ok d := by
  unfold testAll
  induction entries generalizing b with
  | nil => exact ⟨b, rfl⟩
  | cons e entries ih =>
    obtain ⟨k, v⟩ := e
    obtain ⟨d, first⟩ := test_equal read b k v
    rw [List.foldlM_cons]
    change ∃ e, b.test k _ v connector >>= _ = .ok e
    rw [first]
    exact ih d

theorem commits_testAll (connector : Value) (entries : Entries) :
    (Work.testAll connector entries).Commits fun b => b.testAll connector entries := by
  induction entries with
  | nil => exact .done
  | cons e entries ih =>
    obtain ⟨k, v⟩ := e
    refine .seq (commits_test k _ v connector) ih fun b d first => ?_
    obtain ⟨c, read, -⟩ := Outcome.bind_eq_ok_iff.1 first
    exact testAll_of_read read d entries

theorem commits_whereTest (column : Value) (operator value : Option Value) (connector : Value) :
    (Work.whereTest column operator value connector).Commits
      fun b => b.whereTest column operator value connector := by
  cases column with
  | map entries => exact commits_testAll ..
  | _ =>
    cases operator with
    | none =>
      cases value with
      | none => exact .refused _
      | some => exact commits_test ..
    | some =>
      cases value with
      | none => exact commits_test ..
      | some => exact commits_test ..

theorem commits_bindTo (expression : Fragment) (target : Value) :
    (Work.bindTo expression target).Commits fun b => b.bindTo expression target :=
  .check fun _ _ => .change _

theorem commits_limit (count : Value) : (Work.limit count).Commits fun b => b.limit count :=
  .check fun _ _ => .change _

theorem commits_offset (count : Value) : (Work.offset count).Commits fun b => b.offset count :=
  .check fun _ _ => .change _

theorem commits_values (targets rows : Value) :
    (Edit.values targets rows).work.Commits fun b => b.values targets rows := by
  have filled (names : List Value) : (addValues rows names).Commits fun b => do
      let rows ← (← rows.members).mapM (rowOf names)
      return b.withSpec fun s => { s with values := s.values ++ [⟨names, rows⟩] } :=
    .check fun _ _ => .check fun _ _ => .change _
  unfold Builder.values
  exact .ite (filled _) (.check fun _ _ => filled _)

theorem addBranches_eq (branches : List (List Condition)) (conditions : List Condition) :
    addBranches branches conditions = match conditions.getLast? with
      | some (.union earlier) => conditions.dropLast ++ [.union (earlier ++ branches)]
      | _ => conditions ++ [.union branches] := by
  fun_induction addBranches branches conditions with
  | case1 => rfl
  | case2 => rfl
  | case3 c cs other ih =>
    cases cs with
    | nil =>
      rw [List.getLast?_singleton]
      split
      · rename_i earlier same
        exact absurd (Option.some.inj same) fun same => other earlier same rfl
      · rfl
    | cons d cs =>
      rw [ih, List.getLast?_cons_cons]
      split <;> rfl

theorem commits_addUnion (branches : List (List Condition)) :
    (addUnion branches).Commits fun b =>
      .ok (b.withSpec fun s => { s with wheres := addBranches branches s.wheres }) := by
  refine ⟨fun b => ?_⟩
  change _ = allOrNothing b
    (.ok { b with spec := { b.spec with wheres := addBranches branches b.spec.wheres } })
  rw [addBranches_eq, addUnion, runOn_bind]
  change runOn (match b.spec.wheres.getLast? with | some (.union earlier) => _ | _ => _) b = _
  split <;> rfl

theorem commits_page {n : ℕ} {size count : Value} (made : times n size = .ok count) :
    (do Work.offset count; Work.limit size : Work Unit).Commits
      fun b => b.offset count >>= (·.limit size) := by
  refine .seq (commits_offset count) (commits_limit size) fun b d first => ?_
  obtain ⟨k, whole, -⟩ := Outcome.bind_eq_ok_iff.1 first
  obtain ⟨m, length⟩ := Value.whole_of_times made whole
  exact ⟨_, by rw [Builder.limit, length]; rfl⟩

theorem commits_setAggregate (a : Aggregate) :
    (do
      Work.change ({ · with aggregate := some a })
      if (← get).spec.groups.isEmpty then Work.change ({ · with orders := [] }) : Work Unit).Commits
      fun b => .ok (b.withSpec fun s =>
        { s with aggregate := some a, orders := if s.groups.isEmpty then [] else s.orders }) := by
  refine ⟨fun b => ?_⟩
  rw [runOn_bind]
  change runOn (if b.spec.groups.isEmpty then Work.change _ else pure ()) (b.withSpec _) =
    allOrNothing b (.ok { b with spec := { b.spec with
      aggregate := some a, orders := if b.spec.groups.isEmpty then [] else b.spec.orders } })
  split <;> rfl

end

namespace Edit

open Work

theorem commits_work {e : Edit} (h : ∀ time default, e ≠ .remember time default) :
    e.work.Commits fun b => e.apply b := by
  cases e with
  | remember time default => exact absurd rfl (h time default)
  | inNamespace name => exact .ite (.change _) (.check fun _ _ => .change _)
  | whereTest => exact commits_whereTest ..
  | whereLike => exact commits_like ..
  | whereIn => exact .check fun _ _ => .check fun _ _ => commits_append _
  | whereBetween | whereNull | whereNotNull => exact .check fun _ _ => commits_append _
  | whereRaw | filter | wherePath => exact .check fun _ _ => .check fun _ _ => commits_append _
  | whereExists step connector negated =>
    exact .look (fun b => by rw [runOn_block, step_ofStep]) fun conditions =>
      .ite .done (.check fun _ _ => commits_append _)
  | whereGroup kind step =>
    exact .look (fun b => by rw [runOn_block, step_ofStep]) fun conditions =>
      .ite .done (commits_append _)
  | union steps =>
    exact .look (fun b => runOn_mapM_block steps) fun branches => .ite .done (commits_addUnion _)
  | bind expression target given => exact .check fun _ _ => commits_bindTo ..
  | typed target value datatype =>
    exact .look (fun b => runOn_ask _) fun _ => commits_bindTo ..
  | langTagged target value lang => exact .ite (commits_bindTo ..) (.refused _)
  | values targets rows => exact commits_values targets rows
  | having | havingRaw => exact .check fun _ _ => .check fun _ _ => .change _
  | orderBy => exact .check fun _ _ => .change _
  | limit count => exact commits_limit count
  | offset count => exact commits_offset count
  | forPage page size => exact .check fun _ _ => .check fun _ made => commits_page made
  | aggregate => exact .check fun a _ => commits_setAggregate a
  | rememberForever | forget => exact .modified _
  | _ => exact .change _

theorem after_eq {e : Edit} (b : Builder) (h : ∀ time default, e ≠ .remember time default) :
    e.after b = (allOrNothing b (e.apply b)).2 := by
  have whole : e.after b = match e.apply b with
      | .ok d => d
      | .error _ => b := by
    unfold after
    split
    · exact absurd rfl (h _ _)
    · rfl
  rw [whole]
  cases e.apply b <;> rfl

theorem runOn_remember (b : Builder) (time default : Value) :
    (Edit.remember time default).work.runOn b = b.remember time default := by
  change runOn (liftM (Seconds.limit? (if time.isNull && b.attached then default else time)) >>= _)
    { b with remembered := true } = _
  rw [runOn_bind, runOn_lift]
  unfold Builder.remember
  simp only
  cases Seconds.limit? (if time.isNull && b.attached then default else time) <;> rfl

theorem runOn_work (e : Edit) (b : Builder) :
    e.work.runOn b = ((e.apply b).map fun _ => (), e.after b) := by
  by_cases own : ∃ time default, e = .remember time default
  · obtain ⟨time, default, rfl⟩ := own
    rw [runOn_remember]
    refine Prod.ext ?_ rfl
    change _ = ((b.remember time default).1.map _).map _
    cases (b.remember time default).1 <;> rfl
  · have other : ∀ time default, e ≠ .remember time default :=
      fun time default same => own ⟨time, default, same⟩
    rw [(commits_work other).run b, after_eq b other]
    cases e.apply b <;> rfl

theorem spec_after {e : Edit} {b : Builder} {err : Error} (failed : e.apply b = .error err) :
    (e.after b).spec = b.spec := by
  by_cases own : ∃ time default, e = .remember time default
  · obtain ⟨time, default, rfl⟩ := own
    exact spec_remember b time default
  · rw [after_eq b fun time default same => own ⟨time, default, same⟩, failed]
    rfl

/-- A step that fails in place, by its arguments or in a callback, leaves the query as it was. -/
theorem spec_of_refused {e : Edit} {b d : Builder} {err : Error}
    (refused : e.work.runOn b = (.error err, d)) : e.apply b = .error err ∧ d.spec = b.spec := by
  rw [runOn_work, Prod.mk.injEq] at refused
  obtain ⟨failed, rfl⟩ := refused
  cases made : e.apply b with
  | ok d =>
    rw [made] at failed
    cases failed
  | error cause =>
    rw [made] at failed
    obtain rfl : cause = err := Except.error.inj failed
    exact ⟨rfl, spec_after made⟩

def brokenOff : Work Unit := do
  append (.null (.text "foaf:name") .and)
  (Misuse.fail .badValue : Outcome Unit)

theorem spec_of_refused_brokenOff : ∃ b d : Builder,
    b.spec.wheres.length = 1 ∧ (brokenOff.runOn b).2.spec.wheres.length = 2 ∧
    (Edit.union [.ok, brokenOff.step]).work.runOn b = (.error (.misuse .badValue), d) ∧
    d.spec = b.spec := by
  let b := (Builder.make "?s" .standard false).whereTriple (.text "?s") (.text "a") (.text "?o")
  have refused :
      (Edit.union [.ok, brokenOff.step]).work.runOn b = (.error (.misuse .badValue), b) := rfl
  exact ⟨b, b, rfl, rfl, refused, (spec_of_refused refused).2⟩

def session (b : Builder) (es : List Edit) : Builder := es.foldl (fun b e => (e.work.runOn b).2) b

def accepted (b : Builder) : List Edit → List Edit
  | [] => []
  | e :: es =>
    match e.apply b with
    | .ok d => e :: accepted d es
    | .error _ => accepted b es

/-- In a whole session a step that fails leaves no trace. -/
theorem foldlM_accepted {es : List Edit}
    (h : ∀ e ∈ es, ∀ time default, e ≠ .remember time default) (b : Builder) :
    (accepted b es).foldlM apply b = .ok (session b es) := by
  induction es generalizing b with
  | nil => rfl
  | cons e es ih =>
    rw [List.forall_mem_cons] at h
    have first : session b (e :: es) = session (allOrNothing b (e.apply b)).2 es := by
      rw [session, List.foldl_cons, (commits_work h.1).run b]
      rfl
    rw [first, accepted]
    cases made : e.apply b with
    | ok d =>
      rw [List.foldlM_cons, made]
      exact ih h.2 d
    | error => exact ih h.2 b

end Edit

end SparqlClient.Builder
