import SparqlClient.Proofs.Failure.Basic
import SparqlClient.Proofs.Query.Conditions
import SparqlClient.Proofs.Query.Parts

/-! A query that cannot be written fails as a mistake of the caller: no clause, condition or form
reports a failed exchange. -/

namespace SparqlClient

open Text Error

namespace Compile

/-- From every scope the step fails with one of these errors, if it fails. -/
def StepFailsWith {α : Type} (P : Error → Prop) (m : Compile α) : Prop :=
  ∀ s, FailsWith P (StateT.run m s)

section

variable {α β : Type} {P : Error → Prop}

theorem stepFailsWith_pure (a : α) : StepFailsWith P (pure a) := by
  intro s
  rw [StateT.run_pure]
  exact failsWith_pure _

theorem stepFailsWith_lift {x : Outcome α} (h : FailsWith P x) :
    StepFailsWith P (liftM x : Compile α) := by
  intro s
  cases x with
  | error e => exact (failsWith_error e).2 (h e rfl)
  | ok a => exact failsWith_ok (a, s)

theorem StepFailsWith.bind {m : Compile α} {f : α → Compile β} (hm : StepFailsWith P m)
    (hf : ∀ a, StepFailsWith P (f a)) : StepFailsWith P (m >>= f) := by
  intro s
  rw [StateT.run_bind, failsWith_bind]
  exact ⟨hm s, fun a _ => hf a.1 a.2⟩

theorem stepFailsWith_get : StepFailsWith P (get : Compile Scope) := fun s => failsWith_ok (s, s)

theorem stepFailsWith_modifyGet (f : Scope → α × Scope) :
    StepFailsWith P (modifyGet f : Compile α) :=
  fun s => failsWith_ok (f s)

theorem stepFailsWith_mapM {f : α → Compile β} {l : List α}
    (h : ∀ a ∈ l, StepFailsWith P (f a)) : StepFailsWith P (l.mapM f) := by
  induction l with
  | nil =>
    rw [List.mapM_nil]
    exact stepFailsWith_pure _
  | cons a l ih =>
    rw [List.forall_mem_cons] at h
    rw [List.mapM_cons]
    exact h.1.bind fun b => (ih h.2).bind fun bs => stepFailsWith_pure _

theorem failsWith_run {q : QuerySpec} {form : Compile α} (h : StepFailsWith P form) :
    FailsWith P (run q form) := by
  rw [run, failsWith_map]
  exact h _

end

variable {p : Prefixes}

theorem local_resolve (v : Value) : StepFailsWith IsLocal (resolve p v) := by
  intro s
  rw [run_resolve]
  cases columnForm p v <;> simp [ColumnForm.resolved]

theorem local_need (v : Value) (optional : Bool) : StepFailsWith IsLocal (need p v optional) := by
  refine (local_resolve v).bind fun c => ?_
  split
  · exact stepFailsWith_pure _
  · exact (stepFailsWith_modifyGet _).bind fun _ => stepFailsWith_pure _

theorem local_pattern (q : String) (object : Fragment) :
    StepFailsWith IsLocal (pattern q object) :=
  stepFailsWith_get.bind fun _ => stepFailsWith_pure _

theorem local_read (operator : String) : FailsWith IsLocal (Operator.read (.text operator)) := by
  unfold Operator.read
  split <;> simp

theorem local_test (ref : String) (o : Operator) (v label : Value) :
    FailsWith IsLocal (Write.test p ref o v label) := by
  cases o <;> simp [Write.test]

theorem local_atTop (l : Place) (q : String) : StepFailsWith IsLocal (l.atTop q) := by
  unfold Place.atTop
  split
  · exact stepFailsWith_modifyGet _
  · exact stepFailsWith_pure _

theorem local_columnPattern (l : Place) (c : Column) (optional : Bool) :
    StepFailsWith IsLocal (columnPattern l c optional) := by
  unfold columnPattern
  split
  · exact stepFailsWith_pure _
  · exact (local_pattern _ _).bind fun _ => (local_atTop l _).bind fun _ => stepFailsWith_pure _

theorem local_columnTest (l : Place) (c : Column) (optional : Bool) (connector : Connector)
    (e : Fragment) : StepFailsWith IsLocal (columnTest l c optional connector e) :=
  (local_columnPattern l c optional).bind fun _ => stepFailsWith_pure _

theorem local_basic (l : Place) (column value : Value) (operator : String)
    (connector : Connector) : StepFailsWith IsLocal (basic l column operator value connector) := by
  refine (local_resolve column).bind fun c => ?_
  refine (stepFailsWith_lift (local_read operator)).bind fun o => ?_
  split
  · exact (local_pattern _ _).bind fun _ => stepFailsWith_pure _
  · exact (stepFailsWith_lift (local_test _ _ _ _)).bind fun _ => local_columnTest l _ _ _ _

theorem local_notNull (l : Place) (column : Value) (connector : Connector) :
    StepFailsWith IsLocal (notNull l column connector) := by
  refine (local_resolve column).bind fun c => ?_
  split
  · exact local_columnTest l _ _ _ _
  · exact local_columnPattern l c false

theorem local_element (path : String) (t : PathToken) :
    FailsWith IsLocal (Path.element p path t) := by
  cases t <;> simp [Path.element]

theorem local_expand (path : String) : FailsWith IsLocal (Path.expand p path) := by
  unfold Path.expand
  rw [failsWith_bind]
  exact ⟨failsWith_mapM fun t _ => local_element path t, fun parts _ => by simp⟩

theorem local_path (l : Place) (path : String) (o : Operator) (value : Value)
    (connector : Connector) : StepFailsWith IsLocal (Compile.path l path o value connector) := by
  refine (stepFailsWith_lift (local_expand path)).bind fun text => ?_
  refine stepFailsWith_get.bind fun s => ?_
  split
  · exact stepFailsWith_pure _
  · refine (stepFailsWith_modifyGet _).bind fun ref => ?_
    exact (stepFailsWith_lift (local_test _ _ _ _)).bind fun _ => stepFailsWith_pure _

theorem local_groupText (kind : GroupKind) (inner : Fragment) :
    FailsWith IsLocal (groupText p kind inner) := by
  cases kind <;> simp [groupText]

theorem local_anyOr (connectors : List (Option Connector)) :
    FailsWith IsLocal (anyOr connectors) := by
  fun_induction anyOr connectors with
  | case4 rest ih => exact ih
  | _ => simp

mutual

theorem local_condition (l : Place) (c : Condition) : StepFailsWith IsLocal (condition l c) := by
  cases c with
  | basic column operator value connector => exact local_basic l column value operator connector
  | within column values connector negated =>
    exact (local_resolve column).bind fun _ => local_columnTest l _ _ _ _
  | between r => exact (local_resolve r.column).bind fun _ => local_columnTest l _ _ _ _
  | null column connector => exact (local_resolve column).bind fun _ => local_columnTest l _ _ _ _
  | notNull column connector => exact local_notNull l column connector
  | raw pattern => exact stepFailsWith_pure _
  | filter expression connector => exact stepFailsWith_pure _
  | triple subject pred object => exact stepFailsWith_pure _
  | group kind conditions =>
    refine (stepFailsWith_lift (local_anyOr _)).bind fun folded => ?_
    refine (local_all _ conditions).bind fun inner => ?_
    exact (stepFailsWith_lift (local_groupText _ _)).bind fun _ => stepFailsWith_pure _
  | union branches => exact (local_blocks _ branches).bind fun _ => stepFailsWith_pure _
  | «exists» conditions connector negated =>
    refine (stepFailsWith_lift (local_anyOr _)).bind fun folded => ?_
    exact (local_all _ conditions).bind fun _ => stepFailsWith_pure _
  | path path o value connector => exact local_path l path o value connector
  | stray order =>
    exact (local_resolve order.column).bind fun _ => stepFailsWith_lift (by simp)

theorem local_all (l : Place) (cs : List Condition) : StepFailsWith IsLocal (all l cs) := by
  match cs with
  | [] => exact stepFailsWith_pure _
  | c :: cs =>
    rw [all]
    exact (local_condition l c).bind fun _ => (local_all l cs).bind fun _ => stepFailsWith_pure _

theorem local_blocks (p : Prefixes) (bs : List (List Condition)) :
    StepFailsWith IsLocal (blocks p bs) := by
  match bs with
  | [] => exact stepFailsWith_pure _
  | b :: bs =>
    rw [blocks]
    refine (stepFailsWith_lift (local_anyOr _)).bind fun folded => ?_
    exact (local_all _ b).bind fun _ => (local_blocks p bs).bind fun _ => stepFailsWith_pure _

end

theorem local_block (conditions : List Condition) :
    StepFailsWith IsLocal (block p conditions) := by
  refine (stepFailsWith_lift (local_anyOr _)).bind fun folded => ?_
  exact (local_all _ conditions).bind fun _ => stepFailsWith_pure _

theorem local_column (v : Value) : StepFailsWith IsLocal (column p v) := by
  unfold column
  split
  · exact stepFailsWith_pure _
  · exact local_need _ _

theorem local_aggregate (a : Aggregate) (distinct : Bool) :
    StepFailsWith IsLocal (aggregate p a distinct) := by
  have target : StepFailsWith IsLocal (aggregateTarget p a) := by
    unfold aggregateTarget
    split
    · split
      · exact stepFailsWith_pure _
      · exact stepFailsWith_lift (by simp)
    · exact local_need _ _
  have separator : FailsWith IsLocal (separatorText a.separator) := by
    unfold separatorText
    simp
  rw [aggregate_eq]
  exact target.bind fun _ => (stepFailsWith_lift separator).bind fun _ => stepFailsWith_pure _

theorem local_selectClause (q : QuerySpec) : StepFailsWith IsLocal (selectClause p q) := by
  unfold selectClause
  split
  · exact (local_aggregate _ _).bind fun _ => stepFailsWith_pure _
  · simp only
    split
    · exact stepFailsWith_pure _
    · exact (stepFailsWith_mapM fun v _ => local_column v).bind fun _ => stepFailsWith_pure _

theorem local_groupClause (q : QuerySpec) : StepFailsWith IsLocal (groupClause p q) := by
  unfold groupClause
  split
  · exact stepFailsWith_pure _
  · exact (stepFailsWith_mapM fun v _ => local_need v false).bind fun _ => stepFailsWith_pure _

theorem local_having (h : Having) : StepFailsWith IsLocal (having p h) := by
  cases h with
  | raw expression connector => exact stepFailsWith_pure _
  | test column o value connector =>
    refine (local_need column false).bind fun ref => ?_
    split
    · exact stepFailsWith_pure _
    · exact stepFailsWith_lift (by simp)

theorem local_havingClause (q : QuerySpec) : StepFailsWith IsLocal (havingClause p q) := by
  unfold havingClause
  split
  · exact stepFailsWith_pure _
  · refine (stepFailsWith_mapM fun h _ => ?_).bind fun _ => stepFailsWith_pure _
    exact (local_having h).bind fun _ => stepFailsWith_pure _

theorem local_orderKey (o : Order) : StepFailsWith IsLocal (orderKey p o) := by
  unfold orderKey
  split
  · exact stepFailsWith_pure _
  · have read (d : String) : FailsWith IsLocal (Direction.read (.text d)) := by
      unfold Direction.read
      simp only
      split
      · simp
      · split <;> simp
    exact (stepFailsWith_lift (read _)).bind fun _ =>
      (local_need o.column true).bind fun _ => stepFailsWith_pure _

theorem local_orderClause (q : QuerySpec) : StepFailsWith IsLocal (orderClause p q) := by
  unfold orderClause
  split
  · exact stepFailsWith_pure _
  · exact (stepFailsWith_mapM fun o _ => local_orderKey o).bind fun _ => stepFailsWith_pure _

theorem local_slice (q : QuerySpec) : FailsWith IsLocal (slice q) := by
  have part (keyword : String) (given : Bool) (count : Value) :
      FailsWith IsLocal (slicePart keyword given count) := by
    cases given <;> simp [slicePart, countText]
  rw [slice_eq]
  simp [part]

theorem local_fromClause (q : QuerySpec) : FailsWith IsLocal (fromClause q) := by
  simp [fromClause]

theorem local_body (q : QuerySpec) : StepFailsWith IsLocal (body p q) := by
  have table : StepFailsWith IsLocal (tableClause p q) := by
    unfold tableClause
    split
    · exact stepFailsWith_get.bind fun _ => stepFailsWith_pure _
    · exact stepFailsWith_pure _
  have needed : StepFailsWith IsLocal neededPatterns :=
    stepFailsWith_get.bind fun _ => stepFailsWith_mapM fun _ _ =>
      (local_pattern _ _).bind fun _ => stepFailsWith_pure _
  have values (b : ValuesBlock) : FailsWith IsLocal (valuesText p b) := by
    unfold valuesText
    rw [failsWith_bind]
    exact ⟨failsWith_mapM fun v _ => by simp, fun _ _ => failsWith_pure _⟩
  exact table.bind fun _ => (local_block q.wheres).bind fun _ => needed.bind fun _ =>
    (stepFailsWith_lift (failsWith_mapM fun b _ => values b)).bind fun _ => stepFailsWith_pure _

theorem local_select (q : QuerySpec) : StepFailsWith IsLocal (select p q) :=
  (local_selectClause q).bind fun _ => (local_groupClause q).bind fun _ =>
    (local_havingClause q).bind fun _ => (local_orderClause q).bind fun _ =>
    (local_body q).bind fun _ => (stepFailsWith_lift (local_fromClause q)).bind fun _ =>
    (stepFailsWith_lift (local_slice q)).bind fun _ => stepFailsWith_pure _

theorem local_ask (q : QuerySpec) : StepFailsWith IsLocal (ask p q) :=
  (local_body q).bind fun _ => (stepFailsWith_lift (local_fromClause q)).bind fun _ =>
    stepFailsWith_pure _

theorem local_template (v : Value) : FailsWith IsLocal (template p v) := by
  unfold template
  split
  · simp
  · rw [failsWith_bind]
    refine ⟨v.failsWith_members, fun triples _ => ?_⟩
    rw [failsWith_bind]
    exact ⟨failsWith_mapM fun t _ => by simp, fun _ _ => failsWith_pure _⟩

theorem local_anyTriple : StepFailsWith IsLocal anyTriple :=
  stepFailsWith_get.bind fun _ => stepFailsWith_pure _

theorem local_construct (q : QuerySpec) (given : Value) :
    StepFailsWith IsLocal (construct p q given) := by
  have parts (body : Fragment) : StepFailsWith IsLocal (constructParts p given body) := by
    unfold constructParts
    split
    · exact local_anyTriple.bind fun _ => stepFailsWith_pure _
    · exact (stepFailsWith_lift (local_template given)).bind fun _ => stepFailsWith_pure _
  rw [construct_eq]
  exact (local_orderClause q).bind fun _ => (local_body q).bind fun body =>
    (parts body).bind fun _ => (stepFailsWith_lift (local_fromClause q)).bind fun _ =>
    (stepFailsWith_lift (local_slice q)).bind fun _ => stepFailsWith_pure _

theorem local_describe (q : QuerySpec) (resources : Value) :
    StepFailsWith IsLocal (describe p q resources) := by
  have targets : StepFailsWith IsLocal (describeTargets p resources) := by
    unfold describeTargets
    split
    · exact (stepFailsWith_lift resources.failsWith_members).bind fun _ => stepFailsWith_pure _
    · exact stepFailsWith_get.bind fun _ => stepFailsWith_pure _
  rw [describe_eq]
  refine targets.bind fun _ => ?_
  split
  · exact stepFailsWith_pure _
  · exact (local_body q).bind fun _ => (stepFailsWith_lift (local_fromClause q)).bind fun _ =>
      (stepFailsWith_lift (local_slice q)).bind fun _ => stepFailsWith_pure _

theorem local_graphClause (q : QuerySpec) : FailsWith IsLocal (graphClause q) := by
  simp [graphClause]

theorem local_modify (q : QuerySpec) (deleted inserted : Value) :
    StepFailsWith IsLocal (Compile.modify p q deleted inserted) := by
  have clause (keyword : String) (v : Value) : FailsWith IsLocal (templateClause p keyword v) := by
    simp [templateClause, local_template]
  refine (local_body q).bind fun _ => ?_
  refine (stepFailsWith_lift (local_graphClause q)).bind fun _ => ?_
  refine (stepFailsWith_lift (clause _ deleted)).bind fun _ => ?_
  refine (stepFailsWith_lift (clause _ inserted)).bind fun _ => ?_
  split
  · exact stepFailsWith_lift (by simp)
  · exact stepFailsWith_pure _

theorem local_deleteSubjects (q : QuerySpec) : StepFailsWith IsLocal (deleteSubjects p q) :=
  (local_body q).bind fun _ => (stepFailsWith_lift (local_graphClause q)).bind fun _ =>
    local_anyTriple.bind fun _ => stepFailsWith_pure _

end Compile

theorem local_write (p : Prefixes) (q : QuerySpec) (form : Form) :
    FailsWith IsLocal (q.write p form) := by
  cases form with
  | select => exact Compile.failsWith_run (Compile.local_select q)
  | ask => exact Compile.failsWith_run (Compile.local_ask q)
  | construct template => exact Compile.failsWith_run (Compile.local_construct q template)
  | describe resources => exact Compile.failsWith_run (Compile.local_describe q resources)
  | insertWhere template => exact Compile.failsWith_run (Compile.local_modify q .null template)
  | deleteWhere template =>
    refine Compile.failsWith_run ?_
    split
    · exact Compile.local_deleteSubjects q
    · exact Compile.local_modify q template .null
  | deleteInsert deleted inserted =>
    exact Compile.failsWith_run (Compile.local_modify q deleted inserted)

end SparqlClient
