import SparqlClient.Proofs.Query.Alike

/-! The text of a query does not depend on its scalars. Queries that differ in scalars alone fail
with the same error or have the same text, and a value takes the place of its counterpart. -/

namespace SparqlClient

open Text

namespace QuerySpec.Alike

variable {q r : QuerySpec}

theorem fromClause_eq (h : q.Alike r) : Compile.fromClause r = Compile.fromClause q := by
  rw [h.rest]
  rfl

theorem graphClause_eq (h : q.Alike r) : Compile.graphClause r = Compile.graphClause q := by
  rw [h.rest]
  rfl

theorem slice_eq (h : q.Alike r) : Compile.slice r = Compile.slice q := by
  rw [h.rest]
  rfl

theorem orderClause_eq (h : q.Alike r) (p : Prefixes) :
    Compile.orderClause p r = Compile.orderClause p q := by
  rw [h.rest]
  rfl

end QuerySpec.Alike

namespace Compile

variable {k : List (Value × Value)} {e f : Fragment}

theorem mapM_agree {α β : Type} {A : α → α → Prop} {R : List (Value × Value) → β → β → Prop}
    (p : Prefixes) (own : α → List Owner) {f : α → Compile β} {as bs : List α}
    (h : List.Forall₂ A as bs) (step : ∀ a b, A a b →
      Agree (R ((keptBy p (own a)).zip (keptBy p (own b)))) (f a) (f b) ∧
        (keptBy p (own b)).length = (keptBy p (own a)).length) :
    Agree (Twins R ((keptBy p (as.flatMap own)).zip (keptBy p (bs.flatMap own))))
        (as.mapM f) (bs.mapM f) ∧
      (keptBy p (bs.flatMap own)).length = (keptBy p (as.flatMap own)).length := by
  induction h with
  | nil =>
    rw [List.mapM_nil]
    exact ⟨.pure .nil, rfl⟩
  | @cons a b as bs first _ ih =>
    obtain ⟨twin, length⟩ := step a b first
    obtain ⟨twins, lengths⟩ := ih
    rw [List.flatMap_cons, List.flatMap_cons, keptBy_append, keptBy_append, List.mapM_cons,
      List.mapM_cons, List.zip_append length.symm]
    refine ⟨twin.bind fun x y hx => twins.bind fun xs ys hxs => .pure (.cons hx hxs), ?_⟩
    rw [List.length_append, List.length_append, length, lengths]

theorem having_agree (p : Prefixes) {h g : Having} (alike : h.Alike g) :
    Agree (Fragment.Twin (h.values.zip g.values)) (having p h) (having p g) ∧
      g.values.length = h.values.length := by
  cases h with
  | raw expression connector =>
    obtain ⟨f, rfl, text, length⟩ := alike
    have twin := Fragment.Twin.of_bindings text rfl rfl length
    exact ⟨.pure ((twin.before _).after _), length⟩
  | test column o v connector =>
    obtain ⟨w, rfl, same⟩ := alike
    refine ⟨.after _ fun ref => ?_, same.length_kept⟩
    cases o with
    | compare c => exact .pure ((same.operand p).before _)
    | _ => exact fun s => .error _

theorem havingClause_agree (p : Prefixes) {q r : QuerySpec}
    (h : List.Forall₂ Having.Alike q.havings r.havings) :
    Agree (Fragment.Twin ((keptBy p (q.havings.flatMap fun h => Owner.listed p (.having h))).zip
        (keptBy p (r.havings.flatMap fun h => Owner.listed p (.having h)))))
      (havingClause p q) (havingClause p r) ∧
      (keptBy p (r.havings.flatMap fun h => Owner.listed p (.having h))).length =
        (keptBy p (q.havings.flatMap fun h => Owner.listed p (.having h))).length := by
  obtain ⟨twins, lengths⟩ := mapM_agree (R := Test.Twin) p (fun h => Owner.listed p (.having h))
    (f := fun h => do return (⟨h.connector, ← having p h⟩ : Test)) h (fun h g alike => by
      obtain ⟨twin, length⟩ := having_agree p alike
      rw [keptBy_listed, keptBy_listed]
      exact ⟨twin.bind fun _ _ twin => .pure ⟨alike.connector, twin⟩, length⟩)
  refine ⟨?_, lengths⟩
  have empty : r.havings.isEmpty = q.havings.isEmpty := by
    generalize q.havings = hs at h
    generalize r.havings = gs at h
    cases h <;> rfl
  unfold havingClause
  rw [empty]
  split
  · rename_i none_given
    have none_given' := empty.trans none_given
    rw [List.isEmpty_iff.1 none_given, List.isEmpty_iff.1 none_given']
    exact .pure (.ofText "")
  · exact twins.bind fun ts us tests => .pure ((tests.foldTests.before _).after _)

theorem tableClause_agree (p : Prefixes) (q : QuerySpec) :
    Agree (Twins Fragment.Twin []) (tableClause p q) (tableClause p q) := by
  unfold tableClause
  split
  · exact .after get fun s => .pure (.singleton (.ofText _))
  · exact .pure .nil

theorem neededPatterns_agree :
    Agree (Twins Fragment.Twin []) neededPatterns neededPatterns := by
  refine .after get fun s => ?_
  obtain ⟨twins, -⟩ := mapM_agree (A := Eq) (R := Fragment.Twin) .empty (fun _ => [])
    (f := fun e : String × Bool => do
      return optionally e.2 (← pattern e.1 (.ofText ((s.refOf? e.1).getD ""))))
    (List.forall₂_same.2 fun e _ => rfl) (by
      rintro e _ rfl
      exact ⟨(pattern_agree e.1 (.ofText _)).bind fun _ _ twin =>
        .pure (optionally_twin e.2 twin), rfl⟩)
  have nobody (l : List (String × Bool)) : keptBy .empty (l.flatMap fun _ => []) = [] := by
    simp [keptBy]
  rwa [nobody] at twins

theorem valuesText_bindings {p : Prefixes} {b : ValuesBlock} {f : Fragment}
    (h : valuesText p b = .ok f) : f.bindings = [] := by
  obtain ⟨names, -, last⟩ := Outcome.bind_eq_ok_iff.1 h
  obtain rfl := Outcome.pure_eq_ok_iff.1 last
  rfl

theorem binds_twin (p : Prefixes) {bs cs : List Bind} (h : List.Forall₂ Bind.Alike bs cs) :
    Twins Fragment.Twin ((keptBy p (bs.flatMap fun b => Owner.listed p (.bind b))).zip
        (keptBy p (cs.flatMap fun b => Owner.listed p (.bind b))))
      (bs.map bindText) (cs.map bindText) ∧
      (keptBy p (cs.flatMap fun b => Owner.listed p (.bind b))).length =
        (keptBy p (bs.flatMap fun b => Owner.listed p (.bind b))).length := by
  induction h with
  | nil => exact ⟨.nil, rfl⟩
  | @cons b c bs cs first _ ih =>
    obtain ⟨target, text, length⟩ := first
    obtain ⟨twins, lengths⟩ := ih
    have twin : Fragment.Twin (b.expression.bindings.zip c.expression.bindings) (bindText b)
        (bindText c) := by
      rw [bindText, bindText, target]
      exact ((Fragment.Twin.of_bindings text rfl rfl length).before _).after _
    simp only [List.flatMap_cons, keptBy_append, keptBy_listed, Owner.values, List.map_cons]
    rw [List.zip_append length.symm]
    refine ⟨.cons twin twins, ?_⟩
    rw [List.length_append, List.length_append, length, lengths]

theorem block_agree (p : Prefixes) {cs ds : List Condition} (h : AllAlike cs ds) :
    Agree (Fragment.Twin ((keptBy p (ownersOfAll p (foldsTests cs) cs)).zip
        (keptBy p (ownersOfAll p (foldsTests ds) ds)))) (block p cs) (block p ds) ∧
      (keptBy p (ownersOfAll p (foldsTests ds) ds)).length =
        (keptBy p (ownersOfAll p (foldsTests cs) cs)).length := by
  obtain ⟨twin, length⟩ := all_agree ⟨p, foldsTests cs, true⟩ cs ds h
  rw [h.foldsTests, block_eq, block_eq]
  exact ⟨blockAt_agree h twin, length⟩

theorem body_agree (p : Prefixes) {q r : QuerySpec} (h : q.Alike r) :
    Agree (Fragment.Twin ((keptBy p (q.bodyOwners p)).zip (keptBy p (r.bodyOwners p))))
        (body p q) (body p r) ∧
      (keptBy p (r.bodyOwners p)).length = (keptBy p (q.bodyOwners p)).length := by
  obtain ⟨rest, wheres, binds, -⟩ := h
  obtain ⟨conditions, length⟩ := block_agree p wheres
  obtain ⟨bound, lengths⟩ := binds_twin p binds
  have table : tableClause p r = tableClause p q := by rw [rest]; rfl
  have data : r.values = q.values := by rw [rest]
  unfold body
  rw [table, data]
  simp only [QuerySpec.bodyOwners, keptBy_append]
  rw [List.zip_append length.symm]
  refine ⟨(tableClause_agree p q).bind fun t t' type => conditions.bind fun f g block =>
    neededPatterns_agree.bind fun n n' needed => .afterLift _ fun values written => .pure ?_, ?_⟩
  · have plain : ∀ f ∈ values, Fragment.Twin [] f f :=
      Outcome.forall_mem_of_mapM (fun b _ f hf => .of_plain (valuesText_bindings hf)) written
    have values_twin : Twins Fragment.Twin [] values values := .same plain
    have parts := ((type.append (.cons block needed)).append bound).append values_twin
    rw [List.nil_append, List.append_nil, List.append_nil] at parts
    exact parts.joinPresent " "
  · rw [List.length_append, List.length_append, length, lengths]

theorem whereText_twin (h : e.Twin k f) : (whereText e).Twin k (whereText f) :=
  h.inBraces.before "WHERE "

theorem plain_twin (texts : List String) : Twins Fragment.Twin [] (plain texts) (plain texts) :=
  .same (List.forall_mem_map.2 fun s _ => .ofText s)

variable {q r : QuerySpec}

theorem select_agree (p : Prefixes) (h : q.Alike r) :
    Agree (Fragment.Twin ((q.kept p .select).zip (r.kept p .select))) (select p q) (select p r) ∧
      (r.kept p .select).length = (q.kept p .select).length := by
  obtain ⟨body, length⟩ := body_agree p h
  obtain ⟨havings, lengths⟩ := havingClause_agree p h.havings
  have head : selectClause p r = selectClause p q := by rw [h.rest]; rfl
  have groups : groupClause p r = groupClause p q := by rw [h.rest]; rfl
  have kept (q : QuerySpec) : q.kept p .select = keptBy p (q.bodyOwners p) ++
      keptBy p (q.havings.flatMap fun h => Owner.listed p (.having h)) := keptBy_append p _ _
  rw [kept, kept, List.zip_append length.symm, List.length_append, List.length_append, length,
    lengths]
  refine ⟨?_, rfl⟩
  unfold select
  rw [head, groups, h.orderClause_eq p, h.fromClause_eq, h.slice_eq]
  refine .after _ fun head => .after _ fun groups => havings.bind fun f f' having => ?_
  refine .after _ fun orders => body.bind fun g g' twin => ?_
  refine .after _ fun source => .after _ fun slice => .pure ?_
  have parts := (Twins.cons (.ofText head) (.cons (.ofText source) (.cons (whereText_twin twin)
    (.cons (.ofText groups) (.cons having (.singleton (.ofText orders))))))).append
      (plain_twin slice)
  simp only [List.nil_append, List.append_nil] at parts
  exact parts.joinPresent " "

theorem ask_agree (p : Prefixes) (h : q.Alike r) :
    Agree (Fragment.Twin ((q.kept p .ask).zip (r.kept p .ask))) (ask p q) (ask p r) := by
  unfold ask
  rw [h.fromClause_eq]
  refine (body_agree p h).1.bind fun f g twin => .after _ fun source => .pure ?_
  have parts := Twins.cons (.ofText "ASK") (.cons (.ofText source)
    (.singleton (whereText_twin twin)))
  exact parts.joinPresent " "

theorem construct_agree (p : Prefixes) (h : q.Alike r) (template : Value) :
    Agree (Fragment.Twin ((q.kept p (.construct template)).zip (r.kept p (.construct template))))
      (construct p q template) (construct p r template) := by
  rw [construct_eq, construct_eq, h.orderClause_eq p, h.fromClause_eq, h.slice_eq]
  refine .after _ fun orders => (body_agree p h).1.bind fun f g twin => ?_
  have parts : Agree (fun a b => b.1 = a.1 ∧ Fragment.Twin ((q.kept p (.construct template)).zip
      (r.kept p (.construct template))) a.2 b.2)
      (constructParts p template f) (constructParts p template g) := by
    unfold constructParts
    split
    · exact .after _ fun pattern => .pure ⟨rfl, twin.mapText fun s => trim (s ++ " " ++ pattern)⟩
    · exact .after _ fun head => .pure ⟨rfl, twin⟩
  refine parts.bind fun a b ⟨head, body⟩ => .after _ fun source => .after _ fun slice => .pure ?_
  rw [head]
  have listed := (Twins.cons (.ofText ("CONSTRUCT " ++ inBraces a.1)) (.cons (.ofText source)
    (.cons (whereText_twin body) (.singleton (.ofText orders))))).append
      (plain_twin slice)
  simp only [List.nil_append, List.append_nil] at listed
  exact listed.joinPresent " "

theorem describesAlone_alike (h : q.Alike r) (resources : Value) :
    describesAlone r resources = describesAlone q resources := by
  have table : r.table = q.table := by rw [h.rest]
  have wheres : r.wheres.isEmpty = q.wheres.isEmpty := by
    have alike := h.wheres
    generalize q.wheres = cs at alike
    cases cs with
    | nil =>
      have none_left : r.wheres = [] := alike
      rw [none_left]
    | cons c cs =>
      obtain ⟨d, rest, same, -⟩ := alike
      rw [same]
      rfl
  rw [describesAlone, describesAlone, table, wheres]

theorem describe_agree (p : Prefixes) (h : q.Alike r) (resources : Value) :
    Agree (Fragment.Twin ((q.kept p (.describe resources)).zip (r.kept p (.describe resources))))
        (describe p q resources) (describe p r resources) ∧
      (r.kept p (.describe resources)).length = (q.kept p (.describe resources)).length := by
  obtain ⟨body, length⟩ := body_agree p h
  rw [describe_eq, describe_eq, h.fromClause_eq, h.slice_eq, describesAlone_alike h]
  simp only [QuerySpec.kept, QuerySpec.owners, describesAlone_alike h]
  split
  · exact ⟨.after _ fun targets => .pure (.ofText _), rfl⟩
  · refine ⟨.after _ fun targets => body.bind fun f g twin => ?_, length⟩
    refine .after _ fun source => .after _ fun slice => .pure ?_
    have parts := (Twins.cons (.ofText ("DESCRIBE " ++ targets)) (.cons (.ofText source)
      (.singleton (whereText_twin twin)))).append (plain_twin slice)
    simp only [List.nil_append, List.append_nil] at parts
    exact parts.joinPresent " "

theorem modify_agree (p : Prefixes) (h : q.Alike r) (deleted inserted : Value) :
    Agree (Fragment.Twin ((keptBy p (q.bodyOwners p)).zip (keptBy p (r.bodyOwners p))))
      (Compile.modify p q deleted inserted) (Compile.modify p r deleted inserted) := by
  unfold Compile.modify
  rw [h.graphClause_eq]
  refine (body_agree p h).1.bind fun f g twin => ?_
  refine .after _ fun graph => .after _ fun delete => .after _ fun insert => ?_
  split
  · exact fun s => .error _
  · have parts := (plain_twin (graph ++ delete ++ insert)).append
      (.singleton (whereText_twin twin))
    exact .pure (parts.join " ")

theorem deleteSubjects_agree (p : Prefixes) (h : q.Alike r) :
    Agree (Fragment.Twin ((keptBy p (q.bodyOwners p)).zip (keptBy p (r.bodyOwners p))))
      (deleteSubjects p q) (deleteSubjects p r) := by
  unfold deleteSubjects
  rw [h.graphClause_eq]
  refine (body_agree p h).1.bind fun f g twin => ?_
  refine .after _ fun graph => .after _ fun pattern => .pure ?_
  have cut := twin.mapText fun s => trim (s ++ " " ++ pattern)
  exact ((plain_twin (graph ++ ["DELETE " ++ inBraces pattern])).append
    (.singleton (whereText_twin cut))).join " "

theorem run_agree {α : Type} {R : α → α → Prop} (h : q.Alike r) {m n : Compile α}
    (agree : Agree R m n) : Outcome.Agree R (run q m) (run r n) := by
  have subject : r.subject = q.subject := by rw [h.rest]
  unfold run
  rw [subject]
  exact (agree _).map fun _ _ related => related.1

end Compile

/-- No scalar leaks into the text: queries that differ in scalars fail with the same error, or have
the same text and values that are paired, in some order, as the queries pair them. -/
theorem write_alike {q r : QuerySpec} (h : q.Alike r) (p : Prefixes) (form : Form) :
    Outcome.Agree (Fragment.Twin ((q.kept p form).zip (r.kept p form)))
        (q.write p form) (r.write p form) ∧
      (r.kept p form).length = (q.kept p form).length := by
  have length := (Compile.body_agree p h).2
  cases form with
  | select =>
    obtain ⟨agree, lengths⟩ := Compile.select_agree p h
    exact ⟨Compile.run_agree h agree, lengths⟩
  | ask => exact ⟨Compile.run_agree h (Compile.ask_agree p h), length⟩
  | construct template =>
    exact ⟨Compile.run_agree h (Compile.construct_agree p h template), length⟩
  | describe resources =>
    obtain ⟨agree, lengths⟩ := Compile.describe_agree p h resources
    exact ⟨Compile.run_agree h agree, lengths⟩
  | insertWhere template =>
    exact ⟨Compile.run_agree h (Compile.modify_agree p h .null template), length⟩
  | deleteWhere template =>
    refine ⟨Compile.run_agree h ?_, length⟩
    split
    · exact Compile.deleteSubjects_agree p h
    · exact Compile.modify_agree p h template .null
  | deleteInsert deleted inserted =>
    exact ⟨Compile.run_agree h (Compile.modify_agree p h deleted inserted), length⟩

def compared (age name total : Value) : QuerySpec where
  subject := "s"
  wheres := [.basic (.text "?age") ">" age .and,
    .group .optional [.exists [.within (.text "?name") [name, .int 7] .and false] .and true]]
  havings := [.test (.text "?sum") (.compare .ge) total .or]

theorem write_alike_compared :
    (∃ f, (compared (.int 18) (.text "Ann") .null).write .empty .select = .ok f) ∧
    Outcome.Agree (Fragment.Twin
        (((compared (.int 18) (.text "Ann") .null).kept .empty .select).zip
          ((compared (.text "' ? \"") (.text "<a>") (.bool true)).kept .empty .select)))
      ((compared (.int 18) (.text "Ann") .null).write .empty .select)
      ((compared (.text "' ? \"") (.text "<a>") (.bool true)).write .empty .select) ∧
    ((compared (.text "' ? \"") (.text "<a>") (.bool true)).kept .empty .select).length =
      ((compared (.int 18) (.text "Ann") .null).kept .empty .select).length := by
  refine ⟨⟨_, rfl⟩, write_alike ?_ .empty .select⟩
  have scalars {v w : Value} (hv : v.isInline = false) (hw : w.isInline = false) : v.Alike w :=
    .inr ⟨hv, hw⟩
  have operator : Operator.read (.text ">") = .ok (.compare .gt) := rfl
  have age : (Condition.basic (.text "?age") ">" (.int 18) .and).Alike
      (.basic (.text "?age") ">" (.text "' ? \"") .and) := by
    refine ⟨_, rfl, scalars rfl rfl, fun datatype => ?_⟩
    rw [operator] at datatype
    cases datatype
  have inner : AllAlike [.within (.text "?name") [.text "Ann", .int 7] .and false]
      [.within (.text "?name") [.text "<a>", .int 7] .and false] :=
    ⟨_, _, rfl, ⟨_, rfl, .cons (scalars rfl rfl) (.cons (.refl _) .nil)⟩, rfl⟩
  have nested : AllAlike
      [.exists [.within (.text "?name") [.text "Ann", .int 7] .and false] .and true]
      [.exists [.within (.text "?name") [.text "<a>", .int 7] .and false] .and true] :=
    ⟨_, _, rfl, ⟨_, rfl, inner⟩, rfl⟩
  exact ⟨rfl, ⟨_, _, rfl, age, _, _, rfl, ⟨_, rfl, nested⟩, rfl⟩, .nil,
    .cons ⟨_, rfl, scalars rfl rfl⟩ .nil⟩

end SparqlClient
