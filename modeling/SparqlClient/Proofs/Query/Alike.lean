import SparqlClient.Proofs.Query.Owner
import SparqlClient.Proofs.Query.Twin

/-! Conditions that differ in scalars alone. They are written side by side: each step fails with the
same error or writes the same text, and a value takes the place of its counterpart. -/

namespace SparqlClient

open Text

/-- The same value, or a scalar in the place of a scalar. -/
def Value.Alike (v w : Value) : Prop := w = v ∨ v.isInline = false ∧ w.isInline = false

def Fragment.Alike (f g : Fragment) : Prop :=
  g.text = f.text ∧ g.bindings.length = f.bindings.length

mutual

/-- Equal but for scalars that are compared, and for the values of fragments. A datatype is written
into the text, and so are the values of triples and paths. -/
def Condition.Alike : Condition → Condition → Prop
  | .basic column operator value connector, d => ∃ w, d = .basic column operator w connector ∧
    value.Alike w ∧ (Operator.read (.text operator) = .ok .datatype → w = value)
  | .within column values connector negated, d => ∃ ws, d = .within column ws connector negated ∧
    List.Forall₂ Value.Alike values ws
  | .between r, d => ∃ low high, d = .between { r with low := low, high := high } ∧
    r.low.Alike low ∧ r.high.Alike high
  | .raw pattern, d => ∃ f, d = .raw f ∧ pattern.Alike f
  | .filter expression connector, d => ∃ f, d = .filter f connector ∧ expression.Alike f
  | .group kind conditions, d => ∃ ds, d = .group kind ds ∧ AllAlike conditions ds
  | .union branches, d => ∃ ds, d = .union ds ∧ BranchesAlike branches ds
  | .exists conditions connector negated, d => ∃ ds, d = .exists ds connector negated ∧
    AllAlike conditions ds
  | c, d => d = c

def AllAlike : List Condition → List Condition → Prop
  | [], ds => ds = []
  | c :: cs, ds => ∃ d rest, ds = d :: rest ∧ c.Alike d ∧ AllAlike cs rest

def BranchesAlike : List (List Condition) → List (List Condition) → Prop
  | [], ds => ds = []
  | b :: bs, ds => ∃ d rest, ds = d :: rest ∧ AllAlike b d ∧ BranchesAlike bs rest

end

def Bind.Alike (b c : Bind) : Prop := c.target = b.target ∧ b.expression.Alike c.expression

def Having.Alike : Having → Having → Prop
  | .test column operator value connector, h => ∃ w, h = .test column operator w connector ∧
    value.Alike w
  | .raw expression connector, h => ∃ f, h = .raw f connector ∧ expression.Alike f

theorem Having.Alike.connector {h g : Having} (alike : h.Alike g) : g.connector = h.connector := by
  cases h with
  | raw => obtain ⟨f, rfl, -⟩ := alike; rfl
  | test => obtain ⟨w, rfl, -⟩ := alike; rfl

structure QuerySpec.Alike (q r : QuerySpec) : Prop where
  rest : r = { q with wheres := r.wheres, binds := r.binds, havings := r.havings }
  wheres : AllAlike q.wheres r.wheres
  binds : List.Forall₂ Bind.Alike q.binds r.binds
  havings : List.Forall₂ Having.Alike q.havings r.havings

namespace Value.Alike

variable {v w : Value}

theorem refl (v : Value) : v.Alike v := .inl rfl

theorem length_kept (h : v.Alike w) : w.kept.length = v.kept.length := by
  rcases h with rfl | ⟨hv, hw⟩
  · rfl
  · simp [kept, hv, hw]

theorem text_operand (h : v.Alike w) (p : Prefixes) :
    (Write.operand p w).text = (Write.operand p v).text := by
  rcases h with rfl | ⟨hv, hw⟩
  · rfl
  · simp [Write.operand, hv, hw, Fragment.placeholder]

theorem operand (h : v.Alike w) (p : Prefixes) :
    Fragment.Twin (v.kept.zip w.kept) (Write.operand p v) (Write.operand p w) :=
  .of_bindings (h.text_operand p) (Write.operand_bindings v) (Write.operand_bindings w)
    h.length_kept

end Value.Alike

theorem length_flatMap_kept {vs ws : List Value} (h : List.Forall₂ Value.Alike vs ws) :
    (ws.flatMap Value.kept).length = (vs.flatMap Value.kept).length := by
  induction h with
  | nil => rfl
  | cons first _ ih =>
    rw [List.flatMap_cons, List.flatMap_cons, List.length_append, List.length_append,
      first.length_kept, ih]

namespace Write

variable {p : Prefixes} {v w : Value}

theorem test_agree (h : v.Alike w) (o : Operator) (same : o = .datatype → w = v) (ref : String)
    (label : Value) : Outcome.Agree (Fragment.Twin ((o.kept v).zip (o.kept w)))
      (test p ref o v label) (test p ref o w label) := by
  cases o with
  | compare c => exact .ok ((h.operand p).before _)
  | regex negated caseless => exact .ok (((h.operand p).before _).after _)
  | lang => exact .ok (((h.operand p).before _).after _)
  | datatype =>
    rw [same rfl, test]
    split
    · exact .ok (.ofText _)
    · exact .error _

theorem membership_twin {vs ws : List Value} (h : List.Forall₂ Value.Alike vs ws) (ref : String)
    (negated : Bool) :
    Fragment.Twin ((vs.flatMap Value.kept).zip (ws.flatMap Value.kept))
      (membership p ref vs negated) (membership p ref ws negated) := by
  refine .of_bindings ?_ (membership_bindings ref vs negated) (membership_bindings ref ws negated)
    (length_flatMap_kept h)
  have texts : (ws.map (operand p)).map Fragment.text = (vs.map (operand p)).map Fragment.text := by
    induction h with
    | nil => rfl
    | cons first _ ih => simp [first.text_operand p, ih]
  have empty : ws.isEmpty = vs.isEmpty := by cases h <;> rfl
  unfold membership
  rw [empty]
  split
  · rfl
  · rw [Fragment.text_after, Fragment.text_before, Fragment.text_join, texts]
    rfl

theorem range_twin {r : Between} {low high : Value} (hl : r.low.Alike low) (hh : r.high.Alike high)
    (ref : String) :
    Fragment.Twin ((r.low.kept ++ r.high.kept).zip (low.kept ++ high.kept))
      (range p ref r) (range p ref { r with low := low, high := high }) := by
  rw [List.zip_append hl.length_kept.symm]
  unfold range
  split
  · exact ((((hl.operand p).before _).after _).append (hh.operand p)).after _
  · exact ((((hl.operand p).before _).after _).append (hh.operand p)).after _

end Write

def keptBy (p : Prefixes) (os : List Owner) : List Value := os.flatMap (Owner.values p)

theorem keptBy_append (p : Prefixes) (a b : List Owner) :
    keptBy p (a ++ b) = keptBy p a ++ keptBy p b := List.flatMap_append

theorem keptBy_listed (p : Prefixes) (o : Owner) : keptBy p (o.listed p) = o.values p := by
  unfold keptBy Owner.listed
  split
  · rename_i nothing
    rw [List.isEmpty_iff.1 nothing]
    rfl
  · simp

theorem Condition.Alike.marks {c d : Condition} (h : c.Alike d) : c.MarkedLike d := by
  cases c with
  | basic => obtain ⟨w, rfl, -⟩ := h; exact ⟨rfl, rfl⟩
  | within => obtain ⟨ws, rfl, -⟩ := h; exact ⟨rfl, rfl⟩
  | between r => obtain ⟨low, high, rfl, -⟩ := h; exact ⟨rfl, rfl⟩
  | raw => obtain ⟨f, rfl, -⟩ := h; exact ⟨rfl, rfl⟩
  | filter => obtain ⟨f, rfl, -⟩ := h; exact ⟨rfl, rfl⟩
  | group => obtain ⟨ds, rfl, -⟩ := h; exact ⟨rfl, rfl⟩
  | union => obtain ⟨ds, rfl, -⟩ := h; exact ⟨rfl, rfl⟩
  | «exists» => obtain ⟨ds, rfl, -⟩ := h; exact ⟨rfl, rfl⟩
  | _ => obtain rfl := h; exact ⟨rfl, rfl⟩

theorem AllAlike.marks {cs ds : List Condition} (h : AllAlike cs ds) :
    List.Forall₂ Condition.MarkedLike cs ds := by
  induction cs generalizing ds with
  | nil =>
    obtain rfl := h
    exact .nil
  | cons c cs ih =>
    obtain ⟨d, rest, rfl, first, others⟩ := h
    exact .cons first.marks (ih others)

theorem AllAlike.foldsTests {cs ds : List Condition} (h : AllAlike cs ds) :
    foldsTests ds = foldsTests cs := by
  rw [foldsTests_eq, foldsTests_eq, connectors_eq h.marks]

namespace Compile

variable {l : Place} {k : List (Value × Value)} {e f : Fragment}

theorem pattern_agree (q : String) (h : e.Twin k f) :
    Agree (Fragment.Twin k) (pattern q e) (pattern q f) :=
  .after get fun _ => .pure ((h.before _).after _)

theorem optionally_twin (optional : Bool) (h : e.Twin k f) :
    (optionally optional e).Twin k (optionally optional f) := by
  cases optional with
  | false => exact h
  | true => exact h.inBraces.before _

theorem columnPattern_agree (c : Column) (optional : Bool) :
    Agree (Clauses.Twin []) (columnPattern l c optional) (columnPattern l c optional) := by
  unfold columnPattern
  split
  · exact .pure .empty
  · refine (pattern_agree _ (.ofText c.ref)).bind fun e f twin => ?_
    exact .after _ fun _ => .pure (.ofPattern (optionally_twin optional twin))

theorem columnTest_agree (c : Column) (optional : Bool) (connector : Connector) (h : e.Twin k f) :
    Agree (Clauses.Twin k) (columnTest l c optional connector e)
      (columnTest l c optional connector f) :=
  (columnPattern_agree c optional).bind fun _ _ twin => .pure (twin.append (.ofTest connector h))

theorem basic_agree {v w : Value} (h : v.Alike w) (column : Value) (operator : String)
    (same : Operator.read (.text operator) = .ok .datatype → w = v) (connector : Connector) :
    Agree (Clauses.Twin ((Condition.values l.prefixes l.folded
        (.basic column operator v connector)).zip (Condition.values l.prefixes l.folded
        (.basic column operator w connector))))
      (basic l column operator v connector) (basic l column operator w connector) := by
  refine .after _ fun c => .afterLift _ fun o ho => ?_
  have values (v : Value) : Condition.values l.prefixes l.folded
      (.basic column operator v connector) = o.kept v := by
    rw [Condition.values, ho]
  rw [values, values]
  split
  · exact (pattern_agree _ (h.operand _)).bind fun _ _ twin => .pure (.ofPattern twin)
  · rename_i o _ _ _ _
    have test := Write.test_agree (p := l.prefixes) h o (fun datatype => same (datatype ▸ ho))
      c.ref column
    exact (Agree.lift test).bind fun _ _ twin => columnTest_agree c _ connector twin

theorem length_values_basic {p : Prefixes} {folded : Bool} {v w : Value} (h : v.Alike w)
    (column : Value) (operator : String) (connector : Connector) :
    (Condition.values p folded (.basic column operator w connector)).length =
      (Condition.values p folded (.basic column operator v connector)).length := by
  rw [Condition.values, Condition.values]
  split
  · rename_i o _
    unfold Operator.kept
    split
    · rfl
    · exact h.length_kept
  · rfl

theorem path_agree (path : String) (o : Operator) (v : Value) (connector : Connector) :
    Agree (Clauses.Twin ((Condition.values l.prefixes l.folded (.path path o v connector)).zip
        (Condition.values l.prefixes l.folded (.path path o v connector))))
      (Compile.path l path o v connector) (Compile.path l path o v connector) := by
  refine .after _ fun text => .after _ fun s => ?_
  simp only [Condition.values]
  split
  · have node := Fragment.Twin.of_bindings rfl (Write.nodeOperand_bindings (p := l.prefixes) v)
      (Write.nodeOperand_bindings (p := l.prefixes) v) rfl
    exact .pure (.ofPattern ((node.before _).after _))
  · refine .after _ fun ref => ?_
    have test := Write.test_agree (p := l.prefixes) (.refl v) o (fun _ => rfl) ref (.text path)
    refine (Agree.lift test).bind fun e f twin => .pure ?_
    have pattern := optionally_twin l.folded (((Fragment.Twin.ofText ref).before
      (s.subject ++ " " ++ text ++ " ")).after " .")
    exact ⟨[], _, .singleton pattern, .singleton ⟨rfl, twin⟩, .refl _⟩

theorem groupText_agree (p : Prefixes) (kind : GroupKind) (h : e.Twin k f) :
    Outcome.Agree (Fragment.Twin k) (groupText p kind e) (groupText p kind f) := by
  cases kind with
  | group => exact .ok h.inBraces
  | optional => exact .ok (h.inBraces.before _)
  | minus => exact .ok (h.inBraces.before _)
  | service target =>
    rw [groupText, groupText]
    split
    · exact .ok (h.inBraces.before _)
    · exact .error _

theorem blockAt_agree {p : Prefixes} {top : Bool} {cs ds : List Condition} (alike : AllAlike cs ds)
    (h : Agree (Clauses.Twin k) (all ⟨p, foldsTests cs, top⟩ cs) (all ⟨p, foldsTests cs, top⟩ ds)) :
    Agree (Fragment.Twin k) (blockAt p top cs) (blockAt p top ds) := by
  -- the decision to fold looks at connectors, and these are the same
  unfold blockAt
  rw [isFolded_eq alike.marks]
  refine .afterLift _ fun folded decided => ?_
  obtain rfl := isFolded_eq_ok decided
  exact h.bind fun a b inner => .pure (inner.fragment _)

mutual

theorem condition_agree (l : Place) (c d : Condition) (h : c.Alike d) :
    Agree (Clauses.Twin ((keptBy l.prefixes (c.owners l.prefixes l.folded)).zip
        (keptBy l.prefixes (d.owners l.prefixes l.folded)))) (condition l c) (condition l d) ∧
      (keptBy l.prefixes (d.owners l.prefixes l.folded)).length =
        (keptBy l.prefixes (c.owners l.prefixes l.folded)).length := by
  cases c with
  | basic column operator v connector =>
    obtain ⟨w, rfl, alike, same⟩ := h
    simp only [Condition.owners, keptBy_listed, Owner.values, condition]
    exact ⟨basic_agree alike column operator same connector,
      length_values_basic alike column operator connector⟩
  | within column vs connector negated =>
    obtain ⟨ws, rfl, alike⟩ := h
    simp only [Condition.owners, keptBy_listed, condition]
    refine ⟨.after _ fun c => ?_, length_flatMap_kept alike⟩
    exact columnTest_agree c _ connector (Write.membership_twin alike c.ref negated)
  | between r =>
    obtain ⟨low, high, rfl, hl, hh⟩ := h
    simp only [Condition.owners, keptBy_listed, condition]
    refine ⟨.after _ fun c => ?_, ?_⟩
    · exact columnTest_agree c _ r.connector (Write.range_twin hl hh c.ref)
    · simp [Owner.values, Condition.values, hl.length_kept, hh.length_kept]
  | null column connector =>
    obtain rfl := h
    simp only [Condition.owners, keptBy_listed, condition]
    exact ⟨.after _ fun c => columnTest_agree c _ connector (.ofText _), trivial⟩
  | notNull column connector =>
    obtain rfl := h
    simp only [Condition.owners, keptBy_listed, condition]
    refine ⟨.after _ fun c => ?_, trivial⟩
    split
    · exact columnTest_agree c _ connector (.ofText _)
    · exact columnPattern_agree c false
  | raw pattern =>
    obtain ⟨f, rfl, text, length⟩ := h
    simp only [Condition.owners, keptBy_listed, condition]
    exact ⟨.pure (.ofPattern (.of_bindings text rfl rfl length)), length⟩
  | filter expression connector =>
    obtain ⟨f, rfl, text, length⟩ := h
    simp only [Condition.owners, keptBy_listed, condition]
    have twin := Fragment.Twin.of_bindings text rfl rfl length
    exact ⟨.pure (.ofTest connector ((twin.before _).after _)), length⟩
  | triple s q o =>
    obtain rfl := h
    simp only [Condition.owners, keptBy_listed, condition]
    have kept := Write.triple_bindings (p := l.prefixes) s q o
    exact ⟨.pure (.ofPattern (.of_bindings rfl kept kept rfl)), trivial⟩
  | group kind cs =>
    obtain ⟨ds, rfl, alike⟩ := h
    simp only [Condition.owners, condition_group, alike.foldsTests]
    obtain ⟨twin, length⟩ := all_agree ⟨l.prefixes, foldsTests cs, false⟩ cs ds alike
    refine ⟨(blockAt_agree alike twin).bind fun f g inner => ?_, length⟩
    exact (Agree.lift (groupText_agree _ kind inner)).bind fun _ _ twin => .pure (.ofPattern twin)
  | union bs =>
    obtain ⟨ds, rfl, alike⟩ := h
    simp only [Condition.owners, condition]
    obtain ⟨twin, length⟩ := blocks_agree l.prefixes bs ds alike
    refine ⟨twin.bind fun fs gs parts => .pure (.ofPattern ?_), length⟩
    exact (parts.map fun _ _ _ twin => twin.inBraces).join " UNION "
  | «exists» cs connector negated =>
    obtain ⟨ds, rfl, alike⟩ := h
    simp only [Condition.owners, condition_exists, alike.foldsTests]
    obtain ⟨twin, length⟩ := all_agree ⟨l.prefixes, foldsTests cs, false⟩ cs ds alike
    refine ⟨(blockAt_agree alike twin).bind fun f g inner => ?_, length⟩
    exact .pure (.ofTest connector (inner.inBraces.before _))
  | path path o v connector =>
    obtain rfl := h
    simp only [Condition.owners, keptBy_listed, condition]
    exact ⟨path_agree path o v connector, trivial⟩
  | stray order =>
    obtain rfl := h
    simp only [Condition.owners, keptBy_listed, condition]
    exact ⟨.after _ fun _ _ => .error _, trivial⟩

theorem all_agree (l : Place) (cs ds : List Condition) (h : AllAlike cs ds) :
    Agree (Clauses.Twin ((keptBy l.prefixes (ownersOfAll l.prefixes l.folded cs)).zip
        (keptBy l.prefixes (ownersOfAll l.prefixes l.folded ds)))) (all l cs) (all l ds) ∧
      (keptBy l.prefixes (ownersOfAll l.prefixes l.folded ds)).length =
        (keptBy l.prefixes (ownersOfAll l.prefixes l.folded cs)).length := by
  match cs with
  | [] =>
    obtain rfl := h
    exact ⟨.pure .empty, rfl⟩
  | c :: cs =>
    obtain ⟨d, rest, rfl, first, others⟩ := h
    obtain ⟨twin, length⟩ := condition_agree l c d first
    obtain ⟨twins, lengths⟩ := all_agree l cs rest others
    simp only [ownersOfAll, keptBy_append, all]
    rw [List.zip_append length.symm]
    refine ⟨twin.bind fun a b ha => twins.bind fun a' b' hb => .pure (ha.append hb), ?_⟩
    rw [List.length_append, List.length_append, length, lengths]

theorem blocks_agree (p : Prefixes) (bs ds : List (List Condition)) (h : BranchesAlike bs ds) :
    Agree (Twins Fragment.Twin ((keptBy p (ownersOfBranches p bs)).zip
        (keptBy p (ownersOfBranches p ds)))) (blocks p bs) (blocks p ds) ∧
      (keptBy p (ownersOfBranches p ds)).length = (keptBy p (ownersOfBranches p bs)).length := by
  match bs with
  | [] =>
    obtain rfl := h
    exact ⟨.pure .nil, rfl⟩
  | b :: bs =>
    obtain ⟨d, rest, rfl, first, others⟩ := h
    obtain ⟨twin, length⟩ := all_agree ⟨p, foldsTests b, false⟩ b d first
    obtain ⟨twins, lengths⟩ := blocks_agree p bs rest others
    simp only [ownersOfBranches, keptBy_append, blocks_cons, first.foldsTests]
    rw [List.zip_append length.symm]
    refine ⟨(blockAt_agree first twin).bind fun f g inner => ?_, ?_⟩
    · exact twins.bind fun fs gs parts => .pure (.cons inner parts)
    · rw [List.length_append, List.length_append, length, lengths]

end

end Compile

end SparqlClient
