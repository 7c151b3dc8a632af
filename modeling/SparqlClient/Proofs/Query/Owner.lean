import SparqlClient.Proofs.Query.Conditions
import SparqlClient.Proofs.Query.Parts

/-! Which node of a query keeps which values. Scalars are kept with the text, in the order in which
the node writes them; terms and nodes stand for themselves and are part of the text. -/

namespace SparqlClient

open Text

namespace Value

def kept (v : Value) : List Value := if v.isInline then [] else [v]

def standsForNode (p : Prefixes) : Value → Bool
  | .text s => match (classifyText (some p) s).kind with
    | .iri | .urn | .blank | .variable => true
    | _ => false
  | v => v.isInline

def keptInPattern (p : Prefixes) (v : Value) : List Value :=
  if v.standsForNode p then [] else [v]

end Value

def Operator.kept (o : Operator) (v : Value) : List Value := if o = .datatype then [] else v.kept

namespace Write

variable {p : Prefixes}

theorem operand_bindings (v : Value) : (operand p v).bindings = v.kept := by
  unfold operand Value.kept
  split <;> rfl

theorem nodeOperand_eq (v : Value) :
    nodeOperand p v =
      if v.standsForNode p then .ofText ((classify (some p) v).render (some p))
      else .placeholder v := by
  cases v with
  | text s =>
    rw [nodeOperand, Value.standsForNode, classify_text]
    cases (classifyText (some p) s).kind <;> rfl
  | _ => rfl

theorem nodeOperand_bindings (v : Value) : (nodeOperand p v).bindings = v.keptInPattern p := by
  rw [nodeOperand_eq, Value.keptInPattern]
  split <;> rfl

theorem triple_bindings (s q o : Value) :
    (triple p s q o).bindings = s.keptInPattern p ++ o.keptInPattern p := by
  simp only [triple, Fragment.bindings_after, Fragment.bindings_append, nodeOperand_bindings]

theorem test_bindings {ref : String} {o : Operator} {v label : Value} {e : Fragment}
    (h : test p ref o v label = .ok e) : e.bindings = o.kept v := by
  cases o with
  | compare c =>
    obtain rfl := Except.ok.inj h
    exact operand_bindings v
  | regex negated caseless =>
    obtain rfl := Except.ok.inj h
    exact operand_bindings v
  | lang =>
    obtain rfl := Except.ok.inj h
    exact operand_bindings v
  | datatype =>
    simp only [test] at h
    split at h
    · obtain rfl := Except.ok.inj h
      rfl
    · cases h

theorem membership_bindings (ref : String) (values : List Value) (negated : Bool) :
    (membership p ref values negated).bindings = values.flatMap Value.kept := by
  unfold membership
  split
  · rename_i none_given
    rw [List.isEmpty_iff.1 none_given]
    rfl
  · rw [Fragment.bindings_after, Fragment.bindings_before, Fragment.bindings_join,
      List.flatMap_map]
    exact List.flatMap_congr fun v _ => operand_bindings v

theorem range_bindings (ref : String) (r : Between) :
    (range p ref r).bindings = r.low.kept ++ r.high.kept := by
  unfold range
  split <;> simp only [Fragment.bindings_after, Fragment.bindings_before,
    Fragment.bindings_append, operand_bindings]

end Write

/-- A node of a query that can own values. What a condition writes depends on whether the tests of
its block are folded. -/
inductive Owner
  | condition (folded : Bool) (c : Condition)
  | bind (b : Bind)
  | having (h : Having)

/-- The values that a condition keeps itself, from left to right. -/
def Condition.values (p : Prefixes) (folded : Bool) : Condition → List Value
  | .basic _ operator value _ => match Operator.read (.text operator) with
    | .ok o => o.kept value
    | .error _ => []
  | .within _ values _ _ => values.flatMap Value.kept
  | .between r => r.low.kept ++ r.high.kept
  | .raw pattern => pattern.bindings
  | .filter expression _ => expression.bindings
  | .triple subject _ object => subject.keptInPattern p ++ object.keptInPattern p
  | .path _ o value _ =>
    if o = .compare .eq && !folded then value.keptInPattern p else o.kept value
  | _ => []

def Having.values : Having → List Value
  | .test _ _ value _ => value.kept
  | .raw expression _ => expression.bindings

namespace Owner

def values (p : Prefixes) : Owner → List Value
  | .condition folded c => c.values p folded
  | .bind b => b.expression.bindings
  | .having h => h.values

def listed (p : Prefixes) (o : Owner) : List Owner := if (o.values p).isEmpty then [] else [o]

end Owner

mutual

/-- The owners among a condition and all that are nested in it. -/
def Condition.owners (p : Prefixes) (folded : Bool) : Condition → List Owner
  | .group _ conditions => ownersOfAll p (foldsTests conditions) conditions
  | .union branches => ownersOfBranches p branches
  | .exists conditions _ _ => ownersOfAll p (foldsTests conditions) conditions
  | c => Owner.listed p (.condition folded c)

def ownersOfAll (p : Prefixes) (folded : Bool) : List Condition → List Owner
  | [] => []
  | c :: cs => c.owners p folded ++ ownersOfAll p folded cs

def ownersOfBranches (p : Prefixes) : List (List Condition) → List Owner
  | [] => []
  | b :: bs => ownersOfAll p (foldsTests b) b ++ ownersOfBranches p bs

end

namespace QuerySpec

def bodyOwners (p : Prefixes) (q : QuerySpec) : List Owner :=
  ownersOfAll p (foldsTests q.wheres) q.wheres ++
    q.binds.flatMap fun b => Owner.listed p (.bind b)

def owners (p : Prefixes) (q : QuerySpec) : Form → List Owner
  | .select => q.bodyOwners p ++ q.havings.flatMap fun h => Owner.listed p (.having h)
  | .describe resources => if Compile.describesAlone q resources then [] else q.bodyOwners p
  | _ => q.bodyOwners p

/-- The values that the form of a query keeps, node by node. -/
def kept (p : Prefixes) (q : QuerySpec) (form : Form) : List Value :=
  (q.owners p form).flatMap (Owner.values p)

end QuerySpec

end SparqlClient
