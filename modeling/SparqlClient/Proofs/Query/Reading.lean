import Mathlib.Data.List.Basic
import SparqlClient.Query.Block

/-! How connectors are read. A disjunction folds all tests from the left into one expression;
without one each test is a filter of its own, unless a pattern stands for it. Both ways say what the
connectors say from left to right. -/

namespace SparqlClient

open Text

def Connector.combine : Connector → Bool → Bool → Bool
  | .and, a, b => a && b
  | .or, a, b => a || b

/-- The connectors read from left to right; the first one joins nothing. -/
def readsTrue (connectors : List Connector) (v : Nat → Bool) : Bool :=
  match connectors.zipIdx with
  | [] => true
  | first :: rest => rest.foldl (fun b x => x.1.combine b (v x.2)) (v first.2)

inductive Formula
  | test (i : Nat)
  | join (connector : Connector) (left right : Formula)

namespace Formula

def holds (v : Nat → Bool) : Formula → Bool
  | .test i => v i
  | .join c left right => c.combine (left.holds v) (right.holds v)

def written (e : Nat → Fragment) : Formula → Fragment
  | .test i => e i
  | .join c left right =>
    "( " ++ (left.written e ++ (" " ++ c.sign ++ " ") ++ right.written e) ++ " )"

/-- The first test joined with the second, the two with the third, and so on. -/
def leftFold (connectors : List Connector) : Formula :=
  (connectors.zipIdx.drop 1).foldl (fun φ x => .join x.1 φ (.test x.2)) (.test 0)

theorem holds_foldl (v : Nat → Bool) (rest : List (Connector × Nat)) (φ : Formula) :
    (rest.foldl (fun φ x => .join x.1 φ (.test x.2)) φ).holds v =
      rest.foldl (fun b x => x.1.combine b (v x.2)) (φ.holds v) := by
  induction rest generalizing φ with
  | nil => rfl
  | cons x rest ih => rw [List.foldl_cons, List.foldl_cons, ih, holds, holds]

theorem holds_leftFold {connectors : List Connector} (h : connectors ≠ []) (v : Nat → Bool) :
    (leftFold connectors).holds v = readsTrue connectors v := by
  cases connectors with
  | nil => exact absurd rfl h
  | cons c cs =>
    rw [leftFold, readsTrue, List.zipIdx_cons, List.drop_one, List.tail_cons]
    exact holds_foldl v _ _

theorem written_foldl {e : Nat → Fragment} {tests : List Test} {k : Nat} (φ : Formula)
    (h : ∀ i t, tests[i]? = some t → e (k + i) = t.expression) :
    (((tests.map Test.connector).zipIdx k).foldl (fun φ x => .join x.1 φ (.test x.2)) φ).written e =
      tests.foldl (fun (f : Fragment) t =>
        "( " ++ (f ++ (" " ++ t.connector.sign ++ " ") ++ t.expression) ++ " )") (φ.written e) := by
  -- `k` is the position of the first of `tests`
  induction tests generalizing k φ with
  | nil => rfl
  | cons t tests ih =>
    have first := h 0 t rfl
    rw [List.map_cons, List.zipIdx_cons, List.foldl_cons, List.foldl_cons, ih]
    · rw [written, written, ← first]
      rfl
    · intro i u hu
      rw [← h (i + 1) u hu]
      congr 1
      omega

theorem written_leftFold {e : Nat → Fragment} {tests : List Test} (some_test : tests ≠ [])
    (h : ∀ i t, tests[i]? = some t → e i = t.expression) :
    (leftFold (tests.map Test.connector)).written e = Clauses.foldTests tests := by
  cases tests with
  | nil => exact absurd rfl some_test
  | cons t tests =>
    rw [leftFold, List.map_cons, List.zipIdx_cons, List.drop_one, List.tail_cons,
      Clauses.foldTests, ← h 0 t rfl]
    refine written_foldl (.test 0) fun i u hu => ?_
    rw [← h (i + 1) u hu]
    congr 1
    omega

end Formula

/-- What becomes of a test: an expression in a filter, or a pattern that is required. -/
inductive Role
  | tested (expression : Fragment)
  | matched (pattern : Fragment)

namespace Role

def expression? : Role → Option Fragment
  | .tested e => some e
  | .matched _ => none

def expressionAt (roles : List Role) (i : Nat) : Fragment :=
  (roles[i]?.bind expression?).getD .empty

end Role

def blockFilters (folded : Bool) (connectors : List Connector) (roles : List Role) :
    List Formula :=
  if folded then [.leftFold connectors]
  else roles.zipIdx.filterMap fun x => x.1.expression?.map fun _ => .test x.2

/-- The filters hold, and so does each test that a pattern stands for. -/
def accepts (folded : Bool) (connectors : List Connector) (roles : List Role) (v : Nat → Bool) :
    Bool :=
  (blockFilters folded connectors roles).all (·.holds v) &&
    roles.zipIdx.all fun x => x.1.expression?.isSome || v x.2

theorem foldl_combine_of_and {rest : List (Connector × Nat)} (h : ∀ x ∈ rest, x.1 = .and)
    (v : Nat → Bool) (b : Bool) :
    rest.foldl (fun b x => x.1.combine b (v x.2)) b = (b && rest.all fun x => v x.2) := by
  induction rest generalizing b with
  | nil => simp
  | cons x rest ih =>
    rw [List.forall_mem_cons] at h
    rw [List.foldl_cons, ih h.2, h.1, Connector.combine, List.all_cons, Bool.and_assoc]

theorem all_zipIdx {α : Type} (l : List α) (v : Nat → Bool) :
    (l.zipIdx.all fun x => v x.2) = (List.range' 0 l.length).all v := by
  rw [← List.zipIdx_map_snd 0 l, List.all_map]
  rfl

theorem readsTrue_of_and {connectors : List Connector}
    (h : (connectors.drop 1).any (· = .or) = false) (v : Nat → Bool) :
    readsTrue connectors v = (List.range' 0 connectors.length).all v := by
  rw [← all_zipIdx, readsTrue]
  cases connectors with
  | nil => rfl
  | cons c cs =>
    rw [List.zipIdx_cons, List.all_cons]
    refine foldl_combine_of_and (fun x hx => ?_) v _
    have conjunction : x.1 ≠ .or := by
      have member : x.1 ∈ cs := by
        rw [← List.zipIdx_map_fst 1 cs]
        exact List.mem_map_of_mem hx
      rintro disjunction
      rw [List.drop_one, List.tail_cons, List.any_eq_false] at h
      exact h x.1 member (by simp [disjunction])
    cases hc : x.1 with
    | and => rfl
    | or => exact absurd hc conjunction

theorem accepts_folded {connectors : List Connector} {roles : List Role}
    (some_test : connectors ≠ []) (tested : ∀ r ∈ roles, r.expression?.isSome) (v : Nat → Bool) :
    accepts true connectors roles v = readsTrue connectors v := by
  have unmatched : roles.zipIdx.all (fun x => x.1.expression?.isSome || v x.2) = true := by
    rw [List.all_eq_true]
    intro x hx
    rw [tested x.1 (List.fst_mem_of_mem_zipIdx hx), Bool.true_or]
  rw [accepts, unmatched, Bool.and_true, blockFilters, if_pos rfl, List.all_cons, List.all_nil,
    Bool.and_true, Formula.holds_leftFold some_test]

theorem accepts_unfolded (connectors : List Connector) (roles : List Role) (v : Nat → Bool) :
    accepts false connectors roles v = (List.range' 0 roles.length).all v := by
  rw [← all_zipIdx, accepts, blockFilters, if_neg (by simp)]
  -- which positions the roles have does not matter
  generalize roles.zipIdx = l
  induction l with
  | nil => rfl
  | cons x l ih =>
    rw [List.all_cons, List.all_cons, ← ih]
    cases role : x.1 with
    | tested e => simp [role, Role.expression?, Formula.holds, Bool.and_assoc]
    | matched pattern => simp [role, Role.expression?, Bool.and_left_comm]

theorem written_unfolded (roles : List Role) :
    (roles.zipIdx.filterMap fun x => x.1.expression?.map fun _ => Formula.test x.2).map
      (·.written (Role.expressionAt roles)) = roles.filterMap Role.expression? := by
  have positions : ∀ x ∈ roles.zipIdx,
      (x.1.expression?.map fun _ => Formula.test x.2).map (·.written (Role.expressionAt roles)) =
        x.1.expression? := by
    rintro ⟨r, i⟩ hx
    have here : roles[i]? = some r := List.mem_zipIdx_iff_getElem?.1 hx
    cases r with
    | tested e => simp [Role.expression?, Formula.written, Role.expressionAt, here]
    | matched pattern => rfl
  rw [List.map_filterMap, List.filterMap_congr positions, ← Function.comp_def Role.expression?,
    ← List.filterMap_map, List.zipIdx_map_fst]

end SparqlClient
