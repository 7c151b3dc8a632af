import Mathlib.Data.List.Perm.Basic
import Mathlib.Data.String.Basic
import Mathlib.Tactic.Choose
import SparqlClient.Json.Writer

/-! The compact text of a value: nothing stands between its parts, and the members of an object are
in the order of their keys. Main statement: of a value that is made of nothing but what JSON knows,
the writer gives the one compact text. -/

namespace SparqlClient.Json

def named (ms : List (String × Value)) : Entries := ms.map fun m => (.text m.1, m.2)

/-- Values that JSON knows. No two values of a mapping have the same name. -/
inductive Plain : Value → Prop
  | null : Plain .null
  | bool (b : Bool) : Plain (.bool b)
  | int (n : Int) : Plain (.int n)
  | float (x : Float) : Plain (.float x)
  | text (s : String) : Plain (.text s)
  | list {vs : List Value} (items : ∀ v ∈ vs, Plain v) : Plain (.list vs)
  | map {ms : List (String × Value)} (distinct : (ms.map Prod.fst).Nodup)
    (values : ∀ m ∈ ms, Plain m.2) : Plain (.map (named ms))

/-- A text without any space, with the members of each object in ascending order of their keys. -/
inductive Compact : Value → String → Prop
  | null : Compact .null "null"
  | bool (b : Bool) : Compact (.bool b) (boolWord b)
  | int (n : Int) : Compact (.int n) (intText n)
  | float (x : Float) : Compact (.float x) (floatLayout.float x)
  | text (s : String) : Compact (.text s) (string s)
  | list {vs : List Value} {form : Value → String} (items : ∀ v ∈ vs, Compact v (form v)) :
    Compact (.list vs) ("[" ++ String.intercalate "," (vs.map form) ++ "]")
  | map {es : Entries} {ms : List (String × Value)} {form : String × Value → String}
    (same : (named ms).Perm es) (ascending : (ms.map Prod.fst).Pairwise (· < ·))
    (values : ∀ m ∈ ms, Compact m.2 (form m)) :
    Compact (.map es) ("\x7b" ++
      String.intercalate "," (ms.map fun m => string m.1 ++ ":" ++ form m) ++ "\x7d")

theorem named_injective : Function.Injective fun m : String × Value => (Value.text m.1, m.2) := by
  rintro ⟨k, v⟩ ⟨l, w⟩ same
  obtain ⟨keys, values⟩ := Prod.mk.inj same
  exact Prod.ext (Value.text.inj keys) values

theorem eq_of_ascending {ms ns : List (String × Value)} (same : (named ms).Perm (named ns))
    (hm : (ms.map Prod.fst).Pairwise (· < ·)) (hn : (ns.map Prod.fst).Pairwise (· < ·)) :
    ms = ns := by
  have perm : ms.Perm ns := (List.map_perm_map_iff named_injective).1 same
  exact perm.eq_of_pairwise (fun a b _ _ less greater => absurd less (lt_asymm greater))
    (List.pairwise_map.1 hm) (List.pairwise_map.1 hn)

theorem Compact.unique {v : Value} {s t : String} (h : Compact v s) (h' : Compact v t) : s = t := by
  induction h generalizing t with
  | null => cases h'; rfl
  | bool b => cases h'; rfl
  | int n => cases h'; rfl
  | float x => cases h'; rfl
  | text s => cases h'; rfl
  | list items ih =>
    cases h' with
    | list items' =>
      have parts := List.map_congr_left fun v hv => ih v hv (items' v hv)
      rw [parts]
  | map same ascending values ih =>
    cases h' with
    | map same' ascending' values' =>
      obtain rfl := eq_of_ascending (same.trans same'.symm) ascending ascending'
      have parts := List.map_congr_left fun m hm =>
        congrArg (string m.1 ++ ":" ++ ·) (ih m hm (values' m hm))
      rw [parts]

variable {st : Style} {depth : Nat}

theorem writeAll_eq {vs : List Value} {form : Value → String}
    (h : ∀ v ∈ vs, write st depth v = .ok (form v)) :
    writeAll st depth vs = .ok (vs.map form) := by
  induction vs with
  | nil => rfl
  | cons v vs ih =>
    rw [List.forall_mem_cons] at h
    rw [writeAll, h.1, ih h.2]
    rfl

theorem writeEntries_eq {ms : List (String × Value)} {form : String × Value → String}
    (h : ∀ m ∈ ms, write st depth m.2 = .ok (form m)) :
    writeEntries st depth (named ms) = .ok (ms.map fun m => (m.1, form m)) := by
  induction ms with
  | nil => rfl
  | cons m ms ih =>
    rw [List.forall_mem_cons] at h
    have known : keyText (.text m.1) = .ok m.1 := rfl
    change writeEntries st depth ((.text m.1, m.2) :: named ms) = _
    rw [writeEntries, known, h.1, ih h.2]
    rfl

theorem bracketed_sortedKeys (depth : Nat) (opening closing : String) (parts : List String) :
    bracketed .sortedKeys depth opening closing parts =
      opening ++ String.intercalate "," parts ++ closing := by
  have line (n : Nat) : Style.sortedKeys.line n = "" := rfl
  have item : Style.sortedKeys.item = "," := rfl
  rw [bracketed, line, line, item]
  cases parts <;> simp

def sorted (ms : List (String × Value)) : List (String × Value) :=
  ms.mergeSort fun a b => a.1 ≤ b.1

theorem perm_sorted (ms : List (String × Value)) : (sorted ms).Perm ms := List.mergeSort_perm ms _

theorem ascending_sorted {ms : List (String × Value)} (distinct : (ms.map Prod.fst).Nodup) :
    ((sorted ms).map Prod.fst).Pairwise (· < ·) := by
  have pairs : (sorted ms).Pairwise fun a b => decide (a.1 ≤ b.1) = true :=
    List.pairwise_mergeSort
      (fun a b c hab hbc => decide_eq_true ((of_decide_eq_true hab).trans (of_decide_eq_true hbc)))
      (fun a b => by simpa using le_total a.1 b.1) ms
  have ordered := pairs.imp of_decide_eq_true
  have apart : ((sorted ms).map Prod.fst).Nodup :=
    ((perm_sorted ms).map Prod.fst).nodup_iff.2 distinct
  exact List.pairwise_map.2 (ordered.imp₂ (fun _ _ => lt_of_le_of_ne) (List.pairwise_map.1 apart))

theorem arranged_sortedKeys (ms : List (String × Value)) (form : String × Value → String) :
    arranged .sortedKeys (ms.map fun m => (m.1, form m)) =
      (sorted ms).map fun m => (m.1, form m) := by
  have order := List.map_mergeSort (r := fun a b : String × Value => decide (a.1 ≤ b.1))
    (s := fun a b : String × String => decide (a.1 ≤ b.1)) (f := fun m => (m.1, form m))
    (l := ms) fun _ _ _ _ => rfl
  exact order.symm

/-- The text that is written for a plain value is compact, at every depth. -/
theorem Plain.exists_compact {v : Value} (h : Plain v) :
    ∃ s, (∀ depth, write .sortedKeys depth v = .ok s) ∧ Compact v s := by
  induction h with
  | null => exact ⟨_, fun _ => by rw [write], .null⟩
  | bool b => exact ⟨_, fun _ => by rw [write], .bool b⟩
  | int n => exact ⟨_, fun _ => by rw [write], .int n⟩
  | float x => exact ⟨_, fun _ => by rw [write], .float x⟩
  | text s => exact ⟨_, fun _ => by rw [write], .text s⟩
  | @list vs items ih =>
    choose! form own using ih
    refine ⟨_, fun depth => ?_, .list fun v hv => (own v hv).2⟩
    rw [write, writeAll_eq fun v hv => (own v hv).1 (depth + 1)]
    exact congrArg _ (bracketed_sortedKeys depth _ _ _)
  | @map ms distinct values ih =>
    choose! form own using ih
    refine ⟨_, fun depth => ?_, .map ((perm_sorted ms).map _) (ascending_sorted distinct)
      fun m hm => (own m ((perm_sorted ms).mem_iff.1 hm)).2⟩
    rw [write, writeEntries_eq fun m hm => (own m hm).1 (depth + 1)]
    change Except.ok (bracketed .sortedKeys depth _ _ _) = _
    rw [arranged_sortedKeys, bracketed_sortedKeys, List.map_map]
    rfl

end SparqlClient.Json
