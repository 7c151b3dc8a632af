import Mathlib.Data.Option.Basic
import Mathlib.Tactic.SplitIfs
import SparqlClient.Json.Reader
import SparqlClient.Json.Writer

/-! Strings in JSON. What is written for a string is read back, whatever follows it, so no two
strings have the same beginning. -/

namespace SparqlClient.Json

open Text

theorem numbered?_control {n : Nat} (h : n < 32) (rest : List Char) :
    numbered? (hex hexDigit 4 n ++ rest) = some (Char.ofNat n, rest) := by
  have digits : ∀ n < 32, hexNumber? (hex hexDigit 4 n) = some n := by decide
  have read : unit? (hex hexDigit 4 n ++ rest) = some (n, rest) := by
    change (hexNumber? (hex hexDigit 4 n)).bind (fun n => some (n, rest)) = _
    rw [digits n h]
    rfl
  have low : ¬0xD800 ≤ n := by omega
  have low' : ¬0xDC00 ≤ n := by omega
  rw [numbered?, read]
  simp only [bind, Option.bind]
  split <;> simp [low, low']

theorem string?_escaped (c : Char) (fuel : Nat) (s : List Char) :
    string? (fuel + 1) (escapeChar c ++ s) =
      (string? fuel s).map fun (cs, rest) => (c :: cs, rest) := by
  have named {e c : Char} (h : namedEscape? e = some c) :
      string? (fuel + 1) ('\\' :: e :: s) =
        (string? fuel s).map fun (cs, rest) => (c :: cs, rest) := by
    have plain : e ≠ 'u' := fun letter => by simp [letter, namedEscape?] at h
    rw [string?]
    · rw [h]
      cases string? fuel s <;> rfl
    · simpa using plain
  unfold escapeChar
  -- escapes with a name of their own, escapes by number, and characters that need none
  split_ifs with quote backslash newline carriage tab back form control
  · exact named (by rw [quote]; rfl)
  · exact named (by rw [backslash]; rfl)
  · exact named (by rw [newline]; rfl)
  · exact named (by rw [carriage]; rfl)
  · exact named (by rw [tab]; rfl)
  · exact named (by rw [back]; rfl)
  · exact named (by rw [form]; rfl)
  · change string? (fuel + 1) ('\\' :: 'u' :: (hex hexDigit 4 c.toNat ++ s)) = _
    rw [string?, numbered?_control control, Char.ofNat_toNat]
    simp only [bind, Option.bind]
    cases string? fuel s <;> rfl
  · change string? (fuel + 1) (c :: s) = _
    have free : (32 ≤ c.toNat && c ≠ '\\') = true := by simp [backslash]; omega
    rw [string?]
    · rw [free]
      cases string? fuel s <;> rfl
    · exact quote
    · simp [backslash]
    · simp [backslash]

/-- What is written is read back, and the reader stops at the closing quote. -/
theorem string?_written {fuel : Nat} {s : List Char} (h : s.length < fuel) (rest : List Char) :
    string? fuel (s.flatMap escapeChar ++ '"' :: rest) = some (s, rest) := by
  induction s generalizing fuel with
  | nil =>
    obtain ⟨fuel, rfl⟩ := Nat.exists_eq_add_of_lt h
    rfl
  | cons c s ih =>
    obtain ⟨fuel, rfl⟩ : ∃ n, fuel = n + 1 := ⟨fuel - 1, by omega⟩
    rw [List.flatMap_cons, List.append_assoc, string?_escaped, ih (by simpa using h)]
    rfl

theorem written_inj {s t u v : List Char}
    (h : s.flatMap escapeChar ++ '"' :: u = t.flatMap escapeChar ++ '"' :: v) :
    s = t ∧ u = v := by
  have enough : s.length < s.length + t.length + 1 := by omega
  have enough' : t.length < s.length + t.length + 1 := by omega
  have first := string?_written enough u
  have second := string?_written enough' v
  rw [h, second] at first
  simpa [eq_comm] using first

theorem string_append_inj {a b : String} {u v : List Char}
    (h : (string a).toList ++ u = (string b).toList ++ v) : a = b ∧ u = v := by
  simp only [string, String.toList_ofList, List.cons_append, List.append_assoc, List.nil_append,
    List.cons.injEq, true_and] at h
  obtain ⟨same, rest⟩ := written_inj h
  exact ⟨String.toList_inj.1 same, rest⟩

end SparqlClient.Json
