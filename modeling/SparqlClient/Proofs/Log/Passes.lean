import Mathlib.Data.List.Infix
import SparqlClient.Log

/-! A pass over a text: from left to right each piece that a step knows is replaced, and all other
characters stay. Where no piece goes on across a seam, a pass over two texts is a pass over each. -/

namespace SparqlClient.Log

open Text

abbrev Step := List Char → Option (List Char × List Char)

def pass (step : Step) (s : List Char) : List Char := replacing step s.length s

/-- A piece has at least one character, and the rest is what follows it. -/
def Reads (step : Step) : Prop :=
  ∀ {s new rest : List Char}, step s = some (new, rest) → ∃ piece, piece ≠ [] ∧ s = piece ++ rest

section

variable {step : Step} {s new rest : List Char}

theorem Reads.length_lt (reads : Reads step) (h : step s = some (new, rest)) :
    rest.length < s.length := by
  obtain ⟨piece, filled, rfl⟩ := reads h
  have some_char := List.length_pos_of_ne_nil filled
  rw [List.length_append]
  omega

theorem Reads.nil (reads : Reads step) : step [] = none := by
  cases h : step [] with
  | none => rfl
  | some p => exact absurd (reads.length_lt h) (Nat.not_lt_zero _)

theorem replacing_of_some (h : step s = some (new, rest)) (fuel : Nat) :
    replacing step (fuel + 1) s = new ++ replacing step fuel rest := by
  rw [replacing.eq_def]
  simp only [h]

theorem replacing_of_none {c : Char} (h : step (c :: s) = none) (fuel : Nat) :
    replacing step (fuel + 1) (c :: s) = c :: replacing step fuel s := by
  rw [replacing.eq_def]
  simp only [h]

theorem Reads.replacing_nil (reads : Reads step) (fuel : Nat) : replacing step fuel [] = [] := by
  cases fuel with
  | zero => rfl
  | succ fuel =>
    rw [replacing.eq_def]
    simp only [reads.nil]

theorem replacing_congr (reads : Reads step) {m n : Nat} (hm : s.length ≤ m) (hn : s.length ≤ n) :
    replacing step m s = replacing step n s := by
  induction m generalizing n s with
  | zero =>
    obtain rfl := List.eq_nil_of_length_eq_zero (Nat.le_zero.1 hm)
    rw [reads.replacing_nil, reads.replacing_nil]
  | succ m ih =>
    cases n with
    | zero =>
      obtain rfl := List.eq_nil_of_length_eq_zero (Nat.le_zero.1 hn)
      rw [reads.replacing_nil, reads.replacing_nil]
    | succ n =>
      cases h : step s with
      | some p =>
        have shorter := reads.length_lt h
        rw [replacing_of_some h, replacing_of_some h, ih (n := n) (by omega) (by omega)]
      | none =>
        cases s with
        | nil => rw [reads.replacing_nil, reads.replacing_nil]
        | cons c t =>
          rw [replacing_of_none h, replacing_of_none h, ih (n := n) (by simpa using hm)
            (by simpa using hn)]

theorem pass_nil (step : Step) : pass step [] = [] := rfl

theorem pass_of_some (reads : Reads step) (h : step s = some (new, rest)) :
    pass step s = new ++ pass step rest := by
  have shorter := reads.length_lt h
  obtain ⟨n, length⟩ := Nat.exists_eq_add_one_of_ne_zero (Nat.ne_zero_of_lt shorter)
  rw [pass, length, replacing_of_some h, replacing_congr reads (by omega) le_rfl, pass]

theorem pass_of_none {c : Char} (h : step (c :: s) = none) :
    pass step (c :: s) = c :: pass step s := by
  rw [pass, List.length_cons, replacing_of_none h, pass]

/-- What holds of the end of a text, and in front of each piece and of each character that stays,
holds of every text. -/
theorem pass_induct (reads : Reads step) {motive : List Char → Prop} (nil : motive [])
    (piece : ∀ s new rest, step s = some (new, rest) → motive rest → motive s)
    (char : ∀ c s, step (c :: s) = none → motive s → motive (c :: s)) (s : List Char) :
    motive s := by
  induction length : s.length using Nat.strong_induction_on generalizing s with
  | _ n ih =>
    cases h : step s with
    | some p => exact piece s p.1 p.2 h (ih _ (length ▸ reads.length_lt h) _ rfl)
    | none =>
      cases s with
      | nil => exact nil
      | cons c t => exact char c t h (ih _ (by simp [← length]) _ rfl)

theorem pass_append_of_none {t : List Char} (h : ∀ u, u <:+ s → u ≠ [] → step (u ++ t) = none) :
    pass step (s ++ t) = s ++ pass step t := by
  induction s with
  | nil => rfl
  | cons c s ih =>
    have first := h (c :: s) List.suffix_rfl (List.cons_ne_nil c s)
    rw [List.cons_append] at first
    rw [List.cons_append, pass_of_none first, ih fun u hu => h u (hu.trans (List.suffix_cons c s)),
      List.cons_append]

theorem pass_eq_self (h : ∀ u, u <:+ s → step u = none) : pass step s = s := by
  have all : pass step (s ++ []) = s ++ pass step [] := pass_append_of_none fun u hu _ => by
    rw [List.append_nil]
    exact h u hu
  rwa [pass_nil, List.append_nil] at all

theorem pass_forall {P : Char → Prop} (reads : Reads step)
    (new : ∀ s new rest, step s = some (new, rest) → (∀ c ∈ s, P c) → ∀ c ∈ new, P c)
    (h : ∀ c ∈ s, P c) : ∀ c ∈ pass step s, P c := by
  induction s using pass_induct reads with
  | nil => exact h
  | piece s t rest found ih =>
    obtain ⟨piece, -, rfl⟩ := reads found
    rw [pass_of_some reads found]
    intro c member
    rcases List.mem_append.1 member with fresh | behind
    · exact new _ t rest found h c fresh
    · exact ih (fun x hx => h x (List.mem_append_right piece hx)) c behind
  | char c s other ih =>
    rw [pass_of_none other, List.forall_mem_cons]
    rw [List.forall_mem_cons] at h
    exact ⟨h.1, ih h.2⟩

theorem pass_ne_nil (reads : Reads step)
    (new : ∀ s new rest, step s = some (new, rest) → new ≠ []) (h : s ≠ []) :
    pass step s ≠ [] := by
  cases found : step s with
  | some p =>
    rw [pass_of_some reads found]
    exact List.append_ne_nil_of_left_ne_nil (new s p.1 p.2 found) _
  | none =>
    cases s with
    | nil => exact absurd rfl h
    | cons c t =>
      rw [pass_of_none found]
      exact List.cons_ne_nil _ _

/-- Each piece that begins in the first text is read the same whether or not the second follows. -/
def Settled (step : Step) (s t : List Char) : Prop :=
  ∀ u, u <:+ s → u ≠ [] → step (u ++ t) = (step u).map fun p => (p.1, p.2 ++ t)

theorem Settled.of_suffix {t u : List Char} (h : Settled step s t) (suffix : u <:+ s) :
    Settled step u t :=
  fun v hv filled => h v (hv.trans suffix) filled

theorem pass_append (reads : Reads step) {t : List Char} (settled : Settled step s t) :
    pass step (s ++ t) = pass step s ++ pass step t := by
  induction s using pass_induct reads with
  | nil => rfl
  | piece s new rest found ih =>
    have filled : s ≠ [] := by
      rintro rfl
      rw [reads.nil] at found
      cases found
    have same := settled s List.suffix_rfl filled
    rw [found] at same
    obtain ⟨piece, -, split⟩ := reads found
    rw [pass_of_some reads same, pass_of_some reads found, List.append_assoc,
      ih (settled.of_suffix ⟨piece, split.symm⟩)]
  | char c s other ih =>
    have same := settled (c :: s) List.suffix_rfl (List.cons_ne_nil c s)
    rw [other] at same
    rw [List.cons_append] at same ⊢
    rw [pass_of_none same, pass_of_none other, ih (settled.of_suffix (List.suffix_cons c s)),
      List.cons_append]

end

end SparqlClient.Log
