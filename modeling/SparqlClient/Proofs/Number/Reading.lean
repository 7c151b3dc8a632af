import Mathlib.Data.List.TakeWhile
import SparqlClient.Proofs.Query.Run
import SparqlClient.Results

/-! Numbers read from the text of an answer. A sign and digits are a whole number unless they are
too many, and what has a point or an exponent is a floating number. Main statement: a term is read
as a number, or stays a text, unless it is a whole number with too many digits. -/

namespace SparqlClient

namespace Text

theorem trimBy_between {p : Char → Bool} {a s b : List Char} (before : ∀ c ∈ a, p c)
    (inner : ∀ c ∈ s, p c = false) (behind : ∀ c ∈ b, p c) : trimBy p (a ++ s ++ b) = s := by
  rw [trimBy, List.append_assoc, List.dropWhile_append_of_pos before]
  cases s with
  | nil =>
    have none_left : b.dropWhile p = [] := List.dropWhile_eq_nil_iff.2 behind
    rw [List.nil_append, none_left, dropEndWhile_nil]
  | cons c s =>
    have first : ¬p c = true := by simp [inner c (List.mem_cons_self ..)]
    rw [List.cons_append, List.dropWhile_cons_of_neg first, ← List.cons_append, dropEndWhile,
      List.reverse_append, List.dropWhile_append_of_pos (by simpa using behind)]
    exact dropEndWhile_eq_self fun d hd => inner d (List.mem_of_getLast? hd)

theorem trimBy_eq_self {p : Char → Bool} {s : List Char} (h : ∀ c ∈ s, p c = false) :
    trimBy p s = s := by
  simpa using trimBy_between (a := []) (b := []) (by simp) h (by simp)

theorem digit?_cases {c : Char} {d : ℕ} (h : digit? c = some d) :
    c.isDigit ∧ d = c.toNat - 48 ∨ 128 ≤ c.toNat ∧ ∃ z ∈ zeros, c.toNat = z + d ∧ d ≤ 9 := by
  unfold digit? at h
  split at h
  · rename_i ascii
    exact .inl ⟨ascii, (Option.some.inj h).symm⟩
  · split at h
    · cases h
    · rename_i beyond
      obtain ⟨z, found, rfl⟩ := Option.map_eq_some_iff.1 h
      have near := List.find?_some found
      simp only [Bool.and_eq_true, decide_eq_true_eq] at near
      exact .inr ⟨by omega, z, List.mem_of_find?_eq_some found, by omega, by omega⟩

theorem toNat_of_isDigit {c : Char} (h : c.isDigit) : 48 ≤ c.toNat ∧ c.toNat ≤ 57 := by
  simpa [Char.isDigit, UInt32.le_iff_toNat_le] using h

theorem digit?_le {c : Char} {d : ℕ} (h : digit? c = some d) : d ≤ 9 := by
  rcases digit?_cases h with ⟨ascii, rfl⟩ | ⟨-, z, -, -, small⟩
  · have := toNat_of_isDigit ascii
    omega
  · exact small

theorem isBlank_of_digit? {c : Char} {d : ℕ} (h : digit? c = some d) : isBlank c = false := by
  have apart : ∀ z ∈ zeros, 1632 ≤ z ∧ (z + 9 < 5760 ∨ 5760 < z) ∧ (z + 9 < 8192 ∨ 12288 < z) := by
    decide
  have outside : c.toNat ∉ [0x85, 0xA0, 0x1680, 0x2028, 0x2029, 0x202F, 0x205F, 0x3000] ∧
      (c.toNat < 9 ∨ 13 < c.toNat) ∧ (c.toNat < 28 ∨ 32 < c.toNat) ∧
      (c.toNat < 0x2000 ∨ 0x200A < c.toNat) := by
    simp only [List.mem_cons, List.not_mem_nil, or_false]
    rcases digit?_cases h with ⟨ascii, -⟩ | ⟨-, z, member, place, small⟩
    · have := toNat_of_isDigit ascii
      omega
    · have := apart z member
      omega
  simp only [List.mem_cons, List.not_mem_nil, or_false] at outside
  simp only [isBlank, Bool.or_eq_false_iff, Bool.and_eq_false_iff, decide_eq_false_iff_not,
    beq_eq_false_iff_ne]
  omega

end Text

namespace Numeral

open Text

theorem isOuterBlank_of_isBlank {c : Char} (h : isBlank c = false) : isOuterBlank c = false := by
  simp [isOuterBlank, h]

theorem isDigit_ofNat {d : ℕ} (h : d ≤ 9) : (Char.ofNat (48 + d)).isDigit := by
  have all : ∀ d < 10, (Char.ofNat (48 + d)).isDigit := by decide
  exact all d (by omega)

def asciiDigit (c : Char) : Char := ((digit? c).map fun d => Char.ofNat (48 + d)).getD c

theorem asciiDigits_eq (s : List Char) : asciiDigits s = s.map asciiDigit := rfl

theorem isDigit_asciiDigit {c : Char} (h : isDecimalDigit c) : (asciiDigit c).isDigit := by
  obtain ⟨d, known⟩ := Option.isSome_iff_exists.1 h
  rw [asciiDigit, known]
  exact isDigit_ofNat (digit?_le known)

theorem asciiDigit_cases (c : Char) : (asciiDigit c).isDigit ∨ asciiDigit c = c := by
  cases known : digit? c with
  | none => exact .inr (by rw [asciiDigit, known]; rfl)
  | some d => exact .inl (isDigit_asciiDigit (by rw [isDecimalDigit, known]; rfl))

theorem sign_asciiDigits (s : List Char) :
    sign (asciiDigits s) = ((sign s).1, asciiDigits (sign s).2) := by
  have kept {c m : Char} (mark : m.isDigit = false) (h : asciiDigit c = m) : c = m := by
    rcases asciiDigit_cases c with digit | same
    · rw [h, mark] at digit
      cases digit
    · exact same.symm.trans h
  cases s with
  | nil => rfl
  | cons c s =>
    by_cases minus : c = '-'
    · subst minus
      rfl
    · by_cases plus : c = '+'
      · subst plus
        rfl
      · have first : sign (c :: s) = (false, c :: s) := by
          unfold sign
          split <;> simp_all
        have other : sign (asciiDigit c :: s.map asciiDigit) =
            (false, asciiDigit c :: s.map asciiDigit) := by
          unfold sign
          split
          · rename_i same
            exact absurd (kept (by decide) (List.cons.inj same).1) minus
          · rename_i same
            exact absurd (kept (by decide) (List.cons.inj same).1) plus
          · rfl
        rw [asciiDigits_eq, List.map_cons, other, first]
        rfl

theorem runFrom_digit {c : Char} (h : c.isDigit) (r : Run) (s : List Char) :
    runFrom r (c :: s) = runFrom (r.push c s) s := by
  have mark : c ≠ '_' := by
    rintro rfl
    cases h
  rw [runFrom]
  · simp [h]
  · exact fun _ _ same => absurd same mark

theorem runFrom_digits {s : List Char} (h : ∀ c ∈ s, c.isDigit) (r : Run) :
    (runFrom r s).count = r.count + s.length ∧ (runFrom r s).rest = [] := by
  induction s generalizing r with
  | nil => exact ⟨rfl, rfl⟩
  | cons c s ih =>
    rw [List.forall_mem_cons] at h
    obtain ⟨count, rest⟩ := ih h.2 (r.push c s)
    rw [runFrom_digit h.1, count, rest, List.length_cons]
    exact ⟨by simp only [Run.push]; omega, rfl⟩

theorem mem_of_sign {c : Char} {s : List Char} (h : c ∈ s) :
    c = '-' ∨ c = '+' ∨ c ∈ (sign s).2 := by
  unfold sign
  split
  · exact (List.mem_cons.1 h).imp_right .inr
  · exact .inr (List.mem_cons.1 h)
  · exact .inr (.inr h)

theorem trimBy_eq_of_sign {s : List Char} (h : ∀ c ∈ (sign s).2, isBlank c = false) :
    trimBy isOuterBlank s = s := by
  refine trimBy_eq_self fun c hc => isOuterBlank_of_isBlank ?_
  rcases mem_of_sign hc with rfl | rfl | member
  · decide
  · decide
  · exact h c member

/-- Digits of all scripts behind a sign, if they are not too many, are a whole number. -/
theorem int?_isSome {text : String} (some : (sign text.toList).2 ≠ [])
    (digits : ∀ c ∈ (sign text.toList).2, isDecimalDigit c)
    (few : (sign text.toList).2.length ≤ maxDigits) : (int? text).isSome := by
  have whole : trimBy isOuterBlank text.toList = text.toList := by
    refine trimBy_eq_of_sign fun c hc => ?_
    obtain ⟨d, known⟩ := Option.isSome_iff_exists.1 (digits c hc)
    exact isBlank_of_digit? known
  have ascii : ∀ c ∈ asciiDigits (sign text.toList).2, c.isDigit := by
    intro c hc
    obtain ⟨x, hx, rfl⟩ := List.mem_map.1 hc
    exact isDigit_asciiDigit (digits x hx)
  obtain ⟨count, rest⟩ := runFrom_digits ascii ⟨0, 0, []⟩
  have filled : asciiDigits (sign text.toList).2 ≠ [] := by simpa [asciiDigits_eq] using some
  have fits : (asciiDigits (sign text.toList).2).length ≤ maxDigits := by
    rwa [asciiDigits_eq, List.length_map]
  unfold int?
  rw [whole, sign_asciiDigits]
  simp [run, count, rest, filled, fits]

def isNumberChar (c : Char) : Bool := c.isDigit || "_.eE+-".toList.contains c

theorem mem_of_run {c : Char} {s : List Char} (r : Run) (h : c ∈ s) :
    isNumberChar c ∨ c ∈ (runFrom r s).rest := by
  have digit {c : Char} (ascii : c.isDigit) : isNumberChar c := by simp [isNumberChar, ascii]
  fun_induction runFrom r s with
  | case1 r d s more ih =>
    rcases List.mem_cons.1 h with rfl | h
    · exact .inl (by decide)
    · rcases List.mem_cons.1 h with rfl | h
      · exact .inl (digit (Bool.and_eq_true_iff.1 more).2)
      · exact ih h
  | case2 => exact .inr h
  | case3 r d s _ ascii ih =>
    rcases List.mem_cons.1 h with rfl | h
    · exact .inl (digit ascii)
    · exact ih h
  | case4 => exact .inr h
  | case5 => cases h

theorem isNumberChar_of_exponent {e : Char} {t : List Char} (mark : e = 'e' ∨ e = 'E')
    (read : (run (sign t).2).rest = []) : ∀ c ∈ e :: t, isNumberChar c := by
  rw [List.forall_mem_cons]
  refine ⟨by rcases mark with rfl | rfl <;> decide, fun c hc => ?_⟩
  rcases mem_of_sign hc with rfl | rfl | member
  · decide
  · decide
  · refine (mem_of_run ⟨0, 0, []⟩ member).resolve_right fun left => ?_
    rw [run] at read
    rw [read] at left
    cases left

def mantissa (s : List Char) : ℕ × ℕ × List Char :=
  match (run s).rest with
  | '.' :: t => ((run s).value * Nat.pow 10 (run t).count + (run t).value, (run t).count,
      (run t).rest)
  | t => ((run s).value, 0, t)

theorem mem_of_mantissa {c : Char} {s : List Char} (h : c ∈ s) :
    isNumberChar c ∨ c ∈ (mantissa s).2.2 := by
  rcases mem_of_run ⟨0, 0, []⟩ h with allowed | left
  · exact .inl allowed
  · change c ∈ (run s).rest at left
    unfold mantissa
    split
    · rename_i point
      rw [point] at left
      rcases List.mem_cons.1 left with rfl | left
      · exact .inl (by decide)
      · exact mem_of_run ⟨0, 0, []⟩ left
    · exact .inr left

theorem isNumberChar_of_scientific? {s : List Char} (h : (scientific? s).isSome) :
    ∀ c ∈ s, isNumberChar c := by
  intro c hc
  rcases mem_of_mantissa hc with allowed | left
  · exact allowed
  · unfold scientific? at h
    extract_lets whole at h
    split at h
    rename_i value places rest parts
    change mantissa s = (value, places, rest) at parts
    rw [parts] at left
    extract_lets any at h
    clear_value any
    split at h
    · cases h
    · cases left
    · split at h
      · rename_i mark
        simp only at h
        split at h
        · cases h
        · rename_i read
          simp only [Bool.or_eq_true, decide_eq_true_eq, Bool.not_eq_true', not_or,
            Bool.not_eq_false, List.isEmpty_iff] at read mark
          exact isNumberChar_of_exponent mark read.2 c left
      · cases h

theorem isBlank_of_isNumberChar {c : Char} (h : isNumberChar c) : isBlank c = false := by
  rcases Bool.or_eq_true_iff.1 h with digit | mark
  · exact isBlank_of_digit? (by rw [digit?, if_pos digit])
  · have marks : ∀ x ∈ "_.eE+-".toList, isBlank x = false := by decide
    exact marks c (List.contains_iff_mem.1 mark)

/-- A point or an exponent makes a floating number. -/
theorem float?_isSome {text : String}
    (h : (scientific? (asciiDigits (sign text.toList).2)).isSome) : (float? text).isSome := by
  have whole : trimBy isOuterBlank text.toList = text.toList := by
    refine trimBy_eq_of_sign fun c hc => ?_
    cases known : digit? c with
    | some d => exact isBlank_of_digit? known
    | none =>
      have same : asciiDigit c = c := by rw [asciiDigit, known]; rfl
      have member : asciiDigit c ∈ asciiDigits (sign text.toList).2 := List.mem_map_of_mem hc
      rw [same] at member
      exact isBlank_of_isNumberChar (isNumberChar_of_scientific? h c member)
  unfold float?
  rw [whole, sign_asciiDigits]
  simp only [Option.isSome_map]
  split
  · rfl
  · split
    · rfl
    · rwa [Option.isSome_map]

end Numeral

open Text

/-- A text that is a whole number, with few enough digits to be read as one. -/
def Term.IsShort (t : Term) : Prop :=
  let digits := (Numeral.sign t.value.plainText.toList).2
  (∀ c ∈ digits, isDecimalDigit c) → digits.length ≤ Numeral.maxDigits

def signless : List Char → List Char
  | '-' :: s => s
  | '+' :: s => s
  | s => s

theorem signless_eq (s : List Char) : signless s = (Numeral.sign s).2 := by
  unfold signless
  split <;> simp_all [Numeral.sign]

def numberOf (text : String) (body : List Char) : Outcome Value :=
  if !body.isEmpty && body.all isDecimalDigit then (Value.text text).whole.map .int
  else if !body.contains '_' && (Numeral.scientific? (Numeral.asciiDigits body)).isSome then
    (Value.text text).float?.map .float
  else .ok (.text text)

theorem toNumber_eq (t : Term) : toNumber t =
    if t.kind = .numeric ∨ t.kind = .boolean then .ok t.value
    else numberOf t.value.plainText (Numeral.sign t.value.plainText.toList).2 := by
  rw [← signless_eq]
  unfold toNumber
  cases t.kind <;> rfl

theorem toNumber_eq_ok {t : Term} (short : t.IsShort) : ∃ v, toNumber t = .ok v := by
  rw [toNumber_eq]
  split
  · exact ⟨_, rfl⟩
  · unfold numberOf
    split
    · rename_i digits
      simp only [Bool.and_eq_true, Bool.not_eq_true', List.isEmpty_eq_false_iff, List.all_eq_true]
        at digits
      obtain ⟨n, known⟩ := Option.isSome_iff_exists.1
        (Numeral.int?_isSome digits.1 digits.2 (short digits.2))
      exact ⟨.int n, by simp [Value.whole, known, Except.map]⟩
    · split
      · rename_i point
        obtain ⟨x, known⟩ := Option.isSome_iff_exists.1
          (Numeral.float?_isSome (Bool.and_eq_true_iff.1 point).2)
        exact ⟨.float x, by simp [Value.float?, known, Except.map]⟩
      · exact ⟨_, rfl⟩

end SparqlClient
