import Mathlib.Data.List.TakeWhile
import SparqlClient.Builder.Clauses
import SparqlClient.Proofs.Number.Reading

/-! Multiples of values as whole numbers. A product of numbers is no number where a factor is none,
and a text that is repeated is read as a whole number only if the text itself is. Main statement: a
value of which some multiple is a whole number has a whole part itself. -/

namespace SparqlClient

namespace Text

theorem dropEndWhile_append_of_not {p : Char → Bool} (s : List Char) {t : List Char}
    (apart : ∃ c ∈ t, p c = false) : dropEndWhile p (s ++ t) = s ++ dropEndWhile p t := by
  obtain ⟨c, member, other⟩ := apart
  have kept : (t.reverse.dropWhile p).isEmpty = false := by
    rw [List.isEmpty_eq_false_iff, Ne, List.dropWhile_eq_nil_iff, not_forall]
    exact ⟨c, by simp [member, other]⟩
  simp [dropEndWhile, List.dropWhile_append, kept]

theorem dropWhile_append_of_not {p : Char → Bool} {s : List Char} (t : List Char)
    (apart : ∃ c ∈ s, p c = false) : (s ++ t).dropWhile p = s.dropWhile p ++ t := by
  obtain ⟨c, member, other⟩ := apart
  have kept : (s.dropWhile p).isEmpty = false := by
    rw [List.isEmpty_eq_false_iff, Ne, List.dropWhile_eq_nil_iff, not_forall]
    exact ⟨c, by simp [member, other]⟩
  simp [List.dropWhile_append, kept]

theorem eq_false_of_trimBy {p : Char → Bool} {s m : List Char}
    (clean : ∀ c ∈ trimBy p (s ++ (m ++ s)), p c = false) (apart : ∃ c ∈ s, p c = false) :
    ∀ c ∈ s, p c = false := by
  rw [trimBy, dropWhile_append_of_not _ apart, ← List.append_assoc,
    dropEndWhile_append_of_not _ apart] at clean
  have start : s.dropWhile p = s := by
    obtain ⟨c, member, other⟩ := apart
    have whole := dropEndWhile_append p s
    cases kept : dropEndWhile p s with
    | nil =>
      rw [kept, List.nil_append] at whole
      rw [← whole, List.mem_reverse] at member
      rw [List.mem_takeWhile_imp member] at other
      cases other
    | cons d t =>
      have first : p d = false := clean d (by simp [kept])
      rw [kept, List.cons_append] at whole
      rw [← whole, List.dropWhile_cons_of_neg (by simp [first])]
  intro c member
  refine clean c ?_
  rw [start]
  simp [member]

end Text

namespace Numeral

open Text

def isRunChar (c : Char) : Bool := c.isDigit || c = '_'

theorem isRunChar_of_run {r : Run} {s : List Char} (whole : (runFrom r s).rest = []) :
    ∀ c ∈ s, isRunChar c := by
  fun_induction runFrom r s with
  | case1 r d s more ih =>
    rw [Bool.and_eq_true] at more
    simpa [isRunChar, more.2] using ih whole
  | case2 => cases whole
  | case3 r d s _ ascii ih => simpa [isRunChar, ascii] using ih whole
  | case4 => cases whole
  | case5 => simp

theorem isDigit_getLast? {r : Run} {s : List Char} (whole : (runFrom r s).rest = []) :
    ∀ c ∈ s.getLast?, c.isDigit := by
  fun_induction runFrom r s with
  | case1 r d s more ih =>
    rw [Bool.and_eq_true] at more
    have later := ih whole
    cases s with
    | nil => simpa using more.2
    | cons e s => simpa using later
  | case2 => cases whole
  | case3 r d s _ ascii ih =>
    have later := ih whole
    cases s with
    | nil => simpa using ascii
    | cons e s => simpa using later
  | case4 => cases whole
  | case5 => simp

theorem count_le_runFrom (r : Run) (s : List Char) : r.count ≤ (runFrom r s).count := by
  fun_induction runFrom r s with
  | case1 r d s _ ih => exact le_trans (Nat.le_succ _) ih
  | case3 r d s _ _ ih => exact le_trans (Nat.le_succ _) ih
  | _ => exact le_rfl

theorem count_lt_runFrom {r : Run} {s : List Char} (some_char : s ≠ [])
    (whole : (runFrom r s).rest = []) : r.count < (runFrom r s).count := by
  fun_induction runFrom r s with
  | case1 r d s => exact count_le_runFrom (r.push d s) s
  | case2 => cases whole
  | case3 r d s => exact count_le_runFrom (r.push d s) s
  | case4 => cases whole
  | case5 => exact absurd rfl some_char

theorem runFrom_push (r : Run) (d : Char) (s t u : List Char) :
    runFrom (r.push d t) u = runFrom (r.push d s) u := by
  rw [runFrom.eq_def, runFrom.eq_def (r.push d s)]
  rfl

theorem runFrom_of_append {r : Run} {s u : List Char} (whole : (runFrom r (s ++ u)).rest = [])
    (last : ∀ c ∈ s.getLast?, c.isDigit) :
    (runFrom r s).rest = [] ∧ (runFrom r s).count ≤ (runFrom r (s ++ u)).count := by
  have behind {d : Char} {s : List Char} (h : ∀ c ∈ (d :: s).getLast?, c.isDigit) :
      ∀ c ∈ s.getLast?, c.isDigit := by
    cases s with
    | nil => simp
    | cons e s => simpa using h
  fun_induction runFrom r s with
  | case1 r d s more ih =>
    have step : runFrom r ('_' :: d :: s ++ u) = runFrom (r.push d s) (s ++ u) := by
      rw [List.cons_append, List.cons_append, runFrom, if_pos more]
      exact runFrom_push r d s _ _
    rw [step] at whole ⊢
    exact ih whole (behind (behind last))
  | case2 r d s stop =>
    rw [List.cons_append, List.cons_append, runFrom, if_neg stop] at whole
    cases whole
  | case3 r d s _ ascii ih =>
    have step : runFrom r (d :: s ++ u) = runFrom (r.push d s) (s ++ u) := by
      rw [List.cons_append, runFrom_digit ascii]
      exact runFrom_push r d s _ _
    rw [step] at whole ⊢
    exact ih whole (behind last)
  | case4 r d s apart other =>
    cases s with
    | nil => exact absurd (last d rfl) other
    | cons e s =>
      have mark : d ≠ '_' := fun same => apart e s same rfl
      rw [List.cons_append, runFrom, if_neg other] at whole
      · cases whole
      · exact fun _ _ same => absurd same mark
  | case5 r => exact ⟨rfl, count_le_runFrom r u⟩

def intRun (s : List Char) : Run := run (sign (asciiDigits (trimBy isOuterBlank s))).2

theorem int?_isSome_iff {s : String} : (int? s).isSome ↔
    (intRun s.toList).rest = [] ∧ 0 < (intRun s.toList).count ∧
      (intRun s.toList).count ≤ maxDigits := by
  have read : int? s = if (intRun s.toList).count = 0 || maxDigits < (intRun s.toList).count ||
      !(intRun s.toList).rest.isEmpty then none
    else some (if (sign (asciiDigits (trimBy isOuterBlank s.toList))).1 then
      -((intRun s.toList).value : ℤ) else (intRun s.toList).value) := rfl
  rw [read, Option.isSome_ite']
  simp only [Bool.or_eq_true, decide_eq_true_eq, Bool.not_eq_true', List.isEmpty_eq_false_iff,
    not_or, not_not]
  exact ⟨fun ⟨⟨some_digit, few⟩, whole⟩ => ⟨whole, Nat.pos_of_ne_zero some_digit, not_lt.1 few⟩,
    fun ⟨whole, some_digit, few⟩ => ⟨⟨some_digit.ne', not_lt.2 few⟩, whole⟩⟩

theorem isOuterBlank_of_isRunChar {c : Char} (h : isRunChar (asciiDigit c)) :
    isOuterBlank c = false := by
  refine isOuterBlank_of_isBlank ?_
  cases known : digit? c with
  | some d => exact isBlank_of_digit? known
  | none =>
    rw [asciiDigit, known, Option.map_none, Option.getD_none, isRunChar, Bool.or_eq_true,
      decide_eq_true_eq] at h
    rcases h with ascii | rfl
    · rw [digit?, if_pos ascii] at known
      cases known
    · decide

theorem sign_of_ne {c : Char} (s : List Char) (minus : c ≠ '-') (plus : c ≠ '+') :
    sign (c :: s) = (false, c :: s) := by
  unfold sign
  split <;> simp_all

theorem isOuterBlank_of_intRun {s : List Char} (whole : (intRun s).rest = []) :
    ∀ c ∈ trimBy isOuterBlank s, isOuterBlank c = false := by
  rw [intRun, sign_asciiDigits] at whole
  intro c member
  rcases mem_of_sign member with rfl | rfl | inside
  · decide
  · decide
  · exact isOuterBlank_of_isRunChar (isRunChar_of_run whole _ (List.mem_map_of_mem inside))

theorem sign_of_repeated {s m : List Char} (some_char : s ≠ [])
    (whole : (run (sign (s ++ (m ++ s))).2).rest = []) :
    sign s = (false, s) ∧ sign (s ++ (m ++ s)) = (false, s ++ (m ++ s)) := by
  cases s with
  | nil => exact absurd rfl some_char
  | cons c s =>
    have inside (mark : isRunChar c = false)
        (behind : (sign (c :: s ++ (m ++ c :: s))).2 = s ++ (m ++ c :: s)) : False := by
      have own := isRunChar_of_run whole c (by rw [behind]; simp)
      rw [mark] at own
      cases own
    have minus : c ≠ '-' := by
      rintro rfl
      exact inside (by decide) rfl
    have plus : c ≠ '+' := by
      rintro rfl
      exact inside (by decide) rfl
    exact ⟨sign_of_ne _ minus plus, sign_of_ne _ minus plus⟩

/-- A text that stands in a whole number first and last is a whole number, and no longer one. -/
theorem intRun_of_repeated {s m : List Char} (within : m ⊆ s)
    (whole : (intRun (s ++ (m ++ s))).rest = [])
    (some_digit : 0 < (intRun (s ++ (m ++ s))).count) :
    (intRun s).rest = [] ∧ 0 < (intRun s).count ∧
      (intRun s).count ≤ (intRun (s ++ (m ++ s))).count := by
  have members : ∀ c ∈ s ++ (m ++ s), c ∈ s := by
    intro c member
    simp only [List.mem_append] at member
    exact member.elim id fun h => h.elim (fun h => within h) id
  have apart : ∃ c ∈ s, isOuterBlank c = false := by
    by_contra blank
    simp only [not_exists, not_and, Bool.not_eq_false] at blank
    have nothing : (s ++ (m ++ s)).dropWhile isOuterBlank = [] :=
      List.dropWhile_eq_nil_iff.2 fun c member => blank c (members c member)
    rw [intRun, trimBy, nothing] at some_digit
    exact absurd some_digit (by decide)
  have clean := eq_false_of_trimBy (isOuterBlank_of_intRun whole) apart
  have own : intRun s = run (sign (asciiDigits s)).2 := by rw [intRun, trimBy_eq_self clean]
  have both : intRun (s ++ (m ++ s)) =
      run (sign (asciiDigits s ++ (asciiDigits m ++ asciiDigits s))).2 := by
    rw [intRun, trimBy_eq_self fun c member => clean c (members c member), asciiDigits_eq,
      List.map_append, List.map_append]
    rfl
  have filled : asciiDigits s ≠ [] := by
    obtain ⟨c, member, -⟩ := apart
    exact List.ne_nil_of_mem (List.mem_map_of_mem (f := asciiDigit) member)
  rw [both] at whole some_digit ⊢
  rw [own]
  obtain ⟨alone, signless⟩ := sign_of_repeated filled whole
  rw [signless] at whole ⊢
  rw [alone]
  have last : ∀ c ∈ (asciiDigits s).getLast?, c.isDigit := by
    have digit := isDigit_getLast? whole
    rw [List.getLast?_append_of_ne_nil _ (by simp [filled]),
      List.getLast?_append_of_ne_nil _ filled] at digit
    exact digit
  obtain ⟨rest, fewer⟩ := runFrom_of_append whole last
  exact ⟨rest, count_lt_runFrom filled rest, fewer⟩

/-- A text is a whole number if it is one so many times over. -/
theorem int?_of_join {n : ℕ} {s : String}
    (h : (int? (String.join (List.replicate n s))).isSome) : (int? s).isSome := by
  obtain _ | _ | n := n
  · have nothing : int? "" = none := by decide +kernel
    rw [List.replicate_zero, String.join_nil, nothing] at h
    cases h
  · simpa using h
  · have twice : (String.join (List.replicate (n + 2) s)).toList =
        s.toList ++ ((List.replicate n s.toList).flatten ++ s.toList) := by
      rw [String.toList_join, List.replicate_succ, List.flatMap_cons, List.replicate_succ',
        List.flatMap_append, List.flatMap_replicate]
      simp
    rw [int?_isSome_iff, twice] at h
    have within : (List.replicate n s.toList).flatten ⊆ s.toList := by
      intro c member
      obtain ⟨t, copy, member⟩ := List.mem_flatten.1 member
      rwa [List.eq_of_mem_replicate copy] at member
    obtain ⟨rest, some_digit, fewer⟩ := intRun_of_repeated within h.1 h.2.1
    exact int?_isSome_iff.2 ⟨rest, some_digit, fewer.trans h.2.2⟩

end Numeral

namespace Value

open Float.Model

theorem isFinite_unpack_iff {spec : Format} (b : BitVec spec.numBits) :
    (UnpackedFloat.unpack spec b).isFinite = false ↔ UnpackedFloat.unpackExponent b = -1#_ := by
  unfold UnpackedFloat.unpack
  by_cases greatest : UnpackedFloat.unpackExponent b = -1#_
  · rw [if_pos greatest, iff_true_right greatest]
    split <;> rfl
  · rw [if_neg greatest, iff_false_right greatest, Bool.not_eq_false]
    by_cases least : UnpackedFloat.unpackExponent b = 0#_
    · rw [if_pos least]
      by_cases empty : UnpackedFloat.unpackMantissa b = 0#_
      · rw [dif_pos empty]
        rfl
      · rw [dif_neg empty]
        rfl
    · rw [if_neg least]
      rfl

theorem biased_eq_iff (x : Float) :
    (Shortest.bitsOf x).biased = 2047 ↔ x.toModel.unpack.isFinite = false := by
  have field : (@UnpackedFloat.unpackExponent Format.binary64 x.toModel.toBits.toBitVec).toNat =
      (Shortest.bitsOf x).biased := by
    have bits : x.toBits = x.toModel.toBits := rfl
    simp [UnpackedFloat.unpackExponent, Shortest.bitsOf, Nat.shiftRight_eq_div_pow, bits]
  rw [Float.Model.unpack, isFinite_unpack_iff, ← BitVec.toNat_inj, field]
  rfl

theorem floatWhole?_isSome_iff (x : Float) :
    (floatWhole? x).isSome ↔ x.toModel.unpack.isFinite := by
  have greatest := biased_eq_iff x
  unfold floatWhole?
  simp only
  split
  · simp_all
  · simp_all

theorem isFinite_pack {x : UnpackedFloat} (h : x.isFinite = false) :
    (pack x).unpack.isFinite = false := by
  rw [Float.Model.unpack, isFinite_unpack_iff]
  cases x with
  | infinity s => exact UnpackedFloat.unpackExponent_packComponents
  | notANumber => exact UnpackedFloat.unpackExponent_packComponents
  | zero => cases h
  | finite => cases h

theorem isFinite_mul {x y : UnpackedFloat} (h : x.isFinite = false) :
    (UnpackedFloat.mul Format.binary64 y x).isFinite = false := by
  cases x <;> cases y <;> first | rfl | cases h

theorem floatWhole?_of_mul {x y : Float} (h : (floatWhole? (y * x)).isSome) :
    (floatWhole? x).isSome := by
  rw [floatWhole?_isSome_iff] at h ⊢
  by_contra infinite
  rw [Bool.not_eq_true] at infinite
  have product : (y * x).toModel.unpack.isFinite = false := isFinite_pack (isFinite_mul infinite)
  rw [h] at product
  cases product

theorem finite_of_mul {negative n : Bool} {digits m : ℕ} {exponent e : ℤ} {y : Decimal}
    (h : (Decimal.finite negative digits exponent).mul y = .ok (.finite n m e)) :
    ∃ n m e, y = .finite n m e := by
  cases y with
  | finite n m e => exact ⟨n, m, e, rfl⟩
  | infinite =>
    simp only [Decimal.mul, Decimal.missing?, Decimal.mul.scale] at h
    split at h <;> cases h
  | nan _ signaling => cases signaling <;> cases h

theorem whole_text_iff {s : String} :
    (∃ k, (Value.text s).whole = .ok k) ↔ (Numeral.int? s).isSome := by
  rw [whole]
  cases Numeral.int? s <;> simp [Misuse.fail]

theorem whole_octets_iff {s : String} :
    (∃ k, (Value.octets s).whole = .ok k) ↔ ((ascii? s).bind Numeral.int?).isSome := by
  rw [whole]
  cases (ascii? s).bind Numeral.int? <;> simp [Misuse.fail]

theorem whole_float_iff {x : Float} :
    (∃ k, (Value.float x).whole = .ok k) ↔ (floatWhole? x).isSome := by
  rw [whole]
  split
  · rename_i read
    simp [read]
  · rename_i read
    split <;> simp [read, Misuse.fail]

theorem eq_of_guarded {p : Prop} [Decidable p] {kind : Misuse} {a c : Value}
    (h : (if p then Misuse.fail kind else .ok a) = Except.ok c) : c = a := by
  split at h
  · cases h
  · exact (Except.ok.inj h).symm

theorem whole_text_of_join {n : ℕ} {s : String}
    (h : ∃ k, (Value.text (String.join (List.replicate n s))).whole = .ok k) :
    ∃ k, (Value.text s).whole = .ok k :=
  whole_text_iff.2 (Numeral.int?_of_join (whole_text_iff.1 h))

theorem whole_octets_of_join {n : ℕ} {s : String}
    (h : ∃ k, (Value.octets (String.join (List.replicate n s))).whole = .ok k) :
    ∃ k, (Value.octets s).whole = .ok k := by
  rw [whole_octets_iff] at h ⊢
  cases read : ascii? (String.join (List.replicate n s)) with
  | none =>
    rw [read] at h
    cases h
  | some t =>
    rw [read, Option.bind_some] at h
    unfold ascii? at read
    split at read
    · rename_i plain
      obtain rfl := Option.some.inj read
      have number := Numeral.int?_of_join h
      have own : s.toList.all (·.toNat < 128) := by
        cases n with
        | zero => exact absurd h (by rw [List.replicate_zero, String.join_nil]; decide +kernel)
        | succ n =>
          rw [String.toList_join, List.replicate_succ, List.flatMap_cons, List.all_append,
            Bool.and_eq_true] at plain
          exact plain.1
      rw [ascii?, if_pos own]
      exact number
    · cases read

/-- A value has a whole part if a multiple of it has. -/
theorem whole_of_times {n : ℕ} {v c : Value} {k : ℤ} (made : Builder.times n v = .ok c)
    (h : c.whole = .ok k) : ∃ k, v.whole = .ok k := by
  cases v with
  | bool b => exact ⟨_, rfl⟩
  | int n => exact ⟨_, rfl⟩
  | float x =>
    obtain ⟨y, -, rfl⟩ := Outcome.map_eq_ok_iff.1 made
    exact whole_float_iff.2 (floatWhole?_of_mul (whole_float_iff.1 ⟨k, h⟩))
  | decimal d =>
    obtain ⟨p, product, rfl⟩ := Outcome.map_eq_ok_iff.1 made
    cases p with
    | finite negative digits exponent =>
      obtain ⟨_, _, _, rfl⟩ := finite_of_mul product
      exact ⟨_, rfl⟩
    | infinite => cases h
    | nan => cases h
  | text s =>
    obtain rfl := eq_of_guarded made
    exact whole_text_of_join ⟨k, h⟩
  | octets s =>
    obtain rfl := eq_of_guarded made
    exact whole_octets_of_join ⟨k, h⟩
  | node t =>
    obtain rfl := eq_of_guarded made
    exact whole_text_of_join ⟨k, h⟩
  | list items =>
    obtain rfl := eq_of_guarded made
    cases h
  | null | map | date | moment | clock | term => cases made

end Value

end SparqlClient
