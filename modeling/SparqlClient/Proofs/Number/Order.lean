import Mathlib.Algebra.Order.Field.Power
import Mathlib.Data.Rat.Cast.Order
import Mathlib.Order.Compare
import SparqlClient.Proofs.Query.Run
import SparqlClient.Seconds

/-! The order of decimals is that of their values, and times are compared by it. Main statement:
where the clock does not go back, what is past stays past. -/

namespace SparqlClient

namespace Decimal

theorem digitCount_pos (n : ℕ) : 0 < digitCount n := by
  rw [digitCount, List.length_pos_iff]
  exact Nat.toDigits_ne_nil

theorem lt_pow_digitCount (n : ℕ) : n < 10 ^ digitCount n :=
  (Nat.length_toDigits_le_iff (by decide) (digitCount_pos n)).1 le_rfl

theorem pow_digitCount_le {n : ℕ} (h : n ≠ 0) : 10 ^ (digitCount n - 1) ≤ n := by
  by_contra! small
  rcases Nat.eq_zero_or_pos (digitCount n - 1) with single | more
  · rw [single] at small
    omega
  · have fewer : digitCount n ≤ digitCount n - 1 :=
      (Nat.length_toDigits_le_iff (by decide) more).2 small
    omega

def value : Decimal → ℚ
  | .finite negative digits exponent => (if negative then -1 else 1) * (digits * 10 ^ exponent)
  | _ => 0

theorem lt_of_places {a b : ℕ} {ea eb : ℤ} (hb : b ≠ 0)
    (fewer : ea + digitCount a < eb + digitCount b) :
    (a : ℚ) * 10 ^ ea < b * 10 ^ eb := by
  have ten (e : ℤ) : (0 : ℚ) < 10 ^ e := zpow_pos (by norm_num) e
  have above : (a : ℚ) < 10 ^ (digitCount a : ℤ) := by
    rw [zpow_natCast]
    exact_mod_cast lt_pow_digitCount a
  have below : (10 : ℚ) ^ ((digitCount b : ℤ) - 1) ≤ b := by
    have count : ((digitCount b : ℤ) - 1) = ((digitCount b - 1 : ℕ) : ℤ) := by
      have := digitCount_pos b
      omega
    rw [count, zpow_natCast]
    exact_mod_cast pow_digitCount_le hb
  calc (a : ℚ) * 10 ^ ea
      < 10 ^ (digitCount a : ℤ) * 10 ^ ea := mul_lt_mul_of_pos_right above (ten ea)
    _ = 10 ^ (digitCount a + ea) := (zpow_add₀ (by norm_num) _ _).symm
    _ ≤ 10 ^ (((digitCount b : ℤ) - 1) + eb) := zpow_le_zpow_right₀ (by norm_num) (by omega)
    _ = 10 ^ ((digitCount b : ℤ) - 1) * 10 ^ eb := zpow_add₀ (by norm_num) _ _
    _ ≤ b * 10 ^ eb := mul_le_mul_of_nonneg_right below (ten eb).le

theorem aligned_eq {a : ℕ} {ea e : ℤ} (h : e ≤ ea) :
    (a : ℚ) * 10 ^ ea = (a * Nat.pow 10 (ea - e).toNat : ℕ) * 10 ^ e := by
  have split : ea = ((ea - e).toNat : ℤ) + e := by omega
  rw [Nat.pow_eq]
  push_cast
  rw [mul_assoc, ← zpow_natCast (10 : ℚ), ← zpow_add₀ (by norm_num), ← split]

theorem compareSize_eq {a b : ℕ} {ea eb : ℤ} (ha : a ≠ 0) (hb : b ≠ 0) :
    compareSize a ea b eb = cmp ((a : ℚ) * 10 ^ ea) (b * 10 ^ eb) := by
  unfold compareSize
  dsimp only
  by_cases places : ea + digitCount a ≠ eb + digitCount b
  · rw [if_pos places]
    rcases lt_or_gt_of_ne places with fewer | more
    · rw [compare_lt_iff_lt.2 fewer, (cmp_eq_lt_iff ..).2 (lt_of_places hb fewer)]
    · rw [compare_gt_iff_gt.2 more, (cmp_eq_gt_iff ..).2 (lt_of_places ha more)]
  · rw [if_neg places, aligned_eq (min_le_left ea eb), aligned_eq (min_le_right ea eb),
      cmp_mul_pos_right (zpow_pos (by norm_num) _), ← cmp_eq_compare]
    exact ((Nat.strictMono_cast (α := ℚ)).cmp_map_eq _ _).symm

theorem value_neg (digits : ℕ) (exponent : ℤ) :
    value (.finite true digits exponent) = -(digits * 10 ^ exponent) := by
  simp [value]

theorem value_pos (digits : ℕ) (exponent : ℤ) :
    value (.finite false digits exponent) = digits * 10 ^ exponent := by
  simp [value]

theorem level?_ne (infinity negative : Bool) (digits : ℕ) (exponent : ℤ) :
    (infinite infinity).level? ≠ (finite negative digits exponent).level? := by
  intro same
  simp only [level?, Option.some.injEq] at same
  split_ifs at same <;> omega

theorem compareFinite {na nb : Bool} {m n : ℕ} {ea eb : ℤ}
    (level : (finite na m ea).level? = (finite nb n eb).level?) :
    (if m = 0 then .eq else if na then compareSize n eb m ea else compareSize m ea n eb) =
      cmp (value (.finite na m ea)) (value (.finite nb n eb)) := by
  simp only [level?, Option.some.injEq] at level
  by_cases zero : m = 0
  · have other : n = 0 := by
      by_contra some
      rw [if_pos zero, if_neg some] at level
      split_ifs at level; omega
    have nothing (sign : Bool) (exponent : ℤ) : value (.finite sign 0 exponent) = 0 := by
      simp [value]
    rw [if_pos zero, zero, other, nothing, nothing, cmp_self_eq_eq]
  · have other : n ≠ 0 := by
      intro none
      rw [if_neg zero, if_pos none] at level
      split_ifs at level; omega
    have sign : na = nb := by
      rw [if_neg zero, if_neg other] at level
      cases na <;> cases nb <;> simp_all
    subst sign
    cases na with
    | false =>
      rw [if_neg zero, if_neg Bool.false_ne_true, compareSize_eq zero other, value_pos, value_pos]
    | true =>
      rw [if_neg zero, if_pos rfl, compareSize_eq other zero, value_neg, value_neg]
      have turned : StrictAnti fun x : ℚ => -x := fun _ _ less => neg_lt_neg less
      exact (turned.cmp_map_eq _ _).symm

/-- Decimals are ordered by their level, and on one level by value. -/
theorem order?_eq {a b : Decimal} {la lb : ℤ} (ha : a.level? = some la) (hb : b.level? = some lb) :
    a.order? b = some ((compare la lb).then (cmp a.value b.value)) := by
  by_cases apart : la = lb
  · subst apart
    have same : (compare la la).then (cmp a.value b.value) = cmp a.value b.value := by
      rw [compare_eq_iff_eq.2 rfl]
      rfl
    rw [same]
    cases a with
    | nan => cases ha
    | infinite na =>
      cases b with
      | nan => cases hb
      | infinite nb =>
        have even : cmp (infinite na).value (infinite nb).value = .eq := cmp_self_eq_eq _
        rw [even]
        simp [order?, ha, hb]
      | finite nb n eb => exact (level?_ne _ _ _ _ (ha.trans hb.symm)).elim
    | finite na m ea =>
      cases b with
      | nan => cases hb
      | infinite nb => exact (level?_ne _ _ _ _ (hb.trans ha.symm)).elim
      | finite nb n eb =>
        rw [← compareFinite (ha.trans hb.symm), apply_ite some]
        simp [order?, ha, hb]
  · have unlike : compare la lb ≠ .eq := fun same => apart (compare_eq_iff_eq.1 same)
    have first (o : Ordering) : (compare la lb).then o = compare la lb := by
      cases known : compare la lb <;> simp_all
    rw [first]
    simp [order?, ha, hb, apart]

theorem level?_of_order? {a b : Decimal} {o : Ordering} (h : a.order? b = some o) :
    ∃ la lb, a.level? = some la ∧ b.level? = some lb := by
  cases ha : a.level? with
  | none => simp [order?, ha] at h
  | some la =>
    cases hb : b.level? with
    | none => simp [order?, ha, hb] at h
    | some lb => exact ⟨la, lb, rfl, rfl⟩

theorem order?_lt_iff {a b : Decimal} {la lb : ℤ} (ha : a.level? = some la)
    (hb : b.level? = some lb) :
    a.order? b = some .lt ↔ la < lb ∨ la = lb ∧ a.value < b.value := by
  rw [order?_eq ha hb, Option.some.injEq, Ordering.then_eq_lt, compare_lt_iff_lt,
    compare_eq_iff_eq, cmp_eq_lt_iff]

theorem order?_gt_iff {a b : Decimal} {la lb : ℤ} (ha : a.level? = some la)
    (hb : b.level? = some lb) :
    a.order? b = some .gt ↔ lb < la ∨ la = lb ∧ b.value < a.value := by
  rw [order?_eq ha hb, Option.some.injEq, Ordering.then_eq_gt, compare_gt_iff_gt,
    compare_eq_iff_eq, cmp_eq_gt_iff]

theorem order?_lt_of_lt {a b c : Decimal} {o : Ordering} (below : a.order? b = some .lt)
    (known : b.order? c = some o) (behind : o ≠ .gt) : a.order? c = some .lt := by
  obtain ⟨la, lb, ha, hb⟩ := level?_of_order? below
  obtain ⟨_, lc, _, hc⟩ := level?_of_order? known
  have notAbove : ¬(lc < lb ∨ lb = lc ∧ c.value < b.value) := by
    rw [← order?_gt_iff hb hc, known]
    simpa using behind
  rw [order?_lt_iff ha hb] at below
  rw [order?_lt_iff ha hc]
  rw [not_or, not_and, not_lt] at notAbove
  rcases notAbove.1.lt_or_eq with less | rfl
  · exact .inl (by omega)
  · have values := not_lt.1 (notAbove.2 rfl)
    exact below.imp_right fun ⟨level, less⟩ => ⟨level, less.trans_le values⟩

theorem level?_ofInt (n : ℤ) : (ofInt n).level? = some n.sign := by
  rcases lt_trichotomy n 0 with negative | rfl | positive
  · simp [ofInt, level?, Int.sign_eq_neg_one_of_neg negative, negative, negative.ne]
  · simp [ofInt, level?]
  · simp [ofInt, level?, Int.sign_eq_one_of_pos positive, positive.ne', not_lt.2 positive.le]

theorem value_ofInt (n : ℤ) : (ofInt n).value = n := by
  by_cases negative : n < 0
  · have size : (n.natAbs : ℚ) = -n := by
      rw [Nat.cast_natAbs, abs_of_neg negative]
      push_cast
      rfl
    simp [ofInt, value, negative, size]
  · have size : (n.natAbs : ℚ) = n := by
      rw [Nat.cast_natAbs, abs_of_nonneg (not_lt.1 negative)]
    simp [ofInt, value, negative, size]

theorem sign_le_sign {m n : ℤ} (h : m ≤ n) : m.sign ≤ n.sign := by
  rcases lt_trichotomy n 0 with negative | rfl | positive
  · rw [Int.sign_eq_neg_one_of_neg negative, Int.sign_eq_neg_one_of_neg (h.trans_lt negative)]
  · rw [Int.sign_zero]
    exact Int.sign_nonpos_iff.2 h
  · rw [Int.sign_eq_one_of_pos positive]
    rcases Int.sign_trichotomy m with sign | sign | sign <;> omega

theorem order?_ofInt (m n : ℤ) : (ofInt m).order? (ofInt n) = some (compare m n) := by
  rw [order?_eq (level?_ofInt m) (level?_ofInt n), value_ofInt, value_ofInt,
    (Int.cast_strictMono (R := ℚ)).cmp_map_eq, cmp_eq_compare, Option.some.injEq]
  rcases lt_trichotomy m n with less | rfl | greater
  · rw [compare_lt_iff_lt.2 less]
    rcases (sign_le_sign less.le).lt_or_eq with apart | same
    · rw [compare_lt_iff_lt.2 apart]
      rfl
    · rw [compare_eq_iff_eq.2 same]
      rfl
  · simp [Std.ReflCmp.compare_self]
  · rw [compare_gt_iff_gt.2 greater]
    rcases (sign_le_sign greater.le).lt_or_eq with apart | same
    · rw [compare_gt_iff_gt.2 apart]
      rfl
    · rw [compare_eq_iff_eq.2 same.symm]
      rfl

/-! Sums of numbers are numbers. -/

theorem level?_guarded {refused : Prop} [Decidable refused] {kind : Misuse} {negative : Bool}
    {digits : ℕ} {exponent : ℤ} {r : Decimal}
    (h : (if refused then kind.fail else .ok (finite negative digits exponent)) = .ok r) :
    r.level? ≠ none := by
  split at h
  · cases h
  · obtain rfl := Except.ok.inj h
    simp [level?]

theorem level?_fit {negative : Bool} {digits : ℕ} {exponent : ℤ} {r : Decimal}
    (h : fit negative digits exponent = .ok r) : r.level? ≠ none := by
  unfold fit at h
  simp only at h
  by_cases long : exponent < placeOf digits exponent
  · rw [if_pos long] at h
    exact level?_guarded h
  · rw [if_neg long] at h
    exact level?_guarded h

theorem level?_rounded {negative : Bool} {digits : ℕ} {exponent : ℤ} {r : Decimal}
    (h : rounded negative digits exponent = .ok r) : r.level? ≠ none := by
  unfold rounded at h
  split at h
  · obtain rfl := Except.ok.inj h
    simp [level?]
  · exact level?_fit h

theorem level?_add {x y r : Decimal} (hx : x.level? ≠ none) (hy : y.level? ≠ none)
    (h : x.add y = .ok r) : r.level? ≠ none := by
  cases x with
  | nan => exact absurd rfl hx
  | infinite a =>
    cases y with
    | nan => exact absurd rfl hy
    | infinite b =>
      simp only [add, missing?] at h
      split at h
      · obtain rfl := Except.ok.inj h
        exact hx
      · cases h
    | finite nb b eb =>
      obtain rfl := Except.ok.inj h
      exact hx
  | finite na a ea =>
    cases y with
    | nan => exact absurd rfl hy
    | infinite b =>
      obtain rfl := Except.ok.inj h
      exact hy
    | finite nb b eb =>
      have summed : sum na a ea nb b eb = .ok r := h
      unfold sum padded aligned at summed
      split_ifs at summed <;> exact level?_rounded summed

end Decimal

namespace Seconds

/-- What a clock shows: a number, and no decimal. -/
def IsReading (s : Seconds) : Prop := s.isDecimal = false ∧ s.toDecimal.level? ≠ none

def IsComparable (s : Seconds) : Prop := s.isDecimal → s.toDecimal.level? ≠ none

/-- A clock that shows `a` can come to show `b`: it does not go back. -/
def Reaches (a b : Seconds) : Prop :=
  b.IsReading ∧ ∃ o, a.toDecimal.order? b.toDecimal = some o ∧ o ≠ .gt

theorem lt_of_order {a b : Seconds} {o : Ordering} (h : a.toDecimal.order? b.toDecimal = some o) :
    a.lt b = .ok (o == .lt) := by
  unfold lt
  split
  · rename_i m n
    obtain rfl : compare m n = o := by
      simpa [toDecimal, Decimal.order?_ofInt] using h
    rcases lt_trichotomy m n with less | rfl | greater
    · simp [compare_lt_iff_lt.2 less, less]
    · simp
    · simp [compare_gt_iff_gt.2 greater, greater.le]
  · rw [h]

theorem lt_eq_true_iff {a b : Seconds} :
    a.lt b = .ok true ↔ a.toDecimal.order? b.toDecimal = some .lt := by
  cases known : a.toDecimal.order? b.toDecimal with
  | some o => cases o <;> simp [lt_of_order known]
  | none =>
    have apart : a.lt b ≠ .ok true := by
      unfold lt
      split
      · simp [toDecimal, Decimal.order?_ofInt] at known
      · rw [known]
        simp only
        split <;> simp [Misuse.fail]
    simp [apart]

theorem lt_of_reaches {t now later : Seconds} (past : t.lt now = .ok true)
    (on : now.Reaches later) : t.lt later = .ok true := by
  obtain ⟨-, o, known, behind⟩ := on
  rw [lt_eq_true_iff] at past ⊢
  exact Decimal.order?_lt_of_lt past known behind

theorem order?_eq_some {a b : Decimal} (ha : a.level? ≠ none) (hb : b.level? ≠ none) :
    ∃ o, a.order? b = some o := by
  obtain ⟨la, ha⟩ := Option.ne_none_iff_exists'.1 ha
  obtain ⟨lb, hb⟩ := Option.ne_none_iff_exists'.1 hb
  exact ⟨_, Decimal.order?_eq ha hb⟩

theorem reaches_self {now : Seconds} (reading : now.IsReading) : now.Reaches now := by
  obtain ⟨level, known⟩ := Option.ne_none_iff_exists'.1 reading.2
  refine ⟨reading, .eq, ?_, by simp⟩
  rw [Decimal.order?_eq known known, compare_eq_iff_eq.2 rfl, cmp_self_eq_eq]
  rfl

theorem exists_lt {t now : Seconds} (comparable : t.IsComparable) (reading : now.IsReading) :
    ∃ past, t.lt now = .ok past := by
  cases decimal : t.isDecimal with
  | true =>
    obtain ⟨o, known⟩ := order?_eq_some (comparable decimal) reading.2
    exact ⟨_, lt_of_order known⟩
  | false =>
    unfold lt
    split
    · exact ⟨_, rfl⟩
    · rw [decimal, reading.1]
      split <;> exact ⟨_, rfl⟩

theorem isComparable_of_limit {v : Value} {t : Seconds} (h : limit? v = .ok (some t)) :
    t.IsComparable := by
  intro decimal missing
  have refused (b : Bool) : t.isNegative ≠ .ok b := by
    cases t with
    | decimal d =>
      have unknown : d.order? (.ofInt 0) = none := by
        have level : d.level? = none := missing
        simp [Decimal.order?, level]
      simp [isNegative, lt, toDecimal, unknown, isDecimal, Misuse.fail]
    | _ => cases decimal
  unfold limit? at h
  split at h
  · cases h
  · obtain ⟨s, -, h⟩ := Outcome.bind_eq_ok_iff.1 h
    obtain ⟨negative, judged, h⟩ := Outcome.bind_eq_ok_iff.1 h
    split at h
    · cases Outcome.pure_eq_ok_iff.1 h
    · obtain rfl := Option.some.inj (Outcome.pure_eq_ok_iff.1 h)
      exact refused _ judged

theorem isComparable_add {stored t u : Seconds} (reading : stored.IsReading)
    (comparable : t.IsComparable) (h : stored.add t = .ok u) : u.IsComparable := by
  have plain {v : Seconds} (whole : v.isDecimal = false) : v.IsComparable := by
    intro decimal
    rw [whole] at decimal
    cases decimal
  cases stored with
  | decimal d => cases reading.1
  | whole a =>
    cases t with
    | whole b =>
      obtain rfl := Except.ok.inj h
      exact plain rfl
    | floating y =>
      obtain ⟨x, -, rfl⟩ := Outcome.map_eq_ok_iff.1 h
      exact plain rfl
    | decimal d =>
      obtain ⟨r, added, rfl⟩ := Outcome.map_eq_ok_iff.1 h
      exact fun _ => Decimal.level?_add reading.2 (comparable rfl) added
  | floating x =>
    cases t with
    | whole b =>
      obtain ⟨y, -, rfl⟩ := Outcome.map_eq_ok_iff.1 h
      exact plain rfl
    | floating y =>
      obtain rfl := Except.ok.inj h
      exact plain rfl
    | decimal d => cases h

end Seconds

end SparqlClient
