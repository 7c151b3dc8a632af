import Mathlib.Data.List.Infix
import SparqlClient.Proofs.Rdf.Written

/-! What the characters of a document stand for. Escapes are read once, from left to right. Main
statement: a text in ASCII stands for the same characters as the text that it was made from, unless
there is a backslash in that text which begins no escape before a character beyond ASCII. -/

namespace SparqlClient.Rdf

open Text

def escaped? : List Char → Option (Char × List Char)
  | '\\' :: 'u' :: a :: b :: c :: d :: s => (codePoint? [a, b, c, d]).map (·, s)
  | '\\' :: 'U' :: a :: b :: c :: d :: e :: f :: g :: h :: s =>
    (codePoint? [a, b, c, d, e, f, g, h]).map (·, s)
  | '\\' :: e :: s => (NTriples.escape? e).map (·, s)
  | _ => none

theorem escaped?_eq_some_iff {s rest : List Char} {x : Char} :
    escaped? s = some (x, rest) ↔ ∃ w, IsEscape x w ∧ s = w ++ rest := by
  constructor
  · intro here
    unfold escaped? at here
    split at here
    · obtain ⟨y, code, same⟩ := Option.map_eq_some_iff.1 here
      obtain ⟨rfl, rfl⟩ := Prod.mk.inj same
      exact ⟨_, .numbered (.short code), rfl⟩
    · obtain ⟨y, code, same⟩ := Option.map_eq_some_iff.1 here
      obtain ⟨rfl, rfl⟩ := Prod.mk.inj same
      exact ⟨_, .numbered (.long code), rfl⟩
    · obtain ⟨y, known, same⟩ := Option.map_eq_some_iff.1 here
      obtain ⟨rfl, rfl⟩ := Prod.mk.inj same
      exact ⟨_, .named known, rfl⟩
    · cases here
  · rintro ⟨w, ⟨known⟩ | ⟨code | code⟩, rfl⟩
    · rename_i e
      change escaped? ('\\' :: e :: rest) = _
      rw [escaped?, known]
      · rfl
      · rintro a b c d t rfl rfl
        simp [NTriples.escape?] at known
      · rintro a b c d e f g h t rfl rfl
        simp [NTriples.escape?] at known
    · rename_i a b c d
      change (codePoint? [a, b, c, d]).map (·, rest) = _
      rw [code]
      rfl
    · rename_i a b c d e f g h
      change (codePoint? [a, b, c, d, e, f, g, h]).map (·, rest) = _
      rw [code]
      rfl

/-! The characters of an escape. -/

theorem isAscii_of_hexDigit? {c : Char} {n : ℕ} (h : hexDigit? c = some n) : c.toNat ≤ 0x7F := by
  unfold hexDigit? at h
  split at h
  · rename_i digit
    exact isAscii_of_isAlphanum (by simp [Char.isAlphanum, digit])
  · simp only at h
    split at h
    · rename_i letter
      simp only [Bool.and_eq_true, decide_eq_true_eq] at letter
      by_cases upper : c.isUpper
      · have alpha : c.isAlpha := Bool.or_eq_true_iff.2 (.inl upper)
        exact isAscii_of_isAlphanum (by simp [Char.isAlphanum, alpha])
      · have same : c.toLower = c := dif_neg fun inside => upper (decide_eq_true inside)
        rw [same] at letter
        have bound : c.toNat ≤ 'f'.toNat := letter.2
        exact bound.trans (by decide)
    · cases h

theorem exists_digit_of_hexNumber? {ds : List Char} {n : ℕ} (h : hexNumber? ds = some n) :
    ∀ c ∈ ds, ∃ m, hexDigit? c = some m := by
  induction ds using List.reverseRecOn generalizing n with
  | nil => exact fun c member => nomatch member
  | append_singleton ds d ih =>
    rw [hexNumber?, List.foldl_append] at h
    obtain ⟨m, front, h⟩ := Option.bind_eq_some_iff.1 h
    obtain ⟨k, digit, -⟩ := Option.map_eq_some_iff.1 h
    rw [List.forall_mem_append]
    exact ⟨ih front, fun c member => List.mem_singleton.1 member ▸ ⟨k, digit⟩⟩

theorem digits_of_codePoint? {ds : List Char} {x : Char} (h : codePoint? ds = some x) :
    ∀ c ∈ ds, c.toNat ≤ 0x7F ∧ c ≠ '\\' := by
  obtain ⟨n, number, -⟩ := Option.bind_eq_some_iff.1 h
  intro c member
  obtain ⟨m, digit⟩ := exists_digit_of_hexNumber? number c member
  refine ⟨isAscii_of_hexDigit? digit, ?_⟩
  rintro rfl
  cases digit

theorem IsNumbered.shape {x : Char} {w : List Char} (h : IsNumbered x w) : ∃ m ds,
    w = '\\' :: m :: ds ∧ (m = 'u' ∨ m = 'U') ∧ ∀ c ∈ ds, c.toNat ≤ 0x7F ∧ c ≠ '\\' := by
  cases h with
  | short code => exact ⟨_, _, rfl, .inl rfl, digits_of_codePoint? code⟩
  | long code => exact ⟨_, _, rfl, .inr rfl, digits_of_codePoint? code⟩

theorem isAscii_of_mark {m : Char} (h : m = 'u' ∨ m = 'U') : m.toNat ≤ 0x7F := by
  rcases h with rfl | rfl <;> decide

theorem IsEscape.shape {x : Char} {w : List Char} (h : IsEscape x w) : ∃ m ds,
    w = '\\' :: m :: ds ∧ m.toNat ≤ 0x7F ∧ ∀ c ∈ ds, c.toNat ≤ 0x7F ∧ c ≠ '\\' := by
  cases h with
  | @named e known =>
    refine ⟨e, [], rfl, ?_, by simp⟩
    unfold NTriples.escape? at known
    split at known <;> first | decide | cases known
  | numbered code =>
    obtain ⟨m, ds, own, mark, digits⟩ := code.shape
    exact ⟨m, ds, own, isAscii_of_mark mark, digits⟩

theorem escaped?_of_ne {c : Char} (s : List Char) (h : c ≠ '\\') : escaped? (c :: s) = none := by
  refine Option.eq_none_iff_forall_ne_some.2 ?_
  rintro ⟨x, r⟩ own
  obtain ⟨w, escape, whole⟩ := escaped?_eq_some_iff.1 own
  obtain ⟨m, ds, rfl, -⟩ := escape.shape
  exact h (List.cons.inj whole).1

theorem escaped?_stray {c : Char} (s : List Char) (beyond : ¬c.toNat ≤ 0x7F) :
    escaped? ('\\' :: c :: s) = none := by
  refine Option.eq_none_iff_forall_ne_some.2 ?_
  rintro ⟨x, r⟩ own
  obtain ⟨w, escape, whole⟩ := escaped?_eq_some_iff.1 own
  obtain ⟨m, ds, rfl, mark, -⟩ := escape.shape
  obtain rfl : c = m := (List.cons.inj (List.cons.inj whole).2).1
  exact beyond mark

theorem isAscii_spell (c : Char) : ∀ x ∈ spell .lines c, x.toNat ≤ 0x7F := by
  by_cases small : c.toNat ≤ 0x7F
  · rw [spell_ascii .lines small]
    simpa using small
  · obtain ⟨m, ds, own, mark, digits⟩ := (isNumbered_spell small).shape
    rw [own]
    simp only [List.forall_mem_cons]
    exact ⟨by decide, isAscii_of_mark mark, fun x member => (digits x member).1⟩

def IsAscii (text : String) : Prop := ∀ c ∈ text.toList, c.toNat ≤ 0x7F

theorem isAscii_escapeUnicode (text : String) : IsAscii (escapeUnicode text) := by
  intro x member
  obtain ⟨c, -, inside⟩ := List.mem_flatMap.1 (toList_escapeUnicode text ▸ member)
  exact isAscii_spell c x inside

theorem escapeUnicode_of_isAscii {text : String} (ascii : IsAscii text) :
    escapeUnicode text = text := by
  rw [← String.toList_inj, toList_escapeUnicode, spelled_ascii .lines ascii]

theorem escapeUnicode_append (a b : String) :
    escapeUnicode (a ++ b) = escapeUnicode a ++ escapeUnicode b := by
  rw [← String.toList_inj, String.toList_append, toList_escapeUnicode, spelled_append,
    toList_escapeUnicode, toList_escapeUnicode]

/-! The characters of a text in ASCII. -/

def respell (s : List Char) : List Char := s.flatMap (spell .lines)

theorem toList_escapeUnicode_eq (text : String) :
    (escapeUnicode text).toList = respell text.toList :=
  toList_escapeUnicode text

@[simp] theorem respell_append (a b : List Char) : respell (a ++ b) = respell a ++ respell b :=
  List.flatMap_append

theorem respell_of_ascii {w : List Char} (ascii : ∀ c ∈ w, c.toNat ≤ 0x7F) : respell w = w :=
  flatMap_spell fun c member => spell_ascii .lines (ascii c member)

theorem respell_cons {c : Char} (ascii : c.toNat ≤ 0x7F) (s : List Char) :
    respell (c :: s) = c :: respell s := by
  rw [respell, List.flatMap_cons, spell_ascii .lines ascii]
  rfl

theorem exists_respell_cons {c : Char} (beyond : ¬c.toNat ≤ 0x7F) (s : List Char) :
    ∃ t, respell (c :: s) = '\\' :: t := by
  obtain ⟨m, ds, shape, -⟩ := (isNumbered_spell beyond).shape
  refine ⟨m :: ds ++ respell s, ?_⟩
  rw [respell, List.flatMap_cons, shape]
  rfl

theorem exists_of_respell {w r s : List Char} (h : respell s = w ++ r)
    (plain : '\\' ∉ w) : ∃ rest, s = w ++ rest := by
  induction w generalizing s with
  | nil => exact ⟨s, rfl⟩
  | cons x w ih =>
    rw [List.mem_cons, not_or] at plain
    cases s with
    | nil => cases h
    | cons c s =>
      by_cases small : c.toNat ≤ 0x7F
      · rw [respell_cons small] at h
        obtain ⟨rfl, later⟩ := List.cons.inj h
        obtain ⟨rest, rfl⟩ := ih later plain.2
        exact ⟨rest, rfl⟩
      · obtain ⟨t, text⟩ := exists_respell_cons small s
        rw [text] at h
        exact absurd (List.cons.inj h).1 plain.1

theorem respell_escape {x : Char} {w : List Char} (escape : IsEscape x w) (s : List Char) :
    respell (w ++ s) = w ++ respell s := by
  obtain ⟨m, ds, rfl, mark, digits⟩ := escape.shape
  rw [respell_append, respell_of_ascii]
  refine List.forall_mem_cons.2 ⟨by decide, List.forall_mem_cons.2 ⟨mark, fun c member => ?_⟩⟩
  exact (digits c member).1

/-! Reading from left to right. -/

theorem length_escaped? {s rest : List Char} {x : Char} (h : escaped? s = some (x, rest)) :
    rest.length < s.length := by
  obtain ⟨w, escape, rfl⟩ := escaped?_eq_some_iff.1 h
  obtain ⟨m, ds, rfl, -⟩ := escape.shape
  simp only [List.cons_append, List.length_cons, List.length_append]
  omega

/-- The characters that a text stands for. What is no escape stands for itself. -/
def decoded (s : List Char) : List Char :=
  match _h : escaped? s with
  | some (x, rest) => x :: decoded rest
  | none =>
    match s with
    | [] => []
    | c :: s => c :: decoded s
termination_by s.length
decreasing_by
  · exact length_escaped? _h
  · exact Nat.lt_succ_self _

theorem decoded_nil : decoded [] = [] := by
  rw [decoded]
  rfl

theorem decoded_of_escaped? {s rest : List Char} {x : Char} (h : escaped? s = some (x, rest)) :
    decoded s = x :: decoded rest := by
  rw [decoded]
  split
  · rename_i own
    rw [h] at own
    obtain ⟨rfl, rfl⟩ := Prod.mk.inj (Option.some.inj own)
    rfl
  · rename_i own
    rw [h] at own
    cases own

theorem decoded_cons {c : Char} {s : List Char} (h : escaped? (c :: s) = none) :
    decoded (c :: s) = c :: decoded s := by
  rw [decoded]
  split
  · rename_i own
    rw [h] at own
    cases own
  · rfl

/-- Somewhere a backslash that begins no escape stands in front of a character beyond ASCII. In a
document this is found in comments alone. -/
inductive HasStray : List Char → Prop
  | here {c : Char} (s : List Char) (beyond : ¬c.toNat ≤ 0x7F) : HasStray ('\\' :: c :: s)
  | behind {s rest : List Char} {x : Char} (escape : escaped? s = some (x, rest))
    (later : HasStray rest) : HasStray s
  | next {c : Char} {s : List Char} (plain : escaped? (c :: s) = none) (later : HasStray s) :
    HasStray (c :: s)

theorem decoded_respell_of_escaped? {s rest : List Char} {x : Char}
    (h : escaped? s = some (x, rest)) :
    decoded (respell s) = x :: decoded (respell rest) := by
  obtain ⟨w, escape, rfl⟩ := escaped?_eq_some_iff.1 h
  rw [respell_escape escape]
  exact decoded_of_escaped? (escaped?_eq_some_iff.2 ⟨w, escape, rfl⟩)

theorem decoded_respell_cons {c : Char} {s : List Char} (h : escaped? (c :: s) = none)
    (held : c = '\\' → ∀ e ∈ s.head?, e.toNat ≤ 0x7F) :
    decoded (respell (c :: s)) = c :: decoded (respell s) := by
  by_cases small : c.toNat ≤ 0x7F
  · rw [respell_cons small]
    refine decoded_cons (Option.eq_none_iff_forall_ne_some.2 ?_)
    rintro ⟨x, r⟩ own
    obtain ⟨w, escape, whole⟩ := escaped?_eq_some_iff.1 own
    obtain ⟨m, ds, rfl, -, digits⟩ := escape.shape
    obtain ⟨rfl, later⟩ := List.cons.inj whole
    cases s with
    | nil => cases later
    | cons e s =>
      rw [respell_cons (held rfl e rfl)] at later
      obtain ⟨rfl, behind⟩ := List.cons.inj later
      obtain ⟨rest, rfl⟩ := exists_of_respell behind fun member => (digits _ member).2 rfl
      have here : escaped? ('\\' :: e :: (ds ++ rest)) = some (x, rest) :=
        escaped?_eq_some_iff.2 ⟨_, escape, rfl⟩
      rw [here] at h
      cases h
  · exact decoded_of_escaped? (escaped?_eq_some_iff.2 ⟨_, .numbered (isNumbered_spell small), rfl⟩)

theorem decoded_respell_stray {c : Char} (s : List Char) (beyond : ¬c.toNat ≤ 0x7F) :
    decoded (respell ('\\' :: c :: s)) ≠ decoded ('\\' :: c :: s) := by
  have other {x : Char} (ascii : x.toNat ≤ 0x7F) : c ≠ x := by
    rintro rfl
    exact beyond ascii
  obtain ⟨m, ds, own, mark, -⟩ := (isNumbered_spell beyond).shape
  have unmarked : m ≠ '\\' := by rcases mark with rfl | rfl <;> decide
  have text : respell ('\\' :: c :: s) = ['\\', '\\'] ++ (m :: (ds ++ respell s)) := by
    rw [respell_cons (by decide), respell, List.flatMap_cons, own]
    rfl
  have taken : escaped? (['\\', '\\'] ++ (m :: (ds ++ respell s))) =
      some ('\\', m :: (ds ++ respell s)) :=
    escaped?_eq_some_iff.2 ⟨_, .named rfl, rfl⟩
  rw [text, decoded_of_escaped? taken, decoded_cons (escaped?_of_ne _ unmarked),
    decoded_cons (escaped?_stray s beyond), decoded_cons (escaped?_of_ne s (other (by decide)))]
  intro same
  exact other (isAscii_of_mark mark) (List.cons.inj (List.cons.inj same).2).1.symm

theorem hasStray_of_escaped? {s rest : List Char} {x : Char} (h : escaped? s = some (x, rest)) :
    HasStray s ↔ HasStray rest := by
  refine ⟨fun stray => ?_, .behind h⟩
  cases stray with
  | here t beyond =>
    rw [escaped?_stray t beyond] at h
    cases h
  | behind escape later =>
    rw [h] at escape
    obtain ⟨-, rfl⟩ := Prod.mk.inj (Option.some.inj escape)
    exact later
  | next plain later =>
    rw [h] at plain
    cases plain

theorem decoded_respell_iff (s : List Char) :
    decoded (respell s) = decoded s ↔ ¬HasStray s := by
  induction s using decoded.induct with
  | case1 s x rest here ih =>
    rw [decoded_respell_of_escaped? here, decoded_of_escaped? here, List.cons_inj_right, ih,
      hasStray_of_escaped? here]
  | case2 none =>
    refine iff_of_true rfl fun stray => ?_
    cases stray with
    | behind escape later => cases escape
  | case3 c s plain ih =>
    by_cases held : c = '\\' → ∀ e ∈ s.head?, e.toNat ≤ 0x7F
    · rw [decoded_respell_cons plain held, decoded_cons plain, List.cons_inj_right, ih, not_iff_not]
      refine ⟨.next plain, fun stray => ?_⟩
      cases stray with
      | here t beyond => exact absurd (held rfl _ rfl) beyond
      | behind escape later =>
        rw [plain] at escape
        cases escape
      | next _ later => exact later
    · -- the only place where the text in ASCII is read otherwise
      push Not at held
      obtain ⟨rfl, e, first, beyond⟩ := held
      obtain ⟨t, rfl⟩ := List.head?_eq_some_iff.1 first
      have far : ¬e.toNat ≤ 0x7F := Nat.not_le.2 beyond
      exact iff_of_false (decoded_respell_stray t far) (not_not.2 (.here t far))

theorem decoded_of_stringBody? {s t rest : List Char} (h : stringBody? s = some (t, rest)) :
    ∃ body, s = body ++ '"' :: rest ∧ decoded body = t := by
  replace h := isStringBody_of_stringBody? h
  induction h with
  | close => exact ⟨[], rfl, decoded_nil⟩
  | @escape x w s t form later ih =>
    obtain ⟨body, rfl, rfl⟩ := ih
    exact ⟨w ++ body, by simp, decoded_of_escaped? (escaped?_eq_some_iff.2 ⟨w, form, rfl⟩)⟩
  | @plain c s t _ backslash _ _ later ih =>
    obtain ⟨body, rfl, rfl⟩ := ih
    exact ⟨c :: body, rfl, decoded_cons (escaped?_of_ne body backslash)⟩

end SparqlClient.Rdf
