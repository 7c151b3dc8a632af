import Mathlib.Data.List.TakeWhile
import SparqlClient.Proofs.Rdf.Decoded
import SparqlClient.Proofs.Rdf.Lines

/-! Documents in ASCII. Every reader of the grammar goes as far in the text in ASCII as in the text
that it was made from, and reads the same. Main statement: the statements of a document whose labels
are in ASCII are those of its text in ASCII. -/

namespace SparqlClient.Rdf

open Text

theorem runs_respell {p : Char → Bool} (mark : p '\\' = false) {s : List Char}
    (ascii : ∀ c ∈ s.takeWhile p, c.toNat ≤ 0x7F) :
    (respell s).takeWhile p = s.takeWhile p ∧
      (respell s).dropWhile p = respell (s.dropWhile p) := by
  induction s with
  | nil => exact ⟨rfl, rfl⟩
  | cons c s ih =>
    cases own : p c with
    | true =>
      rw [List.takeWhile_cons_of_pos own, List.forall_mem_cons] at ascii
      have later := ih ascii.2
      rw [respell_cons ascii.1, List.takeWhile_cons_of_pos own, List.takeWhile_cons_of_pos own,
        List.dropWhile_cons_of_pos own, List.dropWhile_cons_of_pos own]
      exact ⟨congrArg _ later.1, later.2⟩
    | false =>
      have other : ¬p c = true := by simp [own]
      rw [List.takeWhile_cons_of_neg other, List.dropWhile_cons_of_neg other]
      obtain ⟨d, t, text, stop⟩ : ∃ d t, respell (c :: s) = d :: t ∧ ¬p d = true := by
        by_cases small : c.toNat ≤ 0x7F
        · exact ⟨c, _, respell_cons small s, other⟩
        · obtain ⟨t, text⟩ := exists_respell_cons small s
          exact ⟨'\\', t, text, by simp [mark]⟩
      rw [text, List.takeWhile_cons_of_neg stop, List.dropWhile_cons_of_neg stop]
      exact ⟨rfl, rfl⟩

theorem length_le_respell (s : List Char) : s.length ≤ (respell s).length := by
  induction s with
  | nil => exact Nat.le_refl 0
  | cons c s ih =>
    have filled : 1 ≤ (spell .lines c).length := by
      by_cases small : c.toNat ≤ 0x7F
      · simp [spell_ascii .lines small]
      · obtain ⟨m, ds, shape, -⟩ := (isNumbered_spell small).shape
        simp [shape]
    have parts : (respell (c :: s)).length = (spell .lines c).length + (respell s).length := by
      rw [respell, List.flatMap_cons, List.length_append]
      rfl
    rw [parts, List.length_cons]
    omega

/-! The readers of the grammar. -/

theorem iriBody?_respell_numbered {x : Char} {w : List Char} (code : IsNumbered x w)
    (s : List Char) : iriBody? (respell (w ++ s)) = behind x (iriBody? (respell s)) := by
  rw [respell_escape (.numbered code), iriBody?_numbered code]

theorem iriBody?_respell {s t r : List Char} (h : iriBody? s = some (t, r)) :
    iriBody? (respell s) = some (t, respell r) := by
  fun_induction iriBody? s generalizing t with
  | case1 s =>
    obtain ⟨rfl, rfl⟩ := Prod.mk.inj (Option.some.inj h)
    rw [respell_cons (by decide)]
    rfl
  | case2 a b c d s ih =>
    obtain ⟨x, code, read⟩ := Option.bind_eq_some_iff.1 h
    obtain ⟨u, rfl, inner⟩ := behind_eq_some_iff.1 read
    exact (iriBody?_respell_numbered (.short code) s).trans
      (behind_eq_some_iff.2 ⟨u, rfl, ih inner⟩)
  | case3 a b c d e f g i s ih =>
    obtain ⟨x, code, read⟩ := Option.bind_eq_some_iff.1 h
    obtain ⟨u, rfl, inner⟩ := behind_eq_some_iff.1 read
    exact (iriBody?_respell_numbered (.long code) s).trans
      (behind_eq_some_iff.2 ⟨u, rfl, ih inner⟩)
  | case4 c s _ _ _ own ih =>
    obtain ⟨u, rfl, inner⟩ := behind_eq_some_iff.1 h
    exact (iriBody?_spell .lines own (respell s)).trans
      (behind_eq_some_iff.2 ⟨u, rfl, ih inner⟩)
  | case5 => cases h
  | case6 => cases h

theorem stringBody?_respell {s t r : List Char} (h : stringBody? s = some (t, r)) :
    stringBody? (respell s) = some (t, respell r) := by
  refine IsStringBody.read ?_
  replace h := isStringBody_of_stringBody? h
  induction h with
  | close =>
    rw [respell_cons (by decide)]
    exact .close
  | escape form later ih =>
    rw [respell_escape form]
    exact .escape form ih
  | @plain c s t quote backslash newline carriage later ih =>
    by_cases small : c.toNat ≤ 0x7F
    · rw [respell_cons small]
      exact .plain quote backslash newline carriage ih
    · exact .escape (.numbered (isNumbered_spell small)) ih

theorem label?_respell {s r : List Char} {l : String} (h : label? .lines s = some (.blank l, r))
    (ascii : IsAscii l) : label? .lines (respell s) = some (.blank l, respell r) := by
  cases s with
  | nil => cases h
  | cons c s =>
    rw [label?] at h
    split at h
    · rename_i start
      obtain ⟨own, rfl⟩ := Prod.mk.inj (Option.some.inj h)
      obtain rfl := Node.blank.inj own
      have dots := dropEndWhile_append (· == '.') (s.takeWhile (isLabelPart .lines))
      have front : s.takeWhile (isLabelPart .lines) <+: s := List.takeWhile_prefix _
      generalize body_eq : dropEndWhile (· == '.') (s.takeWhile (isLabelPart .lines)) = body at *
      rw [IsAscii, String.toList_ofList, List.forall_mem_cons] at ascii
      -- the run is the label and the dots behind it, which the label leaves
      have run : ∀ x ∈ s.takeWhile (isLabelPart .lines), x.toNat ≤ 0x7F := by
        rw [← dots, List.forall_mem_append]
        refine ⟨ascii.2, fun x member => ?_⟩
        obtain rfl : x = '.' := by simpa using List.mem_takeWhile_imp (List.mem_reverse.1 member)
        decide
      obtain ⟨rest, rfl⟩ : ∃ rest, s = body ++ rest := by
        obtain ⟨t, whole⟩ := front
        rw [← dots, List.append_assoc] at whole
        exact ⟨_, whole.symm⟩
      have same := (runs_respell (p := isLabelPart .lines) (by decide) run).1
      rw [respell_cons ascii.1, label?, if_pos start, same, body_eq, List.drop_left, respell_append,
        respell_of_ascii ascii.2]
      change some (_, (body ++ respell rest).drop body.length) = _
      rw [List.drop_left]
    · cases h

theorem languageParts_of_ne {s : List Char} (fuel : Nat) (other : ∀ t, s ≠ '-' :: t) :
    NTriples.languageParts fuel s = ([], s) := by
  cases fuel with
  | zero => rfl
  | succ fuel =>
    rw [NTriples.languageParts]
    exact other

theorem languageParts_respell {s : List Char} {fuel fuel' : Nat} (enough : s.length ≤ fuel)
    (enough' : s.length ≤ fuel') : NTriples.languageParts fuel' (respell s) =
      ((NTriples.languageParts fuel s).1, respell (NTriples.languageParts fuel s).2) := by
  induction fuel generalizing s fuel' with
  | zero =>
    obtain rfl := List.length_eq_zero_iff.1 (Nat.le_zero.1 enough)
    exact languageParts_of_ne fuel' (by simp [respell])
  | succ fuel ih =>
    by_cases hyphen : ∃ t, s = '-' :: t
    · obtain ⟨t, rfl⟩ := hyphen
      cases fuel' with
      | zero => cases enough'
      | succ fuel' =>
        have runs := runs_respell (p := Char.isAlphanum) (s := t) (by decide) fun c member =>
          isAscii_of_isAlphanum (List.mem_takeWhile_imp member)
        rw [respell_cons (by decide), NTriples.languageParts, NTriples.languageParts]
        have rest : (respell t).drop (t.takeWhile Char.isAlphanum).length =
            respell (t.dropWhile Char.isAlphanum) := by
          rw [← runs.1, drop_takeWhile, runs.2]
        have shorter : (t.dropWhile Char.isAlphanum).length ≤ t.length :=
          (List.dropWhile_suffix _).length_le
        simp only [runs.1, rest, drop_takeWhile]
        split
        · rw [respell_cons (by decide)]
        · rw [ih (shorter.trans (Nat.le_of_succ_le_succ enough))
            (shorter.trans (Nat.le_of_succ_le_succ enough'))]
    · have other : ∀ t, s ≠ '-' :: t := fun t own => hyphen ⟨t, own⟩
      have other' : ∀ t, respell s ≠ '-' :: t := by
        intro t own
        obtain ⟨rest, rfl⟩ := exists_of_respell (w := ['-']) own (by decide)
        exact other rest rfl
      rw [languageParts_of_ne _ other, languageParts_of_ne _ other']

theorem annotation?_respell {s r : List Char} {a : Option String × Option String}
    (h : annotation? s = some (a, r)) : annotation? (respell s) = some (a, respell r) := by
  unfold annotation? at h
  split at h
  · rename_i s
    have runs := runs_respell (p := Char.isAlpha) (s := s) (by decide) fun c member =>
      isAscii_of_isAlphanum (by simp [Char.isAlphanum, List.mem_takeWhile_imp member])
    have rest : (respell s).drop (s.takeWhile Char.isAlpha).length =
        respell (s.dropWhile Char.isAlpha) := by
      rw [← runs.1, drop_takeWhile, runs.2]
    have shorter : (s.dropWhile Char.isAlpha).length ≤ s.length :=
      (List.dropWhile_suffix _).length_le
    have parts := languageParts_respell shorter (shorter.trans (length_le_respell s))
    rw [respell_cons (by decide), annotation?]
    simp only [runs.1, rest, parts, drop_takeWhile] at h ⊢
    split at h
    · cases h
    · rename_i filled
      obtain ⟨rfl, rfl⟩ := Prod.mk.inj (Option.some.inj h)
      rw [if_neg filled]
  · rename_i s
    obtain ⟨⟨t, u⟩, read, same⟩ := Option.map_eq_some_iff.1 h
    obtain ⟨rfl, rfl⟩ := Prod.mk.inj same
    rw [respell_cons (by decide), respell_cons (by decide), respell_cons (by decide), annotation?,
      iriBody?_respell read]
    rfl
  · rename_i tag reference
    obtain ⟨rfl, rfl⟩ := Prod.mk.inj (Option.some.inj h)
    unfold annotation?
    split
    · rename_i t own
      obtain ⟨rest, rfl⟩ := exists_of_respell (w := ['@']) own (by decide)
      exact absurd rfl (tag rest)
    · rename_i t own
      obtain ⟨rest, rfl⟩ := exists_of_respell (w := ['^', '^', '<']) own (by decide)
      exact absurd rfl (reference rest)
    · rfl

/-! Statements and documents. -/

/-- The labels of the nodes are in ASCII. -/
def IsLabeled (n : Node) : Prop := ∀ l, n = .blank l → IsAscii l

theorem iri?_respell {s r : List Char} {n : Node} (h : iri? s = some (n, r)) :
    iri? (respell s) = some (n, respell r) := by
  unfold iri? at h
  split at h
  · rename_i s
    obtain ⟨⟨t, u⟩, read, same⟩ := Option.map_eq_some_iff.1 h
    obtain ⟨rfl, rfl⟩ := Prod.mk.inj same
    rw [respell_cons (by decide), iri?, iriBody?_respell read]
    rfl
  · cases h

theorem resource?_respell {s r : List Char} {n : Node} (h : resource? .lines s = some (n, r))
    (labeled : IsLabeled n) : resource? .lines (respell s) = some (n, respell r) := by
  unfold resource? at h
  split at h
  · rename_i s
    obtain ⟨l, rfl⟩ : ∃ l, n = .blank l := by
      unfold label? at h
      split at h
      · split at h
        · exact ⟨_, (Prod.mk.inj (Option.some.inj h)).1.symm⟩
        · cases h
      · cases h
    rw [respell_cons (by decide), respell_cons (by decide), resource?]
    exact label?_respell h (labeled l rfl)
  · have read := iri?_respell h
    unfold resource?
    split
    · rename_i own
      rw [own] at read
      cases read
    · exact read

theorem literal?_respell {s r : List Char} {n : Node} (h : literal? s = some (n, r)) :
    literal? (respell s) = some (n, respell r) := by
  obtain ⟨⟨t, u⟩, body, h⟩ := Option.bind_eq_some_iff.1 h
  obtain ⟨⟨⟨lang, datatype⟩, v⟩, said, h⟩ := Option.bind_eq_some_iff.1 h
  obtain ⟨rfl, rfl⟩ := Prod.mk.inj (Option.some.inj h)
  simp [literal?, stringBody?_respell body, annotation?_respell said]

theorem object?_respell {s r : List Char} {n : Node} (h : object? .lines s = some (n, r))
    (labeled : IsLabeled n) : object? .lines (respell s) = some (n, respell r) := by
  unfold object? at h
  split at h
  · rw [respell_cons (by decide), object?]
    exact literal?_respell h
  · rename_i s unquoted
    have read := resource?_respell (by simpa using h) labeled
    refine object?_of_resource? (fun quote => ?_) read
    obtain ⟨t, own⟩ := List.head?_eq_some_iff.1 quote
    obtain ⟨rest, rfl⟩ := exists_of_respell (w := ['"']) own (by decide)
    exact unquoted rest rfl

theorem skip_respell (s : List Char) : skip .lines (respell s) = respell (skip .lines s) := by
  refine (runs_respell (by decide) fun c member => ?_).2
  have gap : c = ' ' ∨ c = '\t' := by simpa [isGap] using List.mem_takeWhile_imp member
  rcases gap with rfl | rfl <;> decide

theorem triple?_respell {s r : List Char} {t : Triple} (h : triple? .lines s = some (t, r))
    (labeled : IsLabeled t.1 ∧ IsLabeled t.2.2) :
    triple? .lines (respell s) = some (t, respell r) := by
  obtain ⟨⟨subject, u⟩, first, h⟩ := Option.bind_eq_some_iff.1 h
  obtain ⟨⟨predicate, v⟩, second, h⟩ := Option.bind_eq_some_iff.1 h
  obtain ⟨⟨object, w⟩, third, h⟩ := Option.bind_eq_some_iff.1 h
  simp only at h
  split at h
  · rename_i rest stop
    obtain ⟨rfl, rfl⟩ := Prod.mk.inj (Option.some.inj h)
    have behind : skip .lines (respell w) = '.' :: respell rest := by
      rw [skip_respell, stop, respell_cons (by decide)]
    have third' := object?_respell third labeled.2
    have second' := iri?_respell second
    rw [← skip_respell] at second' third'
    simp [triple?, resource?_respell first labeled.1, second', third', behind]
  · cases h

theorem isOver_respell (s : List Char) : isOver (respell s) = isOver s := by
  unfold isOver
  rw [skip_respell]
  cases skip .lines s with
  | nil => rfl
  | cons c t =>
    by_cases small : c.toNat ≤ 0x7F
    · rw [respell_cons small]
    · obtain ⟨u, text⟩ := exists_respell_cons small t
      have other : c ≠ '#' := by
        rintro rfl
        exact small (by decide)
      simp [text, other]

theorem statement?_respell {line : List Char} {t : Triple} (h : statement? line = some t)
    (labeled : IsLabeled t.1 ∧ IsLabeled t.2.2) : statement? (respell line) = some t := by
  obtain ⟨⟨own, rest⟩, read, h⟩ := Option.bind_eq_some_iff.1 h
  simp only at h
  split at h
  · rename_i finished
    obtain rfl := Option.some.inj h
    rw [statement?, skip_respell, triple?_respell read labeled, Option.bind_some]
    simp only [isOver_respell, finished, if_true]
  · cases h

theorem piecesBy_respell (s : List Char) :
    piecesBy isLineEnd (respell s) = (piecesBy isLineEnd s).map respell := by
  have unbroken {w : List Char} (whole : IsUnbroken w) (t x : List Char) (xs : List (List Char))
      (pieces : piecesBy isLineEnd t = x :: xs) : piecesBy isLineEnd (w ++ t) = (w ++ x) :: xs := by
    induction w with
    | nil => exact pieces
    | cons c w ih =>
      rw [IsUnbroken, List.forall_mem_cons] at whole
      rw [List.cons_append, piecesBy, ih whole.2]
      simp [whole.1]
  induction s with
  | nil => rfl
  | cons c s ih =>
    cases ended : isLineEnd c with
    | true =>
      have small : c.toNat ≤ 0x7F := by
        simp only [isLineEnd, Bool.or_eq_true, decide_eq_true_eq] at ended
        rcases ended with rfl | rfl <;> decide
      rw [respell_cons small, piecesBy, piecesBy, if_pos ended, if_pos ended, ih]
      rfl
    | false =>
      obtain ⟨x, xs, pieces⟩ := List.exists_cons_of_ne_nil (piecesBy_ne_nil isLineEnd s)
      have text : respell (c :: s) = spell .lines c ++ respell s := rfl
      rw [pieces, List.map_cons] at ih
      rw [text, unbroken (isUnbroken_spell .lines ended) _ _ _ ih, piecesBy, pieces]
      simp [ended, respell]

theorem document?_respell {text : String} {ts : List Triple} (h : document? text = some ts)
    (labeled : ∀ t ∈ ts, IsLabeled t.1 ∧ IsLabeled t.2.2) :
    document? (escapeUnicode text) = some ts := by
  have same : (fun line => !isOver line) ∘ respell = fun line => !isOver line := by
    funext line
    simp [isOver_respell]
  unfold document? at h ⊢
  rw [toList_escapeUnicode_eq, piecesBy_respell, List.filter_map, same]
  generalize (piecesBy isLineEnd text.toList).filter (!isOver ·) = lines at h
  induction lines generalizing ts with
  | nil => exact h
  | cons line lines ih =>
    rw [List.mapM_cons] at h
    obtain ⟨t, first, h⟩ := Option.bind_eq_some_iff.1 h
    obtain ⟨rest, others, h⟩ := Option.bind_eq_some_iff.1 h
    obtain rfl := Option.some.inj h
    rw [List.forall_mem_cons] at labeled
    rw [List.map_cons, List.mapM_cons, statement?_respell first labeled.1, ih labeled.2 others]
    rfl

end SparqlClient.Rdf
