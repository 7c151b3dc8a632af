import SparqlClient.Proofs.Query.Piece

/-! How a block is put together from what its conditions contribute. Joining, leaving out repeated
patterns, folding tests and cutting blanks off the front all keep every value with its owner. -/

namespace SparqlClient

open Text

/-- Several fragments, and the owners of all their values. -/
inductive FromAll (p : Prefixes) : List Owner → List Fragment → Prop
  | nil : FromAll p [] []
  | cons {a b : List Owner} {f : Fragment} {fs : List Fragment} (first : From p a f)
      (rest : FromAll p b fs) : FromAll p (a ++ b) (f :: fs)

namespace FromAll

variable {p : Prefixes} {os a b : List Owner} {fs gs : List Fragment}

theorem singleton {f : Fragment} (h : From p os f) : FromAll p os [f] := by
  rw [← List.append_nil os]
  exact .cons h .nil

theorem append (hf : FromAll p a fs) (hg : FromAll p b gs) : FromAll p (a ++ b) (fs ++ gs) := by
  induction hf with
  | nil => exact hg
  | cons first _ ih =>
    rw [List.append_assoc]
    exact .cons first ih

theorem plain (h : ∀ f ∈ fs, From p [] f) : FromAll p [] fs := by
  induction fs with
  | nil => exact .nil
  | cons f fs ih =>
    rw [List.forall_mem_cons] at h
    exact .cons h.1 (ih h.2)

theorem fits (h : FromAll p os fs) : ∀ f ∈ fs, f.Fits := by
  induction h with
  | nil => simp
  | cons first _ ih => exact List.forall_mem_cons.2 ⟨first.fits, ih⟩

theorem join (h : FromAll p os fs) {sep : String} (hsep : Links sep) :
    From p os (.join sep fs) := by
  induction h with
  | nil => exact .ofText inlined_empty
  | @cons a b f fs first rest ih =>
    cases rest with
    | nil =>
      rw [List.append_nil, Fragment.join_singleton]
      exact first
    | cons second rest =>
      rw [Fragment.join_cons_cons]
      exact first.link hsep ih

theorem map (h : FromAll p os fs) {g : Fragment → Fragment}
    (keep : ∀ a f, From p a f → From p a (g f)) : FromAll p os (fs.map g) := by
  induction h with
  | nil => exact .nil
  | cons first _ ih => exact .cons (keep _ _ first) ih

theorem filter (h : FromAll p os fs) {q : Fragment → Bool}
    (dropped : ∀ f ∈ fs, q f = false → f.bindings = []) : FromAll p os (fs.filter q) := by
  induction h with
  | nil => exact .nil
  | @cons a b f fs first _ ih =>
    rw [List.forall_mem_cons] at dropped
    cases hq : q f with
    | true =>
      rw [List.filter_cons_of_pos hq]
      exact .cons first (ih dropped.2)
    | false =>
      rw [List.filter_cons_of_neg (by simp [hq]), first.eq_nil (dropped.1 hq)]
      exact ih dropped.2

theorem dedupe (h : FromAll p os fs) (seen : List String) :
    FromAll p os (Clauses.dedupe seen fs) := by
  induction h generalizing seen with
  | nil => exact .nil
  | @cons a b f fs first _ ih =>
    rw [Clauses.dedupe]
    split
    · rename_i repeated
      rw [Bool.and_eq_true, List.isEmpty_iff] at repeated
      rw [first.eq_nil repeated.1]
      exact ih seen
    · exact .cons first (ih _)

end FromAll

theorem Fragment.Fits.bindings_eq_nil {f : Fragment} (h : f.Fits) (empty : f.text = "") :
    f.bindings = [] := by
  have count := h.count
  rw [empty] at count
  simpa [placeholders] using count.symm

theorem joinPresent_eq {sep : String} {parts : List Fragment} (h : ∀ f ∈ parts, f.Fits) :
    Fragment.joinPresent sep parts = .join sep (parts.filter (·.text ≠ "")) := by
  have texts : (parts.map Fragment.text).filter (· ≠ "") =
      (parts.filter (·.text ≠ "")).map Fragment.text := by
    rw [List.filter_map]
    rfl
  have values : parts.flatMap Fragment.bindings =
      (parts.filter (·.text ≠ "")).flatMap Fragment.bindings := by
    induction parts with
    | nil => rfl
    | cons f fs ih =>
      rw [List.forall_mem_cons] at h
      rw [List.flatMap_cons, ih h.2 (by simp [List.filter_map, Function.comp_def])]
      by_cases empty : f.text = ""
      · rw [List.filter_cons_of_neg (by simpa using empty), h.1.bindings_eq_nil empty]
        rfl
      · rw [List.filter_cons_of_pos (by simpa using empty), List.flatMap_cons]
  rw [Fragment.joinPresent, Fragment.join, texts, values]

theorem FromAll.joinPresent {p : Prefixes} {os : List Owner} {fs : List Fragment}
    (h : FromAll p os fs) {sep : String} (hsep : Links sep) :
    From p os (.joinPresent sep fs) := by
  rw [joinPresent_eq h.fits]
  apply FromAll.join _ hsep
  apply h.filter
  intro f hf empty
  exact (h.fits f hf).bindings_eq_nil (by simpa using empty)

theorem FromAll.foldTests {p : Prefixes} {os : List Owner} {tests : List Test}
    (h : FromAll p os (tests.map Test.expression)) : From p os (Clauses.foldTests tests) := by
  cases tests with
  | nil =>
    cases h
    exact .ofText inlined_empty
  | cons t ts =>
    cases h with
    | @cons a b _ _ first rest =>
    rw [Clauses.foldTests]
    generalize t.expression = e at first
    induction ts generalizing a b e with
    | nil =>
      cases rest
      rw [List.append_nil]
      exact first
    | cons u us ih =>
      cases rest with
      | @cons b c _ _ second rest =>
      rw [List.foldl_cons, ← List.append_assoc]
      apply ih rest
      have sign : Links (" " ++ u.connector.sign ++ " ") := by
        cases u.connector <;> exact links_of_isInert (by decide) (by decide)
      exact ((first.link sign second).before (leads_of_isInert (by decide))).after
        (trails_of_isInert (by decide) (by decide))

theorem From.filterText {p : Prefixes} {os : List Owner} {f : Fragment} (h : From p os f) :
    From p os (Clauses.filterText f) :=
  (h.before (leads_of_isInert (by decide))).after (trails_of_isInert (by decide) (by decide))

theorem FromAll.filters {p : Prefixes} {os : List Owner} {tests : List Test}
    (h : FromAll p os (tests.map Test.expression)) (folded : Bool) :
    FromAll p os (Clauses.filters folded tests) := by
  unfold Clauses.filters
  split
  · exact .singleton h.foldTests.filterText
  · have each := h.map (g := Clauses.filterText) fun a f hf => hf.filterText
    rwa [List.map_map] at each

def Fragment.behind (f : Fragment) : Fragment := ⟨String.ofList f.text.toList.tail, f.bindings⟩

theorem Fragment.toList_behind {f : Fragment} {c : Char} {rest : List Char}
    (h : f.text.toList = c :: rest) : f.behind.text.toList = rest := by
  rw [behind, h, List.tail_cons, String.toList_ofList]

theorem Piece.IsWritten.behind {p : Prefixes} {x : Piece} (h : x.IsWritten p) {c : Char}
    {rest : List Char} (blank : isBlank c) (first : x.content.text.toList = c :: rest) :
    Piece.IsWritten p ⟨x.owner, x.content.behind⟩ where
  fits := by
    have fits := h.fits
    rw [Fragment.Fits, first] at fits
    rw [Fragment.Fits, Fragment.toList_behind first]
    exact fits.of_cons blank
  plain := h.plain
  owned := by
    intro o ho
    obtain ⟨some_value, kept, f, blanks, writes, same, all_blank, whole⟩ := h.owned o ho
    refine ⟨some_value, kept, f, blanks ++ [c], writes, same, ?_, ?_⟩
    · intro d hd
      rcases List.mem_append.1 hd with hd | hd
      · exact all_blank d hd
      · rw [List.mem_singleton.1 hd]
        exact blank
    · rw [Fragment.toList_behind first, whole, first, List.append_assoc, List.singleton_append]

theorem Composed.behind {p : Prefixes} {ps : List Piece} {f : Fragment} {c : Char}
    {rest : List Char} (h : Composed p ps f) (blank : isBlank c)
    (first : f.text.toList = c :: rest) :
    ∃ qs, Composed p qs f.behind ∧ owners qs = owners ps := by
  induction ps with
  | nil =>
    have text := h.text
    rw [first] at text
    cases text
  | cons x ps ih =>
    obtain ⟨written, others⟩ := List.forall_mem_cons.1 h.written
    have text := h.text
    have scan := h.scan
    have bindings := h.bindings
    rw [List.flatMap_cons] at text scan bindings
    cases piece : x.content.text.toList with
    | nil =>
      -- A piece without text has no values, so that nobody misses it.
      have empty : x.content.bindings = [] :=
        written.fits.bindings_eq_nil (String.toList_eq_nil_iff.1 piece)
      have unowned : x.owner = none := by
        cases hx : x.owner with
        | none => rfl
        | some o =>
          obtain ⟨some_value, kept, -⟩ := written.owned o hx
          exact absurd (kept.symm.trans empty) some_value
      rw [piece, List.nil_append] at text
      rw [piece, tokens_nil, List.nil_append] at scan
      rw [empty, List.nil_append] at bindings
      obtain ⟨qs, composed, same⟩ := ih ⟨text, bindings, scan, others⟩
      exact ⟨qs, composed, by rw [same, owners, owners, List.filterMap_cons_none unowned]⟩
    | cons d tail =>
      rw [first, piece, List.cons_append, List.cons.injEq] at text
      obtain ⟨rfl, text⟩ := text
      rw [first, piece, tokens_cons_of_isBlank blank, tokens_cons_of_isBlank blank,
        List.cons_append, List.cons_inj_right] at scan
      refine ⟨⟨x.owner, x.content.behind⟩ :: ps, ⟨?_, bindings, ?_, ?_⟩, rfl⟩
      · rw [List.flatMap_cons, Fragment.toList_behind first, Fragment.toList_behind piece, text]
      · rw [List.flatMap_cons, Fragment.toList_behind first, Fragment.toList_behind piece, scan]
      · exact List.forall_mem_cons.2 ⟨written.behind blank piece, others⟩

theorem From.behind {p : Prefixes} {os : List Owner} {f : Fragment} {c : Char} {rest : List Char}
    (h : From p os f) (blank : isBlank c) (first : f.text.toList = c :: rest) :
    From p os f.behind := by
  obtain ⟨ps, composed, listed⟩ := h
  obtain ⟨qs, shorter, same⟩ := composed.behind blank first
  exact ⟨qs, shorter, same ▸ listed⟩

theorem From.trimStart {p : Prefixes} {os : List Owner} {f : Fragment} (h : From p os f) :
    From p os ⟨trimStartOf isBlank f.text, f.bindings⟩ := by
  obtain ⟨text, values⟩ := f
  obtain ⟨s, rfl⟩ : ∃ s, text = String.ofList s := ⟨text.toList, String.ofList_toList.symm⟩
  rw [trimStartOf, String.toList_ofList]
  induction s with
  | nil => exact h
  | cons c s ih =>
    by_cases blank : isBlank c
    · rw [List.dropWhile_cons_of_pos blank]
      have shorter := h.behind blank String.toList_ofList
      rw [Fragment.behind, String.toList_ofList] at shorter
      exact ih shorter
    · rw [List.dropWhile_cons_of_neg blank]
      exact h

end SparqlClient
