import SparqlClient.Proofs.Query.Fits

/-! Who owns the values of a query. A text is composed of pieces that are scanned one by one; a
piece with values is what one node of the query wrote, and its values are those of the node. -/

namespace SparqlClient

open Text

def Owner.Writes (p : Prefixes) (f : Fragment) : Owner → Prop
  | .condition folded c => ∃ top s part t, Compile.Gives (Compile.condition ⟨p, folded, top⟩ c)
      s part t ∧ (f ∈ part.patterns ∨ f ∈ part.tests.map Test.expression)
  | .bind b => f = Compile.bindText b
  | .having h => ∃ s t, Compile.Gives (Compile.having p h) s f t

structure Piece where
  owner : Option Owner
  content : Fragment

/-- An owned piece is what its owner wrote, less the blanks in front that a query does not keep. -/
structure Piece.IsWritten (p : Prefixes) (x : Piece) : Prop where
  fits : x.content.Fits
  plain : x.owner = none → x.content.bindings = []
  owned : ∀ o, x.owner = some o → o.values p ≠ [] ∧ x.content.bindings = o.values p ∧
    ∃ f blanks, o.Writes p f ∧ f.bindings = x.content.bindings ∧ (∀ c ∈ blanks, isBlank c) ∧
      f.text.toList = blanks ++ x.content.text.toList

/-- The pieces, one after the other, are the fragment, and are scanned one by one. -/
structure Composed (p : Prefixes) (ps : List Piece) (f : Fragment) : Prop where
  text : f.text.toList = ps.flatMap fun x => x.content.text.toList
  bindings : f.bindings = ps.flatMap fun x => x.content.bindings
  scan : tokens f.text.toList = ps.flatMap fun x => tokens x.content.text.toList
  written : ∀ x ∈ ps, x.IsWritten p

def owners (ps : List Piece) : List Owner := ps.filterMap Piece.owner

theorem Composed.fits {p : Prefixes} {ps : List Piece} {f : Fragment} (h : Composed p ps f) :
    f.Fits where
  closed := by
    intro t ht
    rw [h.scan, List.mem_flatMap] at ht
    obtain ⟨x, hx, ht⟩ := ht
    exact (h.written x hx).fits.closed t ht
  count := by
    rw [placeholders, h.scan, h.bindings, List.count_flatMap, List.length_flatMap]
    congr 1
    exact List.map_congr_left fun x hx => (h.written x hx).fits.count

theorem Composed.append {p : Prefixes} {ps qs : List Piece} {f g : Fragment}
    (hf : Composed p ps f) (hg : Composed p qs g) (seam : Fragment.Seam f g) :
    Composed p (ps ++ qs) (f ++ g) where
  text := by
    rw [Fragment.text_append, String.toList_append, hf.text, hg.text, List.flatMap_append]
  bindings := by rw [Fragment.bindings_append, hf.bindings, hg.bindings, List.flatMap_append]
  scan := by rw [seam, hf.scan, hg.scan, List.flatMap_append]
  written := by
    intro x hx
    exact (List.mem_append.1 hx).elim (hf.written x) (hg.written x)

theorem composed_singleton {p : Prefixes} {x : Piece} (h : x.IsWritten p) :
    Composed p [x] x.content :=
  ⟨by simp, by simp, by simp, by simpa using h⟩

/-- The fragment is composed of pieces of these owners, in some order. -/
def From (p : Prefixes) (os : List Owner) (f : Fragment) : Prop :=
  ∃ ps, Composed p ps f ∧ (owners ps).Perm os

namespace From

variable {p : Prefixes} {os a b : List Owner} {f g : Fragment}

theorem fits (h : From p os f) : f.Fits := by
  obtain ⟨ps, composed, -⟩ := h
  exact composed.fits

theorem perm (h : From p a f) (same : a.Perm b) : From p b f := by
  obtain ⟨ps, composed, listed⟩ := h
  exact ⟨ps, composed, listed.trans same⟩

theorem of_plain (h : f.Fits) (none_kept : f.bindings = []) : From p [] f :=
  ⟨[⟨none, f⟩], composed_singleton ⟨h, fun _ => none_kept, by simp⟩, by simp [owners]⟩

theorem ofText {s : String} (h : Inlined s) : From p [] (.ofText s) := of_plain h rfl

theorem of_owner {o : Owner} (h : f.Fits) (values : f.bindings = o.values p)
    (writes : o.Writes p f) : From p (o.listed p) f := by
  unfold Owner.listed
  by_cases nothing : o.values p = []
  · rw [nothing] at values ⊢
    exact of_plain h values
  · rw [if_neg (by simpa using nothing)]
    refine ⟨[⟨some o, f⟩], composed_singleton ⟨h, by simp, ?_⟩, by simp [owners]⟩
    rintro _ ⟨⟩
    exact ⟨nothing, values, f, [], writes, rfl, by simp, rfl⟩

theorem append (hf : From p a f) (hg : From p b g) (seam : Fragment.Seam f g) :
    From p (a ++ b) (f ++ g) := by
  obtain ⟨ps, composed_f, listed_f⟩ := hf
  obtain ⟨qs, composed_g, listed_g⟩ := hg
  refine ⟨ps ++ qs, composed_f.append composed_g seam, ?_⟩
  rw [owners, List.filterMap_append]
  exact listed_f.append listed_g

theorem before (h : From p os f) {s : String} (hs : Leads s) : From p os (s ++ f) :=
  (ofText hs.inlined).append h (Fragment.seam_of_leads hs f)

theorem after (h : From p os f) {s : String} (hs : Trails s) : From p os (f ++ s) := by
  rw [Fragment.after_eq, ← List.append_nil os]
  exact h.append (ofText hs.inlined) (h.fits.seam hs.breaks)

theorem link (hf : From p a f) {s : String} (hs : Links s) (hg : From p b g) :
    From p (a ++ b) (f ++ s ++ g) :=
  (hf.after hs.trails).append hg (hf.fits.seam_links hs g)

theorem inBraces (h : From p os f) : From p os f.inBraces := by
  rw [Fragment.inBraces_eq]
  exact (h.before (leads_of_isInert (by decide))).after
    (trails_of_isInert (by decide) (by decide))

theorem eq_nil (h : From p os f) (none_kept : f.bindings = []) : os = [] := by
  obtain ⟨ps, composed, listed⟩ := h
  have unowned : owners ps = [] := by
    rw [owners, List.filterMap_eq_nil_iff]
    intro x hx
    cases owner : x.owner with
    | none => rfl
    | some o =>
      obtain ⟨some_value, values, -⟩ := (composed.written x hx).owned o owner
      rw [composed.bindings, List.flatMap_eq_nil_iff] at none_kept
      exact absurd (values.symm.trans (none_kept x hx)) some_value
  rw [unowned] at listed
  exact listed.nil_eq.symm

end From

end SparqlClient
