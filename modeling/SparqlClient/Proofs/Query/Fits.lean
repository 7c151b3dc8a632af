import SparqlClient.Proofs.Query.Inlined
import SparqlClient.Proofs.Query.Owner

/-! Fragments that fit: the text asks for as many values as are kept with it, and leaves no quote
open. What a test writes fits as soon as the texts inlined into it do. -/

namespace SparqlClient

open Text

namespace Fragment

def Fits (f : Fragment) : Prop := Asks f.text.toList f.bindings.length

instance (f : Fragment) : Decidable f.Fits :=
  inferInstanceAs (Decidable (Asks f.text.toList f.bindings.length))

def Seam (f g : Fragment) : Prop :=
  tokens (f ++ g).text.toList = tokens f.text.toList ++ tokens g.text.toList

theorem after_eq (f : Fragment) (s : String) : f ++ s = f ++ ofText s := by
  change (⟨f.text ++ s, f.bindings⟩ : Fragment) = ⟨f.text ++ s, f.bindings ++ []⟩
  rw [List.append_nil]

theorem inBraces_eq (f : Fragment) : f.inBraces = "\x7b " ++ f ++ " \x7d" := rfl

theorem fits_ofText {s : String} (h : SparqlClient.Inlined s) : (ofText s).Fits := h

theorem fits_placeholder (v : Value) : (placeholder v).Fits := by
  rw [Fits, placeholder, show "?".toList = ['?'] by decide]
  exact asks_mark

theorem Fits.append {f g : Fragment} (hf : f.Fits) (hg : g.Fits) (seam : Seam f g) :
    (f ++ g).Fits := by
  rw [Fits, bindings_append, List.length_append]
  exact hf.of_tokens hg seam

theorem seam_of_leads {s : String} (hs : Leads s) (f : Fragment) : Seam (ofText s) f := by
  rw [Seam, text_append, text_ofText, String.toList_append]
  exact hs.settles _

theorem Fits.seam {f : Fragment} (hf : f.Fits) {g : Fragment} (hg : Breaks g.text.toList) :
    Seam f g := by
  rw [Seam, text_append, String.toList_append]
  exact tokens_append hf.closed hg

theorem Fits.seam_links {f : Fragment} (hf : f.Fits) {s : String} (hs : Links s) (g : Fragment) :
    Seam (f ++ s) g := by
  rw [Seam, text_append, text_after, String.toList_append, String.toList_append]
  exact settles_append hf.closed hs.settles hs.seam _

theorem Fits.before {f : Fragment} (hf : f.Fits) {s : String} (hs : Leads s) : (s ++ f).Fits :=
  (fits_ofText hs.inlined).append hf (seam_of_leads hs f)

theorem Fits.after {f : Fragment} (hf : f.Fits) {s : String} (hs : Trails s) : (f ++ s).Fits := by
  rw [after_eq]
  exact hf.append (fits_ofText hs.inlined) (hf.seam hs.breaks)

theorem Fits.link {f g : Fragment} (hf : f.Fits) {s : String} (hs : Links s) (hg : g.Fits) :
    (f ++ s ++ g).Fits :=
  (hf.after hs.trails).append hg (hf.seam_links hs g)

theorem join_cons_cons (sep : String) (f g : Fragment) (fs : List Fragment) :
    join sep (f :: g :: fs) = f ++ sep ++ join sep (g :: fs) := by
  simp only [join, List.map_cons, String.intercalate_cons_cons]
  rfl

theorem join_singleton (sep : String) (f : Fragment) : join sep [f] = f := by
  simp [join]

theorem fits_join {sep : String} (hsep : Links sep) {parts : List Fragment}
    (h : ∀ f ∈ parts, f.Fits) : (join sep parts).Fits := by
  induction parts with
  | nil => exact asks_nil
  | cons f rest ih =>
    have first := h f (List.mem_cons_self ..)
    cases rest with
    | nil =>
      rw [join_singleton]
      exact first
    | cons g rest =>
      rw [join_cons_cons]
      exact first.link hsep (ih fun x hx => h x (List.mem_cons_of_mem f hx))

end Fragment

namespace Value

/-- What is assumed of an operand: nothing of a scalar. -/
def Inlined (p : Prefixes) (v : Value) : Prop :=
  v.isInline → SparqlClient.Inlined ((classify (some p) v).render (some p))

def InlinedInPattern (p : Prefixes) (v : Value) : Prop :=
  v.standsForNode p → SparqlClient.Inlined ((classify (some p) v).render (some p))

end Value

namespace Operator

def Inlined (o : Operator) (p : Prefixes) (v : Value) : Prop :=
  match o with
  | .datatype => (classify (some p) v).isResource →
    SparqlClient.Inlined ((classify (some p) v).render none)
  | _ => v.Inlined p

end Operator

namespace Write

theorem operand_fits {p : Prefixes} {v : Value} (h : v.Inlined p) : (operand p v).Fits := by
  unfold operand
  split
  · rename_i inline
    exact Fragment.fits_ofText (h inline)
  · exact Fragment.fits_placeholder v

theorem nodeOperand_fits {p : Prefixes} {v : Value} (h : v.InlinedInPattern p) :
    (nodeOperand p v).Fits := by
  rw [nodeOperand_eq]
  split
  · rename_i node
    exact Fragment.fits_ofText (h node)
  · exact Fragment.fits_placeholder v

theorem triple_fits {p : Prefixes} {s q o : Value} (hs : s.InlinedInPattern p)
    (hq : SparqlClient.Inlined (predicate p q)) (ho : o.InlinedInPattern p) :
    (triple p s q o).Fits :=
  ((nodeOperand_fits hs).link hq.links (nodeOperand_fits ho)).after
    (trails_of_isInert (by decide) (by decide))

theorem links_sign (c : Comparison) : Links (" " ++ c.sign ++ " ") := by
  cases c <;> exact links_of_isInert (by decide) (by decide)

theorem leads_regex (negated : Bool) : Leads ((if negated then "!" else "") ++ "REGEX( ") := by
  cases negated <;> exact leads_of_isInert (by decide)

theorem trails_regex (caseless : Bool) :
    Trails ((if caseless then " , \"i\"" else "") ++ " )") := by
  cases caseless
  · exact trails_of_isInert (by decide) (by decide)
  · exact ⟨by decide +kernel, breaks_of_isEnd (by decide)⟩

theorem test_fits {p : Prefixes} {ref : String} {o : Operator} {v label : Value} {e : Fragment}
    (href : SparqlClient.Inlined ref) (hv : o.Inlined p v)
    (h : test p ref o v label = .ok e) : e.Fits := by
  cases o with
  | compare c =>
    obtain rfl := Except.ok.inj h
    have written : ref ++ " " ++ c.sign ++ " " = ref ++ (" " ++ c.sign ++ " ") := by
      simp only [String.append_assoc]
    refine (operand_fits hv).before ?_
    rw [written]
    exact href.leads (links_sign c)
  | regex negated caseless =>
    obtain rfl := Except.ok.inj h
    refine ((operand_fits hv).before ?_).after (trails_regex caseless)
    exact ((leads_regex negated).append_inlined href).leads
      (links_of_isInert (by decide) (by decide))
  | lang =>
    obtain rfl := Except.ok.inj h
    refine ((operand_fits hv).before ?_).after (trails_of_isInert (by decide) (by decide))
    exact ((leads_of_isInert (by decide)).append_inlined href).leads
      (links_of_isInert (by decide) (by decide))
  | datatype =>
    simp only [test] at h
    split at h
    · rename_i resource
      obtain rfl := Except.ok.inj h
      have column : Leads ("DATATYPE(" ++ ref ++ ") = ") :=
        ((leads_of_isInert (by decide)).append_inlined href).leads
          (links_of_isInert (by decide) (by decide))
      exact Fragment.fits_ofText (column.append_inlined (hv resource))
    · cases h

theorem membership_fits {p : Prefixes} {ref : String} {values : List Value}
    (href : SparqlClient.Inlined ref) (hv : ∀ v ∈ values, v.Inlined p) (negated : Bool) :
    (membership p ref values negated).Fits := by
  unfold membership
  split
  · cases negated <;> exact asks_of_isInert (by decide)
  · have opening : Links (if negated then " NOT IN ( " else " IN ( ") := by
      cases negated <;> exact links_of_isInert (by decide) (by decide)
    have members : (Fragment.join " , " (values.map (operand p))).Fits := by
      apply Fragment.fits_join (links_of_isInert (by decide) (by decide))
      rw [List.forall_mem_map]
      exact fun v hx => operand_fits (hv v hx)
    exact (members.before (href.leads opening)).after
      (trails_of_isInert (by decide) (by decide))

theorem bounds_fits {ref below joint above : String} {low high : Fragment}
    (href : SparqlClient.Inlined ref) (hlow : low.Fits) (hhigh : high.Fits) (hb : Links below)
    (hj : Links joint) (ha : Links above) :
    (("( " ++ ref ++ below) ++ low ++ (joint ++ ref ++ above) ++ high ++ " )").Fits := by
  have first : Leads ("( " ++ ref ++ below) :=
    ((leads_of_isInert (by decide)).append_inlined href).leads hb
  have second : Links (joint ++ ref ++ above) := by
    rw [String.append_assoc]
    exact hj.append (href.leads ha)
  exact ((hlow.before first).link second hhigh).after
    (trails_of_isInert (by decide) (by decide))

theorem range_fits {p : Prefixes} {ref : String} {r : Between} (href : SparqlClient.Inlined ref)
    (low : r.low.Inlined p) (high : r.high.Inlined p) : (range p ref r).Fits := by
  unfold range
  split
  · refine bounds_fits href (operand_fits low) (operand_fits high) ?_ ?_ ?_
    all_goals exact links_of_isInert (by decide) (by decide)
  · refine bounds_fits href (operand_fits low) (operand_fits high) ?_ ?_ ?_
    all_goals exact links_of_isInert (by decide) (by decide)

end Write

end SparqlClient
