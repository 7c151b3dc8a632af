import SparqlClient.Proofs.Binding.Scan
import SparqlClient.Proofs.Query.Column

/-! Text that is inlined into a query: it asks for no value and leaves no quote open. Pieces of
inlined text are told apart by what may stand beside them: a text that leads is scanned as on its
own whatever follows, a text that trails whatever stands before, and a text that links does both. -/

namespace SparqlClient

open Text Token

def Inlined (s : String) : Prop := Asks s.toList 0

instance (s : String) : Decidable (Inlined s) := inferInstanceAs (Decidable (Asks s.toList 0))

structure Leads (s : String) : Prop where
  inlined : Inlined s
  settles : Settles s.toList

structure Trails (s : String) : Prop where
  inlined : Inlined s
  breaks : Breaks s.toList

structure Links (s : String) : Prop extends Leads s where
  seam : ∀ b, Breaks (s.toList ++ b)

theorem leads_of_isInert {s : String} (h : isInert s.toList) : Leads s :=
  ⟨asks_of_isInert h, settles_of_isInert h⟩

theorem trails_of_isInert {s : String} (h : isInert s.toList) (last : isEnd s.toList) : Trails s :=
  ⟨asks_of_isInert h, breaks_of_isEnd last⟩

theorem links_of_isInert {s : String} (h : isInert s.toList) (stop : isStop s.toList) : Links s :=
  ⟨leads_of_isInert h, breaks_of_isStop stop⟩

theorem Links.trails {s : String} (h : Links s) : Trails s :=
  ⟨h.inlined, by simpa using h.seam []⟩

theorem Leads.append_inlined {s t : String} (hs : Leads s) (ht : Inlined t) : Inlined (s ++ t) := by
  rw [Inlined, String.toList_append]
  exact hs.inlined.append_of_settles hs.settles ht

theorem Leads.append {s t : String} (hs : Leads s) (ht : Leads t) : Leads (s ++ t) := by
  refine ⟨hs.append_inlined ht.inlined, ?_⟩
  rw [String.toList_append]
  exact hs.settles.append ht.settles

theorem Inlined.append {s t : String} (hs : Inlined s) (ht : Trails t) : Inlined (s ++ t) := by
  rw [Inlined, String.toList_append]
  exact Asks.append hs ht.inlined ht.breaks

theorem Inlined.leads {s t : String} (hs : Inlined s) (ht : Links t) : Leads (s ++ t) := by
  refine ⟨hs.append ht.trails, ?_⟩
  rw [String.toList_append]
  exact settles_append hs.closed ht.settles ht.seam

theorem Links.append {s t : String} (hs : Links s) (ht : Leads t) : Links (s ++ t) := by
  refine ⟨hs.toLeads.append ht, fun b => ?_⟩
  rw [String.toList_append, List.append_assoc]
  exact hs.seam _

theorem Links.append_trails {s t : String} (hs : Links s) (ht : Inlined t) : Trails (s ++ t) := by
  refine ⟨hs.toLeads.append_inlined ht, ?_⟩
  rw [String.toList_append]
  exact hs.seam _

theorem inlined_empty : Inlined "" := asks_nil

theorem links_blank : Links " " := links_of_isInert (by decide) (by decide)

theorem Inlined.links {w : String} (hw : Inlined w) : Links (" " ++ w ++ " ") := by
  rw [String.append_assoc]
  exact links_blank.append (hw.leads links_blank)

theorem Inlined.parts {a b : String} (ha : Inlined a) (hb : Inlined b) : Inlined (a ++ " " ++ b) :=
  (ha.leads links_blank).append_inlined hb

theorem inlined_intercalate {sep : String} (hsep : Links sep) {parts : List String}
    (h : ∀ s ∈ parts, Inlined s) : Inlined (String.intercalate sep parts) := by
  induction parts with
  | nil => exact inlined_empty
  | cons s rest ih =>
    cases rest with
    | nil => exact h s (by simp)
    | cons t rest =>
      rw [String.intercalate_cons_cons]
      have behind := ih fun x hx => h x (List.mem_cons_of_mem s hx)
      exact ((h s (by simp)).leads hsep).append_inlined behind

theorem inlined_inBraces {s : String} (h : Inlined s) : Inlined (inBraces s) :=
  (leads_of_isInert (by decide)).append_inlined h |>.append
    (trails_of_isInert (by decide) (by decide))

theorem isInert_of_isAsciiWord {s : List Char} (h : ∀ c ∈ s, isAsciiWord c) : isInert s :=
  isInert_of_class h (by decide) (by decide) (by decide) (by decide)

theorem isInert_variable {name : String} (h : IsName name.toList) :
    isInert ("?" ++ name).toList := by
  obtain ⟨some_char, word⟩ := h
  rw [String.toList_append, show "?".toList = ['?'] from rfl, List.singleton_append, isInert,
    isInert_of_isAsciiWord word]
  cases hn : name.toList with
  | nil => exact absurd hn some_char
  | cons c rest => simp [word c (by simp [hn])]

theorem leads_variable {name : String} (h : IsName name.toList) : Leads ("?" ++ name) :=
  leads_of_isInert (isInert_variable h)

end SparqlClient
