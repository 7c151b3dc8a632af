import SparqlClient.Proofs.Query.Fits
import SparqlClient.Proofs.Rdf.Tokens

/-! The variables that a text names outside its strings and IRI references. Texts that are written
one after the other name what each of them names, as long as no name goes on across the seam: a
text fronts any other if its end is apart, backs any other if its start is, and spans two texts if
both are. -/

namespace SparqlClient

open Text Shape Token Rdf

/-- What a token leaves of a text in which strings, IRI references and values are blank. -/
def Token.bare : Token → Char
  | .other c => c
  | _ => ' '

def bareText (s : List Char) : List Char := (tokens s).map Token.bare

/-- The names behind the marks of variables. -/
def markedNames : List Char → List String
  | [] => []
  | c :: s =>
    if isSigil c && s.head?.any (isLabelStart .update) then
      String.ofList (s.takeWhile isVariableChar) :: markedNames s
    else markedNames s

def variableNames (text : String) : List String := markedNames (bareText text.toList)

def startsApart (s : List Char) : Bool := !s.head?.any isVariableChar

def endsApart (s : List Char) : Bool := !s.getLast?.any fun c => isSigil c || isVariableChar c

theorem head?_of_startsApart {s : List Char} (h : startsApart s) :
    s.head?.any (isLabelStart .update) = false := by
  cases s with
  | nil => rfl
  | cons c s =>
    have apart : isVariableChar c = false := by simpa [startsApart] using h
    by_contra letter
    rw [isVariableChar_of_isLabelStart (by simpa using letter)] at apart
    cases apart

theorem takeWhile_of_startsApart {s : List Char} (h : startsApart s) :
    s.takeWhile isVariableChar = [] := by
  cases s with
  | nil => rfl
  | cons c s =>
    have apart : isVariableChar c = false := by simpa [startsApart] using h
    simp [apart]

theorem takeWhile_append_of_seam {s t : List Char} (some_char : s ≠ [])
    (seam : endsApart s ∨ startsApart t) :
    (s ++ t).takeWhile isVariableChar = s.takeWhile isVariableChar := by
  rw [List.takeWhile_append]
  split
  · rename_i whole
    have same := (List.takeWhile_prefix isVariableChar).eq_of_length whole
    rw [takeWhile_of_startsApart, List.append_nil, same]
    refine seam.resolve_left fun ends => ?_
    have last := List.takeWhile_eq_self_iff.1 same _ (List.getLast_mem some_char)
    rw [endsApart, List.getLast?_eq_some_getLast some_char] at ends
    simp [last] at ends
  · rfl

theorem endsApart_of_cons {c : Char} {s : List Char} (h : endsApart (c :: s)) : endsApart s := by
  cases s with
  | nil => rfl
  | cons d s => simpa [endsApart] using h

theorem markedNames_append {s t : List Char} (seam : endsApart s ∨ startsApart t) :
    markedNames (s ++ t) = markedNames s ++ markedNames t := by
  induction s with
  | nil => rfl
  | cons c s ih =>
    rw [List.cons_append, markedNames, markedNames, ih (seam.imp_left endsApart_of_cons)]
    by_cases last : s = []
    · have plain : (isSigil c && t.head?.any (isLabelStart .update)) = false := by
        rcases seam with ends | starts
        · have other : isSigil c = false := by simp_all [endsApart]
          rw [other, Bool.false_and]
        · rw [head?_of_startsApart starts, Bool.and_false]
      simp [last, plain]
    · rw [takeWhile_append_of_seam last (seam.imp_left endsApart_of_cons),
        List.head?_append_of_ne_nil s last]
      split <;> rfl

theorem bareText_append {s t : List Char} (scan : tokens (s ++ t) = tokens s ++ tokens t) :
    bareText (s ++ t) = bareText s ++ bareText t := by
  rw [bareText, scan, List.map_append]
  rfl

/-- The quotes of a text are closed, and each variable that it names is one that `K` admits. -/
structure Within (K : String → Prop) (s : String) : Prop where
  closed : QuotesClosed s.toList
  names : ∀ v ∈ variableNames s, K v

instance {K : String → Prop} [DecidablePred K] (s : String) : Decidable (Within K s) :=
  decidable_of_iff (QuotesClosed s.toList ∧ ∀ v ∈ variableNames s, K v)
    ⟨fun ⟨closed, names⟩ => ⟨closed, names⟩, fun ⟨closed, names⟩ => ⟨closed, names⟩⟩

/-- A text that may stand in front of any other. -/
structure Fronts (K : String → Prop) (s : String) : Prop extends Within K s where
  settles : Settles s.toList
  ends : endsApart (bareText s.toList)

structure Backs (K : String → Prop) (s : String) : Prop extends Within K s where
  breaks : Breaks s.toList
  starts : startsApart (bareText s.toList)

structure Spans (K : String → Prop) (s : String) : Prop extends Fronts K s where
  seam : ∀ b, Breaks (s.toList ++ b)
  starts : startsApart (bareText s.toList)

theorem bareText_ne_nil {s : List Char} (h : s ≠ []) : bareText s ≠ [] := by
  cases s with
  | nil => exact absurd rfl h
  | cons c s => simp [bareText, tokens]

theorem endsApart_append {s t : List Char} (ht : endsApart t) (some_char : t ≠ []) :
    endsApart (s ++ t) := by
  rwa [endsApart, List.getLast?_append_of_ne_nil s some_char]

theorem startsApart_append {s t : List Char} (hs : startsApart s) (some_char : s ≠ []) :
    startsApart (s ++ t) := by
  rwa [startsApart, List.head?_append_of_ne_nil s some_char]

section Seams

variable {K : String → Prop} {s t : String}

theorem variableNames_append (scan : tokens (s ++ t).toList = tokens s.toList ++ tokens t.toList)
    (seam : endsApart (bareText s.toList) ∨ startsApart (bareText t.toList)) :
    variableNames (s ++ t) = variableNames s ++ variableNames t := by
  rw [String.toList_append] at scan
  rw [variableNames, String.toList_append, bareText_append scan, markedNames_append seam]
  rfl

theorem Within.append_of_seam (hs : Within K s) (ht : Within K t)
    (scan : tokens (s ++ t).toList = tokens s.toList ++ tokens t.toList)
    (seam : endsApart (bareText s.toList) ∨ startsApart (bareText t.toList)) :
    Within K (s ++ t) where
  closed := by
    intro x hx
    rw [scan, List.mem_append] at hx
    exact hx.elim (hs.closed x) (ht.closed x)
  names := by
    intro v hv
    rw [variableNames_append scan seam, List.mem_append] at hv
    exact hv.elim (hs.names v) (ht.names v)

theorem Fronts.scan (hs : Fronts K s) (t : String) :
    tokens (s ++ t).toList = tokens s.toList ++ tokens t.toList := by
  rw [String.toList_append]
  exact hs.settles _

theorem Within.scan (hs : Within K s) (ht : Backs K t) :
    tokens (s ++ t).toList = tokens s.toList ++ tokens t.toList := by
  rw [String.toList_append]
  exact tokens_append hs.closed ht.breaks

theorem Fronts.append_within (hs : Fronts K s) (ht : Within K t) : Within K (s ++ t) :=
  hs.toWithin.append_of_seam ht (hs.scan t) (.inl hs.ends)

theorem Within.append (hs : Within K s) (ht : Backs K t) : Within K (s ++ t) :=
  hs.append_of_seam ht.toWithin (hs.scan ht) (.inr ht.starts)

theorem Spans.ne_nil (h : Spans K s) : s.toList ≠ [] := by
  intro empty
  have word := (h.seam ['a']).alone
  rw [empty] at word
  exact absurd word (by decide)

theorem Spans.backs (h : Spans K s) : Backs K s :=
  ⟨h.toWithin, by simpa using h.seam [], h.starts⟩

theorem Fronts.append (hs : Fronts K s) (ht : Fronts K t) : Fronts K (s ++ t) where
  toWithin := hs.append_within ht.toWithin
  settles := by
    rw [String.toList_append]
    exact hs.settles.append ht.settles
  ends := by
    rw [String.toList_append, bareText_append (hs.settles _)]
    by_cases empty : t.toList = []
    · rw [empty, show bareText [] = [] by simp [bareText], List.append_nil]
      exact hs.ends
    · exact endsApart_append ht.ends (bareText_ne_nil empty)

theorem Within.fronts (hs : Within K s) (ht : Spans K t) : Fronts K (s ++ t) where
  toWithin := hs.append ht.backs
  settles := by
    rw [String.toList_append]
    exact settles_append hs.closed ht.settles ht.seam
  ends := by
    rw [String.toList_append, bareText_append (tokens_append hs.closed ht.backs.breaks)]
    exact endsApart_append ht.ends (bareText_ne_nil ht.ne_nil)

theorem Spans.append_within (hs : Spans K s) (ht : Within K t) : Backs K (s ++ t) where
  toWithin := hs.toFronts.append_within ht
  breaks := by
    rw [String.toList_append]
    exact hs.seam _
  starts := by
    rw [String.toList_append, bareText_append (hs.settles _)]
    exact startsApart_append hs.starts (bareText_ne_nil hs.ne_nil)

theorem Spans.append (hs : Spans K s) (ht : Fronts K t) : Spans K (s ++ t) where
  toFronts := hs.toFronts.append ht
  seam := by
    intro b
    rw [String.toList_append, List.append_assoc]
    exact hs.seam _
  starts := (hs.append_within ht.toWithin).starts

theorem Within.link {l : String} (hs : Within K s) (hl : Spans K l) (ht : Within K t) :
    Within K (s ++ l ++ t) :=
  (hs.fronts hl).append_within ht

end Seams

theorem within_intercalate {K : String → Prop} {sep : String} (hsep : Spans K sep)
    {parts : List String} (h : ∀ s ∈ parts, Within K s) :
    Within K (String.intercalate sep parts) := by
  induction parts with
  | nil => exact ⟨asks_nil.closed, by simp [variableNames, bareText, markedNames]⟩
  | cons s rest ih =>
    rw [List.forall_mem_cons] at h
    cases rest with
    | nil => simpa using h.1
    | cons t rest =>
      rw [String.intercalate_cons_cons]
      exact h.1.link hsep (ih h.2)

def isSilent (s : List Char) : Bool := isInert s && !s.any isSigil

def isFront (s : List Char) : Bool := isSilent s && endsApart s

def isBack (s : List Char) : Bool := isSilent s && isEnd s && startsApart s

def isSpan (s : List Char) : Bool := isSilent s && isStop s && startsApart s && endsApart s

theorem bareText_of_isInert {s : List Char} (h : isInert s) : bareText s = s := by
  rw [bareText, tokens_of_isInert h, List.map_map]
  exact List.map_id' s

theorem markedNames_of_plain {s : List Char} (h : s.any isSigil = false) : markedNames s = [] := by
  induction s with
  | nil => rfl
  | cons c s ih =>
    rw [List.any_cons, Bool.or_eq_false_iff] at h
    simp [markedNames, h.1, ih h.2]

section Silent

variable {K : String → Prop} {s : String}

theorem isInert_of_isSilent (h : isSilent s.toList) : isInert s.toList := by
  rw [isSilent, Bool.and_eq_true] at h
  exact h.1

theorem within_of_isSilent (h : isSilent s.toList) : Within K s := by
  have inert := isInert_of_isSilent h
  rw [isSilent, Bool.and_eq_true, Bool.not_eq_true'] at h
  refine ⟨(asks_of_isInert inert).closed, ?_⟩
  rw [variableNames, bareText_of_isInert inert, markedNames_of_plain h.2]
  simp

theorem fronts_of_isFront (h : isFront s.toList) : Fronts K s := by
  rw [isFront, Bool.and_eq_true] at h
  obtain ⟨silent, ends⟩ := h
  have inert := isInert_of_isSilent silent
  exact ⟨within_of_isSilent silent, settles_of_isInert inert,
    by rwa [bareText_of_isInert inert]⟩

theorem backs_of_isBack (h : isBack s.toList) : Backs K s := by
  rw [isBack, Bool.and_eq_true, Bool.and_eq_true] at h
  obtain ⟨⟨silent, last⟩, starts⟩ := h
  exact ⟨within_of_isSilent silent, breaks_of_isEnd last,
    by rwa [bareText_of_isInert (isInert_of_isSilent silent)]⟩

theorem spans_of_isSpan (h : isSpan s.toList) : Spans K s := by
  rw [isSpan, Bool.and_eq_true, Bool.and_eq_true, Bool.and_eq_true] at h
  obtain ⟨⟨⟨silent, stop⟩, starts⟩, ends⟩ := h
  refine ⟨fronts_of_isFront (by rw [isFront, silent, ends]; rfl), breaks_of_isStop stop, ?_⟩
  rwa [bareText_of_isInert (isInert_of_isSilent silent)]

theorem within_empty : Within K "" := within_of_isSilent (by decide)

theorem spans_blank : Spans K " " := spans_of_isSpan (by decide)

theorem within_placeholder : Within K "?" :=
  ⟨asks_mark.closed, by simp [variableNames, bareText, tokens_mark, markedNames, Token.bare]⟩

theorem Within.inBraces (h : Within K s) : Within K (inBraces s) :=
  ((fronts_of_isFront (by decide)).append_within h).append (backs_of_isBack (by decide))

theorem Within.spans (h : Within K s) : Spans K (" " ++ s ++ " ") := by
  rw [String.append_assoc]
  exact spans_blank.append (h.fronts spans_blank)

theorem Within.parts {t : String} (hs : Within K s) (ht : Within K t) : Within K (s ++ " " ++ t) :=
  hs.link spans_blank ht

end Silent

theorem variableNames_variable {name : String} (h : IsName name.toList) :
    variableNames ("?" ++ name) = [name] := by
  obtain ⟨some_char, word⟩ := h
  have plain : name.toList.any isSigil = false := by
    rw [List.any_eq_false]
    exact fun c hc => Bool.eq_false_iff.1 (isSigil_of_isAsciiWord (word c hc))
  have letters : name.toList.takeWhile isVariableChar = name.toList := by
    rw [List.takeWhile_eq_self_iff]
    exact fun c hc => isVariableChar_of_isLabelStart (isLabelStart_of_isAsciiWord (word c hc))
  have first : name.toList.head?.any (isLabelStart .update) := by
    rw [List.head?_eq_some_head some_char]
    exact isLabelStart_of_isAsciiWord (word _ (List.head_mem some_char))
  have marked : ("?" ++ name).toList = '?' :: name.toList := by simp
  rw [variableNames, bareText_of_isInert (isInert_variable ⟨some_char, word⟩), marked, markedNames,
    markedNames_of_plain plain, letters, first, String.ofList_toList]
  rfl

theorem within_variable {K : String → Prop} {name : String} (h : IsName name.toList)
    (hk : K name) : Within K ("?" ++ name) := by
  refine ⟨(leads_variable h).inlined.closed, ?_⟩
  rw [variableNames_variable h, List.forall_mem_singleton]
  exact hk

end SparqlClient
