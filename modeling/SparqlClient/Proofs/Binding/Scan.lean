import SparqlClient.Binding.Token

/-! What a token depends on: its own characters, and a little of what follows. Two texts that look
alike from the left are exchanged without a change to the tokens before them, so that texts whose
quotes are closed are scanned one by one when they are written one after the other. -/

namespace SparqlClient

open Text

theorem quotedTail_prefix {q : Char} {s a b : List Char} (h : quotedTail q s = some (a, b))
    (t : List Char) : quotedTail q (a ++ t) = some (a, t) := by
  fun_induction quotedTail q s generalizing a b with
  | case1 => simp at h
  | case2 s =>
    obtain ⟨rfl, rfl⟩ := Prod.mk.inj (Option.some.inj h)
    rw [List.singleton_append, quotedTail.eq_def]
    exact if_pos rfl
  | case3 => simp at h
  | case4 => simp at h
  | case5 => simp at h
  | case6 d s hd hq _ ih =>
    obtain ⟨⟨x, y⟩, hx, he⟩ := Option.map_eq_some_iff.1 h
    obtain ⟨rfl, rfl⟩ := Prod.mk.inj he
    simp [quotedTail, hq, hd, ih hx]
  | case7 c s hq hn hb ih =>
    obtain ⟨⟨x, y⟩, hx, he⟩ := Option.map_eq_some_iff.1 h
    obtain ⟨rfl, rfl⟩ := Prod.mk.inj he
    rw [List.cons_append, quotedTail.eq_def]
    simp [hq, hn, hb, ih hx]

theorem iriTail_prefix {s a b : List Char} (h : iriTail s = some (a, b)) (t : List Char) :
    iriTail (a ++ t) = some (a, t) := by
  induction s generalizing a with
  | nil => simp [iriTail] at h
  | cons c s ih =>
    rw [iriTail] at h
    split at h
    · rename_i hc
      obtain ⟨rfl, rfl⟩ := Prod.mk.inj (Option.some.inj h)
      simp [iriTail, hc]
    · rename_i hc
      split at h
      · rename_i hi
        obtain ⟨⟨x, y⟩, hx, he⟩ := Option.map_eq_some_iff.1 h
        obtain ⟨rfl, rfl⟩ := Prod.mk.inj he
        simp [iriTail, hc, hi, ih hx]
      · simp at h

theorem iriTail_append_eq_none {s t : List Char} (hs : iriTail s = none) (ht : iriTail t = none) :
    iriTail (s ++ t) = none := by
  induction s with
  | nil => exact ht
  | cons c s ih =>
    rw [iriTail] at hs
    rw [List.cons_append, iriTail]
    split at hs
    · simp at hs
    · split at hs
      · rename_i hc hi
        simp [hc, hi, ih (Option.map_eq_none_iff.1 hs)]
      · rename_i hc hi
        simp [hc, hi]

theorem iriTail_append_blank {u : List Char} {c : Char} (hc : isBlank c) (hu : c ∈ u)
    (hn : iriTail u = none) (t : List Char) : iriTail (u ++ t) = none := by
  induction u with
  | nil => simp at hu
  | cons d u ih =>
    rw [iriTail] at hn
    rw [List.cons_append, iriTail]
    split at hn
    · simp at hn
    · rename_i hd
      split at hn
      · rename_i hi
        have behind : c ∈ u := by
          rcases List.mem_cons.1 hu with rfl | h
          · simp [isIriChar, hc] at hi
          · exact h
        simp [hd, hi, ih behind (Option.map_eq_none_iff.1 hn)]
      · rename_i hi
        simp [hd, hi]

namespace Token

def hasMark : List Char → Bool
  | '?' :: t => standsAlone t
  | _ => false

/-- Two texts that no token before them can tell apart. -/
structure Alike (s t : List Char) : Prop where
  iri : iriTail s = none ↔ iriTail t = none
  alone : standsAlone s = standsAlone t
  mark : hasMark s = hasMark t

theorem Alike.refl (s : List Char) : Alike s s := ⟨Iff.rfl, rfl, rfl⟩

theorem glue_of_not_hasMark {a b : List Char} (h : hasMark b = false) : glue a b = (.iri a, b) := by
  unfold glue
  split
  · rename_i t
    simp_all [hasMark]
  · rfl

def isLooseQuote : Token → Bool
  | .other c => c = '"' || c = '\''
  | _ => false

theorem glue_congr {a b r r' : List Char} {t : Token} (h : glue a b = (t, r)) (hr : Alike r r') :
    ∃ b', glue a b' = (t, r') ∧ a ++ b' = t.chars ++ r' := by
  unfold glue at h
  split at h
  · rename_i s
    split at h
    · rename_i hs
      obtain ⟨rfl, rfl⟩ := Prod.mk.inj h
      have hs' : standsAlone r' = true := hr.alone ▸ hs
      exact ⟨'?' :: r', by simp [glue, hs'], by simp [chars]⟩
    · rename_i hs
      obtain ⟨rfl, rfl⟩ := Prod.mk.inj h
      have none_left : hasMark r' = false := by rw [← hr.mark]; simpa [hasMark] using hs
      exact ⟨r', glue_of_not_hasMark none_left, rfl⟩
  · rename_i hb
    obtain ⟨rfl, rfl⟩ := Prod.mk.inj h
    have none_left : hasMark r' = false := by
      rw [← hr.mark]
      unfold hasMark
      split
      · rename_i t
        exact absurd rfl (hb t)
      · rfl
    exact ⟨r', glue_of_not_hasMark none_left, rfl⟩

/-- A token stays the token it is when what follows it is exchanged for a text that looks alike. -/
theorem next_congr {c : Char} {s r r' : List Char} {t : Token} (h : next c s = (t, r))
    (closed : t.isLooseQuote = false) (hr : Alike r r') :
    ∃ s', c :: s' = t.chars ++ r' ∧ next c s' = (t, r') := by
  unfold next at h
  split at h
  · rename_i hq
    split at h
    · rename_i a b hx
      obtain ⟨rfl, rfl⟩ := Prod.mk.inj h
      exact ⟨a ++ r', rfl, by simp [next, hq, quotedTail_prefix hx]⟩
    · obtain ⟨rfl, rfl⟩ := Prod.mk.inj h
      simp_all [isLooseQuote]
  · rename_i hq
    split at h
    · rename_i hc
      split at h
      · rename_i a b hx
        obtain ⟨b', glued, whole⟩ := glue_congr h hr
        refine ⟨a ++ b', by rw [← whole]; rfl, ?_⟩
        rw [next, if_neg hq, if_pos hc, iriTail_prefix hx]
        exact glued
      · rename_i hx
        obtain ⟨rfl, rfl⟩ := Prod.mk.inj h
        exact ⟨r', rfl, by simp [next, hc, hr.iri.1 hx]⟩
    · rename_i hc
      split at h
      · rename_i hm
        obtain ⟨rfl, rfl⟩ := Prod.mk.inj h
        obtain ⟨rfl, hs⟩ : c = '?' ∧ standsAlone s = true := by simpa using hm
        exact ⟨r', rfl, by simp [next, ← hr.alone, hs]⟩
      · rename_i hm
        obtain ⟨rfl, rfl⟩ := Prod.mk.inj h
        refine ⟨r', rfl, ?_⟩
        rw [hr.alone] at hm
        simp [next, hq, hc, hm]

theorem chars_append_snd_next {c : Char} {s r : List Char} {t : Token} (h : next c s = (t, r)) :
    t.chars ++ r = c :: s := by
  simpa [h] using next_append c s

end Token

open Token

abbrev Breaks (s : List Char) : Prop := Alike [] s

theorem Breaks.alike_append {s : List Char} (hs : Breaks s) (r : List Char) : Alike r (r ++ s) where
  iri := by
    constructor
    · intro h
      exact iriTail_append_eq_none h (hs.iri.1 rfl)
    · intro h
      cases hr : iriTail r with
      | none => rfl
      | some x =>
        rw [← iriTail_append hr, List.append_assoc, iriTail_prefix hr] at h
        simp at h
  alone := by
    cases r with
    | nil => exact hs.alone
    | cons c r => rfl
  mark := by
    match r with
    | [] => exact hs.mark
    | [c] =>
      have alone : standsAlone s = true := hs.alone.symm
      by_cases hc : c = '?'
      · subst hc
        simp only [hasMark, List.singleton_append, alone]
        rfl
      · simp [hasMark, hc]
    | c :: d :: r =>
      by_cases hc : c = '?'
      · subst hc
        simp [hasMark, standsAlone]
      · simp [hasMark, hc]

def QuotesClosed (s : List Char) : Prop := ∀ t ∈ tokens s, t.isLooseQuote = false

instance (s : List Char) : Decidable (QuotesClosed s) :=
  inferInstanceAs (Decidable (∀ t ∈ tokens s, t.isLooseQuote = false))

theorem tokens_append {s b : List Char} (hs : QuotesClosed s) (hb : Breaks b) :
    tokens (s ++ b) = tokens s ++ tokens b := by
  fun_induction tokens s with
  | case1 => rfl
  | case2 c s ih =>
    rw [QuotesClosed, tokens, List.forall_mem_cons] at hs
    generalize hx : next c s = x at ih hs ⊢
    obtain ⟨t, r⟩ := x
    -- the first token is the same with `b` behind it, so that the rest is `r` with `b` behind it
    obtain ⟨s', whole, token⟩ := next_congr hx hs.1 (hb.alike_append r)
    rw [← List.append_assoc, chars_append_snd_next hx, List.cons_append,
      List.cons_inj_right] at whole
    rw [List.cons_append, tokens, ← whole, token, List.cons_append, ← ih hs.2]

/-- A text that is scanned as on its own whatever follows it. -/
def Settles (s : List Char) : Prop := ∀ b, tokens (s ++ b) = tokens s ++ tokens b

theorem settles_append {s t : List Char} (hs : QuotesClosed s) (ht : Settles t)
    (seam : ∀ b, Breaks (t ++ b)) : Settles (s ++ t) := by
  intro b
  have alone : tokens (s ++ t) = tokens s ++ tokens t := by
    simpa using tokens_append hs (seam [])
  rw [List.append_assoc, tokens_append hs (seam b), ht, alone, List.append_assoc]

theorem Settles.append {s t : List Char} (hs : Settles s) (ht : Settles t) : Settles (s ++ t) := by
  intro b
  rw [List.append_assoc, hs, ht, hs, List.append_assoc]

/-- The text asks for `n` values, and no quote in it stands outside a complete string. -/
structure Asks (s : List Char) (n : Nat) : Prop where
  closed : QuotesClosed s
  count : placeholders s = n

instance (s : List Char) (n : Nat) : Decidable (Asks s n) :=
  decidable_of_iff (QuotesClosed s ∧ placeholders s = n)
    ⟨fun ⟨closed, count⟩ => ⟨closed, count⟩, fun ⟨closed, count⟩ => ⟨closed, count⟩⟩

theorem asks_nil : Asks [] 0 := ⟨by simp [QuotesClosed], by simp [placeholders]⟩

theorem tokens_mark : tokens ['?'] = [.placeholder] := by simp [tokens, next, standsAlone]

theorem asks_mark : Asks ['?'] 1 :=
  ⟨by simp [QuotesClosed, tokens_mark, isLooseQuote], by simp [placeholders, tokens_mark]⟩

theorem Asks.of_tokens {s t u : List Char} {m n : Nat} (hs : Asks s m) (ht : Asks t n)
    (h : tokens u = tokens s ++ tokens t) : Asks u (m + n) where
  closed := by
    intro x hx
    rw [h, List.mem_append] at hx
    exact hx.elim (hs.closed x) (ht.closed x)
  count := by rw [placeholders, h, List.count_append, ← hs.count, ← ht.count]; rfl

theorem Asks.append {s t : List Char} {m n : Nat} (hs : Asks s m) (ht : Asks t n)
    (seam : Breaks t) : Asks (s ++ t) (m + n) :=
  hs.of_tokens ht (tokens_append hs.closed seam)

theorem Asks.append_of_settles {s t : List Char} {m n : Nat} (hs : Asks s m) (settled : Settles s)
    (ht : Asks t n) : Asks (s ++ t) (m + n) :=
  hs.of_tokens ht (settled t)

/-- No quote, no bracket that could open an IRI reference, and no question mark without a letter, a
digit or an underscore behind it: a text of single characters, whatever follows. -/
def isInert : List Char → Bool
  | [] => true
  | c :: s =>
    (if c = '"' || c = '\'' then false
      else if c = '<' then (s.dropWhile isIriChar).head?.any (· ≠ '>')
      else if c = '?' then s.head?.any isAsciiWord
      else true) && isInert s

theorem isInert_of_class {p : Char → Bool} {s : List Char} (own : ∀ c ∈ s, p c = true)
    (quote : p '"' = false) (apostrophe : p '\'' = false) (bracket : p '<' = false)
    (mark : p '?' = false) : isInert s = true := by
  induction s with
  | nil => rfl
  | cons c s ih =>
    rw [List.forall_mem_cons] at own
    have apart : ∀ d, p d = false → c ≠ d := by
      rintro d other rfl
      rw [own.1] at other
      cases other
    rw [isInert, ih own.2, Bool.and_true,
      if_neg (by simp [apart '"' quote, apart '\'' apostrophe]), if_neg (apart '<' bracket),
      if_neg (apart '?' mark)]

theorem iriTail_of_stops {s : List Char} (h : (s.dropWhile isIriChar).head?.any (· ≠ '>'))
    (b : List Char) : iriTail (s ++ b) = none := by
  induction s with
  | nil => simp at h
  | cons c s ih =>
    rw [List.cons_append, iriTail]
    by_cases inside : isIriChar c
    · have closing : c ≠ '>' := by rintro rfl; exact absurd inside (by decide)
      rw [List.dropWhile_cons_of_pos inside] at h
      simp [closing, inside, ih h]
    · rw [List.dropWhile_cons_of_neg inside] at h
      have closing : c ≠ '>' := by simpa using h
      simp [closing, inside]

theorem standsAlone_of_head {s : List Char} (h : s.head?.any isAsciiWord) (b : List Char) :
    standsAlone (s ++ b) = false := by
  cases s with
  | nil => simp at h
  | cons c s => simpa [standsAlone] using h

theorem tokens_append_of_isInert {s : List Char} (h : isInert s) (b : List Char) :
    tokens (s ++ b) = s.map .other ++ tokens b := by
  induction s with
  | nil => rfl
  | cons c s ih =>
    rw [isInert, Bool.and_eq_true] at h
    have head : next c (s ++ b) = (.other c, s ++ b) := by
      unfold next
      by_cases quote : (c = '"' || c = '\'')
      · simp [quote] at h
      · by_cases bracket : c = '<'
        · have open_bracket := h.1
          simp only [bracket] at open_bracket
          simp [bracket, iriTail_of_stops (by simpa using open_bracket)]
        · by_cases mark : c = '?'
          · have word := h.1
            simp only [mark] at word
            simp [mark, standsAlone_of_head (by simpa using word)]
          · simp [quote, bracket, mark]
    rw [List.cons_append, tokens, head, ih h.2]
    rfl

theorem tokens_of_isInert {s : List Char} (h : isInert s) : tokens s = s.map .other := by
  simpa using tokens_append_of_isInert h []

theorem settles_of_isInert {s : List Char} (h : isInert s) : Settles s := fun b => by
  rw [tokens_append_of_isInert h, tokens_of_isInert h]

theorem ne_quote_of_isInert {s : List Char} (h : isInert s) : ∀ c ∈ s, c ≠ '"' ∧ c ≠ '\'' := by
  induction s with
  | nil => simp
  | cons c s ih =>
    rw [isInert, Bool.and_eq_true] at h
    refine List.forall_mem_cons.2 ⟨?_, ih h.2⟩
    by_cases quote : (c = '"' || c = '\'')
    · simp [quote] at h
    · simpa using quote

theorem asks_of_isInert {s : List Char} (h : isInert s) : Asks s 0 where
  closed := by
    rw [QuotesClosed, tokens_of_isInert h]
    simpa [isLooseQuote] using ne_quote_of_isInert h
  count := by
    rw [placeholders, tokens_of_isInert h, List.count_eq_zero]
    simp

def isStop (s : List Char) : Bool :=
  standsAlone s && !s.head?.any (· = '?') && (s.dropWhile isIriChar).head?.any (· ≠ '>')

theorem breaks_of_isStop {s : List Char} (h : isStop s) (b : List Char) : Breaks (s ++ b) := by
  rw [isStop, Bool.and_eq_true, Bool.and_eq_true] at h
  obtain ⟨⟨alone, mark⟩, stops⟩ := h
  cases s with
  | nil => simp at stops
  | cons c s =>
    have other : c ≠ '?' := by simpa using mark
    refine ⟨?_, ?_, ?_⟩
    · simp only [iriTail_of_stops stops, iriTail]
    · exact alone.symm
    · simp [hasMark, other]

def isEnd (s : List Char) : Bool :=
  standsAlone s && !hasMark s && (iriTail s).isNone

theorem breaks_of_isEnd {s : List Char} (h : isEnd s) : Breaks s := by
  rw [isEnd, Bool.and_eq_true, Bool.and_eq_true, Option.isNone_iff_eq_none] at h
  obtain ⟨⟨alone, mark⟩, whole⟩ := h
  exact ⟨by simp [whole, iriTail], alone.symm, by simpa [hasMark] using mark⟩

theorem tokens_cons_of_isBlank {c : Char} (hc : isBlank c) (s : List Char) :
    tokens (c :: s) = .other c :: tokens s := by
  have inert : isInert [c] := by
    have quote : ¬(c = '"' ∨ c = '\'') := by rintro (rfl | rfl) <;> exact absurd hc (by decide)
    have bracket : c ≠ '<' := by rintro rfl; exact absurd hc (by decide)
    have mark : c ≠ '?' := by rintro rfl; exact absurd hc (by decide)
    simp [isInert, quote, bracket, mark]
  exact tokens_append_of_isInert inert s

theorem Asks.of_cons {c : Char} {s : List Char} {n : Nat} (h : Asks (c :: s) n)
    (blank : isBlank c) : Asks s n where
  closed := by
    intro t ht
    exact h.closed t (by rw [tokens_cons_of_isBlank blank]; exact List.mem_cons_of_mem _ ht)
  count := by
    rw [← h.count, placeholders, placeholders, tokens_cons_of_isBlank blank,
      List.count_cons_of_ne (by simp)]

end SparqlClient
