import SparqlClient.Proofs.Binding.Lexeme
import SparqlClient.Proofs.Binding.Substitution

/-! Binding values and the grammar. The scanner of placeholders knows no strings between triple
quotes, no letters beyond ASCII and no comments. Where a query has none of the pieces on which it
differs from the grammar, strings, IRI references and variables are left as they are, and each
question mark outside of them gets the next value, unless it stands right behind an IRI reference.
-/

namespace SparqlClient

open Text Shape Rdf Token

namespace Lexeme

def fitsLine (q : Char) : List Char → Bool
  | [] => true
  | c :: s =>
    if c = q || c = '\n' then false
    else if c = '\\' then
      match s with
      | [] => false
      | d :: t => d ≠ '\n' && fitsLine q t
    else fitsLine q s

/-- The end of the text, or of a line that is not ended by a carriage return alone. -/
def endsLine : List Char → Bool
  | [] => true
  | '\n' :: _ => true
  | '\r' :: '\n' :: _ => true
  | _ => false

/-- Whether the scanner of placeholders reads the piece as the grammar does, where `r` follows. -/
def isPlain (r : List Char) : Lexeme → Bool
  | .iri body => body.all SparqlClient.isIriChar
  | .short .. => true
  | .long q body => fitsLine q body
  | .variable mark name => mark ≠ '?' || name.head?.any isAsciiWord
  | .comment body => !body.any isQuote || endsLine r
  | .escaped c => !isQuote c && c ≠ '<'
  | .sign c => c ≠ '<' || (r.takeWhile (· ≠ '>')).all fun c => 32 < c.toNat || isBlank c

def isIri : Lexeme → Bool
  | .iri _ => true
  | _ => false

def isKept : Lexeme → Bool
  | .comment _ | .escaped _ => false
  | .sign c => c ≠ '?'
  | _ => true

end Lexeme

def arePlain : List Lexeme → Bool
  | [] => true
  | l :: ls => l.isPlain (ls.flatMap Lexeme.chars) && arePlain ls

inductive Substituted (p : Option Prefixes) :
    List Token → List Value → List Value → List Char → Prop
  | nil {vs : List Value} : Substituted p [] vs vs []
  | value {ts : List Token} {v : Value} {vs ws : List Value} {written : String} {out : List Char}
      (quoted : quoteValue p v = .ok written) (rest : Substituted p ts vs ws out) :
      Substituted p (.placeholder :: ts) (v :: vs) ws (written.toList ++ out)
  | kept {t : Token} {ts : List Token} {vs ws : List Value} {out : List Char}
      (other : t ≠ .placeholder) (rest : Substituted p ts vs ws out) :
      Substituted p (t :: ts) vs ws (t.chars ++ out)

/-- A query with values bound to it: pieces are kept, a question mark gets the next value or, right
behind an IRI reference, is a modifier of it; comments and escapes may ask for values as well. -/
inductive Bound (p : Option Prefixes) : Bool → List Lexeme → List Value → List Char → Prop
  | nil {glued : Bool} {vs : List Value} : Bound p glued [] vs []
  | kept {glued : Bool} {l : Lexeme} {ls : List Lexeme} {vs : List Value} {out : List Char}
      (own : l.isKept = true) (rest : Bound p l.isIri ls vs out) :
      Bound p glued (l :: ls) vs (l.chars ++ out)
  | modifier {ls : List Lexeme} {vs : List Value} {out : List Char}
      (rest : Bound p false ls vs out) : Bound p true (.sign '?' :: ls) vs ('?' :: out)
  | value {ls : List Lexeme} {v : Value} {vs : List Value} {written : String} {out : List Char}
      (quoted : quoteValue p v = .ok written) (rest : Bound p false ls vs out) :
      Bound p false (.sign '?' :: ls) (v :: vs) (written.toList ++ out)
  | loose {glued : Bool} {l : Lexeme} {ls : List Lexeme} {ts : List Token} {vs ws : List Value}
      {out more : List Char} (other : l.isKept = false) (unprotected : l ≠ .sign '?')
      (whole : ts.flatMap Token.chars = l.chars) (filled : Substituted p ts vs ws out)
      (rest : Bound p false ls ws more) : Bound p glued (l :: ls) vs (out ++ more)

namespace Substituted

variable {p : Option Prefixes} {n : Nat} {ts us : List Token} {vs ws : List Value}
  {out : List Char}

theorem of_append (h : substitute p n (ts ++ us) vs = .ok out) :
    ∃ ws a b, Substituted p ts vs ws a ∧ substitute p n us ws = .ok b ∧ out = a ++ b := by
  induction ts generalizing vs out with
  | nil => exact ⟨vs, [], out, .nil, h, rfl⟩
  | cons t ts ih =>
    by_cases ht : t = .placeholder
    · subst ht
      cases vs with
      | nil => cases h
      | cons v vs =>
        rw [List.cons_append, substitute, Outcome.bind_eq_ok_iff] at h
        obtain ⟨written, quoted, h⟩ := h
        obtain ⟨rest, behind, h⟩ := Outcome.bind_eq_ok_iff.1 h
        obtain rfl := Outcome.pure_eq_ok_iff.1 h
        obtain ⟨ws, a, b, first, second, rfl⟩ := ih behind
        exact ⟨ws, written.toList ++ a, b, .value quoted first, second, by simp⟩
    · rw [List.cons_append, substitute_cons_of_ne ht, Outcome.map_eq_ok_iff] at h
      obtain ⟨rest, behind, rfl⟩ := h
      obtain ⟨ws, a, b, first, second, rfl⟩ := ih behind
      exact ⟨ws, t.chars ++ a, b, .kept ht first, second, by simp⟩

theorem eq_of_not_mem (h : Substituted p ts vs ws out) (none : .placeholder ∉ ts) :
    ws = vs ∧ out = ts.flatMap Token.chars := by
  induction h with
  | nil => exact ⟨rfl, rfl⟩
  | value => simp at none
  | kept other _ ih =>
    rw [List.mem_cons, not_or] at none
    obtain ⟨rfl, rfl⟩ := ih none.2
    exact ⟨rfl, rfl⟩

end Substituted

theorem quotedTail_of_shortBody? {q : Char} {s b r : List Char}
    (h : Lexeme.shortBody? q s = some (b, r)) : quotedTail q s = some (b ++ [q], r) := by
  fun_induction Lexeme.shortBody? q s generalizing b with
  | case1 => cases h
  | case2 s =>
    cases h
    rw [quotedTail.eq_def]
    exact if_pos rfl
  | case3 => cases h
  | case4 => cases h
  | case5 => cases h
  | case6 d t line closing _ ih =>
    obtain ⟨u, rfl, inner⟩ := behind_eq_some_iff.1 h
    obtain ⟨v, rfl, read⟩ := behind_eq_some_iff.1 inner
    have same_line : d ≠ '\n' := by
      rintro rfl
      exact absurd rfl line
    simp [quotedTail, closing, same_line, ih read]
  | case7 c s closing line backslash ih =>
    obtain ⟨u, rfl, read⟩ := behind_eq_some_iff.1 h
    have same_line : c ≠ '\n' := by
      rintro rfl
      exact absurd rfl line
    rw [quotedTail.eq_def]
    simp [closing, same_line, backslash, ih read]

theorem quotedTail_of_fitsLine {q : Char} {b : List Char} (h : Lexeme.fitsLine q b = true)
    (r : List Char) : quotedTail q (b ++ q :: r) = some (b ++ [q], r) := by
  fun_induction Lexeme.fitsLine q b with
  | case1 =>
    rw [List.nil_append, quotedTail.eq_def]
    exact if_pos rfl
  | case2 => cases h
  | case3 => cases h
  | case4 d t apart ih =>
    rw [Bool.and_eq_true, decide_eq_true_eq] at h
    rw [Bool.or_eq_true, decide_eq_true_eq, decide_eq_true_eq, not_or] at apart
    simp [quotedTail, apart.1, h.1, ih h.2]
  | case5 c s apart backslash ih =>
    rw [Bool.or_eq_true, decide_eq_true_eq, decide_eq_true_eq, not_or] at apart
    rw [List.cons_append, quotedTail.eq_def]
    simp [apart.1, apart.2, backslash, ih h]

theorem iriTail_of_body {b : List Char} (h : b.all SparqlClient.isIriChar = true) (r : List Char) :
    iriTail (b ++ '>' :: r) = some (b ++ ['>'], r) := by
  induction b with
  | nil => simp [iriTail]
  | cons c b ih =>
    rw [List.all_cons, Bool.and_eq_true] at h
    have closing : c ≠ '>' := by
      rintro rfl
      exact absurd h.1 (by decide)
    simp [iriTail, closing, h.1, ih h.2]

theorem isIriChar_of_visible {c : Char} (own : SparqlClient.isIriChar c = true)
    (visible : 32 < c.toNat ∨ isBlank c = true) : Rdf.isIriChar c = true := by
  have blank : isBlank c = false := by
    cases blank : isBlank c with
    | false => rfl
    | true => simp [SparqlClient.isIriChar, blank] at own
  have space : c ≠ ' ' := by
    rintro rfl
    exact absurd blank (by decide)
  have code : 32 < c.toNat := visible.resolve_right (by simp [blank])
  simp only [SparqlClient.isIriChar, blank] at own
  simp_all [Rdf.isIriChar, Node.isIriBreaker]

theorem iriTail_eq_none {s : List Char} (unread : Lexeme.iriBody? s = none)
    (plain : (s.takeWhile (· ≠ '>')).all (fun c => 32 < c.toNat || isBlank c) = true) :
    iriTail s = none := by
  induction s with
  | nil => rfl
  | cons c s ih =>
    rw [Lexeme.iriBody?] at unread
    rw [iriTail]
    by_cases closing : c = '>'
    · simp [closing] at unread
    · rw [List.takeWhile_cons_of_pos (by simpa using closing), List.all_cons, Bool.and_eq_true]
        at plain
      rw [if_neg closing] at unread ⊢
      by_cases own : SparqlClient.isIriChar c = true
      · have inside : Rdf.isIriChar c = true := isIriChar_of_visible own (by simpa using plain.1)
        rw [if_pos (by simp [inside])] at unread
        rw [if_pos own, ih (Option.map_eq_none_iff.1 unread) plain.2]
        rfl
      · rw [if_neg own]

theorem quotedTail_newline {q : Char} (quote : Lexeme.isQuote q = true) (s : List Char) :
    quotedTail q ('\n' :: s) = none := by
  have other : '\n' ≠ q := by
    rintro rfl
    exact absurd quote (by decide)
  rw [quotedTail.eq_def]
  simp [other]

theorem quotedTail_of_endsLine {q : Char} {r : List Char} (quote : Lexeme.isQuote q = true)
    (ends : Lexeme.endsLine r = true) :
    quotedTail q r = none ∧ quotedTail q ('\\' :: r) = none := by
  have backslash : '\\' ≠ q := by
    rintro rfl
    exact absurd quote (by decide)
  have return_ : '\r' ≠ q := by
    rintro rfl
    exact absurd quote (by decide)
  unfold Lexeme.endsLine at ends
  split at ends
  · simp [quotedTail, backslash]
  · simp [quotedTail_newline quote, quotedTail, backslash]
  · rename_i s
    have after := quotedTail_newline quote s
    refine ⟨?_, ?_⟩
    · rw [quotedTail.eq_def]
      simp [return_, after]
    · simp [quotedTail, backslash, after]
  · cases ends

theorem quotedTail_append_eq_none {q : Char} {s r : List Char} (quote : Lexeme.isQuote q = true)
    (unclosed : quotedTail q s = none) (ends : Lexeme.endsLine r = true) :
    quotedTail q (s ++ r) = none := by
  have behind := quotedTail_of_endsLine quote ends
  fun_induction quotedTail q s with
  | case1 => exact behind.1
  | case2 => cases unclosed
  | case3 s => exact quotedTail_newline quote (s ++ r)
  | case4 => exact behind.2
  | case5 t closing => simp [quotedTail, closing]
  | case6 d t closing line same_line ih =>
    simp [quotedTail, closing, line, ih (Option.map_eq_none_iff.1 unclosed)]
  | case7 c s closing line backslash ih =>
    rw [List.cons_append, quotedTail.eq_def]
    simp [closing, line, backslash, ih (Option.map_eq_none_iff.1 unclosed)]

theorem isLooseQuote_glue (a b : List Char) : (glue a b).1.isLooseQuote = false := by
  unfold glue
  split
  · split <;> rfl
  · rfl

theorem next_quote {c : Char} (quote : Lexeme.isQuote c = true) (s : List Char) :
    next c s = match quotedTail c s with
      | some (a, b) => (.quoted (c :: a), b)
      | none => (.other c, s) := by
  rw [next]
  exact if_pos quote

theorem next_of_isLooseQuote {c : Char} {s : List Char}
    (loose : (next c s).1.isLooseQuote = true) :
    Lexeme.isQuote c = true ∧ quotedTail c s = none ∧ next c s = (.other c, s) := by
  have quote : Lexeme.isQuote c = true := by
    by_contra other
    unfold next at loose
    rw [Lexeme.isQuote] at other
    rw [if_neg other] at loose
    split at loose
    · split at loose
      · rw [isLooseQuote_glue] at loose
        cases loose
      · exact other loose
    · split at loose
      · cases loose
      · exact other loose
  rw [next_quote quote] at loose ⊢
  cases tail : quotedTail c s with
  | none => exact ⟨quote, rfl, rfl⟩
  | some x =>
    rw [tail] at loose
    cases loose

/-- A text whose quotes are closed, or closed by nothing that follows, is scanned on its own. -/
theorem tokens_append_of_unclosed {s b : List Char} (hb : Breaks b)
    (closed : ∀ t ∈ tokens s, t.isLooseQuote = true →
      ∀ q u, Lexeme.isQuote q = true → quotedTail q u = none → quotedTail q (u ++ b) = none) :
    tokens (s ++ b) = tokens s ++ tokens b := by
  fun_induction tokens s with
  | case1 => rfl
  | case2 c s ih =>
    rw [List.forall_mem_cons] at closed
    cases loose : (next c s).1.isLooseQuote with
    | false =>
      generalize hx : next c s = x at ih closed loose ⊢
      obtain ⟨t, r⟩ := x
      obtain ⟨s', whole, token⟩ := next_congr hx loose (hb.alike_append r)
      rw [← List.append_assoc, chars_append_snd_next hx, List.cons_append,
        List.cons_inj_right] at whole
      rw [List.cons_append, tokens, ← whole, token, List.cons_append, ← ih closed.2]
    | true =>
      obtain ⟨quote, unclosed, alone⟩ := next_of_isLooseQuote loose
      have still := closed.1 loose c s quote unclosed
      have same : next c (s ++ b) = (.other c, s ++ b) := by rw [next_quote quote, still]
      rw [alone] at ih closed ⊢
      rw [List.cons_append, tokens, same, List.cons_append, ← ih closed.2]

theorem mem_of_isLooseQuote {s : List Char} {t : Token} (h : t ∈ tokens s)
    (loose : t.isLooseQuote = true) : s.any Lexeme.isQuote = true := by
  cases t with
  | other c =>
    have member : c ∈ (tokens s).flatMap Token.chars :=
      List.mem_flatMap.2 ⟨_, h, List.mem_singleton_self c⟩
    rw [flatMap_chars_tokens] at member
    exact List.any_eq_true.2 ⟨c, member, loose⟩
  | _ => cases loose

theorem isInert_of_isVariableChar {name : List Char} (word : ∀ c ∈ name, isVariableChar c = true) :
    isInert name = true :=
  isInert_of_class word (by decide) (by decide) (by decide) (by decide)

theorem isInert_marked {mark : Char} {name : List Char} (own : isSigil mark = true)
    (marked : mark = '?' → name.head?.any isAsciiWord = true)
    (word : ∀ c ∈ name, isVariableChar c = true) : isInert (mark :: name) = true := by
  have inert := isInert_of_isVariableChar word
  rw [isSigil, Bool.or_eq_true, decide_eq_true_eq, decide_eq_true_eq] at own
  rcases own with rfl | rfl
  · simpa [isInert, inert] using marked rfl
  · simp [isInert, inert]

theorem tokens_long {q : Char} {body : List Char} (quote : Lexeme.isQuote q = true)
    (fits : Lexeme.fitsLine q body = true) (r : List Char) :
    tokens (q :: q :: q :: (body ++ q :: q :: q :: r)) =
      .quoted [q, q] :: .quoted (q :: (body ++ [q])) :: .quoted [q, q] :: tokens r := by
  have pair (s : List Char) : tokens (q :: q :: s) = .quoted [q, q] :: tokens s := by
    have closing : quotedTail q (q :: s) = some ([q], s) := by
      rw [quotedTail.eq_def]
      exact if_pos rfl
    rw [tokens, next_quote quote, closing]
  have line : tokens (q :: (body ++ q :: q :: q :: r)) =
      .quoted (q :: (body ++ [q])) :: tokens (q :: q :: r) := by
    rw [tokens, next_quote quote, quotedTail_of_fitsLine fits]
  rw [pair, line, pair]

theorem breaks_of_isLineEnd {r : List Char} (ending : ∀ c ∈ r.head?, isLineEnd c = true) :
    Breaks r := by
  cases r with
  | nil => exact .refl []
  | cons c r =>
    have line := ending c rfl
    rw [isLineEnd, Bool.or_eq_true, decide_eq_true_eq, decide_eq_true_eq] at line
    rcases line with rfl | rfl
    · exact breaks_of_isStop (s := ['\n']) (by decide) r
    · exact breaks_of_isStop (s := ['\r']) (by decide) r

theorem tokens_comment {body r : List Char}
    (plain : (!body.any Lexeme.isQuote || Lexeme.endsLine r) = true)
    (ending : ∀ c ∈ r.head?, isLineEnd c = true) :
    tokens ('#' :: (body ++ r)) = tokens ('#' :: body) ++ tokens r := by
  refine tokens_append_of_unclosed (s := '#' :: body) (breaks_of_isLineEnd ending) ?_
  intro t member loose q u quote unclosed
  have quoted := mem_of_isLooseQuote member loose
  rw [List.any_cons, show Lexeme.isQuote '#' = false by decide, Bool.false_or] at quoted
  rw [quoted] at plain
  exact quotedTail_append_eq_none quote unclosed plain

theorem standsAlone_of_startsName {s : List Char} (h : Lexeme.startsName s = false) :
    standsAlone s = true := by
  cases s with
  | nil => rfl
  | cons c s =>
    rw [standsAlone]
    cases word : isAsciiWord c with
    | false => rfl
    | true =>
      rw [Lexeme.startsName, isLabelStart_of_isAsciiWord word] at h
      cases h

theorem next_single {c : Char} {s : List Char} (quote : Lexeme.isQuote c = false)
    (bracket : c = '<' → iriTail s = none) :
    next c s = if c = '?' && standsAlone s then (.placeholder, s) else (.other c, s) := by
  rw [next, if_neg (by simpa [Lexeme.isQuote] using quote)]
  by_cases opening : c = '<'
  · rw [if_pos opening, bracket opening]
    simp [opening]
  · rw [if_neg opening]

theorem tokens_escaped {d : Char} (quote : Lexeme.isQuote d = false) (bracket : d ≠ '<')
    (r : List Char) : ∃ t : Token, t.chars = [d] ∧
      tokens ('\\' :: d :: r) = .other '\\' :: t :: tokens r := by
  have outer : next '\\' (d :: r) = (.other '\\', d :: r) := by
    rw [next_single (by decide) fun opening => absurd opening (by decide)]
    rfl
  have inner := next_single (s := r) quote fun opening => absurd opening bracket
  rw [tokens, outer, tokens, inner]
  split
  · rename_i mark
    rw [Bool.and_eq_true, decide_eq_true_eq] at mark
    exact ⟨.placeholder, by rw [mark.1]; rfl, rfl⟩
  · exact ⟨.other d, rfl, rfl⟩

structure Lexeme.Scanned (l : Lexeme) (ts : List Token) : Prop where
  whole : ts.flatMap Token.chars = l.chars
  kept : l.isKept = true → .placeholder ∉ ts
  asks : l = .sign '?' → ts = [.placeholder]

def Lexeme.Scans (l : Lexeme) (s r : List Char) : Prop :=
  ∃ ts, l.Scanned ts ∧ tokens s = ts ++ tokens r

theorem scans_of_isKept {l : Lexeme} {s r : List Char} (ts : List Token)
    (whole : ts.flatMap Token.chars = l.chars) (none : .placeholder ∉ ts) (own : l.isKept = true)
    (scan : tokens s = ts ++ tokens r) : l.Scans s r := by
  refine ⟨ts, ⟨whole, fun _ => none, ?_⟩, scan⟩
  rintro rfl
  cases own

theorem scans_of_loose {l : Lexeme} {s r : List Char} (ts : List Token)
    (whole : ts.flatMap Token.chars = l.chars) (loose : l.isKept = false) (other : l ≠ .sign '?')
    (scan : tokens s = ts ++ tokens r) : l.Scans s r := by
  refine ⟨ts, ⟨whole, fun own => ?_, fun same => absurd same other⟩, scan⟩
  rw [loose] at own
  cases own

theorem scans_sign {c : Char} {s : List Char} (quote : Lexeme.isQuote c = false)
    (bracket : c = '<' → iriTail s = none) (mark : c = '?' → standsAlone s = true) :
    (Lexeme.sign c).Scans (c :: s) s := by
  have single := next_single quote bracket
  by_cases question : c = '?'
  · subst question
    rw [if_pos (by simp [mark rfl])] at single
    refine ⟨[.placeholder], ⟨rfl, fun own => (by cases own), fun _ => rfl⟩, ?_⟩
    rw [tokens, single]
    rfl
  · rw [if_neg (by simp [question])] at single
    refine scans_of_isKept [.other c] rfl (by simp) (by simpa [Lexeme.isKept]) ?_
    rw [tokens, single]
    rfl

theorem scans_variable {mark : Char} {name r : List Char} (own : isSigil mark = true)
    (plain : (Lexeme.variable mark name).isPlain r = true)
    (word : ∀ c ∈ name, isVariableChar c = true) :
    (Lexeme.variable mark name).Scans (mark :: name ++ r) r := by
  have inert : isInert (mark :: name) = true := by
    refine isInert_marked own (fun question => ?_) word
    simpa [Lexeme.isPlain, question] using plain
  refine scans_of_isKept ((mark :: name).map .other) ?_ (by simp) rfl
    (tokens_append_of_isInert inert r)
  rw [List.flatMap_map]
  exact List.flatMap_singleton' _

theorem scans_of_reads {c : Char} {s r : List Char} {l : Lexeme} (read : l.Reads c s r)
    (plain : l.isPlain r = true) (other : l.isIri = false) : l.Scans (c :: s) r := by
  cases read with
  | @long _ _ b _ quote body =>
    rw [← Lexeme.longBody?_append body]
    refine scans_of_isKept [.quoted [c, c], .quoted (c :: (b ++ [c])), .quoted [c, c]]
      (by simp [Token.chars, Lexeme.chars]) (by simp) rfl ?_
    simpa using tokens_long quote plain r
  | @short _ _ b _ quote body =>
    refine scans_of_isKept [.quoted (c :: (b ++ [c]))]
      (by simp [Token.chars, Lexeme.chars]) (by simp) rfl ?_
    rw [tokens, next_quote quote, quotedTail_of_shortBody? body]
    rfl
  | iri => cases other
  | bracket unread =>
    refine scans_sign (by decide) (fun _ => iriTail_eq_none unread ?_) fun mark => by cases mark
    simpa [Lexeme.isPlain] using plain
  | comment s =>
    refine scans_of_loose (tokens ('#' :: _)) (flatMap_chars_tokens _) rfl (by simp) ?_
    rw [← tokens_comment plain fun d first => ?_, List.takeWhile_append_dropWhile]
    simpa using stop_of_dropWhile s d first
  | escaped d =>
    rw [Lexeme.isPlain, Bool.and_eq_true, Bool.not_eq_true', decide_eq_true_eq] at plain
    obtain ⟨t, written, scan⟩ := tokens_escaped plain.1 plain.2 r
    refine scans_of_loose [.other '\\', t] ?_ rfl (by simp) scan
    rw [List.flatMap_cons, List.flatMap_cons, List.flatMap_nil, written]
    rfl
  | named mark =>
    rw [← List.takeWhile_append_dropWhile (p := isVariableChar) (l := s)]
    simpa using scans_variable mark plain fun d => List.mem_takeWhile_imp
  | sign quote bracket unnamed =>
    refine scans_sign quote (fun opening => absurd opening bracket) ?_
    rintro rfl
    exact standsAlone_of_startsName (by simpa [isSigil] using unnamed)

theorem tokens_iri {body : List Char} (plain : body.all SparqlClient.isIriChar = true)
    (r : List Char) : tokens ('<' :: (body ++ '>' :: r)) =
      (glue ('<' :: (body ++ ['>'])) r).1 :: tokens (glue ('<' :: (body ++ ['>'])) r).2 := by
  rw [tokens, next, if_neg (by decide), if_pos rfl, iriTail_of_body plain]

def gluedTokens : List Char → List Token
  | '?' :: s => if standsAlone s then .other '?' :: tokens s else tokens ('?' :: s)
  | s => tokens s

theorem gluedTokens_mark (s : List Char) : gluedTokens ('?' :: s) = .other '?' :: tokens s := by
  rw [gluedTokens]
  split
  · rfl
  · rename_i joined
    rw [tokens, next_single rfl fun same => absurd same (by decide), if_neg (by simp [joined])]

theorem gluedTokens_of_ne {c : Char} {s : List Char} (other : c ≠ '?') :
    gluedTokens (c :: s) = tokens (c :: s) := by
  unfold gluedTokens
  split
  · rename_i same
    exact absurd (List.cons.inj same).1 other
  · rfl

theorem glue_cases (a r : List Char) :
    (∃ s, glue a r = (.iri (a ++ ['?']), s) ∧ gluedTokens r = .other '?' :: tokens s) ∨
      (glue a r = (.iri a, r) ∧ gluedTokens r = tokens r) := by
  unfold glue
  split
  · rename_i s
    split
    · rename_i alone
      exact .inl ⟨s, rfl, if_pos alone⟩
    · rename_i joined
      exact .inr ⟨rfl, if_neg joined⟩
  · rename_i other
    refine .inr ⟨rfl, ?_⟩
    cases r with
    | nil => rfl
    | cons c r => exact gluedTokens_of_ne fun same => other r (by rw [same])

theorem gluedTokens_of_reads {c : Char} {s r : List Char} {l : Lexeme} (read : l.Reads c s r)
    (plain : l.isPlain r = true) (other : l ≠ .sign '?') :
    gluedTokens (c :: s) = tokens (c :: s) := by
  cases read with
  | long quote | short quote =>
    refine gluedTokens_of_ne ?_
    rintro rfl
    cases quote
  | iri | bracket | comment | escaped => exact gluedTokens_of_ne (by decide)
  | sign => exact gluedTokens_of_ne fun same => other (congrArg _ same)
  | named =>
    by_cases mark : c = '?'
    · subst mark
      have word : (s.takeWhile isVariableChar).head?.any isAsciiWord = true := by
        simpa [Lexeme.isPlain] using plain
      have apart : standsAlone s = false := by
        cases s with
        | nil => cases word
        | cons d s =>
          rw [List.takeWhile_cons] at word
          split at word
          · simpa [standsAlone] using word
          · cases word
      simp [gluedTokens, apart]
    · exact gluedTokens_of_ne mark

section Substituting

variable {p : Option Prefixes} {n : Nat}

theorem substitute_glue (a r : List Char) (vs : List Value) :
    substitute p n ((glue a r).1 :: tokens (glue a r).2) vs =
      (substitute p n (gluedTokens r) vs).map (a ++ ·) := by
  rcases glue_cases a r with ⟨s, joined, behind⟩ | ⟨apart, behind⟩
  · rw [joined, behind, substitute_cons_of_ne (by simp), substitute_cons_of_ne (by simp)]
    cases substitute p n (tokens s) vs with
    | error => rfl
    | ok rest => exact congrArg Except.ok (List.append_assoc a ['?'] rest)
  · rw [apart, behind, substitute_cons_of_ne (by simp)]
    rfl

theorem Bound.cons {glued : Bool} {c : Char} {s r out : List Char} {l : Lexeme} {ls : List Lexeme}
    {vs : List Value} (read : l.Reads c s r) (plain : l.isPlain r = true)
    (mark : l = .sign '?' → glued = false)
    (later : ∀ vs out, substitute p n (tokens r) vs = .ok out → Bound p false ls vs out)
    (behind : ∀ vs out, substitute p n (gluedTokens r) vs = .ok out → Bound p true ls vs out)
    (h : substitute p n (tokens (c :: s)) vs = .ok out) : Bound p glued (l :: ls) vs out := by
  cases iri : l.isIri with
  | true =>
    cases read with
    | iri body =>
      rw [← Lexeme.iriBody?_append body] at h
      rw [tokens_iri plain, substitute_glue, Outcome.map_eq_ok_iff] at h
      obtain ⟨rest, filled, rfl⟩ := h
      exact .kept rfl (behind vs rest filled)
    | _ => cases iri
  | false =>
    obtain ⟨ts, scanned, scan⟩ := scans_of_reads read plain iri
    rw [scan] at h
    obtain ⟨ws, a, b, first, second, rfl⟩ := Substituted.of_append h
    have rest := later ws b second
    by_cases question : l = .sign '?'
    · obtain rfl := mark question
      rw [scanned.asks question] at first
      subst question
      cases first with
      | value quoted last =>
        cases last
        rw [List.append_nil]
        exact .value quoted rest
      | kept other => exact absurd rfl other
    · cases own : l.isKept with
      | true =>
        obtain ⟨rfl, rfl⟩ := first.eq_of_not_mem (scanned.kept own)
        rw [scanned.whole]
        refine .kept own ?_
        rw [iri]
        exact rest
      | false => exact .loose own question scanned.whole first rest

theorem Bound.cons_glued {c : Char} {s r out : List Char} {l : Lexeme} {ls : List Lexeme}
    {vs : List Value} (read : l.Reads c s r) (plain : l.isPlain r = true)
    (later : ∀ vs out, substitute p n (tokens r) vs = .ok out → Bound p false ls vs out)
    (behind : ∀ vs out, substitute p n (gluedTokens r) vs = .ok out → Bound p true ls vs out)
    (h : substitute p n (gluedTokens (c :: s)) vs = .ok out) : Bound p true (l :: ls) vs out := by
  by_cases question : l = .sign '?'
  · subst question
    cases read with
    | sign _ _ unnamed =>
      have alone := standsAlone_of_startsName (s := s) (by simpa [isSigil] using unnamed)
      rw [gluedTokens, if_pos alone, substitute_cons_of_ne (by simp), Outcome.map_eq_ok_iff] at h
      obtain ⟨rest, filled, rfl⟩ := h
      exact .modifier (later vs rest filled)
  · rw [gluedTokens_of_reads read plain question] at h
    exact .cons read plain (fun same => absurd same question) later behind h

theorem bound_of_lexemes {s : List Char} {ls : List Lexeme} (read : lexemes? s = some ls)
    (plain : arePlain ls = true) :
    (∀ vs out, substitute p n (tokens s) vs = .ok out → Bound p false ls vs out) ∧
      ∀ vs out, substitute p n (gluedTokens s) vs = .ok out → Bound p true ls vs out := by
  fun_induction lexemes? s generalizing ls with
  | case1 =>
    cases read
    have nothing (glued : Bool) (vs : List Value) (out : List Char)
        (h : substitute p n [] vs = .ok out) : Bound p glued [] vs out := by
      obtain rfl := Except.ok.inj h
      exact .nil
    rw [show gluedTokens [] = [] from tokens_nil, tokens_nil]
    exact ⟨nothing false, nothing true⟩
  | case2 => cases read
  | case3 c s l r next ih =>
    obtain ⟨others, behind, rfl⟩ := Option.map_eq_some_iff.1 read
    rw [arePlain, Bool.and_eq_true, flatMap_chars_lexemes behind] at plain
    obtain ⟨later, glued⟩ := ih behind plain.2
    have head := Lexeme.reads_of_next? next
    exact ⟨fun vs out => .cons head plain.1 (fun _ => rfl) later glued,
      fun vs out => .cons_glued head plain.1 later glued⟩

end Substituting

/-- Where the pieces of a query are plain, its strings, IRI references and variables are kept. -/
theorem bound_of_bindValues {p : Option Prefixes} {text bound : String} {vs : List Value}
    {ls : List Lexeme} (read : lexemes? text.toList = some ls) (plain : arePlain ls = true)
    (given : vs ≠ []) (h : bindValues p text vs = .ok bound) :
    Bound p false ls vs bound.toList := by
  rw [bindValues, if_neg (by simpa using given), Outcome.map_eq_ok_iff] at h
  obtain ⟨out, filled, rfl⟩ := h
  rw [String.toList_ofList]
  exact (bound_of_lexemes read plain).1 vs out filled

def manyMarks : String :=
  "?s <urn:p>?/<urn:a?b> ? ; ex:q \"\"\"it's ?\"\"\" # ?\n FILTER( ?n < ? )"

theorem bound_of_bindValues_manyMarks :
    ∃ ls, lexemes? manyMarks.toList = some ls ∧ arePlain ls = true ∧
      bindValues none manyMarks [.text "x", .int 1, .int 2] =
        .ok "?s <urn:p>?/<urn:a?b> 'x' ; ex:q \"\"\"it's ?\"\"\" # 1\n FILTER( ?n < 2 )" ∧
      Bound none false ls [.text "x", .int 1, .int 2]
        "?s <urn:p>?/<urn:a?b> 'x' ; ex:q \"\"\"it's ?\"\"\" # 1\n FILTER( ?n < 2 )".toList := by
  have read : (lexemes? manyMarks.toList).map arePlain = some true := by decide +kernel
  obtain ⟨ls, pieces, plain⟩ := Option.map_eq_some_iff.1 read
  have bound : bindValues none manyMarks [.text "x", .int 1, .int 2] =
      .ok "?s <urn:p>?/<urn:a?b> 'x' ; ex:q \"\"\"it's ?\"\"\" # 1\n FILTER( ?n < 2 )" := by
    decide +kernel
  exact ⟨ls, pieces, plain, bound, bound_of_bindValues pieces plain (by simp) bound⟩

/-- A string over two lines, a variable that begins with a letter beyond ASCII and an IRI reference
with a blank beyond ASCII: the question mark in each of them gets a value. -/
theorem exists_unkept :
    Lexeme.long '\'' "is\nthis ? one".toList ∈
        (lexemes? "SELECT * WHERE \x7b ?s ?p '''is\nthis ? one''' \x7d".toList).getD [] ∧
      bindValues none "SELECT * WHERE \x7b ?s ?p '''is\nthis ? one''' \x7d" [.text "x"] =
        .ok "SELECT * WHERE \x7b ?s ?p '''is\nthis 'x' one''' \x7d" ∧
    Lexeme.variable '?' ['é'] ∈
        (lexemes? "SELECT * WHERE \x7b ?s ?p ?é \x7d".toList).getD [] ∧
      bindValues none "SELECT * WHERE \x7b ?s ?p ?é \x7d" [.text "x"] =
        .ok "SELECT * WHERE \x7b ?s ?p 'x'é \x7d" ∧
    Lexeme.iri "urn:a\u00A0?".toList ∈
        (lexemes? "SELECT * WHERE \x7b ?s ?p <urn:a\u00A0?> \x7d".toList).getD [] ∧
      bindValues none "SELECT * WHERE \x7b ?s ?p <urn:a\u00A0?> \x7d" [.text "x"] =
        .ok "SELECT * WHERE \x7b ?s ?p <urn:a\u00A0'x'> \x7d" := by
  decide +kernel

end SparqlClient
