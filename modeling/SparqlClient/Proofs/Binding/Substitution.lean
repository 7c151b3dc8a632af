import SparqlClient.Binding.Value
import SparqlClient.Proofs.Binding.Scan

/-! Texts bound to the placeholders of a query. Each becomes one string token, whose content is the
text, and no other token changes: nothing that a text holds can join what stands around it. -/

namespace SparqlClient

open Text Token

def escapeMeaning? : Char → Option Char
  | 't' => some '\t'
  | 'b' => some '\x08'
  | 'n' => some '\n'
  | 'r' => some '\r'
  | 'f' => some '\x0c'
  | '\\' => some '\\'
  | '"' => some '"'
  | '\'' => some '\''
  | _ => none

/-- What stands between two apostrophes, without its escapes; line ends and apostrophes need one. -/
def unescape : List Char → Option (List Char)
  | [] => some []
  | '\\' :: c :: s => (escapeMeaning? c).bind fun d => (unescape s).map (d :: ·)
  | c :: s =>
    if c = '\\' || c = '\'' || c = '\n' || c = '\r' then none else (unescape s).map (c :: ·)

namespace Token

def content? : Token → Option String
  | .quoted ('\'' :: s) =>
    if s.getLast? = some '\'' then (unescape s.dropLast).map String.ofList else none
  | _ => none

end Token

def spaced (before : Option Char) : List Token → Bool
  | [] => true
  | t :: ts =>
    (t ≠ .placeholder || before.all isBlank) && spaced (t.chars.getLast?.or before) ts

/-- The second tokens are the first with a string for the next text in place of each placeholder. -/
inductive Filled : List Token → List String → List Token → Prop
  | nil (vs : List String) : Filled [] vs []
  | value {t : Token} {v : String} {ts us : List Token} {vs : List String}
      (content : t.content? = some v) (rest : Filled ts vs us) :
      Filled (.placeholder :: ts) (v :: vs) (t :: us)
  | keep {t : Token} {ts us : List Token} {vs : List String}
      (other : t ≠ .placeholder) (rest : Filled ts vs us) : Filled (t :: ts) vs (t :: us)

theorem Filled.placeholder_not_mem {ts us : List Token} {vs : List String}
    (h : Filled ts vs us) : .placeholder ∉ us := by
  induction h with
  | nil => simp
  | value content _ ih =>
    refine List.not_mem_cons_of_ne_of_not_mem ?_ ih
    rintro rfl
    simp [content?] at content
  | keep other _ ih => exact List.not_mem_cons_of_ne_of_not_mem other.symm ih

theorem bindingEscape_cases (c : Char) :
    (∃ d, bindingEscape c = ['\\', d] ∧ d ≠ '\n' ∧ escapeMeaning? d = some c) ∨
      (bindingEscape c = [c] ∧ c ≠ '\\' ∧ c ≠ '\'' ∧ c ≠ '\n' ∧ c ≠ '\r') := by
  unfold bindingEscape
  split
  · exact .inl ⟨'\\', by simp_all [escapeMeaning?]⟩
  · split
    · exact .inl ⟨'\'', by simp_all [escapeMeaning?]⟩
    · split
      · exact .inl ⟨'n', by simp_all [escapeMeaning?]⟩
      · split
        · exact .inl ⟨'r', by simp_all [escapeMeaning?]⟩
        · exact .inr (by simp_all)

theorem quotedTail_escaped (s rest : List Char) :
    quotedTail '\'' (s.flatMap bindingEscape ++ '\'' :: rest) =
      some (s.flatMap bindingEscape ++ ['\''], rest) := by
  induction s with
  | nil =>
    rw [quotedTail.eq_def]
    exact if_pos rfl
  | cons c s ih =>
    rw [List.flatMap_cons, List.append_assoc, List.append_assoc]
    rcases bindingEscape_cases c with ⟨d, escaped, line, -⟩ | ⟨plain, backslash, quote, line, -⟩
    · simp [escaped, quotedTail, line, ih]
    · rw [plain, List.singleton_append, quotedTail.eq_def]
      simp [backslash, quote, line, ih]

theorem unescape_escaped (s : List Char) : unescape (s.flatMap bindingEscape) = some s := by
  induction s with
  | nil => rfl
  | cons c s ih =>
    rw [List.flatMap_cons]
    rcases bindingEscape_cases c with
      ⟨d, escaped, -, meaning⟩ | ⟨plain, backslash, quote, line, return_⟩
    · simp [escaped, unescape, meaning, ih]
    · rw [plain, List.singleton_append, unescape.eq_def]
      simp [backslash, quote, line, return_, ih]

theorem tokens_singleQuoted (v : String) (rest : List Char) :
    tokens ((singleQuoted v).toList ++ rest) = .quoted (singleQuoted v).toList :: tokens rest := by
  have whole : (singleQuoted v).toList ++ rest =
      '\'' :: (v.toList.flatMap bindingEscape ++ '\'' :: rest) := by
    simp [singleQuoted]
  rw [whole, tokens]
  simp [next, quotedTail_escaped, singleQuoted]

theorem content?_singleQuoted (v : String) :
    (Token.quoted (singleQuoted v).toList).content? = some v := by
  simp [singleQuoted, content?, unescape_escaped]

def fillTokens : List Token → List String → List Token
  | .placeholder :: ts, v :: vs => .quoted (singleQuoted v).toList :: fillTokens ts vs
  | t :: ts, vs => t :: fillTokens ts vs
  | [], _ => []

theorem fillTokens_cons_of_ne {t : Token} (ht : t ≠ .placeholder) (ts : List Token)
    (vs : List String) : fillTokens (t :: ts) vs = t :: fillTokens ts vs := by
  cases t with
  | placeholder => exact absurd rfl ht
  | _ => rfl

theorem fillTokens_append_of_not_mem {pre : List Token} (h : .placeholder ∉ pre)
    (ts : List Token) (vs : List String) :
    fillTokens (pre ++ ts) vs = pre ++ fillTokens ts vs := by
  induction pre with
  | nil => rfl
  | cons t pre ih =>
    rw [List.mem_cons, not_or] at h
    rw [List.cons_append, fillTokens_cons_of_ne (Ne.symm h.1), ih h.2, List.cons_append]

theorem filled_fillTokens {ts : List Token} {vs : List String}
    (enough : ts.count .placeholder ≤ vs.length) : Filled ts vs (fillTokens ts vs) := by
  induction ts generalizing vs with
  | nil => exact .nil vs
  | cons t ts ih =>
    by_cases ht : t = .placeholder
    · subst ht
      rw [List.count_cons_self] at enough
      cases vs with
      | nil => simp at enough
      | cons v vs => exact .value (content?_singleQuoted v) (ih (Nat.le_of_succ_le_succ enough))
    · rw [fillTokens_cons_of_ne ht]
      rw [List.count_cons_of_ne ht] at enough
      exact .keep ht (ih enough)

theorem quoteValue_text {p : Option Prefixes} {v : String} (h : passesUnquoted v = false) :
    quoteValue p (.text v) = .ok (singleQuoted v) := by
  simp [quoteValue, quoteText, h]

theorem substitute_cons_of_ne {p : Option Prefixes} {n : Nat} {t : Token} (ht : t ≠ .placeholder)
    (ts : List Token) (vs : List Value) :
    substitute p n (t :: ts) vs = (substitute p n ts vs).map (t.chars ++ ·) := by
  cases t with
  | placeholder => exact absurd rfl ht
  | _ => rfl

theorem substitute_texts {p : Option Prefixes} {n : Nat} {ts : List Token} {vs : List String}
    (quoted : ∀ v ∈ vs, passesUnquoted v = false) (enough : ts.count .placeholder ≤ vs.length) :
    substitute p n ts (vs.map .text) = .ok ((fillTokens ts vs).flatMap Token.chars) := by
  induction ts generalizing vs with
  | nil => rfl
  | cons t ts ih =>
    by_cases ht : t = .placeholder
    · subst ht
      rw [List.count_cons_self] at enough
      cases vs with
      | nil => simp at enough
      | cons v vs =>
        rw [List.forall_mem_cons] at quoted
        simp only [List.map_cons, substitute, quoteValue_text quoted.1,
          ih quoted.2 (Nat.le_of_succ_le_succ enough)]
        rfl
    · rw [List.count_cons_of_ne ht] at enough
      rw [substitute_cons_of_ne ht, ih quoted enough, fillTokens_cons_of_ne ht]
      rfl

theorem substitute_texts_of_fewer {p : Option Prefixes} {n : Nat} {ts : List Token}
    {vs : List String} (fewer : vs.length < ts.count .placeholder) :
    substitute p n ts (vs.map .text) = CompilationError.fail (.tooFewBindings n) := by
  induction ts generalizing vs with
  | nil => simp at fewer
  | cons t ts ih =>
    by_cases ht : t = .placeholder
    · subst ht
      rw [List.count_cons_self] at fewer
      cases vs with
      | nil => rfl
      | cons v vs =>
        have rest := ih (Nat.lt_of_succ_lt_succ fewer)
        rw [List.map_cons, substitute, rest]
        rfl
    · rw [List.count_cons_of_ne ht] at fewer
      rw [substitute_cons_of_ne ht, ih fewer]
      rfl

theorem alike_of_blank {u : List Char} (hu : ∃ c ∈ u.getLast?, isBlank c) (x y : List Char) :
    Alike (u ++ x) (u ++ y) := by
  obtain ⟨c, last, blank⟩ := hu
  have behind := List.mem_of_getLast? last
  refine ⟨?_, ?_, ?_⟩
  · cases h : iriTail u with
    | none => simp [iriTail_append_blank blank behind h]
    | some r =>
      obtain ⟨a, b⟩ := r
      rw [← iriTail_append h, List.append_assoc, List.append_assoc, iriTail_prefix h,
        iriTail_prefix h]
      simp
  · cases u with
    | nil => simp at behind
    | cons d u => rfl
  · match u with
    | [] => simp at behind
    | [d] =>
      obtain rfl : d = c := by simpa using last
      have mark : d ≠ '?' := by rintro rfl; exact absurd blank (by decide)
      simp [hasMark, mark]
    | d :: e :: u =>
      by_cases mark : d = '?'
      · subst mark
        simp [hasMark, standsAlone]
      · simp [hasMark, mark]

theorem spaced_append {before : Option Char} {pre ts : List Token}
    (h : spaced before (pre ++ .placeholder :: ts)) :
    ((pre.flatMap Token.chars).getLast?.or before).all isBlank := by
  induction pre generalizing before with
  | nil =>
    rw [List.nil_append, spaced, Bool.and_eq_true] at h
    simpa using h.1
  | cons t pre ih =>
    rw [List.cons_append, spaced, Bool.and_eq_true] at h
    simpa [List.getLast?_append, Option.or_assoc] using ih h.2

theorem getLast?_quotedTail {q : Char} {s a b : List Char} (h : quotedTail q s = some (a, b)) :
    a.getLast? = some q := by
  fun_induction quotedTail q s generalizing a b with
  | case1 => simp at h
  | case2 s =>
    obtain ⟨rfl, rfl⟩ := Prod.mk.inj (Option.some.inj h)
    rfl
  | case3 => simp at h
  | case4 => simp at h
  | case5 => simp at h
  | case6 d s _ _ _ ih =>
    obtain ⟨⟨x, y⟩, hx, he⟩ := Option.map_eq_some_iff.1 h
    obtain ⟨rfl, rfl⟩ := Prod.mk.inj he
    simp [List.getLast?_cons, ih hx]
  | case7 c s _ _ _ ih =>
    obtain ⟨⟨x, y⟩, hx, he⟩ := Option.map_eq_some_iff.1 h
    obtain ⟨rfl, rfl⟩ := Prod.mk.inj he
    simp [List.getLast?_cons, ih hx]

theorem getLast?_iriTail {s a b : List Char} (h : iriTail s = some (a, b)) :
    a.getLast? = some '>' := by
  induction s generalizing a with
  | nil => simp [iriTail] at h
  | cons c s ih =>
    rw [iriTail] at h
    split at h
    · rename_i hc
      obtain ⟨rfl, rfl⟩ := Prod.mk.inj (Option.some.inj h)
      rw [hc]
      rfl
    · split at h
      · obtain ⟨⟨x, y⟩, hx, he⟩ := Option.map_eq_some_iff.1 h
        obtain ⟨rfl, rfl⟩ := Prod.mk.inj he
        simp [List.getLast?_cons, ih hx]
      · simp at h

theorem eq_other_of_blank {c : Char} {s r : List Char} {t : Token} {before : Option Char}
    (h : next c s = (t, r)) (blank : (t.chars.getLast?.or before).all isBlank) :
    ∃ d, t = .other d ∧ isBlank d := by
  unfold next at h
  split at h
  · rename_i hq
    split at h
    · rename_i a b hx
      obtain ⟨rfl, rfl⟩ := Prod.mk.inj h
      have quote : isBlank c = false := by
        rcases (by simpa using hq : c = '"' ∨ c = '\'') with rfl | rfl <;> decide
      simp [chars, List.getLast?_cons, getLast?_quotedTail hx, quote] at blank
    · obtain ⟨rfl, rfl⟩ := Prod.mk.inj h
      exact ⟨c, rfl, by simpa [chars] using blank⟩
  · split at h
    · split at h
      · rename_i a b hx
        have last : t.chars.getLast? = some '>' ∨ t.chars.getLast? = some '?' := by
          unfold glue at h
          split at h
          · split at h <;> obtain ⟨rfl, rfl⟩ := Prod.mk.inj h <;>
              simp [chars, List.getLast?_cons, List.getLast?_append, getLast?_iriTail hx]
          · obtain ⟨rfl, rfl⟩ := Prod.mk.inj h
            simp [chars, List.getLast?_cons, getLast?_iriTail hx]
        rcases last with last | last
        · rw [last] at blank
          exact absurd (show isBlank '>' from blank) (by decide)
        · rw [last] at blank
          exact absurd (show isBlank '?' from blank) (by decide)
      · obtain ⟨rfl, rfl⟩ := Prod.mk.inj h
        exact ⟨c, rfl, by simpa [chars] using blank⟩
    · split at h
      · obtain ⟨rfl, rfl⟩ := Prod.mk.inj h
        exact absurd (show isBlank '?' from blank) (by decide)
      · obtain ⟨rfl, rfl⟩ := Prod.mk.inj h
        exact ⟨c, rfl, by simpa [chars] using blank⟩

theorem alike_fillTokens {before : Option Char} {r : List Char} (vs : List String)
    (head : (tokens r).head? ≠ some .placeholder) (hs : spaced before (tokens r)) :
    Alike r ((fillTokens (tokens r) vs).flatMap Token.chars) := by
  by_cases h : .placeholder ∈ tokens r
  · obtain ⟨pre, post, split, fresh⟩ := List.eq_append_cons_of_mem h
    have last := spaced_append (split ▸ hs)
    have some_char : pre.flatMap Token.chars ≠ [] := by
      cases r with
      | nil => simp at h
      | cons d r =>
        rw [tokens] at split head
        cases pre with
        | nil => simp [split] at head
        | cons t pre =>
          rw [List.cons_append, List.cons.injEq] at split
          simp [← split.1, chars_next_ne_nil]
    have ends_blank : ∃ c ∈ (pre.flatMap Token.chars).getLast?, isBlank c := by
      obtain ⟨c, hc⟩ := Option.isSome_iff_exists.1 (List.getLast?_isSome.2 some_char)
      rw [hc] at last
      exact ⟨c, hc, by simpa using last⟩
    have whole := flatMap_chars_tokens r
    rw [split, List.flatMap_append] at whole
    rw [split, fillTokens_append_of_not_mem fresh, List.flatMap_append, ← whole]
    exact alike_of_blank ends_blank _ _
  · have same : fillTokens (tokens r) vs = tokens r := by
      simpa [fillTokens] using fillTokens_append_of_not_mem h [] vs
    rw [same, flatMap_chars_tokens]
    exact .refl r

theorem tokens_flatMap_fillTokens {before : Option Char} {s : List Char} {vs : List String}
    (closed : QuotesClosed s) (hs : spaced before (tokens s))
    (enough : placeholders s ≤ vs.length) :
    tokens ((fillTokens (tokens s) vs).flatMap Token.chars) = fillTokens (tokens s) vs := by
  rw [placeholders] at enough
  fun_induction tokens s generalizing before vs with
  | case1 => simp [fillTokens]
  | case2 c s ih =>
    rw [QuotesClosed, tokens, List.forall_mem_cons] at closed
    rw [spaced, Bool.and_eq_true] at hs
    generalize hx : next c s = x at *
    obtain ⟨t, r⟩ := x
    by_cases ht : t = .placeholder
    · subst ht
      rw [List.count_cons_self] at enough
      cases vs with
      | nil => simp at enough
      | cons v vs =>
        rw [fillTokens, List.flatMap_cons]
        rw [show (Token.quoted (singleQuoted v).toList).chars = (singleQuoted v).toList from rfl,
          tokens_singleQuoted, ih closed.2 hs.2 (Nat.le_of_succ_le_succ enough)]
    · rw [List.count_cons_of_ne ht] at enough
      rw [fillTokens_cons_of_ne ht, List.flatMap_cons]
      have rest := ih closed.2 hs.2 enough
      -- in front of a placeholder stands a blank; elsewhere the scanner sees no difference
      by_cases head : (tokens r).head? = some .placeholder
      · have blank : (t.chars.getLast?.or before).all isBlank := by
          obtain ⟨ts, hts⟩ := List.head?_eq_some_iff.1 head
          have placed := hs.2
          rw [hts, spaced, Bool.and_eq_true] at placed
          simpa using placed.1
        obtain ⟨d, rfl, hd⟩ := eq_other_of_blank hx blank
        rw [show (Token.other d).chars = [d] from rfl, List.singleton_append,
          tokens_cons_of_isBlank hd, rest]
      · obtain ⟨s', whole, token⟩ := next_congr hx closed.1 (alike_fillTokens vs head hs.2)
        rw [← whole, tokens, token, rest]

/-- Texts that do not stand for themselves are bound as strings, one token for each placeholder,
and the tokens of the text are otherwise kept; no placeholder is left over or comes in. With too
few texts nothing is bound. What stands behind a placeholder does not matter. -/
theorem bindValues_texts (p : Option Prefixes) (text : String) (vs : List String)
    (given : vs ≠ []) (quoted : ∀ v ∈ vs, passesUnquoted v = false)
    (closed : QuotesClosed text.toList) (apart : spaced none (tokens text.toList)) :
    (placeholders text.toList ≤ vs.length →
      ∃ bound, bindValues p text (vs.map .text) = .ok bound ∧
        Filled (tokens text.toList) vs (tokens bound.toList) ∧
        placeholders bound.toList = 0) ∧
    (vs.length < placeholders text.toList →
      bindValues p text (vs.map .text) = CompilationError.fail (.tooFewBindings vs.length)) := by
  have some_value : (vs.map Value.text).isEmpty = false := by
    cases vs with
    | nil => exact absurd rfl given
    | cons v vs => rfl
  constructor
  · intro enough
    have filled := filled_fillTokens enough
    refine ⟨String.ofList ((fillTokens (tokens text.toList) vs).flatMap chars), ?_, ?_, ?_⟩
    · simp [bindValues, some_value, substitute_texts quoted enough, Except.map]
    · rw [String.toList_ofList, tokens_flatMap_fillTokens closed apart enough]
      exact filled
    · rw [String.toList_ofList, placeholders, tokens_flatMap_fillTokens closed apart enough,
        List.count_eq_zero]
      exact filled.placeholder_not_mem
  · intro fewer
    simp [bindValues, some_value, substitute_texts_of_fewer fewer, CompilationError.fail,
      Except.map]

theorem bindValues_texts_apostrophe :
    placeholders "?s <urn:a?b> ? . FILTER( ?x = ? )".toList = 2 ∧
      ∃ bound, bindValues none "?s <urn:a?b> ? . FILTER( ?x = ? )"
          [.text "' ? <", .text "\\\n\""] = .ok bound ∧
        Filled (tokens "?s <urn:a?b> ? . FILTER( ?x = ? )".toList) ["' ? <", "\\\n\""]
          (tokens bound.toList) ∧
        placeholders bound.toList = 0 :=
  ⟨by decide +kernel,
    (bindValues_texts none "?s <urn:a?b> ? . FILTER( ?x = ? )" ["' ? <", "\\\n\""] (by decide)
      (by decide +kernel) (by unfold QuotesClosed; decide +kernel) (by decide +kernel)).1
      (by decide +kernel)⟩

end SparqlClient
