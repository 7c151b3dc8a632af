import SparqlClient.Proofs.Binding.Kept

/-! Values bound by name. The markers that have a value become placeholders between blanks, and the
placeholders of the text that this gives are bound one after the other. Main statement: where a
text asks for no value by itself, both steps together put the value of its name, between blanks, in
the place of each marker, and change nothing else. The second scanner finds the new placeholders
and no others, because a marker that is exchanged neither opens nor closes a string or an IRI
reference. -/

namespace SparqlClient

open Text Shape Token

/-- Behind the character `before` a text begins with a colon and a name, as far as it goes. -/
structure IsMarker (before : Option Char) (s name rest : List Char) : Prop where
  whole : s = ':' :: (name ++ rest)
  free : ∀ c ∈ before, isWord c = false ∧ c ≠ ':' ∧ c ≠ '?' ∧ c ≠ '$'
  start : ∃ c t, name = c :: t ∧ isLetterOrLine c = true
  word : ∀ c ∈ name, isWord c = true
  stop : ∀ c ∈ rest.head?, isWord c = false

/-- The third text is the first with what `write` gives for its value in the place of each marker
that has one, outside of complete strings and IRI references; the values are listed. -/
inductive Replaced (write : Value → Option (List Char)) (values : Entries) :
    Option Char → List Char → List Value → List Char → Prop
  | nil {before : Option Char} : Replaced write values before [] [] []
  | string {before : Option Char} {q : Char} {s a b out : List Char} {vs : List Value}
      (quote : Lexeme.isQuote q = true) (complete : quotedTail q s = some (a, b))
      (rest : Replaced write values (some q) b vs out) :
      Replaced write values before (q :: s) vs (q :: (a ++ out))
  | reference {before : Option Char} {s a b out : List Char} {vs : List Value}
      (complete : iriTail s = some (a, b)) (rest : Replaced write values (some '>') b vs out) :
      Replaced write values before ('<' :: s) vs ('<' :: (a ++ out))
  | value {before : Option Char} {s name b written out : List Char} {v : Value} {vs : List Value}
      (marker : IsMarker before s name b) (given : values.get? (String.ofList name) = some v)
      (quoted : write v = some written) (rest : Replaced write values name.getLast? b vs out) :
      Replaced write values before s (v :: vs) (written ++ out)
  | char {before : Option Char} {c : Char} {s out : List Char} {vs : List Value}
      (string : Lexeme.isQuote c = true → quotedTail c s = none)
      (reference : c = '<' → iriTail s = none)
      (unnamed : ∀ name b, IsMarker before (c :: s) name b →
        values.get? (String.ofList name) = none)
      (rest : Replaced write values (some c) s vs out) :
      Replaced write values before (c :: s) vs (c :: out)

def spacedValue (p : Option Prefixes) (v : Value) : Option (List Char) :=
  (quoteValue p v).toOption.map fun w => ' ' :: (w.toList ++ [' '])

def spacedMark : Value → Option (List Char) := fun _ => some [' ', '?', ' ']

theorem IsMarker.name_eq {before : Option Char} {s name rest name' rest' : List Char}
    (h : IsMarker before s name rest) (k : IsMarker before s name' rest') :
    name' = name ∧ rest' = rest := by
  have same : name' ++ rest' = name ++ rest :=
    (List.cons.inj (k.whole.symm.trans h.whole)).2
  have run := congrArg (List.takeWhile isWord) same
  rw [takeWhile_append_of_stop k.word k.stop, takeWhile_append_of_stop h.word h.stop] at run
  subst run
  exact ⟨rfl, List.append_cancel_left same⟩

theorem IsMarker.head {before : Option Char} {c : Char} {s name rest : List Char}
    (h : IsMarker before (c :: s) name rest) : c = ':' :=
  (List.cons.inj h.whole).1

namespace Replaced

variable {write : Value → Option (List Char)} {values : Entries} {before : Option Char}
  {s out out' : List Char} {vs ws : List Value}

theorem unique (h : Replaced write values before s vs out)
    (k : Replaced write values before s ws out') : ws = vs ∧ out' = out := by
  induction h generalizing ws out' with
  | nil =>
    cases k with
    | nil => exact ⟨rfl, rfl⟩
    | value marker => cases marker.whole
  | string quote complete rest ih =>
    cases k with
    | string quote' complete' rest' =>
      rw [complete] at complete'
      cases complete'
      obtain ⟨rfl, rfl⟩ := ih rest'
      exact ⟨rfl, rfl⟩
    | reference => cases quote
    | value marker =>
      obtain rfl := marker.head
      cases quote
    | char string =>
      rw [string quote] at complete
      cases complete
  | reference complete rest ih =>
    cases k with
    | string quote => cases quote
    | reference complete' rest' =>
      rw [complete] at complete'
      cases complete'
      obtain ⟨rfl, rfl⟩ := ih rest'
      exact ⟨rfl, rfl⟩
    | value marker => cases marker.head
    | char _ reference =>
      rw [reference rfl] at complete
      cases complete
  | value marker given quoted rest ih =>
    cases k with
    | nil => cases marker.whole
    | string quote =>
      obtain rfl := marker.head
      cases quote
    | reference => cases marker.head
    | value marker' given' quoted' rest' =>
      obtain ⟨rfl, rfl⟩ := marker.name_eq marker'
      rw [given] at given'
      cases given'
      rw [quoted] at quoted'
      cases quoted'
      obtain ⟨rfl, rfl⟩ := ih rest'
      exact ⟨rfl, rfl⟩
    | char _ _ unnamed =>
      rw [unnamed _ _ marker] at given
      cases given
  | char string reference unnamed rest ih =>
    cases k with
    | string quote complete =>
      rw [string quote] at complete
      cases complete
    | reference complete =>
      rw [reference rfl] at complete
      cases complete
    | value marker given =>
      rw [unnamed _ _ marker] at given
      cases given
    | char _ _ _ rest' =>
      obtain ⟨rfl, rfl⟩ := ih rest'
      exact ⟨rfl, rfl⟩

theorem of_word {name : List Char} (word : ∀ c ∈ name, isWord c = true)
    (rest : Replaced write values (name.getLast?.or before) s vs out) :
    Replaced write values before (name ++ s) vs (name ++ out) := by
  induction name generalizing before with
  | nil => exact rest
  | cons c name ih =>
    rw [List.forall_mem_cons] at word
    have apart : ∀ d, isWord d = false → c ≠ d := by
      rintro d other rfl
      rw [word.1] at other
      cases other
    have behind : (name.getLast?.or (some c)) = (c :: name).getLast?.or before := by
      rw [List.getLast?_cons]
      cases name.getLast? <;> rfl
    rw [← behind] at rest
    refine .char (fun quote => ?_) (fun opening => absurd opening (apart '<' (by decide)))
      (fun _ _ marker => absurd marker.head (apart ':' (by decide))) (ih word.2 rest)
    rw [Lexeme.isQuote, Bool.or_eq_true, decide_eq_true_eq, decide_eq_true_eq] at quote
    exact absurd quote (not_or.2 ⟨apart '"' (by decide), apart '\'' (by decide)⟩)

end Replaced

namespace NamedToken

inductive Reads (before : Option Char) : NamedToken → Char → List Char → List Char → Prop
  | marker {c : Char} {s name b : List Char} (own : IsMarker before (c :: s) name b) :
      Reads before (.marker name) c s b
  | string {q : Char} {s a b : List Char} (quote : Lexeme.isQuote q = true)
      (complete : quotedTail q s = some (a, b)) : Reads before (.plain (q :: a)) q s b
  | reference {s a b : List Char} (complete : iriTail s = some (a, b)) :
      Reads before (.plain ('<' :: a)) '<' s b
  | char {c : Char} {s : List Char} (string : Lexeme.isQuote c = true → quotedTail c s = none)
      (reference : c = '<' → iriTail s = none)
      (unnamed : ∀ name b, ¬IsMarker before (c :: s) name b) : Reads before (.plain [c]) c s s

theorem isWord_of_isLetterOrLine {c : Char} (h : isLetterOrLine c = true) : isWord c = true := by
  rw [isLetterOrLine, Bool.or_eq_true, decide_eq_true_eq] at h
  rcases h with letter | rfl
  · exact isWord_of_isAsciiWord (by simp [isAsciiWord, Char.isAlphanum, letter])
  · decide

theorem mayFollow_iff {before : Option Char} : mayFollow before = true ↔
    ∀ c ∈ before, isWord c = false ∧ c ≠ ':' ∧ c ≠ '?' ∧ c ≠ '$' := by
  cases before with
  | none => simp [mayFollow]
  | some c => simp [mayFollow, and_assoc]

theorem reads_plainNext {before : Option Char} {c : Char} {s : List Char}
    (unnamed : ∀ name b, ¬IsMarker before (c :: s) name b) :
    Reads before (plainNext c s).1 c s (plainNext c s).2 := by
  unfold plainNext
  simp only
  split
  · rename_i a b tail
    split at tail
    · rename_i quote
      exact .string quote tail
    · split at tail
      · rename_i opening
        subst opening
        exact .reference tail
      · cases tail
  · rename_i tail
    refine .char (fun quote => ?_) (fun opening => ?_) unnamed
    · rw [Lexeme.isQuote] at quote
      rwa [if_pos quote] at tail
    · subst opening
      exact tail

theorem reads_next (before : Option Char) (c : Char) (s : List Char) :
    Reads before (next before c s).1 c s (next before c s).2 := by
  unfold next
  split
  · rename_i d t
    split
    · rename_i marker
      simp only [Bool.and_eq_true, decide_eq_true_eq] at marker
      obtain ⟨⟨rfl, free⟩, start⟩ := marker
      refine .marker ⟨?_, mayFollow_iff.1 free, ⟨d, _, rfl, start⟩, ?_, ?_⟩
      · rw [List.cons_append, List.takeWhile_append_dropWhile]
      · exact List.forall_mem_cons.2 ⟨isWord_of_isLetterOrLine start,
          fun x => List.mem_takeWhile_imp⟩
      · exact stop_of_dropWhile t
    · rename_i marker
      refine reads_plainNext fun name b own => marker ?_
      obtain ⟨x, u, rfl, start⟩ := own.start
      obtain ⟨rfl, rfl, rfl⟩ : c = ':' ∧ d = x ∧ t = u ++ b := by simpa using own.whole
      simp [mayFollow_iff.2 own.free, start]
  · exact reads_plainNext fun name b own => by
      obtain ⟨x, u, rfl, start⟩ := own.start
      cases own.whole

end NamedToken

theorem replaced_namedTokens (values : Entries) (before : Option Char) (s : List Char) :
    Replaced spacedMark values before s
      ((namedTokens before s).flatMap fun t => (nameMarker values t).2)
      ((namedTokens before s).flatMap fun t => (nameMarker values t).1) := by
  fun_induction namedTokens before s with
  | case1 => exact .nil
  | case2 before c s ih =>
    have read := NamedToken.reads_next before c s
    generalize NamedToken.next before c s = x at ih read ⊢
    obtain ⟨t, r⟩ := x
    simp only at ih read ⊢
    rw [List.flatMap_cons, List.flatMap_cons]
    generalize namedTokens (t.last before) r = ts at ih ⊢
    cases read with
    | @marker _ _ name _ own =>
      have last : (NamedToken.marker name).last before = name.getLast? := by
        obtain ⟨d, t, rfl, -⟩ := own.start
        rw [NamedToken.last, NamedToken.chars, List.getLast?_cons_cons, List.getLast?_cons]
        rfl
      rw [last] at ih
      rw [nameMarker]
      split
      · rename_i v given
        exact .value own given rfl ih
      · rename_i missing
        obtain ⟨rfl, rfl⟩ := List.cons.inj own.whole
        have run : name.getLast?.or (some ':') = name.getLast? := by
          obtain ⟨d, t, rfl, -⟩ := own.start
          rw [List.getLast?_cons]
          rfl
        rw [← run] at ih
        refine .char (fun quote => by cases quote) (fun opening => absurd opening (by decide))
          (fun name' b' other => ?_) (ih.of_word own.word)
        obtain ⟨rfl, -⟩ := own.name_eq other
        exact missing
    | string quote complete =>
      rw [NamedToken.last, NamedToken.chars, List.getLast?_cons, getLast?_quotedTail complete]
        at ih
      exact .string quote complete ih
    | reference complete =>
      rw [NamedToken.last, NamedToken.chars, List.getLast?_cons, getLast?_iriTail complete] at ih
      exact .reference complete ih
    | char string reference unnamed =>
      exact .char string reference (fun name b own => absurd own (unnamed name b)) ih

/-! What an exchange leaves as it was. -/

/-- Text in which a quote closes no string, where `escaped` tells whether a backslash stands right
before it. -/
def isOpen (q : Char) : (escaped : Bool) → List Char → Bool
  | _, [] => true
  | true, c :: s => c = '\n' || isOpen q false s
  | false, c :: s => c ≠ q && (c = '\n' || isOpen q (c = '\\') s)

theorem quotedTail_eq_none_iff {q : Char} {s : List Char} :
    quotedTail q s = none ↔ isOpen q false s = true := by
  fun_induction quotedTail q s with
  | case1 => simp [isOpen]
  | case2 => simp [isOpen]
  | case3 s closing => simp [isOpen, closing]
  | case4 closing => simp [isOpen, closing]
  | case5 t closing => simp [isOpen, closing]
  | case6 d t closing line same_line ih => simp [isOpen, closing, line, ih]
  | case7 c s closing line backslash ih => simp [isOpen, closing, line, backslash, ih]

theorem isOpen_append {q : Char} {b r : List Char}
    (h : ∀ escaped, isOpen q escaped b = true → isOpen q escaped r = true) {escaped : Bool}
    {a : List Char} (front : isOpen q escaped (a ++ b) = true) :
    isOpen q escaped (a ++ r) = true := by
  induction a generalizing escaped with
  | nil => exact h escaped front
  | cons c a ih =>
    cases escaped with
    | true =>
      simp only [List.cons_append, isOpen, Bool.or_eq_true] at front ⊢
      exact front.imp_right ih
    | false =>
      simp only [List.cons_append, isOpen, Bool.and_eq_true, Bool.or_eq_true] at front ⊢
      exact ⟨front.1, front.2.imp_right ih⟩

theorem isOpen_run {q : Char} {escaped : Bool} {a : List Char} (some_char : a ≠ [])
    (plain : ∀ c ∈ a, c ≠ q ∧ c ≠ '\n' ∧ c ≠ '\\') (b : List Char) :
    isOpen q escaped (a ++ b) = isOpen q false b := by
  induction a generalizing escaped with
  | nil => exact absurd rfl some_char
  | cons c a ih =>
    rw [List.forall_mem_cons] at plain
    obtain ⟨⟨closing, line, backslash⟩, others⟩ := plain
    have rest : isOpen q false (a ++ b) = isOpen q false b := by
      cases a with
      | nil => rfl
      | cons d a => exact ih (List.cons_ne_nil d a) others
    cases escaped <;> simp [isOpen, closing, line, backslash, rest]

theorem isOpen_spacedMark {q : Char} (quote : Lexeme.isQuote q = true) (escaped : Bool)
    (b : List Char) : isOpen q escaped ([' ', '?', ' '] ++ b) = isOpen q false b := by
  rw [Lexeme.isQuote, Bool.or_eq_true, decide_eq_true_eq, decide_eq_true_eq] at quote
  refine isOpen_run (List.cons_ne_nil _ _) ?_ b
  rcases quote with rfl | rfl <;> decide

theorem iriTail_append_congr {a b r : List Char} (h : iriTail b = none → iriTail r = none)
    (front : iriTail (a ++ b) = none) : iriTail (a ++ r) = none := by
  induction a with
  | nil => exact h front
  | cons c a ih =>
    rw [List.cons_append, iriTail] at front ⊢
    split at front
    · cases front
    · rename_i closing
      split at front
      · rename_i inside
        rw [if_neg closing, if_pos inside, ih (Option.map_eq_none_iff.1 front)]
        rfl
      · rename_i outside
        rw [if_neg closing, if_neg outside]

namespace IsMarker

variable {before : Option Char} {s name rest : List Char}

theorem word_cons (h : IsMarker before s name rest) :
    ∀ c ∈ ':' :: name, (c = ':' || isWord c) = true :=
  List.forall_mem_cons.2 ⟨rfl, fun c member => by simp [h.word c member]⟩

theorem isInert (h : IsMarker before s name rest) : SparqlClient.isInert (':' :: name) = true :=
  isInert_of_class h.word_cons (by decide) (by decide) (by decide) (by decide)

theorem isOpen_iff (h : IsMarker before s name rest) {q : Char} (quote : Lexeme.isQuote q = true)
    (escaped : Bool) : isOpen q escaped s = isOpen q false rest := by
  rw [h.whole, ← List.cons_append]
  refine isOpen_run (List.cons_ne_nil _ _) (fun c member => ?_) rest
  have own := h.word_cons c member
  have apart : ∀ d, (d = ':' || isWord d) = false → c ≠ d := by
    rintro d other rfl
    rw [own] at other
    cases other
  refine ⟨apart q ?_, apart '\n' (by decide), apart '\\' (by decide)⟩
  rw [Lexeme.isQuote, Bool.or_eq_true, decide_eq_true_eq, decide_eq_true_eq] at quote
  rcases quote with rfl | rfl <;> decide

end IsMarker

namespace Replaced

variable {values : Entries} {before : Option Char} {s out : List Char} {vs : List Value}

theorem isOpen (h : Replaced spacedMark values before s vs out) {q : Char}
    (quote : Lexeme.isQuote q = true) {escaped : Bool}
    (front : SparqlClient.isOpen q escaped s = true) :
    SparqlClient.isOpen q escaped out = true := by
  induction h generalizing escaped with
  | nil => exact front
  | @string _ c _ a _ _ _ _ complete _ ih =>
    rw [← quotedTail_append complete, ← List.cons_append] at front
    exact isOpen_append (a := c :: a) (fun _ => ih) front
  | @reference _ _ a _ _ _ complete _ ih =>
    rw [← iriTail_append complete, ← List.cons_append] at front
    exact isOpen_append (a := '<' :: a) (fun _ => ih) front
  | value marker _ quoted _ ih =>
    cases quoted
    rw [marker.isOpen_iff quote] at front
    rw [isOpen_spacedMark quote]
    exact ih front
  | @char _ c _ _ _ _ _ _ _ ih => exact isOpen_append (a := [c]) (fun _ => ih) front

theorem iriTail_eq_none (h : Replaced spacedMark values before s vs out)
    (front : iriTail s = none) : iriTail out = none := by
  induction h with
  | nil => exact front
  | @string _ c _ a _ _ _ _ complete _ ih =>
    rw [← quotedTail_append complete, ← List.cons_append] at front
    exact iriTail_append_congr (a := c :: a) ih front
  | @reference _ _ a _ _ _ complete _ ih =>
    rw [← iriTail_append complete, ← List.cons_append] at front
    exact iriTail_append_congr (a := '<' :: a) ih front
  | value _ _ quoted =>
    cases quoted
    exact if_neg (by decide)
  | @char _ c _ _ _ _ _ _ _ ih => exact iriTail_append_congr (a := [c]) ih front

theorem standsAlone (h : Replaced spacedMark values before s vs out)
    (joined : Token.standsAlone s = false) : Token.standsAlone out = false := by
  cases h with
  | value marker =>
    rw [marker.whole] at joined
    cases joined
  | _ => exact joined

end Replaced

section Substituting

variable {p : Option Prefixes} {n : Nat}

theorem placeholder_mem_glue {a r : List Char} :
    .placeholder ∈ (glue a r).1 :: tokens (glue a r).2 ↔ .placeholder ∈ gluedTokens r := by
  rcases glue_cases a r with ⟨s, joined, behind⟩ | ⟨apart, behind⟩
  · rw [joined, behind]
    simp
  · rw [apart, behind]
    simp

theorem tokens_string {q : Char} {s a b : List Char} (quote : Lexeme.isQuote q = true)
    (complete : quotedTail q s = some (a, b)) : tokens (q :: s) = .quoted (q :: a) :: tokens b := by
  rw [tokens, next_quote quote, complete]

theorem tokens_reference {s a b : List Char} (complete : iriTail s = some (a, b)) :
    tokens ('<' :: s) = (glue ('<' :: a) b).1 :: tokens (glue ('<' :: a) b).2 := by
  rw [tokens, next, if_neg (by decide), if_pos rfl, complete]

theorem tokens_spacedMark (r : List Char) :
    tokens ([' ', '?', ' '] ++ r) = .other ' ' :: .placeholder :: .other ' ' :: tokens r := by
  have mark : next '?' (' ' :: r) = (.placeholder, ' ' :: r) :=
    (next_single rfl fun opening => absurd opening (by decide)).trans (if_pos rfl)
  rw [List.cons_append, List.cons_append, List.cons_append, List.nil_append,
    tokens_cons_of_isBlank (by decide), tokens, mark, tokens_cons_of_isBlank (by decide)]

theorem tokens_char {c : Char} {s : List Char}
    (string : Lexeme.isQuote c = true → quotedTail c s = none)
    (reference : c = '<' → iriTail s = none) (unasked : (c = '?' && standsAlone s) = false) :
    tokens (c :: s) = .other c :: tokens s := by
  cases quote : Lexeme.isQuote c with
  | true => rw [tokens, next_quote quote, string quote]
  | false => rw [tokens, next_single quote reference, unasked, if_neg Bool.false_ne_true]

theorem unasked_of_not_mem {c : Char} {s : List Char} (none : .placeholder ∉ tokens (c :: s)) :
    (c = '?' && standsAlone s) = false := by
  by_contra asked
  rw [Bool.not_eq_false, Bool.and_eq_true, decide_eq_true_eq] at asked
  obtain ⟨rfl, alone⟩ := asked
  rw [tokens, next_single rfl fun opening => absurd opening (by decide), if_pos (by simp [alone])]
    at none
  exact none (List.mem_cons_self ..)

theorem quotable_of_get? {values : Entries} {name : String} {v : Value}
    (quotable : ∀ e ∈ values, ∃ w, quoteValue p e.2 = .ok w) (given : values.get? name = some v) :
    ∃ w, quoteValue p v = .ok w := by
  obtain ⟨e, found, rfl⟩ := Option.map_eq_some_iff.1 given
  exact quotable e (List.mem_of_find?_eq_some found)

theorem substitute_of_replaced {values : Entries} {before : Option Char} {s marked : List Char}
    {vs : List Value} (h : Replaced spacedMark values before s vs marked)
    (quotable : ∀ e ∈ values, ∃ w, quoteValue p e.2 = .ok w) :
    (.placeholder ∉ tokens s → ∃ out, substitute p n (tokens marked) vs = .ok out ∧
        Replaced (spacedValue p) values before s vs out) ∧
      (.placeholder ∉ gluedTokens s → ∃ out, substitute p n (gluedTokens marked) vs = .ok out ∧
        Replaced (spacedValue p) values before s vs out) := by
  induction h with
  | nil =>
    rw [show gluedTokens [] = [] from tokens_nil, tokens_nil]
    exact ⟨fun _ => ⟨[], rfl, .nil⟩, fun _ => ⟨[], rfl, .nil⟩⟩
  | @string before q s a b marked vs quote complete rest ih =>
    have other : q ≠ '?' := by
      rintro rfl
      cases quote
    rw [gluedTokens_of_ne other, gluedTokens_of_ne other, and_self]
    intro none
    rw [tokens_string quote complete, List.mem_cons, not_or] at none
    obtain ⟨out, filled, replaced⟩ := ih.1 none.2
    refine ⟨q :: (a ++ out), ?_, .string quote complete replaced⟩
    have again := quotedTail_prefix complete marked
    rw [tokens_string quote again, substitute_cons_of_ne (by simp), filled]
    rfl
  | @reference before s a b marked vs complete rest ih =>
    rw [gluedTokens_of_ne (by decide), gluedTokens_of_ne (by decide), and_self]
    intro none
    rw [tokens_reference complete, placeholder_mem_glue] at none
    obtain ⟨out, filled, replaced⟩ := ih.2 none
    refine ⟨'<' :: (a ++ out), ?_, .reference complete replaced⟩
    have again := iriTail_prefix complete marked
    rw [tokens_reference again, substitute_glue, filled]
    rfl
  | @value before s name b written marked v vs marker given quoted rest ih =>
    cases quoted
    have scan : tokens s = (':' :: name).map .other ++ tokens b := by
      rw [marker.whole, ← List.cons_append, tokens_append_of_isInert marker.isInert]
    have single : gluedTokens s = tokens s := by
      rw [marker.whole]
      exact gluedTokens_of_ne (by decide)
    rw [single, List.cons_append, gluedTokens_of_ne (by decide), ← List.cons_append, and_self]
    intro none
    rw [scan, List.mem_append, not_or] at none
    obtain ⟨out, filled, replaced⟩ := ih.1 none.2
    obtain ⟨w, written⟩ := quotable_of_get? quotable given
    refine ⟨' ' :: (w.toList ++ [' ']) ++ out, ?_, .value marker given ?_ replaced⟩
    · rw [tokens_spacedMark, substitute_cons_of_ne (by simp), substitute, written,
        substitute_cons_of_ne (by simp), filled]
      simp [bind, Except.bind, pure, Except.pure, Except.map, Token.chars]
    · rw [spacedValue, written]
      rfl
  | @char before c s marked vs string reference unnamed rest ih =>
    have kept (none : .placeholder ∉ tokens s) :
        ∃ out, substitute p n (.other c :: tokens marked) vs = .ok out ∧
          Replaced (spacedValue p) values before (c :: s) vs out := by
      obtain ⟨out, filled, replaced⟩ := ih.1 none
      refine ⟨c :: out, ?_, .char string reference unnamed replaced⟩
      rw [substitute_cons_of_ne (by simp), filled]
      rfl
    have alone (none : .placeholder ∉ tokens (c :: s)) : ∃ out,
        substitute p n (tokens (c :: marked)) vs = .ok out ∧
          Replaced (spacedValue p) values before (c :: s) vs out := by
      have unasked := unasked_of_not_mem none
      have still : (c = '?' && standsAlone marked) = false := by
        rw [Bool.and_eq_false_iff] at unasked ⊢
        exact unasked.imp_right rest.standsAlone
      rw [tokens_char string reference unasked, List.mem_cons, not_or] at none
      rw [tokens_char (fun quote => quotedTail_eq_none_iff.2
        (rest.isOpen quote (quotedTail_eq_none_iff.1 (string quote))))
        (fun opening => rest.iriTail_eq_none (reference opening)) still]
      exact kept none.2
    refine ⟨alone, ?_⟩
    by_cases mark : c = '?'
    · subst mark
      rw [gluedTokens_mark, gluedTokens_mark, List.mem_cons, not_or]
      exact fun none => kept none.2
    · rw [gluedTokens_of_ne mark, gluedTokens_of_ne mark]
      exact alone

theorem substitute_nil {ts : List Token} {out : List Char} (h : substitute p n ts [] = .ok out) :
    out = ts.flatMap Token.chars := by
  induction ts generalizing out with
  | nil => exact (Except.ok.inj h).symm
  | cons t ts ih =>
    by_cases mark : t = .placeholder
    · subst mark
      cases h
    · rw [substitute_cons_of_ne mark, Outcome.map_eq_ok_iff] at h
      obtain ⟨rest, filled, rfl⟩ := h
      rw [List.flatMap_cons, ih filled]

end Substituting

theorem applyNames_eq (text : String) (values : Entries) : applyNames text values =
    (String.ofList ((namedTokens none text.toList).flatMap fun t => (nameMarker values t).1),
      (namedTokens none text.toList).flatMap fun t => (nameMarker values t).2) := by
  simp [applyNames, List.flatMap_map]

/-- Binding by name puts the value of its name, between blanks, in the place of each marker that has
one, and leaves everything else as it is. -/
theorem replaced_of_names {p : Option Prefixes} {text : String} {values : Entries}
    (unasked : placeholders text.toList = 0)
    (quotable : ∀ e ∈ values, ∃ w, quoteValue p e.2 = .ok w) :
    ∃ marked vs out, positional text (.map values) = .ok (marked, vs) ∧
      bindValues p marked vs = .ok out ∧
      ∀ ws result, Replaced (spacedValue p) values none text.toList ws result ↔
        ws = vs ∧ result = out.toList := by
  have marked := replaced_namedTokens values none text.toList
  rw [positional, applyNames_eq]
  generalize (namedTokens none text.toList).flatMap (fun t => (nameMarker values t).1) = m
    at marked ⊢
  generalize (namedTokens none text.toList).flatMap (fun t => (nameMarker values t).2) = vs
    at marked ⊢
  obtain ⟨out, filled, replaced⟩ := (substitute_of_replaced (n := vs.length) marked quotable).1
    (List.count_eq_zero.1 unasked)
  refine ⟨String.ofList m, vs, String.ofList out, rfl, ?_, fun ws result => ⟨fun other => ?_, ?_⟩⟩
  · rw [bindValues, String.toList_ofList, filled]
    split
    · rename_i empty
      rw [List.isEmpty_iff.1 empty] at filled
      rw [substitute_nil filled, flatMap_chars_tokens]
    · rfl
  · rw [String.toList_ofList]
    exact replaced.unique other
  · rintro ⟨rfl, rfl⟩
    rwa [String.toList_ofList]

/-- A name more than once and one without a value, a marker in a string and one in a reference,
colons behind a word and behind a mark, and a stray quote. -/
def manyMarkers : String :=
  "?s <urn:n:name>? :name ; ex:low ':name' . FILTER(?x=:low||$:low>?y :none) \" :low"

def twoValues : Entries := [(.text "low", .int 1), (.text "name", .text "it's")]

def manyValues : String :=
  "?s <urn:n:name>?  'it\\'s'  ; ex:low ':name' . FILTER(?x= 1 ||$:low>?y :none) \"  1 "

theorem replaced_of_names_manyMarkers : placeholders manyMarkers.toList = 0 ∧
    (∀ e ∈ twoValues, ∃ w, quoteValue none e.2 = .ok w) ∧
    ∃ marked vs, positional manyMarkers (.map twoValues) = .ok (marked, vs) ∧
      bindValues none marked vs = .ok manyValues ∧ vs.length = 3 ∧
      Replaced (spacedValue none) twoValues none manyMarkers.toList vs manyValues.toList := by
  have unasked : placeholders manyMarkers.toList = 0 := by decide +kernel
  have quotable : ∀ e ∈ twoValues, ∃ w, quoteValue none e.2 = .ok w := by
    rw [twoValues, List.forall_mem_cons, List.forall_mem_singleton]
    exact ⟨⟨_, rfl⟩, _, rfl⟩
  obtain ⟨marked, vs, out, given, bound, replaced⟩ := replaced_of_names unasked quotable
  have whole : (positional manyMarkers (.map twoValues) >>= fun x =>
      (bindValues none x.1 x.2).map (·, x.2.length)) = .ok (manyValues, 3) := by decide +kernel
  rw [given] at whole
  obtain ⟨written, same, both⟩ := Outcome.map_eq_ok_iff.1 whole
  obtain ⟨rfl, count⟩ := Prod.mk.inj both
  obtain rfl := Except.ok.inj (bound.symm.trans same)
  exact ⟨unasked, quotable, marked, vs, given, bound, count, (replaced vs _).2 ⟨rfl, rfl⟩⟩

end SparqlClient
