import SparqlClient.Statement

/-! What stands in front of a statement. A prologue is any sequence of blanks, comment lines and
declarations; the scanner takes all of it off and nothing of a statement behind it, whose first
word is of ASCII letters and opens no declaration. The form of a statement is told by its first
word alone. -/

namespace SparqlClient.Statement

open Text Shape

def declarationWords : List (List Char) :=
  [['p', 'r', 'e', 'f', 'i', 'x'], ['b', 'a', 's', 'e'], ['w', 'i', 't', 'h']]

/-- The words `PREFIX`, `BASE` and `WITH` in any letter case, each with its operands. -/
inductive IsDeclaration : List Char → Prop
  | named {word gap name space iri : List Char}
      (keyword : word.map fold = ['p', 'r', 'e', 'f', 'i', 'x']) (apart : gap ≠ [])
      (blank : ∀ c ∈ gap, isBlank c) (plain : ∀ c ∈ name, isNameChar c)
      (spaced : ∀ c ∈ space, isBlank c) (closed : '>' ∉ iri) :
      IsDeclaration (word ++ (gap ++ (name ++ ':' :: (space ++ '<' :: (iri ++ ['>'])))))
  | based {word gap iri : List Char} (keyword : word.map fold = ['b', 'a', 's', 'e'])
      (apart : gap ≠ []) (blank : ∀ c ∈ gap, isBlank c) (closed : '>' ∉ iri) :
      IsDeclaration (word ++ (gap ++ '<' :: (iri ++ ['>'])))
  | targeted {word gap iri : List Char} (keyword : word.map fold = ['w', 'i', 't', 'h'])
      (apart : gap ≠ []) (blank : ∀ c ∈ gap, isBlank c) (closed : '>' ∉ iri) :
      IsDeclaration (word ++ (gap ++ '<' :: (iri ++ ['>'])))

inductive IsPrologue : List Char → Prop
  | nil : IsPrologue []
  | blank {c : Char} {s : List Char} (h : isBlank c) (rest : IsPrologue s) : IsPrologue (c :: s)
  | comment {line s : List Char} (h : '\n' ∉ line) (rest : IsPrologue s) :
      IsPrologue ('#' :: (line ++ '\n' :: s))
  | declaration {d s : List Char} (h : IsDeclaration d) (rest : IsPrologue s) : IsPrologue (d ++ s)

theorem IsPrologue.append {a b : List Char} (ha : IsPrologue a) (hb : IsPrologue b) :
    IsPrologue (a ++ b) := by
  induction ha with
  | nil => exact hb
  | blank h _ ih => exact .blank h ih
  | comment h _ ih => simpa using IsPrologue.comment h ih
  | declaration h _ ih => simpa using IsPrologue.declaration h ih

/-- A text whose first word is of ASCII letters, and not one that opens a declaration. -/
structure IsStatement (s : List Char) : Prop where
  present : s.takeWhile isWord ≠ []
  letters : ∀ c ∈ s.takeWhile isWord, c.isAlpha
  ordinary : (s.takeWhile isWord).map Char.toLower ∉ declarationWords

/-! Letters without case. -/

theorem isAlpha_iff {c : Char} :
    c.isAlpha = true ↔ (65 ≤ c.toNat ∧ c.toNat ≤ 90) ∨ (97 ≤ c.toNat ∧ c.toNat ≤ 122) := by
  delta Char.isAlpha Char.isUpper Char.isLower
  simp [UInt32.le_iff_toNat_le]

theorem isWord_of_isAlpha {c : Char} (h : c.isAlpha) : isWord c :=
  isWord_of_isAsciiWord (by simp [isAsciiWord, Char.isAlphanum, h])

theorem isBlank_of_isAlpha {c : Char} (h : c.isAlpha) : isBlank c = false := by
  rw [isAlpha_iff] at h
  simp only [isBlank, Bool.or_eq_false_iff, Bool.and_eq_false_iff, decide_eq_false_iff_not,
    beq_eq_false_iff_ne]
  omega

def blankCodes : List Nat :=
  List.range' 9 5 ++ List.range' 28 5 ++ List.range' 0x2000 11 ++
    [0x85, 0xA0, 0x1680, 0x2028, 0x2029, 0x202F, 0x205F, 0x3000]

theorem isWord_of_isBlank {c : Char} (h : isBlank c) : isWord c = false := by
  have code : c.toNat ∈ blankCodes := by
    simp only [isBlank, Bool.or_eq_true, Bool.and_eq_true, decide_eq_true_eq, beq_iff_eq] at h
    simp only [blankCodes, List.mem_append, List.mem_range'_1, List.mem_cons, List.not_mem_nil]
    omega
  have outside : ∀ n ∈ blankCodes, isWord (Char.ofNat n) = false := by decide +kernel
  rw [← Char.ofNat_toNat c]
  exact outside _ code

theorem isBlank_of_isNameChar {c : Char} (h : isNameChar c) : isBlank c = false := by
  refine Bool.eq_false_iff.2 fun blank => ?_
  simp only [isNameChar, isWord_of_isBlank blank, Bool.false_or, Bool.or_eq_true,
    decide_eq_true_eq] at h
  rcases h with rfl | rfl <;> cases blank

theorem ne_hash_of_isAlpha {c : Char} (h : c.isAlpha) : c ≠ '#' := by
  rintro rfl
  cases h

theorem fold_of_isAlpha {c : Char} (h : c.isAlpha) : fold c = c.toLower := by
  rw [isAlpha_iff] at h
  unfold fold
  split <;> first | omega | rfl

theorem isAlpha_of_isLower_toLower {c : Char} (h : c.toLower.isLower) : c.isAlpha := by
  by_cases upper : c.isUpper
  · exact Bool.or_eq_true_iff.2 (.inl upper)
  · have same : c.toLower = c := dif_neg fun inside => upper (decide_eq_true inside)
    rw [same] at h
    exact Bool.or_eq_true_iff.2 (.inr h)

/-- Beside the ASCII letters only the two more letters i, the long s and the kelvin sign have
their like among the small ASCII letters. -/
theorem isAlpha_or_of_isLower_fold {c : Char} (h : (fold c).isLower) :
    c.isAlpha ∨ c ∈ ['\u0130', '\u0131', '\u017f', '\u212a'] := by
  unfold fold at h
  split at h
  case h_5 => exact .inl (isAlpha_of_isLower_toLower h)
  all_goals
    rename_i code
    refine .inr ?_
    rw [← Char.ofNat_toNat c, code]
    decide

theorem isWord_of_isLower_fold {c : Char} (h : (fold c).isLower) : isWord c := by
  rcases isAlpha_or_of_isLower_fold h with letter | special
  · exact isWord_of_isAlpha letter
  · have words : ∀ x ∈ ['\u0130', '\u0131', '\u017f', '\u212a'], isWord x := by decide +kernel
    exact words c special

theorem afterWord?_eq_some_iff {x s r : List Char} :
    afterWord? x s = some r ↔ ∃ v, s = v ++ r ∧ v.map fold = x := by
  induction x generalizing s with
  | nil => simp [afterWord?, eq_comm]
  | cons a x ih =>
    cases s with
    | nil => simp [afterWord?]
    | cons c s =>
      rw [afterWord?]
      constructor
      · intro h
        split at h
        · rename_i here
          obtain ⟨v, rfl, keyword⟩ := ih.1 h
          exact ⟨c :: v, rfl, by simp [here, keyword]⟩
        · cases h
      · rintro ⟨v, split, keyword⟩
        cases v with
        | nil => cases keyword
        | cons d v =>
          obtain ⟨rfl, rfl⟩ := List.cons.inj split
          obtain ⟨here, keyword⟩ := List.cons.inj keyword
          rw [if_pos here, ih]
          exact ⟨v, rfl, keyword⟩

theorem afterWord?_append {x word s : List Char} (keyword : word.map fold = x) :
    afterWord? x (word ++ s) = some s :=
  afterWord?_eq_some_iff.2 ⟨word, rfl, keyword⟩

theorem afterWord?_other {a b : Char} {x y word s : List Char} (keyword : word.map fold = b :: y)
    (other : b ≠ a) : afterWord? (a :: x) (word ++ s) = none := by
  cases word with
  | nil => cases keyword
  | cons c word =>
    obtain ⟨here, -⟩ := List.cons.inj keyword
    rw [List.cons_append, afterWord?, if_neg (here ▸ other)]

theorem afterWord?_first {x s r : List Char} (small : ∀ c ∈ x, c.isLower)
    (h : afterWord? x s = some r) :
    ∃ v u, s.takeWhile isWord = v ++ u ∧ v.map fold = x ∧ r = u ++ s.dropWhile isWord := by
  obtain ⟨v, rfl, keyword⟩ := afterWord?_eq_some_iff.1 h
  have words : ∀ c ∈ v, isWord c := by
    intro c member
    refine isWord_of_isLower_fold (small _ ?_)
    rw [← keyword]
    exact List.mem_map_of_mem member
  refine ⟨v, r.takeWhile isWord, List.takeWhile_append_of_pos words, keyword, ?_⟩
  rw [List.dropWhile_append_of_pos words, List.takeWhile_append_dropWhile]

/-! The scanner. -/

theorem skipBlanks_of_some {s r : List Char} (h : afterComment? (s.dropWhile isBlank) = some r) :
    skipBlanks s = skipBlanks r := by
  rw [skipBlanks]
  split <;> simp_all

theorem skipBlanks_of_none {s : List Char} (h : afterComment? (s.dropWhile isBlank) = none) :
    skipBlanks s = s.dropWhile isBlank := by
  rw [skipBlanks]
  split <;> simp_all

theorem skipBlanks_cons {c : Char} {s : List Char} (h : isBlank c) :
    skipBlanks (c :: s) = skipBlanks s := by
  rw [skipBlanks, skipBlanks, List.dropWhile_cons_of_pos h]

theorem skipBlanks_comment {line s : List Char} (h : '\n' ∉ line) :
    skipBlanks ('#' :: (line ++ '\n' :: s)) = skipBlanks s := by
  refine skipBlanks_of_some ?_
  have ended : cutAt (· == '\n') (line ++ '\n' :: s) = some (line, s) :=
    cutAt_append (fun c member => by simpa using ne_of_mem_of_not_mem member h) rfl
  rw [List.dropWhile_cons_of_neg (by decide), afterComment?, ended]
  rfl

theorem skipBlanks_letter {c : Char} {s : List Char} (h : c.isAlpha) :
    skipBlanks (c :: s) = c :: s := by
  have start : (c :: s).dropWhile isBlank = c :: s :=
    List.dropWhile_cons_of_neg (by simp [isBlank_of_isAlpha h])
  have other : afterComment? (c :: s) = none := by
    unfold afterComment?
    split
    · rename_i same
      exact absurd (List.cons.inj same).1 (ne_hash_of_isAlpha h)
    · rfl
  rw [skipBlanks_of_none (by rw [start, other]), start]

theorem someBlanks?_append {gap s : List Char} (apart : gap ≠ []) (blank : ∀ c ∈ gap, isBlank c)
    (stop : ∀ c ∈ s.head?, isBlank c = false) : someBlanks? (gap ++ s) = some s := by
  cases gap with
  | nil => exact absurd rfl apart
  | cons c gap =>
    have rest : s.dropWhile isBlank = s := by
      cases s with
      | nil => rfl
      | cons d s => exact List.dropWhile_cons_of_neg (by simp [stop d rfl])
    rw [List.forall_mem_cons] at blank
    simp [someBlanks?, blank.1, List.dropWhile_append_of_pos blank.2, rest]

theorem bracketed?_cons {iri s : List Char} (closed : '>' ∉ iri) :
    bracketed? ('<' :: (iri ++ '>' :: s)) = some s := by
  have ended : cutAt (· == '>') (iri ++ '>' :: s) = some (iri, s) :=
    cutAt_append (fun c member => by simpa using ne_of_mem_of_not_mem member closed) rfl
  rw [bracketed?, ended]
  rfl

theorem prefixName?_append {name space s : List Char} (plain : ∀ c ∈ name, isNameChar c)
    (spaced : ∀ c ∈ space, isBlank c) :
    prefixName? (name ++ ':' :: (space ++ '<' :: s)) = some ('<' :: s) := by
  have named : (name ++ ':' :: (space ++ '<' :: s)).dropWhile isNameChar =
      ':' :: (space ++ '<' :: s) := by
    rw [List.dropWhile_append_of_pos plain]
    exact List.dropWhile_cons_of_neg (by decide)
  have bare : ('<' :: s).dropWhile isBlank = '<' :: s := List.dropWhile_cons_of_neg (by decide)
  simp only [prefixName?, named, List.dropWhile_append_of_pos spaced, bare]

theorem declaration?_append {d s : List Char} (h : IsDeclaration d) :
    declaration? (d ++ s) = some s := by
  cases h with
  | named keyword apart blank plain spaced closed =>
    rename_i word gap name space iri
    have stop : ∀ c ∈ (name ++ ':' :: (space ++ '<' :: (iri ++ '>' :: s))).head?,
        isBlank c = false := by
      cases name with
      | nil => simp; decide
      | cons c name => simpa using isBlank_of_isNameChar (plain c (List.mem_cons_self ..))
    have gapped := someBlanks?_append apart blank stop
    simp [declaration?, afterWord?_append keyword, gapped, prefixName?_append plain spaced,
      bracketed?_cons closed]
  | based keyword apart blank closed =>
    rename_i word gap iri
    have gapped := someBlanks?_append (s := '<' :: (iri ++ '>' :: s)) apart blank (by simp; decide)
    simp [declaration?, afterWord?_append keyword, afterWord?_other keyword, gapped,
      bracketed?_cons closed]
  | targeted keyword apart blank closed =>
    rename_i word gap iri
    have gapped := someBlanks?_append (s := '<' :: (iri ++ '>' :: s)) apart blank (by simp; decide)
    simp [declaration?, afterWord?_append keyword, afterWord?_other keyword, gapped,
      bracketed?_cons closed]

theorem isAlpha_of_fold {c : Char} (h : fold c ∈ ['p', 'b', 'w']) : c.isAlpha := by
  have small : ∀ x ∈ ['p', 'b', 'w'], x.isLower ∧ x ∉ ['i', 's', 'k'] := by decide
  have others : ∀ x ∈ ['\u0130', '\u0131', '\u017f', '\u212a'], fold x ∈ ['i', 's', 'k'] := by
    decide
  exact (isAlpha_or_of_isLower_fold (small _ h).1).resolve_right fun special =>
    (small _ h).2 (others c special)

theorem IsDeclaration.head {d : List Char} (h : IsDeclaration d) :
    ∃ c t, d = c :: t ∧ c.isAlpha := by
  have start {a : Char} {x word rest : List Char} (keyword : word.map fold = a :: x)
      (first : a ∈ ['p', 'b', 'w']) : ∃ c t, word ++ rest = c :: t ∧ c.isAlpha := by
    cases word with
    | nil => cases keyword
    | cons c word =>
      obtain ⟨rfl, -⟩ := List.cons.inj keyword
      exact ⟨c, word ++ rest, rfl, isAlpha_of_fold first⟩
  cases h with
  | named keyword => exact start keyword (by decide)
  | based keyword => exact start keyword (by decide)
  | targeted keyword => exact start keyword (by decide)

/-! Statements. -/

theorem IsStatement.head {s : List Char} (h : IsStatement s) : ∃ c t, s = c :: t ∧ c.isAlpha := by
  cases s with
  | nil => exact absurd rfl h.present
  | cons c t =>
    cases word : isWord c with
    | false => exact absurd (List.takeWhile_cons_of_neg (by simp [word])) h.present
    | true => exact ⟨c, t, rfl, h.letters c (by simp [word])⟩

theorem IsStatement.apart {s : List Char} (h : IsStatement s) {x : List Char}
    (keyword : x ∈ declarationWords) : (afterWord? x s).bind someBlanks? = none := by
  have small : ∀ x ∈ declarationWords, ∀ c ∈ x, c.isLower := by decide
  cases after : afterWord? x s with
  | none => rfl
  | some r =>
    obtain ⟨v, u, first, folded, rfl⟩ := afterWord?_first (small x keyword) after
    have letters := h.letters
    rw [first, List.forall_mem_append] at letters
    cases u with
    | nil =>
      have same : (s.takeWhile isWord).map Char.toLower = x := by
        rw [first, List.append_nil, ← folded]
        exact List.map_congr_left fun c member => (fold_of_isAlpha (letters.1 c member)).symm
      exact absurd (same ▸ keyword) h.ordinary
    | cons c u =>
      have letter : c.isAlpha := letters.2 c (List.mem_cons_self ..)
      simp [someBlanks?, isBlank_of_isAlpha letter]

theorem declaration?_statement {s : List Char} (h : IsStatement s) : declaration? s = none := by
  simp [declaration?, h.apart (x := ['p', 'r', 'e', 'f', 'i', 'x']) (by decide),
    h.apart (x := ['b', 'a', 's', 'e']) (by decide),
    h.apart (x := ['w', 'i', 't', 'h']) (by decide)]

theorem skipDeclarations_append {p s : List Char} (hp : IsPrologue p) (hs : IsStatement s)
    {fuel : Nat} (enough : p.length ≤ fuel) : skipDeclarations fuel (skipBlanks (p ++ s)) = s := by
  induction hp generalizing fuel with
  | nil =>
    obtain ⟨c, t, rfl, letter⟩ := hs.head
    rw [List.nil_append, skipBlanks_letter letter]
    cases fuel with
    | zero => rfl
    | succ n => rw [skipDeclarations, declaration?_statement hs]
  | blank h _ ih =>
    rw [List.cons_append, skipBlanks_cons h]
    exact ih (by simp at enough; omega)
  | comment h _ ih =>
    rw [List.cons_append, List.append_assoc, List.cons_append, skipBlanks_comment h]
    exact ih (by simp at enough; omega)
  | @declaration d t h _ ih =>
    -- A declaration starts with a letter: nothing is skipped before it, and it takes fuel.
    obtain ⟨c, rest, rfl, letter⟩ := h.head
    simp only [List.length_append, List.length_cons] at enough
    obtain ⟨n, rfl⟩ : ∃ n, fuel = n + 1 := ⟨fuel - 1, by omega⟩
    rw [List.append_assoc, List.cons_append, skipBlanks_letter letter, ← List.cons_append,
      skipDeclarations, declaration?_append h]
    exact ih (by omega)

theorem body_append {p s : List Char} (hp : IsPrologue p) (hs : IsStatement s) :
    body (p ++ s) = s :=
  skipDeclarations_append hp hs (by simp)

end Statement

open Statement Text

theorem stripPrologue_append {prologue statement : String} (hp : IsPrologue prologue.toList)
    (hs : IsStatement statement.toList) : stripPrologue (prologue ++ statement) = statement := by
  rw [stripPrologue, String.toList_append, body_append hp hs, String.ofList_toList]

theorem statementKind_append {prologue statement : String} (hp : IsPrologue prologue.toList)
    (hs : IsStatement statement.toList) :
    statementKind (prologue ++ statement) = .ofBody statement.toList := by
  rw [statementKind, String.toList_append, body_append hp hs]

/-! The form of a statement. -/

namespace StatementKind

theorem hasWord_iff {s x : List Char} (small : ∀ c ∈ x, c.isLower) :
    hasWord s x ↔ (s.takeWhile isWord).map fold = x := by
  constructor
  · intro h
    unfold hasWord at h
    cases after : afterWord? x s with
    | none => simp [after] at h
    | some r =>
      obtain ⟨v, u, first, folded, rfl⟩ := afterWord?_first small after
      cases u with
      | nil => rw [first, List.append_nil, folded]
      | cons c u =>
        have word : isWord c :=
          List.all_eq_true.1 (List.all_takeWhile (p := isWord) (l := s)) c (by simp [first])
        simp [after, word] at h
  · intro keyword
    have after : afterWord? x s = some (s.dropWhile isWord) := by
      have whole := afterWord?_append (s := s.dropWhile isWord) keyword
      rwa [List.takeWhile_append_dropWhile] at whole
    unfold hasWord
    rw [after]
    cases rest : s.dropWhile isWord with
    | nil => rfl
    | cons c t =>
      have stop := List.head?_dropWhile_not isWord s
      simpa [rest] using stop

theorem hasWord_congr {s t x : List Char} (small : ∀ c ∈ x, c.isLower)
    (same : s.takeWhile isWord = t.takeWhile isWord) : hasWord s x = hasWord t x :=
  Bool.eq_iff_iff.2 (by rw [hasWord_iff small, hasWord_iff small, same])

theorem ofBody_congr {s t : List Char} (same : s.takeWhile isWord = t.takeWhile isWord) :
    ofBody s = ofBody t := by
  have smallUpdates : ∀ x ∈ updateWords, ∀ c ∈ x, c.isLower := by decide
  have smallForms : ∀ x ∈ formWords, ∀ c ∈ x, c.isLower := by decide
  have updates : updateWords.any (hasWord s) = updateWords.any (hasWord t) := by
    rw [Bool.eq_iff_iff, List.any_eq_true, List.any_eq_true]
    exact exists_congr fun x => and_congr_right fun member => by
      rw [hasWord_congr (smallUpdates x member) same]
  have forms : formWords.find? (hasWord s) = formWords.find? (hasWord t) := by
    rw [← List.head?_filter, ← List.head?_filter,
      List.filter_congr fun x member => hasWord_congr (smallForms x member) same]
  have word {s x : List Char} (found : formWords.find? (hasWord s) = some x) :
      s.take x.length = s.takeWhile isWord := by
    have keyword := (hasWord_iff (smallForms x (List.mem_of_find?_eq_some found))).1
      (List.find?_some found)
    rw [← keyword, List.length_map]
    exact (List.prefix_iff_eq_take.1 (List.takeWhile_prefix isWord)).symm
  unfold ofBody
  rw [updates, forms]
  cases found : formWords.find? (hasWord t) with
  | none => rfl
  | some x => simp only [word (forms.trans found), word found, same]

end StatementKind

end SparqlClient
