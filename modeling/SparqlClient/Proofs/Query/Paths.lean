import SparqlClient.Proofs.Binding.Kept
import SparqlClient.Proofs.Query.Conditions
import SparqlClient.Proofs.Query.Inlined

/-! Property paths and the scanner of placeholders. The check of a path takes everything between
two angle brackets for an IRI reference, unless there is a blank; the scanner knows more characters
that break one. Main statement: in a path that passes the check the scanner finds exactly the
question marks inside and right behind such references, and behind brackets that close nothing.
All other modifiers are left alone, and a path whose references the scanner knows asks for no
value. -/

namespace SparqlClient

open Text Token

namespace PathToken

/-- A reference that the scanner does not take for one, or a bracket that closes none. -/
def isOdd : PathToken → Bool
  | .iri inside => !inside.all isIriChar
  | .name _ => false
  | .sign c => c = '>'

/-- No quote stands where the scanner could take it for the beginning of a string. -/
def isQuiet : PathToken → Bool
  | .iri inside => inside.all isIriChar || !inside.any Lexeme.isQuote
  | .name text => !text.any Lexeme.isQuote
  | .sign _ => true

inductive Reads : PathToken → Char → List Char → List Char → Prop
  | iri {inside rest : List Char} (own : ∀ c ∈ inside, isInside c = true) :
      Reads (.iri inside) '<' (inside ++ '>' :: rest) rest
  | name {c : Char} {s : List Char} (own : isNameChar c = true) :
      Reads (.name (c :: s.takeWhile isNameChar)) c s (s.dropWhile isNameChar)
  | sign {c : Char} {s : List Char} (other : isNameChar c = false)
      (bracket : c = '<' → closing? s = none) : Reads (.sign c) c s s

theorem reads_next (c : Char) (s : List Char) : (next c s).1.Reads c s (next c s).2 := by
  unfold next
  split
  · rename_i opening
    subst opening
    split
    · rename_i rest closed
      have whole := closing?_eq_some closed
      have read :
          (iri (s.takeWhile isInside)).Reads '<' (s.takeWhile isInside ++ '>' :: rest) rest :=
        .iri fun c => List.mem_takeWhile_imp
      rwa [whole] at read
    · rename_i unclosed
      exact .sign (by decide) fun _ => unclosed
  · rename_i opening
    split
    · rename_i own
      exact .name own
    · rename_i other
      exact .sign (by simpa using other) fun same => absurd same opening

theorem isInside_of_isIriChar {c : Char} (h : isIriChar c = true) :
    isInside c = true := by
  simp only [isIriChar, isInside] at h ⊢
  simp_all

theorem iriTail_of_closing?_eq_none {s : List Char} (h : closing? s = none) :
    iriTail s = none := by
  induction s with
  | nil => rfl
  | cons c s ih =>
    rw [iriTail]
    by_cases own : isIriChar c = true
    · have inside := isInside_of_isIriChar own
      have closing : c ≠ '>' := by
        rintro rfl
        exact absurd inside (by decide)
      rw [closing?, List.dropWhile_cons_of_pos inside] at h
      rw [if_neg closing, if_pos own, ih h]
      rfl
    · have closing : c ≠ '>' := by
        rintro rfl
        simp [closing?, isInside] at h
      rw [if_neg closing, if_neg own]

theorem iriTail_of_isOdd {inside : List Char} (own : ∀ c ∈ inside, isInside c = true)
    (odd : inside.all isIriChar = false) (rest : List Char) :
    iriTail (inside ++ '>' :: rest) = none := by
  induction inside with
  | nil => cases odd
  | cons c inside ih =>
    rw [List.forall_mem_cons] at own
    have closing : c ≠ '>' := by
      rintro rfl
      exact absurd own.1 (by decide)
    rw [List.all_cons, Bool.and_eq_false_iff] at odd
    rw [List.cons_append, iriTail, if_neg closing]
    rcases odd with here | behind
    · rw [if_neg (by simp [here])]
    · split
      · rw [ih own.2 behind]
        rfl
      · rfl

end PathToken

def loneMarks : List Char → Nat
  | [] => 0
  | c :: s => (if c = '?' && standsAlone s then 1 else 0) + loneMarks s

namespace Path

/-- The question marks that the scanner takes for placeholders, where `odd` tells whether an odd
token stands right before the path. -/
def oddMarks (odd : Bool) : List PathToken → Nat
  | [] => 0
  | .iri inside :: ts =>
    if inside.all isIriChar then oddMarks false ts
    else loneMarks inside + oddMarks true ts
  | .name _ :: ts => oddMarks false ts
  | .sign c :: ts =>
    (if c = '?' && odd && standsAlone (ts.flatMap PathToken.chars) then 1 else 0) +
      oddMarks (c = '>') ts

theorem oddMarks_eq_zero {ts : List PathToken} (regular : ∀ t ∈ ts, t.isOdd = false) :
    oddMarks false ts = 0 := by
  induction ts with
  | nil => rfl
  | cons t ts ih =>
    rw [List.forall_mem_cons] at regular
    have behind := ih regular.2
    cases t with
    | iri inside =>
      have plain : inside.all isIriChar = true := by simpa [PathToken.isOdd] using regular.1
      rw [oddMarks, if_pos plain, behind]
    | name => exact behind
    | sign c =>
      have other : decide (c = '>') = false := regular.1
      simp [oddMarks, other, behind]

end Path

structure Finds (ts : List Token) (n : Nat) : Prop where
  closed : ∀ t ∈ ts, t.isLooseQuote = false
  count : ts.count .placeholder = n

namespace Finds

variable {ts : List Token} {n : Nat}

theorem asks {s : List Char} (h : Finds (tokens s) n) : Asks s n := ⟨h.closed, h.count⟩

theorem cons {t : Token} (own : t.isLooseQuote = false) (h : Finds ts n) :
    Finds (t :: ts) ((if t = .placeholder then 1 else 0) + n) := by
  refine ⟨List.forall_mem_cons.2 ⟨own, h.closed⟩, ?_⟩
  rw [List.count_cons, h.count, Nat.add_comm]
  simp

end Finds

theorem Finds.glue {r : List Char} {n : Nat} (h : Finds (gluedTokens r) n) (a : List Char) :
    Finds ((glue a r).1 :: tokens (glue a r).2) n := by
  rcases glue_cases a r with ⟨s, joined, behind⟩ | ⟨apart, behind⟩
  · rw [behind] at h
    rw [joined]
    exact ⟨List.forall_mem_cons.2 ⟨rfl, (List.forall_mem_cons.1 h.closed).2⟩,
      by simpa using h.count⟩
  · rw [behind] at h
    rw [apart]
    exact ⟨List.forall_mem_cons.2 ⟨rfl, h.closed⟩, by simpa using h.count⟩

theorem Finds.single {c : Char} {s : List Char} {n : Nat} (quote : Lexeme.isQuote c = false)
    (bracket : c = '<' → iriTail s = none) (h : Finds (tokens s) n) :
    Finds (tokens (c :: s)) ((if c = '?' && standsAlone s then 1 else 0) + n) := by
  rw [tokens, next_single quote bracket]
  split
  · exact h.cons rfl
  · have loose : (Token.other c).isLooseQuote = false := quote
    exact h.cons loose

theorem Finds.sign {c : Char} {s : List Char} {n : Nat} (quote : Lexeme.isQuote c = false)
    (mark : c ≠ '?') (bracket : c = '<' → iriTail s = none) (h : Finds (tokens s) n) :
    Finds (tokens (c :: s)) n := by
  simpa [mark] using h.single quote bracket

theorem Finds.odd {inside r : List Char} {n : Nat} (own : ∀ c ∈ inside, PathToken.isInside c = true)
    (quiet : inside.any Lexeme.isQuote = false) (h : Finds (tokens r) n) :
    Finds (tokens (inside ++ '>' :: r)) (loneMarks inside + n) := by
  induction inside with
  | nil =>
    rw [List.nil_append, loneMarks, Nat.zero_add]
    exact h.sign rfl (by decide) fun same => absurd same (by decide)
  | cons c inside ih =>
    rw [List.forall_mem_cons] at own
    rw [List.any_cons, Bool.or_eq_false_iff] at quiet
    have bracket : c ≠ '<' := by
      rintro rfl
      exact absurd own.1 (by decide)
    have alone : standsAlone (inside ++ '>' :: r) = standsAlone inside := by cases inside <;> rfl
    rw [List.cons_append, loneMarks, Nat.add_assoc, ← alone]
    exact (ih own.2 quiet.2).single quiet.1 fun same => absurd same bracket

theorem isInert_of_isNameChar {name : List Char} (own : ∀ c ∈ name, PathToken.isNameChar c = true)
    (quiet : name.any Lexeme.isQuote = false) : isInert name = true := by
  refine isInert_of_class (p := fun c => PathToken.isNameChar c && !Lexeme.isQuote c)
    (fun c member => ?_) (by decide) (by decide) (by decide) (by decide)
  rw [List.any_eq_false] at quiet
  simp [own c member, quiet c member]

theorem Finds.name {c : Char} {s : List Char} {n : Nat} (own : PathToken.isNameChar c = true)
    (quiet : (c :: s.takeWhile PathToken.isNameChar).any Lexeme.isQuote = false)
    (h : Finds (tokens (s.dropWhile PathToken.isNameChar)) n) : Finds (tokens (c :: s)) n := by
  have inert : isInert (c :: s.takeWhile PathToken.isNameChar) = true :=
    isInert_of_isNameChar (List.forall_mem_cons.2 ⟨own, fun d => List.mem_takeWhile_imp⟩) quiet
  have whole := (asks_of_isInert inert).append_of_settles (settles_of_isInert inert) h.asks
  rw [List.cons_append, List.takeWhile_append_dropWhile, Nat.zero_add] at whole
  exact ⟨whole.closed, whole.count⟩

namespace Path

theorem finds_cons {t : PathToken} {c : Char} {s r : List Char} {odd : Bool}
    (read : t.Reads c s r) (quiet : t.isQuiet = true)
    (checked : hasLooseOptional odd (t :: pathTokens r) = false)
    (later : ∀ odd, hasLooseOptional odd (pathTokens r) = false →
      Finds (tokens r) (oddMarks odd (pathTokens r)))
    (behind : hasLooseOptional true (pathTokens r) = false →
      Finds (gluedTokens r) (oddMarks false (pathTokens r))) :
    Finds (tokens (c :: s)) (oddMarks odd (t :: pathTokens r)) := by
  cases read with
  | @iri inside rest own =>
    rw [oddMarks]
    split
    · rename_i plain
      rw [tokens_iri plain]
      exact (behind checked).glue _
    · rename_i unknown
      rw [Bool.not_eq_true] at unknown
      have silent : inside.any Lexeme.isQuote = false := by
        simpa [PathToken.isQuiet, unknown] using quiet
      exact ((later true checked).odd own silent).sign rfl (by decide)
        fun _ => PathToken.iriTail_of_isOdd own unknown r
  | name own => exact (later false checked).name own (by simpa [PathToken.isQuiet] using quiet)
  | sign other bracket =>
    rw [hasLooseOptional, Bool.or_eq_false_iff] at checked
    have quote : Lexeme.isQuote c = false := by
      rw [Lexeme.isQuote, Bool.or_eq_false_iff, decide_eq_false_iff_not, decide_eq_false_iff_not]
      constructor <;> rintro rfl <;> exact absurd other (by decide)
    have found := (later _ checked.2).single quote
      fun opening => PathToken.iriTail_of_closing?_eq_none (bracket opening)
    have marked : (c = '?' && odd && standsAlone s) = (c = '?' && standsAlone s) := by
      by_cases mark : c = '?'
      · have before : odd = true := by simpa [mark] using checked.1
        simp [before]
      · simp [mark]
    rw [oddMarks, flatMap_chars_pathTokens, marked]
    exact found

theorem finds_cons_glued {t : PathToken} {c : Char} {s r : List Char}
    (read : t.Reads c s r) (quiet : t.isQuiet = true)
    (checked : hasLooseOptional true (t :: pathTokens r) = false)
    (later : ∀ odd, hasLooseOptional odd (pathTokens r) = false →
      Finds (tokens r) (oddMarks odd (pathTokens r)))
    (behind : hasLooseOptional true (pathTokens r) = false →
      Finds (gluedTokens r) (oddMarks false (pathTokens r))) :
    Finds (gluedTokens (c :: s)) (oddMarks false (t :: pathTokens r)) := by
  by_cases mark : c = '?'
  · subst mark
    cases read with
    | name own => exact absurd own (by decide)
    | sign other bracket =>
      rw [hasLooseOptional, Bool.or_eq_false_iff] at checked
      have found := later _ checked.2
      rw [gluedTokens_mark, oddMarks]
      simpa using found.cons (t := .other '?') rfl
  · rw [gluedTokens_of_ne mark]
    refine finds_cons read quiet ?_ later behind
    cases read with
    | iri | name => exact checked
    | sign => simpa [hasLooseOptional, mark] using checked

theorem finds_pathTokens {s : List Char} (quiet : ∀ t ∈ pathTokens s, t.isQuiet = true) :
    (∀ odd, hasLooseOptional odd (pathTokens s) = false →
      Finds (tokens s) (oddMarks odd (pathTokens s))) ∧
    (hasLooseOptional true (pathTokens s) = false →
      Finds (gluedTokens s) (oddMarks false (pathTokens s))) := by
  fun_induction pathTokens s with
  | case1 =>
    have nothing : Finds [] 0 := ⟨by simp, rfl⟩
    rw [show gluedTokens [] = [] from tokens_nil, tokens_nil]
    exact ⟨fun _ _ => nothing, fun _ => nothing⟩
  | case2 c s ih =>
    rw [List.forall_mem_cons] at quiet
    obtain ⟨later, behind⟩ := ih quiet.2
    have read := PathToken.reads_next c s
    exact ⟨fun odd checked => finds_cons read quiet.1 checked later behind,
      fun checked => finds_cons_glued read quiet.1 checked later behind⟩

theorem asks_of_expand {p : Prefixes} {path text : String} (h : expand p path = .ok text)
    (quiet : ∀ t ∈ pathTokens text.toList, t.isQuiet = true) :
    Asks text.toList (oddMarks false (pathTokens text.toList)) := by
  obtain ⟨parts, -, rest⟩ := Outcome.bind_eq_ok_iff.1 h
  simp only at rest
  split at rest
  · cases rest
  · split at rest
    · cases rest
    · rename_i checked
      obtain rfl := Outcome.pure_eq_ok_iff.1 rest
      rw [String.toList_ofList] at quiet ⊢
      exact ((finds_pathTokens quiet).1 false (by simpa using checked)).asks

end Path

theorem placeholders_between {text : String} {n : Nat} (own : Asks text.toList n)
    {front : List Char} (closed : QuotesClosed front) (back : List Char) :
    placeholders (front ++ ((" " ++ text ++ " ").toList ++ back)) =
      placeholders front + n + placeholders back := by
  have blank := links_blank
  have opened : Asks (" ".toList ++ text.toList) (0 + n) :=
    blank.inlined.append_of_settles blank.settles own
  have word : Asks (" ".toList ++ text.toList ++ " ".toList) (0 + n + 0) :=
    opened.append blank.inlined blank.trails.breaks
  have settled : Settles (" ".toList ++ text.toList ++ " ".toList) :=
    settles_append opened.closed blank.settles blank.seam
  have seam : Breaks (" ".toList ++ text.toList ++ " ".toList ++ back) := by
    rw [List.append_assoc, List.append_assoc]
    exact blank.seam _
  rw [String.toList_append, String.toList_append, placeholders, tokens_append closed seam, settled,
    List.count_append, List.count_append, ← Nat.add_assoc]
  have count := word.count
  rw [Nat.zero_add, Nat.add_zero] at count
  rw [← count]
  rfl

/-- Wherever the pattern of a path stands, the scanner finds in the path exactly the question marks
inside and right behind references that it does not know, and behind loose brackets. -/
theorem Compile.marks_of_path {l : Place} {path : String} {o : Operator} {value : Value}
    {connector : Connector} {s t : Scope} {a : Clauses}
    (h : Gives (condition l (.path path o value connector)) s a t) :
    ∃ text object optional, Path.expand l.prefixes path = .ok text ∧
      a.patterns = [optionally optional (along s.subject text object)] ∧
      ((∀ t ∈ pathTokens text.toList, t.isQuiet = true) →
        (∀ front back, QuotesClosed front →
          placeholders (front ++ ((" " ++ text ++ " ").toList ++ back)) = placeholders front +
            Path.oddMarks false (pathTokens text.toList) + placeholders back) ∧
        ((∀ t ∈ pathTokens text.toList, t.isOdd = false) → Asks text.toList 0)) := by
  obtain ⟨text, expanded, written⟩ := path_gives h
  obtain ⟨object, optional, pattern⟩ : ∃ object optional,
      a.patterns = [optionally optional (along s.subject text object)] := by
    rcases written with ⟨-, -, rfl⟩ | ⟨-, ref, e, -, -, rfl⟩
    · exact ⟨Write.nodeOperand l.prefixes value, false, rfl⟩
    · exact ⟨.ofText ref, l.folded, rfl⟩
  refine ⟨text, object, optional, expanded, pattern, fun quiet => ?_⟩
  have asks := Path.asks_of_expand expanded quiet
  refine ⟨fun front back closed => placeholders_between asks closed back, fun regular => ?_⟩
  rw [Path.oddMarks_eq_zero regular] at asks
  exact asks

def wayThrough : String := "<http://e/a>?/(<http://e/b'c>?|^<http://e/d>*)"

theorem marks_of_path_wayThrough : ∃ a t, Compile.Gives (Compile.condition ⟨.empty, false, true⟩
      (.path wayThrough (.compare .eq) (.text "x") .and)) (.ofSubject "s") a t ∧
    a.patterns.map Fragment.text =
      ["?s <http://e/a>?/(<http://e/b'c>?|^<http://e/d>*) ? ."] ∧
    ∃ text, Path.expand .empty wayThrough = .ok text ∧ Asks text.toList 0 ∧
      ∀ front back, QuotesClosed front →
        placeholders (front ++ ((" " ++ text ++ " ").toList ++ back)) =
          placeholders front + 0 + placeholders back := by
  have compiled : (StateT.run (Compile.condition ⟨.empty, false, true⟩
      (.path wayThrough (.compare .eq) (.text "x") .and)) (.ofSubject "s")).toOption.map
        (fun x => x.1.patterns.map Fragment.text) =
      some ["?s <http://e/a>?/(<http://e/b'c>?|^<http://e/d>*) ? ."] := by
    decide +kernel
  have written : Path.expand .empty wayThrough =
      .ok "<http://e/a>?/(<http://e/b'c>?|^<http://e/d>*)" := by
    decide +kernel
  cases ran : StateT.run (Compile.condition ⟨.empty, false, true⟩
      (.path wayThrough (.compare .eq) (.text "x") .and)) (.ofSubject "s") with
  | error e =>
    rw [ran] at compiled
    cases compiled
  | ok x =>
    rw [ran] at compiled
    obtain ⟨text, -, -, expanded, -, marks⟩ := Compile.marks_of_path ran
    obtain rfl := Except.ok.inj (expanded.symm.trans written)
    obtain ⟨between, regular⟩ := marks (by decide +kernel)
    refine ⟨x.1, x.2, ran, Option.some.inj compiled, _, expanded, regular (by decide +kernel),
      fun front back closed => ?_⟩
    rw [between front back closed, Path.oddMarks_eq_zero (by decide +kernel)]

def barred : QuerySpec where
  subject := "s"
  wheres := [.path "<urn:a|b>?" (.compare .eq) (.text "x") .and]

/-- A reference with a bar in it, and a loose bracket: the check lets the modifier behind it pass,
and the scanner takes it for a placeholder that gets the value of the condition. -/
theorem exists_consumed_binding :
    (barred.select .empty).toOption.map
        (fun f => (f.text, f.bindings.length, placeholders f.text.toList)) =
      some ("SELECT * WHERE \x7b ?s <urn:a|b>? ? . \x7d", 1, 2) ∧
    (barred.select .empty >>= fun f => f.bound (some .empty)) =
      CompilationError.fail (.tooFewBindings 1) ∧
    Path.expand .empty "<urn:a|b>?" = .ok "<urn:a|b>?" ∧
    placeholders "<urn:a|b>?".toList = 1 ∧
    Path.expand .empty "<urn:a>>?" = .ok "<urn:a>>?" ∧
    placeholders "<urn:a>>?".toList = 1 := by
  decide +kernel

end SparqlClient
