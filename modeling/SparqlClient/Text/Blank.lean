/-! Blank characters and trimming. A blank is a character of white space or a separator
control of any script; trimming takes a run of characters of a class off an end of a text,
and never touches what lies between. -/

namespace SparqlClient.Text

/-- What is said of the characters of a text is tested on these, not on all characters. -/
instance (priority := high) decidableForallMem {p : Char → Prop} [DecidablePred p]
    (s : List Char) : Decidable (∀ c ∈ s, p c) := List.decidableBAll p s

def isBlank (c : Char) : Bool :=
  let n := c.toNat
  (9 ≤ n && n ≤ 13) || (28 ≤ n && n ≤ 32) || n == 0x85 || n == 0xA0 || n == 0x1680 ||
    (0x2000 ≤ n && n ≤ 0x200A) || n == 0x2028 || n == 0x2029 || n == 0x202F || n == 0x205F ||
    n == 0x3000

theorem isBlank_of_isWhitespace {c : Char} (h : c.isWhitespace) : isBlank c := by
  simp only [Char.isWhitespace, Bool.or_eq_true, decide_eq_true_eq] at h
  rcases h with ((rfl | rfl) | rfl) | rfl <;> decide

def dropEndWhile (p : Char → Bool) (s : List Char) : List Char :=
  (s.reverse.dropWhile p).reverse

@[simp] theorem dropEndWhile_nil (p : Char → Bool) : dropEndWhile p [] = [] := rfl

theorem dropEndWhile_append (p : Char → Bool) (s : List Char) :
    dropEndWhile p s ++ (s.reverse.takeWhile p).reverse = s := by
  rw [dropEndWhile, ← List.reverse_append, List.takeWhile_append_dropWhile, List.reverse_reverse]

theorem dropEndWhile_eq_self {p : Char → Bool} {s : List Char}
    (last : ∀ c ∈ s.getLast?, p c = false) : dropEndWhile p s = s := by
  rcases s.eq_nil_or_concat with rfl | ⟨s, c, rfl⟩
  · rfl
  · have own : p c = false := last c (by simp)
    simp [dropEndWhile, own]

theorem dropEndWhile_append_of_pos {p : Char → Bool} {s t : List Char} (all : ∀ c ∈ t, p c) :
    dropEndWhile p (s ++ t) = dropEndWhile p s := by
  have behind : ∀ c ∈ t.reverse, p c := by simpa using all
  rw [dropEndWhile, List.reverse_append, List.dropWhile_append_of_pos behind, dropEndWhile]

theorem stop_of_dropWhile {p : Char → Bool} (s : List Char) :
    ∀ c ∈ (s.dropWhile p).head?, p c = false := by
  intro c first
  have stop := List.head?_dropWhile_not p s
  rw [Option.mem_def.1 first] at stop
  simpa using stop

theorem stop_of_dropEndWhile {p : Char → Bool} (s : List Char) :
    ∀ c ∈ (dropEndWhile p s).getLast?, p c = false := by
  intro c last
  rw [dropEndWhile, List.getLast?_reverse] at last
  exact stop_of_dropWhile _ c last

theorem takeWhile_append_of_stop {p : Char → Bool} {s rest : List Char} (all : ∀ c ∈ s, p c)
    (stop : ∀ c ∈ rest.head?, p c = false) : (s ++ rest).takeWhile p = s := by
  rw [List.takeWhile_append_of_pos all]
  cases rest with
  | nil => simp
  | cons c rest => simp [stop c rfl]

theorem dropWhile_append_of_stop {p : Char → Bool} {s rest : List Char} (all : ∀ c ∈ s, p c)
    (stop : ∀ c ∈ rest.head?, p c = false) : (s ++ rest).dropWhile p = rest := by
  rw [List.dropWhile_append_of_pos all]
  cases rest with
  | nil => rfl
  | cons c rest => rw [List.dropWhile_cons_of_neg (Bool.eq_false_iff.1 (stop c rfl))]

theorem takeWhile_append_cons {p : Char → Bool} {s t : List Char} {c : Char} (stop : p c = false) :
    (s ++ c :: t).takeWhile p = s.takeWhile p := by
  induction s with
  | nil => simp [stop]
  | cons x s ih => cases own : p x <;> simp [own, ih]

theorem dropWhile_append_cons {p : Char → Bool} {s t : List Char} {c : Char} (stop : p c = false) :
    (s ++ c :: t).dropWhile p = s.dropWhile p ++ c :: t := by
  induction s with
  | nil => simp [stop]
  | cons x s ih => cases own : p x <;> simp [own, ih]

theorem drop_takeWhile (p : Char → Bool) (s : List Char) :
    s.drop (s.takeWhile p).length = s.dropWhile p := by
  induction s with
  | nil => rfl
  | cons c s ih => cases own : p c <;> simp [own, ih]

def trimBy (p : Char → Bool) (s : List Char) : List Char :=
  dropEndWhile p (s.dropWhile p)

theorem isInfix_trimBy (p : Char → Bool) (s : List Char) : trimBy p s <:+: s :=
  List.IsInfix.trans ⟨[], _, dropEndWhile_append p _⟩ (List.dropWhile_suffix p).isInfix

theorem first_of_trimBy {p : Char → Bool} (s : List Char) :
    ∀ c ∈ (trimBy p s).head?, p c = false := by
  intro c first
  rw [trimBy] at first
  refine stop_of_dropWhile s c ?_
  rw [← dropEndWhile_append p (s.dropWhile p), List.head?_append, Option.mem_def.1 first]
  rfl

/-- Both ends, and only the ends, lose the characters of the class. -/
def trimOf (p : Char → Bool) (s : String) : String := String.ofList (trimBy p s.toList)

def trimStartOf (p : Char → Bool) (s : String) : String := String.ofList (s.toList.dropWhile p)

def trimEndOf (p : Char → Bool) (s : String) : String := String.ofList (dropEndWhile p s.toList)

def trim (s : String) : String := trimOf isBlank s

def isAllBlank (s : String) : Bool := s.toList.all isBlank

def hasBlank (s : String) : Bool := s.toList.any isBlank

end SparqlClient.Text
