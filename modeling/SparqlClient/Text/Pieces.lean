/-! Cutting texts apart: a known beginning or end, the first occurrence of a character, the
pieces between separators. Every operation is defined on the list of characters. -/

namespace SparqlClient.Text

/-- What follows `p`, if the text begins with it. -/
def after? : (p s : List Char) → Option (List Char)
  | [], s => some s
  | _ :: _, [] => none
  | x :: p, c :: s => if x = c then after? p s else none

theorem after?_eq_some_iff {p s r : List Char} : after? p s = some r ↔ s = p ++ r := by
  induction p generalizing s with
  | nil => simp [after?, eq_comm]
  | cons x p ih =>
    cases s with
    | nil => simp [after?]
    | cons c s =>
      by_cases h : x = c
      · simp [after?, h, ih]
      · simp [after?, h, Ne.symm h]

def startsWith (s p : String) : Bool := (after? p.toList s.toList).isSome

def dropStart? (s p : String) : Option String :=
  (after? p.toList s.toList).map String.ofList

theorem dropStart?_eq_some_iff {s p r : String} : dropStart? s p = some r ↔ s = p ++ r := by
  rw [dropStart?, Option.map_eq_some_iff, ← String.toList_inj, String.toList_append]
  constructor
  · rintro ⟨x, cut, rfl⟩
    rw [String.toList_ofList]
    exact after?_eq_some_iff.1 cut
  · intro text
    exact ⟨r.toList, after?_eq_some_iff.2 text, String.ofList_toList⟩

def endsWith (s e : String) : Bool := (after? e.toList.reverse s.toList.reverse).isSome

def dropEnd? (s e : String) : Option String :=
  (after? e.toList.reverse s.toList.reverse).map fun r => String.ofList r.reverse

theorem dropEnd?_eq_some_iff {s e r : String} : dropEnd? s e = some r ↔ s = r ++ e := by
  rw [dropEnd?, Option.map_eq_some_iff, ← String.toList_inj, String.toList_append]
  constructor
  · rintro ⟨x, cut, rfl⟩
    rw [String.toList_ofList, ← List.reverse_inj, after?_eq_some_iff.1 cut]
    simp
  · intro text
    refine ⟨r.toList.reverse, after?_eq_some_iff.2 (by simp [text]), by simp⟩

theorem dropEnd?_eq_none {s e : String} (filled : e.toList ≠ [])
    (other : s.toList.getLast? ≠ e.toList.getLast?) : dropEnd? s e = none := by
  cases found : dropEnd? s e with
  | none => rfl
  | some r =>
    obtain rfl := dropEnd?_eq_some_iff.1 found
    have last : e.toList.getLast? ≠ none := by simpa using filled
    rw [String.toList_append, List.getLast?_append] at other
    obtain ⟨c, ended⟩ := Option.ne_none_iff_exists'.1 last
    exact absurd (by rw [ended, Option.some_or]) other

def cutAt (p : Char → Bool) : List Char → Option (List Char × List Char)
  | [] => none
  | c :: s => if p c then some ([], s) else (cutAt p s).map fun (a, b) => (c :: a, b)

theorem cutAt_eq_none_iff {p : Char → Bool} {s : List Char} :
    cutAt p s = none ↔ ∀ c ∈ s, p c = false := by
  induction s with
  | nil => simp [cutAt]
  | cons c s ih => by_cases h : p c <;> simp [cutAt, h, ih]

theorem cutAt_append {p : Char → Bool} {a b : List Char} {c : Char} (before : ∀ x ∈ a, p x = false)
    (here : p c) : cutAt p (a ++ c :: b) = some (a, b) := by
  induction a with
  | nil => simp [cutAt, here]
  | cons x a ih =>
    rw [List.forall_mem_cons] at before
    simp [cutAt, before.1, ih before.2]

theorem eq_of_cutAt {p : Char → Bool} {s a b : List Char} (h : cutAt p s = some (a, b)) :
    ∃ c, p c ∧ s = a ++ c :: b := by
  induction s generalizing a with
  | nil => cases h
  | cons d s ih =>
    rw [cutAt] at h
    split at h
    · rename_i here
      obtain ⟨rfl, rfl⟩ := Prod.mk.inj (Option.some.inj h)
      exact ⟨d, here, rfl⟩
    · obtain ⟨⟨a', b'⟩, cut, same⟩ := Option.map_eq_some_iff.1 h
      obtain ⟨rfl, rfl⟩ := Prod.mk.inj same
      obtain ⟨c, here, rfl⟩ := ih cut
      exact ⟨c, here, rfl⟩

theorem forall_not_of_cutAt {p : Char → Bool} {s a b : List Char} (h : cutAt p s = some (a, b)) :
    ∀ c ∈ a, p c = false := by
  induction s generalizing a with
  | nil => cases h
  | cons d s ih =>
    rw [cutAt] at h
    split at h
    · obtain ⟨rfl, -⟩ := Prod.mk.inj (Option.some.inj h)
      simp
    · rename_i other
      obtain ⟨⟨a', b'⟩, cut, same⟩ := Option.map_eq_some_iff.1 h
      obtain ⟨rfl, rfl⟩ := Prod.mk.inj same
      exact List.forall_mem_cons.2 ⟨Bool.eq_false_iff.2 other, ih cut⟩

theorem notMem_iff_beq {c : Char} {s : List Char} : c ∉ s ↔ ∀ x ∈ s, (x == c) = false := by
  simp only [beq_eq_false_iff_ne]
  exact ⟨fun h x member own => h (own ▸ member), fun h member => h c member rfl⟩

def cut? (sep : Char) (s : String) : Option (String × String) :=
  (cutAt (· == sep) s.toList).map fun (a, b) => (String.ofList a, String.ofList b)

theorem cut?_append {sep : Char} {a b : String} (apart : sep ∉ a.toList) :
    cut? sep (a ++ String.singleton sep ++ b) = some (a, b) := by
  have text : (a ++ String.singleton sep ++ b).toList = a.toList ++ sep :: b.toList := by
    simp [String.toList_append]
  rw [cut?, text, cutAt_append (notMem_iff_beq.1 apart) (beq_self_eq_true sep)]
  simp

def piecesBy (p : Char → Bool) : List Char → List (List Char)
  | [] => [[]]
  | c :: s =>
    if p c then [] :: piecesBy p s
    else match piecesBy p s with
      | [] => [[c]]
      | x :: rest => (c :: x) :: rest

theorem piecesBy_ne_nil (p : Char → Bool) (s : List Char) : piecesBy p s ≠ [] := by
  cases s with
  | nil => simp [piecesBy]
  | cons c s =>
    rw [piecesBy]
    split
    · simp
    · split <;> simp

theorem piecesBy_eq_singleton {p : Char → Bool} {s : List Char} (whole : ∀ c ∈ s, p c = false) :
    piecesBy p s = [s] := by
  induction s with
  | nil => rfl
  | cons c s ih =>
    rw [List.forall_mem_cons] at whole
    simp [piecesBy, whole.1, ih whole.2]

theorem piecesBy_append {p : Char → Bool} {c : Char} (here : p c) (s t : List Char) :
    piecesBy p (s ++ c :: t) = piecesBy p s ++ piecesBy p t := by
  induction s with
  | nil => simp [piecesBy, here]
  | cons d s ih =>
    rw [List.cons_append, piecesBy, piecesBy, ih]
    split
    · rfl
    · cases pieces : piecesBy p s with
      | nil => exact absurd pieces (piecesBy_ne_nil p s)
      | cons x rest => rfl

def mapChars (f : Char → String) (s : String) : String :=
  String.join (s.toList.map f)

@[simp] theorem toList_mapChars (f : Char → String) (s : String) :
    (mapChars f s).toList = s.toList.flatMap fun c => (f c).toList := by
  simp [mapChars, String.toList_join, List.flatMap_map]

/-- Every occurrence of `old`, from left to right, replaced by `new`. The fuel is the length. -/
def replaceFrom (old new : List Char) : (fuel : Nat) → List Char → List Char
  | 0, s => s
  | fuel + 1, s =>
    match after? old s with
    | some rest => new ++ replaceFrom old new fuel rest
    | none => match s with
      | [] => []
      | c :: t => c :: replaceFrom old new fuel t

def replaceAll (old new s : String) : String :=
  String.ofList (replaceFrom old.toList new.toList s.toList.length s.toList)

def inBraces (body : String) : String := "\x7b " ++ body ++ " \x7d"

def first (n : Nat) (s : String) : String := String.ofList (s.toList.take n)

end SparqlClient.Text
