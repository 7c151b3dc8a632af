import SparqlClient.Text.Pieces

/-! How alike two words are: the longest stretch that they share is matched, then what stands
before it and what stands behind it in the same way. The likeness is the share of matched
characters in both words together. -/

namespace SparqlClient.Text

def sharedStart : List Char → List Char → Nat
  | a :: s, b :: t => if a = b then sharedStart s t + 1 else 0
  | _, _ => 0

structure Stretch where
  left : Nat
  right : Nat
  size : Nat

def longestStretch (a b : List Char) : Stretch :=
  (List.range a.length).foldl (fun best i =>
    (List.range b.length).foldl (fun best j =>
      let n := sharedStart (a.drop i) (b.drop j)
      if best.size < n then ⟨i, j, n⟩ else best) best) ⟨0, 0, 0⟩

def matchedChars : (fuel : Nat) → List Char → List Char → Nat
  | 0, _, _ => 0
  | fuel + 1, a, b =>
    let s := longestStretch a b
    if s.size = 0 then 0
    else s.size + matchedChars fuel (a.take s.left) (b.take s.right) +
      matchedChars fuel (a.drop (s.left + s.size)) (b.drop (s.right + s.size))

structure Likeness where
  word : String
  shared : Nat
  total : Nat

def likeness (word candidate : String) : Likeness :=
  let a := candidate.toList
  let b := word.toList
  ⟨candidate, 2 * matchedChars a.length a b, a.length + b.length⟩

def Likeness.before (x y : Likeness) : Bool :=
  let l := x.shared * y.total
  let r := y.shared * x.total
  if l = r then y.word ≤ x.word else r < l

/-- At most three of the candidates that share three fifths with the word. -/
def similar (word : String) (candidates : List String) : List String :=
  let near := (candidates.map (likeness word)).filter fun l => 3 * l.total ≤ 5 * l.shared
  ((near.mergeSort Likeness.before).take 3).map Likeness.word

theorem sharedStart_self (s : List Char) : sharedStart s s = s.length := by
  induction s with
  | nil => rfl
  | cons c s ih => simp [sharedStart, ih]

end SparqlClient.Text
