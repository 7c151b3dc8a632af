import Mathlib.Data.List.Forall2
import Mathlib.Data.List.Infix
import Mathlib.Data.List.TakeWhile
import SparqlClient.Proofs.Statement.Prologue
import SparqlClient.Term.Render

/-! The parts of an aliased text. They are told apart by the word `as` between blanks, read from
left to right. Main statement: parts that are put together again with this word are found again,
also after each of them has been replaced by a text that brings no alias of its own. -/

namespace SparqlClient

open Text Shape Statement

/-- The word `as` in any letter case, with blanks on both sides. -/
inductive IsJoint : List Char → Prop
  | between {gap gap' : List Char} {x y d : Char} (present : gap ≠ [])
      (blank : ∀ c ∈ gap, isBlank c) (letter : fold x = 'a') (letter' : fold y = 's')
      (ended : isBlank d) (blank' : ∀ c ∈ gap', isBlank c) : IsJoint (gap ++ x :: y :: d :: gap')

theorem isBlank_of_fold {c : Char} (h : fold c = 'a' ∨ fold c = 's') : isBlank c = false := by
  refine Bool.eq_false_iff.2 fun blank => ?_
  have word : isWord c :=
    isWord_of_isLower_fold (by rcases h with same | same <;> rw [same] <;> decide)
  rw [isWord_of_isBlank blank] at word
  cases word

namespace IsJoint

variable {j : List Char}

theorem exists_head (h : IsJoint j) : ∃ b rest, j = b :: rest ∧ isBlank b := by
  obtain ⟨present, blank, -, -, -, -⟩ := h
  rename_i gap _ _ _ _
  cases gap with
  | nil => exact absurd rfl present
  | cons b gap => exact ⟨b, _, rfl, blank b (List.mem_cons_self ..)⟩

theorem not_mem (h : IsJoint j) {c : Char} (visible : isBlank c = false)
    (other : fold c ≠ 'a' ∧ fold c ≠ 's') : c ∉ j := by
  obtain ⟨-, blank, letter, letter', ended, blank'⟩ := h
  have apart {x : Char} (own : isBlank x) : x ≠ c := by
    rintro rfl
    rw [visible] at own
    cases own
  intro member
  simp only [List.mem_append, List.mem_cons] at member
  rcases member with early | rfl | rfl | rfl | late
  · exact apart (blank c early) rfl
  · exact other.1 letter
  · exact other.2 letter'
  · exact apart ended rfl
  · exact apart (blank' c late) rfl

theorem append (h : IsJoint j) {s : List Char} (more : ∀ c ∈ s, isBlank c) : IsJoint (j ++ s) := by
  obtain ⟨present, blank, letter, letter', ended, blank'⟩ := h
  rw [List.append_assoc]
  exact .between present blank letter letter' ended (List.forall_mem_append.2 ⟨blank', more⟩)

theorem cons (h : IsJoint j) {c : Char} (more : isBlank c) : IsJoint (c :: j) := by
  obtain ⟨-, blank, letter, letter', ended, blank'⟩ := h
  exact .between (List.cons_ne_nil _ _) (List.forall_mem_cons.2 ⟨more, blank⟩) letter letter' ended
    blank'

theorem swap {b b' : Char} (h : IsJoint (j ++ [b])) (more : isBlank b') : IsJoint (j ++ [b']) := by
  generalize whole : j ++ [b] = k at h
  obtain ⟨present, blank, letter, letter', ended, blank'⟩ := h
  rename_i gap gap' x y d
  rcases gap'.eq_nil_or_concat with rfl | ⟨g, l, rfl⟩
  · have own : j ++ [b] = (gap ++ [x, y]) ++ [d] := by simpa using whole
    obtain ⟨rfl, -⟩ := List.append_inj' own rfl
    have own : IsJoint (gap ++ x :: y :: b' :: []) :=
      .between present blank letter letter' more (List.forall_mem_nil _)
    simpa using own
  · have own : j ++ [b] = (gap ++ x :: y :: d :: g) ++ [l] := by simpa using whole
    obtain ⟨rfl, -⟩ := List.append_inj' own rfl
    have front : IsJoint (gap ++ x :: y :: d :: g) :=
      .between present blank letter letter' ended fun c member =>
        blank' c (by simp [member])
    exact front.append (by simpa using more)

end IsJoint

/-- A joint stands at the front. -/
def OpensJoint (s : List Char) : Prop := ∃ j, IsJoint j ∧ j <+: s

theorem aliasHere?_eq_some_iff {s r : List Char} : aliasHere? s = some r ↔
    ∃ j, IsJoint j ∧ s = j ++ r ∧ ∀ c ∈ r.head?, isBlank c = false := by
  constructor
  · intro here
    cases s with
    | nil => cases here
    | cons c s =>
      rw [aliasHere?] at here
      split at here
      · rename_i blank
        split at here
        · rename_i d rest word
          split at here
          · rename_i ended
            obtain rfl := Option.some.inj here
            obtain ⟨v, behind, letters⟩ := afterWord?_eq_some_iff.1 word
            obtain ⟨x, y, rfl⟩ : ∃ x y, v = [x, y] := by
              have two : v.length = 2 := by simpa using congrArg List.length letters
              exact List.length_eq_two.1 two
            obtain ⟨letter, letter'⟩ : fold x = 'a' ∧ fold y = 's' := by simpa using letters
            have gap : ∀ b ∈ c :: s.takeWhile isBlank, isBlank b :=
              List.forall_mem_cons.2 ⟨blank, fun b member => List.mem_takeWhile_imp member⟩
            refine ⟨_, .between (List.cons_ne_nil _ _) gap letter letter' ended
              fun b member => List.mem_takeWhile_imp member (l := rest), ?_, ?_⟩
            · have whole := List.takeWhile_append_dropWhile (p := isBlank) (l := s)
              rw [behind] at whole
              refine congrArg (c :: ·) (whole.symm.trans ?_)
              simp
            · exact stop_of_dropWhile rest
          · cases here
        · cases here
      · cases here
  · rintro ⟨j, ⟨present, blank, letter, letter', ended, blank'⟩, rfl, visible⟩
    rename_i gap gap' x y d
    cases gap with
    | nil => exact absurd rfl present
    | cons c gap =>
      rw [List.forall_mem_cons] at blank
      have started : isBlank x = false := isBlank_of_fold (.inl letter)
      have word : (gap ++ x :: y :: d :: (gap' ++ r)).dropWhile isBlank =
          x :: y :: d :: (gap' ++ r) := by
        rw [List.dropWhile_append_of_pos blank.2, List.dropWhile_cons_of_neg (by simp [started])]
      have rest : (gap' ++ r).dropWhile isBlank = r := by
        rw [List.dropWhile_append_of_pos blank']
        cases r with
        | nil => rfl
        | cons b r => exact List.dropWhile_cons_of_neg (by simp [visible b rfl])
      have shape : c :: gap ++ x :: y :: d :: gap' ++ r =
          c :: (gap ++ x :: y :: d :: (gap' ++ r)) := by simp
      rw [shape, aliasHere?, if_pos blank.1, word]
      simp [afterWord?, letter, letter', ended, rest]

theorem OpensJoint.of_front {s t : List Char} (h : OpensJoint s) (front : s <+: t) :
    OpensJoint t := by
  obtain ⟨j, joint, early⟩ := h
  exact ⟨j, joint, early.trans front⟩

theorem opensJoint_iff {s : List Char} : OpensJoint s ↔ aliasHere? s ≠ none := by
  constructor
  · rintro ⟨j, joint, rest, rfl⟩
    have whole := List.takeWhile_append_dropWhile (p := isBlank) (l := rest)
    have blank : ∀ c ∈ rest.takeWhile isBlank, isBlank c := fun c member =>
      List.mem_takeWhile_imp member
    have here : aliasHere? (j ++ rest) = some (rest.dropWhile isBlank) := by
      refine aliasHere?_eq_some_iff.2 ⟨_, joint.append blank, ?_, stop_of_dropWhile rest⟩
      rw [List.append_assoc, whole]
    rw [here]
    exact Option.some_ne_none _
  · intro present
    obtain ⟨r, here⟩ := Option.ne_none_iff_exists'.1 present
    obtain ⟨j, joint, rfl, -⟩ := aliasHere?_eq_some_iff.1 here
    exact ⟨j, joint, List.prefix_append ..⟩

theorem OpensJoint.swap {s : List Char} {b b' : Char} (h : OpensJoint (s ++ [b]))
    (blank : isBlank b') : OpensJoint (s ++ [b']) := by
  obtain ⟨j, joint, front⟩ := h
  rcases List.prefix_concat_iff.1 front with rfl | inside
  · exact ⟨_, joint.swap blank, List.prefix_rfl⟩
  · exact ⟨j, joint, inside.trans (List.prefix_append ..)⟩

theorem OpensJoint.seam {s j rest : List Char} (last : ∀ c ∈ s.getLast?, isBlank c = false)
    (present : s ≠ []) (joint : IsJoint j) (h : OpensJoint (s ++ (j ++ rest))) :
    OpensJoint (s ++ [' ']) := by
  obtain ⟨b, j, rfl, blank⟩ := joint.exists_head
  obtain ⟨k, ⟨some, gap, letter, letter', ended, -⟩, front⟩ := h
  rename_i run run' x y d
  have mark : IsJoint (run ++ [x, y] ++ [d]) := by
    have own : IsJoint (run ++ x :: y :: d :: []) :=
      .between some gap letter letter' ended (List.forall_mem_nil _)
    simpa using own
  have early : run ++ [x, y] ++ [d] <+: s ++ (b :: j ++ rest) :=
    List.IsPrefix.trans ⟨run', by simp⟩ front
  refine OpensJoint.swap (b := b) ?_ (by decide)
  have seam : s ++ [b] <+: s ++ (b :: j ++ rest) := ⟨j ++ rest, by simp⟩
  rcases List.prefix_or_prefix_of_prefix early seam with inside | beyond
  · exact ⟨_, mark, inside⟩
  · rcases List.prefix_concat_iff.1 beyond with same | beyond
    · exact ⟨_, mark, same ▸ List.prefix_rfl⟩
    · -- the seam cannot lie behind the run of blanks, whose last character it would be
      have apart {c : Char} (own : fold c = 'a' ∨ fold c = 's') : b ≠ c := by
        rintro rfl
        rw [isBlank_of_fold own] at blank
        cases blank
      have shape : run ++ [x, y] = run ++ [x] ++ [y] := by simp
      rw [shape] at beyond
      rcases List.prefix_concat_iff.1 beyond with same | beyond
      · exact absurd (List.cons.inj (List.append_inj' same rfl).2).1 (apart (.inr letter'))
      · rcases List.prefix_concat_iff.1 beyond with same | beyond
        · exact absurd (List.cons.inj (List.append_inj' same rfl).2).1 (apart (.inl letter))
        · rcases s.eq_nil_or_concat with rfl | ⟨s, c, rfl⟩
          · exact absurd rfl present
          · have visible : isBlank c = false := last c (by simp)
            rw [gap c (beyond.subset (by simp))] at visible
            cases visible

def IsAliased (s : List Char) : Prop := ∃ j, IsJoint j ∧ j <:+: s

theorem isAliased_cons {c : Char} {s : List Char} :
    IsAliased (c :: s) ↔ OpensJoint (c :: s) ∨ IsAliased s := by
  simp only [IsAliased, OpensJoint, List.infix_cons_iff, and_or_left, exists_or]

theorem not_isAliased_nil : ¬IsAliased [] := by
  rintro ⟨j, joint, inside⟩
  obtain ⟨b, rest, rfl, -⟩ := joint.exists_head
  exact absurd (List.infix_nil.1 inside) (List.cons_ne_nil _ _)

theorem aliasCut?_eq_none_iff {s : List Char} : aliasCut? s = none ↔ ¬IsAliased s := by
  induction s with
  | nil => simp [aliasCut?, not_isAliased_nil]
  | cons c s ih =>
    rw [isAliased_cons, opensJoint_iff, aliasCut?, Option.or_eq_none_iff, Option.map_eq_none_iff,
      Option.map_eq_none_iff, ih, not_or, not_not]

/-- A text cut at its first joint, to which the blanks around it belong. -/
structure IsAliasCut (s a b : List Char) : Prop where
  joint : ∃ j, IsJoint j ∧ s = a ++ (j ++ b)
  bare : ¬IsAliased (a ++ [' '])
  ended : ∀ c ∈ a.getLast?, isBlank c = false
  begun : ∀ c ∈ b.head?, isBlank c = false

theorem isAliasCut_nil {s b : List Char} : IsAliasCut s [] b ↔ aliasHere? s = some b := by
  constructor
  · rintro ⟨⟨j, joint, rfl⟩, -, -, begun⟩
    exact aliasHere?_eq_some_iff.2 ⟨j, joint, rfl, begun⟩
  · intro here
    obtain ⟨j, joint, whole, begun⟩ := aliasHere?_eq_some_iff.1 here
    exact ⟨⟨j, joint, whole⟩, aliasCut?_eq_none_iff.1 rfl, by simp, begun⟩

theorem IsAliasCut.cons {s a b : List Char} {c : Char} (h : IsAliasCut s a b)
    (unled : ¬OpensJoint (c :: s)) : IsAliasCut (c :: s) (c :: a) b := by
  obtain ⟨⟨j, joint, rfl⟩, bare, ended, begun⟩ := h
  obtain ⟨d, rest, own, blank⟩ := joint.exists_head
  refine ⟨⟨j, joint, rfl⟩, ?_, ?_, begun⟩
  · rw [List.cons_append, isAliased_cons]
    rintro (leads | inside)
    · refine unled ((leads.swap blank (s := c :: a)).of_front ⟨rest ++ b, ?_⟩)
      simp [own]
    · exact bare inside
  · rcases a.eq_nil_or_concat with rfl | ⟨a, e, rfl⟩
    · -- a blank in front of the joint would open it
      rintro e last
      obtain rfl : c = e := by simpa using last
      refine Bool.eq_false_iff.2 fun blank => unled ?_
      exact ⟨c :: j, joint.cons blank, by simp⟩
    · intro x last
      rw [List.getLast?_cons] at last
      exact ended x (by simpa using last)

theorem IsAliasCut.tail {s a b : List Char} {c : Char} (h : IsAliasCut s (c :: a) b) :
    ∃ t, s = c :: t ∧ ¬OpensJoint s ∧ IsAliasCut t a b := by
  obtain ⟨⟨j, joint, rfl⟩, bare, ended, begun⟩ := h
  rw [List.cons_append, isAliased_cons, not_or] at bare
  refine ⟨_, rfl, fun leads => bare.1 (leads.seam ended (List.cons_ne_nil _ _) joint), ?_⟩
  refine ⟨⟨j, joint, rfl⟩, bare.2, fun x last => ended x ?_, begun⟩
  rw [List.getLast?_cons, Option.mem_def.1 last]
  rfl

theorem aliasCut?_eq_some_iff {s a b : List Char} :
    aliasCut? s = some (a, b) ↔ IsAliasCut s a b := by
  constructor
  · intro cut
    induction s generalizing a with
    | nil => cases cut
    | cons c s ih =>
      rw [aliasCut?, Option.or_eq_some_iff] at cut
      rcases cut with first | ⟨later, cut⟩
      · obtain ⟨r, here, same⟩ := Option.map_eq_some_iff.1 first
        obtain ⟨rfl, rfl⟩ := Prod.mk.inj same
        exact isAliasCut_nil.2 here
      · obtain ⟨⟨a', b'⟩, behind, same⟩ := Option.map_eq_some_iff.1 cut
        obtain ⟨rfl, rfl⟩ := Prod.mk.inj same
        rw [Option.map_eq_none_iff] at later
        exact (ih behind).cons fun leads => opensJoint_iff.1 leads later
  · intro cut
    induction a generalizing s with
    | nil =>
      have here := isAliasCut_nil.1 cut
      cases s with
      | nil => cases here
      | cons c s => simp [aliasCut?, here]
    | cons c a ih =>
      obtain ⟨t, rfl, unled, behind⟩ := cut.tail
      rw [opensJoint_iff, not_not] at unled
      rw [aliasCut?, unled, ih behind]
      rfl

/-! The list of the parts. -/

/-- What the parts of a text are: none has an alias of its own, also not with the joint behind it,
and the joint takes the blanks. -/
inductive Parted : List (List Char) → Prop
  | last {p : List Char} (bare : ¬IsAliased p) : Parted [p]
  | cons {p q : List Char} {ps : List (List Char)} (bare : ¬IsAliased (p ++ [' ']))
      (ended : ∀ c ∈ p.getLast?, isBlank c = false) (begun : ∀ c ∈ q.head?, isBlank c = false)
      (filled : q = [] → ps = []) (rest : Parted (q :: ps)) : Parted (p :: q :: ps)

theorem aliasParts_of_none {s : List Char} (h : aliasCut? s = none) : aliasParts s = [s] := by
  rw [aliasParts]
  split
  · rfl
  · rename_i cut
    rw [h] at cut
    cases cut

theorem aliasParts_of_some {s a b : List Char} (h : aliasCut? s = some (a, b)) :
    aliasParts s = a :: aliasParts b := by
  rw [aliasParts]
  split
  · rename_i cut
    rw [h] at cut
    cases cut
  · rename_i cut
    rw [h] at cut
    obtain ⟨rfl, rfl⟩ := Prod.mk.inj (Option.some.inj cut)
    rfl

theorem exists_aliasParts {s : List Char} (visible : ∀ c ∈ s.head?, isBlank c = false) :
    ∃ p ps, aliasParts s = p :: ps ∧ (∀ c ∈ p.head?, isBlank c = false) ∧ (p = [] → ps = []) := by
  cases cut : aliasCut? s with
  | none => exact ⟨s, [], aliasParts_of_none cut, visible, fun _ => rfl⟩
  | some parts =>
    obtain ⟨a, b⟩ := parts
    refine ⟨a, aliasParts b, aliasParts_of_some cut, ?_⟩
    obtain ⟨⟨j, joint, rfl⟩, -⟩ := aliasCut?_eq_some_iff.1 cut
    cases a with
    | nil =>
      obtain ⟨d, rest, rfl, blank⟩ := joint.exists_head
      rw [visible d rfl] at blank
      cases blank
    | cons c a => exact ⟨visible, fun none => absurd none (List.cons_ne_nil _ _)⟩

theorem parted_aliasParts (s : List Char) : Parted (aliasParts s) := by
  induction s using aliasParts.induct with
  | case1 s none =>
    rw [aliasParts_of_none none]
    exact .last (aliasCut?_eq_none_iff.1 none)
  | case2 s a b cut ih =>
    obtain ⟨-, bare, ended, visible⟩ := aliasCut?_eq_some_iff.1 cut
    obtain ⟨q, ps, parts, begun, filled⟩ := exists_aliasParts visible
    rw [aliasParts_of_some cut, parts]
    exact .cons bare ended begun filled (parts ▸ ih)

def asJoint : List Char := [' ', 'a', 's', ' ']

theorem isJoint_asJoint : IsJoint asJoint :=
  @IsJoint.between [' '] [] 'a' 's' ' ' (by simp) (by decide) rfl rfl rfl (by simp)

theorem aliasParts_intercalate {ps : List (List Char)} (h : Parted ps) :
    aliasParts (asJoint.intercalate ps) = ps := by
  induction h with
  | last bare =>
    rw [List.intercalate_singleton]
    exact aliasParts_of_none (aliasCut?_eq_none_iff.2 bare)
  | @cons p q ps bare ended begun filled rest ih =>
    have visible : ∀ c ∈ (asJoint.intercalate (q :: ps)).head?, isBlank c = false := by
      cases ps with
      | nil => simpa using begun
      | cons r ps =>
        cases q with
        | nil => exact absurd (filled rfl) (List.cons_ne_nil _ _)
        | cons c q =>
          rw [List.intercalate_cons_cons]
          exact begun
    have whole : asJoint.intercalate (p :: q :: ps) =
        p ++ (asJoint ++ asJoint.intercalate (q :: ps)) := by
      rw [List.intercalate_cons_cons, List.append_assoc]
    have cut : aliasCut? (asJoint.intercalate (p :: q :: ps)) =
        some (p, asJoint.intercalate (q :: ps)) :=
      aliasCut?_eq_some_iff.2 ⟨⟨asJoint, isJoint_asJoint, whole⟩, bare, ended, visible⟩
    rw [aliasParts_of_some cut, ih]

/-- The second text, in place of the first one, brings no alias and no blank. -/
structure StandsFor (p w : List Char) : Prop where
  bare (tail : List Char) : IsAliased (w ++ tail) → IsAliased (p ++ tail)
  begun : (∀ c ∈ p.head?, isBlank c = false) → ∀ c ∈ w.head?, isBlank c = false
  ended : (∀ c ∈ p.getLast?, isBlank c = false) → ∀ c ∈ w.getLast?, isBlank c = false
  filled : w = [] → p = []

theorem StandsFor.refl (p : List Char) : StandsFor p p := ⟨fun _ => id, id, id, id⟩

theorem Parted.of_standsFor {ps ws : List (List Char)} (h : Parted ps)
    (each : List.Forall₂ StandsFor ps ws) : Parted ws := by
  induction h generalizing ws with
  | last bare =>
    obtain _ | ⟨keeps, none⟩ := each
    obtain rfl := List.forall₂_nil_left_iff.1 none
    refine .last fun aliased => bare ?_
    simpa using keeps.bare [] (by simpa using aliased)
  | cons bare ended begun filled rest ih =>
    obtain _ | ⟨first, _ | ⟨second, others⟩⟩ := each
    refine .cons (fun aliased => bare (first.bare _ aliased)) (first.ended ended)
      (second.begun begun) (fun none => ?_) (ih (.cons second others))
    have last := filled (second.filled none)
    rw [last] at others
    exact List.forall₂_nil_left_iff.1 others

theorem isAliased_between {a b : List Char} {c : Char} (visible : isBlank c = false)
    (other : fold c ≠ 'a' ∧ fold c ≠ 's') (h : IsAliased (a ++ c :: b)) :
    IsAliased a ∨ IsAliased b := by
  obtain ⟨j, joint, inside⟩ := h
  have apart := joint.not_mem visible other
  have behind {l : List Char} (front : l <+: c :: b) (part : l ⊆ j) : l = [] := by
    cases l with
    | nil => rfl
    | cons x l =>
      obtain ⟨rfl, -⟩ := List.cons_prefix_cons.1 front
      exact absurd (part (List.mem_cons_self ..)) apart
  rcases List.infix_append_iff.1 inside with left | right | ⟨l, r, rfl, left, right⟩
  · exact .inl ⟨j, joint, left⟩
  · rcases List.infix_cons_iff.1 right with front | later
    · obtain ⟨d, rest, own, -⟩ := joint.exists_head
      exact absurd (own.symm.trans (behind front (List.Subset.refl _))) (List.cons_ne_nil _ _)
    · exact .inr ⟨j, joint, later⟩
  · obtain rfl := behind right (List.subset_append_right ..)
    rw [List.append_nil] at joint
    exact .inl ⟨l, joint, left.isInfix⟩

end SparqlClient
