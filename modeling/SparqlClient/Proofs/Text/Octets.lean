import Mathlib.Data.List.Infix
import SparqlClient.Text.Octets

/-! A text whose octets are cut off anywhere. What is read of them is the longest beginning of the
text that is whole: the characters before the cut are read one by one, and no octet of the character
in which the cut lies begins another one. -/

namespace SparqlClient.Text

variable {c : Char} {bs : List UInt8}

theorem characters_eq_drop (passed : Nat) (bs : List UInt8) :
    characters passed bs = characters 0 (bs.drop passed) := by
  induction passed generalizing bs with
  | zero => rfl
  | succ passed ih =>
    cases bs with
    | nil => simp [characters]
    | cons b bs => exact ih bs

theorem firstChar?_append (c : Char) (bs : List UInt8) :
    firstChar? (String.utf8EncodeChar c ++ bs) = some c := by
  have short : (String.utf8EncodeChar c).length ≤ 4 := by
    rw [String.length_utf8EncodeChar]
    exact c.utf8Size_le_four
  rw [firstChar?, List.take_append, List.take_of_length_le short, List.toByteArray_append]
  exact ByteArray.utf8DecodeChar?_utf8EncodeChar_append

theorem eq_append_of_firstChar? (h : firstChar? bs = some c) :
    ∃ rest, bs = String.utf8EncodeChar c ++ rest := by
  obtain ⟨l, read⟩ := ByteArray.exists_of_utf8DecodeChar?_eq_some h
  have front : bs.take 4 = String.utf8EncodeChar c ++ l.data.toList := by
    have same : l = l.data.toList.toByteArray := ByteArray.ext (by simp)
    rw [← List.toByteArray_inj, read, List.toByteArray_append, ← same]
  exact ⟨l.data.toList ++ bs.drop 4, by
    rw [← List.append_assoc, ← front, List.take_append_drop]⟩

theorem characters_append (c : Char) (bs : List UInt8) :
    characters 0 (String.utf8EncodeChar c ++ bs) = c :: characters 0 bs := by
  have first := firstChar?_append c bs
  have size := String.length_utf8EncodeChar c
  cases own : String.utf8EncodeChar c with
  | nil =>
    rw [own] at size
    exact absurd size c.utf8Size_pos.ne
  | cons b rest =>
    have behind : rest.length = c.utf8Size - 1 := by
      rw [← size, own, List.length_cons, Nat.add_sub_cancel]
    rw [own, List.cons_append] at first
    rw [List.cons_append, characters, first]
    simp only
    rw [characters_eq_drop, ← behind, List.drop_left]

/-- No character has its octets among those of another one. -/
theorem eq_of_isInfix {d : Char} (part : String.utf8EncodeChar d <:+: String.utf8EncodeChar c) :
    d = c := by
  obtain ⟨before, behind, own⟩ := part
  have some_octet : 0 < (String.utf8EncodeChar d).length := by
    rw [String.length_utf8EncodeChar]
    exact d.utf8Size_pos
  have inside : before.length < (String.utf8EncodeChar c).length := by
    rw [← own, List.length_append, List.length_append]
    omega
  have place : (String.utf8EncodeChar c)[before.length] = (String.utf8EncodeChar d)[0] := by
    simp [← own, List.getElem_append_right, List.getElem_append_left some_octet]
  -- an octet that begins a character is the first one wherever it stands
  have first := UInt8.isUTF8FirstByte_getElem_zero_utf8EncodeChar (c := d)
  rw [← place, UInt8.isUTF8FirstByte_getElem_utf8EncodeChar] at first
  obtain rfl := List.eq_nil_of_length_eq_zero first
  have read : firstChar? (String.utf8EncodeChar c) = some d := by
    rw [← own, List.nil_append, firstChar?_append]
  have whole := firstChar?_append c []
  rw [List.append_nil, read] at whole
  exact Option.some.inj whole

theorem firstChar?_of_isInfix (part : bs <:+: String.utf8EncodeChar c)
    (short : bs.length < c.utf8Size) : firstChar? bs = none := by
  cases found : firstChar? bs with
  | none => rfl
  | some d =>
    obtain ⟨rest, rfl⟩ := eq_append_of_firstChar? found
    obtain rfl := eq_of_isInfix ((List.prefix_append _ rest).isInfix.trans part)
    rw [List.length_append, String.length_utf8EncodeChar] at short
    omega

theorem characters_of_isInfix (part : bs <:+: String.utf8EncodeChar c)
    (short : bs.length < c.utf8Size) : characters 0 bs = [] := by
  induction bs with
  | nil => rfl
  | cons b bs ih =>
    rw [characters, firstChar?_of_isInfix part short]
    exact ih ((List.suffix_cons b bs).isInfix.trans part) (Nat.lt_of_succ_lt short)

/-- The longest beginning of a text whose octets fit a budget. -/
structure IsLongest (budget : Nat) (s front : List Char) : Prop where
  starts : front <+: s
  fits : (octets front).length ≤ budget
  longest : ∀ t, t <+: s → (octets t).length ≤ budget → t <+: front

theorem IsLongest.nil (budget : Nat) : IsLongest budget [] [] :=
  ⟨List.prefix_rfl, Nat.zero_le _, fun _ start _ => start⟩

theorem IsLongest.stop {budget : Nat} (large : budget < c.utf8Size) (s : List Char) :
    IsLongest budget (c :: s) [] := by
  refine ⟨List.nil_prefix, Nat.zero_le _, fun t start fits => ?_⟩
  rcases List.prefix_cons_iff.1 start with rfl | ⟨t, rfl, -⟩
  · exact List.prefix_rfl
  · rw [length_octets_cons] at fits
    omega

theorem IsLongest.cons {budget : Nat} {s front : List Char} (small : c.utf8Size ≤ budget)
    (h : IsLongest (budget - c.utf8Size) s front) : IsLongest budget (c :: s) (c :: front) := by
  refine ⟨List.cons_prefix_cons.2 ⟨rfl, h.starts⟩, ?_, fun t start fits => ?_⟩
  · have rest := h.fits
    rw [length_octets_cons]
    omega
  · rcases List.prefix_cons_iff.1 start with rfl | ⟨t, rfl, begun⟩
    · exact List.nil_prefix
    · rw [length_octets_cons] at fits
      exact List.cons_prefix_cons.2 ⟨rfl, h.longest t begun (by omega)⟩

theorem isLongest_characters (budget : Nat) (s : List Char) :
    IsLongest budget s (characters 0 ((octets s).take budget)) := by
  induction s generalizing budget with
  | nil =>
    rw [octets, List.flatMap_nil, List.take_nil]
    exact .nil budget
  | cons c s ih =>
    have size := String.length_utf8EncodeChar c
    rw [octets_cons, List.take_append, size]
    by_cases small : c.utf8Size ≤ budget
    · rw [List.take_of_length_le (by omega), characters_append]
      exact (ih _).cons small
    · -- the cut lies within the octets of this character
      have large : budget < c.utf8Size := Nat.lt_of_not_le small
      have nothing : budget - c.utf8Size = 0 := Nat.sub_eq_zero_of_le large.le
      rw [nothing, List.take_zero, List.append_nil, characters_of_isInfix
        (List.take_prefix budget _).isInfix (by rw [List.length_take]; omega)]
      exact .stop large s

end SparqlClient.Text
