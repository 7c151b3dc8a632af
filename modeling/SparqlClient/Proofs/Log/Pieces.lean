import Mathlib.Data.List.TakeWhile
import SparqlClient.Proofs.Log.Passes
import SparqlClient.Proofs.Statement.Prologue

/-! The pieces that scrubbing replaces, each by its form: credentials of a URL, secrets with a name,
URLs with a query, and tokens. -/

namespace SparqlClient.Log

open Text Statement

def webSchemes : List (List Char) := ["http://".toList, "https://".toList]

theorem webScheme?_eq_some_iff {s scheme rest : List Char} :
    webScheme? s = some (scheme, rest) ↔ scheme ∈ webSchemes ∧ s = scheme ++ rest := by
  rw [webScheme?, webSchemes]
  constructor
  · intro h
    rcases Option.or_eq_some_iff.1 h with one | ⟨-, other⟩
    · obtain ⟨r, cut, same⟩ := Option.map_eq_some_iff.1 one
      obtain ⟨rfl, rfl⟩ := Prod.mk.inj same
      exact ⟨by simp, after?_eq_some_iff.1 cut⟩
    · obtain ⟨r, cut, same⟩ := Option.map_eq_some_iff.1 other
      obtain ⟨rfl, rfl⟩ := Prod.mk.inj same
      exact ⟨by simp, after?_eq_some_iff.1 cut⟩
  · rintro ⟨web, rfl⟩
    rcases List.mem_pair.1 web with rfl | rfl
    · rfl
    · rfl

/-- A user, possibly with a password: not empty in front of the first colon, and on its own in front
of the first at sign. -/
structure IsUserInfo (s : List Char) : Prop where
  filled : s ≠ []
  named : s.head? ≠ some ':'
  plain : ∀ c ∈ s, isPasswordChar c

instance (s : List Char) : Decidable (IsUserInfo s) :=
  decidable_of_iff (s ≠ [] ∧ s.head? ≠ some ':' ∧ ∀ c ∈ s, isPasswordChar c)
    ⟨fun ⟨filled, named, plain⟩ => ⟨filled, named, plain⟩,
      fun ⟨filled, named, plain⟩ => ⟨filled, named, plain⟩⟩

theorem isUserChar_iff {c : Char} : isUserChar c ↔ isPasswordChar c ∧ c ≠ ':' := by
  by_cases colon : c = ':'
  · simp [isUserChar, colon]
  · simp [isUserChar, isPasswordChar, colon]

theorem userInfo?_eq_some_iff {s new rest : List Char} :
    userInfo? s = some (new, rest) ↔ ∃ scheme info, scheme ∈ webSchemes ∧ IsUserInfo info ∧
      s = scheme ++ (info ++ '@' :: rest) ∧ new = scheme ++ redacted ++ ['@'] := by
  constructor
  · intro h
    obtain ⟨⟨scheme, r⟩, found, read⟩ := Option.bind_eq_some_iff.1 h
    obtain ⟨web, rfl⟩ := webScheme?_eq_some_iff.1 found
    have split := List.takeWhile_append_dropWhile (p := isUserChar) (l := r)
    have users : ∀ c ∈ r.takeWhile isUserChar, isPasswordChar c ∧ c ≠ ':' :=
      fun c hc => isUserChar_iff.1 (List.mem_takeWhile_imp hc)
    simp only at read
    generalize r.takeWhile isUserChar = name at read split users
    split at read
    · cases read
    rename_i filled
    rw [List.isEmpty_iff] at filled
    have named : name.head? ≠ some ':' := fun head => (users ':' (List.mem_of_mem_head? head)).2 rfl
    split at read
    · rename_i t behind
      obtain ⟨rfl, rfl⟩ := Prod.mk.inj (Option.some.inj read)
      rw [behind] at split
      exact ⟨scheme, name, web, ⟨filled, named, fun c hc => (users c hc).1⟩, by rw [split], rfl⟩
    · rename_i t behind
      have word : ∀ c ∈ t.takeWhile isPasswordChar, isPasswordChar c :=
        fun c => List.mem_takeWhile_imp
      have more := List.takeWhile_append_dropWhile (p := isPasswordChar) (l := t)
      split at read
      · rename_i u closing
        obtain ⟨rfl, rfl⟩ := Prod.mk.inj (Option.some.inj read)
        rw [behind, ← more, closing] at split
        refine ⟨scheme, name ++ ':' :: t.takeWhile isPasswordChar, web, ⟨by simp, ?_, ?_⟩,
          by simp [← split], rfl⟩
        · rwa [List.head?_append_of_ne_nil name filled]
        · simp only [List.mem_append, List.mem_cons]
          rintro c (own | rfl | own)
          · exact (users c own).1
          · decide
          · exact word c own
      · cases read
    · cases read
  · rintro ⟨scheme, info, web, user, rfl, rfl⟩
    rw [userInfo?, webScheme?_eq_some_iff.2 ⟨web, rfl⟩]
    simp only [Option.bind_some]
    by_cases colon : ':' ∈ info
    · obtain ⟨name, word, rfl, apart⟩ := List.eq_append_cons_of_mem colon
      have filled : name ≠ [] := by
        rintro rfl
        exact user.named rfl
      have users : ∀ c ∈ name, isUserChar c := fun c hc =>
        isUserChar_iff.2 ⟨user.plain c (by simp [hc]), fun own => apart (own ▸ hc)⟩
      have words : ∀ c ∈ word, isPasswordChar c := fun c hc => user.plain c (by simp [hc])
      have stop : ∀ c ∈ (':' :: (word ++ '@' :: rest)).head?, isUserChar c = false := by
        simp [isUserChar]
      rw [List.append_assoc, List.cons_append, takeWhile_append_of_stop users stop,
        dropWhile_append_of_stop users stop, if_neg (by simpa using filled)]
      simp only [dropWhile_append_of_stop words
        (show ∀ c ∈ ('@' :: rest).head?, isPasswordChar c = false by simp [isPasswordChar])]
    · have users : ∀ c ∈ info, isUserChar c := fun c hc =>
        isUserChar_iff.2 ⟨user.plain c hc, fun own => colon (own ▸ hc)⟩
      have stop : ∀ c ∈ ('@' :: rest).head?, isUserChar c = false := by simp [isUserChar]
      rw [takeWhile_append_of_stop users stop, dropWhile_append_of_stop users stop,
        if_neg (by simpa using user.filled)]
      rfl

def secretNamed? (w : List Char) : Step := fun s =>
  match afterWord? w s with
  | some ('=' :: t) =>
    if (t.takeWhile isSecretChar).isEmpty then none
    else some (s.take w.length ++ '=' :: redacted, t.dropWhile isSecretChar)
  | _ => none

theorem secretNamed?_eq_some_iff {w s new rest : List Char} :
    secretNamed? w s = some (new, rest) ↔ ∃ name run, name.map fold = w ∧ run ≠ [] ∧
      (∀ c ∈ run, isSecretChar c) ∧ (∀ c ∈ rest.head?, isSecretChar c = false) ∧
      s = name ++ '=' :: (run ++ rest) ∧ new = name ++ '=' :: redacted := by
  rw [secretNamed?]
  constructor
  · intro h
    split at h
    · rename_i t after
      obtain ⟨name, rfl, rfl⟩ := afterWord?_eq_some_iff.1 after
      split at h
      · cases h
      rename_i filled
      obtain ⟨rfl, rfl⟩ := Prod.mk.inj (Option.some.inj h)
      refine ⟨name, t.takeWhile isSecretChar, rfl, by simpa using filled,
        fun c => List.mem_takeWhile_imp, stop_of_dropWhile t, ?_, by simp⟩
      rw [List.takeWhile_append_dropWhile]
    · cases h
  · rintro ⟨name, run, rfl, filled, all, stop, rfl, rfl⟩
    rw [afterWord?_append rfl]
    simp only [takeWhile_append_of_stop all stop, dropWhile_append_of_stop all stop,
      List.isEmpty_iff, filled, if_false]
    simp

theorem eq_of_secretNamed? {w w' s : List Char} {p p' : List Char × List Char}
    (plain : '=' ∉ w) (plain' : '=' ∉ w') (h : secretNamed? w s = some p)
    (h' : secretNamed? w' s = some p') : w = w' := by
  obtain ⟨name, run, rfl, -, -, -, rfl, -⟩ := secretNamed?_eq_some_iff.1 h
  obtain ⟨name', run', rfl, -, -, -, same, -⟩ := secretNamed?_eq_some_iff.1 h'
  have apart {n : List Char} (hn : '=' ∉ n.map fold) : ∀ c ∈ n, (c == '=') = false :=
    notMem_iff_beq.1 fun member => hn (List.mem_map_of_mem member)
  have cut := cutAt_append (b := run ++ p.2) (apart plain) (beq_self_eq_true '=')
  rw [same, cutAt_append (apart plain') (beq_self_eq_true '=')] at cut
  rw [(Prod.mk.inj (Option.some.inj cut)).1]

theorem secret?_eq_some_iff {s new rest : List Char} :
    secret? s = some (new, rest) ↔ ∃ name run, name.map fold ∈ secretWords ∧ run ≠ [] ∧
      (∀ c ∈ run, isSecretChar c) ∧ (∀ c ∈ rest.head?, isSecretChar c = false) ∧
      s = name ++ '=' :: (run ++ rest) ∧ new = name ++ '=' :: redacted := by
  have plain : ∀ w ∈ secretWords, '=' ∉ w := by decide
  have words : secret? s = secretWords.findSome? (secretNamed? · s) := rfl
  rw [words]
  constructor
  · intro h
    obtain ⟨w, known, found⟩ := List.exists_of_findSome?_eq_some h
    obtain ⟨name, run, rfl, others⟩ := secretNamed?_eq_some_iff.1 found
    exact ⟨name, run, known, others⟩
  · rintro ⟨name, run, known, others⟩
    have own := secretNamed?_eq_some_iff.2 ⟨name, run, rfl, others⟩
    cases found : secretWords.findSome? (secretNamed? · s) with
    | none =>
      rw [List.findSome?_eq_none_iff.1 found _ known] at own
      cases own
    | some p =>
      obtain ⟨w, hw, first⟩ := List.exists_of_findSome?_eq_some found
      rw [eq_of_secretNamed? (plain w hw) (plain _ known) first own, own] at first
      exact first.symm

def isPathChar (c : Char) : Bool := !(c = '?' || isBlank c)

theorem isPathChar_iff {c : Char} : isPathChar c ↔ c ≠ '?' ∧ isBlank c = false := by
  simp [isPathChar]

def isSolid (c : Char) : Bool := !isBlank c

theorem urlQuery?_append {scheme : List Char} (web : scheme ∈ webSchemes) (r : List Char) :
    urlQuery? (scheme ++ r) = if (r.takeWhile isPathChar).isEmpty then none
      else match r.dropWhile isPathChar with
        | '?' :: query =>
          if (query.takeWhile isSolid).isEmpty then none
          else some (scheme ++ r.takeWhile isPathChar, query.dropWhile isSolid)
        | _ => none := by
  rw [urlQuery?, webScheme?_eq_some_iff.2 ⟨web, rfl⟩, ← drop_takeWhile]
  rfl

theorem urlQuery?_eq_some_iff {s new rest : List Char} :
    urlQuery? s = some (new, rest) ↔ ∃ scheme path query, scheme ∈ webSchemes ∧ path ≠ [] ∧
      (∀ c ∈ path, isPathChar c) ∧ query ≠ [] ∧ (∀ c ∈ query, isSolid c) ∧
      (∀ c ∈ rest.head?, isSolid c = false) ∧
      s = scheme ++ (path ++ '?' :: (query ++ rest)) ∧ new = scheme ++ path := by
  constructor
  · intro h
    obtain ⟨⟨scheme, r⟩, found, -⟩ := Option.bind_eq_some_iff.1 h
    obtain ⟨web, rfl⟩ := webScheme?_eq_some_iff.1 found
    rw [urlQuery?_append web] at h
    have split := List.takeWhile_append_dropWhile (p := isPathChar) (l := r)
    have plain : ∀ c ∈ r.takeWhile isPathChar, isPathChar c := fun c => List.mem_takeWhile_imp
    generalize r.takeWhile isPathChar = path at h split plain
    split at h
    · cases h
    rename_i filled
    split at h
    · rename_i query behind
      split at h
      · cases h
      rename_i asked
      obtain ⟨rfl, rfl⟩ := Prod.mk.inj (Option.some.inj h)
      refine ⟨scheme, path, query.takeWhile isSolid, web, by simpa using filled, plain,
        by simpa using asked, fun c => List.mem_takeWhile_imp, stop_of_dropWhile query, ?_, rfl⟩
      rw [List.takeWhile_append_dropWhile, ← behind, split]
    · cases h
  · rintro ⟨scheme, path, query, web, filled, plain, asked, solid, stop, rfl, rfl⟩
    have mark : ∀ c ∈ ('?' :: (query ++ rest)).head?, isPathChar c = false := by simp [isPathChar]
    rw [urlQuery?_append web, takeWhile_append_of_stop plain mark,
      dropWhile_append_of_stop plain mark, if_neg (by simpa using filled)]
    simp only [takeWhile_append_of_stop solid stop, dropWhile_append_of_stop solid stop]
    rw [if_neg (by simpa using asked)]

end SparqlClient.Log
