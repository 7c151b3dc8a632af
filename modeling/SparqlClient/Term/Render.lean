import SparqlClient.Term.Classify

/-! Terms and scalars as query text. Resources are written between angle brackets with single
slashes in their paths, strings between double quotes with escapes, variables with a question
mark, and everything else as it is. -/

namespace SparqlClient

open Text Shape

/-- Each run of slashes becomes one; `seen` tells whether the character before was a slash. -/
def squeezeSlashes (seen : Bool) : List Char → List Char
  | [] => []
  | '/' :: s => if seen then squeezeSlashes true s else '/' :: squeezeSlashes true s
  | c :: s => c :: squeezeSlashes false s

def isUrlSchemeChar (c : Char) : Bool := c.isAlphanum || c = '+' || c = '.' || c = '-'

def schemeCut? (s : List Char) : Option (List Char × List Char) :=
  match s with
  | c :: t =>
    let name := t.takeWhile isUrlSchemeChar
    if c.isAlpha then
      (after? ['/', '/'] ((t.drop name.length).drop 1)).bind fun rest =>
        if (t.drop name.length).head? = some ':' then
          some (c :: name ++ [':', '/', '/'], rest)
        else none
    else none
  | [] => none

def squeezePath (rest : List Char) : List Char :=
  match cutAt (· == '/') rest with
  | none => rest
  | some (host, remainder) =>
    match cutAt (· == '?') remainder with
    | none => host ++ squeezeSlashes false ('/' :: remainder)
    | some (path, query) => host ++ squeezeSlashes false ('/' :: path) ++ '?' :: query

def normalizeIriChars (s : List Char) : List Char :=
  match schemeCut? s with
  | none => s
  | some (scheme, rest) => scheme ++ squeezePath rest

theorem filter_squeezeSlashes (seen : Bool) (s : List Char) :
    (squeezeSlashes seen s).filter (· ≠ '/') = s.filter (· ≠ '/') := by
  fun_induction squeezeSlashes seen s with
  | case1 => rfl
  | case2 s ih => simpa using ih
  | case3 seen s _ ih => simpa using ih
  | case4 seen c s _ ih => rw [List.filter_cons, List.filter_cons, ih]

theorem filter_squeezePath (s : List Char) :
    (squeezePath s).filter (· ≠ '/') = s.filter (· ≠ '/') := by
  unfold squeezePath
  split
  · rfl
  · rename_i host remainder cut
    obtain ⟨d, slash, rfl⟩ := eq_of_cutAt cut
    obtain rfl : d = '/' := by simpa using slash
    split
    · rw [List.filter_append, List.filter_append, filter_squeezeSlashes]
    · rename_i path query cut'
      obtain ⟨d, mark, rfl⟩ := eq_of_cutAt cut'
      obtain rfl : d = '?' := by simpa using mark
      rw [List.filter_append, List.filter_append, List.filter_append, filter_squeezeSlashes]
      simp

theorem append_of_schemeCut? {s a b : List Char} (h : schemeCut? s = some (a, b)) :
    a ++ b = s := by
  unfold schemeCut? at h
  split at h
  · rename_i c t
    simp only at h
    split at h
    · obtain ⟨rest, separated, h⟩ := Option.bind_eq_some_iff.1 h
      split at h
      · rename_i colon
        obtain ⟨rfl, rfl⟩ := Prod.mk.inj (Option.some.inj h)
        have whole : t.takeWhile isUrlSchemeChar ++ t.drop (t.takeWhile isUrlSchemeChar).length = t :=
          List.prefix_iff_eq_append.1 (List.takeWhile_prefix _)
        generalize t.takeWhile isUrlSchemeChar = name at *
        cases rests : t.drop name.length with
        | nil => simp [rests] at colon
        | cons x u =>
          rw [rests] at whole separated colon
          obtain rfl : x = ':' := by simpa using colon
          have slashes : u = '/' :: '/' :: rest := after?_eq_some_iff.1 separated
          rw [← whole, slashes]
          simp
      · cases h
    · cases h
  · cases h

theorem filter_normalizeIriChars (s : List Char) :
    (normalizeIriChars s).filter (· ≠ '/') = s.filter (· ≠ '/') := by
  unfold normalizeIriChars
  split
  · rfl
  · rename_i scheme rest cut
    rw [← append_of_schemeCut? cut, List.filter_append, List.filter_append, filter_squeezePath]

theorem forall_mem_normalizeIriChars {P : Char → Prop} (slash : P '/') {s : List Char} :
    (∀ c ∈ normalizeIriChars s, P c) ↔ ∀ c ∈ s, P c := by
  have filtered (l : List Char) : (∀ c ∈ l, P c) ↔ ∀ c ∈ l.filter (· ≠ '/'), P c := by
    refine ⟨fun h c member => h c (List.mem_filter.1 member).1, fun h c member => ?_⟩
    by_cases own : c = '/'
    · exact own ▸ slash
    · exact h c (List.mem_filter.2 ⟨member, by simpa using own⟩)
  rw [filtered, filtered s, filter_normalizeIriChars]

def dropOpening : List Char → List Char
  | '<' :: s => s
  | s => s

def dropClosing (s : List Char) : List Char :=
  if s.getLast? = some '>' then s.dropLast else s

/-- Blanks and one angle bracket at each end go; slashes between host and query are single. -/
def normalizeIri (s : String) : String :=
  String.ofList (normalizeIriChars (dropClosing (dropOpening (trimBy isBlank s.toList))))

def angled (s : String) : String := "<" ++ normalizeIri s ++ ">"

def literalEscape (c : Char) : List Char :=
  if c = '\\' then ['\\', '\\']
  else if c = '"' then ['\\', '"']
  else if c = '\n' then ['\\', 'n']
  else if c = '\r' then ['\\', 'r']
  else if c = '\t' then ['\\', 't']
  else [c]

def escapeLiteral (s : String) : String := String.ofList (s.toList.flatMap literalEscape)

def doubleQuoted (s : String) : String := "\"" ++ escapeLiteral s ++ "\""

def datatypeSuffix (prefixes : Option Prefixes) (datatype : Value) : String :=
  let t := classify prefixes datatype
  if t.isResource then "^^" ++ angled t.value.plainText else "^^" ++ datatype.plainText

namespace Term

/-- The text of a term in a query. A whole number is written however many digits it has: the limit
of `Value.hasText` is not asked for here. -/
def render (prefixes : Option Prefixes) (t : Term) : String :=
  match t.kind with
  | .iri | .urn => angled t.value.plainText
  | .boolean => if t.value.truth then "true" else "false"
  | .variable => withMark t.value.plainText
  | .string =>
    let text := doubleQuoted t.value.plainText
    if t.lang.truth then text ++ "@" ++ t.lang.plainText
    else if t.datatype.truth then text ++ datatypeSuffix prefixes t.datatype
    else text
  | .numeric | .blank | .compact | .raw => t.value.plainText

end Term

def aliasHere? : List Char → Option (List Char)
  | c :: s =>
    if isBlank c then
      match afterWord? ['a', 's'] (s.dropWhile isBlank) with
      | some (d :: rest) => if isBlank d then some (rest.dropWhile isBlank) else none
      | _ => none
    else none
  | [] => none

theorem length_dropWhile_le (p : Char → Bool) (s : List Char) :
    (s.dropWhile p).length ≤ s.length := (List.dropWhile_sublist p).length_le

theorem length_afterWord? {w s r : List Char} (h : afterWord? w s = some r) :
    r.length ≤ s.length := by
  induction w generalizing s with
  | nil => simp_all [afterWord?]
  | cons x w ih =>
    cases s with
    | nil => simp [afterWord?] at h
    | cons c s =>
      rw [afterWord?] at h
      split at h
      · have := ih h
        simp only [List.length_cons]
        omega
      · simp at h

theorem length_aliasHere? {s r : List Char} (h : aliasHere? s = some r) : r.length < s.length := by
  cases s with
  | nil => simp [aliasHere?] at h
  | cons c s =>
    rw [aliasHere?] at h
    split at h
    · split at h
      · rename_i d rest hw
        split at h
        · obtain rfl := Option.some.inj h
          have h1 := length_afterWord? hw
          have h2 := length_dropWhile_le isBlank s
          have h3 := length_dropWhile_le isBlank rest
          simp only [List.length_cons] at h1 ⊢
          omega
        · simp at h
      · simp at h
    · simp at h

def aliasCut? : List Char → Option (List Char × List Char)
  | [] => none
  | c :: s =>
    ((aliasHere? (c :: s)).map fun rest => ([], rest)).or
      ((aliasCut? s).map fun (a, b) => (c :: a, b))

theorem length_aliasCut? {s a b : List Char} (h : aliasCut? s = some (a, b)) :
    b.length < s.length := by
  induction s generalizing a with
  | nil => simp [aliasCut?] at h
  | cons c s ih =>
    rw [aliasCut?, Option.or_eq_some_iff] at h
    rcases h with h | ⟨-, h⟩
    · obtain ⟨rest, hr, he⟩ := Option.map_eq_some_iff.1 h
      obtain ⟨-, rfl⟩ := Prod.mk.inj he
      exact length_aliasHere? hr
    · obtain ⟨⟨a', b'⟩, hc, he⟩ := Option.map_eq_some_iff.1 h
      obtain ⟨-, rfl⟩ := Prod.mk.inj he
      have := ih hc
      simp only [List.length_cons]
      omega

def aliasParts (s : List Char) : List (List Char) :=
  match _h : aliasCut? s with
  | none => [s]
  | some (a, b) => a :: aliasParts b
termination_by s.length
decreasing_by exact length_aliasCut? _h

def wrap (prefixes : Prefixes) (v : Value) : String :=
  match v with
  | .text s =>
    String.intercalate " as " ((aliasParts s.toList).map fun part =>
      (classifyText (some prefixes) (String.ofList part)).render (some prefixes))
  | v => (classify (some prefixes) v).render (some prefixes)

/-- A value in a block of data: texts that name nothing are strings, and null is unbound. -/
def dataValue (prefixes : Option Prefixes) (v : Value) : String :=
  match v with
  | .null => "UNDEF"
  | .term k x l d => (Term.mk k x l d).render prefixes
  | v =>
    let t := classify prefixes v
    if t.kind = .raw || t.kind = .compact then (Term.ofText .string v.plainText).render prefixes
    else t.render prefixes

end SparqlClient
