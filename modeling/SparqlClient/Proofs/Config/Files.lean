import SparqlClient.Proofs.Config.Settings

/-! Settings from files and from the environment. What the environment says is text and resolves by
itself; the section of a file has to describe entries, and these have to be usable beside what the
environment says. -/

namespace SparqlClient

namespace ConnectionConfig

open AuthConfig (either)

variable {es more : Entries} {name : String}

theorem get_put_of_forall_ne (h : ∀ e ∈ more, ∃ k, e.1 = .text k ∧ k ≠ name) :
    (put es more).get name = es.get name := by
  induction more generalizing es with
  | nil => rfl
  | cons e more ih =>
    rw [List.forall_mem_cons] at h
    obtain ⟨⟨k, key, ne⟩, rest⟩ := h
    obtain ⟨_, v⟩ := e
    obtain rfl := key
    rw [put, List.foldl_cons, ← put, ih rest, Entries.get_insert_of_ne es ne]

theorem hasText_get_put (h : ∀ e ∈ more, (∃ k, e.1 = .text k) ∧ e.2.hasText)
    (own : (es.get name).hasText) : ((put es more).get name).hasText := by
  induction more generalizing es with
  | nil => exact own
  | cons e more ih =>
    rw [List.forall_mem_cons] at h
    obtain ⟨⟨⟨k, key⟩, text⟩, rest⟩ := h
    obtain ⟨_, v⟩ := e
    obtain rfl := key
    rw [put, List.foldl_cons, ← put]
    refine ih rest ?_
    by_cases same : k = name
    · rw [← same, Entries.get_insert_self]
      exact text
    · rwa [Entries.get_insert_of_ne es same]

theorem mem_overrides {e : Environment} {entry : Value × Value} (h : entry ∈ overrides e) :
    ∃ field ∈ overriding.map Prod.fst, ∃ s, entry = (.text field, .text s) := by
  obtain ⟨⟨field, var⟩, known, found⟩ := List.mem_filterMap.1 h
  obtain ⟨s, -, rfl⟩ := Option.map_eq_some_iff.1 found
  exact ⟨field, List.mem_map.2 ⟨_, known, rfl⟩, s, rfl⟩

theorem isUsable_overrides (r : Registry) (e : Environment) :
    IsUsable r (put [] (overrides e)) := by
  have texts (name : String) : ((put [] (overrides e)).get name).hasText := by
    refine hasText_get_put (fun entry member => ?_) Value.hasText_null
    obtain ⟨field, -, s, rfl⟩ := mem_overrides member
    exact ⟨⟨field, rfl⟩, Value.hasText_text s⟩
  have absent (name : String) (other : name ∉ overriding.map Prod.fst) :
      (put [] (overrides e)).get name = .null := by
    refine get_put_of_forall_ne fun entry member => ?_
    obtain ⟨field, known, s, rfl⟩ := mem_overrides member
    exact ⟨field, rfl, fun same => other (same ▸ known)⟩
  have first {a b : Value} (ha : a.hasText) (hb : b.hasText) : (either a b).hasText := by
    rw [either]
    split
    · exact ha
    · exact hb
  refine ⟨first (first (texts _) (texts _)) (Value.hasText_text _), ?_, ?_, ?_, ?_,
    first (texts _) (Value.hasText_text _), fun _ _ _ _ _ => texts _⟩
  · rw [absent _ (by decide)]
    exact fun given => absurd given (by decide)
  · rw [absent _ (by decide), absent _ (by decide)]
    exact fun given => absurd given (by decide)
  · rw [absent _ (by decide)]
    exact fun n same => by cases same
  · rw [absent _ (by decide)]
    exact fun n same => by cases same

theorem ofValue_map (r : Registry) (fields : Entries) :
    ofValue r (.map fields) = ofEntries r fields := by
  cases fields with
  | nil => rfl
  | cons e es => rfl

/-- A mapping whose section describes entries that are usable beside the environment. The section
is the whole mapping where it has none of its own. What is no mapping is refused, or empty. -/
def IsUsableDocument (r : Registry) (e : Environment) (v : Value) : Prop :=
  ∀ es, v = .map es → ∃ given, ((Entries.get? es "sparql").getD v).entries = .ok given ∧
    IsUsable r (put (put [] given) (overrides e))

theorem resolves_ofDocument_iff {r : Registry} {e : Environment} {path : String} {v : Value} :
    Resolves (IsChecked r) (ofDocument path v >>= fun es => ofEntries r (put es (overrides e))) ↔
      IsUsableDocument r e v := by
  have empty : Resolves (IsChecked r) (ofEntries r (put [] (overrides e))) :=
    (resolves_ofEntries_iff fun _ => id).2 (isUsable_overrides r e)
  by_cases mapping : ∃ es, v = .map es
  · obtain ⟨es, rfl⟩ := mapping
    have shape : IsUsableDocument r e (.map es) ↔
        ∃ given, ((Entries.get? es "sparql").getD (.map es)).entries = .ok given ∧
          IsUsable r (put (put [] given) (overrides e)) := by
      simp [IsUsableDocument]
    have section_iff : Resolves (IsChecked r)
        ((((Entries.get? es "sparql").getD (.map es)).entries.map (put [])) >>= fun es =>
          ofEntries r (put es (overrides e))) ↔ IsUsableDocument r e (.map es) := by
      rw [resolves_bind_iff (failsWith_map.2 (Value.failsWith_entries _)), shape]
      cases ((Entries.get? es "sparql").getD (.map es)).entries with
      | error e => simp [Except.map]
      | ok given => simp [Except.map, resolves_ofEntries_iff (fun _ => id)]
    cases es with
    | nil =>
      refine iff_of_true empty fun es same => ?_
      obtain rfl := Value.map.inj same
      exact ⟨[], rfl, isUsable_overrides r e⟩
    | cons entry es => exact section_iff
  · rw [not_exists] at mapping
    refine iff_of_true ?_ fun es same => absurd same (mapping es)
    unfold ofDocument
    split
    · exact empty
    · split
      · exact absurd rfl (mapping _)
      · exact .inr ⟨_, rfl⟩

theorem failsWith_read (d : Disk) (path : String) : FailsWith Error.IsRemote (d.read path) := by
  rw [Disk.read]
  split <;> simp [Error.IsRemote]

theorem resolves_ofText_iff {r : Registry} {e : Environment} {path text : String} :
    Resolves (IsChecked r) (ofText path text >>= fun es => ofEntries r (put es (overrides e))) ↔
      Resolves (IsUsableDocument r e) (document path text) := by
  rw [ofText]
  cases document path text with
  | error e => simp [Resolves, bind, Except.bind]
  | ok v =>
    have read : Resolves (IsChecked r)
        (ofDocument path v >>= fun es => ofEntries r (put es (overrides e))) ↔
          IsUsableDocument r e v := resolves_ofDocument_iff
    simpa [Resolves, bind, Except.bind] using read

theorem resolves_load_iff {r : Registry} {e : Environment} {path : Option String} :
    Resolves (IsChecked r) (load r e path) ↔
      ∀ p ∈ filePath? e path, e.disk.findPlain p ≠ .absent → ∃ text, e.disk.read p = .ok text ∧
        Resolves (IsUsableDocument r e) (document (Path.text p) text) := by
  have empty : Resolves (IsChecked r) (ofEntries r (put [] (overrides e))) :=
    (resolves_ofEntries_iff fun _ => id).2 (isUsable_overrides r e)
  rw [load]
  cases filePath? e path with
  | none => exact iff_of_true empty (by simp)
  | some p =>
    simp only [Option.mem_some_iff, forall_eq']
    by_cases absent : e.disk.findPlain p = .absent
    · refine iff_of_true ?_ fun found => absurd absent found
      rw [fileEntries, absent]
      exact empty
    · have read : fileEntries e p = (e.disk.read p >>= ofText (Path.text p)) := by
        unfold fileEntries
        split
        · exact absurd ‹_› absent
        · rfl
      rw [read, bind_assoc, resolves_bind_iff (failsWith_read _ _)]
      simp only [resolves_ofText_iff, ne_eq, absent, not_false_eq_true, true_implies]

/-- Reading the settings of a mapping, or of a file and the environment, comes to a checked
connection or to the report of a refused setting just where the settings are usable. Settings that
are not end it as misuse. -/
theorem resolves_iff (r : Registry) :
    (∀ fields, (Resolves (IsChecked r) (ofValue r (.map fields)) ↔ IsUsable r fields) ∧
      (¬IsUsable r fields → ∃ kind, ofValue r (.map fields) = .error (.misuse kind))) ∧
    ∀ (e : Environment) (path : Option String), Resolves (IsChecked r) (load r e path) ↔
      ∀ p ∈ filePath? e path, e.disk.findPlain p ≠ .absent → ∃ text, e.disk.read p = .ok text ∧
        Resolves (IsUsableDocument r e) (document (Path.text p) text) := by
  refine ⟨fun fields => ?_, fun e path => resolves_load_iff⟩
  rw [ofValue_map]
  exact ⟨resolves_ofEntries_iff fun _ => id, misuse_of_not_isUsable⟩

/-- A section without a value, a login that is a text, and prefixes that are a number. -/
theorem exists_unresolved :
    ofDocument "c.yml" (.map [(.text "sparql", .null)]) = .error (.misuse .wrongType) ∧
      ofValue .standard (.map [(.text "auth", .text "basic")]) = .error (.misuse .noMember) ∧
      ofValue .standard (.map [(.text "prefixes", .int 5)]) = .error (.misuse .wrongType) :=
  ⟨rfl, rfl, rfl⟩

end ConnectionConfig

end SparqlClient
