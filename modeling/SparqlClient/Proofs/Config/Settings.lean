import SparqlClient.Config.Load
import SparqlClient.Proofs.Failure.Basic
import SparqlClient.Proofs.Store.Names

/-! How reading the settings of a connection ends. It resolves when it gives a checked result or the
report of a setting that is refused. Some settings are used as mappings, as texts or as numbers
before anything is checked, and a value without that use ends the reading as misuse; for each step
it is said which values those are. -/

namespace SparqlClient

open Text

/-- A result of this kind, or the report of a setting that is refused. -/
def Resolves {α : Type} (P : α → Prop) (x : Outcome α) : Prop :=
  (∃ a, x = .ok a ∧ P a) ∨ ∃ cause, x = .error (.configuration cause)

section

variable {α β : Type} {P : β → Prop} {x : Outcome α} {f : α → Outcome β}

theorem resolves_pure_iff {b : β} : Resolves P (pure b : Outcome β) ↔ P b := by
  simp [Resolves, pure, Except.pure]

theorem resolves_refused (cause : ConfigurationError) :
    Resolves P (ConfigurationError.fail cause : Outcome β) := .inr ⟨cause, rfl⟩

theorem resolves_bind_iff (fails : FailsWith Error.IsRemote x) :
    Resolves P (x >>= f) ↔ ∃ a, x = .ok a ∧ Resolves P (f a) := by
  cases x with
  | ok a => simp [Resolves, bind, Except.bind]
  | error e => simp [Resolves, bind, Except.bind, (fails e rfl).2]

theorem resolves_bind_iff_of_resolves (resolved : Resolves (fun _ => True) x) :
    Resolves P (x >>= f) ↔ ∀ a, x = .ok a → Resolves P (f a) := by
  rcases resolved with ⟨a, rfl, -⟩ | ⟨cause, rfl⟩
  · simp [bind, Except.bind]
  · simp [Resolves, bind, Except.bind]

end

theorem exists_bind_iff {α β : Type} {x : Outcome α} {f : α → Outcome β} :
    (∃ b, (x >>= f) = .ok b) ↔ ∃ a, x = .ok a ∧ ∃ b, f a = .ok b := by
  cases x <;> simp [bind, Except.bind]

namespace Value

theorem exists_written_iff {v : Value} : (∃ s, v.written = .ok s) ↔ v.hasText := by
  rw [written, hasText]
  split <;> simp_all [Misuse.fail]

end Value

namespace AuthConfig

/-- A login is absent, or a mapping; what stands for its type has a text. -/
def IsUsable (v : Value) : Prop :=
  v.truth → ∃ es, v = .map es ∧ (either (Entries.get es "type") (.text "basic")).hasText

theorem failsWith_ofValue {P : Error → Prop} [AllowsMisuse P] (v : Value) :
    FailsWith P (ofValue v) := by
  simp [ofValue, Value.failsWith_written]

theorem exists_ofValue_iff {v : Value} : (∃ a, ofValue v = .ok a) ↔ IsUsable v := by
  rw [ofValue, IsUsable]
  split
  · rename_i given
    cases v with
    | map es =>
      simp only [Value.fields, exists_bind_iff, Except.ok.injEq, exists_eq_left', given]
      simp [← Value.exists_written_iff, pure, Except.pure]
    | _ => simp [given, Value.fields, Misuse.fail, bind, Except.bind]
  · rename_i absent
    simp [absent]

end AuthConfig

namespace ConnectionConfig

open AuthConfig (either)

/-- Prefixes are absent, or a mapping or a list of pairs, and all of them have texts. -/
def HasPrefixes (v : Value) : Prop :=
  v.truth → ∃ es, v.entries = .ok es ∧ ∀ e ∈ es, e.1.hasText ∧ e.2.hasText

theorem failsWith_prefixEntries {P : Error → Prop} [AllowsMisuse P] (v : Value) :
    FailsWith P (prefixEntries v) := by
  rw [prefixEntries, failsWith_ite]
  refine ⟨fun _ => ?_, fun _ => failsWith_pure _⟩
  rw [failsWith_bind]
  refine ⟨Value.failsWith_entries v, fun es _ => failsWith_foldlM (fun done e _ => ?_) []⟩
  simp [Value.failsWith_written]

theorem exists_prefixEntries_iff {v : Value} : (∃ ps, prefixEntries v = .ok ps) ↔ HasPrefixes v := by
  have written (es : Entries) (done : List (String × String)) :
      (∃ ps, es.foldlM (fun es e =>
        (return Prefixes.put (← e.1.written) (← e.2.written) es : Outcome _)) done = .ok ps) ↔
        ∀ e ∈ es, e.1.hasText ∧ e.2.hasText := by
    induction es generalizing done with
    | nil => simp [pure, Except.pure]
    | cons e es ih =>
      have one : (∃ ps, (return Prefixes.put (← e.1.written) (← e.2.written) done : Outcome _) =
          .ok ps) ↔ e.1.hasText ∧ e.2.hasText := by
        simp only [exists_bind_iff, ← Value.exists_written_iff]
        simp [pure, Except.pure]
      rw [List.foldlM_cons, exists_bind_iff, List.forall_mem_cons, ← one]
      simp only [ih, exists_and_right]
  rw [prefixEntries, HasPrefixes]
  split
  · rename_i given
    simp only [exists_bind_iff, written, given]
    simp
  · rename_i absent
    simp [absent, pure, Except.pure]

def IsInRange (v : Value) : Prop := ∀ n, v = .int n → (Value.floatOfInt n).isInf = false

theorem failsWith_number? {P : Error → Prop} [AllowsMisuse P] (v : Value) :
    FailsWith P (number? v) := by
  rw [number?, failsWith_ite]
  refine ⟨fun _ => failsWith_ok _, fun _ => ?_⟩
  split
  · exact failsWith_ok _
  · exact failsWith_ok _
  · exact failsWith_ok _
  · rename_i e _ _ found
    rw [failsWith_error]
    exact Value.failsWith_float? v e found

theorem exists_number?_iff {v : Value} : (∃ x, number? v = .ok x) ↔ IsInRange v := by
  have others (h : ∀ n, v ≠ .int n) (e : Error) (found : v.float? = .error e) :
      e = .misuse .wrongType ∨ e = .misuse .badValue := by
    unfold Value.float? at found
    split at found
    case h_2 n => exact absurd rfl (h n)
    case h_4 =>
      split at found
      case h_3 => split at found <;> simp_all [Misuse.fail]
      all_goals cases found
    case h_5 | h_6 | h_7 => split at found <;> simp_all [Misuse.fail]
    all_goals simp_all [Misuse.fail]
  rw [number?, IsInRange]
  by_cases whole : ∃ n, v = .int n
  · obtain ⟨n, rfl⟩ := whole
    cases far : (Value.floatOfInt n).isInf with
    | true => simp [Value.isNull, Value.float?, far, Misuse.fail]
    | false => simp [Value.isNull, Value.float?, far]
  · rw [not_exists] at whole
    simp only [whole, false_implies, implies_true, iff_true]
    split
    · exact ⟨_, rfl⟩
    · split
      · exact ⟨_, rfl⟩
      · exact ⟨_, rfl⟩
      · exact ⟨_, rfl⟩
      · rename_i e no_type no_value found
        rcases others whole e found with rfl | rfl
        · exact absurd rfl no_type
        · exact absurd rfl no_value

structure IsChecked (r : Registry) (c : ConnectionConfig) : Prop where
  store : (r.find? c.implementation).isSome
  auth : c.auth.type ∈ AuthConfig.types
  name : ∀ n ∈ c.namespaceName, Namespace.IsAccepted n

theorem resolves_checkStore_bind_iff {β : Type} {P : β → Prop} {r : Registry} {given : Value}
    {f : String → Outcome β} :
    Resolves P (checkStore r given >>= f) ↔ (either given (.text "generic")).hasText ∧
      ∀ store, checkStore r given = .ok store → Resolves P (f store) := by
  by_cases own : (either given (.text "generic")).hasText
  · have resolved : Resolves (fun _ => True) (checkStore r given) := by
      rw [checkStore, Value.written_of_hasText own]
      simp only [bind, Except.bind]
      split
      · exact .inl ⟨_, rfl, trivial⟩
      · exact resolves_refused _
    simp [resolves_bind_iff_of_resolves resolved, own]
  · obtain ⟨kind, unwritten⟩ := Value.written_of_not_hasText own
    simp [checkStore, unwritten, own, Resolves, bind, Except.bind]

theorem find?_of_checkStore {r : Registry} {given : Value} {store : String}
    (h : checkStore r given = .ok store) : (r.find? store).isSome := by
  obtain ⟨s, -, checked⟩ := Outcome.bind_eq_ok_iff.1 h
  simp only at checked
  split at checked
  · rename_i known
    exact Except.ok.inj checked ▸ known
  · cases checked

theorem resolves_checkAuth (a : AuthConfig) : Resolves (fun _ => True) (checkAuth a) := by
  rw [checkAuth]
  split
  · exact .inl ⟨(), rfl, trivial⟩
  · exact resolves_refused _

theorem mem_types_of_checkAuth {a : AuthConfig} (h : checkAuth a = .ok ()) :
    a.type ∈ AuthConfig.types := by
  rw [checkAuth] at h
  split at h
  · rename_i known
    simpa using known
  · cases h

theorem resolves_checkNamespace_bind_iff {β : Type} {P : β → Prop} {v : Value}
    {f : Option String → Outcome β} : Resolves P (checkNamespace v >>= f) ↔
      v.hasText ∧ ∀ name, checkNamespace v = .ok name → Resolves P (f name) := by
  by_cases own : v.hasText
  · have resolved : Resolves (fun _ => True) (checkNamespace v) := by
      rw [checkNamespace, Namespace.validate, Value.written_of_hasText own]
      split
      · exact .inl ⟨_, rfl, trivial⟩
      · split
        · split
          · exact .inl ⟨_, rfl, trivial⟩
          · exact .inr ⟨_, rfl⟩
        · exact .inr ⟨_, rfl⟩
    simp [resolves_bind_iff_of_resolves resolved, own]
  · obtain ⟨kind, unwritten⟩ := Value.written_of_not_hasText own
    have failed : checkNamespace v = .error (.misuse kind) := by
      cases v <;> simp_all [checkNamespace, Namespace.validate, Value.isNull, Value.chars?,
        Except.map, bind, Except.bind]
    simp [failed, own, Resolves, bind, Except.bind]

theorem isAccepted_of_checkNamespace {v : Value} {name : Option String}
    (h : checkNamespace v = .ok name) : ∀ n ∈ name, Namespace.IsAccepted n := by
  rw [checkNamespace] at h
  split at h
  · cases h
    simp
  · rintro n rfl
    cases valid : Namespace.validate v with
    | error e =>
      rw [valid] at h
      cases h
    | ok m =>
      rw [valid] at h
      obtain rfl := Option.some.inj (Except.ok.inj h)
      exact (Namespace.isAccepted_of_validate valid).2

/-- What is used before it is checked has its use: the settings are read in one order, and the
namespace is shown in a report only behind the checks of the store and of the authentication. -/
structure IsUsable (r : Registry) (fields : Entries) : Prop where
  endpoint : (either (either (fields.get "endpoint") (fields.get "host"))
    (.text defaultEndpoint)).hasText
  auth : AuthConfig.IsUsable (fields.get "auth")
  prefixes : HasPrefixes (either (fields.get "prefixes") (fields.get "namespaces"))
  timeout : IsInRange (fields.get "timeout")
  cacheTtl : IsInRange (fields.get "cache_ttl")
  implementation : (either (fields.get "implementation") (.text "generic")).hasText
  name : ∀ store auth, checkStore r (fields.get "implementation") = .ok store →
    AuthConfig.ofValue (fields.get "auth") = .ok auth → checkAuth auth = .ok () →
    (fields.get "namespace").hasText

theorem resolves_ofEntries_iff {r : Registry} {fields : Entries} {P : ConnectionConfig → Prop}
    (checks : ∀ c, IsChecked r c → P c) : Resolves P (ofEntries r fields) ↔ IsUsable r fields := by
  simp only [ofEntries, resolves_bind_iff (Value.failsWith_written _),
    resolves_bind_iff (AuthConfig.failsWith_ofValue _), resolves_bind_iff (failsWith_prefixEntries _),
    resolves_bind_iff (failsWith_number? _), resolves_checkStore_bind_iff,
    resolves_bind_iff_of_resolves (resolves_checkAuth _), resolves_checkNamespace_bind_iff,
    resolves_pure_iff]
  constructor
  · rintro ⟨endpoint, e1, auth, e2, prefixes, e3, timeout, e4, ttl, e5, text, checked⟩
    refine ⟨Value.exists_written_iff.1 ⟨_, e1⟩, AuthConfig.exists_ofValue_iff.1 ⟨_, e2⟩,
      exists_prefixEntries_iff.1 ⟨_, e3⟩, exists_number?_iff.1 ⟨_, e4⟩,
      exists_number?_iff.1 ⟨_, e5⟩, text, fun store auth' known read kind => ?_⟩
    rw [e2] at read
    obtain rfl := Except.ok.inj read
    exact (checked store known () kind).1
  · intro usable
    obtain ⟨endpoint, e1⟩ := Value.exists_written_iff.2 usable.endpoint
    obtain ⟨auth, e2⟩ := AuthConfig.exists_ofValue_iff.2 usable.auth
    obtain ⟨prefixes, e3⟩ := exists_prefixEntries_iff.2 usable.prefixes
    obtain ⟨timeout, e4⟩ := exists_number?_iff.2 usable.timeout
    obtain ⟨ttl, e5⟩ := exists_number?_iff.2 usable.cacheTtl
    refine ⟨endpoint, e1, auth, e2, prefixes, e3, timeout, e4, ttl, e5, usable.implementation,
      fun store known _ kind => ⟨usable.name store auth known e2 kind, fun name valid => ?_⟩⟩
    exact checks _ ⟨find?_of_checkStore known, mem_types_of_checkAuth kind,
      isAccepted_of_checkNamespace valid⟩

def EndsReading (e : Error) : Prop := (∃ cause, e = .configuration cause) ∨ ∃ kind, e = .misuse kind

instance : AllowsMisuse EndsReading := ⟨fun kind => .inr ⟨kind, rfl⟩⟩

theorem failsWith_ofEntries (r : Registry) (fields : Entries) :
    FailsWith EndsReading (ofEntries r fields) := by
  have refused (cause : ConfigurationError) : EndsReading (.configuration cause) := .inl ⟨cause, rfl⟩
  have store (given : Value) : FailsWith EndsReading (checkStore r given) := by
    simp [checkStore, Value.failsWith_written, refused]
  have auth (a : AuthConfig) : FailsWith EndsReading (checkAuth a) := by
    simp [checkAuth, refused]
  have name (v : Value) : FailsWith EndsReading (checkNamespace v) := by
    rw [checkNamespace, Namespace.validate]
    split
    · exact failsWith_ok _
    · split
      · split <;> simp [refused]
      · simp [refused]
  simp [ofEntries, Value.failsWith_written, AuthConfig.failsWith_ofValue, failsWith_prefixEntries,
    failsWith_number?, store, auth, name]

theorem misuse_of_not_isUsable {r : Registry} {fields : Entries} (h : ¬IsUsable r fields) :
    ∃ kind, ofEntries r fields = .error (.misuse kind) := by
  have unresolved : ¬Resolves (fun _ => True) (ofEntries r fields) := fun resolved =>
    h ((resolves_ofEntries_iff fun _ _ => trivial).1 resolved)
  cases ran : ofEntries r fields with
  | ok c => exact absurd (.inl ⟨c, ran, trivial⟩) unresolved
  | error e =>
    rcases failsWith_ofEntries r fields e ran with ⟨cause, rfl⟩ | ⟨kind, rfl⟩
    · exact absurd (.inr ⟨cause, ran⟩) unresolved
    · exact ⟨kind, rfl⟩

end ConnectionConfig

end SparqlClient
