import SparqlClient.Connection.Execution
import SparqlClient.Proofs.Query.Run

/-! Which errors a step can end with. A value that is used where its kind has no meaning fails as
misuse, whatever is made of it. A failed exchange is reported by nothing that is done with values
alone, and an answer that cannot be decoded is not taken for a query that cannot be written. -/

namespace SparqlClient

/-- If the step fails, its error is one of these. -/
def FailsWith {α : Type} (P : Error → Prop) (x : Outcome α) : Prop := ∀ e, x = .error e → P e

class AllowsMisuse (P : Error → Prop) : Prop where
  misuse (kind : Misuse) : P (.misuse kind)

namespace Error

/-- Not the report of a failed exchange. -/
def IsLocal (e : Error) : Prop := ∀ failure, e ≠ .protocol failure

/-- Not the refusal of a query or of a setting. -/
def IsRemote (e : Error) : Prop :=
  (∀ cause, e ≠ .compilation cause) ∧ ∀ cause, e ≠ .configuration cause

instance : AllowsMisuse IsLocal := ⟨fun kind => by simp [IsLocal]⟩

instance : AllowsMisuse IsRemote := ⟨fun kind => by simp [IsRemote]⟩

@[simp] theorem isLocal_compilation (cause : CompilationError) : IsLocal (.compilation cause) := by
  simp [IsLocal]

@[simp] theorem isLocal_configuration (cause : ConfigurationError) :
    IsLocal (.configuration cause) := by
  simp [IsLocal]

@[simp] theorem isRemote_protocol (failure : ProtocolError) : IsRemote (.protocol failure) := by
  simp [IsRemote]

end Error

section

variable {α β : Type} {P : Error → Prop}

@[simp] theorem failsWith_ok (a : α) : FailsWith P (.ok a) := by simp [FailsWith]

@[simp] theorem failsWith_pure (a : α) : FailsWith P (pure a : Outcome α) := failsWith_ok a

@[simp] theorem failsWith_error (e : Error) : FailsWith P (.error e : Outcome α) ↔ P e := by
  simp [FailsWith]

@[simp] theorem failsWith_misuse [h : AllowsMisuse P] (kind : Misuse) :
    FailsWith P (Misuse.fail kind : Outcome α) :=
  (failsWith_error _).2 (h.misuse kind)

@[simp] theorem failsWith_compilation (cause : CompilationError) :
    FailsWith P (CompilationError.fail cause : Outcome α) ↔ P (.compilation cause) :=
  failsWith_error _

@[simp] theorem failsWith_configuration (cause : ConfigurationError) :
    FailsWith P (ConfigurationError.fail cause : Outcome α) ↔ P (.configuration cause) :=
  failsWith_error _

@[simp] theorem failsWith_bind {x : Outcome α} {f : α → Outcome β} :
    FailsWith P (x >>= f) ↔ FailsWith P x ∧ ∀ a, x = .ok a → FailsWith P (f a) := by
  cases x <;> simp [FailsWith, bind, Except.bind]

@[simp] theorem failsWith_map {x : Outcome α} {f : α → β} :
    FailsWith P (x.map f) ↔ FailsWith P x := by
  cases x <;> simp [FailsWith, Except.map]

@[simp] theorem failsWith_functor {x : Outcome α} {f : α → β} :
    FailsWith P (f <$> x) ↔ FailsWith P x :=
  failsWith_map

@[simp] theorem failsWith_ite {c : Prop} [Decidable c] {x y : Outcome α} :
    FailsWith P (if c then x else y) ↔ (c → FailsWith P x) ∧ (¬c → FailsWith P y) := by
  split <;> simp_all

theorem failsWith_mapM {f : α → Outcome β} {l : List α} (h : ∀ a ∈ l, FailsWith P (f a)) :
    FailsWith P (l.mapM f) := by
  induction l with
  | nil => simp
  | cons a l ih =>
    rw [List.forall_mem_cons] at h
    simp [h.1, ih h.2]

theorem failsWith_foldlM {f : β → α → Outcome β} {l : List α}
    (h : ∀ b, ∀ a ∈ l, FailsWith P (f b a)) (b : β) : FailsWith P (l.foldlM f b) := by
  induction l generalizing b with
  | nil => simp
  | cons a l ih =>
    rw [List.foldlM_cons, failsWith_bind]
    exact ⟨h b a (List.mem_cons_self ..), fun c _ =>
      ih (fun d x hx => h d x (List.mem_cons_of_mem a hx)) c⟩

end

section

variable {P : Error → Prop} [AllowsMisuse P]

namespace Value

@[simp] theorem failsWith_members (v : Value) : FailsWith P v.members := by
  cases v <;> simp [members]

@[simp] theorem failsWith_fields (v : Value) : FailsWith P v.fields := by
  cases v <;> simp [fields]

@[simp] theorem failsWith_checkedKey (v : Value) : FailsWith P v.checkedKey := by
  simp [checkedKey]

@[simp] theorem failsWith_entries (v : Value) : FailsWith P v.entries := by
  unfold entries
  split
  · simp
  · rw [failsWith_bind]
    refine ⟨failsWith_members _, fun items _ => failsWith_foldlM (fun es item _ => ?_) []⟩
    rw [failsWith_bind]
    refine ⟨failsWith_members item, fun parts _ => ?_⟩
    split <;> simp

@[simp] theorem failsWith_triple (v : Value) : FailsWith P v.triple := by
  unfold triple
  rw [failsWith_bind]
  refine ⟨failsWith_members v, fun parts _ => ?_⟩
  split <;> simp

@[simp] theorem failsWith_written (v : Value) : FailsWith P v.written := by
  unfold written
  split <;> simp

@[simp] theorem failsWith_whole (v : Value) : FailsWith P v.whole := by
  unfold whole
  split
  case h_3 | h_4 | h_5 | h_6 | h_7 => split <;> simp
  all_goals simp

@[simp] theorem failsWith_float? (v : Value) : FailsWith P v.float? := by
  unfold float?
  split
  case h_4 | h_5 | h_6 | h_7 => split <;> simp
  all_goals simp

end Value

@[simp] theorem failsWith_onlyText (v : Value) : FailsWith P (onlyText v) := by
  unfold onlyText
  split
  · simp
  · split <;> simp

@[simp] theorem failsWith_textOnly (kind : Misuse) (v : Value) : FailsWith P (textOnly kind v) := by
  unfold textOnly
  split <;> simp

@[simp] theorem failsWith_normalizeIriValue (v : Value) : FailsWith P (normalizeIriValue v) := by
  simp [normalizeIriValue]

@[simp] theorem failsWith_angledValue (v : Value) : FailsWith P (angledValue v) := by
  simp [angledValue]

end

end SparqlClient
