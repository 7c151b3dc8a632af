import Mathlib.Data.List.Infix
import Mathlib.Data.List.TakeWhile
import SparqlClient.Proofs.Term.Normal

/-! The components of an IRI in its written form. Main statement: the path loses all slashes behind
slashes, and the other components are as they were, unless there are such slashes in what stands
behind the path and is taken for a part of it: a fragment without a query in front of it, or, where
there is no path, the text from the first slash of query and fragment on. -/

namespace SparqlClient

open Text

def HasRun (s : List Char) : Prop := ['/', '/'] <:+: s

theorem hasRun_cons_iff {c : Char} {s : List Char} :
    HasRun (c :: s) ↔ (c = '/' ∧ s.head? = some '/') ∨ HasRun s := by
  rw [HasRun, List.infix_cons_iff, List.cons_prefix_cons, eq_comm]
  refine or_congr (and_congr_right fun _ => ?_) Iff.rfl
  cases s <;> simp [eq_comm]

theorem not_hasRun_squeezeSlashes (seen : Bool) (s : List Char) :
    ¬HasRun (squeezeSlashes seen s) ∧ (seen → (squeezeSlashes seen s).head? ≠ some '/') := by
  fun_induction squeezeSlashes seen s with
  | case1 => simp [HasRun]
  | case2 s ih => exact ih
  | case3 seen s unseen ih =>
    rw [hasRun_cons_iff, not_or, not_and]
    exact ⟨⟨fun _ => ih.2 rfl, ih.1⟩, fun own => absurd own unseen⟩
  | case4 seen c s other ih =>
    rw [hasRun_cons_iff, not_or, not_and]
    exact ⟨⟨fun slash => absurd slash other, ih.1⟩, fun _ => by simpa using other⟩

theorem Squeezed.sublist {s t : List Char} (h : Squeezed s t) : t.Sublist s := by
  induction h with
  | nil => exact .slnil
  | cons c _ ih => exact ih.cons_cons c
  | drop _ ih => exact ih.cons _

theorem Squeezed.eq_self {s t : List Char} (h : Squeezed s t) (single : ¬HasRun s) : t = s := by
  induction h with
  | nil => rfl
  | cons c _ ih => rw [ih fun run => single (hasRun_cons_iff.2 (.inr run))]
  | drop => exact absurd (hasRun_cons_iff.2 (.inl ⟨rfl, rfl⟩)) single

theorem squeezeSlashes_of_head? (seen : Bool) {t : List Char} (other : t.head? ≠ some '/') :
    squeezeSlashes seen t = squeezeSlashes false t := by
  cases t with
  | nil => rfl
  | cons c t =>
    have plain : c ≠ '/' := by simpa using other
    rw [squeezeSlashes, squeezeSlashes]
    · exact plain
    · exact plain

/-- Each run of slashes has become one slash. -/
def IsSingled (s t : List Char) : Prop := Squeezed s t ∧ ¬HasRun t

theorem isSingled_iff {s t : List Char} : IsSingled s t ↔ t = squeezeSlashes false s := by
  constructor
  · rintro ⟨lost, single⟩
    induction lost with
    | nil => rfl
    | @cons c s t rest ih =>
      rw [hasRun_cons_iff, not_or, not_and] at single
      have later := ih single.2
      by_cases slash : c = '/'
      · have stop : s.head? ≠ some '/' := rest.head? ▸ single.1 slash
        rw [slash, squeezeSlashes, if_neg Bool.false_ne_true, squeezeSlashes_of_head? true stop,
          ← later]
      · rw [squeezeSlashes, ← later]
        exact slash
    | drop _ ih => exact ih single
  · rintro rfl
    exact ⟨(squeezed_squeezeSlashes s).1, (not_hasRun_squeezeSlashes false s).1⟩

theorem squeezeSlashes_eq_self_iff {s : List Char} :
    squeezeSlashes false s = s ↔ ¬HasRun s := by
  constructor
  · intro same
    exact same ▸ (not_hasRun_squeezeSlashes false s).1
  · exact (squeezed_squeezeSlashes s).1.eq_self

theorem squeezeSlashes_append (seen : Bool) (s : List Char) {t : List Char}
    (other : t.head? ≠ some '/') :
    squeezeSlashes seen (s ++ t) = squeezeSlashes seen s ++ squeezeSlashes false t := by
  fun_induction squeezeSlashes seen s with
  | case1 seen => exact squeezeSlashes_of_head? seen other
  | case2 s ih => exact ih
  | case3 seen s unseen ih =>
    rw [List.cons_append, squeezeSlashes, if_neg unseen, ih]
    rfl
  | case4 seen c s plain ih =>
    rw [List.cons_append, squeezeSlashes, ih]
    · rfl
    · exact plain

theorem forall_ne_of_not_mem {d : Char} {s : List Char} (other : d ∉ s) :
    ∀ c ∈ s, decide (c ≠ d) := by
  intro c member
  have apart : c ≠ d := fun own => other (own ▸ member)
  simpa using apart

theorem squeezePath_eq (s : List Char) : squeezePath s =
    s.takeWhile (· ≠ '/') ++ (squeezeSlashes false ((s.dropWhile (· ≠ '/')).takeWhile (· ≠ '?')) ++
      (s.dropWhile (· ≠ '/')).dropWhile (· ≠ '?')) := by
  rcases path_cases s with none | ⟨host, path, query, rfl, first, second, marked⟩
  · have all := forall_ne_of_not_mem none
    rw [squeezePath_eq_self none, List.takeWhile_eq_self_iff.2 all, List.dropWhile_eq_nil_iff.2 all]
    simp [squeezeSlashes]
  · have front := forall_ne_of_not_mem first
    have inside : ∀ c ∈ '/' :: path, decide (c ≠ '?') := forall_ne_of_not_mem (by simpa using second)
    have stop : ∀ c ∈ query.head?, decide (c ≠ '?') = false := fun c own => by simp [marked c own]
    have kept : query.dropWhile (· ≠ '?') = query := by
      cases query with
      | nil => rfl
      | cons c query => exact List.dropWhile_cons_of_neg (by simp [stop c rfl])
    rw [squeezePath_host first second marked, takeWhile_append_of_stop front (by simp),
      List.dropWhile_append_of_pos front, List.dropWhile_cons_of_neg (by simp)]
    change _ = host ++ (squeezeSlashes false ((('/' :: path) ++ query).takeWhile _) ++
      (('/' :: path) ++ query).dropWhile _)
    rw [takeWhile_append_of_stop inside stop, List.dropWhile_append_of_pos inside, kept]
    rfl

structure Iri where
  scheme : List Char
  authority : List Char
  path : List Char
  query : Option (List Char)
  fragment : Option (List Char)

namespace Iri

variable (i : Iri)

def origin : List Char := i.scheme ++ ':' :: '/' :: '/' :: i.authority

def behind : List Char :=
  ((i.query.map ('?' :: ·)).getD []) ++ ((i.fragment.map ('#' :: ·)).getD [])

def text : String := String.ofList (i.origin ++ i.path ++ i.behind)

/-- Each component holds what it can hold. There are no angle brackets and no outer blanks. -/
structure IsGeneric : Prop where
  scheme : IsScheme i.scheme
  authority : ∀ c ∈ i.authority, c ≠ '/' ∧ c ≠ '?' ∧ c ≠ '#'
  path : ∀ c ∈ i.path, c ≠ '?' ∧ c ≠ '#'
  rooted : ∀ c ∈ i.path.head?, c = '/'
  query : ∀ q ∈ i.query, '#' ∉ q
  tidy : IsTidy i.text.toList

/-! What is taken for the path. -/

/-- Without a path, it is looked for behind it, from a slash on. -/
def skipped : List Char := if i.path = [] then i.behind.takeWhile (· ≠ '/') else []

def reached : List Char := if i.path = [] then i.behind.dropWhile (· ≠ '/') else i.behind

def exposed : List Char := i.reached.takeWhile (· ≠ '?')

def rest : List Char := i.reached.dropWhile (· ≠ '?')

theorem behind_eq : i.skipped ++ (i.exposed ++ i.rest) = i.behind := by
  rw [exposed, rest, List.takeWhile_append_dropWhile, skipped, reached]
  split
  · rw [List.takeWhile_append_dropWhile]
  · rfl

variable {i}

theorem head?_behind : i.behind.head? ≠ some '/' := by
  unfold behind
  cases i.query with
  | none => cases i.fragment <;> simp
  | some q => simp

theorem squeezePath_text (own : i.IsGeneric) :
    squeezePath (i.authority ++ (i.path ++ i.behind)) =
      i.authority ++ (squeezeSlashes false i.path ++
        (i.skipped ++ (squeezeSlashes false i.exposed ++ i.rest))) := by
  have front : ∀ c ∈ i.authority, (c ≠ '/' : Bool) := by
    simpa using fun c member => (own.authority c member).1
  rw [squeezePath_eq, List.takeWhile_append_of_pos front, List.dropWhile_append_of_pos front,
    List.append_assoc]
  congr 1
  rcases path : i.path with _ | ⟨c, p⟩
  · simp only [skipped, exposed, rest, reached, path, if_pos]
    rfl
  · obtain rfl : c = '/' := own.rooted c (by simp [path])
    have inside : ∀ c ∈ '/' :: p, (c ≠ '?' : Bool) := by
      simpa using fun c member => (own.path c (path ▸ member)).1
    have apart : (i.behind.takeWhile (· ≠ '?')).head? ≠ some '/' := by
      rw [List.head?_takeWhile]
      exact fun first => head?_behind (Option.eq_some_of_filter_eq_some first)
    have stays : (('/' :: p) ++ i.behind).dropWhile (· ≠ '/') = ('/' :: p) ++ i.behind :=
      List.dropWhile_cons_of_neg (by simp)
    have none : (('/' :: p) ++ i.behind).takeWhile (· ≠ '/') = [] :=
      List.takeWhile_cons_of_neg (by simp)
    rw [stays, none, List.takeWhile_append_of_pos inside, List.dropWhile_append_of_pos inside,
      squeezeSlashes_append false _ apart]
    simp [skipped, exposed, rest, reached, path]

theorem toList_normalizeIri (own : i.IsGeneric) :
    (normalizeIri i.text).toList = i.origin ++ (squeezeSlashes false i.path ++
      (i.skipped ++ (squeezeSlashes false i.exposed ++ i.rest))) := by
  have cut : schemeCut? i.text.toList =
      some (i.scheme ++ [':', '/', '/'], i.authority ++ (i.path ++ i.behind)) :=
    schemeCut?_eq_some_iff.2 ⟨i.scheme, own.scheme, rfl, by simp [text, origin]⟩
  rw [normalizeIri_of_isTidy own.tidy, String.toList_ofList, normalizeIriChars, cut]
  simp [squeezePath_text own, origin]

theorem IsGeneric.withPath (own : i.IsGeneric) {path : List Char} (lost : Squeezed i.path path) :
    ({ i with path := path } : Iri).IsGeneric where
  scheme := own.scheme
  authority := own.authority
  path c member := own.path c (lost.sublist.subset member)
  rooted := lost.head? ▸ own.rooted
  query := own.query
  tidy := by
    have whole : Squeezed i.text.toList ({ i with path := path } : Iri).text.toList := by
      simp only [text, String.toList_ofList]
      exact (((Squeezed.refl i.origin).append lost).append (.refl i.behind))
    exact ⟨whole.head? ▸ own.tidy.first, whole.getLast? ▸ own.tidy.last,
      fun c member => own.tidy.plain c (whole.sublist.subset member)⟩

/-- Each run of slashes in the path becomes one slash, and so does each run in what is taken for a
part of the path. All components but the path stay exactly if there is no run in the latter. -/
theorem normalizeIri_of_components (own : i.IsGeneric) : ∃ path taken,
    IsSingled i.path path ∧ IsSingled i.exposed taken ∧
    normalizeIri i.text = String.ofList (i.origin ++ (path ++ (i.skipped ++ (taken ++ i.rest)))) ∧
    ({ i with path := path } : Iri).IsGeneric ∧
    (normalizeIri i.text = ({ i with path := path } : Iri).text ↔ ¬HasRun i.exposed) := by
  have singled : IsSingled i.path (squeezeSlashes false i.path) := isSingled_iff.2 rfl
  refine ⟨_, _, singled, isSingled_iff.2 rfl, ?_, own.withPath singled.1, ?_⟩
  · rw [← String.toList_inj, toList_normalizeIri own, String.toList_ofList]
  · rw [← squeezeSlashes_eq_self_iff, ← String.toList_inj, toList_normalizeIri own, text,
      String.toList_ofList]
    change _ = i.origin ++ _ ++ i.behind ↔ _
    rw [← i.behind_eq]
    simp

theorem normalizeIri_of_components_query :
    (⟨['h'], ['e'], ['/', '/', 'a'], some ['/', '/'], some ['/', '/']⟩ : Iri).IsGeneric ∧
      normalizeIri "h://e//a?//#//" = "h://e/a?//#//" := by
  have own : (⟨['h'], ['e'], ['/', '/', 'a'], some ['/', '/'], some ['/', '/']⟩ : Iri).IsGeneric :=
    ⟨⟨'h', [], rfl, by decide, by decide⟩, by decide, by decide, by rintro _ ⟨⟩; rfl,
      by rintro _ ⟨⟩; decide, ⟨by rintro _ ⟨⟩; rfl, by rintro _ ⟨⟩; rfl, by decide⟩⟩
  obtain ⟨path, _, singled, -, -, -, stays⟩ := normalizeIri_of_components own
  obtain rfl : path = ['/', 'a'] := isSingled_iff.1 singled
  have unexposed : ¬HasRun [] := by simp [HasRun]
  exact ⟨own, stays.2 unexposed⟩

/-- Without a query, the fragment loses slashes. -/
theorem exists_fragment_shortened : ∃ i : Iri, i.IsGeneric ∧
    ∀ path, IsSingled i.path path → normalizeIri i.text ≠ ({ i with path := path } : Iri).text := by
  refine ⟨⟨['h', 't', 't', 'p'], ['h'], ['/', 'a'], none, some ['b', '/', '/', 'c']⟩, ?_, ?_⟩
  · exact ⟨⟨'h', ['t', 't', 'p'], rfl, by decide, by decide⟩, by decide, by decide,
      by rintro _ ⟨⟩; rfl, by rintro _ ⟨⟩, ⟨by rintro _ ⟨⟩; rfl, by rintro _ ⟨⟩; rfl, by decide⟩⟩
  · intro path singled same
    obtain rfl := isSingled_iff.1 singled
    exact absurd (congrArg String.toList same) (by decide)

end Iri

end SparqlClient
