import Mathlib.Data.List.TakeWhile
import Mathlib.Data.Option.Basic
import SparqlClient.Connection.Basic
import SparqlClient.Proofs.Store.Names

/-! Where the namespaces of a store listen. A dataset is put behind the host, and a segment behind
the root of the path. Main statement: the namespace of an endpoint is found again in it, and another
one takes its place, with one exception: where namespaces are segments behind the word `namespace`,
that word is no name for one of them. -/

namespace SparqlClient

open Text

namespace Namespace.IsPlain

variable {n : String}

theorem ne_of_mem (plain : IsPlain n) {c d : Char} (member : c ∈ n.toList)
    (other : ¬(d.isAlphanum ∨ d = '_' ∨ d = '-')) : c ≠ d := by
  rintro rfl
  exact other (plain.2 c member)

theorem solid (plain : IsPlain n) : ∀ c ∈ n.toList, Url.isSlash c = false := by
  intro c member
  simpa [Url.isSlash] using plain.ne_of_mem member (d := '/') (by decide)

theorem validate (plain : IsPlain n) : Namespace.validate (.text n) = .ok n := by
  have valid : isName n = true := isName_iff.2 (.inl plain)
  simp [Namespace.validate, Value.chars?, valid]

end Namespace.IsPlain

namespace Url

theorem trimSlashes_append {s t : String} (filled : t.toList ≠ [])
    (solid : ∀ c ∈ t.toList, isSlash c = false) : trimSlashes (s ++ t) = s ++ t := by
  have last : ∀ c ∈ (s ++ t).toList.getLast?, isSlash c = false := by
    obtain ⟨front, d, split⟩ := t.toList.eq_nil_or_concat.resolve_left filled
    have own : isSlash d = false := solid d (by simp [split])
    simp [String.toList_append, split, own]
  rw [trimSlashes, trimEndOf, dropEndWhile_eq_self last, String.ofList_toList]

theorem takeWhile_of_solid {n rest : List Char} (solid : ∀ c ∈ n, isSlash c = false)
    (stops : ∀ c ∈ rest.head?, isSlash c) : (n ++ rest).takeWhile (!isSlash ·) = n :=
  takeWhile_append_of_stop (by simpa using solid) (by simpa using stops)

theorem trimSlashes_service {s service : String} (known : service ∈ services) :
    trimSlashes (s ++ "/" ++ service) = s ++ "/" ++ service := by
  refine trimSlashes_append ?_ ?_
  · revert service
    decide
  · revert service
    decide

theorem trimSlashes_query {s : String} : trimSlashes (s ++ "/sparql") = s ++ "/sparql" := by
  have split : s ++ "/sparql" = s ++ "/" ++ "sparql" := by
    rw [String.append_assoc]
    rfl
  rw [split, trimSlashes_service (by decide)]

theorem segment?_append {names : List String} {n rest : List Char} (filled : n ≠ [])
    (solid : ∀ c ∈ n, isSlash c = false) (stops : ∀ c ∈ rest.head?, isSlash c)
    (ended : isServiceEnd names rest) : segment? names (n ++ rest) = some n := by
  simp [segment?, takeWhile_of_solid solid stops, filled, ended]

/-! The host. -/

/-- An address of an HTTP server without blanks. -/
structure IsEndpoint (e : String) : Prop where
  solid : hasBlank e = false
  located : ∃ u, split? e = some u ∧ (u.scheme = "http" ∨ u.scheme = "https") ∧ u.authority ≠ ""

def root (u : Url) : String := u.scheme ++ "://" ++ u.authority

theorem base_eq {e : String} {u : Url} (known : split? e = some u) : base e = .ok (root u) := by
  rw [base, known, root]

theorem cleaned_eq {c : Char} {s : List Char} (visible : 32 < c.toNat)
    (unbroken : ∀ d ∈ s, d ≠ '\t' ∧ d ≠ '\r' ∧ d ≠ '\n') : cleaned (c :: s) = c :: s := by
  have kept : (c :: s).dropWhile (fun d => decide (d.toNat ≤ 32)) = c :: s := by
    simp [Nat.not_le.2 visible]
  have first : c ≠ '\t' ∧ c ≠ '\r' ∧ c ≠ '\n' := by
    refine ⟨?_, ?_, ?_⟩ <;> rintro rfl <;> exact absurd visible (by decide)
  rw [cleaned, kept, List.filter_eq_self]
  simpa [first, and_assoc] using unbroken

theorem authorityOf_append {a path : List Char} (inner : ∀ c ∈ a, c ≠ '/' ∧ c ≠ '?' ∧ c ≠ '#') :
    authorityOf ('/' :: '/' :: (a ++ '/' :: path)) = a := by
  rw [authorityOf, List.takeWhile_append_of_pos (by simpa [and_assoc] using inner)]
  simp

theorem mem_of_cutAt {p : Char → Bool} {s a b : List Char} (h : cutAt p s = some (a, b)) :
    ∀ c ∈ b, c ∈ s := by
  obtain ⟨d, -, rfl⟩ := eq_of_cutAt h
  exact fun c member => List.mem_append_right a (List.mem_cons_of_mem d member)

theorem mem_of_schemeAndRest {s : List Char} : ∀ c ∈ (schemeAndRest s).2, c ∈ s := by
  intro c member
  unfold schemeAndRest at member
  split at member
  · rename_i cut
    split at member
    · exact mem_of_cutAt cut c member
    · exact member
  · exact member

theorem mem_of_authorityOf {s : List Char} {c : Char} (member : c ∈ authorityOf s) :
    (c ≠ '/' ∧ c ≠ '?' ∧ c ≠ '#') ∧ c ∈ s := by
  unfold authorityOf at member
  split at member
  · rename_i t
    refine ⟨?_, by simp [(List.takeWhile_sublist _).subset member]⟩
    simpa [and_assoc] using List.mem_takeWhile_imp member
  · cases member

/-- What has been read as an authority holds no delimiter and nothing that is taken out. -/
structure IsAuthority (a : List Char) : Prop where
  inner : ∀ c ∈ a, c ≠ '/' ∧ c ≠ '?' ∧ c ≠ '#'
  unbroken : ∀ c ∈ a, c ≠ '\t' ∧ c ≠ '\r' ∧ c ≠ '\n'
  brackets : bracketsHold a
  disguised : a.any (fun c => disguisedDelimiters.contains c.toNat) = false

theorem isAuthority_of_split? {e : String} {u : Url} (known : split? e = some u) :
    IsAuthority u.authority.toList := by
  unfold split? at known
  simp only at known
  split at known
  · cases known
  · rename_i holds
    split at known
    · cases known
    · rename_i disguised
      obtain rfl := Option.some.inj known
      simp only [String.toList_ofList]
      refine ⟨fun c member => (mem_of_authorityOf member).1, fun c member => ?_,
        by simpa using holds, by simpa using disguised⟩
      have inside := mem_of_schemeAndRest c (mem_of_authorityOf member).2
      simpa [and_assoc] using (List.mem_filter.1 inside).2

theorem split?_behind {u : Url} {path : String} (http : u.scheme = "http" ∨ u.scheme = "https")
    (read : IsAuthority u.authority.toList)
    (unbroken : ∀ c ∈ path.toList, c ≠ '\t' ∧ c ≠ '\r' ∧ c ≠ '\n') :
    split? (root u ++ "/" ++ path) = some u := by
  obtain ⟨scheme, authority⟩ := u
  have clean : ∀ c ∈ (':' :: '/' :: '/' :: (authority.toList ++ '/' :: path.toList)),
      c ≠ '\t' ∧ c ≠ '\r' ∧ c ≠ '\n' := by
    simp only [List.mem_cons, List.mem_append]
    rintro c (rfl | rfl | rfl | own | rfl | behind)
    · decide
    · decide
    · decide
    · exact read.unbroken c own
    · decide
    · exact unbroken c behind
  have cut : schemeAndRest (cleaned (root ⟨scheme, authority⟩ ++ "/" ++ path).toList) =
      (scheme.toList, '/' :: '/' :: (authority.toList ++ '/' :: path.toList)) := by
    have text : (root ⟨scheme, authority⟩ ++ "/" ++ path).toList =
        scheme.toList ++ ':' :: '/' :: '/' :: (authority.toList ++ '/' :: path.toList) := by
      simp [root]
    rw [text]
    rcases http with rfl | rfl
    · change schemeAndRest (cleaned ('h' :: 't' :: 't' :: 'p' :: ':' :: _)) = _
      rw [cleaned_eq (by decide) (by simpa using clean)]
      simp [schemeAndRest, cutAt, isSchemeChar]
    · change schemeAndRest (cleaned ('h' :: 't' :: 't' :: 'p' :: 's' :: ':' :: _)) = _
      rw [cleaned_eq (by decide) (by simpa using clean)]
      simp [schemeAndRest, cutAt, isSchemeChar]
  simp only [split?, cut, authorityOf_append read.inner, read.brackets, read.disguised]
  simp

/-! The path of a dataset. -/

theorem dataset?_behind {u : Url} {path : String} (http : u.scheme = "http" ∨ u.scheme = "https")
    (filled : u.authority ≠ "") (inner : ∀ c ∈ u.authority.toList, isSlash c = false) :
    dataset? (root u ++ "/" ++ path) = (segment? services path.toList).map String.ofList := by
  obtain ⟨scheme, authority⟩ := u
  have rest : (after? ['h', 't', 't', 'p', ':', '/', '/']
      (root ⟨scheme, authority⟩ ++ "/" ++ path).toList).or
      (after? ['h', 't', 't', 'p', 's', ':', '/', '/']
        (root ⟨scheme, authority⟩ ++ "/" ++ path).toList) =
      some (authority.toList ++ '/' :: path.toList) := by
    rcases http with rfl | rfl <;> simp [root, after?]
  have host : (authority.toList ++ '/' :: path.toList).takeWhile (!isSlash ·) =
      authority.toList := takeWhile_of_solid inner (by simp [isSlash])
  have some : authority.toList.isEmpty = false := by simpa using filled
  unfold dataset?
  rw [rest]
  simp only [Option.bind_eq_bind, Option.bind_some, host, some, List.drop_left]
  rfl

theorem isServiceEnd_service {service : String} (known : service ∈ services) :
    isServiceEnd services ('/' :: service.toList) := by
  simp only [services, List.mem_cons, List.not_mem_nil, or_false] at known
  rcases known with rfl | rfl | rfl | rfl <;> decide

theorem solid_of_service {service : String} (known : service ∈ services) :
    service.toList ≠ [] ∧ ∀ c ∈ service.toList, c ≠ '/' ∧ c ≠ '\n' := by
  revert service
  decide

theorem dropServiceAt_append {c : Char} {s : List Char} {service : String}
    (known : service ∈ services) : dropServiceAt (c :: (s ++ '/' :: service.toList)) = none := by
  obtain ⟨filled, solid⟩ := solid_of_service known
  obtain ⟨front, d, split⟩ := service.toList.eq_nil_or_concat.resolve_left filled
  obtain ⟨slash, line⟩ := solid d (by simp [split])
  rw [dropServiceAt, List.findSome?_eq_none_iff]
  intro other listed
  cases found : after? ('/' :: other.toList) (c :: (s ++ '/' :: service.toList)) with
  | none => rfl
  | some rest =>
    have text : s ++ '/' :: service.toList = other.toList ++ rest :=
      (List.cons.inj (after?_eq_some_iff.1 found)).2
    have last : (other.toList ++ rest).getLast? = some d := by
      rw [← text, split, List.concat_eq_append, ← List.cons_append, ← List.append_assoc,
        List.getLast?_concat]
    rw [Option.bind_some]
    split
    · have inside : '/' ∈ other.toList := by
        rw [List.append_nil] at text
        simp [← text]
      exact absurd rfl ((solid_of_service listed).2 _ inside).1
    · exact absurd (by simpa [eq_comm] using last) slash
    · exact absurd (by simpa [eq_comm] using last) line
    · exact absurd (by simpa [eq_comm] using last) line
    · rfl

theorem dropService_append {s : List Char} {service : String} (known : service ∈ services) :
    dropService (s ++ '/' :: service.toList) = s := by
  induction s with
  | nil =>
    revert service
    decide
  | cons c s ih =>
    rw [List.cons_append, dropService, dropServiceAt_append known, ih]
    rfl

/-! The path of a segment. -/

theorem namespaceCut?_append {w s : List Char} (solid : ∀ c ∈ w, isSlash c = false ∧ c ≠ '\n') :
    namespaceCut? (w ++ s) = (namespaceCut? s).map fun (a, n) => (w ++ a, n) := by
  induction w with
  | nil => simp
  | cons c w ih =>
    rw [List.forall_mem_cons] at solid
    have other : after? namespaceMark (c :: (w ++ s)) = none := by
      have ne : '/' ≠ c := by simpa [isSlash, eq_comm] using solid.1.1
      simp [namespaceMark, after?, ne]
    rw [List.cons_append, namespaceCut?, ih solid.2, other]
    cases namespaceCut? s <;> simp [solid.1.2]

/-- The last mark counts, whatever stands before it in the line. -/
theorem namespaceCut?_mark {r s n : List Char} (unbroken : ∀ c ∈ r, c ≠ '\n')
    (here : segment? ["sparql"] s = some n) (behind : namespaceCut? ('/' :: s) = none) :
    namespaceCut? (r ++ (namespaceMark ++ s)) = some (r, n) := by
  induction r with
  | nil =>
    have word : namespaceCut? ("namespace".toList ++ '/' :: s) = none := by
      rw [namespaceCut?_append (by decide), behind]
      rfl
    have mark : after? namespaceMark (namespaceMark ++ s) = some s := after?_eq_some_iff.2 rfl
    change ((namespaceCut? ("namespace".toList ++ '/' :: s)).bind _).or
      (((after? namespaceMark (namespaceMark ++ s)).bind (segment? ["sparql"])).map _) = _
    rw [word, mark, Option.bind_some, here]
    rfl
  | cons c r ih =>
    rw [List.forall_mem_cons] at unbroken
    rw [List.cons_append, namespaceCut?, ih unbroken.2]
    simp [unbroken.1]

theorem namespaceCut?_segment {r n : List Char} (unbroken : ∀ c ∈ r, c ≠ '\n')
    (filled : n ≠ []) (solid : ∀ c ∈ n, isSlash c = false ∧ c ≠ '\n')
    (other : n ≠ "namespace".toList) :
    namespaceCut? (r ++ (namespaceMark ++ (n ++ "/sparql".toList))) = some (r, n) := by
  have inside : ∀ c ∈ n, isSlash c = false := fun c member => (solid c member).1
  have unmarked : after? namespaceMark ('/' :: (n ++ "/sparql".toList)) = none := by
    cases found : after? namespaceMark ('/' :: (n ++ "/sparql".toList)) with
    | none => rfl
    | some rest =>
      have split := (List.cons.inj (after?_eq_some_iff.1 found)).2
      have words : n = "namespace".toList :=
        calc n = (n ++ "/sparql".toList).takeWhile (!isSlash ·) :=
              (takeWhile_of_solid inside (by simp [isSlash])).symm
          _ = ("namespace".toList ++ '/' :: rest).takeWhile (!isSlash ·) := by
              rw [split]
              rfl
          _ = "namespace".toList := takeWhile_of_solid (by decide) (by simp [isSlash])
      exact absurd words other
  have service : namespaceCut? "/sparql".toList = none := by decide
  refine namespaceCut?_mark unbroken
    (segment?_append filled inside (by simp [isSlash]) (by decide)) ?_
  rw [namespaceCut?, namespaceCut?_append solid, service, unmarked]
  rfl

/-- With the word of the mark for a segment, the service is taken for a segment instead. -/
theorem namespaceCut?_word {r : List Char} (unbroken : ∀ c ∈ r, c ≠ '\n') :
    namespaceCut? (r ++ (namespaceMark ++ ("namespace".toList ++ "/sparql".toList))) =
      some (r ++ "/namespace".toList, "sparql".toList) := by
  have inner : ∀ c ∈ r ++ "/namespace".toList, c ≠ '\n' :=
    List.forall_mem_append.2 ⟨unbroken, by decide⟩
  have found := namespaceCut?_mark (s := "sparql".toList) (n := "sparql".toList) inner
    (by decide) (by decide)
  rw [← found, List.append_assoc]
  rfl

theorem unbroken_of_namespaceCut? {s a n : List Char} (h : namespaceCut? s = some (a, n)) :
    ∀ c ∈ a, c ≠ '\n' := by
  induction s generalizing a with
  | nil => cases h
  | cons c s ih =>
    rw [namespaceCut?, Option.or_eq_some_iff] at h
    rcases h with later | ⟨-, here⟩
    · obtain ⟨⟨a', n'⟩, cut, joined⟩ := Option.bind_eq_some_iff.1 later
      by_cases line : c = '\n'
      · simp [line] at joined
      · obtain ⟨rfl, rfl⟩ : c :: a' = a ∧ n' = n := by simpa [line] using joined
        exact List.forall_mem_cons.2 ⟨line, ih cut⟩
    · obtain ⟨m, -, joined⟩ := Option.map_eq_some_iff.1 here
      obtain ⟨rfl, -⟩ := Prod.mk.inj joined
      simp

theorem mem_of_trimSlashes {s : String} : ∀ c ∈ (trimSlashes s).toList, c ∈ s.toList := by
  intro c member
  rw [trimSlashes, trimEndOf, String.toList_ofList] at member
  rw [← dropEndWhile_append isSlash s.toList]
  exact List.mem_append_left _ member

theorem mem_of_dropEnd? {s e r : String} (h : dropEnd? s e = some r) :
    ∀ c ∈ r.toList, c ∈ s.toList := by
  intro c member
  rw [dropEnd?_eq_some_iff.1 h, String.toList_append]
  exact List.mem_append_left _ member

end Url

namespace Vendor

open Url

theorem unbroken_serviceRoot {e : String} (solid : hasBlank e = false) :
    ∀ c ∈ (serviceRoot e).toList, c ≠ '\n' := by
  have line : ∀ c ∈ (trimSlashes e).toList, c ≠ '\n' := by
    rintro c member rfl
    have outer : ∀ c ∈ e.toList, isBlank c = false := by simpa [hasBlank] using solid
    exact absurd (outer _ (mem_of_trimSlashes _ member)) (by decide)
  unfold serviceRoot
  simp only
  split
  · rename_i cut
    rw [String.toList_ofList]
    exact unbroken_of_namespaceCut? cut
  · cases found : dropEnd? (trimSlashes e) "/sparql" with
    | none => exact line
    | some r => exact fun c member => line c (mem_of_dropEnd? found c member)

def asked : List String := ["sparql", "update"]

/-- What is built for a namespace tells it again, it makes room for another one, and on a
connection all endpoints tell it. -/
structure Locates (v : Vendor) (e n : String) : Prop where
  told : ∀ service ∈ asked, ∃ url,
    v.namespaceEndpoint e (.text n) service = .ok url ∧ v.namespaceOf? url = some n
  replaced : ∀ service ∈ asked, ∀ m, Namespace.IsPlain m → ∀ service' ∈ asked, ∃ url url',
    v.namespaceEndpoint e (.text n) service = .ok url ∧
    v.namespaceEndpoint e (.text m) service' = .ok url' ∧
    v.namespaceEndpoint url (.text m) service' = .ok url'
  connected : ∀ c : Connection, c.vendor = v → c.config.endpoint = e →
    c.config.updateEndpoint.truth = false → c.namespaceName = some n →
    ∀ endpoint ∈ [c.queryEndpoint, c.updateEndpoint, c.graphEndpoint], ∃ url,
      endpoint = .ok url ∧ v.namespaceOf? url = some n

theorem connected_of {v : Vendor} {e n query update : String}
    (asks : v.namespaceEndpoint e (.text n) "sparql" = .ok query)
    (changes : v.namespaceEndpoint e (.text n) "update" = .ok update)
    (told : ∀ url ∈ [query, update, v.graphEndpoint query], v.namespaceOf? url = some n) :
    ∀ c : Connection, c.vendor = v → c.config.endpoint = e →
    c.config.updateEndpoint.truth = false → c.namespaceName = some n →
    ∀ endpoint ∈ [c.queryEndpoint, c.updateEndpoint, c.graphEndpoint], ∃ url,
      endpoint = .ok url ∧ v.namespaceOf? url = some n := by
  intro c vendor config own set
  have queried : c.queryEndpoint = .ok query := by
    simpa only [Connection.queryEndpoint, set, vendor, config] using asks
  have updated : c.updateEndpoint = .ok update := by
    simp only [Connection.updateEndpoint, set, vendor, config, own]
    exact changes
  have graphed : c.graphEndpoint = .ok (v.graphEndpoint query) := by
    rw [Connection.graphEndpoint, queried, vendor]
    rfl
  rw [queried, updated, graphed]
  intro endpoint member
  have mapped : endpoint ∈ [query, update, v.graphEndpoint query].map Except.ok := member
  obtain ⟨url, listed, rfl⟩ := List.mem_map.1 mapped
  exact ⟨url, rfl, told url listed⟩

section

variable {e n m service : String}

theorem endpoint_fuseki {u : Url} (known : split? e = some u) (plain : Namespace.IsPlain n) :
    Vendor.fuseki.namespaceEndpoint e (.text n) service =
      .ok (root u ++ "/" ++ (n ++ "/" ++ service)) := by
  simp [namespaceEndpoint, plain.validate, base_eq known, bind, Except.bind, pure, Except.pure,
    String.append_assoc]

theorem endpoint_blazegraph (plain : Namespace.IsPlain n) :
    Vendor.blazegraph.namespaceEndpoint e (.text n) service =
      .ok (serviceRoot e ++ "/namespace/" ++ n ++ "/sparql") := by
  simp [namespaceEndpoint, plain.validate, bind, Except.bind, pure, Except.pure]

theorem unbroken_dataset (plain : Namespace.IsPlain n) (known : service ∈ asked) :
    ∀ c ∈ (n ++ "/" ++ service).toList, c ≠ '\t' ∧ c ≠ '\r' ∧ c ≠ '\n' := by
  have solid : ∀ c ∈ service.toList, c ≠ '\t' ∧ c ≠ '\r' ∧ c ≠ '\n' := by
    revert service
    decide
  rw [String.toList_append, String.toList_append, List.forall_mem_append, List.forall_mem_append]
  refine ⟨⟨fun c member => ⟨?_, ?_, ?_⟩, by decide⟩, solid⟩
  · exact plain.ne_of_mem member (by decide)
  · exact plain.ne_of_mem member (by decide)
  · exact plain.ne_of_mem member (by decide)

theorem namespaceOf?_dataset {u : Url} {tail : String}
    (http : u.scheme = "http" ∨ u.scheme = "https")
    (filled : u.authority ≠ "") (read : IsAuthority u.authority.toList)
    (plain : Namespace.IsPlain n) (stops : ∀ c ∈ tail.toList.head?, isSlash c)
    (ended : isServiceEnd services tail.toList) :
    Vendor.fuseki.namespaceOf? (root u ++ "/" ++ (n ++ tail)) = some n := by
  have inner : ∀ c ∈ u.authority.toList, isSlash c = false := fun c member => by
    simpa [isSlash] using (read.inner c member).1
  have dollar : n ≠ "$" := by
    rintro rfl
    exact plain.ne_of_mem (c := '$') (d := '$') (by decide) (by decide) rfl
  rw [namespaceOf?, dataset?_behind http filled inner, String.toList_append,
    segment?_append plain.1 plain.solid stops ended]
  simp [dollar]

theorem graphEndpoint_dataset {r : String} (known : service ∈ services) :
    Vendor.fuseki.graphEndpoint (r ++ "/" ++ service) = trimSlashes r := by
  have trimmed (e : String) :
      Vendor.fuseki.graphEndpoint e = withoutService (trimSlashes e) := rfl
  have text : (r ++ "/" ++ service).toList = r.toList ++ '/' :: service.toList := by
    simp [String.toList_append]
  rw [trimmed, trimSlashes_service known, withoutService, text, dropService_append known,
    String.ofList_toList]

theorem locates_fuseki (http : IsEndpoint e) (plain : Namespace.IsPlain n) :
    Vendor.fuseki.Locates e n := by
  obtain ⟨u, known, http, filled⟩ := http.located
  have read := isAuthority_of_split? known
  have tells (service : String) (known : service ∈ services) :
      Vendor.fuseki.namespaceOf? (root u ++ "/" ++ (n ++ "/" ++ service)) = some n := by
    have ended : isServiceEnd services ("/" ++ service).toList := by
      simpa using isServiceEnd_service known
    have path : n ++ "/" ++ service = n ++ ("/" ++ service) := String.append_assoc
    rw [path]
    exact namespaceOf?_dataset http filled read plain (by simp [isSlash]) ended
  have alone : Vendor.fuseki.namespaceOf? (root u ++ "/" ++ n) = some n := by
    have told : Vendor.fuseki.namespaceOf? (root u ++ "/" ++ (n ++ "")) = some n :=
      namespaceOf?_dataset http filled read plain (by simp) (by decide)
    rwa [String.append_empty] at told
  have graph : Vendor.fuseki.graphEndpoint (root u ++ "/" ++ (n ++ "/" ++ "sparql")) =
      root u ++ "/" ++ n := by
    have path : root u ++ "/" ++ (n ++ "/" ++ "sparql") = root u ++ "/" ++ n ++ "/" ++ "sparql" := by
      simp only [String.append_assoc]
    rw [path, graphEndpoint_dataset (by decide), trimSlashes_append plain.1 plain.solid]
  refine ⟨fun service member => ?_, fun service member m other service' member' => ?_, ?_⟩
  · exact ⟨_, endpoint_fuseki known plain, tells service (by revert service; decide)⟩
  · have again := split?_behind http read (unbroken_dataset plain member)
    exact ⟨_, _, endpoint_fuseki known plain, endpoint_fuseki known other,
      endpoint_fuseki again other⟩
  · refine connected_of (endpoint_fuseki known plain) (endpoint_fuseki known plain) ?_
    rw [graph]
    simpa using ⟨tells "sparql" (by decide), tells "update" (by decide), alone⟩

/-! Segments of the path. -/

theorem toList_segment {r : String} : (r ++ "/namespace/" ++ n ++ "/sparql").toList =
    r.toList ++ (namespaceMark ++ (n.toList ++ "/sparql".toList)) := by
  simp [namespaceMark]

theorem namespaceCut?_built {r : String} (unbroken : ∀ c ∈ r.toList, c ≠ '\n')
    (plain : Namespace.IsPlain n) (other : n ≠ "namespace") :
    namespaceCut? (trimSlashes (r ++ "/namespace/" ++ n ++ "/sparql")).toList =
      some (r.toList, n.toList) := by
  have solid : ∀ c ∈ n.toList, isSlash c = false ∧ c ≠ '\n' := fun c member =>
    ⟨plain.solid c member, plain.ne_of_mem member (by decide)⟩
  rw [trimSlashes_query, toList_segment]
  exact namespaceCut?_segment unbroken plain.1 solid fun same => other (String.toList_inj.1 same)

theorem locates_blazegraph (http : IsEndpoint e) (plain : Namespace.IsPlain n)
    (other : n ≠ "namespace") : Vendor.blazegraph.Locates e n := by
  have cut := namespaceCut?_built (unbroken_serviceRoot http.solid) plain other
  have told : Vendor.blazegraph.namespaceOf? (serviceRoot e ++ "/namespace/" ++ n ++ "/sparql") =
      some n := by
    rw [namespaceOf?, cut]
    simp
  have root : serviceRoot (serviceRoot e ++ "/namespace/" ++ n ++ "/sparql") = serviceRoot e := by
    rw [serviceRoot, cut]
    simp
  have graph : Vendor.blazegraph.graphEndpoint (serviceRoot e ++ "/namespace/" ++ n ++ "/sparql") =
      serviceRoot e ++ "/namespace/" ++ n ++ "/sparql" := trimSlashes_query
  refine ⟨fun service _ => ⟨_, endpoint_blazegraph plain, told⟩,
    fun service _ m valid service' _ => ?_, ?_⟩
  · refine ⟨_, _, endpoint_blazegraph plain, endpoint_blazegraph valid, ?_⟩
    rw [endpoint_blazegraph valid, root]
  · refine connected_of (endpoint_blazegraph plain) (endpoint_blazegraph plain) ?_
    rw [graph]
    simpa using told

theorem not_locates_blazegraph (solid : hasBlank e = false) :
    ¬Vendor.blazegraph.Locates e "namespace" := by
  intro located
  have plain : Namespace.IsPlain "namespace" := ⟨by decide, by decide⟩
  obtain ⟨url, built, told⟩ := located.told "sparql" (by decide)
  obtain rfl := Except.ok.inj ((endpoint_blazegraph plain).symm.trans built)
  have word := namespaceCut?_word (unbroken_serviceRoot solid)
  rw [namespaceOf?, trimSlashes_query, toList_segment, word] at told
  have same : String.ofList "sparql".toList = "namespace" := Option.some.inj told
  exact absurd same (by decide)

end

end Vendor

/-- On every endpoint the law holds for every name, but for the one word where it is a segment. -/
theorem locates_iff {v : Vendor} {e n : String} (able : v ≠ .generic) (http : Url.IsEndpoint e)
    (plain : Namespace.IsPlain n) : v.Locates e n ↔ ¬(v = .blazegraph ∧ n = "namespace") := by
  cases v with
  | generic => exact absurd rfl able
  | fuseki => simp [Vendor.locates_fuseki http plain]
  | blazegraph =>
    constructor
    · rintro located ⟨-, rfl⟩
      exact Vendor.not_locates_blazegraph http.solid located
    · exact fun other => Vendor.locates_blazegraph http plain fun same => other ⟨rfl, same⟩

theorem locates_iff_service : Url.IsEndpoint "https://h:8443/kb/sparql" ∧
    Namespace.IsPlain "sparql" ∧ Vendor.blazegraph.Locates "https://h:8443/kb/sparql" "sparql" := by
  have http : Url.IsEndpoint "https://h:8443/kb/sparql" :=
    ⟨by decide, ⟨"https", "h:8443"⟩, by rfl, .inr rfl, by decide⟩
  have plain : Namespace.IsPlain "sparql" := ⟨by decide, by decide⟩
  exact ⟨http, plain, (locates_iff (by decide) http plain).2 (by decide)⟩

/-- The word before the segments is a plain name, but what is built for it tells another one. -/
theorem exists_endpoint_of_word : ∃ e url, Url.IsEndpoint e ∧ Namespace.IsPlain "namespace" ∧
    Vendor.blazegraph.namespaceEndpoint e (.text "namespace") "sparql" = .ok url ∧
    Vendor.blazegraph.namespaceOf? url = some "sparql" := by
  refine ⟨"http://localhost:9999/blazegraph/sparql",
    "http://localhost:9999/blazegraph/namespace/namespace/sparql", ?_, ⟨by decide, by decide⟩,
    by rfl, by decide⟩
  exact ⟨by decide, ⟨"http", "localhost:9999"⟩, by rfl, .inl rfl, by decide⟩

end SparqlClient
