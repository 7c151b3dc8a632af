import SparqlClient.Proofs.Log.Pieces

/-! What a log tells of a URL with credentials and a query. The passes go over the same text one
after the other, so what stands between the credentials and the query decides whether both stay
hidden: a scheme in it can take a part of the query for a user, and a secret in it can take the
question mark itself. -/

namespace SparqlClient

namespace Log

open Text Statement

theorem reads_userInfo? : Reads userInfo? := by
  intro s new rest h
  obtain ⟨scheme, info, -, -, rfl, -⟩ := userInfo?_eq_some_iff.1 h
  exact ⟨scheme ++ (info ++ ['@']), by simp, by simp⟩

theorem reads_secret? : Reads secret? := by
  intro s new rest h
  obtain ⟨name, run, -, -, -, -, rfl, -⟩ := secret?_eq_some_iff.1 h
  exact ⟨name ++ '=' :: run, by simp, by simp⟩

theorem reads_urlQuery? : Reads urlQuery? := by
  intro s new rest h
  obtain ⟨scheme, path, query, -, -, -, -, -, -, rfl, -⟩ := urlQuery?_eq_some_iff.1 h
  exact ⟨scheme ++ (path ++ '?' :: query), by simp, by simp⟩

theorem reads_longRun? : Reads longRun? := by
  intro s new rest h
  rw [longRun?] at h
  split at h
  · rename_i long
    obtain ⟨-, rfl⟩ := Prod.mk.inj (Option.some.inj h)
    exact ⟨s.takeWhile isTokenChar, List.ne_nil_of_length_pos (by omega),
      List.takeWhile_append_dropWhile.symm⟩
  · cases h

theorem reads_token? : Reads token? := by
  intro s new rest h
  rcases Option.or_eq_some_iff.1 h with named | ⟨-, alone⟩
  · obtain ⟨r, found, read⟩ := Option.bind_eq_some_iff.1 named
    obtain ⟨name, rfl, -⟩ := afterWord?_eq_some_iff.1 found
    split at read
    · cases read
    obtain ⟨piece, filled, behind⟩ := reads_longRun? read
    refine ⟨name ++ (r.takeWhile isBlank ++ piece), by simp [filled], ?_⟩
    rw [List.append_assoc, List.append_assoc, ← behind, List.takeWhile_append_dropWhile]
  · exact reads_longRun? alone

/-- A pass over users is settled where no scheme goes on across the seam, and no user in front of
it. -/
theorem settled_userInfo? {s t : List Char}
    (apart : ∀ u v, u ++ v ∈ webSchemes → u ≠ [] → v <+: t → v = [])
    (stop : ∀ scheme ∈ webSchemes, ∀ a, scheme ++ a <:+ s →
      (∃ c ∈ a, isPasswordChar c = false) ∨ a.head? = some ':' ∨
        ∀ b r, t = b ++ '@' :: r → ∃ c ∈ b, isPasswordChar c = false) :
    Settled userInfo? s t := by
  intro u suffix filled
  cases found : userInfo? u with
  | some p =>
    obtain ⟨scheme, info, web, user, rfl, new⟩ := userInfo?_eq_some_iff.1 found
    exact userInfo?_eq_some_iff.2 ⟨scheme, info, web, user, by simp, new⟩
  | none =>
    cases across : userInfo? (u ++ t) with
    | none => rfl
    | some p =>
      exfalso
      obtain ⟨scheme, info, web, user, split, -⟩ := userInfo?_eq_some_iff.1 across
      obtain ⟨a, rfl, tail⟩ : ∃ a, u = scheme ++ a ∧ a ++ t = info ++ '@' :: p.2 := by
        rcases List.append_eq_append_iff.1 split with ⟨v, rfl, rfl⟩ | ⟨a, rfl, tail⟩
        · obtain rfl := apart u v web filled (List.prefix_append v _)
          exact ⟨[], by simp, by simp⟩
        · exact ⟨a, rfl, tail.symm⟩
      obtain ⟨b, rfl, rfl⟩ : ∃ b, info = a ++ b ∧ t = b ++ '@' :: p.2 := by
        rcases List.append_eq_append_iff.1 tail with ⟨b, rfl, behind⟩ | ⟨b, rfl, behind⟩
        · exact ⟨b, rfl, behind⟩
        · cases b with
          | nil => exact ⟨[], by simp, by simpa using behind.symm⟩
          | cons x b =>
            obtain ⟨rfl, -⟩ := List.cons.inj behind
            rw [userInfo?_eq_some_iff.2 ⟨scheme, info, web, user, rfl, rfl⟩] at found
            cases found
      rcases stop scheme web a suffix with ⟨c, hc, bad⟩ | head | crossing
      · rw [user.plain c (List.mem_append_left b hc)] at bad
        cases bad
      · refine user.named ?_
        rw [List.head?_append, head, Option.some_or]
      · obtain ⟨c, hc, bad⟩ := crossing b p.2 rfl
        rw [user.plain c (List.mem_append_right a hc)] at bad
        cases bad

theorem settled_secret? {s t : List Char} {c : Char} (other : ∀ w ∈ secretWords, fold c ∉ w)
    (apart : c ≠ '=')
    (stop : isSecretChar c = false ∨ ∀ name b, name.map fold ∈ secretWords →
      name ++ '=' :: b <:+ s → ∃ x ∈ b, isSecretChar x = false) :
    Settled secret? s (c :: t) := by
  intro u suffix filled
  cases found : secret? u with
  | some p =>
    obtain ⟨name, run, known, some_char, all, ended, rfl, new⟩ := secret?_eq_some_iff.1 found
    refine secret?_eq_some_iff.2 ⟨name, run, known, some_char, all, ?_, by simp, new⟩
    cases rest : p.2 with
    | cons x rest =>
      rw [rest] at ended
      exact ended
    | nil =>
      intro x first
      obtain rfl : c = x := by simpa using first
      rcases stop with bad | stop
      · exact bad
      · rw [rest, List.append_nil] at suffix
        obtain ⟨x, hx, bad⟩ := stop name run known suffix
        rw [all x hx] at bad
        cases bad
  | none =>
    cases across : secret? (u ++ c :: t) with
    | none => rfl
    | some p =>
      exfalso
      obtain ⟨name, run, known, some_char, all, ended, split, -⟩ := secret?_eq_some_iff.1 across
      obtain ⟨b, rfl, tail⟩ : ∃ b, u = name ++ '=' :: b ∧ b ++ c :: t = run ++ p.2 := by
        rcases List.append_eq_append_iff.1 split with ⟨v, rfl, behind⟩ | ⟨v, rfl, behind⟩
        · cases v with
          | nil => exact absurd (List.cons.inj behind).1 apart
          | cons x v =>
            obtain ⟨rfl, -⟩ := List.cons.inj behind
            exact absurd (by simp) (other _ known)
        · cases v with
          | nil => exact absurd (List.cons.inj behind).1.symm apart
          | cons x v =>
            obtain ⟨rfl, same⟩ := List.cons.inj behind
            exact ⟨v, rfl, same.symm⟩
      have unread {d : List Char} (ended : ∀ x ∈ d.head?, isSecretChar x = false)
          (same : b = run ++ d) : False := by
        rw [same, secret?_eq_some_iff.2 ⟨name, run, known, some_char, all, ended, rfl, rfl⟩] at found
        cases found
      rcases List.append_eq_append_iff.1 tail with ⟨d, rfl, behind⟩ | ⟨d, rfl, behind⟩
      · cases d with
        | nil => exact unread (d := []) (by simp) (by simp)
        | cons x d =>
          obtain ⟨rfl, -⟩ := List.cons.inj behind
          rcases stop with bad | stop
          · rw [all c (by simp)] at bad
            cases bad
          · obtain ⟨x, hx, bad⟩ := stop name b known suffix
            rw [all x (List.mem_append_left _ hx)] at bad
            cases bad
      · refine unread ?_ rfl
        cases d with
        | nil => simp
        | cons x d =>
          rw [behind] at ended
          exact ended

theorem secret?_append_eq_none {u : List Char} (t : List Char)
    (unlike : ∀ w ∈ secretWords, ¬u.map fold <+: w ∧ ¬w <+: u.map fold) :
    secret? (u ++ t) = none := by
  cases found : secret? (u ++ t) with
  | none => rfl
  | some p =>
    obtain ⟨name, run, known, -, -, -, split, -⟩ := secret?_eq_some_iff.1 found
    obtain ⟨apart, apart'⟩ := unlike _ known
    rcases List.append_eq_append_iff.1 split with ⟨v, rfl, -⟩ | ⟨v, rfl, -⟩
    · exact absurd ⟨v.map fold, by simp⟩ apart
    · exact absurd ⟨v.map fold, by simp⟩ apart'

theorem userInfo?_cons {c : Char} (other : c ≠ 'h') (s : List Char) : userInfo? (c :: s) = none := by
  cases found : userInfo? (c :: s) with
  | none => rfl
  | some p =>
    obtain ⟨scheme, info, web, -, split, -⟩ := userInfo?_eq_some_iff.1 found
    have first : ∀ scheme ∈ webSchemes, scheme.head? = some 'h' := by decide
    have same := congrArg List.head? split
    rw [List.head?_append, first scheme web] at same
    exact absurd (by simpa using same) other

theorem pass_urlQuery?_eq_self {s : List Char} (plain : '?' ∉ s) : pass urlQuery? s = s := by
  refine pass_eq_self fun u suffix => ?_
  cases found : urlQuery? u with
  | none => rfl
  | some p =>
    obtain ⟨scheme, path, query, -, -, -, -, -, -, rfl, -⟩ := urlQuery?_eq_some_iff.1 found
    exact absurd (suffix.subset (by simp)) plain

theorem forall_userPass {P : Char → Prop} {s : List Char} (h : ∀ c ∈ s, P c)
    (own : ∀ c ∈ redacted ++ ['@'], P c) : ∀ c ∈ pass userInfo? s, P c := by
  refine pass_forall reads_userInfo? (fun s new rest found all => ?_) h
  obtain ⟨scheme, info, -, -, rfl, rfl⟩ := userInfo?_eq_some_iff.1 found
  rw [List.append_assoc, List.forall_mem_append]
  exact ⟨fun c hc => all c (by simp [hc]), own⟩

theorem forall_secretPass {P : Char → Prop} {s : List Char} (h : ∀ c ∈ s, P c)
    (own : ∀ c ∈ redacted, P c) : ∀ c ∈ pass secret? s, P c := by
  refine pass_forall reads_secret? (fun s new rest found all => ?_) h
  obtain ⟨name, run, -, -, -, -, rfl, rfl⟩ := secret?_eq_some_iff.1 found
  rw [List.forall_mem_append, List.forall_mem_cons]
  exact ⟨fun c hc => all c (by simp [hc]), all '=' (by simp), own⟩

def webUrl (scheme info rest : List Char) : List Char := scheme ++ (info ++ '@' :: rest)

theorem pass_userInfo?_webUrl {scheme info : List Char} (web : scheme ∈ webSchemes)
    (user : IsUserInfo info) (rest : List Char) :
    pass userInfo? (webUrl scheme info rest) = webUrl scheme redacted (pass userInfo? rest) := by
  have found : userInfo? (webUrl scheme info rest) = some (scheme ++ redacted ++ ['@'], rest) :=
    userInfo?_eq_some_iff.2 ⟨scheme, info, web, user, rfl, rfl⟩
  rw [pass_of_some reads_userInfo? found, webUrl, List.append_assoc, List.append_assoc,
    List.singleton_append]

theorem pass_secret?_webUrl {scheme : List Char} (web : scheme ∈ webSchemes) (rest : List Char) :
    pass secret? (webUrl scheme redacted rest) = webUrl scheme redacted (pass secret? rest) := by
  have unlike : ∀ scheme ∈ webSchemes, ∀ u ∈ (scheme ++ redacted ++ ['@']).tails, u ≠ [] →
      ∀ w ∈ secretWords, ¬u.map fold <+: w ∧ ¬w <+: u.map fold := by decide
  have split (r : List Char) : webUrl scheme redacted r = scheme ++ redacted ++ ['@'] ++ r := by
    simp [webUrl]
  rw [split, split, pass_append_of_none]
  intro u suffix filled
  exact secret?_append_eq_none rest (unlike scheme web u ((List.mem_tails u _).2 suffix) filled)

theorem pass_urlQuery?_webUrl {scheme rest query : List Char} (web : scheme ∈ webSchemes)
    (plain : ∀ c ∈ rest, isPathChar c) (asked : query ≠ []) (solid : ∀ c ∈ query, isSolid c) :
    pass urlQuery? (webUrl scheme redacted (rest ++ '?' :: query)) = webUrl scheme redacted rest := by
  have onPath : ∀ c ∈ redacted ++ '@' :: rest, isPathChar c := by
    rw [List.forall_mem_append, List.forall_mem_cons]
    exact ⟨by decide, by decide, plain⟩
  have found : urlQuery? (webUrl scheme redacted (rest ++ '?' :: query)) =
      some (webUrl scheme redacted rest, []) :=
    urlQuery?_eq_some_iff.2 ⟨scheme, redacted ++ '@' :: rest, query, web, by simp, onPath, asked,
      solid, by simp, by simp [webUrl], rfl⟩
  rw [pass_of_some reads_urlQuery? found, pass_nil, List.append_nil]

theorem forall_isPathChar {s : List Char} (h : ∀ c ∈ s, isPathChar c) :
    ∀ c ∈ pass secret? (pass userInfo? s), isPathChar c :=
  forall_secretPass (forall_userPass h (by decide)) (by decide)

/-- Each user in a text has ended, or has never begun. -/
def UsersEnd (s : List Char) : Prop :=
  ∀ u ∈ s.tails, ∀ p ∈ webScheme? u, '/' ∈ p.2 ∨ '@' ∈ p.2 ∨ p.2.head? = some ':'

instance (s : List Char) : Decidable (UsersEnd s) :=
  inferInstanceAs (Decidable (∀ u ∈ s.tails, ∀ p ∈ webScheme? u,
    '/' ∈ p.2 ∨ '@' ∈ p.2 ∨ p.2.head? = some ':'))

def SecretsEnd (s : List Char) : Prop :=
  ∀ u ∈ s.tails, ∀ w ∈ secretWords, ∀ t ∈ afterWord? w u, t.head? = some '=' → '&' ∈ t

instance (s : List Char) : Decidable (SecretsEnd s) :=
  inferInstanceAs (Decidable (∀ u ∈ s.tails, ∀ w ∈ secretWords, ∀ t ∈ afterWord? w u,
    t.head? = some '=' → '&' ∈ t))

theorem UsersEnd.settled {s : List Char} (h : UsersEnd s) (query : List Char) :
    Settled userInfo? s ('?' :: query) := by
  refine settled_userInfo? (fun u v web _ begun => ?_) fun scheme web a suffix => ?_
  · cases v with
    | nil => rfl
    | cons c v =>
      obtain ⟨rfl, -⟩ := List.cons_prefix_cons.1 begun
      have unlike : ∀ scheme ∈ webSchemes, '?' ∉ scheme := by decide
      exact absurd (by simp) (unlike _ web)
  · have found : webScheme? (scheme ++ a) = some (scheme, a) :=
      webScheme?_eq_some_iff.2 ⟨web, rfl⟩
    rcases h _ ((List.mem_tails _ _).2 suffix) _ found with slash | at_sign | colon
    · exact .inl ⟨'/', slash, by decide⟩
    · exact .inl ⟨'@', at_sign, by decide⟩
    · exact .inr (.inl colon)

theorem UsersEnd.pass_append {s : List Char} (h : UsersEnd s) (query : List Char) :
    pass userInfo? (s ++ '?' :: query) = pass userInfo? s ++ '?' :: pass userInfo? query := by
  rw [Log.pass_append reads_userInfo? (h.settled query),
    pass_of_none (userInfo?_cons (by decide) query)]

theorem SecretsEnd.settled {s : List Char} (h : SecretsEnd s) (query : List Char) :
    Settled secret? s ('?' :: query) := by
  refine settled_secret? (by decide) (by decide) (.inr fun name b known suffix => ?_)
  have found : afterWord? (name.map fold) (name ++ '=' :: b) = some ('=' :: b) :=
    afterWord?_append rfl
  have closed := h _ ((List.mem_tails _ _).2 suffix) _ known _ found rfl
  exact ⟨'&', by simpa using closed, by decide⟩

theorem SecretsEnd.pass_append {s : List Char} (h : SecretsEnd s) (query : List Char) :
    pass secret? (s ++ '?' :: query) = pass secret? s ++ '?' :: pass secret? query := by
  have mark : secret? ('?' :: query) = none :=
    secret?_append_eq_none (u := ['?']) query (by decide)
  rw [Log.pass_append reads_secret? (h.settled query), pass_of_none mark]

/-- A text in front of a query is closed when neither a user nor a secret in it takes a part of the
query. The secrets are those behind the user pass. -/
structure IsClosed (rest : List Char) : Prop where
  users : UsersEnd rest
  secrets : SecretsEnd (pass userInfo? rest)

instance (rest : List Char) : Decidable (IsClosed rest) :=
  decidable_of_iff (UsersEnd rest ∧ SecretsEnd (pass userInfo? rest))
    ⟨fun ⟨users, secrets⟩ => ⟨users, secrets⟩, fun ⟨users, secrets⟩ => ⟨users, secrets⟩⟩

structure IsQuery (s : List Char) : Prop where
  filled : s ≠ []
  solid : ∀ c ∈ s, isSolid c

theorem scrubChars_eq (s : List Char) :
    scrubChars s = pass token? (pass urlQuery? (pass secret? (pass userInfo? s))) := rfl

/-- Neither the credentials nor the query can be told from the text that is left. -/
theorem scrubChars_webUrl {scheme info rest query : List Char} (web : scheme ∈ webSchemes)
    (plain : ∀ c ∈ rest, isPathChar c) (closed : IsClosed rest) (user : IsUserInfo info)
    (asked : IsQuery query) :
    scrubChars (webUrl scheme info (rest ++ '?' :: query)) =
      pass token? (webUrl scheme redacted (pass secret? (pass userInfo? rest))) := by
  have filled : pass secret? (pass userInfo? query) ≠ [] := by
    refine pass_ne_nil reads_secret? ?_ (pass_ne_nil reads_userInfo? ?_ asked.filled)
    · rintro s new rest found rfl
      obtain ⟨name, run, -, -, -, -, -, new⟩ := secret?_eq_some_iff.1 found
      exact List.append_ne_nil_of_right_ne_nil name (List.cons_ne_nil _ _) new.symm
    · rintro s new rest found rfl
      obtain ⟨scheme, info, -, -, -, new⟩ := userInfo?_eq_some_iff.1 found
      exact List.append_ne_nil_of_right_ne_nil _ (List.cons_ne_nil _ _) new.symm
  have solid : ∀ c ∈ pass secret? (pass userInfo? query), isSolid c :=
    forall_secretPass (forall_userPass asked.solid (by decide)) (by decide)
  rw [scrubChars_eq, pass_userInfo?_webUrl web user, closed.users.pass_append,
    pass_secret?_webUrl web, closed.secrets.pass_append,
    pass_urlQuery?_webUrl web (forall_isPathChar plain) filled solid]

example : scrubChars "http://admin:pw@localhost:3030/ds/sparql?query=SELECT".toList =
    "http://[redacted]@localhost:3030/ds/sparql".toList := by decide

end Log

end SparqlClient
