import SparqlClient.Proofs.Log.Details
import SparqlClient.Proofs.Log.Urls

/-! Credentials and queries are hidden by the log where the text between them is closed, and there
alone: otherwise a query is told behind an ampersand, where each secret ends. -/

namespace SparqlClient

namespace Log

open Text Statement

theorem token?_eq_longRun? {s : List Char} (solid : ∀ c ∈ s, isSolid c) : token? s = longRun? s := by
  have unnamed : ((afterWord? bearerWord s).bind fun rest =>
      if (rest.takeWhile isBlank).isEmpty then none else longRun? (rest.dropWhile isBlank)) =
        none := by
    refine Option.bind_eq_none_iff.2 fun rest found => ?_
    obtain ⟨name, rfl, -⟩ := afterWord?_eq_some_iff.1 found
    cases rest with
    | nil => rfl
    | cons c rest =>
      have own : isBlank c = false := by simpa [isSolid] using solid c (by simp)
      simp [own]
  rw [token?, unnamed, Option.none_or]

theorem settled_token? {s t : List Char} (solid : ∀ c ∈ s ++ '&' :: t, isSolid c) :
    Settled token? s ('&' :: t) := by
  intro u suffix filled
  have within : ∀ c ∈ u ++ '&' :: t, isSolid c := by
    rw [List.forall_mem_append] at solid ⊢
    exact ⟨fun c hc => solid.1 c (suffix.subset hc), solid.2⟩
  have stop : isTokenChar '&' = false := by decide
  rw [token?_eq_longRun? within, token?_eq_longRun? fun c hc => within c (List.mem_append_left _ hc),
    longRun?, longRun?, takeWhile_append_cons stop, dropWhile_append_cons stop]
  split <;> rfl

def telling (x : Char) : List Char := ['&', '/', x]

theorem isSecretChar_of_fold {w : List Char} (known : w ∈ secretWords) {c : Char} (h : fold c ∈ w) :
    isSecretChar c := by
  have small : ∀ w ∈ secretWords, ∀ c ∈ w, c.isLower := by decide
  have word : isWord c := isWord_of_isLower_fold (small w known _ h)
  have solid : isBlank c = false := by
    cases blank : isBlank c with
    | false => rfl
    | true =>
      rw [isWord_of_isBlank blank] at word
      cases word
  have apart : c ≠ '&' := by
    rintro rfl
    cases word
  simp [isSecretChar, solid, apart]

theorem notMem_pass_secret? {s p name run : List Char} (split : s = p ++ (name ++ '=' :: run))
    (known : name.map fold ∈ secretWords) (filled : run ≠ []) (all : ∀ c ∈ run, isSecretChar c)
    (plain : '?' ∉ p) : '?' ∉ pass secret? s := by
  have within : ∀ c ∈ name ++ '=' :: run, isSecretChar c := by
    rw [List.forall_mem_append, List.forall_mem_cons]
    exact ⟨fun c hc => isSecretChar_of_fold known (List.mem_map_of_mem hc), by decide, all⟩
  induction s using pass_induct reads_secret? generalizing p with
  | nil => simp at split
  | piece s new rest found ih =>
    rw [pass_of_some reads_secret? found, List.mem_append, not_or]
    obtain ⟨name', run', known', -, -, ended, rfl, rfl⟩ := secret?_eq_some_iff.1 found
    refine ⟨?_, ?_⟩
    · have unlike : ∀ w ∈ secretWords, fold '?' ∉ w := by decide
      have own : '?' ∉ name' := fun member => unlike _ known' (List.mem_map_of_mem member)
      have others : '?' ∉ '=' :: redacted := by decide
      simp [own, others]
    · have shape : name' ++ '=' :: run' ++ rest = p ++ (name ++ '=' :: run) := by simpa using split
      rcases List.append_eq_append_iff.1 shape with ⟨d, rfl, behind⟩ | ⟨d, -, behind⟩
      · exact ih behind fun member => plain (by simp [member])
      · cases rest with
        | nil => simp [pass_nil]
        | cons c rest =>
          have inside : c ∈ name ++ '=' :: run := behind ▸ by simp
          have stopped := ended c rfl
          rw [within c inside] at stopped
          cases stopped
  | char c s other ih =>
    rw [pass_of_none other, List.mem_cons, not_or]
    cases p with
    | nil =>
      have found : secret? (c :: s) = some (name ++ '=' :: redacted, []) :=
        secret?_eq_some_iff.2 ⟨name, run, known, filled, all, by simp, by simpa using split, rfl⟩
      rw [other] at found
      cases found
    | cons x p =>
      obtain ⟨rfl, rfl⟩ := List.cons.inj split
      rw [List.mem_cons, not_or] at plain
      exact ⟨plain.1, ih rfl plain.2⟩

theorem scrub_telling {s : List Char} {x : Char} (known : x ∈ ['a', 'b'])
    (solid : ∀ c ∈ s, isSolid c) (plain : '?' ∉ pass secret? s) :
    pass token? (pass urlQuery? (pass secret? (s ++ telling x))) =
      pass token? (pass secret? s) ++ telling x := by
  have own : ∀ x ∈ ['a', 'b'], pass secret? (telling x) = telling x ∧
      pass token? (telling x) = telling x ∧ '?' ∉ telling x ∧ ∀ c ∈ telling x, isSolid c := by decide
  obtain ⟨secrets, tokens, others, end_solid⟩ := own x known
  have secretPass : pass secret? (s ++ telling x) = pass secret? s ++ telling x := by
    have settled := settled_secret? (s := s) (t := ['/', x]) (c := '&') (by decide) (by decide)
      (.inl (by decide))
    rw [telling, pass_append reads_secret? settled, ← telling, secrets]
  have urlPass : pass urlQuery? (pass secret? s ++ telling x) = pass secret? s ++ telling x := by
    refine pass_urlQuery?_eq_self ?_
    rw [List.mem_append, not_or]
    exact ⟨plain, others⟩
  have all : ∀ c ∈ pass secret? s ++ telling x, isSolid c := by
    rw [List.forall_mem_append]
    exact ⟨forall_secretPass solid (by decide), end_solid⟩
  rw [secretPass, urlPass, telling, pass_append reads_token? (settled_token? all), ← telling, tokens]

theorem settled_userInfo?_webUrl {s scheme info rest : List Char} (web : scheme ∈ webSchemes) :
    Settled userInfo? s (webUrl scheme info rest) := by
  have begun : scheme <+: webUrl scheme info rest := List.prefix_append scheme _
  refine settled_userInfo? (fun u v crossed filled start => ?_)
    fun _ _ _ _ => .inr (.inr fun b r split => ?_)
  · have apart : ∀ w ∈ webSchemes, ∀ v ∈ w.tails, v ≠ w → v ≠ [] →
        ∀ scheme ∈ webSchemes, ¬v <+: scheme ∧ ¬scheme <+: v := by decide
    by_contra some_char
    have proper : v ≠ u ++ v := by simpa using filled
    obtain ⟨no, no'⟩ := apart _ crossed v ((List.mem_tails _ _).2 (List.suffix_append u v)) proper
      some_char scheme web
    exact (List.prefix_or_prefix_of_prefix start begun).elim no no'
  · have shape : ∀ scheme ∈ webSchemes, '/' ∈ scheme ∧ '@' ∉ scheme := by decide
    obtain ⟨slash, at_sign⟩ := shape scheme web
    refine ⟨'/', ?_, by decide⟩
    rcases List.append_eq_append_iff.1 split with ⟨d, rfl, -⟩ | ⟨d, rfl, behind⟩
    · exact List.mem_append_left d slash
    · cases d with
      | nil => simpa using slash
      | cons c d =>
        obtain ⟨rfl, -⟩ := List.cons.inj behind
        exact absurd (by simp) at_sign

/-- Whether URLs that agree but for credentials and query are scrubbed to one text. -/
def ScrubsAlike (scheme rest : List Char) : Prop :=
  ∀ info info' query query' : List Char, IsUserInfo info → IsUserInfo info' → IsQuery query →
    IsQuery query' → scrubChars (webUrl scheme info (rest ++ '?' :: query)) =
      scrubChars (webUrl scheme info' (rest ++ '?' :: query'))

theorem ScrubsAlike.false_of_telling {scheme rest s : List Char} {query : Char → List Char}
    (alike : ScrubsAlike scheme rest) (asked : ∀ x ∈ ['a', 'b'], IsQuery (query x))
    (users : ∀ x ∈ ['a', 'b'],
      pass userInfo? (webUrl scheme ['u'] (rest ++ '?' :: query x)) = s ++ telling x)
    (solid : ∀ c ∈ s, isSolid c) (plain : '?' ∉ pass secret? s) : False := by
  have user : IsUserInfo ['u'] := by decide
  have shown (x : Char) (known : x ∈ ['a', 'b']) :
      scrubChars (webUrl scheme ['u'] (rest ++ '?' :: query x)) =
        pass token? (pass secret? s) ++ telling x := by
    rw [scrubChars_eq, users x known, scrub_telling known solid plain]
  have same := alike ['u'] ['u'] _ _ user user (asked 'a' (by decide)) (asked 'b' (by decide))
  rw [shown 'a' (by decide), shown 'b' (by decide)] at same
  have ends := List.append_cancel_left same
  revert ends
  decide

theorem isSolid_of_isPathChar {c : Char} (h : isPathChar c) : isSolid c := by
  simp [isSolid, (isPathChar_iff.1 h).2]

theorem forall_webUrl {P : Char → Prop} {scheme rest : List Char}
    (own : ∀ c ∈ scheme ++ redacted ++ ['@'], P c) (h : ∀ c ∈ rest, P c) :
    ∀ c ∈ webUrl scheme redacted rest, P c := by
  have split : webUrl scheme redacted rest = scheme ++ redacted ++ ['@'] ++ rest := by simp [webUrl]
  rw [split, List.forall_mem_append]
  exact ⟨own, h⟩

theorem forall_isPathChar_webUrl {scheme rest : List Char} (web : scheme ∈ webSchemes)
    (plain : ∀ c ∈ rest, isPathChar c) : ∀ c ∈ webUrl scheme redacted rest, isPathChar c := by
  have own : ∀ scheme ∈ webSchemes, ∀ c ∈ scheme ++ redacted ++ ['@'], isPathChar c := by decide
  exact forall_webUrl (own scheme web) plain

theorem isUserInfo_mark {a : List Char} (plain : ∀ c ∈ a, isPathChar c) (no_slash : '/' ∉ a)
    (no_at : '@' ∉ a) (no_colon : a.head? ≠ some ':') : IsUserInfo (a ++ ['?']) := by
  refine ⟨by simp, ?_, ?_⟩
  · cases a with
    | nil => decide
    | cons c a => exact no_colon
  · rw [List.forall_mem_append]
    refine ⟨fun c hc => ?_, by decide⟩
    have slash : c ≠ '/' := fun same => no_slash (same ▸ hc)
    have at_sign : c ≠ '@' := fun same => no_at (same ▸ hc)
    simp [isPasswordChar, slash, at_sign, (isPathChar_iff.1 (plain c hc)).2]

theorem ScrubsAlike.users {scheme rest : List Char} (web : scheme ∈ webSchemes)
    (plain : ∀ c ∈ rest, isPathChar c) (alike : ScrubsAlike scheme rest) : UsersEnd rest := by
  rintro u tail ⟨inner, a⟩ found
  by_contra! open_user
  obtain ⟨no_slash, no_at, no_colon⟩ := open_user
  obtain ⟨web', rfl⟩ := webScheme?_eq_some_iff.1 found
  obtain ⟨p, rfl⟩ := (List.mem_tails _ _).1 tail
  simp only [List.forall_mem_append] at plain
  obtain ⟨plain_p, -, plain_a⟩ := plain
  have user := isUserInfo_mark plain_a no_slash no_at no_colon
  have short : ∀ x ∈ ['a', 'b'], IsUserInfo ['u'] ∧ pass userInfo? (telling x) = telling x := by
    decide
  have users (x : Char) (known : x ∈ ['a', 'b']) :
      pass userInfo? (webUrl scheme ['u'] (p ++ (inner ++ a) ++ '?' :: ('@' :: telling x))) =
        webUrl scheme redacted (pass userInfo? p ++ webUrl inner redacted []) ++ telling x := by
    have shape : p ++ (inner ++ a) ++ '?' :: ('@' :: telling x) =
        p ++ webUrl inner (a ++ ['?']) (telling x) := by simp [webUrl]
    rw [pass_userInfo?_webUrl web (short x known).1, shape,
      pass_append reads_userInfo? (settled_userInfo?_webUrl web'), pass_userInfo?_webUrl web' user,
      (short x known).2]
    simp [webUrl]
  have path : ∀ c ∈ webUrl scheme redacted (pass userInfo? p ++ webUrl inner redacted []),
      isPathChar c := by
    refine forall_isPathChar_webUrl web ?_
    rw [List.forall_mem_append]
    exact ⟨forall_userPass plain_p (by decide), forall_isPathChar_webUrl web' (by simp)⟩
  refine alike.false_of_telling (fun x known => ⟨by simp, ?_⟩) users
    (fun c hc => isSolid_of_isPathChar (path c hc)) fun member => ?_
  · have solid : ∀ x ∈ ['a', 'b'], ∀ c ∈ '@' :: telling x, isSolid c := by decide
    exact solid x known
  · exact (isPathChar_iff.1 (forall_secretPass path (by decide) '?' member)).1 rfl

theorem ScrubsAlike.secrets {scheme rest : List Char} (web : scheme ∈ webSchemes)
    (plain : ∀ c ∈ rest, isPathChar c) (alike : ScrubsAlike scheme rest) :
    SecretsEnd (pass userInfo? rest) := by
  have ended := alike.users web plain
  have inside : ∀ c ∈ pass userInfo? rest, isPathChar c := forall_userPass plain (by decide)
  rintro u tail w known t found first
  by_contra open_secret
  obtain ⟨name, rfl, rfl⟩ := afterWord?_eq_some_iff.1 found
  obtain ⟨b, rfl⟩ := List.head?_eq_some_iff.1 first
  obtain ⟨p, split⟩ := (List.mem_tails _ _).1 tail
  have short : ∀ x ∈ ['a', 'b'], IsUserInfo ['u'] ∧ pass userInfo? (telling x) = telling x := by
    decide
  have users (x : Char) (known : x ∈ ['a', 'b']) :
      pass userInfo? (webUrl scheme ['u'] (rest ++ '?' :: telling x)) =
        webUrl scheme redacted (pass userInfo? rest ++ ['?']) ++ telling x := by
    rw [pass_userInfo?_webUrl web (short x known).1, ended.pass_append, (short x known).2]
    simp [webUrl]
  have own : ∀ scheme ∈ webSchemes, ∀ c ∈ scheme ++ redacted ++ ['@'], isSolid c ∧ c ≠ '?' := by
    decide
  have solid : ∀ c ∈ webUrl scheme redacted (pass userInfo? rest ++ ['?']), isSolid c := by
    refine forall_webUrl (fun c hc => (own scheme web c hc).1) ?_
    rw [List.forall_mem_append]
    exact ⟨fun c hc => isSolid_of_isPathChar (inside c hc), by decide⟩
  have eaten : '?' ∉ pass secret? (pass userInfo? rest ++ ['?']) := by
    rw [← split] at inside ⊢
    simp only [List.forall_mem_append, List.forall_mem_cons] at inside
    obtain ⟨plain_p, -, -, plain_b⟩ := inside
    have shape : p ++ (name ++ '=' :: b) ++ ['?'] = p ++ (name ++ '=' :: (b ++ ['?'])) := by simp
    refine notMem_pass_secret? shape known (by simp) ?_ fun member =>
      (isPathChar_iff.1 (plain_p '?' member)).1 rfl
    rw [List.forall_mem_append]
    refine ⟨fun c hc => ?_, by decide⟩
    have apart : c ≠ '&' := fun same => open_secret (List.mem_cons_of_mem '=' (same ▸ hc))
    simp [isSecretChar, apart, (isPathChar_iff.1 (plain_b c hc)).2]
  refine alike.false_of_telling (fun x known => ⟨by simp [telling], ?_⟩) users solid ?_
  · have solid : ∀ x ∈ ['a', 'b'], ∀ c ∈ telling x, isSolid c := by decide
    exact solid x known
  · have others : ∀ c ∈ pass secret? (pass userInfo? rest ++ ['?']), c ≠ '?' := by
      rintro c member rfl
      exact eaten member
    rw [pass_secret?_webUrl web]
    exact fun member => forall_webUrl (fun c hc => (own scheme web c hc).2) others '?' member rfl

theorem scrubsAlike_iff {scheme rest : List Char} (web : scheme ∈ webSchemes)
    (plain : ∀ c ∈ rest, isPathChar c) : ScrubsAlike scheme rest ↔ IsClosed rest := by
  constructor
  · exact fun alike => ⟨alike.users web plain, alike.secrets web plain⟩
  · intro closed info info' query query' user user' asked asked'
    rw [scrubChars_webUrl web plain closed user asked,
      scrubChars_webUrl web plain closed user' asked']

def withUrl (fields : Entries) (url : List Char) : Entries :=
  fields.insert (.text "url") (.text (String.ofList url))

variable (l : Logger) (level : Level) (time event : String) (fields : Entries)

theorem Logger.entry_withUrl_congr {url url' : List Char} (same : scrubChars url = scrubChars url') :
    l.entry level event (withUrl fields url) = l.entry level event (withUrl fields url') := by
  have main (url : List Char) : (mainFields.flatMap fun n => field n ((withUrl fields url).get n)) =
      mainFields.flatMap fun n => field n (fields.get n) := by
    have others : ∀ n ∈ mainFields, "url" ≠ n := by decide
    refine List.flatMap_congr fun n hn => ?_
    rw [withUrl, Entries.get_insert_of_ne fields (others n hn)]
  have details (url : List Char) : ("url" :: mainFields).foldl Entries.erase (withUrl fields url) =
      ("url" :: mainFields).foldl Entries.erase fields := by
    rw [List.foldl_cons, List.foldl_cons, withUrl, Entries.erase_insert]
  have shown (url : List Char) : (withUrl fields url).get "url" = .text (String.ofList url) :=
    Entries.get_insert_self fields "url" _
  have scrubbed : scrub (String.ofList url) = scrub (String.ofList url') := by
    rw [scrub, scrub, String.toList_ofList, String.toList_ofList, same]
  simp only [Logger.entry, main, details, shown, Value.plainText, scrubbed, Value.isNull]

theorem Logger.emit_withUrl_congr {url url' : List Char} (same : scrubChars url = scrubChars url') :
    l.emit time level event (withUrl fields url) = l.emit time level event (withUrl fields url') := by
  have names : ((withUrl fields url).all fun e => isFree e.1) =
      (withUrl fields url').all fun e => isFree e.1 := by
    have keys := Entries.map_fst_insert fields (.text "url") (.text (String.ofList url))
      (.text (String.ofList url'))
    have byName (es : Entries) : (es.all fun e => isFree e.1) = (es.map Prod.fst).all isFree := by
      rw [List.all_map]
      rfl
    rw [byName, byName, withUrl, withUrl, keys]
  rw [Logger.emit, Logger.emit, names, Logger.entry_withUrl_congr l level event fields same]

def openLogger : Logger := ⟨"store", .debug, 0⟩

def urlEntry (url : List Char) : Entries :=
  [(.text "level", .text "INFO"), (.text "service", .text "store"), (.text "event", .text ""),
    (.text "url", .text (scrub (String.ofList url)))]

theorem emit_openLogger (url : List Char) : ∃ line,
    openLogger.emit "" .info "" (withUrl [] url) = .ok (some (.map (urlEntry url), line)) := by
  have entry : openLogger.entry .info "" (withUrl [] url) = .ok (.map (urlEntry url)) := by
    rfl
  have distinct : ["ts", "level", "service", "event", "url"].Nodup := by decide
  have plain : Json.Plain (.map (Json.named [("ts", .text ""), ("level", .text "INFO"),
      ("service", .text "store"), ("event", .text ""),
      ("url", .text (scrub (String.ofList url)))])) := by
    refine .map distinct ?_
    simp only [List.forall_mem_cons]
    exact ⟨.text _, .text _, .text _, .text _, .text _, by simp⟩
  obtain ⟨text, written, -⟩ := plain.exists_compact
  have names : ((withUrl [] url).all fun e => isFree e.1) = true := by rfl
  have lined : line "" (.map (urlEntry url)) = .ok text := written 0
  refine ⟨text, ?_⟩
  rw [Logger.emit, names, entry]
  simp only [bind, Except.bind, lined]
  rfl

def ToldApart (url url' : List Char) : Prop :=
  openLogger.emit "" .info "" (withUrl [] url) ≠ openLogger.emit "" .info "" (withUrl [] url')

theorem toldApart_of_ne {url url' : List Char} (other : scrubChars url ≠ scrubChars url') :
    ToldApart url url' := by
  obtain ⟨line, shown⟩ := emit_openLogger url
  obtain ⟨line', shown'⟩ := emit_openLogger url'
  rw [ToldApart, shown, shown']
  intro same
  have texts : scrubChars url = scrubChars url' ∧ line = line' := by
    simpa [urlEntry, scrub, String.ofList_inj] using same
  exact other texts.1

/-- Whether no event of any logger tells apart URLs that agree but for credentials and query. -/
def LogsAlike (scheme rest : List Char) : Prop :=
  ∀ (l : Logger) (level : Level) (time event : String) (fields : Entries)
    (info info' query query' : List Char), IsUserInfo info → IsUserInfo info' → IsQuery query →
      IsQuery query' →
      l.emit time level event (withUrl fields (webUrl scheme info (rest ++ '?' :: query))) =
        l.emit time level event (withUrl fields (webUrl scheme info' (rest ++ '?' :: query')))

/-- The log hides credentials and queries just where the text between them is closed. -/
theorem logsAlike_iff {scheme rest : List Char} (web : scheme ∈ webSchemes)
    (plain : ∀ c ∈ rest, isPathChar c) : LogsAlike scheme rest ↔ IsClosed rest := by
  rw [← scrubsAlike_iff web plain]
  constructor
  · intro alike info info' query query' user user' asked asked'
    by_contra other
    exact toldApart_of_ne other
      (alike openLogger .info "" "" [] info info' query query' user user' asked asked')
  · intro alike l level time event fields info info' query query' user user' asked asked'
    exact l.emit_withUrl_congr level time event fields
      (alike info info' query query' user user' asked asked')

theorem logsAlike_iff_store : ("https://".toList ∈ webSchemes ∧
      (∀ c ∈ "localhost:3030/ds/sparql".toList, isPathChar c) ∧
      ∀ c ∈ "localhost/secret=ds".toList, isPathChar c) ∧
    LogsAlike "https://".toList "localhost:3030/ds/sparql".toList ∧
    ¬LogsAlike "https://".toList "localhost/secret=ds".toList := by
  have web : "https://".toList ∈ webSchemes := by decide
  have plain : ∀ c ∈ "localhost:3030/ds/sparql".toList, isPathChar c := by decide
  have plain' : ∀ c ∈ "localhost/secret=ds".toList, isPathChar c := by decide
  have closed : IsClosed "localhost:3030/ds/sparql".toList := by decide
  have notClosed : ¬IsClosed "localhost/secret=ds".toList := by decide
  exact ⟨⟨web, plain, plain'⟩, (logsAlike_iff web plain).2 closed,
    fun alike => notClosed ((logsAlike_iff web plain').1 alike)⟩

/-- A scheme in capital letters, an at sign in a password, no name in front of a password, and a
secret in a path. -/
theorem exists_told :
    ToldApart "HTTP://u:pw@h/p?q=1".toList "HTTP://v@h/p?q=2".toList ∧
    ToldApart "http://u:p@ss@h/p?q=1".toList "http://v:p@th@h/p?q=2".toList ∧
    ToldApart "https://:pw@h/p?q=1".toList "https://:no@h/p?q=2".toList ∧
    ToldApart "http://u:pw@h/secret=p?q&a".toList "http://v@h/secret=p?q&b".toList :=
  ⟨toldApart_of_ne (by decide), toldApart_of_ne (by decide), toldApart_of_ne (by decide),
    toldApart_of_ne (by decide)⟩

end Log

end SparqlClient
