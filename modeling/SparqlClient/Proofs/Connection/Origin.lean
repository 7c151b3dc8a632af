import Mathlib.Data.Set.Function
import SparqlClient.Proofs.Connection.Keys
import SparqlClient.Proofs.Connection.Program
import SparqlClient.Proofs.Connection.Remembered

/-! Where remembered results come from. Main statement: an answer without a request has been
decoded from the reply to an earlier request of the same run, for the same text at the same
endpoint, and the time for which that was kept has not passed. Entries are left behind by requests
that have succeeded and by nothing else. -/

namespace SparqlClient

namespace Seconds

/-- What has been stored for a time has not ended, as the clock adds and compares; without a limit
it never ends. -/
def Fresh (time : Value) (stored now : Seconds) : Prop :=
  ∃ limit, limit? time = .ok limit ∧
    ∀ t, limit = some t → ∃ u, stored.add t = .ok u ∧ u.lt now = .ok false

theorem fresh_null (stored now : Seconds) : Fresh .null stored now := ⟨none, rfl, nofun⟩

theorem fresh_whole {t stored now : Int} :
    Fresh (.int t) (.whole stored) (.whole now) ↔ t < 0 ∨ now - stored ≤ t := by
  have limited : limit? (.int t) = .ok (if t < 0 then none else some (.whole t)) := by
    by_cases negative : t < 0 <;>
      simp [limit?, ofValue, isNegative, bind, Except.bind, pure, Except.pure, negative]
  unfold Fresh
  rw [limited]
  by_cases negative : t < 0
  · simp [negative]
  · simp [negative, add]
    omega

theorem fresh_of_ends {α : Type} {time : Value} {stored now : Seconds} {e : Stored α}
    (ends : stored.Ends time e.expires) (current : Cache.Stored.isExpired now e = .ok false) :
    Fresh time stored now := by
  obtain ⟨limit, limited, expires⟩ := ends
  refine ⟨limit, limited, fun t same => ?_⟩
  subst same
  obtain ⟨u, added, expires⟩ := expires
  rw [Cache.Stored.isExpired, expires] at current
  exact ⟨u, added, current⟩

end Seconds

namespace Connection

theorem lookup?_place {c : Connection} {text : String} {values time : Value} {cached : Bool}
    {l : Lookup} (h : c.lookup? text values cached time = some l) : l.place = c := by
  unfold lookup? at h
  split at h
  · obtain ⟨bound, -, rfl⟩ := Option.map_eq_some_iff.1 h
    rfl
  · cases h

end Connection

theorem Call.lookup?_place {k : Call} {c : Connection} {l : Lookup} (h : k.lookup? c = some l) :
    ∃ n, l.place = c.inNamespace n := by
  cases k with
  | select text values cached time =>
    change c.selectLookup? text values cached time = some l at h
    unfold Connection.selectLookup? at h
    split at h
    · cases h
    · cases h
    · exact ⟨c.namespaceName, Connection.lookup?_place h⟩
  | execute b e =>
    obtain ⟨content, -, h⟩ := Option.bind_eq_some_iff.1 h
    obtain ⟨f, -, h⟩ := Option.bind_eq_some_iff.1 h
    obtain ⟨d, entered, h⟩ := Option.bind_eq_some_iff.1 h
    have place : e.place b c = .ok d := by
      cases moved : e.place b c with
      | error err => simp [moved, Except.toOption] at entered
      | ok d' => simpa [moved, Except.toOption] using entered
    obtain ⟨n, rfl⟩ := Execution.place_eq place
    cases e with
    | get | first | aggregate => exact ⟨n, Connection.lookup?_place h⟩
    | _ => cases h
  | _ => cases h

namespace Stage

def lookup? (m : Stage) : Option Lookup :=
  match m.step with
  | .call k => k.lookup? m.before
  | _ => none

/-- The step has sent the query of its lookup and has had a reply with these rows. -/
structure Fetched (m : Stage) (l : Lookup) (r : Request) (rows : ResultSet) : Prop where
  lookup : m.lookup? = some l
  endpoint : l.place.queryEndpoint = .ok r.url
  query : r.query = some l.text
  sent : m.sent = [.request r]
  decoded : (m.before.session.send r).1.Decodes m.before.levels rows

structure Stores (m : Stage) (l : Lookup) (e : Stored ResultSet) : Prop where
  lookup : m.lookup? = some l
  stores : l.Stores m.after.session e

theorem lookup?_place {m : Stage} {l : Lookup} (h : m.lookup? = some l) :
    ∃ n, l.place = m.before.inNamespace n := by
  unfold lookup? at h
  split at h
  · exact Call.lookup?_place h
  · cases h

theorem Stores.fetched {m : Stage} {l : Lookup} {e : Stored ResultSet} (h : m.Stores l e) :
    ∃ r, m.Fetched l r e.value := by
  obtain ⟨n, place⟩ := lookup?_place h.lookup
  obtain ⟨r, planned, after, decodes⟩ := h.stores.decoded
  obtain ⟨url, endpoint, asked⟩ := Outcome.bind_eq_ok_iff.1 planned
  obtain rfl := Outcome.pure_eq_ok_iff.1 asked
  rw [place] at after decodes
  refine ⟨_, h.lookup, endpoint, rfl, ?_, decodes⟩
  rw [sent, after]
  exact List.drop_left

end Stage

def Event.lookup? : Event → Option Lookup
  | .step m => m.lookup?
  | .block .. => none

def lookups (h : List Event) : List Lookup := h.filterMap Event.lookup?

theorem Stage.mem_lookups {m : Stage} {l : Lookup} {h : List Event} (member : .step m ∈ h)
    (looked : m.lookup? = some l) : l ∈ lookups h :=
  List.mem_filterMap.2 ⟨.step m, member, looked⟩

namespace Step

variable {home : Option (Option String)} {c : Connection} {s : Step}

theorem entries_stage (home : Option (Option String)) {e : Stored ResultSet}
    (h : e ∈ (s.exchange.runOn c).2.cache.entries) :
    e ∈ c.cache.entries ∨ ∃ l, (s.stage home c).Stores l e := by
  cases s with
  | call k =>
    refine ((k.remembers c).entries e h).imp_right fun ⟨l, looked, stores⟩ => ?_
    exact ⟨l, looked, stores⟩
  | _ => exact .inl ((leads _ c).entries (by simp) e h)

theorem session_of_sent_eq_nil {k : Call} (h : ((call k).stage home c).sent = []) :
    (k.exchange.runOn c).2.session = c.session := by
  have sends := k.sends c
  change (k.exchange.runOn c).2.session.sent.drop c.session.sent.length = [] at h
  cases plan : k.request? c with
  | error e =>
    rw [plan] at sends
    exact sends.2
  | ok request =>
    rw [plan] at sends
    cases request with
    | none => exact sends.2
    | some r =>
      rw [sends.2] at h
      simp [Session.after] at h

theorem lookup_of_sent_eq_nil {k : Call} {answer : Answer} (busy : ¬k.IsIdle)
    (answered : ((call k).stage home c).result = .ok answer)
    (unsent : ((call k).stage home c).sent = []) : ∃ l, k.lookup? c = some l := by
  have same : (k.exchange.runOn c).2.session.sent = c.session.sent :=
    congrArg Session.sent (session_of_sent_eq_nil unsent)
  have one := (one_request k c).2.1 answer answered
  by_contra missing
  have unspared : ¬k.Spared c := by
    rintro (idle | ⟨l, looked, -⟩)
    · exact busy idle
    · exact missing ⟨l, looked⟩
  obtain ⟨r, sent⟩ := one.2 unspared
  simp [sent] at same

end Step

def Along (Q : List Event → Event → Prop) (earlier : List Event) : List Event → Prop
  | [] => True
  | e :: later => Q earlier e ∧ Along Q (earlier ++ [e]) later

theorem along_append {Q : List Event → Event → Prop} {earlier h h' : List Event} :
    Along Q earlier (h ++ h') ↔ Along Q earlier h ∧ Along Q (earlier ++ h) h' := by
  induction h generalizing earlier with
  | nil => simp [Along]
  | cons e h ih => simp [Along, ih, and_assoc]

theorem Along.at {Q : List Event → Event → Prop} {e : Event} {earlier later : List Event}
    (h : Along Q [] (earlier ++ e :: later)) : Q earlier e :=
  (along_append.1 h).2.1

/-- An answer without a request is what a call reads off an entry that an earlier step has
stored. -/
def Sourced (earlier : List Event) : Event → Prop
  | .block .. => True
  | .step m => ∀ k answer, m.step = .call k → ¬k.IsIdle → m.result = .ok answer → m.sent = [] →
    ∃ m' l l' e, .step m' ∈ earlier ∧ m.lookup? = some l ∧ m'.Stores l' e ∧ l.Serves e ∧
      k.reading e.value = .ok answer

/-- What a run has kept of the connection on which it has begun, and whence its entries are. -/
structure Kept (first : Connection) (h : List Event) (c : Connection) : Prop where
  config : c.config = first.config
  vendor : c.vendor = first.vendor
  settings : ∀ m, .step m ∈ h → m.before.config = first.config ∧ m.before.vendor = first.vendor
  entries : ∀ e ∈ c.cache.entries, ∃ m l, .step m ∈ h ∧ m.Stores l e
  stored : ∀ m, .step m ∈ h → ∀ e ∈ m.after.cache.entries,
    e ∈ m.before.cache.entries ∨ ∃ l, m.Stores l e
  sourced : Along Sourced [] h

namespace Kept

variable {first c : Connection} {h : List Event} {home : Option (Option String)}

theorem sourced_step (kept : Kept first h c) (s : Step) : Sourced h (.step (s.stage home c)) := by
  intro k answer called busy answered unsent
  obtain rfl : s = .call k := called
  obtain ⟨l, looked⟩ := Step.lookup_of_sent_eq_nil busy answered unsent
  obtain ⟨e, member, serves, read⟩ := (k.remembers c).serves l answer looked answered
    (Step.session_of_sent_eq_nil unsent)
  obtain ⟨m', l', before, stores⟩ := kept.entries e member
  exact ⟨m', l, l', e, before, looked, stores, serves, read⟩

theorem sourced_events (kept : Kept first h c) (s : Step) :
    Along Sourced [] (h ++ s.events home c) := by
  refine along_append.2 ⟨kept.sourced, kept.sourced_step s, ?_⟩
  cases (s.block? c).bind c.entered? <;> simp [Along, Sourced]

theorem step (kept : Kept first h c) (s : Step) :
    Kept first (h ++ s.events home c) (s.exchange.runOn c).2 := by
  have leads := s.leads c
  have here : .step (s.stage home c) ∈ h ++ s.events home c := by simp [Step.events]
  refine ⟨leads.config.trans kept.config, leads.vendor.trans kept.vendor, fun m member => ?_,
    fun e member => ?_, fun m member e => ?_, kept.sourced_events s⟩
  · rcases List.mem_append.1 member with earlier | now
    · exact kept.settings m earlier
    · obtain rfl := Step.step_mem_events now
      exact ⟨kept.config, kept.vendor⟩
  · rcases Step.entries_stage home member with old | ⟨l, stores⟩
    · obtain ⟨m, l, earlier, stores⟩ := kept.entries e old
      exact ⟨m, l, List.mem_append_left _ earlier, stores⟩
    · exact ⟨_, l, here, stores⟩
  · rcases List.mem_append.1 member with earlier | now
    · exact kept.stored m earlier e
    · obtain rfl := Step.step_mem_events now
      exact Step.entries_stage home

theorem invariant (first : Connection) : Program.Invariant fun h _ c => Kept first h c where
  step s kept := kept.step s
  enter entered kept := by
    obtain rfl := Connection.moved_eq (Connection.entered?_eq_some_iff.1 entered)
    exact { kept with }
  leave {h h' home home' c d} before inside := by
    refine ⟨inside.config, inside.vendor, fun m member => inside.settings m (by simpa using member),
      fun e member => ?_, fun m member => inside.stored m (by simpa using member),
      along_append.2 ⟨inside.sourced, trivial, trivial⟩⟩
    obtain ⟨m, l, earlier, stores⟩ := inside.entries e member
    exact ⟨m, l, List.mem_append_left _ earlier, stores⟩
  refused kept := { kept with }

end Kept

def keyTexts (h : List Event) : Set String :=
  {text | ∃ l ∈ lookups h, l.keyText = .ok text}

namespace Kept

theorem same_query {first c : Connection} {h : List Event} {m m' : Stage} {l l' : Lookup}
    {e : Stored ResultSet} (kept : Kept first h c)
    (apart : Set.InjOn Digest.sha256 (keyTexts h)) (member : .step m ∈ h)
    (member' : .step m' ∈ h) (looked : m.lookup? = some l) (stores : m'.Stores l' e)
    (serves : l.Serves e) :
    l.place.queryEndpoint = l'.place.queryEndpoint ∧ l.text = l'.text := by
  obtain ⟨key, keyed, named⟩ := serves.key
  obtain ⟨key', keyed', named'⟩ := stores.stores.key
  -- one entry has one key, so that the digests are equal, and with them the texts
  obtain rfl := Value.text.inj (named.symm.trans named')
  rw [Lookup.key_eq_map] at keyed keyed'
  obtain ⟨text, written, digest⟩ := Outcome.map_eq_ok_iff.1 keyed
  obtain ⟨text', written', digest'⟩ := Outcome.map_eq_ok_iff.1 keyed'
  have taken : text ∈ keyTexts h := ⟨l, Stage.mem_lookups member looked, written⟩
  have taken' : text' ∈ keyTexts h := ⟨l', Stage.mem_lookups member' stores.lookup, written'⟩
  obtain rfl := apart taken taken' (digest.trans digest'.symm)
  obtain ⟨n, place⟩ := Stage.lookup?_place looked
  obtain ⟨n', place'⟩ := Stage.lookup?_place stores.lookup
  obtain ⟨config, vendor⟩ := kept.settings m member
  obtain ⟨config', vendor'⟩ := kept.settings m' member'
  refine Lookup.keyText_inj written written' ?_ ?_
  · rw [place, place']
    exact config.trans config'.symm
  · rw [place, place']
    exact vendor.trans vendor'.symm

end Kept

/-- An answer without a request is that of an earlier one, for the same text at the same endpoint
and not too long ago; and only the rows of a request that has succeeded are ever kept. -/
theorem origin_of_answers (p : Program) (c : Connection) (empty : c.cache.entries = [])
    (apart : Set.InjOn Digest.sha256 (keyTexts (p.events none c))) :
    (∀ earlier m later, p.events none c = earlier ++ .step m :: later →
      ∀ k answer, m.step = .call k → ¬k.IsIdle → m.result = .ok answer → m.sent = [] →
        ∃ m' l l' r rows, .step m' ∈ earlier ∧ m.lookup? = some l ∧ m'.Fetched l' r rows ∧
          l.place.queryEndpoint = .ok r.url ∧ r.query = some l.text ∧
          k.reading rows = .ok answer ∧ Seconds.Fresh l'.time m'.before.now m.before.now) ∧
    (∀ m, .step m ∈ p.events none c → ∀ e ∈ m.after.cache.entries,
      e ∈ m.before.cache.entries ∨ ∃ l r, m.Fetched l r e.value) := by
  have start : Kept c [] c := ⟨rfl, rfl, by simp, by simp [empty], by simp, trivial⟩
  obtain ⟨-, kept⟩ := (Kept.invariant c).run p none start
  rw [List.nil_append] at kept
  refine ⟨fun earlier m later split k answer called busy answered unsent => ?_,
    fun m member e new => ?_⟩
  · have sourced : Along Sourced [] (earlier ++ .step m :: later) := split ▸ kept.sourced
    obtain ⟨m', l, l', e, before, looked, stores, serves, read⟩ :=
      sourced.at k answer called busy answered unsent
    obtain ⟨r, fetched⟩ := stores.fetched
    obtain ⟨endpoint, text⟩ := kept.same_query apart (m := m) (by simp [split])
      (by simp [split, before]) looked stores serves
    obtain ⟨n, place⟩ := Stage.lookup?_place looked
    obtain ⟨n', place'⟩ := Stage.lookup?_place stores.lookup
    have fresh := Seconds.fresh_of_ends stores.stores.ends serves.fresh
    rw [place, place'] at fresh
    exact ⟨m', l, l', r, e.value, before, looked, fetched, endpoint.trans fetched.endpoint,
      text ▸ fetched.query, read, fresh⟩
  · refine (kept.stored m member e new).imp_right fun ⟨l, stores⟩ => ?_
    obtain ⟨r, fetched⟩ := stores.fetched
    exact ⟨l, r, fetched⟩

def hollow : Connection :=
  .make ⟨"http://h/sparql", .null, "generic", .null, none, .none, [], 30, none⟩ .generic fun _ =>
    .answered 200 ("\x7b\"head\": \x7b\"vars\": [\"s\"]\x7d, " ++
      "\"results\": \x7b\"bindings\": []\x7d\x7d")

def question : Call := .select "SELECT *" .null true (.int 60)

def twice : Program :=
  .step (.call question) fun _ => .step (.advance (.whole 5)) fun _ => .step (.call question) .done

def repeated (c : Connection) : Stage :=
  let first := (Step.call question).stage none c
  let pause := (Step.advance (.whole 5)).stage none first.after
  (Step.call question).stage none pause.after

theorem events_twice (c : Connection) :
    ∃ earlier, twice.events none c = earlier ++ [.step (repeated c)] :=
  ⟨[_, _], rfl⟩

theorem step_repeated (c : Connection) : (repeated c).step = .call question := rfl

theorem origin_of_answers_twice : hollow.cache.entries = [] ∧
    Set.InjOn Digest.sha256 (keyTexts (twice.events none hollow)) ∧
    ∃ earlier answer m l r rows, twice.events none hollow = earlier ++ [.step (repeated hollow)] ∧
      (repeated hollow).result = .ok answer ∧ (repeated hollow).sent = [] ∧
      .step m ∈ earlier ∧ m.Fetched l r rows ∧ question.reading rows = .ok answer := by
  have texts : ∀ l ∈ lookups (twice.events none hollow), l.keyText.toOption =
      some "[\"generic|http://h/sparql|\",\"SELECT *\",[]]" := by
    decide +kernel
  have apart : Set.InjOn Digest.sha256 (keyTexts (twice.events none hollow)) := by
    rintro text ⟨l, member, written⟩ text' ⟨l', member', written'⟩ -
    have same := (texts l member).trans (texts l' member').symm
    rw [written, written'] at same
    exact Option.some.inj same
  have served : (repeated hollow).sent.length = 0 ∧ (repeated hollow).result.toOption.isSome := by
    decide +kernel
  have ended {x : Outcome Answer} (h : x.toOption.isSome) : ∃ answer, x = .ok answer := by
    cases x with
    | error e => cases h
    | ok answer => exact ⟨answer, rfl⟩
  obtain ⟨answer, answered⟩ := ended served.2
  have unsent : (repeated hollow).sent = [] := List.length_eq_zero_iff.1 served.1
  obtain ⟨earlier, split⟩ := events_twice hollow
  obtain ⟨m, l, l', r, rows, before, -, fetched, -, -, read, -⟩ :=
    (origin_of_answers twice hollow rfl apart).1 _ _ [] split question answer
      (step_repeated hollow) id answered unsent
  exact ⟨rfl, apart, earlier, answer, m, l', r, rows, split, answered, unsent, before, fetched,
    read⟩

end SparqlClient
