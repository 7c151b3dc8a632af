import SparqlClient.Proofs.Connection.Calls

/-! Remembered results, call by call. A call that remembers its rows either serves an entry that
is at hand and has not expired, or leaves the one entry that it has decoded from the reply to its
request; and no other call touches the entries. -/

namespace SparqlClient

namespace Seconds

/-- What is stored at a time for a time stays until then; without a limit it has no end. -/
def Ends (stored : Seconds) (time : Value) (expires : Option Seconds) : Prop :=
  ∃ limit, limit? time = .ok limit ∧ match limit with
    | none => expires = none
    | some t => ∃ u, stored.add t = .ok u ∧ expires = some u

end Seconds

namespace Cache

variable {α : Type} {c k : Cache α} {now : Seconds} {key : String}

theorem get_eq_ok {found : Option α} (h : c.get now (.text key) = .ok (found, k)) :
    (∀ e ∈ k.entries, e ∈ c.entries) ∧ ∀ v, found = some v →
      ∃ e ∈ c.entries, e.key = .text key ∧ e.value = v ∧ Stored.isExpired now e = .ok false := by
  obtain ⟨key', checked, h⟩ := Outcome.bind_eq_ok_iff.1 h
  obtain rfl : Value.text key = key' := Except.ok.inj checked
  cases looked : c.find? (.text key) with
  | none =>
    rw [looked] at h
    cases h
    exact ⟨fun e he => he, by simp⟩
  | some e =>
    rw [looked] at h
    obtain ⟨expired, checked, h⟩ := Outcome.bind_eq_ok_iff.1 h
    cases expired with
    | true =>
      cases h
      exact ⟨fun e he => List.mem_of_mem_filter he, by simp⟩
    | false =>
      cases h
      have same : e.key.sameKey (.text key) := by simpa using List.find?_some looked
      refine ⟨fun e he => he, fun v hv => ⟨e, List.mem_of_find?_eq_some looked, ?_⟩⟩
      exact ⟨Value.sameKey_text_iff.1 same, Option.some.inj hv, checked⟩

theorem set_eq_ok {value : α} {time : Value} (h : c.set now (.text key) value time = .ok k) :
    ∀ e ∈ k.entries, e ∈ c.entries ∨
      e.key = .text key ∧ e.value = value ∧ now.Ends time e.expires := by
  obtain ⟨limit, limited, h⟩ := Outcome.bind_eq_ok_iff.1 h
  have stored (expires : Option Seconds) (h : c.put ⟨.text key, expires, value⟩ = k) :
      ∀ e ∈ k.entries, e ∈ c.entries ∨ e = ⟨.text key, expires, value⟩ := by
    intro e he
    rw [← h] at he
    have kept := List.mem_of_mem_drop he
    simp only [List.mem_append, List.mem_singleton] at kept
    exact kept.imp_left fun old => List.mem_of_mem_filter old
  cases limit with
  | none =>
    intro e he
    rcases stored none (Except.ok.inj h) e he with old | rfl
    · exact .inl old
    · exact .inr ⟨rfl, rfl, none, limited, rfl⟩
  | some t =>
    intro e he
    obtain ⟨expires, summed, h⟩ := Outcome.bind_eq_ok_iff.1 h
    obtain ⟨u, added, rfl⟩ := Outcome.map_eq_ok_iff.1 summed
    rcases stored (some u) (Except.ok.inj h) e he with old | rfl
    · exact .inl old
    · exact .inr ⟨rfl, rfl, some t, limited, u, added, rfl⟩

end Cache

namespace Reply

/-- A reply with the rows of a query. -/
def Decodes (reply : Reply) (levels : ℕ) (rows : ResultSet) : Prop :=
  ∃ status body v, reply = .answered status body ∧ Vendor.isSuccess status ∧
    Json.read levels body = .ok v ∧ ResultSet.ofAnswer v = .ok rows

end Reply

theorem Session.send_ne (s : Session) (r : Request) : (s.send r).2 ≠ s := by
  intro same
  have sent := congrArg (fun s : Session => s.sent.length) same
  simp at sent

namespace Exchange

variable {α β : Type} {c d : Connection} {m : Exchange α} {f : α → Exchange β}

/-! A query that succeeds has had a reply that says so. -/

theorem request_ok {r : Request} {body : String} (h : (request r).runOn c = (.ok body, d)) :
    ∃ status, Vendor.isSuccess status ∧ (c.session.send r).1 = .answered status body := by
  obtain ⟨⟨status, text⟩, e, ran, h⟩ := runOn_bind_ok h
  obtain ⟨events, exchanged⟩ := runOn_exchange (c := c) "sparql" r fun _ _ => []
  rw [exchanged] at ran
  cases reply : (c.session.send r).1 with
  | failed cause message =>
    rw [reply] at ran
    cases ran
  | answered status' text' =>
    rw [reply] at ran
    cases ran
    simp only at h
    split at h
    · rename_i success
      cases h
      exact ⟨status, success, rfl⟩
    · obtain ⟨_, _, -, h⟩ := runOn_bind_ok h
      cases h

theorem query_ok {text accept body : String} (h : (query text accept).runOn c = (.ok body, d)) :
    ∃ r status, c.queryRequest text accept = .ok r ∧ Vendor.isSuccess status ∧
      (c.session.send r).1 = .answered status body := by
  obtain ⟨url, e, asked, h⟩ := runOn_bind_ok h
  rw [runOn_ask] at asked
  obtain ⟨known, rfl⟩ := Prod.mk.inj asked
  obtain ⟨c', e, got, h⟩ := runOn_bind_ok h
  cases got
  obtain ⟨status, success, answered⟩ := request_ok h
  exact ⟨_, status, by rw [Connection.queryRequest, known]; rfl, success, answered⟩

theorem query_of_success {text accept body : String} {r : Request} {status : ℤ}
    (planned : c.queryRequest text accept = .ok r) (success : Vendor.isSuccess status)
    (reply : (c.session.send r).1 = .answered status body) :
    ((query text accept).runOn c).1 = .ok body := by
  obtain ⟨url, known, asked⟩ := Outcome.bind_eq_ok_iff.1 planned
  obtain rfl := Outcome.pure_eq_ok_iff.1 asked
  obtain ⟨events, ran⟩ := runOn_exchange (c := c) "sparql"
    (.ask url (.float c.config.timeout) text accept) fun _ _ => []
  unfold query request
  rw [runOn_bind, runOn_ask, known]
  simp only
  rw [runOn_bind, runOn_get]
  simp only
  rw [runOn_bind, ran, reply]
  simp only [success, if_true]
  rfl

theorem answer_ok {text : String} {v : Value} (h : (answer text).runOn c = (.ok v, d)) :
    ∃ r status body, c.queryRequest text Connection.answerType = .ok r ∧
      Vendor.isSuccess status ∧ (c.session.send r).1 = .answered status body ∧
      Json.read c.levels body = .ok v := by
  obtain ⟨body, e, queried, read⟩ := runOn_bind_ok h
  obtain ⟨r, status, planned, success, reply⟩ := query_ok queried
  have steady := (query_performs (c := c) text "application/sparql-results+json").steady
  rw [queried] at steady
  rw [runOn_bind, runOn_get] at read
  simp only at read
  split at read
  · rename_i v' parsed
    cases read
    rw [steady.levels] at parsed
    exact ⟨r, status, body, planned, success, reply, parsed⟩
  · cases read
  · obtain ⟨_, _, -, read⟩ := runOn_bind_ok read
    obtain ⟨_, _, -, read⟩ := runOn_bind_ok read
    cases read

theorem fetch_ok {text : String} {rows : ResultSet}
    (h : (fetch text).runOn c = (.ok rows, d)) :
    ∃ r, c.queryRequest text Connection.answerType = .ok r ∧ (c.session.send r).1.Decodes c.levels rows := by
  obtain ⟨v, e, answered, h⟩ := runOn_bind_ok h
  rw [runOn_lift] at h
  obtain ⟨decoded, -⟩ := Prod.mk.inj h
  obtain ⟨r, status, body, planned, success, reply, parsed⟩ := answer_ok answered
  exact ⟨r, planned, status, body, v, reply, success, parsed, decoded⟩

/-! Nothing but remembering touches the entries. -/

def KeepsCache (m : Exchange α) : Prop := ∀ c, (m.runOn c).2.cache = c.cache

theorem KeepsCache.bind (hm : KeepsCache m) (hf : ∀ a, KeepsCache (f a)) :
    KeepsCache (m >>= f) := by
  intro c
  rw [runOn_bind]
  have first := hm c
  cases ran : m.runOn c with
  | mk r e =>
    rw [ran] at first
    cases r with
    | error err => exact first
    | ok a => exact (hf a e).trans first

theorem keepsCache_pure (a : α) : KeepsCache (pure a) := fun _ => rfl

theorem keepsCache_throw (e : Error) : KeepsCache (throw e : Exchange α) := fun _ => rfl

theorem keepsCache_get : KeepsCache get := fun _ => rfl

theorem keepsCache_lift (x : Outcome α) : KeepsCache (liftM x) := fun c => by rw [runOn_lift]

theorem keepsCache_ask (g : Connection → Outcome α) : KeepsCache (ask g) :=
  fun c => by rw [runOn_ask]

theorem keepsCache_record (level : Log.Level) (event : String) (fields : Entries) :
    KeepsCache (record level event fields) := by
  intro c
  obtain ⟨e, ran⟩ := runOn_record (c := c) level event fields
  rw [ran]

theorem keepsCache_exchange (name : String) (r : Request)
    (extra : Connection → String → Entries) : KeepsCache (exchange name r extra) := by
  intro c
  obtain ⟨events, ran⟩ := runOn_exchange (c := c) name r extra
  rw [ran]

theorem keepsCache_request (r : Request) : KeepsCache (request r) := by
  refine (keepsCache_exchange _ r _).bind fun (status, body) => ?_
  simp only
  split
  · exact keepsCache_pure _
  · exact keepsCache_get.bind fun _ => keepsCache_throw _

theorem keepsCache_query (text accept : String) : KeepsCache (query text accept) :=
  (keepsCache_ask _).bind fun _ => keepsCache_get.bind fun _ => keepsCache_request _

theorem keepsCache_answer (text : String) : KeepsCache (answer text) := by
  refine (keepsCache_query text _).bind fun body => keepsCache_get.bind fun _ => ?_
  split
  · exact keepsCache_pure _
  · exact keepsCache_throw _
  · exact (keepsCache_ask _).bind fun _ => keepsCache_get.bind fun _ => keepsCache_throw _

theorem keepsCache_fetch (text : String) : KeepsCache (fetch text) :=
  (keepsCache_answer text).bind fun _ => keepsCache_lift _

theorem keepsCache_test (text : String) (values : Value) : KeepsCache (test text values) :=
  (keepsCache_ask _).bind fun _ => (keepsCache_answer _).bind fun _ => keepsCache_lift _

theorem keepsCache_construct (text : String) (values : Value) :
    KeepsCache (construct text values) :=
  (keepsCache_ask _).bind fun _ => keepsCache_query _ _

theorem keepsCache_update (text : String) (values : Value) : KeepsCache (update text values) :=
  (keepsCache_ask _).bind fun _ => (keepsCache_ask _).bind fun _ => keepsCache_get.bind fun _ =>
    (keepsCache_request _).bind fun _ => keepsCache_pure _

theorem keepsCache_graphRequest (method : String) (graph : Value) (data : Option Upload) :
    KeepsCache (graphRequest method graph data) := by
  refine (keepsCache_ask _).bind fun url => keepsCache_get.bind fun c => ?_
  rcases data with _ | u
  on_goal 2 => refine (keepsCache_ask _).bind fun text => ?_
  all_goals
    simp only [pure_bind]
    refine (keepsCache_exchange _ _ _).bind fun (status, body) => (keepsCache_lift _).bind fun _ => ?_
    split
    · exact keepsCache_pure _
    · exact keepsCache_throw _

theorem keepsCache_administer (name : Value) (task : Admin.Task) :
    KeepsCache (administer name task) := by
  have session (s : Session) :
      KeepsCache (modify ({ · with session := s }) : Exchange PUnit) := fun _ => rfl
  exact (keepsCache_lift _).bind fun _ => (keepsCache_ask _).bind fun _ =>
    keepsCache_get.bind fun _ => (session _).bind fun _ => keepsCache_lift _

theorem keepsCache_recordTask (event : String) (name : Value) (result : String) (done : Bool) :
    KeepsCache (recordTask event name result done) :=
  keepsCache_get.bind fun _ => keepsCache_record _ _ _

end Exchange

namespace Execution

def reading : Execution → ResultSet → Outcome Answer
  | .first, rows => .ok ((rows.first.map Answer.row).getD (.value .null))
  | .aggregate function _ _, rows => (aggregateValue function rows).map .value
  | _, rows => .ok (.results rows)

end Execution

namespace Call

def reading : Call → ResultSet → Outcome Answer
  | .execute _ e, rows => e.reading rows
  | _, rows => .ok (.results rows)

end Call

namespace Lookup

structure Stores (l : Lookup) (after : Session) (e : Stored ResultSet) : Prop where
  key : ∃ key, l.key = .ok key ∧ e.key = .text key
  decoded : ∃ r, l.place.queryRequest l.text Connection.answerType = .ok r ∧
    after = (l.place.session.send r).2 ∧ (l.place.session.send r).1.Decodes l.place.levels e.value
  ends : l.place.now.Ends l.time e.expires

structure Serves (l : Lookup) (e : Stored ResultSet) : Prop where
  key : ∃ key, l.key = .ok key ∧ e.key = .text key
  fresh : Cache.Stored.isExpired l.place.now e = .ok false

end Lookup

namespace Exchange

variable {α β : Type} {c : Connection} {m : Exchange α} {f : α → Exchange β}

/-- New entries are those of the lookup; without a request it is answered by one that was there. -/
structure Remembers (look : Option Lookup) (reading : ResultSet → Outcome α) (m : Exchange α)
    (c : Connection) : Prop where
  entries : ∀ e ∈ (m.runOn c).2.cache.entries, e ∈ c.cache.entries ∨
    ∃ l, look = some l ∧ l.Stores (m.runOn c).2.session e
  serves : ∀ l a, look = some l → (m.runOn c).1 = .ok a → (m.runOn c).2.session = c.session →
    ∃ e ∈ c.cache.entries, l.Serves e ∧ reading e.value = .ok a

theorem Remembers.of_runOn {look : Option Lookup} {reading : ResultSet → Outcome α}
    {x : Outcome α} {d : Connection} (ran : m.runOn c = (x, d))
    (entries : ∀ e ∈ d.cache.entries, e ∈ c.cache.entries ∨
      ∃ l, look = some l ∧ l.Stores d.session e)
    (serves : ∀ l a, look = some l → x = .ok a → d.session = c.session →
      ∃ e ∈ c.cache.entries, l.Serves e ∧ reading e.value = .ok a) :
    Remembers look reading m c :=
  ⟨by rw [ran]; exact entries, by rw [ran]; exact serves⟩

theorem KeepsCache.remembers {reading : ResultSet → Outcome α} (h : KeepsCache m) :
    Remembers none reading m c where
  entries _ he := .inl (h c ▸ he)
  serves l a looked := by cases looked

theorem Remembers.bind {look : Option Lookup} {reading : ResultSet → Outcome α}
    {g : α → Outcome β} (hm : Remembers look reading m c)
    (hf : ∀ a d, ∃ events, (f a).runOn d = (g a, { d with events := events })) :
    Remembers look (fun rows => reading rows >>= g) (m >>= f) c := by
  have ran : ∃ events, (m >>= f).runOn c =
      ((m.runOn c).1 >>= g, { (m.runOn c).2 with events := events }) := by
    rw [runOn_bind]
    cases m.runOn c with
    | mk r d =>
      cases r with
      | error err => exact ⟨d.events, rfl⟩
      | ok a => exact hf a d
  obtain ⟨events, ran⟩ := ran
  refine .of_runOn ran hm.entries fun l b looked ended same => ?_
  obtain ⟨a, first, rest⟩ := Outcome.bind_eq_ok_iff.1 ended
  obtain ⟨e, member, serves, read⟩ := hm.serves l a looked first same
  exact ⟨e, member, serves, by rw [read]; exact rest⟩

theorem Remembers.after {look : Option Lookup} {reading : ResultSet → Outcome β} {x : Outcome α}
    (ran : m.runOn c = (x, c)) (h : ∀ a, x = .ok a → Remembers look reading (f a) c) :
    Remembers look reading (m >>= f) c := by
  have whole := runOn_bind (c := c) m f
  rw [ran] at whole
  cases x with
  | error err => exact .of_runOn whole (fun e he => .inl he) (by simp)
  | ok a => exact .of_runOn whole (h a rfl).entries (h a rfl).serves

theorem runOn_fetch_ok (l : Lookup) (k : Cache ResultSet) {rows : ResultSet} {d : Connection}
    (ran : (fetch l.text).runOn { l.place with cache := k } = (.ok rows, d)) :
    d.cache = k ∧ d.now = l.place.now ∧
      ∃ r, l.place.queryRequest l.text Connection.answerType = .ok r ∧
        d.session = (l.place.session.send r).2 ∧ (l.place.session.send r).1.Decodes l.place.levels rows := by
  obtain ⟨r, planned, decodes⟩ := fetch_ok ran
  have kept := keepsCache_fetch l.text { l.place with cache := k }
  obtain ⟨steady, sends⟩ := fetch_performs (c := { l.place with cache := k }) l.text
  rw [planned] at sends
  have session := sends.2
  rw [ran] at kept steady session
  exact ⟨kept, steady.now, r, planned, session, decodes⟩

def keep (key : String) (time : Value) (rows : ResultSet) : Exchange (ResultSet × Bool) := do
  let cache ← ask fun c => c.cache.set c.now (.text key) rows time
  modify ({ · with cache := cache })
  return (rows, false)

theorem runOn_keep (key : String) (time : Value) (rows : ResultSet) :
    (keep key time rows).runOn c = match c.cache.set c.now (.text key) rows time with
      | .error e => (.error e, c)
      | .ok k => (.ok (rows, false), { c with cache := k }) := by
  rw [keep, runOn_bind, runOn_ask]
  cases c.cache.set c.now (.text key) rows time <;> rfl

theorem remembered_remembers {l : Lookup} {key : String} (keyed : l.key = .ok key) :
    Remembers (some l) (fun rows => .ok (rows, true)) (remembered key l.time (fetch l.text))
      l.place := by
  refine .after (runOn_ask _) fun (hit, k) found => ?_
  obtain ⟨kept, served⟩ := Cache.get_eq_ok found
  cases hit with
  | some rows =>
    refine ⟨fun e he => .inl (kept e he), ?_⟩
    rintro l' a ⟨⟩ ended -
    obtain ⟨e, member, same, value, fresh⟩ := served rows rfl
    exact ⟨e, member, ⟨⟨key, keyed, same⟩, fresh⟩, value ▸ ended⟩
  | none =>
    -- fetching may fail and so may keeping; either way the entries are old ones
    have rest := runOn_bind (c := { l.place with cache := k }) (fetch l.text) (keep key l.time)
    have untouched : ((fetch l.text).runOn { l.place with cache := k }).2.cache = k :=
      keepsCache_fetch l.text { l.place with cache := k }
    cases ran : (fetch l.text).runOn { l.place with cache := k } with
    | mk r d =>
      rw [ran] at rest untouched
      have old (e) (he : e ∈ d.cache.entries) : e ∈ l.place.cache.entries :=
        kept e (untouched ▸ he)
      cases r with
      | error err => exact .of_runOn rest (fun e he => .inl (old e he)) (by simp)
      | ok rows =>
        obtain ⟨-, now, r, planned, session, decodes⟩ := runOn_fetch_ok l k ran
        have whole := rest.trans (runOn_keep key l.time rows)
        cases set : d.cache.set d.now (.text key) rows l.time with
        | error err =>
          rw [set] at whole
          exact .of_runOn whole (fun e he => .inl (old e he)) (by simp)
        | ok k' =>
          rw [set] at whole
          refine .of_runOn whole (fun e he => ?_) fun _ _ _ _ unsent => ?_
          · rcases Cache.set_eq_ok set e he with before | ⟨named, value, ends⟩
            · exact .inl (old e before)
            · rw [now] at ends
              rw [← value] at decodes
              exact .inr ⟨l, rfl, ⟨key, keyed, named⟩, ⟨r, planned, session, decodes⟩, ends⟩
          · exact absurd (session.symm.trans unsent) (Session.send_ne _ _)

theorem results_remembers (text : String) (values : Value) (cached : Bool) (time : Value) :
    Remembers (c.lookup? text values cached time) .ok (results text values cached time) c := by
  refine .after (runOn_ask _) fun bound prepared => ?_
  cases cached with
  | false => exact (keepsCache_fetch bound).remembers
  | true =>
    have looked : c.lookup? text values true time = some ⟨c, bound, time⟩ := by
      have known : c.prepared text values = .ok bound := prepared
      rw [Connection.lookup?, known]
      rfl
    rw [looked]
    refine .after (runOn_ask _) fun key keyed => ?_
    refine (remembered_remembers (l := ⟨c, bound, time⟩) keyed).bind (g := fun p => .ok p.1)
      fun p d => ?_
    obtain ⟨rows, hit⟩ := p
    cases hit with
    | false => exact ⟨d.events, rfl⟩
    | true =>
      obtain ⟨e, recorded⟩ := runOn_record (c := d) .debug "cache.hit"
        [(.text "vendor", .text d.vendor.name), (.text "key", .text (Text.first 16 key))]
      refine ⟨d.events ++ [e], ?_⟩
      simp only [if_true]
      rw [runOn_bind, runOn_get]
      simp only
      rw [runOn_bind, recorded]
      rfl

theorem withQuery_remembers (b : Builder) (e : Execution) (f : Fragment) (size : Nat) :
    Remembers (e.rowsOf? b f c) e.reading (withQuery b e f size) c := by
  have rows : Remembers (c.lookup? f.text (.list f.bindings) b.remembered b.timeToLive) .ok
      (ofFragment b f) c := results_remembers _ _ _ _
  cases e with
  | get columns => exact rows.bind fun _ d => ⟨d.events, rfl⟩
  | first => exact rows.bind fun _ d => ⟨d.events, rfl⟩
  | aggregate function column separator =>
    refine rows.bind (g := (Execution.aggregate function column separator).reading)
      fun r d => ⟨d.events, ?_⟩
    rw [runOn_bind, runOn_lift, Execution.reading]
    cases Execution.aggregateValue function r <;> rfl
  | «exists» => exact ((keepsCache_test _ _).bind fun _ => keepsCache_pure _).remembers
  | construct | describe =>
    exact ((keepsCache_construct _ _).bind fun _ => keepsCache_pure _).remembers
  | delete | insertBatch | deleteBatch =>
    exact ((keepsCache_update _ _).bind fun _ => keepsCache_pure _).remembers
  | cacheKey => exact ((keepsCache_ask _).bind fun _ => keepsCache_pure _).remembers

theorem execute_remembers (b : Builder) (e : Execution) :
    Remembers (e.lookup? b c) e.reading (execute b e) c := by
  have ran := runOn_execute (c := c) b e
  unfold Execution.lookup?
  cases said : e.written b c with
  | error err =>
    rw [said] at ran
    exact .of_runOn ran (fun e he => .inl he) (by simp)
  | ok content =>
    rw [said] at ran
    cases content with
    | none => exact .of_runOn ran (fun e he => .inl he) (by simp [Except.toOption])
    | some f =>
      have body (d : Connection) := withQuery_performs (c := d) b e f e.size
      have rows (d : Connection) := withQuery_remembers (c := d) b e f e.size
      obtain ⟨err, n, closed, run⟩ | ⟨d, entered, run⟩ :=
        runOn_placed (c := c) b e (body c).steady
      · exact .of_runOn (ran.trans run) (fun e he => .inl he) (by simp)
      · obtain ⟨n, rfl⟩ := Execution.place_eq entered
        rw [entered]
        exact .of_runOn (ran.trans run) (rows (c.inNamespace n)).entries
          (rows (c.inNamespace n)).serves

end Exchange

namespace Call

open Exchange

/-- The one way in which entries come to a connection, and the one in which they are used. -/
theorem remembers (k : Call) (c : Connection) :
    Remembers (k.lookup? c) k.reading k.exchange c := by
  have rows (text : String) (values : Value) (cached : Bool) (time : Value) :
      Remembers (c.selectLookup? text values cached time) (fun rows => .ok (.results rows))
        (Exchange.select text values cached time) c := by
    have plain := (results_remembers (c := c) text values cached time).bind
      (f := fun r => pure (.results r)) (g := fun r => .ok (Answer.results r))
      fun _ d => ⟨d.events, rfl⟩
    unfold Exchange.select Connection.selectLookup?
    cases statementKind text with
    | ask => exact ((keepsCache_test _ _).bind fun _ => keepsCache_pure _).remembers
    | update => exact ((keepsCache_update _ _).bind fun _ => keepsCache_pure _).remembers
    | _ => exact plain
  cases k with
  | select text values cached time => exact rows text values cached time
  | ask => exact ((keepsCache_test _ _).bind fun _ => keepsCache_pure _).remembers
  | construct => exact ((keepsCache_construct _ _).bind fun _ => keepsCache_pure _).remembers
  | update => exact ((keepsCache_update _ _).bind fun _ => keepsCache_pure _).remembers
  | run text values =>
    have uncached : c.selectLookup? text values false .null = none := by
      unfold Connection.selectLookup? Connection.lookup?
      split <;> rfl
    have plain := rows text values false .null
    rw [uncached] at plain
    change Remembers none _ (Exchange.run text values) c
    unfold Exchange.run
    cases statementKind text with
    | construct | describe =>
      exact ((keepsCache_construct _ _).bind fun _ => keepsCache_pure _).remembers
    | _ => exact plain
  | insertGraph | replaceGraph | deleteGraph =>
    exact ((keepsCache_graphRequest _ _ _).bind fun _ => keepsCache_pure _).remembers
  | createNamespace | deleteNamespace =>
    exact (((keepsCache_administer _ _).bind fun _ => (keepsCache_recordTask _ _ _ _).bind fun _ =>
      keepsCache_pure _).bind fun _ => keepsCache_pure _).remembers
  | namespaceExists => exact ((keepsCache_administer _ _).bind fun _ => keepsCache_pure _).remembers
  | execute b e => exact execute_remembers b e

end Call

end SparqlClient
