import SparqlClient.Proofs.Cache.Entries

/-! The life of a cache as a history of operations while the clock moves on. Main statement: what a
cache holds, gives and pushes out follows from the operations so far. -/

namespace SparqlClient.Cache

variable {α : Type}

structure World where
  now : Seconds
  made : ℕ

/-- A value in the making: what comes of it, and what the clock shows then. -/
structure Producer (α : Type) where
  outcome : Outcome α
  ends : Seconds → Seconds

def Producer.make (p : Producer α) (w : World) : Outcome α × World :=
  (p.outcome, ⟨p.ends w.now, w.made + 1⟩)

structure State (α : Type) where
  cache : Cache α
  world : World

inductive Operation (α : Type)
  | get (key : String)
  | set (key : String) (value : α) (time : Value)
  | remember (key : String) (time : Value) (producer : Producer α)
  | invalidate (key : Option String)
  | advance (now : Seconds)

inductive Answer (α : Type)
  | done
  | found (value : Option α)
  | remembered (value : α) (hit : Bool)

structure Stage (α : Type) where
  before : State α
  operation : Operation α
  answer : Outcome (Answer α)
  after : State α

namespace State

def look (s : State α) (key : String) : Outcome (Option α) :=
  (s.cache.get s.world.now (.text key)).map Prod.fst

def has (s : State α) (key : String) : Bool := s.cache.entries.any (·.key.sameKey (.text key))

def attempt (s : State α) : Outcome (Answer α × Cache α) → Outcome (Answer α) × State α
  | .error e => (.error e, s)
  | .ok (answer, c) => (.ok answer, { s with cache := c })

def perform (counts : α → Bool) (s : State α) : Operation α → Outcome (Answer α) × State α
  | .get key => s.attempt <|
    (s.cache.get s.world.now (.text key)).map fun (value, c) => (.found value, c)
  | .set key value time => s.attempt <|
    (s.cache.set s.world.now (.text key) value time).map fun c => (.done, c)
  | .remember key time p =>
    let (r, c, w) := s.cache.rememberWith (·.now) counts (.text key) time p.make s.world
    (r.map fun (value, hit) => .remembered value hit, ⟨c, w⟩)
  | .invalidate key => s.attempt <|
    (s.cache.invalidate (Value.ofText? key)).map fun c => (.done, c)
  | .advance now => (.ok .done, { s with world := { s.world with now } })

def stage (counts : α → Bool) (s : State α) (operation : Operation α) : Stage α :=
  ⟨s, operation, (s.perform counts operation).1, (s.perform counts operation).2⟩

end State

namespace Stage

def setting? (m : Stage α) : Option (String × α × Value) :=
  match m.operation, m.answer with
  | .set key value time, .ok _ => some (key, value, time)
  | .remember key time _, .ok (.remembered value false) => some (key, value, time)
  | _, _ => none

/-- The entry that is set. Its time starts when the value is there. -/
def stored? (m : Stage α) : Option (Entry α) :=
  m.setting?.bind fun (key, value, time) =>
    (m.after.world.now.ending time).toOption.map fun expires => ⟨key, expires, value⟩

def sets (m : Stage α) (key : String) : Bool := m.stored?.any (·.key == key)

def invalidates (m : Stage α) (key : String) : Bool :=
  match m.operation with
  | .invalidate k => k.all (key == ·)
  | _ => false

def reads (m : Stage α) (key : String) : Bool :=
  match m.operation with
  | .get k => key == k
  | .remember k .. => key == k
  | _ => false

def evicts (m : Stage α) (key : String) : Bool :=
  m.stored?.any (·.key != key) && m.before.has key && !m.after.has key

/-- An entry goes when its key is set, invalidated or evicted, or is read after its time. -/
def drops (m : Stage α) (e : Entry α) : Bool :=
  m.sets e.key || m.invalidates e.key || m.evicts e.key ||
    m.reads e.key && e.isPast m.before.world.now

end Stage

/-- The entries that have been set and have not gone since, in the order in which they were set. -/
def kept : List (Stage α) → List (Entry α)
  | [] => []
  | m :: later => m.stored?.toList.filter (fun e => !later.any (·.drops e)) ++ kept later

theorem kept_concat (h : List (Stage α)) (m : Stage α) :
    kept (h ++ [m]) = (kept h).filter (!m.drops ·) ++ m.stored?.toList := by
  induction h with
  | nil => simp [kept]
  | cons first later ih =>
    rw [List.cons_append, kept, ih, kept, List.filter_append, List.filter_filter,
      List.append_assoc]
    simp [Bool.and_comm]

theorem mem_kept {h : List (Stage α)} {e : Entry α} :
    e ∈ kept h ↔ ∃ earlier m later, h = earlier ++ m :: later ∧ m.stored? = some e ∧
      ∀ x ∈ later, x.drops e = false := by
  induction h with
  | nil => simp [kept]
  | cons first rest ih =>
    rw [kept, List.mem_append, List.mem_filter, ih]
    constructor
    · rintro (⟨stored, after⟩ | ⟨earlier, m, later, rfl, stored, after⟩)
      · exact ⟨[], first, rest, rfl, by simpa using stored, by simpa using after⟩
      · exact ⟨first :: earlier, m, later, rfl, stored, after⟩
    · rintro ⟨_ | ⟨_, earlier⟩, m, later, split, stored, after⟩
      · obtain ⟨rfl, rfl⟩ := List.cons.inj split
        exact .inl ⟨by simpa using stored, by simpa using after⟩
      · obtain ⟨rfl, rfl⟩ := List.cons.inj split
        exact .inr ⟨earlier, m, later, rfl, stored, after⟩

/-- The clock does not go back, and every value that is set or made counts. -/
def Operation.IsSound (counts : α → Bool) (now : Seconds) : Operation α → Prop
  | .set _ value _ => counts value
  | .remember _ _ p => now.Reaches (p.ends now) ∧ ∀ value, p.outcome = .ok value → counts value
  | .advance later => now.Reaches later
  | _ => True

inductive Run (counts : α → Bool) (start : State α) : List (Stage α) → State α → Prop
  | start : Run counts start [] start
  | step {h : List (Stage α)} {s : State α} {o : Operation α}
      (before : Run counts start h s) (sound : o.IsSound counts s.world.now) :
      Run counts start (h ++ [s.stage counts o]) (s.stage counts o).after

structure State.Holds (counts : α → Bool) (n : ℕ) (l : List (Entry α)) (s : State α) : Prop where
  cache : s.cache = holding n l
  orderly : IsOrderly l
  size : l.length ≤ n
  counted : ∀ e ∈ l, counts e.value
  reading : s.world.now.IsReading

variable {counts : α → Bool} {n : ℕ} {l : List (Entry α)} {s : State α} {e : Entry α}

namespace State

variable {key : String}

theorem perform_get (holds : s.Holds counts n l) :
    s.perform counts (.get key) =
      (.ok (.found ((atHand? s.world.now key l).map (·.value))),
        { s with cache := holding n (swept s.world.now key l) }) := by
  rw [perform, holds.cache, get_holding holds.orderly holds.reading]
  rfl

theorem perform_set (room : 0 < n) (holds : s.Holds counts n l) (key : String) (value : α)
    (time : Value) : s.perform counts (.set key value time) =
      s.attempt ((s.world.now.ending time).map fun expires =>
        (.done, holding n (placed n ⟨key, expires, value⟩ l))) := by
  rw [perform, holds.cache, set_holding room]
  cases s.world.now.ending time <;> rfl

theorem perform_invalidate (holds : s.Holds counts n l) (key : Option String) :
    s.perform counts (.invalidate key) =
      (.ok .done, { s with cache := holding n (key.elim [] fun key => others key l) }) := by
  rw [perform, holds.cache, invalidate_holding]
  rfl

theorem perform_hit (room : 0 < n) (holds : s.Holds counts n l) (time : Value) (p : Producer α)
    (found : atHand? s.world.now key l = some e) :
    s.perform counts (.remember key time p) = (.ok (.remembered e.value true), s) := by
  rw [perform, holds.cache, remember_holding room holds.orderly holds.reading holds.counted, found,
    ← holds.cache]
  rfl

theorem perform_miss (room : 0 < n) (holds : s.Holds counts n l) (time : Value) (p : Producer α)
    (missing : atHand? s.world.now key l = none) :
    s.perform counts (.remember key time p) =
      match p.outcome with
      | .error e => (.error e, ⟨holding n (others key l), (p.make s.world).2⟩)
      | .ok value => match (p.ends s.world.now).ending time with
        | .error e => (.error e, ⟨holding n (others key l), (p.make s.world).2⟩)
        | .ok expires => (.ok (.remembered value false),
          ⟨holding n (placed n ⟨key, expires, value⟩ l), (p.make s.world).2⟩) := by
  rw [perform, holds.cache, remember_holding room holds.orderly holds.reading holds.counted,
    missing]
  simp only [Producer.make, concluded]
  rcases p.outcome with _ | value
  · rfl
  · rcases (p.ends s.world.now).ending time <;> rfl

end State

theorem any_holding {key : String} :
    (holding n l).entries.any (·.key.sameKey (.text key)) = l.any (·.key == key) := by
  rw [holding, List.any_map]
  rfl

theorem IsOrderly.filter_any {first last : List (Entry α)} (orderly : IsOrderly (first ++ last)) :
    (first ++ last).filter (fun e => last.any (·.key == e.key)) = last := by
  have apart := orderly.distinct
  rw [List.map_append, List.nodup_append] at apart
  -- what stands in front has other keys
  have front : first.filter (fun e => last.any (·.key == e.key)) = [] := by
    rw [List.filter_eq_nil_iff]
    intro e he found
    obtain ⟨f, hf, same⟩ := List.any_eq_true.1 found
    exact apart.2.2 e.key (List.mem_map_of_mem he) f.key (List.mem_map_of_mem hf)
      (beq_iff_eq.1 same).symm
  have back : last.filter (fun e => last.any (·.key == e.key)) = last :=
    List.filter_eq_self.2 fun e he => List.any_eq_true.2 ⟨e, he, by simp⟩
  rw [List.filter_append, front, back, List.nil_append]

namespace Stage

structure Leaves (n : ℕ) (l : List (Entry α)) (m : Stage α) : Prop where
  stored : m.stored? = none
  after : m.after.cache = holding n (l.filter (!m.drops ·))

structure Places (counts : α → Bool) (n : ℕ) (l : List (Entry α)) (m : Stage α) (e : Entry α) :
    Prop where
  stored : m.stored? = some e
  after : m.after.cache = holding n (placed n e l)
  comparable : e.IsComparable
  counted : counts e.value
  stays : ∀ key, m.invalidates key = false
  reads : ∀ key, m.reads key → key = e.key

variable {m : Stage α}

theorem drops_of_none (stored : m.stored? = none) (e : Entry α) :
    m.drops e = (m.invalidates e.key || m.reads e.key && e.isPast m.before.world.now) := by
  simp [drops, sets, evicts, stored]

theorem Places.filter_drops (orderly : IsOrderly l) (before : m.before.cache = holding n l)
    (places : m.Places counts n l e) : l.filter (!m.drops ·) ++ [e] = placed n e l := by
  have split := List.take_append_drop ((others e.key l).length + 1 - n) (others e.key l)
  have rest := IsOrderly.filter_any (split.symm ▸ orderly.without e.key)
  rw [split, others, List.filter_filter] at rest
  rw [placed, others, ← rest]
  congr 1
  refine List.filter_congr fun f hf => ?_
  by_cases same : f.key = e.key
  · simp [drops, sets, places.stored, same]
  · have unread : m.reads f.key = false :=
      Bool.eq_false_iff.2 fun read => same (places.reads _ read)
    have there : l.any (·.key == f.key) := List.any_eq_true.2 ⟨f, hf, by simp⟩
    have apart : (f.key == e.key) = false := beq_eq_false_iff_ne.2 same
    have other : (e.key == f.key) = false := beq_eq_false_iff_ne.2 (Ne.symm same)
    simp [drops, sets, evicts, State.has, places.stored, places.stays, unread, before,
      places.after, any_holding, there, placed, others, bne, apart, other]

end Stage

theorem State.stage_eq {operation : Operation α} {answer : Outcome (Answer α)} {after : State α}
    (h : s.perform counts operation = (answer, after)) :
    s.stage counts operation = ⟨s, operation, answer, after⟩ := by
  rw [State.stage, h]

theorem Stage.leaves_of_reads {m : Stage α} {key : String} (stored : m.stored? = none)
    (stays : ∀ k, m.invalidates k = false) (reads : ∀ k, m.reads k = (k == key))
    (after : m.after.cache = holding n (swept m.before.world.now key l)) : m.Leaves n l := by
  refine ⟨stored, after.trans (congrArg (holding n) ?_)⟩
  exact List.filter_congr fun e _ => by simp [drops_of_none stored, stays, reads]

theorem Stage.leaves_of_not_reads {m : Stage α} {gone : String → Bool} (stored : m.stored? = none)
    (invalidates : ∀ k, m.invalidates k = gone k) (reads : ∀ k, m.reads k = false)
    (after : m.after.cache = holding n (l.filter fun e => !gone e.key)) : m.Leaves n l := by
  refine ⟨stored, after.trans (congrArg (holding n) ?_)⟩
  exact List.filter_congr fun e _ => by simp [drops_of_none stored, invalidates, reads]

theorem State.Holds.stage_cases (room : 0 < n) (holds : s.Holds counts n l)
    {operation : Operation α} (sound : operation.IsSound counts s.world.now) :
    (s.stage counts operation).Leaves n l ∨
      ∃ e, (s.stage counts operation).Places counts n l e := by
  have all : s.cache = holding n (l.filter fun _ => !false) := by simpa using holds.cache
  have comparable {now : Seconds} {time : Value} {expires : Option Seconds} {key : String}
      {value : α} (reading : now.IsReading) (ends : now.ending time = .ok expires) :
      (⟨key, expires, value⟩ : Entry α).IsComparable := by
    rintro t rfl
    exact Seconds.isComparable_of_ending reading ends
  cases operation with
  | get key =>
    rw [stage_eq (perform_get holds)]
    exact .inl (Stage.leaves_of_reads rfl (fun _ => rfl) (fun _ => rfl) rfl)
  | set key value time =>
    have performed := perform_set room holds key value time
    cases ends : s.world.now.ending time with
    | error e =>
      rw [ends] at performed
      rw [stage_eq performed]
      exact .inl (Stage.leaves_of_not_reads rfl (fun _ => rfl) (fun _ => rfl) all)
    | ok expires =>
      rw [ends] at performed
      rw [stage_eq performed]
      refine .inr ⟨⟨key, expires, value⟩, ?_, rfl, comparable holds.reading ends, sound,
        fun _ => rfl, fun _ read => by cases read⟩
      simp [Stage.stored?, Stage.setting?, ends, Except.toOption]
  | remember key time p =>
    cases found : atHand? s.world.now key l with
    | some e =>
      rw [stage_eq (perform_hit room holds time p found)]
      obtain ⟨⟨member, rfl⟩, fresh⟩ := holds.orderly.atHand?_eq_some_iff.1 found
      refine .inl (Stage.leaves_of_reads rfl (fun _ => rfl) (fun _ => rfl) ?_)
      rw [swept_eq_self fun f hf same => holds.orderly.eq_of_key hf member same ▸ fresh]
      exact holds.cache
    | none =>
      have performed := perform_miss room holds time p found
      have swept := swept_of_none holds.orderly found
      cases result : p.outcome with
      | error e =>
        simp only [result] at performed
        rw [stage_eq performed]
        exact .inl (Stage.leaves_of_reads rfl (fun _ => rfl) (fun _ => rfl) (by rw [swept]))
      | ok value =>
        cases ends : (p.ends s.world.now).ending time with
        | error e =>
          simp only [result, ends] at performed
          rw [stage_eq performed]
          exact .inl (Stage.leaves_of_reads rfl (fun _ => rfl) (fun _ => rfl) (by rw [swept]))
        | ok expires =>
          simp only [result, ends] at performed
          rw [stage_eq performed]
          refine .inr ⟨⟨key, expires, value⟩, ?_, rfl, comparable sound.1.1 ends,
            sound.2 value result, fun _ => rfl, fun _ read => beq_iff_eq.1 read⟩
          simp [Stage.stored?, Stage.setting?, Producer.make, ends, Except.toOption]
  | invalidate key =>
    rw [stage_eq (perform_invalidate holds key)]
    refine .inl (Stage.leaves_of_not_reads rfl (fun _ => rfl) (fun _ => rfl) ?_)
    cases key with
    | none =>
      have nothing : l.filter (fun _ => !true) = [] := by simp
      exact congrArg (holding n) nothing.symm
    | some key => rfl
  | advance now => exact .inl (Stage.leaves_of_not_reads rfl (fun _ => rfl) (fun _ => rfl) all)

@[simp] theorem State.attempt_world (r : Outcome (Answer α × Cache α)) :
    (s.attempt r).2.world = s.world := by
  cases r <;> rfl

theorem State.Holds.reaches (room : 0 < n) (holds : s.Holds counts n l) {operation : Operation α}
    (sound : operation.IsSound counts s.world.now) :
    s.world.now.Reaches (s.stage counts operation).after.world.now := by
  have still := Seconds.reaches_self holds.reading
  cases operation with
  | get | set | invalidate => simpa only [State.stage, perform, attempt_world] using still
  | advance now => exact sound
  | remember key time p =>
    cases found : atHand? s.world.now key l with
    | some e =>
      rw [stage_eq (perform_hit room holds time p found)]
      exact still
    | none =>
      rw [State.stage, perform_miss room holds time p found]
      rcases p.outcome with _ | value
      · exact sound.1
      · rcases (p.ends s.world.now).ending time with _ | expires
        · exact sound.1
        · exact sound.1

theorem length_placed (room : 0 < n) : (placed n e l).length ≤ n := by
  simp [placed]
  omega

theorem IsOrderly.placed (orderly : IsOrderly l) (comparable : e.IsComparable) :
    IsOrderly (placed n e l) :=
  (orderly.put comparable).of_sublist ((List.drop_sublist _ _).append_right _)

theorem State.Holds.after (room : 0 < n) (holds : s.Holds counts n l) {operation : Operation α}
    (sound : operation.IsSound counts s.world.now) :
    (s.stage counts operation).after.Holds counts n
      (l.filter (!(s.stage counts operation).drops ·) ++
        (s.stage counts operation).stored?.toList) := by
  have reading := (holds.reaches room sound).1
  rcases holds.stage_cases room sound with leaves | ⟨e, places⟩
  · rw [leaves.stored, Option.toList_none, List.append_nil]
    exact {
      cache := leaves.after
      orderly := holds.orderly.of_sublist List.filter_sublist
      size := (List.length_filter_le _ _).trans holds.size
      counted := fun e he => holds.counted e (List.mem_of_mem_filter he)
      reading }
  · rw [places.stored, Option.toList_some, places.filter_drops holds.orderly holds.cache]
    refine ⟨places.after, holds.orderly.placed places.comparable, length_placed room, ?_, reading⟩
    intro f hf
    rcases List.mem_append.1 hf with old | new
    · exact holds.counted f (mem_others.1 (List.mem_of_mem_drop old)).1
    · exact List.mem_singleton.1 new ▸ places.counted

variable {h : List (Stage α)} {start : State α}

theorem Run.holds (room : 0 < n) (empty : start.Holds counts n []) (run : Run counts start h s) :
    s.Holds counts n (kept h) := by
  induction run with
  | start => exact empty
  | step before sound ih =>
    rw [kept_concat]
    exact ih.after room sound

theorem Run.isPast (room : 0 < n) (empty : start.Holds counts n []) (run : Run counts start h s) :
    ∀ m ∈ h, ∀ e : Entry α, e.isPast m.before.world.now → e.isPast s.world.now := by
  induction run with
  | start => simp
  | step before sound ih =>
    intro m hm e past
    have on := (before.holds room empty).reaches room sound
    rcases List.mem_append.1 hm with earlier | last
    · exact Entry.isPast_of_reaches (ih m earlier e past) on
    · obtain rfl := List.mem_singleton.1 last
      exact Entry.isPast_of_reaches past on

def IsLast (h : List (Stage α)) (e : Entry α) : Prop :=
  ∃ earlier m later, h = earlier ++ m :: later ∧ m.stored? = some e ∧
    ∀ x ∈ later, x.sets e.key = false ∧ x.invalidates e.key = false ∧ x.evicts e.key = false

theorem Run.mem_kept_iff (room : 0 < n) (empty : start.Holds counts n [])
    (run : Run counts start h s) (fresh : e.isPast s.world.now = false) :
    e ∈ kept h ↔ IsLast h e := by
  rw [mem_kept]
  refine exists_congr fun earlier => exists_congr fun m => exists_congr fun later =>
    and_congr_right fun split => and_congr_right fun _ => forall₂_congr fun x hx => ?_
  -- an entry that was read when its time had passed would be past now
  have unread : e.isPast x.before.world.now = false := by
    refine Bool.eq_false_iff.2 fun past => ?_
    have member : x ∈ h := by simp [split, hx]
    rw [run.isPast room empty x member e past] at fresh
    cases fresh
  simp [Stage.drops, unread, and_assoc]

structure Agrees (n : ℕ) (h : List (Stage α)) (s : State α) : Prop where
  cache : s.cache = holding n (kept h)
  distinct : ((kept h).map (·.key)).Nodup
  size : (kept h).length ≤ n
  look : ∀ key, ∃ found, s.look key = .ok found ∧ ∀ value, found = some value ↔
    ∃ e, IsLast h e ∧ e.key = key ∧ e.value = value ∧ e.isPast s.world.now = false

/-- How a stage proceeds where these entries stand in a cache with room for `n`. -/
structure Stage.Conforms (n : ℕ) (l : List (Entry α)) (m : Stage α) : Prop where
  latest : ∀ e, m.stored? = some e → ∃ rest, m.after.cache = holding n (rest ++ [e])
  evicts : ∀ key, m.evicts key → ∃ e first rest, m.stored? = some e ∧
    others e.key l = first :: rest ∧ first.key = key ∧ n < (first :: rest).length + 1
  hit : ∀ key time p value, m.operation = .remember key time p →
    m.before.look key = .ok (some value) →
      m.answer = .ok (.remembered value true) ∧ m.after = m.before
  miss : ∀ key time p, m.operation = .remember key time p → m.before.look key = .ok none →
    m.after.world.made = m.before.world.made + 1 ∧
      m.answer = p.outcome.bind fun value =>
        (m.after.world.now.ending time).map fun _ => .remembered value false
  raise : ∀ key time p e, m.operation = .remember key time p → m.before.look key = .ok none →
    p.outcome = .error e → m.after.cache = holding n (others key l)

theorem State.Holds.look (holds : s.Holds counts n l) (key : String) :
    s.look key = .ok ((atHand? s.world.now key l).map (·.value)) := by
  rw [State.look, holds.cache, get_holding holds.orderly holds.reading]
  rfl

theorem Run.agrees (room : 0 < n) (empty : start.Holds counts n []) (run : Run counts start h s) :
    Agrees n h s := by
  have holds := run.holds room empty
  refine ⟨holds.cache, holds.orderly.distinct, holds.size, fun key =>
    ⟨_, holds.look key, fun value => ?_⟩⟩
  rw [Option.map_eq_some_iff]
  refine exists_congr fun e => ?_
  rw [holds.orderly.atHand?_eq_some_iff]
  constructor
  · rintro ⟨⟨⟨member, named⟩, fresh⟩, same⟩
    exact ⟨(run.mem_kept_iff room empty fresh).1 member, named, same, fresh⟩
  · rintro ⟨last, named, same, fresh⟩
    exact ⟨⟨⟨(run.mem_kept_iff room empty fresh).2 last, named⟩, fresh⟩, same⟩

theorem Stage.Places.evicts {m : Stage α} {key : String} (before : m.before.cache = holding n l)
    (size : l.length ≤ n) (places : m.Places counts n l e) (evicts : m.evicts key) :
    ∃ first rest, others e.key l = first :: rest ∧ first.key = key ∧
      n < (first :: rest).length + 1 := by
  simp only [Stage.evicts, State.has, places.stored, Option.any_some, before, places.after,
    any_holding, Bool.and_eq_true, bne_iff_ne, Bool.not_eq_true', List.any_eq_true,
    List.any_eq_false, beq_iff_eq] at evicts
  obtain ⟨⟨other, f, member, rfl⟩, gone⟩ := evicts
  have pushed : f ∉ (others e.key l).drop ((others e.key l).length + 1 - n) :=
    fun stays => gone f (List.mem_append_left _ stays) rfl
  have fits : (others e.key l).length ≤ n := (List.length_filter_le _ _).trans size
  have there : f ∈ others e.key l := mem_others.2 ⟨member, Ne.symm other⟩
  cases split : others e.key l with
  | nil => simp [split] at there
  | cons first rest =>
    rw [split] at pushed fits there
    -- with room left nothing is pushed out, and there is never more than one too many
    have full : n < (first :: rest).length + 1 := by
      by_contra! room
      rw [Nat.sub_eq_zero_of_le room] at pushed
      exact pushed there
    have one : (first :: rest).length + 1 - n = 1 := by omega
    rw [one] at pushed
    have same : f = first := (List.mem_cons.1 there).resolve_right pushed
    exact ⟨first, rest, rfl, same ▸ rfl, full⟩

theorem State.Holds.conforms (room : 0 < n) (holds : s.Holds counts n l)
    {operation : Operation α} (sound : operation.IsSound counts s.world.now) :
    (s.stage counts operation).Conforms n l := by
  have placed {e : Entry α} (stored : (s.stage counts operation).stored? = some e) :
      (s.stage counts operation).Places counts n l e := by
    rcases holds.stage_cases room sound with leaves | ⟨f, places⟩
    · rw [leaves.stored] at stored
      cases stored
    · obtain rfl := Option.some.inj (places.stored.symm.trans stored)
      exact places
  have missing {key : String} (nothing : s.look key = .ok none) :
      atHand? s.world.now key l = none := by
    rw [holds.look] at nothing
    exact Option.map_eq_none_iff.1 (Except.ok.inj nothing)
  refine ⟨fun e stored => ⟨_, (placed stored).after⟩, fun key evicts => ?_, ?_, ?_, ?_⟩
  · obtain ⟨e, stored⟩ : ∃ e, (s.stage counts operation).stored? = some e := by
      cases stored : (s.stage counts operation).stored? with
      | none => simp [Stage.evicts, stored] at evicts
      | some e => exact ⟨e, rfl⟩
    obtain ⟨first, rest, pushed⟩ := (placed stored).evicts holds.cache holds.size evicts
    exact ⟨e, first, rest, stored, pushed⟩
  · rintro key time p value rfl there
    have known := Except.ok.inj ((holds.look key).symm.trans there)
    obtain ⟨e, found, rfl⟩ := Option.map_eq_some_iff.1 known
    rw [stage_eq (perform_hit room holds time p found)]
    exact ⟨rfl, rfl⟩
  · rintro key time p rfl nothing
    rw [State.stage, perform_miss room holds time p (missing nothing)]
    cases p.outcome with
    | error e => exact ⟨rfl, rfl⟩
    | ok value =>
      cases ends : (p.ends s.world.now).ending time with
      | error e => simp [Producer.make, ends, Except.bind, Except.map]
      | ok expires => simp [Producer.make, ends, Except.bind, Except.map]
  · rintro key time p e rfl nothing raised
    rw [State.stage, perform_miss room holds time p (missing nothing), raised]

/-- Every run of a cache with room for `limit` entries, and for one at least. -/
theorem conforms_of_run (capacity : Value) {limit : ℤ} (whole : capacity.whole = .ok limit)
    (counts : α → Bool) (start : World) (reading : start.now.IsReading) :
    ∃ c, make capacity = .ok c ∧ ∀ h s, Run counts ⟨c, start⟩ h s →
      Agrees (max 1 limit).toNat h s ∧ ∀ operation : Operation α,
        operation.IsSound counts s.world.now →
          (s.stage counts operation).Conforms (max 1 limit).toNat (kept h) := by
  have room : 0 < (max 1 limit).toNat := by omega
  have empty : State.Holds counts (max 1 limit).toNat [] ⟨holding _ [], start⟩ :=
    ⟨rfl, ⟨by simp, by simp⟩, Nat.zero_le _, by simp, reading⟩
  refine ⟨holding _ [], by rw [make, whole]; rfl, fun h s run => ⟨run.agrees room empty, ?_⟩⟩
  exact fun operation sound => (run.holds room empty).conforms room sound

theorem conforms_of_run_full :
    ∃ (h : List (Stage ℕ)) (s : State ℕ), h.length = 3 ∧ Agrees 1 h s ∧
      s.look "a" = .ok none ∧ s.look "b" = .ok (some 2) ∧ ((s.stage (fun _ => true)
        (.remember "c" .null ⟨Misuse.fail .badValue, id⟩)).Conforms 1 (kept h)) := by
  have reading (n : ℤ) : (Seconds.whole n).IsReading := by
    refine ⟨rfl, ?_⟩
    rw [Seconds.toDecimal, Decimal.level?_ofInt]
    simp
  have on : (Seconds.whole 0).Reaches (.whole 5) :=
    ⟨reading 5, .lt, Decimal.order?_ofInt 0 5, by decide⟩
  obtain ⟨c, made, all⟩ := conforms_of_run (.int 0) rfl (fun _ : ℕ => true) ⟨.whole 0, 0⟩
    (reading 0)
  obtain rfl := Except.ok.inj made
  have none : Run (fun _ : ℕ => true) ⟨⟨1, [], []⟩, ⟨.whole 0, 0⟩⟩ [] _ := .start
  have run := Run.step (o := .set "b" 2 .null) (.step (o := .advance (.whole 5))
    (.step (o := .set "a" 1 (.int 5)) none rfl) on) rfl
  obtain ⟨agrees, conforms⟩ := all _ _ run
  refine ⟨_, _, rfl, agrees, rfl, rfl, conforms _ ⟨Seconds.reaches_self (reading 5), ?_⟩⟩
  intro value made
  rfl

end SparqlClient.Cache
