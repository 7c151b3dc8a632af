import Mathlib.Data.List.Nodup
import SparqlClient.Cache
import SparqlClient.Proofs.Number.Order

/-! A cache whose keys are texts is a list of entries. Main statements: what each operation does to
that list, and what it answers. -/

namespace SparqlClient

namespace Seconds

def ending (now : Seconds) (time : Value) : Outcome (Option Seconds) := do
  match ← limit? time with
  | none => return none
  | some t => (now.add t).map some

theorem isComparable_of_ending {now t : Seconds} {time : Value} (reading : now.IsReading)
    (h : now.ending time = .ok (some t)) : t.IsComparable := by
  obtain ⟨limit, limited, h⟩ := Outcome.bind_eq_ok_iff.1 h
  cases limit with
  | none => cases h
  | some s =>
    obtain ⟨u, added, same⟩ := Outcome.map_eq_ok_iff.1 h
    obtain rfl := Option.some.inj same
    exact isComparable_add reading (isComparable_of_limit limited) added

end Seconds

namespace Cache

variable {α : Type}

structure Entry (α : Type) where
  key : String
  expires : Option Seconds
  value : α

namespace Entry

def stored (e : Entry α) : Stored α := ⟨.text e.key, e.expires, e.value⟩

def isPast (now : Seconds) (e : Entry α) : Bool := e.expires.any fun t => t.lt now matches .ok true

theorem isPast_iff {now : Seconds} {e : Entry α} :
    e.isPast now ↔ ∃ t, e.expires = some t ∧ t.lt now = .ok true := by
  rw [isPast, Option.any_eq_true]
  refine exists_congr fun t => and_congr_right fun _ => ?_
  rcases t.lt now with _ | _ | _ <;> simp

theorem isPast_of_reaches {now later : Seconds} {e : Entry α} (past : e.isPast now)
    (on : now.Reaches later) : e.isPast later := by
  obtain ⟨t, ends, before⟩ := isPast_iff.1 past
  exact isPast_iff.2 ⟨t, ends, Seconds.lt_of_reaches before on⟩

/-- In whole seconds: more time has passed than was given, and the time given is not negative. -/
theorem isPast_whole {t stored now : ℤ} {e : Entry α}
    (ends : (Seconds.whole stored).ending (.int t) = .ok e.expires) :
    e.isPast (.whole now) ↔ 0 ≤ t ∧ t < now - stored := by
  by_cases negative : t < 0
  · have unlimited : (Seconds.whole stored).ending (.int t) = .ok none := by
      simp [Seconds.ending, Seconds.limit?, Seconds.ofValue, Seconds.isNegative, negative, bind,
        Except.bind, pure, Except.pure]
    have never : none = e.expires := Except.ok.inj (unlimited.symm.trans ends)
    simp [isPast, ← never, negative]
  · have limited : (Seconds.whole stored).ending (.int t) = .ok (some (.whole (stored + t))) := by
      simp [Seconds.ending, Seconds.limit?, Seconds.ofValue, Seconds.isNegative, Seconds.add,
        negative, bind, Except.bind, pure, Except.pure, Except.map]
    have last : some (.whole (stored + t)) = e.expires := Except.ok.inj (limited.symm.trans ends)
    simp [isPast_iff, ← last]
    omega

def IsComparable (e : Entry α) : Prop := ∀ t, e.expires = some t → t.IsComparable

theorem isExpired_stored {now : Seconds} {e : Entry α} (comparable : e.IsComparable)
    (reading : now.IsReading) : Stored.isExpired now e.stored = .ok (e.isPast now) := by
  obtain ⟨key, _ | t, value⟩ := e
  · rfl
  · obtain ⟨past, told⟩ := Seconds.exists_lt (comparable t rfl) reading
    cases past <;> simp [Stored.isExpired, stored, isPast, told]

end Entry

def holding (n : ℕ) (l : List (Entry α)) : Cache α := ⟨n, l.map Entry.stored, []⟩

/-- Distinct keys, and times that can be told. -/
structure IsOrderly (l : List (Entry α)) : Prop where
  distinct : (l.map (·.key)).Nodup
  comparable : ∀ e ∈ l, e.IsComparable

variable {n : ℕ} {l : List (Entry α)} {now : Seconds} {key : String} {e f : Entry α}

theorem IsOrderly.eq_of_key (orderly : IsOrderly l) (he : e ∈ l) (hf : f ∈ l)
    (same : e.key = f.key) : e = f :=
  List.inj_on_of_nodup_map orderly.distinct he hf same

theorem IsOrderly.of_sublist {k : List (Entry α)} (orderly : IsOrderly l) (part : k.Sublist l) :
    IsOrderly k where
  distinct := orderly.distinct.sublist (part.map _)
  comparable e he := orderly.comparable e (part.subset he)

def others (key : String) (l : List (Entry α)) : List (Entry α) := l.filter (·.key != key)

@[simp] theorem others_others : others key (others key l) = others key l := by simp [others]

theorem mem_others : e ∈ others key l ↔ e ∈ l ∧ e.key ≠ key := by simp [others]

theorem IsOrderly.without (orderly : IsOrderly l) (key : String) : IsOrderly (others key l) :=
  orderly.of_sublist List.filter_sublist

theorem IsOrderly.put (orderly : IsOrderly l) (comparable : e.IsComparable) :
    IsOrderly (others e.key l ++ [e]) where
  distinct := by
    rw [List.map_append, List.nodup_append]
    refine ⟨(orderly.without e.key).distinct, by simp, ?_⟩
    rintro a ha b hb rfl
    obtain ⟨f, hf, named⟩ := List.mem_map.1 ha
    obtain rfl : a = e.key := by simpa using hb
    exact (mem_others.1 hf).2 named
  comparable f hf := by
    rcases List.mem_append.1 hf with old | new
    · exact orderly.comparable f (mem_others.1 old).1
    · obtain rfl := List.mem_singleton.1 new
      exact comparable

@[simp] theorem find?_holding :
    (holding n l).find? (.text key) = (l.find? (·.key == key)).map Entry.stored := by
  rw [find?, holding, List.find?_map]
  rfl

@[simp] theorem erase_holding : (holding n l).erase (.text key) = holding n (others key l) := by
  simp only [erase, holding, List.filter_map]
  rfl

theorem IsOrderly.find?_eq_some_iff (orderly : IsOrderly l) :
    l.find? (·.key == key) = some e ↔ e ∈ l ∧ e.key = key := by
  constructor
  · intro found
    exact ⟨List.mem_of_find?_eq_some found, by simpa using List.find?_some found⟩
  · rintro ⟨member, rfl⟩
    obtain ⟨f, found⟩ : ∃ f, l.find? (·.key == e.key) = some f := by
      rw [← Option.isSome_iff_exists, List.find?_isSome]
      exact ⟨e, member, by simp⟩
    have named : f.key = e.key := by simpa using List.find?_some found
    rw [found, orderly.eq_of_key (List.mem_of_find?_eq_some found) member named]

def atHand? (now : Seconds) (key : String) (l : List (Entry α)) : Option (Entry α) :=
  (l.find? (·.key == key)).filter (!·.isPast now)

theorem IsOrderly.atHand?_eq_some_iff (orderly : IsOrderly l) :
    atHand? now key l = some e ↔ (e ∈ l ∧ e.key = key) ∧ e.isPast now = false := by
  rw [atHand?, Option.filter_eq_some_iff, orderly.find?_eq_some_iff, Bool.not_eq_true']

def swept (now : Seconds) (key : String) (l : List (Entry α)) : List (Entry α) :=
  l.filter fun e => !(e.key == key && e.isPast now)

theorem swept_eq_self (none : ∀ e ∈ l, e.key = key → e.isPast now = false) :
    swept now key l = l := by
  refine List.filter_eq_self.2 fun e he => ?_
  by_cases same : e.key = key
  · simp [none e he same]
  · simp [same]

theorem IsOrderly.swept_eq_others (orderly : IsOrderly l) (he : e ∈ l) (past : e.isPast now) :
    swept now e.key l = others e.key l := by
  refine List.filter_congr fun f hf => ?_
  by_cases same : f.key = e.key
  · simp [orderly.eq_of_key hf he same, past]
  · simp [same, bne]

theorem get_holding (orderly : IsOrderly l) (reading : now.IsReading) :
    (holding n l).get now (.text key) =
      .ok ((atHand? now key l).map (·.value), holding n (swept now key l)) := by
  have checked : (Value.text key).checkedKey = .ok (.text key) := rfl
  simp only [get, checked, find?_holding, atHand?, bind, Except.bind]
  cases found : l.find? (·.key == key) with
  | none =>
    have absent : ∀ e ∈ l, ¬e.key = key := by simpa using found
    have all : swept now key l = l := swept_eq_self fun e he same => (absent e he same).elim
    simp [all, pure, Except.pure]
  | some e =>
    obtain ⟨member, rfl⟩ := orderly.find?_eq_some_iff.1 found
    simp only [Option.map_some, Entry.isExpired_stored (orderly.comparable e member) reading]
    cases past : e.isPast now with
    | true => simp [orderly.swept_eq_others member past, past, pure, Except.pure]
    | false =>
      have all : swept now e.key l = l :=
        swept_eq_self fun f hf same => orderly.eq_of_key hf member same ▸ past
      simp [all, past, Entry.stored, pure, Except.pure]

/-- With an entry set, which may push out the first of the others. -/
def placed (n : ℕ) (e : Entry α) (l : List (Entry α)) : List (Entry α) :=
  (others e.key l).drop ((others e.key l).length + 1 - n) ++ [e]

theorem placed_others : placed n e (others e.key l) = placed n e l := by simp [placed]

theorem put_holding (room : 0 < n) : (holding n l).put e.stored = holding n (placed n e l) := by
  have erased : (holding n l).erase e.stored.key = holding n (others e.key l) := erase_holding
  have within : (others e.key l).length + 1 - n ≤ (others e.key l).length := by omega
  simp only [put, erased, trimmed, placed]
  simp [holding, within, List.drop_append_of_le_length]

theorem set_eq (c : Cache α) (value : α) (time : Value) :
    c.set now (.text key) value time =
      (now.ending time).map fun expires => c.put ⟨.text key, expires, value⟩ := by
  have checked : (Value.text key).checkedKey = .ok (.text key) := rfl
  rw [set, Seconds.ending]
  rcases Seconds.limit? time with _ | _ | t
  · rfl
  · simp [checked, bind, Except.bind, pure, Except.pure, Except.map]
  · cases added : now.add t with
    | error _ => simp [added, bind, Except.bind, Except.map]
    | ok u => simp [added, checked, bind, Except.bind, pure, Except.pure, Except.map]

theorem set_holding (room : 0 < n) (value : α) (time : Value) :
    (holding n l).set now (.text key) value time =
      (now.ending time).map fun expires => holding n (placed n ⟨key, expires, value⟩ l) := by
  have put (expires : Option Seconds) :=
    put_holding (l := l) (e := ⟨key, expires, value⟩) room
  simp only [Entry.stored] at put
  simp only [set_eq, put]

theorem invalidate_holding (key : Option String) :
    (holding n l).invalidate (Value.ofText? key) =
      .ok (holding n (key.elim [] fun key => others key l)) := by
  cases key with
  | none => rfl
  | some key => simp [Cache.invalidate, Value.ofText?, Value.isNull, Value.checkedKey,
      Value.canBeKey, Except.map]

/-! Locks are left alone by reading and setting. -/

theorem get_locked (c : Cache α) (locks : List Value) (key : Value) :
    { c with locks }.get now key =
      (c.get now key).map fun (found, d) => (found, { d with locks }) := by
  have same : { c with locks }.find? = c.find? := rfl
  simp only [get, same]
  cases key.checkedKey with
  | error _ => rfl
  | ok key =>
    simp only [bind, Except.bind]
    cases c.find? key with
    | none => rfl
    | some e =>
      dsimp only
      rcases Stored.isExpired now e with _ | _ | _ <;> rfl

theorem set_locked (c : Cache α) (locks : List Value) (key time : Value) (value : α) :
    { c with locks }.set now key value time =
      (c.set now key value time).map fun d => { d with locks } := by
  simp only [set]
  rcases Seconds.limit? time with _ | _ | t
  · rfl
  · cases key.checkedKey <;> rfl
  · simp only [bind, Except.bind]
    cases now.add t with
    | error _ => rfl
    | ok u => cases key.checkedKey <;> rfl

theorem swept_of_none (orderly : IsOrderly l) (none : atHand? now key l = none) :
    swept now key l = others key l := by
  by_cases there : ∃ e ∈ l, e.key = key
  · obtain ⟨e, member, rfl⟩ := there
    refine orderly.swept_eq_others member ?_
    by_contra fresh
    have found := orderly.atHand?_eq_some_iff.2 ⟨⟨member, rfl⟩, Bool.eq_false_iff.2 fresh⟩
    rw [none] at found
    cases found
  · rw [not_exists] at there
    have absent : others key l = l := by simpa [others] using there
    rw [absent, swept_eq_self fun e he same => (there e ⟨he, same⟩).elim]

theorem get_others (orderly : IsOrderly l) (reading : now.IsReading) :
    (holding n (others key l)).get now (.text key) = .ok (none, holding n (others key l)) := by
  have part := orderly.without key
  have none : atHand? now key (others key l) = none := by
    have absent : (others key l).find? (·.key == key) = none := by simp [others]
    simp [atHand?, absent]
  rw [get_holding part reading, swept_of_none part none, none, others_others]
  rfl

theorem lock_holding : (holding n l).lock (.text key) =
    { holding n l with locks := [.text key] } := rfl

theorem unlock_holding :
    { holding n l with locks := [.text key] }.unlock (.text key) = holding n l := by
  simp [unlock, holding, Value.sameKey]

section

variable {ω : Type} {clock : ω → Seconds} {counts : α → Bool} {time : Value}
  {make : ω → Outcome α × ω} {w : ω}

theorem look_holding (orderly : IsOrderly l) (reading : now.IsReading)
    (counted : ∀ e ∈ l, counts e.value) :
    (holding n l).look now (.text key) counts =
      (.ok ((atHand? now key l).map (·.value)), holding n (swept now key l)) := by
  rw [look, get_holding orderly reading]
  cases found : atHand? now key l with
  | none => rfl
  | some e =>
    have member := (orderly.atHand?_eq_some_iff.1 found).1.1
    simp [counted e member]

def concluded (n : ℕ) (key : String) (time : Value) (now : Seconds) (l : List (Entry α)) :
    Outcome α → Outcome (α × Bool) × Cache α
  | .error e => (.error e, holding n (others key l))
  | .ok v => match now.ending time with
    | .error e => (.error e, holding n (others key l))
    | .ok expires => (.ok (v, false), holding n (placed n ⟨key, expires, v⟩ l))

theorem remember_holding (room : 0 < n) (orderly : IsOrderly l) (reading : (clock w).IsReading)
    (counted : ∀ e ∈ l, counts e.value) :
    (holding n l).rememberWith clock counts (.text key) time make w =
      match atHand? (clock w) key l with
      | some e => (.ok (e.value, true), holding n l, w)
      | none =>
        let (result, w) := make w
        let (answer, c) := concluded n key time (clock w) l result
        (answer, c, w) := by
  rw [rememberWith, look_holding orderly reading counted]
  cases found : atHand? (clock w) key l with
  | some e =>
    obtain ⟨⟨member, rfl⟩, fresh⟩ := orderly.atHand?_eq_some_iff.1 found
    have all : swept (clock w) e.key l = l :=
      swept_eq_self fun f hf same => orderly.eq_of_key hf member same ▸ fresh
    simp [all]
  | none =>
    have again : { holding n (others key l) with locks := [.text key] }.look (clock w)
        (.text key) counts =
          (.ok none, { holding n (others key l) with locks := [.text key] }) := by
      rw [look, get_locked, get_others orderly reading]
      rfl
    simp only [Option.map_none, swept_of_none orderly found, lock_holding, produce, again]
    rcases make w with ⟨_ | v, w⟩
    · simp [concluded, unlock_holding]
    · simp only [concluded, set_locked, set_holding room]
      rcases (clock w).ending time with _ | expires
      · simp [Except.map, unlock_holding]
      · have once := placed_others (n := n) (e := ⟨key, expires, v⟩) (l := l)
        simp only at once
        simp [Except.map, once, unlock_holding]

end

end Cache

end SparqlClient
