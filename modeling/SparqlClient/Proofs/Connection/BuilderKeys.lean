import SparqlClient.Proofs.Connection.Origin
import SparqlClient.Proofs.Connection.Preview

/-! The key that a builder shows and the key of its rows. A builder is asked for its key outside
of its namespace, before its values are in place; its rows are looked up within the namespace, by
the text with the values. Main statement: the two keys are the same exactly where there are no
values and the namespace is that of the endpoint in force; there the next execution behind an
invalidation of the key sends its request, and elsewhere the invalidation changes nothing. -/

namespace SparqlClient

namespace Connection

variable {c d : Connection} {text text' url url' : String} {values : List Value}

theorem keyText_eq_iff (known : c.queryEndpoint = .ok url) (known' : d.queryEndpoint = .ok url')
    (config : c.config = d.config) (vendor : c.vendor = d.vendor)
    (bound : values = [] → text = text') :
    c.keyText text values = d.keyText text' [] ↔ values = [] ∧ url = url' := by
  have askers := identity_eq_iff known known' config vendor
  constructor
  · intro same
    obtain ⟨t, written⟩ := exists_keyText known text values
    obtain ⟨asker, -, shown⟩ := keyText_inj written (same ▸ written)
    exact ⟨shownValues_eq_nil_iff.1 shown, askers.1 asker⟩
  · rintro ⟨rfl, same⟩
    rw [keyText_eq_map, keyText_eq_map, askers.2 same, bound rfl]

theorem homeOf_vendor {b : Builder} : (c.homeOf b).vendor = c.vendor := by
  unfold homeOf
  split <;> rfl

theorem homeOf_withCache (b : Builder) (k : Cache ResultSet) :
    ({ c with cache := k } : Connection).homeOf b = { c.homeOf b with cache := k } := by
  unfold homeOf
  split <;> rfl

end Connection

namespace Cache

variable {α : Type}

theorem find?_erase_of_ne {c : Cache α} {key key' : String} (h : key ≠ key') :
    (c.erase (.text key)).find? (.text key') = c.find? (.text key') := by
  unfold find? erase
  rw [List.find?_filter]
  refine congrArg (List.find? · c.entries) (funext fun e => ?_)
  cases named : e.key.sameKey (.text key') with
  | false => simp
  | true =>
    have own : e.key = .text key' := Value.sameKey_text_iff.1 named
    simp [own, Value.sameKey, h.symm]

def atHand (c : Cache α) (now : Seconds) (key : String) : Outcome (Option α) :=
  (c.get now (.text key)).map (·.1)

theorem atHand_eq (c : Cache α) (now : Seconds) (key : String) :
    c.atHand now key = match c.find? (.text key) with
      | none => .ok none
      | some e => (Stored.isExpired now e).map fun past => if past then none else some e.value := by
  unfold atHand get
  simp only [Value.checkedKey, Value.canBeKey, if_true, bind, Except.bind]
  cases c.find? (.text key) with
  | none => rfl
  | some e =>
    simp only
    rcases Stored.isExpired now e with _ | _ | _ <;> rfl

theorem atHand_erase (c : Cache α) (now : Seconds) (key : String) :
    (c.erase (.text key)).atHand now key = .ok none := by
  rw [atHand_eq, find?_erase]

theorem atHand_erase_of_ne {c : Cache α} {now : Seconds} {key key' : String} (h : key ≠ key') :
    (c.erase (.text key)).atHand now key' = c.atHand now key' := by
  rw [atHand_eq, atHand_eq, find?_erase_of_ne h]

end Cache

/-- Whatever is remembered: what is at hand for the key needs no request, and new entries are for
this key. -/
structure Exchange.LooksUnder {α : Type} (m : Exchange α) (c : Connection) (key : String)
    (r : Request) : Prop where
  sends (k : Cache ResultSet) : (m.runOn { c with cache := k }).2.session =
    match k.atHand c.now key with
    | .ok none => (c.session.send r).2
    | _ => c.session
  keeps (k : Cache ResultSet) : ∀ e ∈ (m.runOn { c with cache := k }).2.cache.entries,
    e ∈ k.entries ∨ e.key = .text key

namespace Execution

variable {c : Connection} {b : Builder} {f : Fragment} {text url key : String}

theorem written_get (written : ({ b with prefixes := c.prefixes } : Builder).compile = .ok f) :
    (Execution.get []).written b c = .ok (some f) := by
  change (({ b with prefixes := c.prefixes } : Builder).compile >>= fun f => pure (some f)) = _
  rw [written]
  rfl

variable
  (named : ∀ n, b.spec.namespaceName = some n → Namespace.IsAccepted n ∧ c.vendor.hasNamespaces)
  (known : (c.homeOf b).queryEndpoint = .ok url)
  (written : ({ b with prefixes := c.prefixes } : Builder).compile = .ok f)
  (bound : f.bound (some c.prefixes) = .ok text) (remembered : b.remembered = true)
include named known written bound remembered

theorem lookup?_get :
    (Execution.get []).lookup? b c = some ⟨c.homeOf b, text, b.timeToLive⟩ := by
  have place : (Execution.get []).place b c = .ok (c.homeOf b) :=
    place_eq_home named known rfl
  have prepared : (c.homeOf b).prepared f.text (.list f.bindings) = .ok text := by
    rw [Connection.prepared_eq, Connection.homeOf_prefixes, bound]
  unfold lookup?
  rw [written_get written, place]
  change (c.homeOf b).lookup? f.text (.list f.bindings) b.remembered b.timeToLive = _
  rw [Connection.lookup?, remembered, prepared]
  rfl

theorem request?_get (keyed : (c.homeOf b).cacheKey text .null = .ok key) :
    (Execution.get []).request? b c = (c.cache.atHand c.now key).map fun hit =>
      if hit.isSome then none
      else some (.ask url (.float c.config.timeout) text Connection.answerType) := by
  have place : (Execution.get []).place b c = .ok (c.homeOf b) :=
    place_eq_home named known rfl
  have prepared : (c.homeOf b).prepared f.text (.list f.bindings) = .ok text := by
    rw [Connection.prepared_eq, Connection.homeOf_prefixes, bound]
  have same : (c.homeOf b).cache = c.cache ∧ (c.homeOf b).now = c.now := by
    unfold Connection.homeOf
    split <;> exact ⟨rfl, rfl⟩
  unfold request?
  rw [written_get written, place]
  change (c.homeOf b).resultsRequest f.text (.list f.bindings) b.remembered = _
  unfold Connection.resultsRequest Cache.atHand
  rw [prepared, remembered]
  simp only [bind, Except.bind, if_true, keyed, same]
  rcases c.cache.get c.now (.text key) with err | ⟨_ | rows, k⟩
  · rfl
  · simp only [Connection.queryRequest, known, Connection.homeOf_config]
    rfl
  · rfl

end Execution

namespace Exchange

variable {c : Connection} {b : Builder} {f : Fragment} {text url key : String}

theorem execute_looksUnder
    (named : ∀ n, b.spec.namespaceName = some n → Namespace.IsAccepted n ∧ c.vendor.hasNamespaces)
    (known : (c.homeOf b).queryEndpoint = .ok url)
    (written : ({ b with prefixes := c.prefixes } : Builder).compile = .ok f)
    (bound : f.bound (some c.prefixes) = .ok text) (remembered : b.remembered = true)
    (keyed : (c.homeOf b).cacheKey text .null = .ok key) :
    (execute b (.get [])).LooksUnder c key
      (.ask url (.float c.config.timeout) text Connection.answerType) := by
  -- the cache takes no part in where and how the query is asked
  have home (k : Cache ResultSet) := c.homeOf_withCache b k
  have known' (k : Cache ResultSet) :
      (({ c with cache := k } : Connection).homeOf b).queryEndpoint = .ok url := by
    rw [home]
    exact known
  have keyed' (k : Cache ResultSet) :
      (({ c with cache := k } : Connection).homeOf b).cacheKey text .null = .ok key := by
    rw [home]
    exact keyed
  refine ⟨fun k => ?_, fun k e member => ?_⟩
  · have sends := execute_sends (c := { c with cache := k }) b (.get [])
    rw [Execution.request?_get (c := { c with cache := k }) named (known' k) written bound
      remembered (keyed' k)] at sends
    cases hit : k.atHand c.now key with
    | error err =>
      rw [hit] at sends
      exact sends.2
    | ok hit' =>
      rw [hit] at sends
      cases hit' with
      | none => exact sends.2
      | some rows => exact sends.2
  · have remembers := execute_remembers (c := { c with cache := k }) b (.get [])
    rw [Execution.lookup?_get (c := { c with cache := k }) named (known' k) written bound
      remembered] at remembers
    refine (remembers.entries e member).imp_right ?_
    rintro ⟨l, ⟨⟩, stores⟩
    obtain ⟨key', found, own⟩ := stores.key
    obtain rfl : key' = key := Except.ok.inj (found.symm.trans (keyed' k))
    exact own

end Exchange

theorem Exchange.runOn_cacheKey {c : Connection} {b : Builder} {f : Fragment} {key : String}
    (written : ({ b with prefixes := c.prefixes } : Builder).compile = .ok f)
    (keyed : c.cacheKey f.text (.list f.bindings) = .ok key) :
    (execute b .cacheKey).runOn c = (.ok (.value (.text key)), c) := by
  have plan : Execution.cacheKey.written b c = .ok (some f) := by
    change (({ b with prefixes := c.prefixes } : Builder).compile >>= fun f => pure (some f)) = _
    rw [written]
    rfl
  rw [runOn_execute, plan]
  change ((ask (·.cacheKey f.text (.list f.bindings)) >>= fun key =>
    pure (.value (.text key))) : Exchange Answer).runOn c = _
  rw [runOn_bind, runOn_ask, keyed]
  rfl

/-- The key shown and the key used, for digests that tell the two texts apart. -/
theorem key_of_rows {c : Connection} {b : Builder} {f : Fragment} {text here url : String}
    (named : ∀ n, b.spec.namespaceName = some n → Namespace.IsAccepted n ∧ c.vendor.hasNamespaces)
    (endpoint : c.queryEndpoint = .ok here) (known : (c.homeOf b).queryEndpoint = .ok url)
    (written : ({ b with prefixes := c.prefixes } : Builder).compile = .ok f)
    (bound : f.bound (some c.prefixes) = .ok text) (remembered : b.remembered = true)
    (apart : ∀ t t', c.keyText f.text f.bindings = .ok t → (c.homeOf b).keyText text [] = .ok t' →
      Digest.sha256 t = Digest.sha256 t' → t = t') :
    let get := Exchange.execute b (.get [])
    let r : Request := .ask url (.float c.config.timeout) text Connection.answerType
    ∃ shown used, (Exchange.execute b .cacheKey).runOn c = (.ok (.value (.text shown)), c) ∧
      get.LooksUnder c used r ∧ (shown = used ↔ f.bindings = [] ∧ here = url) ∧
      ∀ k, c.cache.invalidate (.text shown) = .ok k → (get.runOn { c with cache := k }).2.session =
        if f.bindings = [] ∧ here = url then (c.session.send r).2
        else (get.runOn c).2.session := by
  intro get r
  obtain ⟨t, ownText⟩ := c.exists_keyText endpoint f.text f.bindings
  obtain ⟨t', rowsText⟩ := (c.homeOf b).exists_keyText known text []
  have shown : c.cacheKey f.text (.list f.bindings) = .ok (Digest.sha256 t) := by
    rw [Connection.cacheKey_eq_map, ownText]
    rfl
  have used : (c.homeOf b).cacheKey text .null = .ok (Digest.sha256 t') := by
    rw [Connection.cacheKey_null_eq_map, rowsText]
    rfl
  have asked : (Exchange.execute b .cacheKey).runOn c =
      (.ok (.value (.text (Digest.sha256 t))), c) :=
    Exchange.runOn_cacheKey written shown
  have looks : get.LooksUnder c (Digest.sha256 t') r :=
    Exchange.execute_looksUnder named known written bound remembered used
  have same : Digest.sha256 t = Digest.sha256 t' ↔ f.bindings = [] ∧ here = url := by
    have unbound : f.bindings = [] → f.text = text := fun h => by
      rw [Fragment.bound, h] at bound
      exact Except.ok.inj bound
    rw [← Connection.keyText_eq_iff endpoint known c.homeOf_config.symm c.homeOf_vendor.symm
      unbound, ownText, rowsText]
    exact ⟨fun h => congrArg Except.ok (apart t t' ownText rowsText h),
      fun h => congrArg Digest.sha256 (Except.ok.inj h)⟩
  refine ⟨_, _, asked, looks, same, fun k invalidated => ?_⟩
  obtain rfl : c.cache.erase (.text (Digest.sha256 t)) = k := Except.ok.inj invalidated
  rw [looks.sends]
  split_ifs with h
  · rw [same.2 h, Cache.atHand_erase]
  · rw [Cache.atHand_erase_of_ne (mt same.1 h)]
    exact (looks.sends c.cache).symm

def people : Builder :=
  ((Builder.ofConnection hollow).table (.text "foaf:Person")).rememberForever

theorem key_of_rows_people : ∃ f text r shown,
    people.compile = .ok f ∧ f.bound (some hollow.prefixes) = .ok text ∧
    (Exchange.execute people .cacheKey).runOn hollow = (.ok (.value (.text shown)), hollow) ∧
    (Exchange.execute people (.get [])).LooksUnder hollow shown r ∧
    ∀ k, hollow.cache.invalidate (.text shown) = .ok k →
      ((Exchange.execute people (.get [])).runOn { hollow with cache := k }).2.session =
        (hollow.session.send r).2 := by
  have written : people.compile.toOption.any fun f => f.bindings.isEmpty := by decide +kernel
  obtain ⟨f, compiled, unbound⟩ : ∃ f, people.compile = .ok f ∧ f.bindings = [] := by
    cases h : people.compile with
    | error e => simp [h, Except.toOption] at written
    | ok f => exact ⟨f, rfl, by simpa [h, Except.toOption] using written⟩
  have bound : f.bound (some hollow.prefixes) = .ok f.text := by
    rw [Fragment.bound, unbound]
    rfl
  have apart : ∀ t t', hollow.keyText f.text f.bindings = .ok t →
      (hollow.homeOf people).keyText f.text [] = .ok t' →
      Digest.sha256 t = Digest.sha256 t' → t = t' := by
    intro t t' h h' _
    rw [unbound] at h
    exact Except.ok.inj (h.symm.trans h')
  obtain ⟨shown, used, asked, looks, same, behind⟩ :=
    key_of_rows (c := hollow) (b := people) (by rintro n ⟨⟩) rfl rfl compiled bound rfl apart
  obtain rfl := same.2 ⟨unbound, rfl⟩
  refine ⟨f, f.text, _, shown, compiled, bound, asked, looks, fun k invalidated => ?_⟩
  rw [behind k invalidated, if_pos ⟨unbound, rfl⟩]

def Exchange.refreshed (b : Builder) : Exchange Answer := do
  let _ ← execute b (.get [])
  match ← execute b .cacheKey with
  | .value key => do
    let cache ← ask fun c => c.cache.invalidate key
    modify ({ · with cache := cache })
    execute b (.get [])
  | answer => return answer

def valued : Builder :=
  ((Builder.ofConnection hollow).add (.raw ⟨"?s ?p ? .", [.text "Al"]⟩)).rememberForever

/-- The second answer still comes without a request. -/
theorem exists_unsent_of_refreshed : valued.remembered = true ∧
    ∃ answer d, (Exchange.refreshed valued).runOn hollow = (.ok answer, d) ∧
      d.session.sent.length = 1 := by
  have ran : (match (Exchange.refreshed valued).runOn hollow with
      | (.ok _, d) => d.session.sent.length == 1
      | (.error _, _) => false) = true := by
    decide +kernel
  refine ⟨rfl, ?_⟩
  split at ran
  case h_1 answer d run => exact ⟨answer, d, run, by simpa using ran⟩
  case h_2 => cases ran

end SparqlClient
