import SparqlClient.Proofs.Connection.Calls
import SparqlClient.Proofs.Json.Strings

/-! The text under the digest of a key. It gives away who asks, what is asked and whether there are
values; so on connections with the same settings to the same kind of store it gives away the
endpoint. -/

namespace SparqlClient

namespace Connection

/-- What is asked, with which values, and by whom, as the digest of a key takes it. -/
def keyText (c : Connection) (text : String) (values : List Value) : Outcome String := do
  Json.write .compact 0 (.list [.text (← c.identity), .text text,
    .list (values.map fun v => .text v.display)])

def shownValues (values : List Value) : String :=
  Json.bracketed .compact 1 "[" "]" (values.map fun v => Json.string v.display)

theorem writeAll_texts (st : Json.Style) (depth : ℕ) (values : List Value) :
    Json.writeAll st depth (values.map fun v => .text v.display) =
      .ok (values.map fun v => Json.string v.display) := by
  induction values with
  | nil => rfl
  | cons v values ih =>
    rw [List.map_cons, Json.writeAll, ih]
    rfl

theorem shownValues_eq_nil_iff {values : List Value} :
    shownValues values = shownValues [] ↔ values = [] := by
  refine ⟨fun h => ?_, fun h => by rw [h]⟩
  cases values with
  | nil => rfl
  | cons v values =>
    have same := congrArg String.toList h
    simp [shownValues, Json.bracketed, Json.Style.compact, Json.Style.line, Json.string] at same

variable {c d : Connection} {text text' url url' t : String} {values values' : List Value}

theorem cacheKey_eq_map (values : List Value) :
    c.cacheKey text (.list values) = (c.keyText text values).map Digest.sha256 := by
  unfold cacheKey keyText SparqlClient.cacheKey
  cases c.identity with
  | error e => rfl
  | ok identity => cases values <;> rfl

theorem cacheKey_null_eq_map : c.cacheKey text .null = (c.keyText text []).map Digest.sha256 := by
  unfold cacheKey keyText SparqlClient.cacheKey
  cases c.identity <;> rfl

theorem keyText_eq_map : c.keyText text values = c.identity.map fun identity =>
    "[" ++ Json.string identity ++ "," ++ Json.string text ++ "," ++ shownValues values ++ "]" := by
  unfold keyText
  cases c.identity with
  | error e => rfl
  | ok identity =>
    have written : Json.write .compact 0 (.list [.text identity, .text text,
        .list (values.map fun v => .text v.display)]) =
        .ok ("[" ++ Json.string identity ++ "," ++ Json.string text ++ "," ++
          shownValues values ++ "]") := by
      simp only [Json.write, Json.writeAll, writeAll_texts, bind, Except.bind, pure, Except.pure,
        Except.map]
      refine congrArg Except.ok (String.toList_inj.1 ?_)
      simp [Json.bracketed, Json.Style.compact, Json.Style.line, shownValues]
    exact written

theorem exists_keyText (known : c.queryEndpoint = .ok url) (text : String) (values : List Value) :
    ∃ t, c.keyText text values = .ok t := by
  rw [keyText_eq_map, identity, known]
  exact ⟨_, rfl⟩

/-- A string in quotes ends where it says. -/
theorem keyText_inj (h : c.keyText text values = .ok t) (h' : d.keyText text' values' = .ok t) :
    c.identity = d.identity ∧ text = text' ∧ shownValues values = shownValues values' := by
  rw [keyText_eq_map] at h h'
  obtain ⟨asker, known, written⟩ := Outcome.map_eq_ok_iff.1 h
  obtain ⟨asker', known', written'⟩ := Outcome.map_eq_ok_iff.1 h'
  have same := congrArg String.toList (written.trans written'.symm)
  simp only [String.toList_append, List.append_assoc] at same
  obtain ⟨askers, rest⟩ := Json.string_append_inj (List.append_cancel_left same)
  obtain ⟨texts, rest⟩ := Json.string_append_inj (List.append_cancel_left rest)
  have shown := List.append_cancel_right (List.append_cancel_left rest)
  exact ⟨by rw [known, known', askers], texts, String.toList_inj.1 shown⟩

theorem identity_eq_iff (known : c.queryEndpoint = .ok url) (known' : d.queryEndpoint = .ok url')
    (config : c.config = d.config) (vendor : c.vendor = d.vendor) :
    c.identity = d.identity ↔ url = url' := by
  unfold identity
  rw [known, known', config, vendor]
  refine ⟨fun same => ?_, fun same => by rw [same]⟩
  have urls := congrArg String.toList (Except.ok.inj same)
  simp only [String.toList_append, List.append_assoc] at urls
  have behind := List.append_cancel_left (List.append_cancel_left urls)
  simp only [← List.append_assoc] at behind
  exact String.toList_inj.1 (List.append_cancel_right (List.append_cancel_right behind))

end Connection

namespace Lookup

def keyText (l : Lookup) : Outcome String := do
  Json.write .compact 0 (.list [.text (← l.place.identity), .text l.text, .list []])

theorem keyText_eq (l : Lookup) : l.keyText = l.place.keyText l.text [] := rfl

theorem key_eq_map (l : Lookup) : l.key = l.keyText.map Digest.sha256 :=
  Connection.cacheKey_null_eq_map

theorem keyText_inj {l l' : Lookup} {text : String} (h : l.keyText = .ok text)
    (h' : l'.keyText = .ok text) (config : l.place.config = l'.place.config)
    (vendor : l.place.vendor = l'.place.vendor) :
    l.place.queryEndpoint = l'.place.queryEndpoint ∧ l.text = l'.text := by
  rw [keyText_eq] at h h'
  have endpoint {c : Connection} {text t : String} (h : c.keyText text [] = .ok t) :
      ∃ url, c.queryEndpoint = .ok url := by
    rw [Connection.keyText_eq_map] at h
    obtain ⟨asker, known, -⟩ := Outcome.map_eq_ok_iff.1 h
    obtain ⟨url, known, -⟩ := Outcome.bind_eq_ok_iff.1 known
    exact ⟨url, known⟩
  obtain ⟨url, known⟩ := endpoint h
  obtain ⟨url', known'⟩ := endpoint h'
  obtain ⟨askers, texts, -⟩ := Connection.keyText_inj h h'
  exact ⟨by rw [known, known', (Connection.identity_eq_iff known known' config vendor).1 askers],
    texts⟩

end Lookup

end SparqlClient
