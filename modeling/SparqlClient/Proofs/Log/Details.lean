import SparqlClient.Log
import SparqlClient.Proofs.Json.Compact
import SparqlClient.Proofs.Text.Octets

/-! The details of an event. Whatever its fields hold, what is left after scrubbing is plain and has
a compact text in JSON, so every event has an entry. Main statement: details whose text fits the
budget are logged as they are, and of others the longest beginning of the text that fits. -/

namespace SparqlClient

theorem Entries.get_append {es fs : Entries} {s : String}
    (other : ∀ e ∈ es, ¬e.1.sameKey (.text s)) : Entries.get (es ++ fs) s = fs.get s := by
  induction es with
  | nil => rfl
  | cons e es ih =>
    rw [List.forall_mem_cons] at other
    rw [List.cons_append]
    exact (Entries.get_cons_of_other other.1 _).trans (ih other.2)

namespace Json

theorem exists_insert_named (ms : List (String × Value)) (s : String) (v : Value) :
    ∃ ns, (named ms).insert (.text s) v = named ns ∧ (∀ n ∈ ns, n ∈ ms ∨ n = (s, v)) ∧
      ((ms.map Prod.fst).Nodup → (ns.map Prod.fst).Nodup) := by
  induction ms with
  | nil => exact ⟨[(s, v)], rfl, by simp, by simp⟩
  | cons m ms ih =>
    obtain ⟨k, w⟩ := m
    change ∃ ns, Entries.insert ((.text k, w) :: named ms) (.text s) v = named ns ∧ _
    rw [Entries.insert]
    by_cases same : (Value.text k).sameKey (.text s)
    · obtain rfl : k = s := Value.text.inj (Value.sameKey_text_iff.1 same)
      refine ⟨(k, v) :: ms, if_pos same, ?_, fun distinct => distinct⟩
      intro n hn
      rcases List.mem_cons.1 hn with rfl | hn
      · exact .inr rfl
      · exact .inl (List.mem_cons_of_mem _ hn)
    · obtain ⟨ns, put, from_both, kept⟩ := ih
      refine ⟨(k, w) :: ns, ?_, ?_, fun distinct => ?_⟩
      · rw [if_neg same, put]
        rfl
      · intro n hn
        rcases List.mem_cons.1 hn with rfl | hn
        · exact .inl List.mem_cons_self
        · exact (from_both n hn).imp_left (List.mem_cons_of_mem _)
      · rw [List.map_cons, List.nodup_cons] at distinct ⊢
        refine ⟨fun member => ?_, kept distinct.2⟩
        obtain ⟨n, hn, own⟩ := List.mem_map.1 member
        rcases from_both n hn with old | rfl
        · exact distinct.1 (List.mem_map.2 ⟨n, old, own⟩)
        · exact same (Value.sameKey_text_iff.2 (congrArg _ own.symm))

theorem Plain.insert {es : Entries} (h : Plain (.map es)) (s : String) {v : Value} (hv : Plain v) :
    Plain (.map (es.insert (.text s) v)) := by
  cases h with
  | @map ms distinct values =>
    obtain ⟨ns, put, from_both, kept⟩ := exists_insert_named ms s v
    rw [put]
    refine .map (kept distinct) fun n hn => ?_
    rcases from_both n hn with old | rfl
    · exact values n old
    · exact hv

end Json

namespace Log

open Json Text

mutual

theorem plain_sanitize (v : Value) : Plain (sanitize v) := by
  cases v with
  | null => rw [sanitize]; exact .null
  | bool b => rw [sanitize]; exact .bool b
  | int n => rw [sanitize]; exact .int n
  | float x => rw [sanitize]; exact .float x
  | list items =>
    rw [sanitize]
    exact .list (plain_sanitizeAll items)
  | map entries =>
    rw [sanitize]
    have nothing : Plain (.map (named [])) := .map (by simp) (by simp)
    exact plain_sanitizeEntries nothing entries
  | _ => simpa only [sanitize] using Plain.text _

theorem plain_sanitizeAll (vs : List Value) : ∀ v ∈ sanitizeAll vs, Plain v := by
  match vs with
  | [] => simp [sanitizeAll]
  | v :: vs =>
    rw [sanitizeAll, List.forall_mem_cons]
    exact ⟨plain_sanitize v, plain_sanitizeAll vs⟩

theorem plain_sanitizeEntries {done : Entries} (h : Plain (.map done))
    (es : List (Value × Value)) : Plain (.map (sanitizeEntries done es)) := by
  match es with
  | [] => rwa [sanitizeEntries]
  | (k, v) :: es =>
    rw [sanitizeEntries]
    refine plain_sanitizeEntries ?_ es
    split
    · exact h
    · exact h.insert _ (plain_sanitize v)

end

/-- What a budget of octets leaves of details with a text. -/
structure Logs (budget : Nat) (details : Value) (text : String) (logged : Value) : Prop where
  whole : (octets text.toList).length ≤ budget → logged = details
  cut : budget < (octets text.toList).length →
    ∃ front, logged = preview (String.ofList front) ∧ IsLongest budget text.toList front

theorem truncate_eq {budget : Nat} (limited : 0 < budget) {v : Value} {text : String}
    (written : write .sortedKeys 0 v = .ok text) : truncate budget v =
      if (octets text.toList).length ≤ budget then .ok v
      else .ok (preview (String.ofList (characters 0 ((octets text.toList).take budget)))) := by
  rw [truncate, if_neg limited.ne', written]
  rfl

theorem exists_logs {budget : Nat} (limited : 0 < budget) {v : Value} (plain : Plain v) :
    ∃ text logged, Compact v text ∧ truncate budget v = .ok logged ∧ Logs budget v text logged := by
  obtain ⟨text, written, compact⟩ := plain.exists_compact
  have unfolded := truncate_eq limited (written 0)
  by_cases fits : (octets text.toList).length ≤ budget
  · exact ⟨text, v, compact, unfolded.trans (if_pos fits), fun _ => rfl,
      fun long => absurd fits long.not_ge⟩
  · exact ⟨text, _, compact, unfolded.trans (if_neg fits), fun short => absurd short fits,
      fun _ => ⟨_, rfl, isLongest_characters budget text.toList⟩⟩

theorem exists_truncate (budget : Nat) {v : Value} (plain : Plain v) :
    ∃ logged, truncate budget v = .ok logged := by
  rcases Nat.eq_zero_or_pos budget with rfl | limited
  · exact ⟨v, rfl⟩
  · obtain ⟨-, logged, -, kept, -⟩ := exists_logs limited plain
    exact ⟨logged, kept⟩

theorem key_of_mem_field {name : String} {v : Value} {e : Value × Value} (h : e ∈ field name v) :
    e.1 = .text name := by
  unfold field at h
  split at h
  · cases h
  · rw [List.mem_singleton.1 h]

/-- The fields that are details: all but those with a place of their own in an entry. -/
def detailFields (fields : Entries) : Entries := ("url" :: mainFields).foldl Entries.erase fields

namespace Logger

variable (l : Logger) (level : Level) (event : String) (fields : Entries)

def front : Entries :=
  let url := fields.get "url"
  [(.text "level", .text level.word), (.text "service", .text l.service),
    (.text "event", .text event)] ++ (mainFields.flatMap fun n => field n (fields.get n)) ++
    if url.isNull then [] else [(Value.text "url", Value.text (scrub url.plainText))]

theorem entry_eq : l.entry level event fields = do
    let details ← if (detailFields fields).isEmpty then pure [] else do
      pure [(Value.text "details", ← truncate l.budget (sanitize (.map (detailFields fields))))]
    return .map (l.front level event fields ++ details) := rfl

theorem other_of_mem_front {e : Value × Value} (h : e ∈ l.front level event fields) :
    ¬e.1.sameKey (.text "details") := by
  have names : ∀ n ∈ ["level", "service", "event", "url"] ++ mainFields, n ≠ "details" := by decide
  obtain ⟨n, known, own⟩ : ∃ n ∈ ["level", "service", "event", "url"] ++ mainFields,
      e.1 = .text n := by
    simp only [front, List.mem_append] at h
    rcases h with (first | main) | url
    · simp only [List.mem_cons, List.not_mem_nil, or_false] at first
      rcases first with rfl | rfl | rfl <;> exact ⟨_, by decide, rfl⟩
    · obtain ⟨n, known, own⟩ := List.mem_flatMap.1 main
      exact ⟨n, List.mem_append_right _ known, key_of_mem_field own⟩
    · split at url
      · cases url
      · exact ⟨"url", by decide, by rw [List.mem_singleton.1 url]⟩
  rw [own, Value.sameKey_text_iff]
  exact fun same => names n known (Value.text.inj same)

theorem get_details {logged : Value} (filled : detailFields fields ≠ [])
    (kept : truncate l.budget (sanitize (.map (detailFields fields))) = .ok logged) :
    ∃ es, l.entry level event fields = .ok (.map es) ∧ Entries.get es "details" = logged := by
  have some_field : (detailFields fields).isEmpty = false := by simpa using filled
  refine ⟨l.front level event fields ++ [(.text "details", logged)], ?_, ?_⟩
  · rw [entry_eq, some_field, kept]
    rfl
  · rw [Entries.get_append fun e he => l.other_of_mem_front level event fields he]
    exact Entries.get_cons_of_same (Value.sameKey_text_iff.2 rfl) []

theorem entry_eq_ok : ∃ e, l.entry level event fields = .ok e := by
  rw [entry_eq]
  split
  · exact ⟨_, rfl⟩
  · obtain ⟨d, kept⟩ := exists_truncate l.budget (plain_sanitize (.map (detailFields fields)))
    rw [kept]
    exact ⟨_, rfl⟩

/-- Details whose text fits the budget are logged as they are, and of others the longest beginning
of the text that fits. The text is the compact one of what is left after scrubbing. -/
theorem logged_of_details (limited : 0 < l.budget) (v : Value) : ∃ text logged,
    (∀ s, Compact (sanitize v) s ↔ s = text) ∧ truncate l.budget (sanitize v) = .ok logged ∧
    Logs l.budget (sanitize v) text logged ∧
    ∀ level event fields, v = .map (detailFields fields) → detailFields fields ≠ [] →
      ∃ es, l.entry level event fields = .ok (.map es) ∧ Entries.get es "details" = logged := by
  obtain ⟨text, logged, compact, kept, logs⟩ := exists_logs limited (plain_sanitize v)
  refine ⟨text, logged, fun s => ⟨fun other => other.unique compact, ?_⟩, kept, logs, ?_⟩
  · rintro rfl
    exact compact
  · rintro level event fields rfl filled
    exact l.get_details level event fields filled kept

def narrow : Logger := ⟨"store", .debug, 9⟩

def accented : Entries := [(.text "a", .text "éé")]

theorem logged_of_details_accented : 0 < narrow.budget ∧ detailFields accented ≠ [] ∧
    ∃ text, (∀ s, Compact (sanitize (.map accented)) s ↔ s = text) ∧
      truncate narrow.budget (sanitize (.map accented)) = .ok (preview "\x7b\"a\":\"é") ∧
      Logs narrow.budget (sanitize (.map accented)) text (preview "\x7b\"a\":\"é") ∧
      ∃ es, narrow.entry .info "query" accented = .ok (.map es) ∧
        Entries.get es "details" = preview "\x7b\"a\":\"é" := by
  have limited : 0 < narrow.budget := by decide
  have filled : detailFields accented ≠ [] := by decide
  have written : write .sortedKeys 0 (.map accented) = .ok "\x7b\"a\":\"éé\"\x7d" := by
    have members : writeEntries .sortedKeys 1 accented = .ok [("a", string "éé")] := rfl
    have order : arranged .sortedKeys [("a", string "éé")] = [("a", string "éé")] :=
      List.mergeSort_singleton _
    rw [write, members, Except.map, order]
    rfl
  have cut : truncate narrow.budget (sanitize (.map accented)) =
      .ok (preview "\x7b\"a\":\"é") := by
    have clean : sanitize (.map accented) = .map accented := rfl
    rw [clean, truncate_eq limited written]
    rfl
  obtain ⟨text, logged, own, kept, logs, entry⟩ := narrow.logged_of_details limited (.map accented)
  obtain rfl := Except.ok.inj (cut.symm.trans kept)
  exact ⟨limited, filled, text, own, kept, logs, entry .info "query" accented rfl filled⟩

end Logger

end Log

end SparqlClient
