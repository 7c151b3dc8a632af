import SparqlClient.Proofs.Failure.Exchange
import SparqlClient.Proofs.Log.Details

/-! Runs of exchanges, step by step. A sequence of steps runs one after the other until one fails;
an event can always be recorded; and a connection is steady as long as nothing but its session, its
remembered results and its events change. -/

namespace SparqlClient

namespace Exchange

/-- What an exchange comes to on a connection, and the connection afterwards. -/
def runOn {α : Type} (m : Exchange α) (c : Connection) : Outcome α × Connection := ExceptT.run m c

variable {α β : Type} {c d : Connection} {m : Exchange α} {f : α → Exchange β}

theorem runOn_bind (m : Exchange α) (f : α → Exchange β) :
    (m >>= f).runOn c = match m.runOn c with
      | (.ok a, d) => (f a).runOn d
      | (.error e, d) => (.error e, d) := by
  have ran : (m >>= f).runOn c = (ExceptT.bindCont f (m.runOn c).1) (m.runOn c).2 := rfl
  rw [ran]
  cases m.runOn c with
  | mk r d => cases r <;> rfl

theorem runOn_bind_ok {b : β} (h : (m >>= f).runOn c = (.ok b, d)) :
    ∃ a e, m.runOn c = (.ok a, e) ∧ (f a).runOn e = (.ok b, d) := by
  rw [runOn_bind] at h
  cases ran : m.runOn c with
  | mk r e =>
    rw [ran] at h
    cases r with
    | error err => cases h
    | ok a => exact ⟨a, e, rfl, h⟩

theorem runOn_bind_of_error {e : Error}
    (h : (m.runOn c).1 = .error e) : ((m >>= f).runOn c).1 = .error e := by
  rw [runOn_bind]
  cases ran : m.runOn c with
  | mk r d =>
    rw [ran] at h
    obtain rfl : r = .error e := h
    rfl

theorem runOn_lift (x : Outcome α) : (liftM x : Exchange α).runOn c = (x, c) := by
  cases x <;> rfl

theorem runOn_get : (get : Exchange Connection).runOn c = (.ok c, c) := rfl

theorem runOn_modify (f : Connection → Connection) :
    (modify f : Exchange PUnit).runOn c = (.ok (), f c) := rfl

theorem runOn_ask (f : Connection → Outcome α) : (ask f).runOn c = (f c, c) := by
  rw [ask, runOn_bind, runOn_get]
  exact runOn_lift (f c)

theorem runOn_send (r : Request) : (send r).runOn c =
    (.ok (c.session.send r).1, { c with session := (c.session.send r).2 }) := rfl

theorem runOn_record (level : Log.Level) (event : String) (fields : Entries) :
    ∃ e, (record level event fields).runOn c = (.ok (), { c with events := c.events ++ [e] }) := by
  obtain ⟨e, entry⟩ := logger.entry_eq_ok level event fields
  exact ⟨e, by rw [record, entry]; rfl⟩

theorem runOn_exchange (name : String) (r : Request) (extra : Connection → String → Entries) :
    ∃ events, (exchange name r extra).runOn c = (match (c.session.send r).1 with
      | .failed cause message =>
        .error (.protocol (Admin.failure c.vendor r.url message none (some cause)))
      | .answered status body => .ok (status, body),
      { c with session := (c.session.send r).2, events := events }) := by
  obtain ⟨e, recorded⟩ := runOn_record (c := c) .info (name ++ ".request") (common c r)
  unfold exchange
  rw [runOn_bind, runOn_get]
  simp only
  rw [runOn_bind, recorded]
  simp only
  rw [runOn_bind, runOn_send]
  simp only
  cases (c.session.send r).1 with
  | failed cause message =>
    obtain ⟨e', again⟩ := runOn_record
      (c := { c with session := (c.session.send r).2, events := c.events ++ [e] }) .error
      (name ++ ".error") (common c r ++ [(.text "error", .text message)])
    exact ⟨c.events ++ [e] ++ [e'], by rw [runOn_bind, again]; rfl⟩
  | answered status body =>
    obtain ⟨e', again⟩ := runOn_record
      (c := { c with session := (c.session.send r).2, events := c.events ++ [e] }) .info
      (name ++ ".response") (common c r ++ [(.text "status", .int status)] ++ extra c body)
    exact ⟨c.events ++ [e] ++ [e'], by rw [runOn_bind, again]; rfl⟩

end Exchange

end SparqlClient
