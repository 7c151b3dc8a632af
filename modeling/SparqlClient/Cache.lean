import SparqlClient.Digest
import SparqlClient.Json.Writer
import SparqlClient.Seconds

/-! Results kept for a time. Entries stand in the order in which they were last set; the oldest
makes room for a new one. An entry whose time has passed keeps its place until it is read, set
again, invalidated or pushed out. While a value is made for a key, the key is locked. -/

namespace SparqlClient

def cacheKey (identity text : Value) (bindings : Value) : Outcome String := do
  let values ← if bindings.truth then bindings.members else pure []
  let shown := values.map fun v => Value.text v.display
  return Digest.sha256 (← Json.write .compact 0 (.list [identity, text, .list shown]))

structure Stored (α : Type) where
  key : Value
  expires : Option Seconds
  value : α

structure Cache (α : Type) where
  capacity : Nat
  entries : List (Stored α)
  locks : List Value

namespace Cache

variable {α : Type}

def make (capacity : Value) : Outcome (Cache α) :=
  capacity.whole.map fun n => ⟨(max 1 n).toNat, [], []⟩

def standard : Cache α := ⟨1024, [], []⟩

def size (c : Cache α) : Nat := c.entries.length

def find? (c : Cache α) (key : Value) : Option (Stored α) :=
  c.entries.find? (·.key.sameKey key)

def erase (c : Cache α) (key : Value) : Cache α :=
  { c with entries := c.entries.filter (!·.key.sameKey key) }

def clear (c : Cache α) : Cache α := { c with entries := [] }

def invalidate (c : Cache α) (key : Value) : Outcome (Cache α) :=
  if key.isNull then .ok c.clear else key.checkedKey.map c.erase

def Stored.isExpired (now : Seconds) (e : Stored α) : Outcome Bool :=
  match e.expires with
  | none => .ok false
  | some t => t.lt now

def get (c : Cache α) (now : Seconds) (key : Value) : Outcome (Option α × Cache α) := do
  match c.find? (← key.checkedKey) with
  | none => return (none, c)
  | some e => return if ← Stored.isExpired now e then (none, c.erase key) else (some e.value, c)

def trimmed (c : Cache α) : Cache α :=
  { c with entries := c.entries.drop (c.entries.length - c.capacity) }

def put (c : Cache α) (e : Stored α) : Cache α :=
  trimmed { c.erase e.key with entries := (c.erase e.key).entries ++ [e] }

def set (c : Cache α) (now : Seconds) (key : Value) (value : α) (time : Value) :
    Outcome (Cache α) := do
  let expires ← match ← Seconds.limit? time with
    | none => pure none
    | some t => (now.add t).map some
  return c.put ⟨← key.checkedKey, expires, value⟩

def lock (c : Cache α) (key : Value) : Cache α :=
  if c.locks.any (·.sameKey key) then c else { c with locks := c.locks ++ [key] }

def unlock (c : Cache α) (key : Value) : Cache α :=
  { c with locks := c.locks.filter (!·.sameKey key) }

def look (c : Cache α) (now : Seconds) (key : Value) (counts : α → Bool) :
    Outcome (Option α) × Cache α :=
  match c.get now key with
  | .error e => (.error e, c)
  | .ok (found, c) => (.ok (found.filter counts), c)

section

variable {ω : Type} (clock : ω → Seconds) (counts : α → Bool) (key time : Value)
  (make : ω → Outcome α × ω) (c : Cache α) (w : ω)

/-- A value that has come to hand in the meantime, or a new one, which is kept for a time from when
it is there. A value that cannot be made leaves nothing behind. -/
def produce : Outcome (α × Bool) × Cache α × ω :=
  match c.look (clock w) key counts with
  | (.error e, c) => (.error e, c, w)
  | (.ok (some v), c) => (.ok (v, true), c, w)
  | (.ok none, c) => match make w with
    | (.error e, w) => (.error e, c, w)
    | (.ok v, w) => match c.set (clock w) key v time with
      | .error e => (.error e, c, w)
      | .ok c => (.ok (v, false), c, w)

/-- The value at hand, or a new one that is made under a lock of its key. Making it may take time
and have effects of its own. -/
def rememberWith : Outcome (α × Bool) × Cache α × ω :=
  match c.look (clock w) key counts with
  | (.error e, c) => (.error e, c, w)
  | (.ok (some v), c) => (.ok (v, true), c, w)
  | (.ok none, c) =>
    let (result, c, w) := produce clock counts key time make (c.lock key) w
    (result, c.unlock key, w)

end

def remember (c : Cache α) (now : Seconds) (key time : Value) (counts : α → Bool)
    (make : Outcome α) : Outcome (α × Bool) × Cache α :=
  let (result, c, _) := rememberWith (fun _ : Unit => now) counts key time (fun w => (make, w)) c ()
  (result, c)

@[simp] theorem find?_clear (c : Cache α) (key : Value) : c.clear.find? key = none := rfl

theorem find?_erase (c : Cache α) (key : Value) : (c.erase key).find? key = none := by
  simp [find?, erase]

theorem size_put_le (c : Cache α) (e : Stored α) : (c.put e).size ≤ c.capacity := by
  simp [put, trimmed, size, erase]
  omega

end Cache

end SparqlClient
