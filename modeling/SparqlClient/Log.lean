import SparqlClient.Json.Writer
import SparqlClient.Text.LetterCase
import SparqlClient.Text.Octets

/-! Events of the traffic with a store, one JSON object on a line. Before anything is written,
credentials in URLs, passwords, the queries of URLs and long tokens are taken out of every text,
and details beyond a budget of octets are cut to a preview. -/

namespace SparqlClient.Log

open Text

/-- Replaces pieces of a text from left to right: where `step` knows a piece it gives the new text and the
rest, and all other characters stay. The fuel is the length of the text. -/
def replacing (step : List Char → Option (List Char × List Char)) :
    (fuel : Nat) → List Char → List Char
  | 0, s => s
  | fuel + 1, s =>
    match step s with
    | some (new, rest) => new ++ replacing step fuel rest
    | none => match s with
      | [] => []
      | c :: t => c :: replacing step fuel t

def redacted : List Char := "[redacted]".toList

def webScheme? (s : List Char) : Option (List Char × List Char) :=
  ((after? ['h', 't', 't', 'p', ':', '/', '/'] s).map fun r => ("http://".toList, r)).or
    ((after? ['h', 't', 't', 'p', 's', ':', '/', '/'] s).map fun r => ("https://".toList, r))

def isUserChar (c : Char) : Bool := !(c = '/' || c = ':' || c = '@' || isBlank c)

def isPasswordChar (c : Char) : Bool := !(c = '/' || c = '@' || isBlank c)

def userInfo? (s : List Char) : Option (List Char × List Char) :=
  (webScheme? s).bind fun (scheme, rest) =>
    if (rest.takeWhile isUserChar).isEmpty then none
    else match rest.dropWhile isUserChar with
      | '@' :: t => some (scheme ++ redacted ++ ['@'], t)
      | ':' :: t => match t.dropWhile isPasswordChar with
        | '@' :: u => some (scheme ++ redacted ++ ['@'], u)
        | _ => none
      | _ => none

def secretWords : List (List Char) :=
  [['p', 'a', 's', 's', 'w', 'o', 'r', 'd'], ['p', 'a', 's', 's', 'w', 'd'],
    ['s', 'e', 'c', 'r', 'e', 't']]

def isSecretChar (c : Char) : Bool := !(c = '&' || isBlank c)

def secret? (s : List Char) : Option (List Char × List Char) :=
  secretWords.findSome? fun w => match afterWord? w s with
    | some ('=' :: t) =>
      if (t.takeWhile isSecretChar).isEmpty then none
      else some (s.take w.length ++ '=' :: redacted, t.dropWhile isSecretChar)
    | _ => none

def urlQuery? (s : List Char) : Option (List Char × List Char) :=
  (webScheme? s).bind fun (scheme, rest) =>
    let path := rest.takeWhile fun c => !(c = '?' || isBlank c)
    if path.isEmpty then none
    else match rest.drop path.length with
      | '?' :: query =>
        if (query.takeWhile (!isBlank ·)).isEmpty then none
        else some (scheme ++ path, query.dropWhile (!isBlank ·))
      | _ => none

def isTokenChar (c : Char) : Bool := isLatin c || c.isDigit || c = '-' || c = '_' || c = '='

def longRun? (s : List Char) : Option (List Char × List Char) :=
  if 32 ≤ (s.takeWhile isTokenChar).length then some (redacted, s.dropWhile isTokenChar) else none

def bearerWord : List Char := ['b', 'e', 'a', 'r', 'e', 'r']

def token? (s : List Char) : Option (List Char × List Char) :=
  ((afterWord? bearerWord s).bind fun rest =>
    if (rest.takeWhile isBlank).isEmpty then none else longRun? (rest.dropWhile isBlank)).or
    (longRun? s)

def scrubChars (s : List Char) : List Char :=
  let pass (step : List Char → Option (List Char × List Char)) (s : List Char) : List Char :=
    replacing step s.length s
  pass token? (pass urlQuery? (pass secret? (pass userInfo? s)))

def scrub (s : String) : String := String.ofList (scrubChars s.toList)

mutual

/-- Texts are scrubbed; a mapping loses its entries without a value. -/
def sanitize : Value → Value
  | .null => .null
  | .bool b => .bool b
  | .int n => .int n
  | .float x => .float x
  | .list items => .list (sanitizeAll items)
  | .map entries => .map (sanitizeEntries [] entries)
  | v => .text (scrub v.plainText)

def sanitizeAll : List Value → List Value
  | [] => []
  | v :: vs => sanitize v :: sanitizeAll vs

def sanitizeEntries (done : Entries) : List (Value × Value) → Entries
  | [] => done
  | (k, v) :: es =>
    sanitizeEntries (if v.isNull then done else done.insert (.text k.plainText) (sanitize v)) es

end

def preview (text : String) : Value :=
  .map [(.text "note", .text "truncated"), (.text "preview", .text text)]

/-- The text of details is cut at the budget, and what is left of the character there is dropped.
Without a budget everything is kept. -/
def truncate (budget : Nat) (details : Value) : Outcome Value :=
  if budget = 0 then .ok details
  else do
    let text ← Json.write .sortedKeys 0 details
    let form := octets text.toList
    if form.length ≤ budget then return details
    else return preview (String.ofList (characters 0 (form.take budget)))

inductive Level
  | debug | info | warning | error | critical
  deriving DecidableEq

namespace Level

def word : Level → String
  | .debug => "DEBUG"
  | .info => "INFO"
  | .warning => "WARNING"
  | .error => "ERROR"
  | .critical => "CRITICAL"

def rank : Level → Nat
  | .debug => 0
  | .info => 1
  | .warning => 2
  | .error => 3
  | .critical => 4

def all : List Level := [.debug, .info, .warning, .error, .critical]

end Level

structure Logger where
  service : String
  threshold : Level
  budget : Nat

def Logger.make (service : String) (threshold : Level) (budget : Value) : Outcome Logger :=
  budget.whole.map fun n => ⟨service, threshold, n.toNat⟩

def mainFields : List String := ["vendor", "method", "latency_ms", "status"]

def field (name : String) (v : Value) : Entries := if v.isNull then [] else [(.text name, v)]

def Logger.entry (l : Logger) (level : Level) (event : String) (fields : Entries) :
    Outcome Value := do
  let main := mainFields.flatMap fun n => field n (fields.get n)
  let url := fields.get "url"
  let url := if url.isNull then [] else [(Value.text "url", Value.text (scrub url.plainText))]
  let rest := ("url" :: mainFields).foldl Entries.erase fields
  let details ← if rest.isEmpty then pure []
    else do pure [(Value.text "details", ← truncate l.budget (sanitize (.map rest)))]
  return .map ([(.text "level", .text level.word), (.text "service", .text l.service),
    (.text "event", .text event)] ++ main ++ url ++ details)

def line (time : String) (entry : Value) : Outcome String := do
  Json.write .sortedKeys 0 (.map ((.text "ts", .text time) :: (← entry.fields)))

/-- The names under which an event and its logger are known; no field can have them. -/
def takenNames : List String := ["event", "self"]

def isFree : Value → Bool
  | .text s => !takenNames.contains s
  | _ => false

/-- An event below the threshold is not written. Only a threshold can be critical, no event. -/
def Logger.emit (l : Logger) (time : String) (level : Level) (event : String)
    (fields : Entries) : Outcome (Option (Value × String)) := do
  if level = .critical then Misuse.fail .noMember
  else if !fields.all (isFree ·.1) then Misuse.fail .wrongType
  else if level.rank < l.threshold.rank then return none
  else
    let e ← l.entry level event fields
    return some (e, ← line time e)

end SparqlClient.Log
