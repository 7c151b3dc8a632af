import SparqlClient.Text.Pieces
import SparqlClient.Text.Word

/-! Control sequences of terminals in a text. A sequence of the general form has parameters,
intermediate signs and a final sign, and shows nothing; a link shows its text. On a line that is
printed elsewhere than on a terminal only the sequences that end with a letter are left out. -/

namespace SparqlClient.Text.Control

def within (low high : Nat) (c : Char) : Bool := low ≤ c.toNat && c.toNat ≤ high

/-- What follows a sequence of the general form. -/
def afterGeneral? (s : List Char) : Option (List Char) := do
  let s ← after? ['\x1b', '['] s
  match (s.dropWhile (within 0x30 0x3f)).dropWhile (within 0x20 0x2f) with
  | c :: rest => if within 0x40 0x7e c then some rest else none
  | [] => none

def isName (s : List Char) : Bool := !s.isEmpty && s.all isWord

def isBetween (s : List Char) : Bool :=
  match cutAt (· == ':') s with
  | some (value, name) => isName value && isName name
  | none => isName s && 2 ≤ s.length

def isLastValue (s : List Char) : Bool :=
  isName (if s.getLast? = some ':' then s.dropLast else s)

def areSettings (s : List Char) : Bool :=
  s.isEmpty || match piecesBy (· == '=') s with
    | name :: more => isName name && !more.isEmpty && more.dropLast.all isBetween &&
        isLastValue (more.getLastD [])
    | [] => false

def link? (s : List Char) : Option (List Char × List Char) := do
  let s ← after? ['\x1b', ']', '8', ';'] s
  let (settings, s) ← cutAt (· == ';') s
  let target := s.takeWhile (· ≠ '\x1b')
  let s ← after? ['\x1b', '\\'] (s.drop target.length)
  let shown := s.takeWhile (· ≠ '\x1b')
  let rest ← after? ['\x1b', ']', '8', ';', ';', '\x1b', '\\'] (s.drop shown.length)
  if areSettings settings && !target.isEmpty && !shown.isEmpty then some (shown, rest) else none

def sequence? (s : List Char) : Option (List Char × List Char) :=
  match afterGeneral? s with
  | some rest => some ([], rest)
  | none => link? s

def has : List Char → Bool
  | [] => false
  | c :: s => (sequence? (c :: s)).isSome || has s

/-- What a text shows; the fuel is its length. -/
def shownFrom : (fuel : Nat) → List Char → List Char
  | 0, _ => []
  | _, [] => []
  | fuel + 1, c :: s =>
    match sequence? (c :: s) with
    | some (text, rest) => text ++ shownFrom fuel rest
    | none => c :: shownFrom fuel s

def shown (s : String) : String := String.ofList (shownFrom s.toList.length s.toList)

def afterLettered? (s : List Char) : Option (List Char) := do
  let s ← after? ['\x1b', '['] s
  match s.dropWhile fun c => c.isDigit || c = ';' || c = '?' with
  | c :: rest => if c.isAlpha then some rest else none
  | [] => none

def withoutLettered : (fuel : Nat) → List Char → List Char
  | 0, _ => []
  | _, [] => []
  | fuel + 1, c :: s =>
    match afterLettered? (c :: s) with
    | some rest => withoutLettered fuel rest
    | none => c :: withoutLettered fuel s

/-- A return before a line feed does not count. -/
def singleEnds : List Char → List Char
  | '\r' :: '\n' :: s => '\n' :: singleEnds s
  | c :: s => c :: singleEnds s
  | [] => []

def printed (s : String) : String :=
  String.ofList (singleEnds (withoutLettered s.toList.length s.toList))

theorem withoutLettered_of_not_mem {s : List Char} (h : '\x1b' ∉ s) {fuel : Nat}
    (hf : s.length ≤ fuel) : withoutLettered fuel s = s := by
  induction s generalizing fuel with
  | nil => cases fuel <;> rfl
  | cons c s ih =>
    obtain ⟨hc, hs⟩ := not_or.1 (fun hm => h (List.mem_cons.2 hm))
    cases fuel with
    | zero => simp at hf
    | succ n =>
      have miss : afterLettered? (c :: s) = none := by
        have : ('\x1b' = c) = False := by simpa using hc
        simp [afterLettered?, after?, this]
      rw [withoutLettered, miss]
      simp [ih hs (Nat.le_of_succ_le_succ hf)]

end SparqlClient.Text.Control
