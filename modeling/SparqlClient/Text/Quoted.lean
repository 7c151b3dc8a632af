import SparqlClient.Text.Printable

/-! Quoted display of text and of octets, as error messages show them: apostrophes around the
text, or double quotes where the text holds apostrophes alone, with escapes for the chosen
quote, the backslash, line ends, the tab, and characters without a printed form. -/

namespace SparqlClient.Text

def hexDigit (n : Nat) : Char := Char.ofNat (if n < 10 then 48 + n else 87 + n)

def hexDigitUpper (n : Nat) : Char := Char.ofNat (if n < 10 then 48 + n else 55 + n)

def hexDigit? (c : Char) : Option Nat :=
  if c.isDigit then some (c.toNat - 48)
  else
    let d := c.toLower
    if 'a' ≤ d && d ≤ 'f' then some (d.toNat - 87) else none

def hexNumber? (s : List Char) : Option Nat :=
  s.foldl (fun n c => n.bind fun n => (hexDigit? c).map (n * 16 + ·)) (some 0)

def hex (digit : Nat → Char) : (width n : Nat) → List Char
  | 0, _ => []
  | width + 1, n => hex digit width (n / 16) ++ [digit (n % 16)]

@[simp] theorem length_hex (digit : Nat → Char) (width n : Nat) :
    (hex digit width n).length = width := by
  induction width generalizing n with
  | zero => rfl
  | succ width ih => simp [hex, ih]

theorem hexDigit?_upper : ∀ n < 16, hexDigit? (hexDigitUpper n) = some n := by decide

/-- Digits write a number but for what does not fit into them. -/
theorem hexNumber?_hex (width n : Nat) :
    hexNumber? (hex hexDigitUpper width n) = some (n % Nat.pow 16 width) := by
  induction width generalizing n with
  | zero => exact congrArg some (Nat.mod_one n).symm
  | succ width ih =>
    have digit := hexDigit?_upper (n % 16) (Nat.mod_lt _ (by decide))
    have front : List.foldl (fun n c => n.bind fun n => (hexDigit? c).map (n * 16 + ·)) (some 0)
        (hex hexDigitUpper width (n / 16)) = some (n / 16 % Nat.pow 16 width) := ih (n / 16)
    rw [hex, hexNumber?, List.foldl_append, front]
    simp only [List.foldl_cons, List.foldl_nil, Option.bind_some, digit, Option.map_some]
    change _ = some (n % (Nat.pow 16 width * 16))
    rw [Nat.mul_comm (Nat.pow 16 width), Nat.mod_mul, Nat.add_comm, Nat.mul_comm]

def quoteFor (s : List Char) : Char :=
  if s.contains '\'' && !s.contains '"' then '"' else '\''

def namedEscape? (quote c : Char) : Option (List Char) :=
  if c = quote || c = '\\' then some ['\\', c]
  else if c = '\n' then some ['\\', 'n']
  else if c = '\r' then some ['\\', 'r']
  else if c = '\t' then some ['\\', 't']
  else none

def quotedChar (quote c : Char) : List Char :=
  match namedEscape? quote c with
  | some e => e
  | none =>
    let n := c.toNat
    if isPrintable c then [c]
    else if n < 0x100 then '\\' :: 'x' :: hex hexDigit 2 n
    else if n < 0x10000 then '\\' :: 'u' :: hex hexDigit 4 n
    else '\\' :: 'U' :: hex hexDigit 8 n

def quoted (s : String) : String :=
  let q := quoteFor s.toList
  String.ofList (q :: s.toList.flatMap (quotedChar q) ++ [q])

def quotedOctet (quote : Char) (b : UInt8) : List Char :=
  let c := Char.ofNat b.toNat
  match namedEscape? quote c with
  | some e => e
  | none => if 32 ≤ b && b < 127 then [c] else '\\' :: 'x' :: hex hexDigit 2 b.toNat

def quotedOctets (s : String) : String :=
  let q := quoteFor s.toList
  String.ofList ('b' :: q :: (s.toList.flatMap String.utf8EncodeChar).flatMap (quotedOctet q) ++ [q])

end SparqlClient.Text
