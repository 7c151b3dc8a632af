import SparqlClient.Text.Pieces

/-! Octets as text with six bits in a character. Reading passes over every character that is no
digit and stops at the padding that completes a group; a group that is begun has to be completed. -/

namespace SparqlClient.Text.Base64

def digits : List Char :=
  "ABCDEFGHIJKLMNOPQRSTUVWXYZabcdefghijklmnopqrstuvwxyz0123456789+/".toList

theorem length_digits : digits.length = 64 := by decide

def digit? (c : Char) : Option Nat := digits.findIdx? (· == c)

def digitOf (n : Nat) : Char := digits[n % 64]?.getD 'A'

def octets : List Nat → List Nat
  | [a, b] => [a * 4 + b / 16]
  | [a, b, c] => [a * 4 + b / 16, b % 16 * 16 + c / 4]
  | [a, b, c, d] => [a * 4 + b / 16, b % 16 * 16 + c / 4, c % 4 * 64 + d]
  | _ => []

/-- Reading with the digits of the group that is begun, and the padding since the last of them. -/
def readFrom : (group : List Nat) → (padding : Nat) → List Char → Option (List Nat)
  | group, _, [] => if group.isEmpty then some [] else none
  | group, padding, c :: s =>
    if c = '=' then
      if 2 ≤ group.length then
        if 4 ≤ group.length + padding + 1 then some (octets group)
        else readFrom group (padding + 1) s
      else readFrom group padding s
    else match digit? c with
      | none => readFrom group padding s
      | some n =>
        if group.length = 3 then (readFrom [] 0 s).map (octets (group ++ [n]) ++ ·)
        else readFrom (group ++ [n]) 0 s

def read? (s : List Char) : Option (List Nat) := readFrom [] 0 s

def write : List Nat → List Char
  | a :: b :: c :: rest =>
    [digitOf (a / 4), digitOf (a % 4 * 16 + b / 16), digitOf (b % 16 * 4 + c / 64), digitOf c] ++
      write rest
  | [a, b] => [digitOf (a / 4), digitOf (a % 4 * 16 + b / 16), digitOf (b % 16 * 4), '=']
  | [a] => [digitOf (a / 4), digitOf (a % 4 * 16), '=', '=']
  | [] => []

theorem length_write_full (a b c : Nat) (rest : List Nat) :
    (write (a :: b :: c :: rest)).length = (write rest).length + 4 := by
  simp [write]

end SparqlClient.Text.Base64
