import SparqlClient.Error
import SparqlClient.Text.Pieces

/-! A place in a YAML text: what is still to be read, and where it stands. The column counts the
characters since the last line end, which is what indentation is measured in. -/

namespace SparqlClient.Yaml

/-- Why a text cannot be read: it is no YAML that describes plain data, or one of its scalars has
no value of the kind that it is written as. -/
inductive Fault
  | malformed
  | tooDeep
  | scalar (kind : Misuse)
  deriving DecidableEq

abbrev Reading (α : Type) := Except Fault α

def malformed {α : Type} : Reading α := .error .malformed

def isBreak (c : Char) : Bool :=
  c = '\n' || c = '\r' || c = '\u0085' || c = '\u2028' || c = '\u2029'

def isStop : Option Char → Bool
  | none => true
  | some c => isBreak c

def isGap : Option Char → Bool
  | none => true
  | some c => c = ' ' || c = '\t' || isBreak c

structure Cursor where
  rest : List Char
  index : Nat
  line : Nat
  column : Nat

namespace Cursor

def start (s : String) : Cursor := ⟨s.toList, 0, 0, 0⟩

def peek (c : Cursor) : Option Char := c.rest.head?

def peekAt (c : Cursor) (n : Nat) : Option Char := c.rest[n]?

def next (c : Cursor) : Cursor :=
  match c.rest with
  | [] => c
  | '\r' :: '\n' :: s => ⟨'\n' :: s, c.index + 1, c.line, c.column + 1⟩
  | x :: s =>
    if isBreak x then ⟨s, c.index + 1, c.line + 1, 0⟩
    else ⟨s, c.index + 1, c.line, if x = '\ufeff' then c.column else c.column + 1⟩

theorem length_rest_next (c : Cursor) : c.next.rest.length = c.rest.length - 1 := by
  unfold next
  split
  · simp_all
  · simp_all
  · split <;> simp_all

def skip : Nat → Cursor → Cursor
  | 0, c => c
  | n + 1, c => skip n c.next

def skipWhile (p : Char → Bool) (c : Cursor) : Cursor := c.skip (c.rest.takeWhile p).length

def takeWhile (p : Char → Bool) (c : Cursor) : List Char × Cursor :=
  let w := c.rest.takeWhile p
  (w, c.skip w.length)

def lineBreak (c : Cursor) : List Char × Cursor :=
  match c.rest with
  | '\r' :: '\n' :: _ => (['\n'], c.skip 2)
  | x :: _ =>
    if x = '\u2028' || x = '\u2029' then ([x], c.next)
    else if isBreak x then (['\n'], c.next)
    else ([], c)
  | [] => ([], c)

def isMark (x : Char) (c : Cursor) : Bool := c.rest.take 3 == [x, x, x] && isGap (c.peekAt 3)

def atSeparator (c : Cursor) : Bool := c.isMark '-' || c.isMark '.'

end Cursor

/-- What a line end means inside a text that goes on: alone it is a space, before empty lines it
is nothing, and a separator stays. -/
def folded (lineEnd breaks : List Char) : List Char :=
  if lineEnd ≠ ['\n'] then lineEnd ++ breaks else if breaks.isEmpty then [' '] else breaks

theorem folded_newline (breaks : List Char) (h : breaks ≠ []) : folded ['\n'] breaks = breaks := by
  simp [folded, h]

end SparqlClient.Yaml
