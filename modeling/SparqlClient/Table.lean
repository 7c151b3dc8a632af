import SparqlClient.Number.Rounded
import SparqlClient.Text.Control
import SparqlClient.Text.Pieces
import SparqlClient.Value.Use

/-! Tables of values as plain text: a line of headings, a line of dashes, and a line for each
row. A column whose values are all numbers stands to the right, its points below one another;
any other column stands to the left. A cell of several lines makes its row as high. Control
sequences take no width, and a row that starts with the mark of a rule is a line of dashes. -/

namespace SparqlClient.Table

open Text

inductive Kind
  | missing | flag | whole | fraction | text
  deriving DecidableEq

namespace Kind

def rank : Kind → Nat
  | missing => 0
  | flag => 1
  | whole => 2
  | fraction => 3
  | text => 4

def join (a b : Kind) : Kind := if a.rank < b.rank then b else a

theorem rank_join (a b : Kind) : (a.join b).rank = max a.rank b.rank := by
  unfold join
  split <;> omega

def isNumeric (k : Kind) : Bool := k = whole || k = fraction

end Kind

def afterGroups : List Char → List Char
  | ',' :: a :: b :: c :: s =>
    if a.isDigit && b.isDigit && c.isDigit then afterGroups s else ',' :: a :: b :: c :: s
  | s => s

def isGrouped (s : String) : Bool :=
  let cs := if s.toList.getLast? = some '\n' then s.toList.dropLast else s.toList
  let (_, body) := Numeral.sign cs
  let lead := body.takeWhile Char.isDigit
  if lead.isEmpty then
    match cs with
    | [] => true
    | '.' :: places => !places.isEmpty && places.all Char.isDigit
    | _ => false
  else lead.length ≤ 3 && match afterGroups (body.drop lead.length) with
    | [] => true
    | '.' :: places => places.all Char.isDigit
    | _ => false

def isWholeText (s : String) : Bool := (Numeral.int? s).isSome

/-- A text beyond the range of floating-point numbers is not a number, the words for the
special numbers are. -/
def isNumberText (s : String) : Bool :=
  match Numeral.float? s with
  | none => false
  | some x =>
    if x.isFinite then true else ["inf", "-inf", "nan"].contains (lower s)

def kindOfText (s : String) : Kind :=
  if s.isEmpty then .missing
  else if s == "True" || s == "False" then .flag
  else if isWholeText s then .whole
  else if isGrouped s then if s.toList.contains '.' then .fraction else .whole
  else if isNumberText s then .fraction
  else .text

def kindOf : Value → Kind
  | .null => .missing
  | .bool _ => .flag
  | .int _ => .whole
  | .float _ => .fraction
  | .decimal d => if (Value.decimal d).float?.toOption.isSome then .fraction else .text
  | .text s => kindOfText (Control.shown s)
  | .node n => kindOfText n.text
  | _ => .text

def kindOfAll (vs : List Value) : Kind := vs.foldl (fun k v => k.join (kindOf v)) .flag

/-- A text of a column of fractions; one that is no number stands as it is, and a number between
control sequences is written anew where it stands whole. -/
def fractionText (coded : Bool) (s : String) : String :=
  if coded then
    let shown := Control.shown s
    match Numeral.float? shown with
    | some x => replaceAll shown (Shortest.general x) s
    | none => s
  else match Numeral.float? (String.ofList (s.toList.filter (· ≠ ','))) with
    | some x => Shortest.general x
    | none => s

def recolouredAt? (s : List Char) : Option (List Char) := do
  let rest ← after? ['\x1b', '['] s
  let colour := rest.takeWhile Char.isDigit
  let (mark, rest) ← match rest.drop colour.length with
    | c :: rest => if c = 'm' || c = 'M' then some (c, rest) else none
    | [] => none
  let digits := rest.takeWhile Char.isDigit
  let next ← (rest.drop digits.length).head?
  if colour.isEmpty || digits.isEmpty || Control.within 0x20 0x7e next then none
  else some ('\x1b' :: '[' :: colour ++ mark :: (natText (Numeral.run digits).value).toList ++
    rest.drop digits.length)

def firstRecoloured? : List Char → Option (List Char)
  | [] => none
  | c :: s => recolouredAt? (c :: s) <|> firstRecoloured? s

def recoloured (s : String) : String :=
  ((firstRecoloured? s.toList).map String.ofList).getD s

def cellText (coded : Bool) (k : Kind) (v : Value) : Outcome String :=
  if v.isNull then .ok ""
  else match k, v.chars? with
    | .fraction, some s => .ok (fractionText coded s)
    | .fraction, none => v.float?.map Shortest.general
    | .whole, some s => .ok (recoloured s)
    | _, _ => .ok v.plainText

def places? (text : String) : Option Nat :=
  let s := Control.shown text
  if isWholeText s || !(isNumberText s || isGrouped s) then none
  else
    let behind := s.toList.reverse
    match cutAt (· == '.') behind with
    | some (p, _) => some p.length
    | none => (cutAt (fun c => c == 'e' || c == 'E') behind).map (·.1.length)

/-- Blanks behind the numbers of a column, so that their points meet. -/
def levelled (cells : List String) : List String :=
  let reach (s : String) : Nat := (places? s).elim 0 (· + 1)
  let most := cells.foldl (fun n s => max n (reach s)) 0
  cells.map fun s => s ++ String.ofList (List.replicate (most - reach s) ' ')

def isBreak (c : Char) : Bool := c = '\n' || c = '\r'

def isLineEnd (c : Char) : Bool :=
  isBreak c || c = '\x0b' || c = '\x0c' || c = '\x1c' || c = '\x1d' || c = '\x1e' ||
    c = '\u0085' || c = '\u2028' || c = '\u2029'

def linesOf : List Char → List (List Char)
  | [] => []
  | '\r' :: '\n' :: s => [] :: linesOf s
  | c :: s =>
    if isLineEnd c then [] :: linesOf s
    else match linesOf s with
      | [] => [[c]]
      | l :: ls => (c :: l) :: ls

structure Measure where
  multiline : Bool
  coded : Bool

namespace Measure

def ofTexts (texts : List String) : Measure :=
  ⟨texts.any (·.toList.any isBreak), texts.any (Control.has ·.toList)⟩

def hidden (m : Measure) (line : List Char) : Nat :=
  if m.coded then line.length - (Control.shownFrom line.length line).length else 0

def parts (m : Measure) (s : String) : List (List Char) :=
  if m.multiline then piecesBy isBreak s.toList else [s.toList]

def width (m : Measure) (s : String) : Nat :=
  (m.parts s).foldl (fun n l => max n (l.length - m.hidden l)) 0

end Measure

def pad (right : Bool) (width : Nat) (line : List Char) : String :=
  let blanks := List.replicate (width - line.length) ' '
  String.ofList (if right then blanks ++ line else line ++ blanks)

theorem length_pad (right : Bool) (width : Nat) (line : List Char) :
    (pad right width line).toList.length = max width line.length := by
  unfold pad
  cases right <;> simp <;> omega

def fillHeading (m : Measure) (right : Bool) (width : Nat) (s : String) : String :=
  String.intercalate "\n" ((m.parts s).map fun l => pad right (width + m.hidden l) l)

def fillCell (m : Measure) (right : Bool) (width : Nat) (s : String) : String :=
  let lines := if m.multiline then linesOf s.toList else [s.toList]
  String.intercalate "\n" (if m.coded then
    (lines.zip (m.parts s)).map fun (l, p) => pad right (width + m.hidden p) l
    else lines.map (pad right width))

structure Column where
  heading : String
  width : Nat
  cells : List String

namespace Column

/-- A column is two characters wider than its heading, or as wide as its widest cell. -/
def make (m : Measure) (heading : String) (values : List Value) : Outcome Column := do
  let kind := kindOfAll values
  let right := kind.isNumeric
  let cells ← values.mapM (cellText m.coded kind)
  let cells := if right then levelled cells else cells.map trim
  let width := cells.foldl (fun n s => max n (m.width s)) (m.width heading + 2)
  return ⟨fillHeading m right width heading, width, cells.map (fillCell m right width)⟩

end Column

def joined (cells : List String) : String := trimEndOf isBlank (String.intercalate "  " cells)

def rowLines (multiline : Bool) (widths : List Nat) (cells : List String) : List String :=
  if multiline then
    let parts := cells.map fun s => linesOf s.toList
    let height := parts.foldl (fun n p => max n p.length) 0
    (List.range height).map fun i =>
      joined ((parts.zip widths).map fun (p, w) =>
        String.ofList (p[i]?.getD (List.replicate w ' ')))
  else [joined cells]

/-- Whether a row stands for a rule: its first or second cell is the mark alone. -/
def isRule (row : List Value) : Bool :=
  (row.take 2).any fun
    | .text s => trim s == "\x01"
    | _ => false

def bodyLines (rule : String) : List (List Value) → List (List String) → List String
  | [], _ => []
  | r :: rs, lines =>
    if isRule r then rule :: bodyLines rule rs lines
    else lines.headD [] ++ bodyLines rule rs lines.tail

def render (headings : List String) (rows : List (List Value)) : Outcome String := do
  let cells := rows.filter (!isRule ·)
  let m := Measure.ofTexts (headings ++ cells.flatten.map Value.plainText)
  let columns ← headings.zipIdx.mapM fun (h, i) =>
    Column.make m h (cells.map fun row => row[i]?.getD .null)
  if columns.isEmpty then return ""
  let widths := columns.map Column.width
  let rule := joined (widths.map fun w => String.ofList (List.replicate w '-'))
  let lines := (List.range cells.length).map fun i =>
    rowLines m.multiline widths (columns.map fun c => c.cells[i]?.getD "")
  return String.intercalate "\n"
    (rowLines m.multiline widths (columns.map Column.heading) ++ rule :: bodyLines rule rows lines)

end SparqlClient.Table
