import SparqlClient.Text.Pieces
import SparqlClient.Text.Quoted

/-! Escapes in graph documents: line ends, quotes and backslashes of strings, and characters
beyond ASCII by their number in four or eight hexadecimal digits. -/

namespace SparqlClient

open Text

def escapeUnicodeChar (c : Char) : List Char :=
  let n := c.toNat
  if n ≤ 0x7F then [c]
  else if n ≤ 0xFFFF then '\\' :: 'u' :: hex hexDigitUpper 4 n
  else '\\' :: 'U' :: hex hexDigitUpper 8 n

def escapeUnicode (s : String) : String := String.ofList (s.toList.flatMap escapeUnicodeChar)

def lineEscape (c : Char) : List Char :=
  if c = '\\' then ['\\', '\\']
  else if c = '\n' then ['\\', 'n']
  else if c = '"' then ['\\', '"']
  else if c = '\r' then ['\\', 'r']
  else [c]

def lineQuoted (s : String) : String :=
  "\"" ++ String.ofList (s.toList.flatMap lineEscape) ++ "\""

def escapeLastQuote (s : List Char) : List Char :=
  match s.reverse with
  | '"' :: '\\' :: _ => s
  | '"' :: rest => rest.reverse ++ ['\\', '"']
  | _ => s

def turtleQuoted (s : String) : String :=
  if s.toList.contains '\n' then
    let body := replaceAll "\"\"\"" "\\\"\\\"\\\"" (replaceAll "\\" "\\\\" s)
    let body := String.ofList (escapeLastQuote body.toList)
    "\"\"\"" ++ replaceAll "\r" "\\r" body ++ "\"\"\""
  else lineQuoted s

end SparqlClient
