import SparqlClient.Text.Blank
import SparqlClient.Text.LetterCase
import SparqlClient.Text.Pieces
import SparqlClient.Text.Word

/-! The written shapes of the values of a query: resource names, variables, compact names,
identifiers. A shape that spans the whole text also allows one line end after it. -/

namespace SparqlClient.Shape

open SparqlClient.Text

def atEnd (s : List Char) : Bool := s = [] || s = ['\n']

def isNameChar (c : Char) : Bool := isWord c || c = '.' || c = '-'

def isLetterOrLine (c : Char) : Bool := c.isAlpha || c = '_'

def isUrn (s : String) : Bool :=
  match afterWord? ['u', 'r', 'n'] s.toList with
  | some (':' :: _) => true
  | some rest => atEnd rest
  | none => false

def isSchemeChar (c : Char) : Bool :=
  isLatin c || c.isDigit || c = '+' || c = '.' || c = '-'

/-- A scheme, a colon, and at least one more character on the line. -/
def isIri (s : String) : Bool :=
  match s.toList with
  | c :: t =>
    isLatin c && match t.dropWhile isSchemeChar with
      | ':' :: x :: _ => x ≠ '\n'
      | _ => false
  | [] => false

def isIdentifierChars : List Char → Bool
  | c :: s => isLetterOrLine c && atEnd (s.dropWhile isWord)
  | [] => false

def isIdentifier (s : String) : Bool := isIdentifierChars s.toList

def isVariable (s : String) : Bool :=
  match s.toList with
  | c :: t => (c = '?' || c = '$') && isIdentifierChars t
  | [] => false

def isCompact (s : String) : Bool :=
  match s.toList.dropWhile isNameChar with
  | ':' :: t => atEnd (t.dropWhile isNameChar)
  | _ => false

def isBareName (s : String) : Bool :=
  match s.toList with
  | c :: t => c.isAlpha && atEnd (t.dropWhile Char.isAlpha)
  | [] => false

def isSigil (c : Char) : Bool := c = '?' || c = '$'

/-- A name with one question mark in front, whatever marks it had. -/
def withMark (name : String) : String := "?" ++ trimStartOf isSigil name

end SparqlClient.Shape
