import SparqlClient.Text.Blank
import SparqlClient.Text.LetterCase
import SparqlClient.Text.Pieces

/-! The scheme and the authority of a URL. An authority is refused if its brackets do not hold
an address of version 6 or later, or if one of its characters stands for a delimiter in
compatibility form. -/

namespace SparqlClient

structure Url where
  scheme : String
  authority : String

namespace Url

open Text

def isSchemeChar (c : Char) : Bool := c.isAlphanum || c = '+' || c = '-' || c = '.'

/-- Controls and blanks of ASCII before the URL do not belong to it, nor do tabs and line ends
inside. -/
def cleaned (s : List Char) : List Char :=
  (s.dropWhile fun c => c.toNat ≤ 32).filter fun c => c ≠ '\t' && c ≠ '\r' && c ≠ '\n'

def schemeAndRest (s : List Char) : List Char × List Char :=
  match cutAt (· == ':') s with
  | some (c :: name, rest) =>
    if c.isAlpha && name.all isSchemeChar then ((c :: name).map Char.toLower, rest) else ([], s)
  | _ => ([], s)

def authorityOf (s : List Char) : List Char :=
  match s with
  | '/' :: '/' :: t => t.takeWhile fun c => c ≠ '/' && c ≠ '?' && c ≠ '#'
  | _ => []

def isHex (c : Char) : Bool :=
  c.isDigit || ('a' ≤ c && c ≤ 'f') || ('A' ≤ c && c ≤ 'F')

def isOctet (s : List Char) : Bool :=
  !s.isEmpty && s.length ≤ 3 && s.all Char.isDigit &&
    (s.length = 1 || s.head? ≠ some '0') &&
    s.foldl (fun n c => n * 10 + (c.toNat - 48)) 0 ≤ 255

def isDottedQuad (s : List Char) : Bool :=
  let parts := piecesBy (· == '.') s
  parts.length = 4 && parts.all isOctet

def isHextet (s : List Char) : Bool := !s.isEmpty && s.length ≤ 4 && s.all isHex

def groups (s : List Char) : List (List Char) :=
  let parts := piecesBy (· == ':') s
  match parts.getLast? with
  | some last =>
    if last.contains '.' then
      parts.dropLast ++ (if isDottedQuad last then [['0'], ['0']] else [['.'], ['.']])
    else parts
  | none => parts

def isAddress (s : List Char) : Bool :=
  let parts := groups s
  let colons := (piecesBy (· == ':') s).length
  let inner := parts.tail.dropLast
  if colons < 3 || 9 < parts.length then false
  else match (inner.filter List.isEmpty).length with
    | 0 => parts.length = 8 && parts.all isHextet
    | 1 =>
      let before := parts.headD [] :: inner.takeWhile (!·.isEmpty)
      let behind := (inner.dropWhile (!·.isEmpty)).tail ++ [parts.getLastD []]
      let high := if before = [[]] then [] else before
      let low := if behind = [[]] then [] else behind
      high.all isHextet && low.all isHextet && high.length + low.length ≤ 7
    | _ => false

def isScopedAddress (s : List Char) : Bool :=
  match cutAt (· == '%') s with
  | none => isAddress s
  | some (address, zone) => !zone.isEmpty && !zone.contains '%' && isAddress address

def isFutureAddress (s : List Char) : Bool :=
  match s with
  | 'v' :: t => match cutAt (· == '.') t with
    | some (version, c :: rest) =>
      !version.isEmpty && version.all isHex && (c :: rest).all (· ≠ '\n')
    | _ => false
  | _ => false

def isBracketedHost (host : List Char) : Bool :=
  if host.head? = some 'v' then isFutureAddress host else isScopedAddress host

def placeOf (authority : List Char) : List Char :=
  ((piecesBy (· == '@') authority).getLast?).getD []

/-- If the authority has brackets, its host is an address: nothing stands before the bracket and
only a port behind it. -/
def bracketsHold (authority : List Char) : Bool :=
  let opens := authority.contains '['
  let closes := authority.contains ']'
  if opens != closes then false
  else if !opens then true
  else
    let place := placeOf authority
    match cutAt (· == '[') place with
    | some (before, inside) =>
      let host := inside.takeWhile (· ≠ ']')
      let behind := inside.drop (host.length + 1)
      before.isEmpty && (behind.isEmpty || behind.head? = some ':') && isBracketedHost host
    | none => isBracketedHost (place.takeWhile (· ≠ ':'))

/-- Characters whose compatibility form holds one of `/?#@:`. -/
def disguisedDelimiters : List Nat :=
  [0x2047, 0x2048, 0x2049, 0x2100, 0x2101, 0x2105, 0x2106, 0x2a74, 0xfe13, 0xfe16, 0xfe55,
    0xfe56, 0xfe5f, 0xfe6b, 0xff03, 0xff0f, 0xff1a, 0xff1f, 0xff20]

def split? (s : String) : Option Url :=
  let (scheme, rest) := schemeAndRest (cleaned s.toList)
  let authority := authorityOf rest
  if !bracketsHold authority then none
  else if authority.any fun c => disguisedDelimiters.contains c.toNat then none
  else some ⟨String.ofList scheme, String.ofList authority⟩

def isAbsolute (s : String) : Bool :=
  !hasBlank s && match split? s with
    | some u => u.scheme != "" && u.authority != ""
    | none => false

end Url

end SparqlClient
