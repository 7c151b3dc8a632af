/-! Texts as octets in UTF-8, and octets as texts. Where no character begins an octet is left out,
so octets that end within a character are read up to it. -/

namespace SparqlClient.Text

def octets (s : List Char) : List UInt8 := s.flatMap String.utf8EncodeChar

theorem octets_cons (c : Char) (s : List Char) :
    octets (c :: s) = String.utf8EncodeChar c ++ octets s := rfl

theorem length_octets_cons (c : Char) (s : List Char) :
    (octets (c :: s)).length = c.utf8Size + (octets s).length := by
  rw [octets_cons, List.length_append, String.length_utf8EncodeChar]

def firstChar? (bs : List UInt8) : Option Char := (bs.take 4).toByteArray.utf8DecodeChar? 0

/-- The characters of octets, of which the first few are passed over: they belong to a character
that has been read. -/
def characters : (passed : Nat) → List UInt8 → List Char
  | _, [] => []
  | passed + 1, _ :: bs => characters passed bs
  | 0, b :: bs =>
    match firstChar? (b :: bs) with
    | some c => c :: characters (c.utf8Size - 1) bs
    | none => characters 0 bs

end SparqlClient.Text
