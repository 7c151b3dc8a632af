import SparqlClient.Xml.Token

/-! XML content as it is written in one way. Every element is closed in its turn, the prefix of
every name stands for a namespace, and no attribute is there twice. Attributes stand in double
quotes, behind the declarations of namespaces; an element without content has a single tag. -/

namespace SparqlClient.Xml

open Text

structure Scope where
  name : List Char
  declared : List Attribute

def xmlSpace : List Char := "http://www.w3.org/XML/1998/namespace".toList

def declarationSpace : List Char := "http://www.w3.org/2000/xmlns/".toList

def parted (name : List Char) : List Char × List Char :=
  (cutAt (· == ':') name).getD ([], name)

def isDeclaration (a : Attribute) : Bool := a.1 = "xmlns".toList || (parted a.1).1 = "xmlns".toList

def declaredPrefix (a : Attribute) : List Char :=
  if a.1 = "xmlns".toList then [] else (parted a.1).2

/-- Some prefixes and namespaces belong to one another alone, and a prefix is not taken back. -/
def canDeclare (a : Attribute) : Bool :=
  let p := declaredPrefix a
  if p = "xml".toList then a.2 = xmlSpace
  else p ≠ "xmlns".toList && a.2 ≠ xmlSpace && a.2 ≠ declarationSpace &&
    (p.isEmpty || !a.2.isEmpty) && !a.2.contains ' '

def namespaceOf? (scopes : List Scope) (p : List Char) : Option (List Char) :=
  if p = "xml".toList then some xmlSpace
  else scopes.findSome? fun s => (s.declared.find? (declaredPrefix · = p)).map (·.2)

def expanded? (scopes : List Scope) (name : List Char) : Option (List Char × List Char) :=
  let (p, part) := parted name
  if p.isEmpty then some ([], part) else (namespaceOf? scopes p).map (·, part)

/-- Whether a tag is well formed within the elements that are open, itself among them. -/
def isTag (scopes : List Scope) (name : List Char) (attributes : List Attribute) : Bool :=
  let (declarations, others) := attributes.partition isDeclaration
  let p := (parted name).1
  declarations.all canDeclare && (attributes.map (·.1)).Nodup &&
    p ≠ "xmlns".toList && (p.isEmpty || (namespaceOf? scopes p).isSome) &&
    match others.mapM fun a => expanded? scopes a.1 with
    | some names => names.Nodup
    | none => false

def isWellFormed : List Scope → List Token → Bool
  | scopes, [] => scopes.isEmpty
  | scopes, .opening name attributes :: ts =>
    let scopes := ⟨name, attributes.filter isDeclaration⟩ :: scopes
    isTag scopes name attributes && isWellFormed scopes ts
  | [], .closing _ :: _ => false
  | scope :: scopes, .closing name :: ts => scope.name = name && isWellFormed scopes ts
  | scopes, _ :: ts => isWellFormed scopes ts

def escaped (s : List Char) : List Char :=
  s.flatMap fun c =>
    if c = '&' then "&amp;".toList
    else if c = '<' then "&lt;".toList
    else if c = '>' then "&gt;".toList
    else if c = '"' then "&quot;".toList
    else [c]

theorem not_mem_escaped (s : List Char) : '<' ∉ escaped s := by
  simp only [escaped, List.mem_flatMap, not_exists, not_and]
  intro c _
  repeat' split
  all_goals simp_all [eq_comm]

def writeTag (name : List Char) (attributes : List Attribute) : List Char :=
  let (declarations, others) := attributes.partition isDeclaration
  '<' :: name ++ (declarations ++ others).flatMap fun (n, v) =>
    ' ' :: n ++ '=' :: '"' :: escaped v ++ ['"']

def write : List Token → List Char
  | .opening name attributes :: .closing _ :: ts =>
    writeTag name attributes ++ '/' :: '>' :: write ts
  | .opening name attributes :: ts => writeTag name attributes ++ '>' :: write ts
  | .closing name :: ts => '<' :: '/' :: name ++ '>' :: write ts
  | .text s :: ts => escaped s ++ write ts
  | .verbatim s :: ts => "<![CDATA[".toList ++ s ++ ']' :: ']' :: '>' :: write ts
  | .comment s :: ts => "<!--".toList ++ s ++ '-' :: '-' :: '>' :: write ts
  | .instruction target data :: ts => '<' :: '?' :: target ++ ' ' :: data ++ '?' :: '>' :: write ts
  | [] => []

def normal? (s : String) : Option String :=
  match read? s.toList with
  | some ts => if isWellFormed [] ts then some (String.ofList (write ts)) else none
  | none => none

end SparqlClient.Xml
