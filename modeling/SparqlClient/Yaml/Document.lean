import SparqlClient.Yaml.Scalar
import SparqlClient.Yaml.Tree

/-! The value of a YAML document. A merge key brings in the entries of other mappings, which count
less than the mapping's own. Of equal keys the last counts, and no collection is a key. A set is
the list of its keys, and an ordered mapping the list of its entries. -/

namespace SparqlClient.Yaml

namespace Tree

def kind : Tree → Kind
  | .scalar k _ => k
  | .sequence k _ => k
  | .mapping k _ => k
  | .unfinished _ => .unknown

def text? : Tree → Option String
  | .scalar _ s => some s
  | .sequence _ _ => none
  | .mapping _ pairs => standing pairs
  | .unfinished _ => none
where
  standing : List (Tree × Tree) → Option String
    | [] => none
    | (k, x) :: ps => if k.kind = .standing then text? x else standing ps

/-- The mark of a standing entry is a text where a mapping is read as one. -/
def asKey : Tree → Tree
  | .scalar .standing s => .scalar .text s
  | .mapping .standing pairs => .mapping .text pairs
  | t => t

mutual

def flat : (fuel : Nat) → List (Tree × Tree) → Reading (List (Tree × Tree))
  | 0, _ => malformed
  | fuel + 1, pairs => do
    let merged ← (pairs.filter fun p => p.1.kind = .merge).mapM fun p => merge fuel p.2
    return merged.flatten ++ pairs.filter fun p => p.1.kind ≠ .merge

/-- The entries that the value of a merge key brings in: of one mapping, or of several, the
earlier ones counting more. -/
def merge : (fuel : Nat) → Tree → Reading (List (Tree × Tree))
  | 0, _ => malformed
  | fuel + 1, t =>
    match t with
    | .mapping _ pairs => flat fuel pairs
    | .sequence _ items => do
      let all ← items.mapM fun
        | .mapping _ pairs => flat fuel pairs
        | .unfinished _ => pure []
        | _ => malformed
      return all.reverse.flatten
    | .unfinished _ => .ok []
    | .scalar _ _ => malformed

end

mutual

def value : (fuel : Nat) → Tree → Reading Value
  | 0, _ => malformed
  | fuel + 1, t =>
    match t.kind, t with
    | _, .unfinished _ => .ok (.list [])
    | .sequence, .sequence _ items => (items.mapM (value fuel)).map .list
    | .mapping, .mapping _ pairs => (entries fuel pairs).map .map
    | .set, .mapping _ pairs => (entries fuel pairs).map fun es => .list (es.map Prod.fst)
    | .ordered, .sequence _ items => (items.mapM (pair fuel)).map .list
    | .pairs, .sequence _ items => (items.mapM (pair fuel)).map .list
    | .moment, .mapping _ pairs =>
      if (text?.standing pairs).isSome then Scalar.fault .wrongType else malformed
    | kind, t => match t.text? with
      | some s => Scalar.value kind s
      | none => malformed

def entries : (fuel : Nat) → List (Tree × Tree) → Reading Entries
  | 0, _ => malformed
  | fuel + 1, pairs => do
    (← flat fuel pairs).foldlM (fun es (k, x) => do
      let key ← value fuel k.asKey
      if key.canBeKey then return Entries.insert es key (← value fuel x) else malformed) []

def pair : (fuel : Nat) → Tree → Reading Value
  | fuel + 1, .mapping _ [(k, x)] => return .list [← value fuel k, ← value fuel x]
  | _, _ => malformed

end

def depth : Tree → Nat
  | .scalar _ _ => 1
  | .sequence _ items => depthAll items + 1
  | .mapping _ pairs => depthPairs pairs + 1
  | .unfinished _ => 1
where
  depthAll : List Tree → Nat
    | [] => 1
    | t :: ts => max (depth t) (depthAll ts)
  depthPairs : List (Tree × Tree) → Nat
    | [] => 1
    | (k, x) :: ps => max (max (depth k) (depth x)) (depthPairs ps)

end Tree

def read (s : String) : Reading Value := do
  match ← Tree.read s with
  | none => return .null
  | some t => t.value (3 * t.depth + 3)

end SparqlClient.Yaml
