import SparqlClient.Error
import SparqlClient.Text.Pieces

/-! Text files in folders. A path is a list of names between slashes; empty names and single dots
in it mean nothing, and two dots go back to the folder around. Every name on the way but the last
has to be a folder, also where two dots leave it again. -/

namespace SparqlClient

open Text

def Path.names (path : String) : List String :=
  let parts := (piecesBy (· == '/') path.toList).map String.ofList
  let names := parts.filter fun n => n ≠ "" && n ≠ "."
  if startsWith path "/" then "/" :: names else names

namespace Path

def ofNames : List String → String
  | [] => "."
  | "/" :: ns => "/" ++ String.intercalate "/" ns
  | ns => String.intercalate "/" ns

def text (path : String) : String := ofNames (names path)

def back : List String → List String
  | [] => [".."]
  | ".." :: ns => ".." :: ".." :: ns
  | ["/"] => ["/"]
  | _ :: ns => ns

def resolve (names : List String) : List String :=
  (names.foldl (fun ns n => if n = ".." then back ns else n :: ns) []).reverse

theorem resolve_of_forall_ne {names : List String} (h : ∀ n ∈ names, n ≠ "..") :
    resolve names = names := by
  have key : ∀ (ns acc : List String), (∀ n ∈ ns, n ≠ "..") →
      ns.foldl (fun ns n => if n = ".." then back ns else n :: ns) acc = ns.reverse ++ acc := by
    intro ns
    induction ns with
    | nil => intro acc _; rfl
    | cons n ns ih =>
      intro acc hn
      have h1 : n ≠ ".." := hn n (by simp)
      have h2 : ∀ m ∈ ns, m ≠ ".." := fun m hm => hn m (by simp [hm])
      simp [h1, ih _ h2]
  simp [resolve, key names [] h]

end Path

structure Disk where
  files : List (List String × String)

inductive Found
  | absent
  | folder
  | file (text : String)
  | tooLong
  deriving DecidableEq

namespace Disk

def ofList (files : List (String × String)) : Disk :=
  ⟨files.map fun (p, t) => (Path.resolve (Path.names p), t)⟩

def at? (d : Disk) (names : List String) : Option String := d.files.lookup names

/-- The folder of the program, every folder around it, and each folder that holds a file. -/
def isFolder (d : Disk) (names : List String) : Bool :=
  names = ["/"] || names.all (· = "..") ||
    d.files.any fun f => names.length < f.1.length && names.isPrefixOf f.1

def standing (d : Disk) (names : List String) : Found :=
  match d.at? names with
  | some t => .file t
  | none => if d.isFolder names then .folder else .absent

def longestName : Nat := 255

def longestPath : Nat := 4095

/-- Goes on from the place `here`, whose names stand in reverse. Only a folder can be left. -/
def follow (d : Disk) : (here steps : List String) → Found
  | here, [] => d.standing here.reverse
  | here, n :: rest =>
    match d.standing here.reverse with
    | .folder =>
      if n = "" || n = "." then follow d here rest
      else if n = ".." then follow d (Path.back here) rest
      else if longestName < n.utf8ByteSize then .tooLong
      else follow d (n :: here) rest
    | .file _ => .absent
    | found => found

def followFrom (d : Disk) (path : String) (steps : List String) : Found :=
  if longestPath < path.utf8ByteSize then .tooLong
  else if startsWith path "/" then d.follow ["/"] (steps.drop 1)
  else d.follow [] steps

/-- What stands at a path, as it is written: a slash at its end asks for a folder. -/
def find (d : Disk) (path : String) : Found :=
  if path.isEmpty then .absent
  else d.followFrom path ((piecesBy (· == '/') path.toList).map String.ofList)

def findPlain (d : Disk) (path : String) : Found := d.followFrom path (Path.names path)

def plainLines : List Char → List Char
  | '\r' :: '\n' :: s => '\n' :: plainLines s
  | '\r' :: s => '\n' :: plainLines s
  | c :: s => c :: plainLines s
  | [] => []

theorem not_mem_plainLines (s : List Char) : '\r' ∉ plainLines s := by
  fun_induction plainLines s with
  | case1 s ih => simp [ih]
  | case2 s h ih => simp [ih]
  | case3 c s h1 h2 ih =>
    simp only [List.mem_cons, not_or]
    exact ⟨fun h => h2 h.symm, ih⟩
  | case4 => simp

def read (d : Disk) (path : String) : Outcome String :=
  match d.findPlain path with
  | .file t => .ok (String.ofList (plainLines t.toList))
  | .folder => .error (.file .isDirectory)
  | .absent => .error (.file .notFound)
  | .tooLong => .error (.file .nameTooLong)

def put (names : List String) (text : String) :
    List (List String × String) → List (List String × String)
  | [] => [(names, text)]
  | f :: fs => if f.1 = names then (names, text) :: fs else f :: put names text fs

/-- Goes through folders and makes those that are missing. A file in the way is met as a file
where a folder is to be made, or else as something that has no folders in it. -/
def enter (d : Disk) (made : Bool) : (here steps : List String) → Except FileError (List String)
  | here, [] => match d.standing here.reverse with
    | .file _ => .error .alreadyExists
    | _ => .ok here
  | here, n :: rest => match d.standing here.reverse with
    | .file _ => .error (if made then .alreadyExists else .notDirectory)
    | found =>
      let made := made || found = .absent
      if n = ".." then enter d made (Path.back here) rest
      else if longestName < n.utf8ByteSize then .error .nameTooLong
      else enter d made (n :: here) rest

def placeFor (d : Disk) (path : String) : Except FileError (List String) :=
  let (start, names) := match Path.names path with
    | "/" :: ns => (["/"], ns)
    | ns => ([], ns)
  if longestPath < path.utf8ByteSize then .error .nameTooLong
  else match names.getLast? with
    | none => .error .isDirectory
    | some last => do
      let folder ← d.enter false start names.dropLast
      let place := (last :: folder).reverse
      if last = ".." || d.standing place = .folder then .error .isDirectory
      else if longestName < last.utf8ByteSize then .error .nameTooLong
      else return place

def write (d : Disk) (path text : String) : Outcome Disk :=
  match d.placeFor path with
  | .ok place => .ok ⟨put place text d.files⟩
  | .error e => .error (.file e)

def newFiles (d old : Disk) : List (String × String) :=
  (d.files.filter fun f => (old.at? f.1).isNone).map fun (ns, t) =>
    (Path.ofNames ns, String.ofList (plainLines t.toList))

def changes (d old : Disk) : List (String × String) :=
  (d.files.filter fun f => old.at? f.1 ≠ some f.2).map fun (ns, t) => (Path.ofNames ns, t)

theorem lookup_put (names : List String) (text : String) (fs : List (List String × String)) :
    (put names text fs).lookup names = some text := by
  induction fs with
  | nil => simp [put]
  | cons f fs ih =>
    obtain ⟨k, t⟩ := f
    by_cases h : k = names
    · simp [put, h]
    · have h' : (names == k) = false := by simp [Ne.symm h]
      simp [put, h, List.lookup_cons, h', ih]

end Disk

end SparqlClient
