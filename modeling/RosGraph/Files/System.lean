import RosGraph.Files.Path

/-! What stands at a path: nothing, a directory or a file with its bytes. A file
system is any function that says so; `Tree` is one given by its entries, in which
a path is followed component by component. -/

namespace RosGraph.Files

inductive Content
  | directory
  | file (bytes : List UInt8)
deriving DecidableEq, Repr

abbrev System := String → Option Content

namespace System

def isFile (fs : System) (path : String) : Bool :=
  match fs path with
  | some (.file _) => true
  | _ => false

/-- The text of a file, if it is well-formed UTF-8. -/
def read? (fs : System) (path : String) : Option String :=
  match fs path with
  | some (.file bytes) => String.fromUTF8? ⟨bytes.toArray⟩
  | _ => none

end System

/-- What stands at the places of a tree. A place is the list of the components that
lead to it from the root; the first entry for a place counts. -/
structure Tree where
  entries : List (List String × Content) := []

namespace Tree

def contentAt (t : Tree) (place : List String) : Option Content := t.entries.lookup place

/-- Where a component leads from a place: nowhere else if it is empty or a dot, up if
it is two dots, though not above the root, and otherwise down. -/
def step (place : List String) (component : String) : List String :=
  if component = "" ∨ component = "." then place
  else if component = ".." then place.dropLast
  else place ++ [component]

/-- Follow components from a place; each is looked up in a directory. -/
def follow (t : Tree) (place : List String) : List String → Option Content
  | [] => t.contentAt place
  | component :: rest =>
    if t.contentAt place = some .directory then t.follow (step place component) rest else none

/-- Only absolute paths lead anywhere, and only if they are not too long. -/
def system (t : Tree) : System := fun path =>
  match Path.components path with
  | "" :: first :: rest =>
    if path.utf8ByteSize < Path.limit then t.follow [] (first :: rest) else none
  | _ => none

/-- Put content where components lead from a place, and directories on the way. -/
def put (t : Tree) (place : List String) (content : Content) : List String → Tree
  | [] => ⟨(place, content) :: t.entries⟩
  | component :: rest =>
    put ⟨(place, .directory) :: t.entries⟩ (step place component) content rest

/-- A tree with entries under paths relative to a directory. -/
def ofPaths (directory : String) (entries : List (String × Content)) : Tree :=
  let base := Path.components directory
  entries.foldl (fun t e => t.put [] e.2 (base ++ Path.components e.1))
    (put {} [] .directory base)

end Tree

end RosGraph.Files
