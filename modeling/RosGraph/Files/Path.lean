/-! Paths as plain text, never normalised. -/

namespace RosGraph.Files.Path

/-- An absolute right part replaces the left one; otherwise one slash stands
between the parts, unless the left one is empty or brings it along. -/
def join (left right : String) : String :=
  match right.toList.head? with
  | some '/' => right
  | _ => match left.toList.getLast? with
    | none => right
    | some '/' => left ++ right
    | some _ => left ++ "/" ++ right

def trimLeadingSlashes (path : String) : String := String.ofList (path.toList.dropWhile (· = '/'))

/-- A path of this many bytes is too long. -/
def limit : Nat := 4096

/-- The texts between slashes, empty ones included. -/
def components (path : String) : List String := (path.toList.splitOn '/').map String.ofList

end RosGraph.Files.Path
