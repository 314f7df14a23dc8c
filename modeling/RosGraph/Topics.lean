import RosGraph.SortedMap

/-! Topic names with the types seen on them, as shown to users. Names are
demangled on the way; a topic whose demangled name is empty is not shown. -/

namespace RosGraph

abbrev NamesAndTypes := SortedMap String (SortedSet String)

/-- How the names of topics and of types are shown. -/
structure Demangling where
  topic : String → String
  type : String → String

namespace NamesAndTypes

def addTypes (shown : NamesAndTypes) (topic : String) (types : List String) : NamesAndTypes :=
  if topic = "" then shown
  else shown.alter topic fun old => some (types.foldl SortedSet.add (old.getD ∅))

/-- Show a list of topics, each with some of its types. -/
def collect (d : Demangling) (topics : List (String × List String)) : NamesAndTypes :=
  topics.foldl (fun shown e => shown.addTypes (d.topic e.1) (e.2.map d.type)) ∅

end NamesAndTypes

end RosGraph
