/-! Log records: a level and a text. -/

namespace RosGraph.Log

inductive Level
  | error
  | warn
  | info
  | debug
  | trace
deriving DecidableEq, Repr

structure Record where
  level : Level
  text : String
deriving DecidableEq, Repr

end RosGraph.Log
