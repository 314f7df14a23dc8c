/-! Conventions by which names of topics and types are changed on their way to
and from the wire. -/

namespace RosGraph

inductive Naming
  | identity
  /-- No name at all. -/
  | empty
  /-- Drop a leading `rt`; a name without it is not shown. -/
  | stripTopicMark
  | addTopicMark
  /-- Types as they are known to users: without the `dds_` segments and the
  closing underscores. -/
  | userType
  /-- One name for all. -/
  | same
  /-- The text before the first slash. -/
  | firstSegment
deriving DecidableEq, Repr

def Naming.apply : Naming → String → String
  | identity, name => name
  | empty, _ => ""
  | stripTopicMark, name => match name.toList with
    | 'r' :: 't' :: rest => String.ofList rest
    | _ => ""
  | addTopicMark, name => "rt" ++ name
  | userType, name =>
    String.ofList (((name.replace "::dds_::" "::").toList.reverse.dropWhile (· = '_')).reverse)
  | same, _ => "same"
  | firstSegment, name => String.ofList (name.toList.takeWhile (· ≠ '/'))

end RosGraph
