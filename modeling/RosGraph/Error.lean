/-! Why a call is refused, and the text a caller is shown. -/

namespace RosGraph

inductive Error
  | invalidArgument (reason : String)
  /-- No participant hosts a node of this name and namespace. -/
  | unknownNode (name ns : String)
  | publisherUnavailable
  | publishFailed (reason : String)
  | missingSecurityFile (file : String)
  | invalidTypeHash (reason : String)
  /-- A failure of the surroundings, with the text they gave. -/
  | transport (text : String)
deriving DecidableEq, Repr

namespace Error

def message : Error → String
  | invalidArgument reason => s!"invalid argument: {reason}"
  | unknownNode name ns => s!"node '{name}' in namespace '{ns}' does not exist"
  | publisherUnavailable => "no gossip publisher attached to the context"
  | publishFailed reason => s!"failed to publish participant entities: {reason}"
  | missingSecurityFile file => s!"required security file missing for attribute {file}"
  | invalidTypeHash reason => s!"invalid type hash: {reason}"
  | transport text => text

/-- An announcement that fails for any reason is a failed publication; one that
already says so keeps its reason. -/
def asPublishFailure : Error → Error
  | publishFailed reason => publishFailed reason
  | error => publishFailed error.message

end Error

end RosGraph
