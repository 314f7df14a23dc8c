/-! The policies of a quality-of-service profile. Reliability, durability and
liveliness each have a strong and a weak setting; their `Level` is what the
rules on offers and requests look at, whatever the policy. -/

namespace RosGraph.Qos

inductive History
  | systemDefault
  | keepLast
  | keepAll
  | unknown
deriving DecidableEq, Repr, Inhabited

inductive Reliability
  | systemDefault
  | reliable
  | bestEffort
  | bestAvailable
  | unknown
deriving DecidableEq, Repr, Inhabited

inductive Durability
  | systemDefault
  | transientLocal
  | volatile
  | bestAvailable
  | unknown
deriving DecidableEq, Repr, Inhabited

inductive Liveliness
  | systemDefault
  | automatic
  | manualByTopic
  | bestAvailable
  | unknown
deriving DecidableEq, Repr, Inhabited

/-- What a setting says: the strong or the weak one, a choice left to the peers,
or one that cannot be told from the profile. -/
inductive Level
  | strong
  | weak
  | bestAvailable
  | undetermined
deriving DecidableEq, Repr

/-- The name written where a policy has none. -/
def unnamed : String := "unknown"

namespace History

def name? : History → Option String
  | systemDefault => some "system_default"
  | keepLast => some "keep_last"
  | keepAll => some "keep_all"
  | unknown => none

def text (p : History) : String := p.name?.getD unnamed

end History

namespace Reliability

def name? : Reliability → Option String
  | systemDefault => some "system_default"
  | reliable => some "reliable"
  | bestEffort => some "best_effort"
  | bestAvailable => some "best_available"
  | unknown => none

def text (p : Reliability) : String := p.name?.getD unnamed

def level : Reliability → Level
  | reliable => .strong
  | bestEffort => .weak
  | bestAvailable => .bestAvailable
  | systemDefault | unknown => .undetermined

end Reliability

namespace Durability

def name? : Durability → Option String
  | systemDefault => some "system_default"
  | transientLocal => some "transient_local"
  | volatile => some "volatile"
  | bestAvailable => some "best_available"
  | unknown => none

def text (p : Durability) : String := p.name?.getD unnamed

def level : Durability → Level
  | transientLocal => .strong
  | volatile => .weak
  | bestAvailable => .bestAvailable
  | systemDefault | unknown => .undetermined

end Durability

namespace Liveliness

def name? : Liveliness → Option String
  | systemDefault => some "system_default"
  | automatic => some "automatic"
  | manualByTopic => some "manual_by_topic"
  | bestAvailable => some "best_available"
  | unknown => none

def text (p : Liveliness) : String := p.name?.getD unnamed

def level : Liveliness → Level
  | manualByTopic => .strong
  | automatic => .weak
  | bestAvailable => .bestAvailable
  | systemDefault | unknown => .undetermined

end Liveliness

end RosGraph.Qos
