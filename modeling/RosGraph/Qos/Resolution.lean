import RosGraph.Endpoint

/-! Policies left to the peers are resolved against the profiles found on the
topic. A subscription requests what every publisher offers; a publisher offers
what serves every subscription. No other field of a profile changes. -/

namespace RosGraph.Qos

/-- The longest of the periods that are set. -/
def longestSet (periods : List Period) : Period :=
  ((periods.filter (· ≠ .unset)).max?).getD .unset

/-- The shortest of the periods that are set. -/
def shortestSet (periods : List Period) : Period :=
  ((periods.filter (· ≠ .unset)).min?).getD .unset

namespace Profile

/-- Take each policy that is left to the peers from `choice`. -/
def resolveWith (choice p : Profile) : Profile :=
  { p with
    reliability := if p.reliability = .bestAvailable then choice.reliability else p.reliability
    durability := if p.durability = .bestAvailable then choice.durability else p.durability
    liveliness := if p.liveliness = .bestAvailable then choice.liveliness else p.liveliness
    deadline := if p.deadline = .bestAvailable then choice.deadline else p.deadline
    lease := if p.lease = .bestAvailable then choice.lease else p.lease }

/-- The strongest request that every publisher serves, with the longest periods
that any of them declares. -/
def servedByAll (publishers : List Profile) : Profile where
  reliability := if publishers.all (·.reliability = .reliable) then .reliable else .bestEffort
  durability :=
    if publishers.all (·.durability = .transientLocal) then .transientLocal else .volatile
  liveliness := if publishers.all (·.liveliness = .manualByTopic) then .manualByTopic else .automatic
  deadline := longestSet (publishers.map (·.deadline))
  lease := longestSet (publishers.map (·.lease))

/-- Reliable and transient local serve every subscription; liveliness and periods
follow the most demanding one. -/
def servingAll (subscriptions : List Profile) : Profile where
  reliability := .reliable
  durability := .transientLocal
  liveliness :=
    if subscriptions.any (·.liveliness = .manualByTopic) then .manualByTopic else .automatic
  deadline := shortestSet (subscriptions.map (·.deadline))
  lease := shortestSet (subscriptions.map (·.lease))

def resolveSubscription (publishers : List Profile) (p : Profile) : Profile :=
  resolveWith (servedByAll publishers) p

def resolvePublisher (subscriptions : List Profile) (p : Profile) : Profile :=
  resolveWith (servingAll subscriptions) p

/-- Services have no peers to ask. -/
def resolveService (p : Profile) : Profile := resolveWith services p

end Profile

/-- Resolve a profile on a topic against the endpoints that `lookup` finds there
under the mangled name (its second argument asks for unmangled names). A profile
with nothing to resolve is kept without a lookup, and a failed lookup keeps it. -/
def resolveOnTopic {m : Type → Type} [Monad m] (resolve : List Profile → Profile → Profile)
    (topic : String) (lookup : String → Bool → m (Except Error (List EndpointInfo)))
    (p : Profile) : m (Except Error Unit × Profile) :=
  if topic = "" then pure (.error (.invalidArgument "topic_name is empty"), p)
  else if p.asksPeers then do
    match ← lookup topic false with
    | .error e => pure (.error e, p)
    | .ok peers => pure (.ok (), resolve (peers.map (·.qos)) p)
  else pure (.ok (), p)

end RosGraph.Qos
