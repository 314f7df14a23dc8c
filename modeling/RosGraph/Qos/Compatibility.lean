import RosGraph.Qos.Profile

/-! Whether a publisher can serve a subscription. A conflict is a policy that
the subscription requests and the publisher does not offer; the endpoints will
not communicate. A doubt is a policy whose outcome hangs on a setting that the
profile leaves undetermined. Doubts count only where there is no conflict. -/

namespace RosGraph.Qos

/-- The weak setting is offered where the strong one is requested. -/
def Level.conflicts (offered requested : Level) : Bool := offered = .weak && requested = .strong

/-- What leaves an outcome open: the settings on both sides, or the one named. -/
inductive Doubt (Policy : Type)
  | both (offered requested : Policy)
  | offer (offered : Policy)
  | request (requested : Policy)
deriving DecidableEq, Repr

/-- There is a doubt where the outcome could be a conflict and need not be. -/
def doubt? {Policy : Type} (level : Policy → Level) (offered requested : Policy) :
    Option (Doubt Policy) :=
  match level offered, level requested with
  | .undetermined, .undetermined => some (.both offered requested)
  | .undetermined, .strong => some (.offer offered)
  | .weak, .undetermined => some (.request requested)
  | _, _ => none

/-- How an offered period fails a requested one. -/
inductive Shortfall
  | missing
  | tooLong
deriving DecidableEq, Repr

/-- A period is requested if set, and served by one that is set and no longer. -/
def shortfall? (offered requested : Period) : Option Shortfall :=
  if requested = .unset then none
  else if offered = .unset then some .missing
  else if requested < offered then some .tooLong
  else none

inductive Conflict
  | reliability
  | durability
  | deadline (cause : Shortfall)
  | liveliness
  | lease (cause : Shortfall)
deriving DecidableEq, Repr

def Conflict.text : Conflict → String
  | reliability => "ERROR: Best effort publisher and reliable subscription;"
  | durability => "ERROR: Volatile publisher and transient local subscription;"
  | deadline .missing => "ERROR: Subscription has a deadline, but publisher does not;"
  | deadline .tooLong => "ERROR: Subscription deadline is less than publisher deadline;"
  | liveliness =>
    "ERROR: Publisher's liveliness is automatic and subscription's is manual by topic;"
  | lease .missing =>
    "ERROR: Subscription has a liveliness lease duration, but publisher does not;"
  | lease .tooLong => "ERROR: Subscription liveliness lease duration is less than publisher;"

inductive Warning
  | reliability (doubt : Doubt Reliability)
  | durability (doubt : Doubt Durability)
  | liveliness (doubt : Doubt Liveliness)
deriving DecidableEq, Repr

def Warning.text : Warning → String
  | reliability (.both p s) =>
    s!"WARNING: Publisher reliability is {p.text} and subscription reliability is {s.text};"
  | reliability (.offer p) => s!"WARNING: Reliable subscription, but publisher is {p.text};"
  | reliability (.request s) => s!"WARNING: Best effort publisher, but subscription is {s.text};"
  | durability (.both p s) =>
    s!"WARNING: Publisher durability is {p.text} and subscription durability is {s.text};"
  | durability (.offer p) => s!"WARNING: Transient local subscription, but publisher is {p.text};"
  | durability (.request s) => s!"WARNING: Volatile publisher, but subscription is {s.text};"
  | liveliness (.both p s) =>
    s!"WARNING: Publisher liveliness is {p.text} and subscription liveliness is {s.text};"
  | liveliness (.offer p) =>
    s!"WARNING: Subscription's liveliness is manual by topic, but publisher's is {p.text};"
  | liveliness (.request s) =>
    s!"WARNING: Publisher's liveliness is automatic, but subscription's is {s.text};"

inductive Verdict
  | ok
  | warning
  | error
deriving DecidableEq, Repr

variable (publisher subscription : Profile)

/-- All conflicts, in the order in which they are reported. -/
def conflicts : List Conflict :=
  (if publisher.reliability.level.conflicts subscription.reliability.level
    then [.reliability] else []) ++
  (if publisher.durability.level.conflicts subscription.durability.level
    then [.durability] else []) ++
  (shortfall? publisher.deadline subscription.deadline).toList.map .deadline ++
  (if publisher.liveliness.level.conflicts subscription.liveliness.level
    then [.liveliness] else []) ++
  (shortfall? publisher.lease subscription.lease).toList.map .lease

/-- All doubts, in the order in which they are reported. -/
def warnings : List Warning :=
  (doubt? Reliability.level publisher.reliability subscription.reliability).toList.map
    .reliability ++
  (doubt? Durability.level publisher.durability subscription.durability).toList.map .durability ++
  (doubt? Liveliness.level publisher.liveliness subscription.liveliness).toList.map .liveliness

def verdict : Verdict :=
  if conflicts publisher subscription ≠ [] then .error
  else if warnings publisher subscription ≠ [] then .warning
  else .ok

/-- One entry for each conflict, or for each doubt where there is no conflict. -/
def reasons : List String :=
  match conflicts publisher subscription with
  | [] => (warnings publisher subscription).map Warning.text
  | found => found.map Conflict.text

def reason : String := String.join (reasons publisher subscription)

/-- The start of a text in a buffer whose length stays: as many of its bytes as
leave room for a closing zero byte, and the rest of the buffer as it was. -/
def writeTerminated (text : List UInt8) : List UInt8 → List UInt8
  | [] => []
  | buffer@(_ :: room) =>
    let written := text.take room.length
    written ++ 0 :: buffer.drop (written.length + 1)

/-- The verdict, with the reason written into a buffer. -/
def verdictInto (buffer : List UInt8) : Verdict × List UInt8 :=
  (verdict publisher subscription,
    writeTerminated (reason publisher subscription).toUTF8.data.toList buffer)

end RosGraph.Qos
