import RosGraph.Period
import RosGraph.Qos.Policy

/-! A quality-of-service profile and the named ones. -/

namespace RosGraph.Qos

structure Profile where
  history : History := .keepLast
  depth : UInt64 := 10
  reliability : Reliability := .reliable
  durability : Durability := .volatile
  deadline : Period := .unset
  lifespan : Period := .unset
  liveliness : Liveliness := .systemDefault
  lease : Period := .unset
  avoidsNamespaceConventions : Bool := false
deriving DecidableEq, Repr

namespace Profile

/-- Reliable, volatile, the last ten samples. -/
def standard : Profile := {}

instance : Inhabited Profile := ⟨standard⟩

/-- Every policy left to the middleware. -/
def systemDefault : Profile where
  history := .systemDefault
  depth := 0
  reliability := .systemDefault
  durability := .systemDefault

/-- For the clients and servers of services. -/
def services : Profile := standard

/-- For streams of sensor samples: best effort, the last five. -/
def sensorData : Profile where
  depth := 5
  reliability := .bestEffort

/-- Every policy that can be negotiated is left to the peers. -/
def bestAvailable : Profile where
  reliability := .bestAvailable
  durability := .bestAvailable
  deadline := .bestAvailable
  liveliness := .bestAvailable
  lease := .bestAvailable

/-- Some policy is left to the peers. -/
def asksPeers (p : Profile) : Bool :=
  p.reliability = .bestAvailable || p.durability = .bestAvailable ||
    p.liveliness = .bestAvailable || p.deadline = .bestAvailable || p.lease = .bestAvailable

end Profile

end RosGraph.Qos
