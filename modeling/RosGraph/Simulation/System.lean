import RosGraph.Graph.Query
import RosGraph.Lifecycle

/-! A system of named graph caches and contexts, for playing scenarios. Listeners
and publishers follow scripts; what they do is recorded as events. -/

namespace RosGraph.Simulation

/-- The script of a listener, with the number of times that it was told. -/
structure Listener where
  label : String := ""
  /-- Look at the nodes of this participant, instead of the number of all nodes. -/
  watch : Option Gid := none
  /-- Stop listening when told for this many times. -/
  limit : Option Nat := none
  /-- Add one of these participants each time. -/
  enlist : List Gid := []
  told : Nat := 0
deriving DecidableEq, Repr

inductive Seen
  | nodeCount (n : Nat)
  | participant (a : Option Announcement)
deriving DecidableEq, Repr

inductive Event
  | published (context : String) (message : Announcement)
  | changed (cache label : String) (seen : Seen)
deriving DecidableEq, Repr

/-- The script of a publisher. It hands an announcement to caches, then to
contexts, and then gives its outcomes in turn, the last one again and again. -/
structure Script where
  forward : List String := []
  deliver : List String := []
  outcomes : List (Option Error) := []
deriving DecidableEq, Repr

def Script.outcome (script : Script) (n : Nat) : Lifecycle.Delivery :=
  match script.outcomes[min n (script.outcomes.length - 1)]?.join with
  | none => .sent
  | some e => .failed e

structure CacheState where
  cache : Cache := {}
  listener : Option Listener := none

/-- A publisher in place: its script, what it does on top of that, and the number
of announcements that it was given. -/
structure Attachment (Step : Type) where
  script : Script
  steps : List Step
  given : Nat := 0

structure ContextState (Step : Type) where
  gid : Gid
  cache : String
  attached : Option (Attachment Step) := none

/-- Caches that were never mentioned are empty. -/
structure System (Step : Type) where
  caches : SortedMap String CacheState := ∅
  contexts : SortedMap String (ContextState Step) := ∅
  events : List Event := []
  log : List Log.Record := []

namespace System

variable {Step : Type}

def cacheState (s : System Step) (name : String) : CacheState := (s.caches.get? name).getD {}

def modifyCache (name : String) (f : CacheState → CacheState) (s : System Step) : System Step :=
  { s with caches := s.caches.insert name (f (s.cacheState name)) }

def modifyContext (name : String) (f : ContextState Step → ContextState Step) (s : System Step) :
    System Step :=
  { s with contexts := s.contexts.alter name (·.map f) }

def happen (e : Event) (s : System Step) : System Step := { s with events := s.events ++ [e] }

/-- The site of a cache, given what its listener does. -/
def siteWith (changed : System Step → System Step) (name : String) : Site (System Step) where
  cache s := (s.cacheState name).cache
  setCache c := modifyCache name ({ · with cache := c })
  report log s := { s with log := s.log ++ log }
  changed := changed

def seenBy (l : Listener) (g : Graph) : Seen :=
  match l.watch with
  | none => .nodeCount g.nodeCount
  | some gid => .participant (g.participant? gid)

/-- Tell the listener of a cache. It may add a participant and so be told again
before it is done; `bound` limits how often that nests. -/
def tell (name : String) : Nat → System Step → System Step
  | 0, s => s
  | bound + 1, s => match (s.cacheState name).listener with
    | none => s
    | some l =>
      let s := happen (.changed name l.label (seenBy l (s.cacheState name).cache.graph)) s
      let stops := l.limit.any (· ≤ l.told + 1)
      let kept := if stops then none else some { l with told := l.told + 1 }
      let s := modifyCache name ({ · with listener := kept }) s
      match l.enlist[l.told]? with
      | none => s
      | some gid => ((siteWith (tell name bound) name).perform (.addParticipant gid) s).2

/-- A listener is told again only while it has participants left to add. -/
def listenerBound (s : System Step) (name : String) : Nat :=
  ((s.cacheState name).listener.map (·.enlist.length)).getD 0 + 1

def site (name : String) : Site (System Step) :=
  siteWith (fun s => s.tell name (s.listenerBound name)) name

end System

end RosGraph.Simulation
