import RosGraph.Graph.Basic
import RosGraph.Window

/-! A graph that is shared by many users, and the calls on it. Calls act on a
larger state of any type: a `Site` says where the cache is in it, where log
records go and what it means that the listener is told of a change. A listener
runs after the change that it is told of, and may itself act on the state. -/

namespace RosGraph

structure Cache where
  graph : Graph := {}
  window : Window := {}
deriving DecidableEq, Inhabited

structure Site (σ : Type) where
  cache : σ → Cache
  setCache : Cache → σ → σ
  report : List Log.Record → σ → σ
  /-- The listener, if there is one, is told of a change. -/
  changed : σ → σ

namespace Site

variable {σ α : Type} (site : Site σ)

def graph (s : σ) : Graph := (site.cache s).graph

def setGraph (g : Graph) (s : σ) : σ := site.setCache { site.cache s with graph := g } s

def setWindow (w : Window) (s : σ) : σ := site.setCache { site.cache s with window := w } s

/-- Tell the listener of a change, now or when the window closes. -/
def notify (s : σ) : σ :=
  let notice := (site.cache s).window.notice
  let s := site.setWindow notice.2 s
  if notice.1 then site.changed s else s

/-- Bring about an effect: the change first, then its record, then the notice. -/
def realize (e : Effect α) (s : σ) : σ :=
  let s := site.report e.log (site.setGraph e.graph s)
  if e.notifies then site.notify s else s

/-- A breach of contract leaves the state as it is. -/
def attempt (e : Except Violation (Effect α)) (s : σ) : Except Violation α × σ :=
  match e with
  | .error v => (.error v, s)
  | .ok e => (.ok e.answer, site.realize e s)

def perform (m : Mutation) (s : σ) : Except Violation Answer × σ :=
  site.attempt (m.apply (site.graph s)) s

def changeNode (gid : Gid) (node : NodeName) (change : NodeChange) (s : σ) :
    Except Violation Announcement × σ :=
  site.attempt ((site.graph s).changeNode gid node change) s

/-- Change a node several times, up to the first breach of contract. The answer
is that of the last change, or `last` if there is none. -/
def changeNodeAll (gid : Gid) (node : NodeName) : List NodeChange → Announcement → σ →
    Except Violation Announcement × σ
  | [], last, s => (.ok last, s)
  | change :: rest, _, s => match site.changeNode gid node change s with
    | (.error v, s) => (.error v, s)
    | (.ok a, s) => changeNodeAll gid node rest a s

/-- Put a node list back. -/
def restoreNodes (gid : Gid) (nodes : List HostedNode) (s : σ) : σ :=
  site.notify (site.setGraph ((site.graph s).setNodes gid nodes) s)

/-- Hold notices back while a call runs, however it ends. -/
def deferring (body : σ → α × σ) (s : σ) : α × σ :=
  let r := body (site.setWindow (site.cache s).window.opened s)
  let closing := (site.cache r.2).window.closed
  let s := site.setWindow closing.2 r.2
  (r.1, if closing.1 then site.changed s else s)

end Site

end RosGraph
