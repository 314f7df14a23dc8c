import RosGraph.Graph.Dump
import RosGraph.Qos.Resolution
import RosGraph.Simulation.System

/-! The steps of a scenario and how they are played. A publisher may itself take
steps while it publishes, so playing nests: each level is inside a call of another
context. A step of a publisher that crashes, or that cannot be played at all, makes
all the calls crash that it is nested in. A scenario is played with as many levels
as it has steps. -/

namespace RosGraph.Simulation

inductive Query
  | participant (gid : Gid)
  | endpointCount (kind : EndpointKind) (topic : String)
  | namesAndTypes (d : Demangling)
  | namesAndTypesOf (kind : EndpointKind) (node : NodeName) (d : Demangling)
  | endpointsInfo (kind : EndpointKind) (topic : String) (showType : String → String)
  | nodeCount
  | nodeNames
  | dump
  /-- Resolve the profile of a new endpoint of this kind on a topic. -/
  | resolve (kind : EndpointKind) (topic : String) (profile : Qos.Profile)

inductive Reply
  | answer (a : Answer)
  | message (a : Option Announcement)
  | gid (g : Gid)
  | count (n : Nat)
  | names (shown : NamesAndTypes)
  | endpoints (found : List EndpointInfo)
  | nodes (names : List NodeName)
  | text (t : String)
  | profile (p : Qos.Profile)
  | refused (e : Error)
  | crashed (c : Lifecycle.Crash)
  /-- There is no such step to play. -/
  | unplayable (reason : String)

def Reply.done : Reply := .answer .done

def Reply.ofExcept {α : Type} (f : α → Reply) : Except Error α → Reply
  | .ok a => f a
  | .error e => .refused e

def Query.ask (g : Graph) : Query → Reply
  | participant gid => .message (g.participant? gid)
  | endpointCount kind topic => .count (g.endpointCount kind topic)
  | namesAndTypes d => .names (g.namesAndTypes d)
  | namesAndTypesOf kind node d => .ofExcept .names (g.namesAndTypesOf kind node d)
  | endpointsInfo kind topic showType => .endpoints (g.endpointsInfo kind topic showType)
  | nodeCount => .count g.nodeCount
  | nodeNames => .nodes g.nodeNames
  | dump => .text g.dump
  | resolve .reader topic p => resolved .resolveSubscription .writer topic p
  | resolve .writer topic p => resolved .resolvePublisher .reader topic p
where
  resolved (rule : List Qos.Profile → Qos.Profile → Qos.Profile) (peers : EndpointKind)
      (topic : String) (p : Qos.Profile) : Reply :=
    let r := Id.run (Qos.resolveOnTopic rule topic
      (fun topic _ => pure (.ok (g.endpointsInfo peers topic id))) p)
    .ofExcept (fun _ => .profile r.2) r.1

inductive CacheStep
  | mutate (m : Mutation)
  | query (q : Query)
  | listen (l : Listener)
  | unlisten

inductive Step
  | cache (name : String) (step : CacheStep)
  | create (context : String) (gid : Gid) (cache : String)
  | contextGid (context : String)
  | ownNodes (context : String)
  | attach (context : String) (script : Script) (steps : List Step)
  | detach (context : String)
  | receive (context : String) (message : Announcement)
  | call (context : String) (c : Lifecycle.Call)
  /-- A step that was not understood, and why. -/
  | unknown (reason : String)

mutual

/-- The number of steps, those of publishers included. -/
def Step.weight : Step → Nat
  | .attach _ _ steps => weights steps + 1
  | _ => 1

def weights : List Step → Nat
  | [] => 0
  | step :: rest => step.weight + weights rest

end

abbrev World := System Step

namespace World

def playOnCache (name : String) (s : World) : CacheStep → Reply × World
  | .mutate m => match (System.site name).perform m s with
    | (.ok a, s) => (.answer a, s)
    | (.error v, s) => (.crashed (.violation v), s)
  | .query q => (q.ask (s.cacheState name).cache.graph, s)
  | .listen l => (.done, s.modifyCache name ({ · with listener := some l }))
  | .unlisten => (.done, s.modifyCache name ({ · with listener := none }))

def participant (c : ContextState Step) : LocalParticipant World := ⟨c.gid, System.site c.cache⟩

def receive (name : String) (a : Announcement) (s : World) : World :=
  match s.contexts.get? name with
  | none => s
  | some c => (participant c).receive a s

/-- Play steps in order, up to the first that crashes or cannot be played. -/
def playUnlessCrashed (play : Step → World → Reply × World) :
    List Step → World → Except Lifecycle.Crash Unit × World
  | [], s => (.ok (), s)
  | step :: rest, s => match play step s with
    | (.crashed c, s) => (.error c, s)
    | (.unplayable reason, s) => (.error (.publisher s!"mutate step: \"{reason}\""), s)
    | (_, s) => playUnlessCrashed play rest s

/-- What a publisher does with an announcement, given how its own steps are played. -/
def publish (play : Step → World → Reply × World) (name : String) (p : Attachment Step) :
    Publisher World := fun a s =>
  let s := s.modifyContext name ({ · with attached := some { p with given := p.given + 1 } })
  let s := s.happen (.published name a)
  let s := p.script.forward.foldl (fun s cache =>
    ((System.site cache).perform (.announce a) s).2) s
  let s := p.script.deliver.foldl (fun s peer => receive peer a s) s
  match playUnlessCrashed play p.steps s with
  | (.ok (), s) => (p.script.outcome p.given, s)
  | (.error c, s) => (.crashed c, s)

def context (play : Step → World → Reply × World) (name : String) (c : ContextState Step) :
    Context World where
  toLocalParticipant := participant c
  publisher s := ((s.contexts.get? name).bind (·.attached)).map (publish play name)

/-- Use a context by name. -/
def withContext (name : String) (f : ContextState Step → World → Reply × World) (s : World) :
    Reply × World :=
  match s.contexts.get? name with
  | none => (.unplayable "unknown context", s)
  | some c => f c s

/-- Play one step, given how the steps of publishers are played. -/
def playWith (play : Step → World → Reply × World) : Step → World → Reply × World
  | .cache name step, s => s.playOnCache name step
  | .create name gid cache, s =>
    let c : ContextState Step := { gid, cache }
    let s := (participant c).join s
    (.done, { s with contexts := s.contexts.insert name c })
  | .contextGid name, s => withContext name (fun c s => (.gid c.gid, s)) s
  | .ownNodes name, s => withContext name (fun c s => (.message ((participant c).own? s), s)) s
  | .attach name script steps, s =>
    withContext name (fun _ s =>
      (.done, s.modifyContext name ({ · with attached := some { script, steps } }))) s
  | .detach name, s =>
    withContext name (fun _ s => (.done, s.modifyContext name ({ · with attached := none }))) s
  | .receive name a, s => withContext name (fun _ s => (.done, s.receive name a)) s
  | .call name c, s =>
    withContext name (fun state s =>
      let r := (context play name state).run c s
      (replyOf r.1, r.2)) s
  | .unknown reason, s => (.unplayable reason, s)
where
  replyOf : Lifecycle.Outcome → Reply
    | .announced => .done
    | .refused e => .refused e
    | .crashed c => .crashed c

/-- Play one step, with publishers nested up to a depth. -/
def play : Nat → Step → World → Reply × World
  | 0 => playWith fun _ s => (.done, s)
  | depth + 1 => playWith (play depth)

end World

/-- What came of a step: its reply, and what happened and was logged meanwhile. -/
structure Report where
  reply : Reply
  events : List Event
  log : List Log.Record

/-- Play steps in order, with publishers nested up to a depth. -/
def playAll (depth : Nat) (s : World) : List Step → List Report
  | [] => []
  | step :: rest =>
    let r := World.play depth step { s with events := [], log := [] }
    ⟨r.1, r.2.events, r.2.log⟩ :: playAll depth r.2 rest

/-- Play a scenario from the empty world. -/
def reports (steps : List Step) : List Report := playAll (weights steps) {} steps

end RosGraph.Simulation
