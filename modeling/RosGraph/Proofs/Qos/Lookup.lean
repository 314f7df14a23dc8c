import RosGraph.Proofs.Qos.OpenTopic
import RosGraph.Proofs.Qos.Settled

/-! That a lookup is skipped cannot be seen. A profile with nothing left open is what its resolution
would be, whoever the peers are, so that there is no need to ask for them. The lookup reads and changes
a world of its own, of which nothing is known; what it is asked is recorded. An early end keeps the
profile as it was. -/

namespace RosGraph.Qos

variable {World : Type}

/-- A lookup of the endpoints on a topic, which may change the world that it reads. The flag asks for
unmangled names. -/
abbrev Lookup (World : Type) := String → Bool → World → Except Error (List EndpointInfo) × World

/-- The lookup, with a record of what it is asked. -/
def Lookup.recorded (find : Lookup World) (topic : String) (unmangled : Bool) :
    StateM (World × List (String × Bool)) (Except Error (List EndpointInfo)) := fun (w, asked) =>
  let (answer, w') := find topic unmangled w
  (answer, w', asked ++ [(topic, unmangled)])

/-- What a resolution on a topic leads to. -/
structure Resolved (World : Type) where
  outcome : Except Error Unit
  profile : Profile
  world : World
  asked : List (String × Bool)

def Resolved.on (kind : EndpointKind) (topic : String) (find : Lookup World) (p : Profile) (w : World) :
    Resolved World :=
  let ((outcome, profile), w', asked) :=
    (resolveOnTopic kind.resolve topic find.recorded p).run (w, [])
  ⟨outcome, profile, w', asked⟩

/-- A profile with nothing left open is kept by both resolutions, whoever the peers are. -/
theorem resolve_of_not_asksPeers {p : Profile} (kind : EndpointKind) (peers : List Profile)
    (h : ¬ p.asksPeers) : kind.resolve peers p = p := by
  cases kind with
  | writer => exact resolveWith_of_not_asksPeers h
  | reader => exact resolveWith_of_not_asksPeers h

namespace Resolved
variable {topic : String} (kind : EndpointKind) (find : Lookup World) {p : Profile} (w : World)

theorem on_empty : on kind "" find p w = ⟨.error (.invalidArgument "topic_name is empty"), p, w, []⟩ :=
  rfl

theorem on_of_not_asksPeers (htopic : topic ≠ "") (h : ¬ p.asksPeers) :
    on kind topic find p w = ⟨.ok (), p, w, []⟩ := by
  rw [on, resolveOnTopic, if_neg htopic, if_neg h]
  rfl

theorem on_of_asksPeers (htopic : topic ≠ "") (h : p.asksPeers) :
    on kind topic find p w = match find topic false w with
      | (.ok peers, w') => ⟨.ok (), kind.resolve (peers.map (·.qos)) p, w', [(topic, false)]⟩
      | (.error e, w') => ⟨.error e, p, w', [(topic, false)]⟩ := by
  rw [on, resolveOnTopic, if_neg htopic, if_pos h]
  simp only [StateT.run, bind, StateT.bind, Lookup.recorded, List.nil_append]
  rcases find topic false w with ⟨_ | _, w'⟩
  · rfl
  · rfl

end Resolved

/-- Whether the lookup takes place cannot be told from the outcome and the profile. On a topic with a
name, a lookup that would find peers gives the resolution against them, made or not. It is asked at
most once, for mangled names on the topic, exactly if the topic has a name and something is left open;
otherwise its world stays. A topic without a name, or a lookup that fails, gives that error and keeps
the profile. -/
theorem lookup_unseen (kind : EndpointKind) (topic : String) (find : Lookup World) (p : Profile)
    (w : World) :
    let seen := Resolved.on kind topic find p w
    let needed := topic ≠ "" ∧ p.asksPeers
    seen.asked = (if needed then [(topic, false)] else []) ∧
    seen.world = (if needed then (find topic false w).2 else w) ∧
    (topic = "" → seen.outcome = .error (.invalidArgument "topic_name is empty") ∧ seen.profile = p) ∧
    (topic ≠ "" → ∀ peers, (find topic false w).1 = .ok peers →
      seen.outcome = .ok () ∧ seen.profile = kind.resolve (peers.map (·.qos)) p) ∧
    (topic ≠ "" → ¬ p.asksPeers → seen.outcome = .ok () ∧ seen.profile = p) ∧
    ∀ e, needed → (find topic false w).1 = .error e → seen.outcome = .error e ∧ seen.profile = p := by
  intro seen needed
  rcases eq_or_ne topic "" with rfl | htopic
  · have hneeded : ¬ needed := fun h => h.1 rfl
    have hseen : seen = ⟨.error (.invalidArgument "topic_name is empty"), p, w, []⟩ :=
      Resolved.on_empty kind find w
    rw [if_neg hneeded, if_neg hneeded, hseen]
    exact ⟨rfl, rfl, fun _ => ⟨rfl, rfl⟩, fun h => absurd rfl h, fun h => absurd rfl h,
      fun _ h => absurd h hneeded⟩
  by_cases hasks : p.asksPeers
  · have hneeded : needed := ⟨htopic, hasks⟩
    have hseen : seen = _ := Resolved.on_of_asksPeers kind find w htopic hasks
    rw [if_pos hneeded, if_pos hneeded, hseen]
    rcases find topic false w with ⟨e | peers, w'⟩
    · refine ⟨rfl, rfl, fun h => absurd h htopic, fun _ _ h => by contradiction, fun _ h => absurd hasks h,
        fun e' _ h => ?_⟩
      cases h
      exact ⟨rfl, rfl⟩
    · refine ⟨rfl, rfl, fun h => absurd h htopic, fun _ peers' h => ?_, fun _ h => absurd hasks h,
        fun _ _ h => by contradiction⟩
      cases h
      exact ⟨rfl, rfl⟩
  · have hneeded : ¬ needed := fun h => hasks h.2
    have hseen : seen = ⟨.ok (), p, w, []⟩ := Resolved.on_of_not_asksPeers kind find w htopic hasks
    rw [if_neg hneeded, if_neg hneeded, hseen]
    refine ⟨rfl, rfl, fun h => absurd h htopic, fun _ peers _ => ⟨rfl, ?_⟩, fun _ _ => ⟨rfl, rfl⟩,
      fun _ h => absurd h hneeded⟩
    exact (resolve_of_not_asksPeers kind _ hasks).symm

/-- A lookup that counts how often it is made, and fails but on one topic. A subscription that leaves
everything open makes it once, one with nothing left open does not, and both have what resolution
against the publisher there gives. -/
theorem lookup_unseen_counted :
    let publisher : EndpointInfo := ⟨"talker", "/", "String", .writer, .zero, { reliability := .bestEffort }⟩
    let failed : Error := .invalidArgument "lookup failed"
    let find : Lookup Nat := fun topic _ n =>
      (if topic = "rt/chatter" then .ok [publisher] else .error failed, n + 1)
    let chosen := Resolved.on .reader "rt/chatter" find .bestAvailable 0
    let kept := Resolved.on .reader "rt/chatter" find .standard 0
    let lost := Resolved.on .reader "rt/other" find .bestAvailable 0
    (chosen.asked = [("rt/chatter", false)] ∧ chosen.world = 1 ∧
      chosen.profile = .resolveSubscription [publisher.qos] .bestAvailable) ∧
    (kept.asked = [] ∧ kept.world = 0 ∧
      kept.profile = .resolveSubscription [publisher.qos] .standard) ∧
    lost.outcome = .error failed ∧ lost.profile = .bestAvailable := by
  intro publisher failed find chosen kept lost
  have hchosen := lookup_unseen .reader "rt/chatter" find .bestAvailable 0
  have hkept := lookup_unseen .reader "rt/chatter" find .standard 0
  have hlost := lookup_unseen .reader "rt/other" find .bestAvailable 0
  refine ⟨⟨hchosen.1, hchosen.2.1, ?_⟩, ⟨hkept.1, hkept.2.1, ?_⟩, ?_⟩
  · exact (hchosen.2.2.2.1 (by decide) [publisher] rfl).2
  · exact (hkept.2.2.2.1 (by decide) [publisher] rfl).2
  · exact hlost.2.2.2.2.2 failed ⟨by decide, rfl⟩ rfl

end RosGraph.Qos
