import RosGraph.Proofs.Commit

/-! Windows are opened and closed in pairs. All that can be done with a shared graph leaves the
number of open windows as it was, and holds no notice back once they are closed, provided that
listeners and publishers do so too; what they do with the graph are such calls again. A window
that is opened and closed with nothing in between leaves no trace. -/

namespace RosGraph

open Lifecycle

variable {σ α : Type}

namespace Window

/-- A notice is held back in a window only. -/
def Tidy (w : Window) : Prop := w.depth = 0 → w.pending = false

instance (w : Window) : Decidable w.Tidy := inferInstanceAs (Decidable (_ → _))

theorem tidy_of_open {w : Window} (h : 0 < w.depth) : w.Tidy := fun hzero => absurd hzero (Nat.ne_of_gt h)

theorem closed_opened {w : Window} (h : w.Tidy) : w.opened.closed = (false, w) := by
  obtain ⟨depth, pending⟩ := w
  rw [closed, if_neg]
  · rfl
  · rintro ⟨hdepth, hpending⟩
    have hheld : pending = false := h (Nat.succ.inj hdepth)
    exact absurd (hheld.symm.trans hpending) Bool.false_ne_true

/-- What is held back at the end of the outermost window is given then. -/
theorem tidy_closed {w : Window} (h : 0 < w.depth) :
    w.closed.2.Tidy ∧ w.closed.2.depth = w.depth - 1 := by
  rw [closed]
  split_ifs with hlast
  · exact ⟨fun _ => rfl, by rw [hlast.1]⟩
  · refine ⟨fun hzero => ?_, rfl⟩
    have hdepth : w.depth = 1 := by
      have hsub : w.depth - 1 = 0 := hzero
      omega
    exact Bool.eq_false_iff.2 fun hpending => hlast ⟨hdepth, hpending⟩

end Window

namespace Site

/-- The cache is a part of the state. -/
class Part (site : Site σ) : Prop extends site.Lawful where
  setCache_setCache (c c' : Cache) (s : σ) : site.setCache c (site.setCache c' s) = site.setCache c s
  setCache_cache (s : σ) : site.setCache (site.cache s) s = s

variable (site : Site σ)

def Tidy (s : σ) : Prop := (site.cache s).window.Tidy

/-- From the one state to the other, windows were opened and closed in pairs. -/
def Paired (s t : σ) : Prop :=
  site.Tidy s → site.Tidy t ∧ (site.cache t).window.depth = (site.cache s).window.depth

/-- An action opens and closes windows in pairs. -/
def Balanced (act : σ → σ) : Prop := ∀ s, site.Paired s (act s)

/-- So does every publisher that may be attached. -/
def BalancedPublisher (publisher : σ → Option (Publisher σ)) : Prop :=
  ∀ s send, publisher s = some send → ∀ a, site.Balanced fun t => (send a t).2

variable {site} {s t u : σ}

theorem setWindow_setWindow [site.Part] (w w' : Window) (s : σ) :
    site.setWindow w (site.setWindow w' s) = site.setWindow w s := by
  rw [setWindow, cache_setWindow]
  exact Part.setCache_setCache _ _ s

theorem setWindow_window [site.Part] (s : σ) : site.setWindow (site.cache s).window s = s :=
  Part.setCache_cache s

theorem closed_opened [site.Part] (h : site.Tidy s) : site.closed (site.opened s) = s := by
  have hclosed : (site.cache (site.opened s)).window.closed = (false, (site.cache s).window) := by
    rw [cache_opened]
    exact Window.closed_opened h
  simp only [closed, hclosed, Bool.false_eq_true, if_false]
  rw [opened, setWindow_setWindow, setWindow_window]

theorem Paired.refl (s : σ) : site.Paired s s := fun h => ⟨h, rfl⟩

theorem Paired.trans (hst : site.Paired s t) (htu : site.Paired t u) : site.Paired s u := by
  intro h
  obtain ⟨ht, hdepth⟩ := hst h
  obtain ⟨hu, hdepth'⟩ := htu ht
  exact ⟨hu, hdepth'.trans hdepth⟩

theorem paired_of_window_eq (h : (site.cache t).window = (site.cache s).window) : site.Paired s t := by
  intro htidy
  rw [Tidy, h]
  exact ⟨htidy, rfl⟩

section Calls
variable [site.Lawful] (hlistener : site.Balanced site.changed)

theorem paired_setGraph (g : Graph) (s : σ) : site.Paired s (site.setGraph g s) :=
  paired_of_window_eq (by rw [cache_setGraph])

theorem paired_report (log : List Log.Record) (s : σ) : site.Paired s (site.report log s) :=
  paired_of_window_eq (by rw [cache_report])

include hlistener

theorem paired_notify (s : σ) : site.Paired s (site.notify s) := by
  intro htidy
  by_cases hopen : 0 < (site.cache s).window.depth
  · have hcache := cache_notify_of_open hopen
    rw [Tidy, hcache]
    exact ⟨Window.tidy_of_open hopen, rfl⟩
  · have hnotify : site.notify s = site.changed (site.setWindow (site.cache s).window s) := by
      simp [notify, Window.notice, hopen]
    rw [hnotify]
    exact (paired_of_window_eq (by rw [cache_setWindow])).trans (hlistener _) htidy

theorem paired_realize (e : Effect α) (s : σ) : site.Paired s (site.realize e s) := by
  have hset : site.Paired s (site.report e.log (site.setGraph e.graph s)) :=
    (paired_setGraph e.graph s).trans (paired_report e.log _)
  rw [realize]
  split_ifs
  · exact hset.trans (paired_notify hlistener _)
  · exact hset

theorem paired_attempt (e : Except Violation (Effect α)) (s : σ) : site.Paired s (site.attempt e s).2 := by
  cases e with
  | error v => exact Paired.refl s
  | ok e => exact paired_realize hlistener e s

theorem paired_perform (m : Mutation) (s : σ) : site.Paired s (site.perform m s).2 :=
  paired_attempt hlistener _ s

theorem paired_restoreNodes (gid : Gid) (nodes : List HostedNode) (s : σ) :
    site.Paired s (site.restoreNodes gid nodes s) :=
  (paired_setGraph _ s).trans (paired_notify hlistener _)

theorem paired_changeNodeAll (gid : Gid) (node : NodeName) (changes : List NodeChange)
    (last : Announcement) (s : σ) : site.Paired s (site.changeNodeAll gid node changes last s).2 := by
  induction changes generalizing last s with
  | nil => exact Paired.refl s
  | cons change rest ih =>
    have hchange : site.Paired s (site.changeNode gid node change s).2 := paired_attempt hlistener _ s
    rw [changeNodeAll]
    split
    · next heq => rwa [heq] at hchange
    · next heq =>
      rw [heq] at hchange
      exact hchange.trans (ih _ _)

/-- The innermost window closes, and no other one. -/
theorem depth_closed (h : 0 < (site.cache s).window.depth) : site.Tidy (site.closed s) ∧
    (site.cache (site.closed s)).window.depth = (site.cache s).window.depth - 1 := by
  obtain ⟨htidy, hdepth⟩ := Window.tidy_closed h
  have hset : (site.cache (site.setWindow (site.cache s).window.closed.2 s)).window =
      (site.cache s).window.closed.2 := by rw [cache_setWindow]
  rw [closed]
  split_ifs
  · obtain ⟨htold, htoldDepth⟩ := hlistener (site.setWindow (site.cache s).window.closed.2 s)
      (by rwa [Tidy, hset])
    exact ⟨htold, by rw [htoldDepth, hset, hdepth]⟩
  · exact ⟨by rwa [Tidy, hset], by rw [hset, hdepth]⟩

/-- The window around a body is closed at its end, however many are open outside. -/
theorem paired_deferring {body : σ → α × σ} (hbody : ∀ s, site.Paired s (body s).2) (s : σ) :
    site.Paired s (site.deferring body s).2 := by
  -- Whether the state outside is tidy does not matter: the body runs in an open window.
  intro _
  have hopened : (site.cache (site.opened s)).window.depth = (site.cache s).window.depth + 1 := by
    rw [cache_opened, Window.opened]
  have hopen : 0 < (site.cache (site.opened s)).window.depth := by omega
  obtain ⟨-, hdepth⟩ := hbody (site.opened s) (Window.tidy_of_open hopen)
  obtain ⟨hclosed, hclosedDepth⟩ := depth_closed hlistener (hdepth.symm ▸ hopen)
  rw [deferring_eq]
  exact ⟨hclosed, hclosedDepth.trans (by omega)⟩

end Calls

end Site

namespace LocalParticipant
variable {p : LocalParticipant σ} [p.site.Lawful] (hlistener : p.site.Balanced p.site.changed)
include hlistener

theorem paired_join (s : σ) : p.site.Paired s (p.join s) := Site.paired_perform hlistener _ s

theorem paired_receive (a : Announcement) (s : σ) : p.site.Paired s (p.receive a s) := by
  rw [receive]
  split_ifs
  · exact Site.paired_report _ s
  · exact Site.paired_perform hlistener _ s

end LocalParticipant

namespace Context
variable {c : Context σ} (hpublisher : c.site.BalancedPublisher c.publisher)
include hpublisher

theorem paired_publish (a : Announcement) (s : σ) : c.site.Paired s (c.publish a s).2 := by
  rw [publish]
  split
  · exact Site.Paired.refl s
  · next send hsend => exact hpublisher s send hsend a s

variable [c.site.Lawful] (hlistener : c.site.Balanced c.site.changed)
include hlistener

theorem paired_commit (purpose : String) (previous : List HostedNode) (a : Announcement) (s : σ) :
    c.site.Paired s (c.commit purpose previous a s).2 := by
  have hpublish := paired_publish hpublisher a s
  match hp : c.publish a s with
  | (.sent, t) =>
    rw [hp] at hpublish
    rw [commit_of_sent _ _ hp]
    exact hpublish.trans (Site.paired_report _ t)
  | (.failed e, t) =>
    rw [hp] at hpublish
    rw [commit_of_failed _ _ hp]
    exact (hpublish.trans (Site.paired_report _ t)).trans (Site.paired_restoreNodes hlistener _ _ _)
  | (.crashed why, t) =>
    rw [hp] at hpublish
    rwa [commit_of_crashed _ _ hp]

theorem paired_run (call : Call) (s : σ) : c.site.Paired s (c.run call s).2 := by
  refine Site.paired_deferring hlistener (fun t => ?_) s
  have hchange := Site.paired_changeNodeAll hlistener c.gid call.node call.changes
    ⟨c.gid, c.ownNodes t⟩ t
  dsimp only
  split
  · next heq => rwa [heq] at hchange
  · next heq =>
    rw [heq] at hchange
    exact hchange.trans (paired_commit hpublisher hlistener _ _ _ _)

end Context

end RosGraph
