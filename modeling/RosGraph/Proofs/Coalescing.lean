import RosGraph.Proofs.Latch
import RosGraph.Proofs.Watched

/-! Windows coalesce notices and lose none. However windows are nested, the listener is told once at the
end of the outermost one if a notice came inside it, and not otherwise; outside of all windows it is told of
each notice at once. The listener may do with the graph what it likes, as long as it closes what it opens. -/

namespace RosGraph

namespace Window

/-- When a notice is delivered. -/
theorem delivers_iff {w : Window} {e : Event} : (w.react e).1 = true ↔
    e = .notice ∧ w.depth = 0 ∨ e = .closes ∧ w.depth = 1 ∧ w.pending = true := by
  cases e with
  | opens => simp [react]
  | notice =>
    by_cases hopen : 0 < w.depth
    · simp [react, notice, hopen, Nat.ne_of_gt hopen]
    · simp [react, notice, Nat.eq_zero_of_not_pos hopen]
  | closes =>
    by_cases hlast : w.depth = 1 ∧ w.pending
    · simp [react, closed, hlast]
    · simp [react, closed, hlast]

theorem eq_empty_of_tidy {w : Window} (htidy : w.Tidy) (hdepth : w.depth = 0) : w = {} := by
  obtain ⟨depth, pending⟩ := w
  obtain rfl : depth = 0 := hdepth
  obtain rfl : pending = false := htidy rfl
  rfl

/-- With a delivery nothing is held back any more, and no window is open. -/
theorem react_of_delivers {w : Window} {e : Event} (htidy : w.Tidy) (h : (w.react e).1 = true) :
    (w.react e).2 = {} := by
  obtain ⟨rfl, hdepth⟩ | ⟨rfl, hdepth, hpending⟩ := delivers_iff.1 h
  · obtain rfl := eq_empty_of_tidy htidy hdepth
    rfl
  · simp [react, closed, hdepth, hpending]

/-- The window counts what is open after the events, and holds a notice back in an open window only. -/
structure Counts (w : Window) (es : List Event) : Prop where
  tidy : w.Tidy
  depth : w.depth = openCount es

theorem Counts.react {w : Window} {es : List Event} {e : Event} (h : w.Counts es)
    (hnested : Nested (es ++ [e])) : (w.react e).2.Counts (es ++ [e]) := by
  obtain ⟨hes, hclose⟩ := nested_append_singleton_iff.1 hnested
  have hdepth := h.depth
  cases e with
  | opens => exact ⟨tidy_of_open (Nat.succ_pos _), by rw [openCount_opens hes, ← hdepth]; rfl⟩
  | notice =>
    rw [Window.react, notice]
    split_ifs with hopen
    · exact ⟨tidy_of_open hopen, by rw [openCount_notice]; exact hdepth⟩
    · exact ⟨h.tidy, by rw [openCount_notice]; exact hdepth⟩
  | closes =>
    obtain ⟨htidy, hless⟩ := tidy_closed (w := w) (hdepth ▸ hclose rfl)
    exact ⟨htidy, by rw [openCount_closes, ← hdepth]; exact hless⟩

end Window

open Window

variable {σ : Type}

namespace Site

section Events
variable (site : Site σ)

/-- What an event at the window does to the state. -/
def react : Event → σ → σ
  | .opens => site.opened
  | .notice => site.notify
  | .closes => site.closed

def after (es : List Event) (s : σ) : σ := es.foldl (fun s e => site.react e s) s

variable {site} {s : σ} {es before inside : List Event} {e : Event}

theorem after_append (es es' : List Event) (s : σ) :
    site.after (es ++ es') s = site.after es' (site.after es s) := List.foldl_append

theorem after_append_singleton (es : List Event) (e : Event) (s : σ) :
    site.after (es ++ [e]) s = site.react e (site.after es s) := after_append es [e] s

/-- The window changes first, and then the listener is told if the window delivers. -/
theorem react_eq (e : Event) (s : σ) : site.react e s =
    let r := (site.cache s).window.react e
    if r.1 then site.changed (site.setWindow r.2 s) else site.setWindow r.2 s := by
  cases e <;> rfl

/-- Events between an opening and a closing are a body that runs with notices held back. -/
theorem deferring_after (inside : List Event) (s : σ) :
    (site.deferring (fun t => ((), site.after inside t)) s).2 =
      site.after (.opens :: inside ++ [.closes]) s := by
  rw [after_append_singleton]
  rfl

end Events

section Outermost
variable {site : Site σ} [site.Part] {s : σ} {inside : List Event}
  (hidle : (site.cache s).window = {}) (h : Nested inside)
include hidle h

/-- While the outermost window is open, nothing has changed but the window. -/
theorem after_opens : site.after (.opens :: inside) s = site.setWindow (held inside) s := by
  induction inside using List.reverseRecOn with
  | nil =>
    change site.setWindow (site.cache s).window.opened s = _
    rw [hidle, opened_empty]
  | append_singleton inside e ih =>
    have hreact := react_held h
    rw [← List.cons_append, after_append_singleton, ih (nested_append_singleton_iff.1 h).1, react_eq,
      cache_setWindow, hreact]
    exact setWindow_setWindow _ _ s

/-- A whole outermost window comes to one notice, if there was one, and else to nothing. -/
theorem after_opens_closes (hall : openCount inside = 0) :
    site.after (.opens :: inside ++ [.closes]) s = if .notice ∈ inside then site.changed s else s := by
  have hreact : (held inside).react .closes = (decide (.notice ∈ inside), {}) := closed_held hall
  have hback : site.setWindow {} (site.setWindow (held inside) s) = s := by
    rw [setWindow_setWindow, ← hidle, setWindow_window]
  rw [after_append_singleton, after_opens hidle h, react_eq, cache_setWindow, hreact]
  simp only [decide_eq_true_eq, hback]

end Outermost

section Run
variable {site : Site σ} [site.Part] (hlistener : site.Balanced site.changed) {s : σ}
  {es before inside : List Event} {e : Event}
include hlistener

/-- The listener runs outside of all windows and closes what it opens, so that it leaves the window alone. -/
theorem window_react (htidy : site.Tidy s) :
    (site.cache (site.react e s)).window = ((site.cache s).window.react e).2 := by
  rw [react_eq]
  dsimp only
  split_ifs with htold
  · have hempty := react_of_delivers htidy htold
    have hset : (site.cache (site.setWindow {} s)).window = {} := by rw [cache_setWindow]
    obtain ⟨htidy', hdepth⟩ := hlistener (site.setWindow {} s) (by rw [Tidy, hset]; exact fun _ => rfl)
    rw [hempty]
    exact eq_empty_of_tidy htidy' (by rw [hdepth, hset])
  · rw [cache_setWindow]

variable (hidle : (site.cache s).window = {})
include hidle

theorem counts_after (h : Nested es) : (site.cache (site.after es s)).window.Counts es := by
  induction es using List.reverseRecOn with
  | nil =>
    have hnone : (site.cache (site.after [] s)).window = {} := hidle
    rw [hnone]
    exact ⟨fun _ => rfl, rfl⟩
  | append_singleton es e ih =>
    have hes := ih (nested_append_singleton_iff.1 h).1
    rw [after_append_singleton, window_react hlistener hes.tidy]
    exact hes.react h

theorem window_after_of_none (h : Nested es) (hnone : openCount es = 0) :
    (site.cache (site.after es s)).window = {} := by
  have hes := counts_after hlistener hidle h
  exact eq_empty_of_tidy hes.tidy (hes.depth.trans hnone)

/-- Outside of all windows a notice is delivered at once, and nothing else happens. -/
theorem after_notice_of_none (h : Nested es) (hnone : openCount es = 0) :
    site.after (es ++ [.notice]) s = site.changed (site.after es s) := by
  have hwindow := window_after_of_none hlistener hidle h hnone
  have hback : site.setWindow {} (site.after es s) = site.after es s := by
    rw [← hwindow, setWindow_window]
  rw [after_append_singleton, react_eq, hwindow]
  exact congrArg site.changed hback

theorem after_outermost (h : Nested es) (hout : Outermost es before inside) :
    site.after es s = site.setWindow (held inside) (site.after before s) := by
  have hbefore : Nested before := h.of_prefix (hout.split ▸ List.prefix_append before _)
  rw [hout.split, after_append]
  exact after_opens (window_after_of_none hlistener hidle hbefore hout.before) hout.inside

theorem pending_after_iff (h : Nested es) :
    (site.cache (site.after es s)).window.pending = true ↔ Awaited es := by
  constructor
  · intro hpending
    have hes := counts_after hlistener hidle h
    have hopen : 0 < openCount es := by
      refine Nat.pos_of_ne_zero fun hnone => ?_
      rw [hes.tidy (hes.depth.trans hnone)] at hpending
      contradiction
    obtain ⟨before, inside, hout⟩ := exists_outermost h hopen
    rw [after_outermost hlistener hidle h hout, cache_setWindow] at hpending
    exact ⟨before, inside, hout, of_decide_eq_true hpending⟩
  · rintro ⟨before, inside, hout, hnotice⟩
    rw [after_outermost hlistener hidle h hout, cache_setWindow]
    exact decide_eq_true hnotice

theorem delivers_after_iff (h : Nested es) : ((site.cache (site.after es s)).window.react e).1 = true ↔
    e = .notice ∧ openCount es = 0 ∨ e = .closes ∧ openCount es = 1 ∧ Awaited es := by
  rw [delivers_iff, (counts_after hlistener hidle h).depth, pending_after_iff hlistener hidle h]

/-- As long as a word can count the windows, the cells answer and change as the window of the cache. -/
theorem map_run_react_after (h : Nested (es ++ [e])) (hroom : openCount (es ++ [e]) < UInt64.size)
    (hcells : (site.cache (site.after es s)).window = (Latch.after es).window) :
    Prod.map id Latch.window ((Latch.react e).run (Latch.after es)) =
      (site.cache (site.after es s)).window.react e := by
  obtain ⟨hes, hclose⟩ := nested_append_singleton_iff.1 h
  have hcounts := counts_after hlistener hidle hes
  rw [hcells] at hcounts ⊢
  refine Latch.map_run_react (fun hlast => ?_) ?_
  · rw [hcounts.depth]
    exact hclose hlast
  · rw [(hcounts.react h).depth]
    exact hroom

theorem window_after (h : Nested es) (hbelow : Below UInt64.size es) :
    (site.cache (site.after es s)).window = (Latch.after es).window := by
  induction es using List.reverseRecOn with
  | nil => exact hidle
  | append_singleton es e ih =>
    have hes := (nested_append_singleton_iff.1 h).1
    have hcells := ih hes (hbelow.of_prefix (List.prefix_append es [e]))
    have hreact := map_run_react_after hlistener hidle h (hbelow _ List.prefix_rfl) hcells
    rw [after_append_singleton, window_react hlistener (counts_after hlistener hidle hes).tidy, ← hreact,
      Latch.after_append_singleton]
    rfl

end Run

/-- What the windows of a site come to after the events `es`, which began in the state `s`. -/
structure Coalesced (site : Site σ) (s : σ) (es : List Event) : Prop where
  /-- The word counts the open windows. -/
  count : (Latch.after es).count.toNat = openCount es
  /-- The flag is set while a notice is held back. -/
  pending : (Latch.after es).pending = true ↔ Awaited es
  /-- After the last close nothing is left of the windows. -/
  none_left (h : openCount es = 0) : Latch.after es = {}
  /-- The cells say when the listener is told. -/
  delivers (past : List Event) (e : Event) (h : es = past ++ [e]) :
    ((Latch.react e).run (Latch.after past)).1 = true ↔
      e = .notice ∧ openCount past = 0 ∨ e = .closes ∧ openCount past = 1 ∧ Awaited past
  /-- The site does as the cells say, and has what they hold for its window. -/
  obeys (past : List Event) (e : Event) (h : es = past ++ [e]) :
    let t := site.setWindow (Latch.after es).window (site.after past s)
    site.after es s = if ((Latch.react e).run (Latch.after past)).1 then site.changed t else t
  window : (site.cache (site.after es s)).window = (Latch.after es).window
  /-- Outside of all windows a notice is delivered at once. -/
  outside (past : List Event) (h : es = past ++ [.notice]) (hnone : openCount past = 0) :
    site.after es s = site.changed (site.after past s)
  /-- Inside the outermost window nothing has changed since it opened, but for the window itself. -/
  inside (before inside : List Event) (h : Outermost es before inside) :
    site.after es s = site.setWindow (held inside) (site.after before s)
  /-- At its end the notices that came inside are delivered as one. -/
  whole (before inside : List Event) (h : es = before ++ .opens :: inside ++ [.closes])
    (hbefore : openCount before = 0) (hinside : Nested inside) (hall : openCount inside = 0) :
    site.after es s = (site.deferring (fun t => ((), site.after inside t)) (site.after before s)).2 ∧
      site.after es s =
        if .notice ∈ inside then site.changed (site.after before s) else site.after before s

/-- Windows coalesce notices and lose none, however they are nested, as long as a word can count them. -/
theorem windows_coalesce {site : Site σ} [site.Part] (hlistener : site.Balanced site.changed) {s : σ}
    (hidle : (site.cache s).window = {}) {es : List Event} (hnested : Nested es)
    (hbelow : Below UInt64.size es) : site.Coalesced s es := by
  have hcounts := counts_after hlistener hidle hnested
  have hcells := window_after hlistener hidle hnested hbelow
  have hreact (past : List Event) (e : Event) (h : es = past ++ [e]) :
      Prod.map id Latch.window ((Latch.react e).run (Latch.after past)) =
        (site.cache (site.after past s)).window.react e := by
    subst h
    have hpast : past <+: past ++ [e] := List.prefix_append past [e]
    exact map_run_react_after hlistener hidle hnested (hbelow _ List.prefix_rfl)
      (window_after hlistener hidle (hnested.of_prefix hpast) (hbelow.of_prefix hpast))
  constructor
  case count => exact (congrArg Window.depth hcells).symm.trans hcounts.depth
  case pending =>
    rw [← pending_after_iff hlistener hidle hnested, hcells]
    rfl
  case none_left =>
    intro hnone
    exact Latch.window_injective
      (hcells.symm.trans (window_after_of_none hlistener hidle hnested hnone))
  case delivers =>
    intro past e h
    have hpast : Nested past := hnested.of_prefix (h ▸ List.prefix_append past [e])
    rw [← delivers_after_iff hlistener hidle hpast, ← hreact past e h]
    rfl
  case obeys =>
    rintro past e rfl
    have hlast := hreact past e rfl
    rw [after_append_singleton, react_eq, ← hlast, Latch.after_append_singleton]
    rfl
  case window => exact hcells
  case outside =>
    rintro past rfl hnone
    exact after_notice_of_none hlistener hidle (hnested.of_prefix (List.prefix_append past _)) hnone
  case inside => exact fun before inside hout => after_outermost hlistener hidle hnested hout
  case whole =>
    rintro before inside rfl hbefore hinside hall
    rw [List.append_assoc] at hnested ⊢
    have hpast : Nested before := hnested.of_prefix (List.prefix_append before _)
    have hnow := window_after_of_none hlistener hidle hpast hbefore
    rw [after_append, deferring_after]
    exact ⟨rfl, after_opens_closes hnow hinside hall⟩

end Site

namespace Watched

/-- Two windows in one another with a notice in each, a notice outside, and a window without one. -/
theorem windows_coalesce_nested :
    let es : List Event :=
      [.opens, .opens, .notice, .closes, .notice, .closes, .notice, .opens, .closes]
    site.Balanced site.changed ∧ (site.cache {}).window = {} ∧ Nested es ∧ Below UInt64.size es ∧
      site.Coalesced {} es ∧ (site.after es {}).sightings = [.changed {}, .changed {}] := by
  intro es
  have hnested : Nested es := by decide
  have hbelow : Below UInt64.size es := by decide
  exact ⟨balanced_changed, rfl, hnested, hbelow,
    Site.windows_coalesce balanced_changed rfl hnested hbelow, rfl⟩

end Watched

end RosGraph
