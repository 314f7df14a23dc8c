import RosGraph.Proofs.Nesting

/-! A window in two cells, a word that counts the open windows and a flag. Others may come in between two
steps with the cells, so that a notice looks twice. Where nobody does, and the word has room for the count,
the cells answer as the window does. -/

namespace RosGraph

structure Latch where
  count : UInt64 := 0
  pending : Bool := false
deriving DecidableEq, Repr

namespace Latch

open Window (Event)

def load : StateM Latch UInt64 := fun l => (l.count, l)

/-- The count is changed, and what it was before is the answer. -/
def fetchAdd : StateM Latch UInt64 := fun l => (l.count, { l with count := l.count + 1 })

def fetchSub : StateM Latch UInt64 := fun l => (l.count, { l with count := l.count - 1 })

/-- The flag is set, and what it was before is the answer. -/
def swap (b : Bool) : StateM Latch Bool := fun l => (l.pending, { l with pending := b })

def opened : StateM Latch Bool := do
  let _ ← fetchAdd
  return false

def notice : StateM Latch Bool := do
  if 0 < (← load) then
    let _ ← swap true
    -- All windows may have closed before the flag was set.
    if 0 < (← load) then return false
    swap false
  else return true

def closed : StateM Latch Bool := do
  if (← fetchSub) = 1 then swap false else return false

/-- What an event does to the cells. The answer is whether a notice is delivered now. -/
def react : Event → StateM Latch Bool
  | .opens => opened
  | .notice => notice
  | .closes => closed

def after (es : List Event) : Latch := es.foldl (fun l e => ((react e).run l).2) {}

/-- The window that the cells stand for. -/
def window (l : Latch) : Window := ⟨l.count.toNat, l.pending⟩

variable {l : Latch} {es : List Event} {e : Event}

theorem window_injective : Function.Injective window := by
  rintro ⟨count, pending⟩ ⟨count', pending'⟩ h
  obtain ⟨hcount, hpending⟩ := Window.mk.inj h
  exact congrArg₂ mk (UInt64.toNat_inj.1 hcount) hpending

theorem after_append_singleton : after (es ++ [e]) = ((react e).run (after es)).2 := by
  rw [after, List.foldl_append]
  rfl

/-- If nobody comes in between, the second look finds what the first one found. -/
theorem run_notice (l : Latch) :
    notice.run l = if 0 < l.count then (false, { l with pending := true }) else (true, l) := by
  change StateT.run (if 0 < l.count then _ else _) l = _
  by_cases hopen : 0 < l.count
  · rw [if_pos hopen, if_pos hopen]
    change StateT.run (if 0 < l.count then _ else _) { l with pending := true } = _
    rw [if_pos hopen]
    rfl
  · rw [if_neg hopen, if_neg hopen]
    rfl

theorem run_closed (l : Latch) : closed.run l =
    if l.count = 1 then (l.pending, {}) else (false, { l with count := l.count - 1 }) := by
  change StateT.run (if l.count = 1 then _ else _) { l with count := l.count - 1 } = _
  by_cases hlast : l.count = 1
  · rw [if_pos hlast, if_pos hlast, hlast]
    rfl
  · rw [if_neg hlast, if_neg hlast]
    rfl

theorem map_run_opened (hroom : l.count.toNat + 1 < UInt64.size) :
    Prod.map id window (opened.run l) = (false, l.window.opened) := by
  have hcount : (l.count + 1).toNat = l.count.toNat + 1 := by
    rw [UInt64.toNat_add]
    exact Nat.mod_eq_of_lt hroom
  change (false, window { l with count := l.count + 1 }) = _
  rw [window, hcount]
  rfl

theorem map_run_notice (l : Latch) : Prod.map id window (notice.run l) = l.window.notice := by
  have hpos : 0 < l.count ↔ 0 < l.window.depth := UInt64.lt_iff_toNat_lt
  rw [run_notice, Window.notice]
  by_cases hopen : 0 < l.count
  · rw [if_pos hopen, if_pos (hpos.1 hopen)]
    rfl
  · rw [if_neg hopen, if_neg (mt hpos.2 hopen)]
    rfl

theorem map_run_closed (hopen : 0 < l.window.depth) :
    Prod.map id window (closed.run l) = l.window.closed := by
  obtain ⟨count, pending⟩ := l
  by_cases hlast : count = 1
  · subst hlast
    cases pending with
    | true => rfl
    | false => rfl
  · have hcount : (count - 1).toNat = count.toNat - 1 :=
      UInt64.toNat_sub_of_le _ _ (UInt64.le_iff_toNat_le.2 hopen)
    have hinner : ¬ (count.toNat = 1 ∧ pending = true) := fun h => hlast (UInt64.toNat_inj.1 h.1)
    rw [run_closed, if_neg hlast, window, Window.closed, if_neg hinner, ← hcount]
    rfl

/-- As long as the word has room for the count, the cells answer and change as the window does. -/
theorem map_run_react (hclose : e = .closes → 0 < l.window.depth)
    (hroom : (l.window.react e).2.depth < UInt64.size) :
    Prod.map id window ((react e).run l) = l.window.react e := by
  cases e with
  | opens => exact map_run_opened hroom
  | notice => exact map_run_notice l
  | closes => exact map_run_closed (hclose rfl)

end Latch

end RosGraph
