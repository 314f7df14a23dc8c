import Mathlib.Data.List.Infix
import RosGraph.Window

/-! Sequences of windows that open and close, with notices in between. A sequence is properly nested if
a window is closed only while one is open. As long as a window is open, the sequence falls into what
was before the outermost one and what is inside it, and both parts are properly nested again. -/

namespace RosGraph.Window

inductive Event
  | opens
  | notice
  | closes
deriving DecidableEq, Repr

/-- What an event does to a window. The flag says whether a notice is delivered now. -/
def react (w : Window) : Event → Bool × Window
  | .opens => (false, w.opened)
  | .notice => w.notice
  | .closes => w.closed

/-- How many windows are open after the events. -/
def openCount (es : List Event) : ℕ := es.count .opens - es.count .closes

/-- A window is closed only while one is open. -/
def Nested (es : List Event) : Prop := ∀ past, past <+: es → past.count .closes ≤ past.count .opens

instance : DecidablePred Nested := fun es =>
  decidable_of_iff (∀ past ∈ es.inits, past.count .closes ≤ past.count .opens)
    (by simp only [List.mem_inits, Nested])

/-- At no time as many windows are open as the limit says. -/
def Below (limit : ℕ) (es : List Event) : Prop := ∀ past, past <+: es → openCount past < limit

instance (limit : ℕ) : DecidablePred (Below limit) := fun es =>
  decidable_of_iff (∀ past ∈ es.inits, openCount past < limit) (by simp only [List.mem_inits, Below])

/-- The outermost window that is open was opened after the events `before`, and the events `inside` came
since then. -/
structure Outermost (es before inside : List Event) : Prop where
  split : es = before ++ .opens :: inside
  before : openCount before = 0
  inside : Nested inside

/-- A window is open, and a notice came since the outermost one was opened. -/
def Awaited (es : List Event) : Prop := ∃ before inside, Outermost es before inside ∧ .notice ∈ inside

variable {es before inside : List Event} {e : Event} {limit : ℕ}

theorem nested_nil : Nested [] := by decide

theorem Nested.of_prefix (h : Nested es) (hpre : before <+: es) : Nested before :=
  fun past hpast => h past (hpast.trans hpre)

theorem Below.of_prefix (h : Below limit es) (hpre : before <+: es) : Below limit before :=
  fun past hpast => h past (hpast.trans hpre)

theorem nested_append_singleton_iff :
    Nested (es ++ [e]) ↔ Nested es ∧ (e = .closes → 0 < openCount es) := by
  have hall : (es ++ [e]).count .closes ≤ (es ++ [e]).count .opens ↔
      es.count .closes + [e].count .closes ≤ es.count .opens + [e].count .opens := by
    rw [List.count_append, List.count_append]
  constructor
  · intro h
    refine ⟨h.of_prefix (List.prefix_append es [e]), ?_⟩
    rintro rfl
    have hclosed : es.count .closes + 1 ≤ es.count .opens := hall.1 (h _ List.prefix_rfl)
    exact Nat.sub_pos_of_lt hclosed
  · rintro ⟨h, hopen⟩ past hpast
    obtain rfl | hpast := List.prefix_concat_iff.1 hpast
    · have hes := h es List.prefix_rfl
      rw [hall]
      cases e with
      | opens => exact Nat.le_succ_of_le hes
      | notice => exact hes
      | closes => exact Nat.lt_of_sub_pos (hopen rfl)
    · exact h past hpast

theorem openCount_opens (h : Nested es) : openCount (es ++ [.opens]) = openCount es + 1 := by
  rw [openCount, List.count_append, List.count_append]
  exact Nat.sub_add_comm (h es List.prefix_rfl)

theorem openCount_notice : openCount (es ++ [.notice]) = openCount es := by
  rw [openCount, List.count_append, List.count_append]
  rfl

theorem openCount_closes : openCount (es ++ [.closes]) = openCount es - 1 := by
  rw [openCount, List.count_append, List.count_append]
  exact Nat.sub_add_eq _ _ 1

theorem Outermost.openCount_eq (h : Outermost es before inside) (hes : Nested es) :
    openCount es = openCount inside + 1 := by
  have hbefore := h.before
  have hfirst := hes before (h.split ▸ List.prefix_append before _)
  have hsecond := h.inside inside List.prefix_rfl
  rw [h.split, openCount, List.count_append, List.count_append, List.count_cons_self,
    List.count_cons_of_ne (by decide)]
  rw [openCount] at hbefore ⊢
  omega

/-- While a window is open, there is an outermost one. -/
theorem exists_outermost (h : Nested es) (hopen : 0 < openCount es) :
    ∃ before inside, Outermost es before inside := by
  induction es using List.reverseRecOn with
  | nil => exact absurd hopen (Nat.lt_irrefl 0)
  | append_singleton es e ih =>
    obtain ⟨hes, -⟩ := nested_append_singleton_iff.1 h
    by_cases hzero : openCount es = 0
    · cases e with
      | opens => exact ⟨es, [], rfl, hzero, nested_nil⟩
      | notice =>
        rw [openCount_notice] at hopen
        omega
      | closes =>
        rw [openCount_closes] at hopen
        omega
    · obtain ⟨before, inside, hout⟩ := ih hes (Nat.pos_of_ne_zero hzero)
      refine ⟨before, inside ++ [e], ?_, hout.before, nested_append_singleton_iff.2 ⟨hout.inside, ?_⟩⟩
      · rw [hout.split, List.append_assoc, List.cons_append]
      · rintro rfl
        have hcount := hout.openCount_eq hes
        rw [openCount_closes] at hopen
        omega

section Held

/-- The window from inside: those that are open in it, and whether a notice came. -/
def held (inside : List Event) : Window := ⟨openCount inside + 1, decide (.notice ∈ inside)⟩

theorem opened_empty : ({} : Window).opened = held [] := rfl

/-- Inside a window nothing is delivered, not even when an inner one closes. -/
theorem react_held (h : Nested (inside ++ [e])) : (held inside).react e = (false, held (inside ++ [e])) := by
  obtain ⟨hinside, hclose⟩ := nested_append_singleton_iff.1 h
  cases e with
  | opens => simp [react, held, opened, openCount_opens hinside]
  | notice => simp [react, held, notice, openCount_notice]
  | closes =>
    have hinner := hclose rfl
    have hdepth : ¬ openCount inside = 0 := by omega
    have hcount : openCount inside - 1 + 1 = openCount inside := by omega
    simp [react, held, closed, openCount_closes, hdepth, hcount]

/-- When the outermost window closes, what was held back in it is delivered. -/
theorem closed_held (h : openCount inside = 0) :
    (held inside).closed = (decide (.notice ∈ inside), {}) := by
  by_cases hnotice : .notice ∈ inside
  · simp [held, closed, h, hnotice]
  · simp [held, closed, h, hnotice]

end Held

end RosGraph.Window
