import RosGraph.Log

/-! Periods of the quality-of-service policies: seconds and nanoseconds, two
full words that need not be normalised, ordered by seconds first. Three values
are sentinels and are compared as such. The module also holds the exact spans
of time that periods convert to, and the saturation of a period at the largest
duration that the wire format carries. -/

namespace RosGraph

def nanosPerSecond : UInt64 := 1000000000

structure Period where
  sec : UInt64
  nsec : UInt64
deriving DecidableEq, Repr, Inhabited

/-- A span of time, in seconds and a fraction below one second. -/
structure Span where
  secs : UInt64
  nanos : UInt64
  nanos_lt : nanos < nanosPerSecond
deriving DecidableEq, Repr

namespace Span

def ofSecs (secs : UInt64) : Span := ⟨secs, 0, by decide⟩

def ofNanos (nanos : UInt64) : Span :=
  ⟨nanos / nanosPerSecond, nanos % nanosPerSecond, UInt64.mod_lt _ (by decide)⟩

def longest : Span := ⟨0xffffffffffffffff, 999999999, by decide⟩

/-- The sum, or the longest span if the seconds of the sum do not fit a word. -/
def add (a b : Span) : Span :=
  let nanos := a.nanos + b.nanos
  let secs := a.secs.toNat + b.secs.toNat + (nanos / nanosPerSecond).toNat
  if secs < UInt64.size then
    ⟨UInt64.ofNat secs, nanos % nanosPerSecond, UInt64.mod_lt _ (by decide)⟩
  else longest

end Span

namespace Period

/-- The policy is not set. -/
def unset : Period := ⟨0, 0⟩

/-- To be chosen from the peers. -/
def bestAvailable : Period := ⟨9223372036, 854775806⟩

/-- The largest count of nanoseconds in a signed word. -/
def infinite : Period := ⟨9223372036, 854775807⟩

instance : LT Period := ⟨fun a b => a.sec < b.sec ∨ a.sec = b.sec ∧ a.nsec < b.nsec⟩

theorem lt_def {a b : Period} : a < b ↔ a.sec < b.sec ∨ a.sec = b.sec ∧ a.nsec < b.nsec := Iff.rfl

instance : DecidableLT Period := fun _ _ => decidable_of_iff _ lt_def.symm

instance : Min Period := ⟨fun a b => if b < a then b else a⟩

instance : Max Period := ⟨fun a b => if a < b then b else a⟩

instance : Ord Period := ⟨fun a b => compareOfLessAndEq a b⟩

def text (p : Period) : String := s!"{p.sec.toNat}s {p.nsec.toNat}ns"

instance : ToString Period := ⟨text⟩

/-- The length of a period; too long a one becomes the longest span. -/
def toSpan (p : Period) : Span := (Span.ofSecs p.sec).add (Span.ofNanos p.nsec)

def ofSpan (s : Span) : Period := ⟨s.secs, s.nanos⟩

/-- The wire format holds seconds in a signed 32-bit word. -/
def wireMaxSec : UInt64 := 0x7fffffff

/-- Whole seconds in the nanosecond word, up to what the wire holds. -/
def carry (p : Period) : UInt64 := min (p.nsec / nanosPerSecond) wireMaxSec

/-- Seconds that the carry leaves room for. -/
def headroom (p : Period) : UInt64 := wireMaxSec - p.carry

def exceedsWire (p : Period) : Bool :=
  wireMaxSec < p.nsec / nanosPerSecond || p.headroom < p.sec

def clampedSec (p : Period) : UInt64 := if p.headroom < p.sec then wireMaxSec else p.sec + p.carry

/-- The same length with the nanoseconds below one second, or the longest wire
duration if the period is longer. -/
def clampToWire (p : Period) : Period :=
  if p.exceedsWire then ⟨p.clampedSec, nanosPerSecond - 1⟩
  else ⟨p.clampedSec, p.nsec - p.carry * nanosPerSecond⟩

/-- A clamped period is reported. -/
def clampLog (p : Period) : List Log.Record :=
  if p.exceedsWire then
    [⟨.debug, "[time] duration cannot be represented by DDS, truncated at INT_MAX seconds + (10^9 - 1) nanoseconds"⟩]
  else []

end Period

end RosGraph
