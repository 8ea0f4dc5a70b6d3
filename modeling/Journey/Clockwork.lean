/-!
The arithmetic of times and counts. How long a unit is, and where instants, durations and counters end, is
left open; an operation that goes beyond an end panics. Runs are timed in whole milliseconds without an
end, while what a platform counts in is nanoseconds up to a last one.
-/

namespace Journey

/-- The operations that polling needs, each of which is exact or panics. -/
structure Clockwork (π : Type) where
  millisecond : Nat
  later : (now duration : Nat) → Except π Nat
  twice : (duration : Nat) → Except π Nat
  count : UInt32 → Except π UInt32
  millisecond_pos : 0 < millisecond
  later_ok : ∀ now duration due, later now duration = .ok due → due = now + duration
  twice_ok : ∀ duration longer, twice duration = .ok longer → longer = duration * 2
  count_ok : ∀ n next, count n = .ok next → next = n + 1

namespace Clockwork

/-- Milliseconds without an end: nothing panics. -/
def whole : Clockwork Empty where
  millisecond := 1
  later now duration := .ok (now + duration)
  twice duration := .ok (duration * 2)
  count n := .ok (n + 1)
  millisecond_pos := Nat.one_pos
  later_ok _ _ _ h := (Except.ok.inj h).symm
  twice_ok _ _ h := (Except.ok.inj h).symm
  count_ok _ _ h := (Except.ok.inj h).symm

/-- What cannot panic has a result. -/
def sure {α : Type} : Except Empty α → α
  | .ok a => a

inductive Overflow where
  | instant
  | duration
  | counter
  deriving DecidableEq

/-- The longest duration: a number of seconds of 64 bits, and the nanoseconds below the next one. -/
def longest : Nat := (UInt64.size - 1) * 1000000000 + 999999999

def within {ε : Type} (overflow : ε) (last n : Nat) : Except ε Nat :=
  if n ≤ last then .ok n else .error overflow

theorem within_ok {ε : Type} {overflow : ε} {last n m : Nat} (h : within overflow last n = .ok m) : m = n := by
  simp only [within] at h
  split at h
  · exact (Except.ok.inj h).symm
  · cases h

/-- Nanoseconds. The last instant is a matter of the platform; a counter that is at its end panics if it
is checked, and begins again if it is not. -/
def nanoseconds (latest : Nat) (checked : Bool) : Clockwork Overflow where
  millisecond := 1000000
  later now duration := within .instant latest (now + duration)
  twice duration := within .duration longest (duration * 2)
  count n := if checked && n + 1 == 0 then .error .counter else .ok (n + 1)
  millisecond_pos := by decide
  later_ok _ _ _ := within_ok
  twice_ok _ _ := within_ok
  count_ok n next h := by
    split at h
    · cases h
    · exact (Except.ok.inj h).symm

end Clockwork
end Journey
