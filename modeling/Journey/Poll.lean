import Journey.Clockwork
import Journey.Dialogue
import Journey.Policy

/-!
Bounded polling: probe, then sleep and probe again while there is time. The pause doubles from one
probe to the next up to a ceiling, and the last one is cut so that the last probe happens at the
deadline of the poll. Times are those of a clockwork, whose panics end a poll without a result; a run
polls in milliseconds, which do not panic.
-/

namespace Journey

/-- The pauses of a poll; none is empty. -/
structure PollPolicy where
  initial : Nat
  ceiling : Nat
  initial_pos : 0 < initial
  initial_le_ceiling : initial ≤ ceiling
  deriving DecidableEq

namespace PollPolicy

variable {π : Type}

def of (c : Clockwork π) (initial ceiling : Nat) : PollPolicy where
  initial := max c.millisecond initial
  ceiling := max ceiling (max c.millisecond initial)
  initial_pos := Nat.lt_of_lt_of_le c.millisecond_pos (Nat.le_max_left _ _)
  initial_le_ceiling := Nat.le_max_right _ _

def ofMilliseconds (c : Clockwork π) (initial ceiling : Nat) : PollPolicy :=
  of c (initial * c.millisecond) (ceiling * c.millisecond)

def default (c : Clockwork π) : PollPolicy := ofMilliseconds c 50 500

end PollPolicy

def TimeoutPolicy.pollPolicy {π : Type} (c : Clockwork π) (p : TimeoutPolicy) : PollPolicy :=
  .ofMilliseconds c p.poll p.maxPoll

structure Poller where
  deadline : Nat
  interval : Nat
  ceiling : Nat
  probes : UInt32
  deriving DecidableEq

namespace Poller

variable {π σ : Type}

def fresh (policy : PollPolicy) (deadline : Nat) : Poller := ⟨deadline, policy.initial, policy.ceiling, 0⟩

def start (c : Clockwork π) (now timeout : Nat) (policy : PollPolicy) : Except π Poller :=
  (c.later now timeout).map (fresh policy)

/-- The poller after a pause. -/
def paused (p : Poller) (probes : UInt32) (longer : Nat) : Poller :=
  { p with probes, interval := min longer p.ceiling }

def tick (c : Clockwork π) (p : Poller) : Dialogue σ (Except π (Bool × Poller)) :=
  match c.count p.probes with
  | .error panic => .done (.error panic)
  | .ok probes => .clock fun now =>
      if p.deadline ≤ now then .done (.ok (false, { p with probes }))
      else .sleep (min p.interval (p.deadline - now)) <| .done <|
        (c.twice p.interval).map fun longer => (true, p.paused probes longer)

end Poller

/-- What one probe shows: a result that ends the poll, or a reason to go on. -/
inductive Probe (α ε : Type) where
  | settled (result : Except ε α)
  | pending (reason : ε)

namespace Probe

variable {π σ α ε : Type}

/-- A probe and the tick after it. A probe that settles ends the poll, and so does a tick that panics
or says that the time is over, which gives the last reason to go on. -/
def round (c : Clockwork π) (probe : Dialogue σ (Probe α ε)) (poller : Poller)
    (again : ε → Poller → Dialogue σ (Except π (Except ε α))) : Dialogue σ (Except π (Except ε α)) :=
  probe.bind fun
    | .settled result => .done (.ok result)
    | .pending reason => (poller.tick c).bind fun
        | .error panic => .done (.error panic)
        | .ok (false, _) => .done (.ok (.error reason))
        | .ok (true, poller) => again reason poller

/-- Probes until one settles or the time is over. Each round but the last takes time, so that `rounds`
as many as the poll is long are enough. -/
def pollWith (c : Clockwork π) (probe : Dialogue σ (Probe α ε)) :
    (rounds : Nat) → Poller → Dialogue σ (Except π (Except ε α))
  | 0, poller => round c probe poller fun reason _ => .done (.ok (.error reason))
  | rounds + 1, poller => round c probe poller fun _ poller => pollWith c probe rounds poller

def pollBy (c : Clockwork π) (probe : Dialogue σ (Probe α ε)) (timeout : Nat) (policy : PollPolicy) :
    Dialogue σ (Except π (Except ε α)) :=
  .clock fun now =>
    match Poller.start c now timeout policy with
    | .error panic => .done (.error panic)
    | .ok poller => pollWith c probe timeout poller

end Probe

/-- The dialogue of what cannot panic. -/
def Dialogue.sure {σ α : Type} (d : Dialogue σ (Except Empty α)) : Dialogue σ α :=
  d.bind fun outcome => .done (Clockwork.sure outcome)

def Probe.poll {σ α ε : Type} (probe : Dialogue σ (Probe α ε)) (timeout : Nat) (policy : PollPolicy) :
    Dialogue σ (Except ε α) :=
  (pollBy .whole probe timeout policy).sure

end Journey
