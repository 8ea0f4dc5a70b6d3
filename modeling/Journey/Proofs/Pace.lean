import Journey.Proofs.Clock
import Journey.Proofs.Resolve.Trial
import Journey.Wait
import Mathlib.Algebra.Group.Nat.Defs
import Mathlib.Logic.Function.Iterate
import Mathlib.Order.Bounds.Defs

/-!
The pace of a poll that is not cut off. Its looks are counted from zero: the first begins at once, each
further one when the pause after the one before it is over, and the last is the first that settles the
poll or is followed by a tick that does not let it go on. The pauses double up to the ceiling, and the
last one is cut so that it ends with the time. How long a look takes, and what it shows, is left to the
probe, and where the arithmetic of times panics, to the clockwork.
-/

namespace Journey

variable {β σ α ε π : Type}

/-- The interval that a poll has come to after so many pauses. -/
def PollPolicy.interval (policy : PollPolicy) (k : Nat) : Nat := min (policy.initial * 2 ^ k) policy.ceiling

theorem PollPolicy.interval_pos (policy : PollPolicy) (k : Nat) : 0 < policy.interval k :=
  Nat.lt_min.mpr ⟨Nat.mul_pos policy.initial_pos (Nat.pow_pos (by decide)),
    Nat.lt_of_lt_of_le policy.initial_pos policy.initial_le_ceiling⟩

theorem PollPolicy.interval_zero (policy : PollPolicy) : policy.interval 0 = policy.initial := by
  rw [interval, Nat.pow_zero, Nat.mul_one]
  exact Nat.min_eq_left policy.initial_le_ceiling

theorem PollPolicy.interval_succ (policy : PollPolicy) (k : Nat) :
    policy.interval (k + 1) = min (policy.interval k * 2) policy.ceiling := by
  rw [interval, interval, Nat.pow_succ, ← Nat.mul_assoc]
  omega

/-- What tick number `k` of a poll answers if the look before it ends in a world, and in which world the
tick ends. A tick panics if it cannot be counted, or after the pause if the interval cannot be doubled. -/
inductive Poller.Ticks (c : Clockwork π) (policy : PollPolicy) (deadline k : Nat) (w : World β) :
    Except π Bool → World β → Prop
  | uncounted {panic : π} (counter : c.count (.ofNat k) = .error panic) :
      Ticks c policy deadline k w (.error panic) w
  | elapsed (counter : c.count (.ofNat k) = .ok (.ofNat (k + 1))) (late : deadline ≤ w.now) :
      Ticks c policy deadline k w (.ok false) w
  | paused (counter : c.count (.ofNat k) = .ok (.ofNat (k + 1))) (early : w.now < deadline)
      (doubled : c.twice (policy.interval k) = .ok (policy.interval k * 2))
      (positive : 0 < min (policy.interval k) (deadline - w.now)) :
      Ticks c policy deadline k w (.ok true) (w.sleep (min (policy.interval k) (deadline - w.now)))
  | undoubled {panic : π} (counter : c.count (.ofNat k) = .ok (.ofNat (k + 1))) (early : w.now < deadline)
      (doubled : c.twice (policy.interval k) = .error panic)
      (positive : 0 < min (policy.interval k) (deadline - w.now)) :
      Ticks c policy deadline k w (.error panic) (w.sleep (min (policy.interval k) (deadline - w.now)))

namespace Poller.Ticks

variable {c : Clockwork π} {policy : PollPolicy} {deadline k : Nat} {w w' : World β}

/-- A tick that does not panic says that the time is over exactly if it is. -/
theorem false_iff {more : Bool} (h : Ticks c policy deadline k w (.ok more) w') :
    more = false ↔ deadline ≤ w.now := by
  cases h with
  | elapsed counter late => exact ⟨fun _ => late, fun _ => rfl⟩
  | paused counter early doubled positive => exact ⟨nofun, fun late => absurd early (Nat.not_lt.mpr late)⟩

theorem world_of_false (h : Ticks c policy deadline k w (.ok false) w') : w' = w := by
  cases h
  rfl

theorem overflows {panic : π} (h : Ticks c policy deadline k w (.error panic) w') :
    c.count (.ofNat k) = .error panic ∨
      w.now < deadline ∧ c.twice (policy.interval k) = .error panic := by
  cases h with
  | uncounted counter => exact .inl counter
  | undoubled counter early doubled positive => exact .inr ⟨early, doubled⟩

end Poller.Ticks

/-- The poller of a poll that has gone on after so many ticks. -/
def Poller.after (policy : PollPolicy) (deadline k : Nat) : Poller :=
  ⟨deadline, policy.interval k, policy.ceiling, .ofNat k⟩

theorem Poller.after_zero (policy : PollPolicy) (deadline : Nat) :
    after policy deadline 0 = fresh policy deadline := by
  rw [after, policy.interval_zero]
  rfl

theorem Poller.paused_after (policy : PollPolicy) (deadline k : Nat) :
    (after policy deadline k).paused (.ofNat (k + 1)) (policy.interval k * 2) =
      after policy deadline (k + 1) := by
  rw [after, after, policy.interval_succ]
  rfl

theorem Poller.tick_ticks (c : Clockwork π) (policy : PollPolicy) (deadline k : Nat) (browser : Browser β)
    (w : World β) (s : σ) :
    ∃ answer w', ((after policy deadline k).tick c).run browser none w s = ⟨some answer, w', s⟩ ∧
      Ticks c policy deadline k w (answer.map Prod.fst) w' ∧
      ∀ p, answer = .ok (true, p) → p = after policy deadline (k + 1) := by
  let p := after policy deadline k
  cases counter : c.count p.probes with
  | error panic => exact ⟨_, w, run_tick_uncounted browser s counter, .uncounted counter, nofun⟩
  | ok probes =>
      obtain rfl : probes = .ofNat (k + 1) := (c.count_ok _ _ counter).trans (UInt32.ofNat_add k 1).symm
      by_cases late : deadline ≤ w.now
      · exact ⟨_, w, run_tick_late browser s counter late, .elapsed counter late, fun _ goes => by cases goes⟩
      · have early : w.now < deadline := Nat.not_le.mp late
        have positive : 0 < min (policy.interval k) (deadline - w.now) :=
          Nat.lt_min.mpr ⟨policy.interval_pos k, Nat.sub_pos_of_lt early⟩
        have run := run_tick_early (p := p) browser s counter early
        cases doubled : c.twice (policy.interval k) with
        | error panic =>
            rw [show c.twice p.interval = _ from doubled] at run
            exact ⟨_, _, run, .undoubled counter early doubled positive, nofun⟩
        | ok longer =>
            rw [show c.twice p.interval = _ from doubled] at run
            obtain rfl := c.twice_ok _ _ doubled
            refine ⟨_, _, run, .paused counter early doubled positive, fun p' goes => ?_⟩
            cases goes
            exact paused_after policy deadline k

/-- A round of a poll as it begins: a look, and then a tick that tells whether there is another one. -/
structure Lap (β σ : Type) where
  world : World β
  notes : σ
  poller : Poller

namespace Lap

variable (c : Clockwork π) (probe : Dialogue σ (Probe α ε)) (browser : Browser β) (x : Lap β σ)

def looked : Ending β σ (Probe α ε) := probe.run browser none x.world x.notes

def ticked : Ending β σ (Except π (Bool × Poller)) :=
  (x.poller.tick c).run browser none (x.looked probe browser).world (x.looked probe browser).notes

def next : Lap β σ where
  world := (x.ticked c probe browser).world
  notes := (x.ticked c probe browser).notes
  poller :=
    match (x.ticked c probe browser).result with
    | some (.ok (_, poller)) => poller
    | _ => x.poller

/-- The look gives a reason to go on, and the tick after it says that there is time. -/
def GoesOn : Prop :=
  (∃ reason, (x.looked probe browser).result = some (.pending reason)) ∧
    ∃ poller, (x.ticked c probe browser).result = some (.ok (true, poller))

/-- How a poll ends whose last round this is: as its look settles it, or with the panic of its tick, or
else for the reason that its look has given to go on. -/
def verdict : Ending β σ (Except π (Except ε α)) :=
  match (x.looked probe browser).result with
  | none => { x.looked probe browser with result := none }
  | some (.settled result) => { x.looked probe browser with result := some (.ok result) }
  | some (.pending reason) =>
      { x.ticked c probe browser with
        result := (x.ticked c probe browser).result.map fun answer => answer.map fun _ => .error reason }

/-- The rounds of a poll, counted from zero. -/
def number (timeout : Nat) (policy : PollPolicy) (w : World β) (s : σ) (k : Nat) : Lap β σ :=
  (next c probe browser)^[k] ⟨w, s, .fresh policy (w.now + timeout)⟩

section Laws

variable {c probe browser x}

theorem looked_onward : x.world.now ≤ (x.looked probe browser).world.now :=
  Dialogue.run_onward browser probe x.world x.notes

theorem pollWith_last (rounds : Nat) (last : ¬ x.GoesOn c probe browser) :
    (Probe.pollWith c probe rounds x.poller).run browser none x.world x.notes =
      x.verdict c probe browser := by
  obtain ⟨shown, w, s, seen⟩ := Dialogue.run_ends browser probe x.world x.notes
  have looked : x.looked probe browser = ⟨some shown, w, s⟩ := seen
  cases shown with
  | settled result =>
      rw [verdict, looked]
      cases rounds <;> exact Probe.run_round_settled seen
  | pending reason =>
      obtain ⟨answer, w', s', tick⟩ := Dialogue.run_ends browser (x.poller.tick c) w s
      have ticked : x.ticked c probe browser = ⟨some answer, w', s'⟩ := by rw [Lap.ticked, looked, tick]
      rw [verdict, looked, ticked]
      match answer with
      | .error panic => cases rounds <;> exact Probe.run_round_panics seen tick
      | .ok (false, _) => cases rounds <;> exact Probe.run_round_over seen tick
      | .ok (true, poller) =>
          exact absurd ⟨⟨reason, congrArg Ending.result looked⟩, poller, congrArg Ending.result ticked⟩ last

theorem pollWith_next (rounds : Nat) (more : x.GoesOn c probe browser) :
    (Probe.pollWith c probe (rounds + 1) x.poller).run browser none x.world x.notes =
      (Probe.pollWith c probe rounds (x.next c probe browser).poller).run browser none
        (x.next c probe browser).world (x.next c probe browser).notes := by
  obtain ⟨⟨reason, pending⟩, poller, goes⟩ := more
  obtain ⟨shown, w, s, seen⟩ := Dialogue.run_ends browser probe x.world x.notes
  have looked : x.looked probe browser = ⟨some shown, w, s⟩ := seen
  obtain rfl : shown = .pending reason := by simpa [looked] using pending
  obtain ⟨answer, w', s', tick⟩ := Dialogue.run_ends browser (x.poller.tick c) w s
  have ticked : x.ticked c probe browser = ⟨some answer, w', s'⟩ := by rw [Lap.ticked, looked, tick]
  obtain rfl : answer = .ok (true, poller) := by simpa [ticked] using goes
  rw [next, ticked]
  exact Probe.run_round_again seen tick

end Laws
end Lap

namespace Lap

variable {c : Clockwork π} {probe : Dialogue σ (Probe α ε)} {browser : Browser β} {x : Lap β σ}

section Rounds

variable {policy : PollPolicy} {deadline k : Nat}

/-- The tick of a round of which the poller has gone on so often. -/
theorem ticked_ticks (c : Clockwork π) (probe : Dialogue σ (Probe α ε)) (browser : Browser β)
    (h : x.poller = .after policy deadline k) :
    ∃ answer, (x.ticked c probe browser).result = some answer ∧
      Poller.Ticks c policy deadline k (x.looked probe browser).world (answer.map Prod.fst)
        (x.ticked c probe browser).world ∧
      ∀ p, answer = .ok (true, p) → p = .after policy deadline (k + 1) := by
  obtain ⟨answer, w', run, ticks, after⟩ := Poller.tick_ticks c policy deadline k browser
    (x.looked probe browser).world (x.looked probe browser).notes
  rw [ticked, h, run]
  exact ⟨answer, rfl, ticks, after⟩

/-- A poll that goes on pauses, and has time left. -/
theorem paused_of_goesOn (h : x.poller = .after policy deadline k) (more : x.GoesOn c probe browser) :
    Poller.Ticks c policy deadline k (x.looked probe browser).world (.ok true)
        (x.ticked c probe browser).world ∧
      (x.next c probe browser).poller = .after policy deadline (k + 1) := by
  obtain ⟨answer, ticked, ticks, after⟩ := x.ticked_ticks c probe browser h
  obtain ⟨-, p, goes⟩ := more
  obtain rfl : answer = .ok (true, p) := Option.some.inj (ticked.symm.trans goes)
  refine ⟨ticks, ?_⟩
  rw [next, goes]
  exact after p rfl

theorem onward_of_goesOn (h : x.poller = .after policy deadline k) (more : x.GoesOn c probe browser) :
    x.world.now < (x.next c probe browser).world.now ∧
      (x.next c probe browser).world.now ≤ deadline := by
  obtain ⟨ticks, -⟩ := paused_of_goesOn h more
  have onward : x.world.now ≤ (x.looked probe browser).world.now := looked_onward
  rw [show (x.next c probe browser).world = (x.ticked c probe browser).world from rfl]
  generalize (x.ticked c probe browser).world = w' at ticks
  cases ticks with
  | paused counter early doubled positive =>
      dsimp only [World.sleep]
      omega

/-- A poll ends with the first of its rounds that does not go on. Each pause takes at least the unit of
time that one round less can account for, so that there is such a round. -/
theorem pollWith_verdict (rounds : Nat) (h : x.poller = .after policy deadline k)
    (enough : deadline ≤ x.world.now + rounds) :
    ∃ n, (∀ j < n, ((next c probe browser)^[j] x).GoesOn c probe browser) ∧
      ¬ ((next c probe browser)^[n] x).GoesOn c probe browser ∧
      (Probe.pollWith c probe rounds x.poller).run browser none x.world x.notes =
        ((next c probe browser)^[n] x).verdict c probe browser := by
  induction rounds generalizing x k with
  | zero =>
      have last : ¬ x.GoesOn c probe browser := fun more => by
        have onward := onward_of_goesOn h more
        omega
      exact ⟨0, nofun, last, pollWith_last 0 last⟩
  | succ rounds ih =>
      by_cases more : x.GoesOn c probe browser
      · obtain ⟨-, after⟩ := paused_of_goesOn h more
        have onward := onward_of_goesOn h more
        obtain ⟨n, goesOn, last, run⟩ := ih after (by omega)
        refine ⟨n + 1, fun j before => ?_, last, (pollWith_next rounds more).trans run⟩
        cases j with
        | zero => exact more
        | succ j => exact goesOn j (Nat.lt_of_succ_lt_succ before)
      · exact ⟨0, nofun, more, pollWith_last _ more⟩

end Rounds

section Count

variable {timeout : Nat} {policy : PollPolicy} {w : World β} {s : σ}

theorem number_succ (k : Nat) : number c probe browser timeout policy w s (k + 1) =
    (number c probe browser timeout policy w s k).next c probe browser :=
  Function.iterate_succ_apply' _ _ _

theorem number_poller (k : Nat)
    (more : ∀ j < k, (number c probe browser timeout policy w s j).GoesOn c probe browser) :
    (number c probe browser timeout policy w s k).poller = .after policy (w.now + timeout) k := by
  induction k with
  | zero => exact (Poller.after_zero policy _).symm
  | succ k ih =>
      have before := ih fun j early => more j (Nat.lt_succ_of_lt early)
      rw [number_succ]
      exact (paused_of_goesOn before (more k (Nat.lt_succ_self k))).2

end Count
end Lap

/-- The dialogue is a poll whose looks are numbered from 0 to `n`. The first one begins at once, and a
further one where the tick before it ends, which is in time. The tick after a look says that the time is
over exactly if it is, or else pauses for the doubled interval, the ceiling, or what time is left; the
last look settles the poll or comes before a tick that does not go on. -/
structure Probe.Polls (c : Clockwork π) (probe : Dialogue σ (Probe α ε)) (timeout : Nat)
    (policy : PollPolicy) (d : Dialogue σ (Except π (Except ε α))) (browser : Browser β) (w : World β)
    (s : σ) (n : Nat) : Prop where
  first : (Lap.number c probe browser timeout policy w s 0).world = w
  next : ∀ k < n, (Lap.number c probe browser timeout policy w s (k + 1)).world =
    ((Lap.number c probe browser timeout policy w s k).ticked c probe browser).world
  inTime : ∀ k ≤ n, (Lap.number c probe browser timeout policy w s k).world.now ≤ w.now + timeout
  goesOn : ∀ k < n, (Lap.number c probe browser timeout policy w s k).GoesOn c probe browser
  last : ¬ (Lap.number c probe browser timeout policy w s n).GoesOn c probe browser
  ticks : ∀ k ≤ n, let lap := Lap.number c probe browser timeout policy w s k
    ∃ answer, (lap.ticked c probe browser).result = some answer ∧
      Poller.Ticks c policy (w.now + timeout) k (lap.looked probe browser).world (answer.map Prod.fst)
        (lap.ticked c probe browser).world
  elapsed : ∀ k ≤ n, let lap := Lap.number c probe browser timeout policy w s k
    ∀ more poller, (lap.ticked c probe browser).result = some (.ok (more, poller)) →
      (more = false ↔ w.now + timeout ≤ (lap.looked probe browser).world.now)
  ends : d.run browser none w s =
    (Lap.number c probe browser timeout policy w s n).verdict c probe browser
  terminates : (d.run browser none w s).result.isSome

namespace Probe

variable {c : Clockwork π} {probe : Dialogue σ (Probe α ε)} {timeout : Nat} {policy : PollPolicy}
  {d : Dialogue σ (Except π (Except ε α))} {browser : Browser β} {w : World β} {s : σ} {n : Nat}

/-- A clock that cannot hold the deadline panics before the first look. -/
theorem pollBy_panics {panic : π} (overflow : c.later w.now timeout = .error panic) :
    (pollBy c probe timeout policy).run browser none w s = ⟨some (.error panic), w, s⟩ := by
  simp only [pollBy, Dialogue.run, Poller.start, overflow, Except.map]

theorem pollBy_polls {due : Nat} (held : c.later w.now timeout = .ok due) :
    ∃ n, Polls c probe timeout policy (pollBy c probe timeout policy) browser w s n := by
  let lap := Lap.number c probe browser timeout policy w s
  obtain rfl := c.later_ok _ _ _ held
  obtain ⟨n, goesOn, last, run⟩ := (lap 0).pollWith_verdict timeout
    (Lap.number_poller 0 nofun) (Nat.le_refl _)
  have poller (k : Nat) (within : k ≤ n) : (lap k).poller = .after policy (w.now + timeout) k :=
    Lap.number_poller k fun j before => goesOn j (Nat.lt_of_lt_of_le before within)
  have ends : (pollBy c probe timeout policy).run browser none w s = (lap n).verdict c probe browser := by
    refine Eq.trans ?_ run
    simp only [pollBy, Dialogue.run, Poller.start, held, Except.map]
    rfl
  have next (k : Nat) (_ : k < n) : (lap (k + 1)).world = ((lap k).ticked c probe browser).world := by
    rw [show lap (k + 1) = _ from Lap.number_succ k]
    rfl
  have ticks (k : Nat) (within : k ≤ n) := (lap k).ticked_ticks c probe browser (poller k within)
  obtain ⟨result, _, _, ended⟩ := Dialogue.run_ends browser (pollBy c probe timeout policy) w s
  refine ⟨n, rfl, next, fun k within => ?_, goesOn, last, fun k within => ?_, ?_, ends,
    Option.isSome_of_eq_some (congrArg Ending.result ended)⟩
  · cases k with
    | zero => exact Nat.le_add_right _ _
    | succ k =>
        have early := (Lap.onward_of_goesOn (poller k (Nat.le_of_lt within)) (goesOn k within)).2
        rwa [← Lap.number_succ] at early
  · obtain ⟨answer, ticked, ticks, -⟩ := ticks k within
    exact ⟨answer, ticked, ticks⟩
  · intro k within
    dsimp only
    intro more p ticked'
    obtain ⟨answer, ticked, ticks, -⟩ := ticks k within
    obtain rfl : answer = .ok (more, p) := Option.some.inj (ticked.symm.trans ticked')
    exact ticks.false_iff

/-- A poll ends as its last look settles it, or when its time is over after that look, or it panics: the
tick after that look cannot be counted, or goes on from an interval that cannot be doubled. -/
theorem Polls.outcome (h : Polls c probe timeout policy d browser w s n) :
    let looked := (Lap.number c probe browser timeout policy w s n).looked probe browser
    let ending := d.run browser none w s
    (∃ result, looked.result = some (.settled result) ∧ ending.result = some (.ok result) ∧
      ending.world = looked.world) ∨
    (∃ reason, looked.result = some (.pending reason) ∧ w.now + timeout ≤ looked.world.now ∧
      ending.result = some (.ok (.error reason)) ∧ ending.world = looked.world) ∨
    ∃ reason panic, looked.result = some (.pending reason) ∧ ending.result = some (.error panic) ∧
      (c.count (.ofNat n) = .error panic ∨
        looked.world.now < w.now + timeout ∧ c.twice (policy.interval n) = .error panic) := by
  obtain ⟨answer, ticked, ticks⟩ := h.ticks n (Nat.le_refl n)
  have last := h.last
  dsimp only
  rw [h.ends]
  generalize Lap.number c probe browser timeout policy w s n = lap at ticked ticks last
  obtain ⟨shown, _, _, seen⟩ := Dialogue.run_ends browser probe lap.world lap.notes
  have looked : (lap.looked probe browser).result = some shown := congrArg Ending.result seen
  cases shown with
  | settled result => exact .inl ⟨result, looked, by rw [Lap.verdict, looked], by rw [Lap.verdict, looked]⟩
  | pending reason =>
      have ended : lap.verdict c probe browser = { lap.ticked c probe browser with
          result := some (answer.map fun _ => .error reason) } := by
        rw [Lap.verdict, looked, ticked]
        rfl
      rw [ended]
      rcases answer with panic | ⟨more, poller⟩
      · exact .inr (.inr ⟨reason, panic, looked, rfl, ticks.overflows⟩)
      · cases more with
        | true => exact absurd ⟨⟨reason, looked⟩, poller, ticked⟩ last
        | false =>
            exact .inr (.inl ⟨reason, looked, ticks.false_iff.mp rfl, rfl, ticks.world_of_false⟩)

end Probe

namespace Condition

/-- What a wait comes to if this is the last answer. -/
def verdict (condition : Condition) (limit : Nat) :
    Except BrowserError Bool → Except WaitError Unit
  | .ok true => .ok ()
  | .ok false => .error (.timeout condition limit)
  | .error e => .error (.browser e)

variable (c : Clockwork π) (condition : Condition) (limit : Nat) (policy : PollPolicy)
  (browser : Browser β) (w : World β) (s : σ)

/-- The rounds of a wait, counted from zero, -/
def lap (k : Nat) : Lap β σ := Lap.number c (condition.probeOnce limit) browser limit policy w s k

/-- and how the browser takes the question with which each of them begins. -/
def reply (k : Nat) : Reaction β (.probe condition) :=
  let lap := condition.lap c limit policy browser w s k
  browser.react lap.world.now lap.world.browser (.probe condition)

def waited : Ending β σ (Except π (Except WaitError Unit)) :=
  (condition.awaitBy c limit policy).run browser none w s

/-- The wait is a poll that goes on while the condition does not hold. It succeeds with the first question
at which it does, when that is answered; if the answers take no time and none is good, it is over exactly
when its time is, unless it panics. -/
structure Awaits (n : Nat) : Prop where
  polls : Probe.Polls c (condition.probeOnce limit) limit policy (condition.awaitBy c limit policy)
    browser w s n
  lacks : ∀ k < n, (condition.reply c limit policy browser w s k).outcome = .ok false
  result : ∀ r, (condition.waited c limit policy browser w s).result = some (.ok r) →
    r = condition.verdict limit (condition.reply c limit policy browser w s n).outcome ∧
      (condition.waited c limit policy browser w s).world.now =
        (condition.lap c limit policy browser w s n).world.now +
          (condition.reply c limit policy browser w s n).delay
  succeeds : (condition.waited c limit policy browser w s).result = some (.ok (.ok ())) ↔
    IsLeast {k | (condition.reply c limit policy browser w s k).outcome = .ok true} n
  fails : (∀ k ≤ n, (condition.reply c limit policy browser w s k).delay = 0 ∧
      (condition.reply c limit policy browser w s k).outcome = .ok false) →
    (∀ panic, (condition.waited c limit policy browser w s).result ≠ some (.error panic)) →
    (condition.lap c limit policy browser w s n).world.now = w.now + limit ∧
      (condition.waited c limit policy browser w s).result =
        some (.ok (.error (.timeout condition limit))) ∧
      (condition.waited c limit policy browser w s).world.now = w.now + limit
  panics : ∀ panic, (condition.waited c limit policy browser w s).result = some (.error panic) →
    (condition.reply c limit policy browser w s n).outcome = .ok false ∧
      (c.count (.ofNat n) = .error panic ∨
        (condition.lap c limit policy browser w s n).world.now +
            (condition.reply c limit policy browser w s n).delay < w.now + limit ∧
          c.twice (policy.interval n) = .error panic)

/-- What an answer shows. -/
def shown : Except BrowserError Bool → Probe Unit WaitError
  | .ok true => .settled (.ok ())
  | .ok false => .pending (.timeout condition limit)
  | .error e => .settled (.error (.browser e))

theorem verdict_eq_ok {answer : Except BrowserError Bool} :
    condition.verdict limit answer = .ok () ↔ answer = .ok true := by
  match answer with
  | .ok true | .ok false | .error _ => simp [verdict]

theorem verdict_of_settled {answer : Except BrowserError Bool} {result : Except WaitError Unit}
    (settled : condition.shown limit answer = .settled result) :
    condition.verdict limit answer = result ∧ answer ≠ .ok false := by
  match answer with
  | .ok true | .error _ => exact ⟨Probe.settled.inj settled, nofun⟩
  | .ok false => cases settled

theorem verdict_of_pending {answer : Except BrowserError Bool} {reason : WaitError}
    (pending : condition.shown limit answer = .pending reason) :
    answer = .ok false ∧ reason = .timeout condition limit := by
  match answer with
  | .ok true | .error _ => cases pending
  | .ok false => exact ⟨rfl, (Probe.pending.inj pending).symm⟩

theorem looked_lap (k : Nat) :
    let lap := condition.lap c limit policy browser w s k
    let reply := condition.reply c limit policy browser w s k
    lap.looked (condition.probeOnce limit) browser =
      ⟨some (condition.shown limit reply.outcome), Dialogue.settle lap.world _ reply, lap.notes⟩ := by
  dsimp only [Lap.looked, probeOnce, Dialogue.run, World.reaches, if_true]
  rw [← reply]
  match (condition.reply c limit policy browser w s k).outcome with
  | .ok true | .ok false | .error _ => rfl

/-- A wait ends after its last answer, or panics after it. -/
theorem awaitBy_outcome {n : Nat} (polls : Probe.Polls c (condition.probeOnce limit) limit policy
    (condition.awaitBy c limit policy) browser w s n) :
    let asked := (condition.lap c limit policy browser w s n).world.now
    let reply := condition.reply c limit policy browser w s n
    let waited := condition.waited c limit policy browser w s
    (waited.result = some (.ok (condition.verdict limit reply.outcome)) ∧
      waited.world.now = asked + reply.delay ∧
      (reply.outcome = .ok false → w.now + limit ≤ asked + reply.delay)) ∨
    ∃ panic, waited.result = some (.error panic) ∧ reply.outcome = .ok false ∧
      (c.count (.ofNat n) = .error panic ∨
        asked + reply.delay < w.now + limit ∧ c.twice (policy.interval n) = .error panic) := by
  have looked := condition.looked_lap c limit policy browser w s n
  have outcome := polls.outcome
  dsimp only at looked outcome ⊢
  rw [show Lap.number c (condition.probeOnce limit) browser limit policy w s n =
    condition.lap c limit policy browser w s n from rfl, looked] at outcome
  rw [← waited] at outcome
  generalize condition.reply c limit policy browser w s n = reply at outcome ⊢
  rcases outcome with ⟨result, settled, ended, world⟩ | ⟨reason, pending, late, ended, world⟩ |
    ⟨reason, panic, pending, ended, overflow⟩
  · obtain ⟨same, other⟩ := condition.verdict_of_settled limit (Option.some.inj settled)
    exact .inl ⟨same ▸ ended, congrArg World.now world, fun lacking => absurd lacking other⟩
  · obtain ⟨lacking, same⟩ := condition.verdict_of_pending limit (Option.some.inj pending)
    refine .inl ⟨?_, congrArg World.now world, fun _ => late⟩
    rw [ended, same, lacking]
    rfl
  · obtain ⟨lacking, -⟩ := condition.verdict_of_pending limit (Option.some.inj pending)
    exact .inr ⟨panic, ended, lacking, overflow⟩

theorem awaitBy_awaits {due : Nat} (held : c.later w.now limit = .ok due) :
    ∃ n, condition.Awaits c limit policy browser w s n := by
  have start : ∃ n, Probe.Polls c (condition.probeOnce limit) limit policy
      (condition.awaitBy c limit policy) browser w s n := Probe.pollBy_polls held
  obtain ⟨n, polls⟩ := start
  let reply := condition.reply c limit policy browser w s
  have lacks (k : Nat) (before : k < n) : (reply k).outcome = .ok false := by
    obtain ⟨⟨reason, pending⟩, -⟩ := polls.goesOn k before
    have looked := congrArg Ending.result (condition.looked_lap c limit policy browser w s k)
    exact (condition.verdict_of_pending limit (Option.some.inj (looked.symm.trans pending))).1
  have least (holds : (reply n).outcome = .ok true) : IsLeast {k | (reply k).outcome = .ok true} n := by
    refine ⟨holds, fun k held => Nat.le_of_not_lt fun before => ?_⟩
    cases (lacks k before).symm.trans held
  have outcome := condition.awaitBy_outcome c limit policy browser w s polls
  dsimp only at outcome
  refine ⟨n, polls, lacks, fun r ended => ?_, ⟨fun holds => ?_, fun holds => ?_⟩,
    fun instant sound => ?_, fun panic ended => ?_⟩
  · rcases outcome with ⟨result, now, -⟩ | ⟨panic, panics, -⟩
    · exact ⟨Except.ok.inj (Option.some.inj (ended.symm.trans result)), now⟩
    · cases panics.symm.trans ended
  · rcases outcome with ⟨result, -, -⟩ | ⟨panic, panics, -⟩
    · have holds := Except.ok.inj (Option.some.inj (result.symm.trans holds))
      exact least ((condition.verdict_eq_ok limit).mp holds)
    · cases panics.symm.trans holds
  · rcases outcome with ⟨result, -, -⟩ | ⟨panic, -, lacking, -⟩
    · rw [result, (condition.verdict_eq_ok limit).mpr holds.1]
    · cases lacking.symm.trans holds.1
  · obtain ⟨atOnce, lacking⟩ : (reply n).delay = 0 ∧ (reply n).outcome = .ok false :=
      instant n (Nat.le_refl n)
    rcases outcome with ⟨result, now, late⟩ | ⟨panic, panics, -⟩
    · have inTime : (condition.lap c limit policy browser w s n).world.now ≤ w.now + limit :=
        polls.inTime n (Nat.le_refl n)
      have late := late lacking
      rw [atOnce] at late now
      have due : (condition.lap c limit policy browser w s n).world.now = w.now + limit := by omega
      refine ⟨due, ?_, now.trans due⟩
      rw [result, lacking]
      rfl
    · exact absurd panics (sound panic)
  · rcases outcome with ⟨result, -, -⟩ | ⟨panic', panics, lacking, overflow⟩
    · cases result.symm.trans ended
    · obtain rfl := Except.error.inj (Option.some.inj (panics.symm.trans ended))
      exact ⟨lacking, overflow⟩

end Condition

/-- The search with one strategy is a poll each of whose looks begins with a query for the strategy. -/
structure Resolver.Searches (c : Clockwork π) (policy : ResolverPolicy) (tier : Tier) (strategy : Strategy)
    (browser : Browser β) (w : World β) (s : σ) (n : Nat) : Prop where
  polls : Probe.Polls c (probeFor tier strategy) (policy.window tier) policy.poll
    (tryStrategyBy c policy tier strategy) browser w s n
  queries : ∀ k ≤ n,
    let lap := Lap.number c (probeFor tier strategy) browser (policy.window tier) policy.poll w s k
    let looked := lap.looked (probeFor tier strategy) browser
    ∃ (round : Round) (shown : Probe Handle Miss), looked.result = some shown ∧
      round.Shows tier shown ∧ round.asked = lap.world.now ∧
      looked.world.log = lap.world.log ++ round.calls strategy

theorem Resolver.tryStrategyBy_searches (c : Clockwork π) (policy : ResolverPolicy) (tier : Tier)
    (strategy : Strategy) (browser : Browser β) (w : World β) (s : σ) {due : Nat}
    (held : c.later w.now (policy.window tier) = .ok due) :
    ∃ n, Searches c policy tier strategy browser w s n := by
  have start : ∃ n, Probe.Polls c (probeFor tier strategy) (policy.window tier) policy.poll
      (tryStrategyBy c policy tier strategy) browser w s n := Probe.pollBy_polls held
  obtain ⟨n, polls⟩ := start
  refine ⟨n, polls, fun k _ => ?_⟩
  dsimp only
  generalize Lap.number c (probeFor tier strategy) browser (policy.window tier) policy.poll w s k = lap
  obtain ⟨round, w', shown, run, ⟨shows, log, asked⟩, -⟩ :=
    probeFor_sees browser strategy tier lap.world lap.notes
  rw [Lap.looked, run]
  exact ⟨round, shown, rfl, shows, asked, log⟩

/-- No configured poll has an interval that a platform cannot double. -/
theorem TimeoutPolicy.twice_interval (latest : Nat) (checked : Bool) (p : TimeoutPolicy)
    (poll : p.poll < 2 ^ 64) (maxPoll : p.maxPoll < 2 ^ 64) (k : Nat) :
    let c := Clockwork.nanoseconds latest checked
    c.twice ((p.pollPolicy c).interval k) = .ok ((p.pollPolicy c).interval k * 2) := by
  have ceiling : (p.pollPolicy (.nanoseconds latest checked)).interval k ≤
      max (p.maxPoll * 1000000) (max 1000000 (p.poll * 1000000)) := Nat.min_le_right _ _
  refine if_pos ?_
  rw [Clockwork.longest, UInt64.size]
  omega

/-- If the clock cannot hold its deadline, the poll panics at once; and else it goes as said. -/
structure Probe.Begins (c : Clockwork π) (timeout : Nat) (d : Dialogue σ (Except π α))
    (browser : Browser β) (w : World β) (s : σ) (goes : Nat → Prop) : Prop where
  panics : ∀ panic, c.later w.now timeout = .error panic →
    d.run browser none w s = ⟨some (.error panic), w, s⟩
  goes : ∀ due, c.later w.now timeout = .ok due → ∃ n, goes n

/-- The three loops that probe and tick, whatever their probe, their time and their intervals, on every
browser and from every world: the wait for a condition, the search with one strategy, and any poll. -/
theorem Probe.poll_paced (c : Clockwork π) (browser : Browser β) (w : World β) (s : σ) :
    (∀ (condition : Condition) (limit : Nat) (policy : PollPolicy),
      Begins c limit (condition.awaitBy c limit policy) browser w s
        fun n => condition.Awaits c limit policy browser w s n) ∧
    (∀ (policy : ResolverPolicy) (tier : Tier) (strategy : Strategy),
      Begins c (policy.window tier) (Resolver.tryStrategyBy c policy tier strategy) browser w s
        fun n => Resolver.Searches c policy tier strategy browser w s n) ∧
    (∀ (α ε : Type) (probe : Dialogue σ (Probe α ε)) (timeout : Nat) (policy : PollPolicy),
      Begins c timeout (pollBy c probe timeout policy) browser w s
        fun n => Polls c probe timeout policy (pollBy c probe timeout policy) browser w s n) ∧
    ∀ (latest : Nat) (checked : Bool) (p : TimeoutPolicy), p.poll < 2 ^ 64 → p.maxPoll < 2 ^ 64 →
      ∀ k, let c := Clockwork.nanoseconds latest checked
        c.twice ((p.pollPolicy c).interval k) = .ok ((p.pollPolicy c).interval k * 2) := by
  refine ⟨fun condition limit policy => ⟨fun _ => pollBy_panics, fun _ held => ?_⟩,
    fun policy tier strategy => ⟨fun _ => pollBy_panics, fun _ held => ?_⟩,
    fun _ _ probe timeout policy => ⟨fun _ => pollBy_panics, fun _ held => pollBy_polls held⟩,
    fun latest checked p => p.twice_interval latest checked⟩
  · exact condition.awaitBy_awaits c limit policy browser w s held
  · exact Resolver.tryStrategyBy_searches c policy tier strategy browser w s held

/-- A browser that gives the same answer to whatever condition it is asked for, after so long. -/
def Browser.constant (delay : Nat) (holds : Bool) : Browser Unit where
  react _ _ call := ⟨delay, (), false,
    match call with
    | .probe _ => .ok holds
    | _ => .error .disconnected, ()⟩

/-- A wait of 120 milliseconds in vain, with the intervals of the default settings: its last question is
asked when they are over. -/
theorem Condition.awaitBy_constant_paced :
    let c := Clockwork.nanoseconds Clockwork.longest false
    let policy := TimeoutPolicy.default.pollPolicy c
    let browser := Browser.constant 0 false
    c.later 0 120000000 = .ok 120000000 ∧
      ∃ n, Awaits c .navigated 120000000 policy browser (.start ()) () n ∧
        (lap c .navigated 120000000 policy browser (.start ()) () n).world.now = 120000000 ∧
        (waited c .navigated 120000000 policy browser (.start ()) ()).result =
          some (.ok (.error (.timeout .navigated 120000000))) := by
  intro c policy browser
  obtain ⟨await, -, -, platform⟩ := Probe.poll_paced c browser (.start ()) ()
  have held : c.later 0 120000000 = .ok 120000000 := rfl
  obtain ⟨n, awaits⟩ := (await .navigated 120000000 policy).goes _ held
  have sound (panic : Clockwork.Overflow) :
      (waited c .navigated 120000000 policy browser (.start ()) ()).result ≠ some (.error panic) := by
    intro panics
    rcases (awaits.panics panic panics).2 with counter | ⟨-, doubled⟩
    · cases counter
    · have fits : c.twice (policy.interval n) = .ok (policy.interval n * 2) :=
        platform Clockwork.longest false .default (by decide) (by decide) n
      cases fits.symm.trans doubled
  obtain ⟨due, result, -⟩ := awaits.fails (fun k _ => ⟨rfl, rfl⟩) sound
  exact ⟨held, n, awaits, due, result⟩

/-- An interval that is too long to be doubled makes a wait panic when its time is over, though the page
has answered at once all along; and a wait whose answer takes time succeeds after the question for which
the condition holds. -/
theorem Condition.awaitBy_constant_unpaced :
    let c := Clockwork.nanoseconds Clockwork.longest true
    let policy := PollPolicy.of c Clockwork.longest Clockwork.longest
    let idle := Browser.constant 0 false
    let slow := Browser.constant 1000000000 true
    ((∀ k, (reply c .navigated 10000000 policy idle (.start ()) () k).delay = 0 ∧
        (reply c .navigated 10000000 policy idle (.start ()) () k).outcome = .ok false) ∧
      (waited c .navigated 10000000 policy idle (.start ()) ()).result = some (.error .duration) ∧
      (waited c .navigated 10000000 policy idle (.start ()) ()).world.now = 10000000) ∧
    (lap c .navigated 10000000 policy slow (.start ()) () 0).world.now = 0 ∧
      (reply c .navigated 10000000 policy slow (.start ()) () 0).outcome = .ok true ∧
      (waited c .navigated 10000000 policy slow (.start ()) ()).result = some (.ok (.ok ())) ∧
      (waited c .navigated 10000000 policy slow (.start ()) ()).world.now = 1000000000 := by
  exact ⟨⟨fun _ => ⟨rfl, rfl⟩, rfl, rfl⟩, rfl, rfl, rfl, rfl⟩

end Journey
