import Journey.Proofs.Log

/-!
The course of a poll that is not cut off: looks that give a reason to go on, with pauses between them,
and a last one that settles the poll or comes when its time is over. The bound on the rounds is never
what ends a poll. What a look consists of is left to the probe.
-/

namespace Journey

variable {β σ α ε ρ : Type}

/-- A poll with the given looks from one world to another; `look` says what one of them shows. -/
inductive Polled (look : World β → ρ → World β → Probe α ε → Prop) (deadline : Nat) :
    World β → List ρ → ρ → World β → Except ε α → Prop
  | settled {w w' : World β} {x : ρ} {result : Except ε α}
      (seen : look w x w' (.settled result)) : Polled look deadline w [] x w' result
  | elapsed {w w' : World β} {x : ρ} {reason : ε} (seen : look w x w' (.pending reason))
      (late : deadline ≤ w'.now) : Polled look deadline w [] x w' (.error reason)
  | again {w w' w'' : World β} {x last : ρ} {xs : List ρ} {reason : ε} {result : Except ε α}
      {ms : Nat} (seen : look w x w' (.pending reason)) (early : w'.now < deadline)
      (pause : 0 < ms) (rest : Polled look deadline (w'.sleep ms) xs last w'' result) :
      Polled look deadline w (x :: xs) last w'' result

/-- Every run of the probe is a look, in which time does not run backwards. -/
def Probe.Sees (probe : Dialogue σ (Probe α ε)) (browser : Browser β)
    (look : World β → ρ → World β → Probe α ε → Prop) : Prop :=
  ∀ w s, ∃ x w' shown, probe.run browser none w s = ⟨some shown, w', s⟩ ∧
    look w x w' shown ∧ w.now ≤ w'.now

namespace Polled

variable {look : World β → ρ → World β → Probe α ε → Prop} {deadline : Nat} {w w' : World β}
  {xs : List ρ} {last : ρ} {result : Except ε α}

/-- The calls of a poll are those of its looks. -/
theorem log {calls : ρ → List Exchange} (h : Polled look deadline w xs last w' result)
    (makes : ∀ v x v' shown, look v x v' shown → v'.log = v.log ++ calls x) :
    w'.log = w.log ++ (xs.flatMap calls ++ calls last) := by
  induction h with
  | settled seen | elapsed seen late => exact makes _ _ _ _ seen
  | @again w w' w'' x last xs reason result ms seen early pause rest ih =>
      rw [ih, World.log_sleep, makes _ _ _ _ seen, List.flatMap_cons, List.append_assoc, List.append_assoc]

theorem earlier (h : Polled look deadline w xs last w' result) :
    ∀ x ∈ xs, ∃ v v' reason, look v x v' (.pending reason) := by
  induction h with
  | settled seen | elapsed seen late => exact List.forall_mem_nil _
  | again seen early pause rest ih => exact List.forall_mem_cons.mpr ⟨⟨_, _, _, seen⟩, ih⟩

/-- The last look of a poll settles it, or gives a reason to go on when the time is over. -/
theorem ends (h : Polled look deadline w xs last w' result) :
    ∃ v, look v last w' (.settled result) ∨
      ∃ reason, look v last w' (.pending reason) ∧ result = .error reason ∧ deadline ≤ w'.now := by
  induction h with
  | settled seen => exact ⟨_, .inl seen⟩
  | elapsed seen late => exact ⟨_, .inr ⟨_, seen, rfl, late⟩⟩
  | again seen early pause rest ih => exact ih

end Polled

namespace Poller

structure Live (p : Poller) : Prop where
  interval : 0 < p.interval
  ceiling : 0 < p.ceiling

theorem live_fresh (policy : PollPolicy) (deadline : Nat) : (fresh policy deadline).Live :=
  ⟨policy.initial_pos, Nat.lt_of_lt_of_le policy.initial_pos policy.initial_le_ceiling⟩

theorem Live.paused {p : Poller} (h : p.Live) (probes : UInt32) :
    (p.paused probes (p.interval * 2)).Live := by
  have interval := h.interval
  have ceiling := h.ceiling
  refine ⟨?_, ceiling⟩
  show 0 < min (p.interval * 2) p.ceiling
  omega

section Tick

variable {π : Type} {c : Clockwork π} {p : Poller} (browser : Browser β) {w : World β} (s : σ)

theorem run_tick_uncounted {panic : π} (counter : c.count p.probes = .error panic) :
    (p.tick c).run browser none w s = ⟨some (.error panic), w, s⟩ := by
  simp only [tick, counter]
  rfl

theorem run_tick_late {probes : UInt32} (counter : c.count p.probes = .ok probes)
    (late : p.deadline ≤ w.now) :
    (p.tick c).run browser none w s = ⟨some (.ok (false, { p with probes })), w, s⟩ := by
  simp only [tick, counter, Dialogue.run, late, if_true]

theorem run_tick_early {probes : UInt32} (counter : c.count p.probes = .ok probes)
    (early : w.now < p.deadline) :
    (p.tick c).run browser none w s =
      ⟨some ((c.twice p.interval).map fun longer => (true, p.paused probes longer)),
        w.sleep (min p.interval (p.deadline - w.now)), s⟩ := by
  simp only [tick, counter, Dialogue.run, Nat.not_le.mpr early, if_false, World.reaches, if_true]

end Tick

end Poller

namespace Probe

section Round

variable {π : Type} {c : Clockwork π} {probe : Dialogue σ (Probe α ε)} {p : Poller}
  {again : ε → Poller → Dialogue σ (Except π (Except ε α))} {browser : Browser β} {w w' : World β}
  {s s' : σ}

theorem run_round_settled {result : Except ε α}
    (seen : probe.run browser none w s = ⟨some (.settled result), w', s'⟩) :
    (round c probe p again).run browser none w s = ⟨some (.ok result), w', s'⟩ := by
  rw [round, Dialogue.run_bind_of_eq seen]
  rfl

theorem run_round_panics {reason : ε} {panic : π} {w'' : World β} {s'' : σ}
    (seen : probe.run browser none w s = ⟨some (.pending reason), w', s'⟩)
    (tick : (p.tick c).run browser none w' s' = ⟨some (.error panic), w'', s''⟩) :
    (round c probe p again).run browser none w s = ⟨some (.error panic), w'', s''⟩ := by
  rw [round, Dialogue.run_bind_of_eq seen, Dialogue.run_bind_of_eq tick]
  rfl

theorem run_round_over {reason : ε} {p' : Poller} {w'' : World β} {s'' : σ}
    (seen : probe.run browser none w s = ⟨some (.pending reason), w', s'⟩)
    (tick : (p.tick c).run browser none w' s' = ⟨some (.ok (false, p')), w'', s''⟩) :
    (round c probe p again).run browser none w s = ⟨some (.ok (.error reason)), w'', s''⟩ := by
  rw [round, Dialogue.run_bind_of_eq seen, Dialogue.run_bind_of_eq tick]
  rfl

theorem run_round_again {reason : ε} {p' : Poller} {w'' : World β} {s'' : σ}
    (seen : probe.run browser none w s = ⟨some (.pending reason), w', s'⟩)
    (tick : (p.tick c).run browser none w' s' = ⟨some (.ok (true, p')), w'', s''⟩) :
    (round c probe p again).run browser none w s = (again reason p').run browser none w'' s'' := by
  rw [round, Dialogue.run_bind_of_eq seen, Dialogue.run_bind_of_eq tick]

end Round

variable {probe : Dialogue σ (Probe α ε)} {browser : Browser β}
  {look : World β → ρ → World β → Probe α ε → Prop}

/-- Each round but the last takes at least a millisecond, so that the rounds outlast the deadline. -/
theorem pollWith_polled (sees : Sees probe browser look) (rounds : Nat) {p : Poller} (live : p.Live)
    (w : World β) (s : σ) (enough : p.deadline ≤ w.now + rounds) :
    ∃ xs last w' result,
      (pollWith .whole probe rounds p).run browser none w s = ⟨some (.ok result), w', s⟩ ∧
      Polled look p.deadline w xs last w' result := by
  induction rounds generalizing p w with
  | zero =>
      obtain ⟨x, w', shown, run, seen, onward⟩ := sees w s
      cases shown with
      | settled result => exact ⟨[], x, w', result, run_round_settled run, .settled seen⟩
      | pending reason =>
          have late : p.deadline ≤ w'.now := by omega
          have tick := Poller.run_tick_late browser s (show Clockwork.whole.count p.probes = _ from rfl) late
          exact ⟨[], x, w', .error reason, run_round_over run tick, .elapsed seen late⟩
  | succ rounds ih =>
      obtain ⟨x, w', shown, run, seen, onward⟩ := sees w s
      cases shown with
      | settled result => exact ⟨[], x, w', result, run_round_settled run, .settled seen⟩
      | pending reason =>
          have counter : Clockwork.whole.count p.probes = .ok (p.probes + 1) := rfl
          by_cases late : p.deadline ≤ w'.now
          · have tick := Poller.run_tick_late browser s counter late
            exact ⟨[], x, w', .error reason, run_round_over run tick, .elapsed seen late⟩
          · have early : w'.now < p.deadline := Nat.not_le.mp late
            have tick := Poller.run_tick_early browser s counter early
            have interval := live.interval
            have pause : 0 < min p.interval (p.deadline - w'.now) := by omega
            -- The pause takes at least the millisecond that one round less can account for.
            obtain ⟨xs, last, w'', result, rest, polled⟩ := ih (live.paused (p.probes + 1))
              (w'.sleep (min p.interval (p.deadline - w'.now))) (by
                show p.deadline ≤ w'.now + min p.interval (p.deadline - w'.now) + rounds
                omega)
            exact ⟨x :: xs, last, w'', result, (run_round_again run tick).trans rest,
              .again seen early pause polled⟩

theorem poll_polled (sees : Sees probe browser look) (timeout : Nat) (policy : PollPolicy)
    (w : World β) (s : σ) :
    ∃ xs last w' result, (poll probe timeout policy).run browser none w s = ⟨some result, w', s⟩ ∧
      Polled look (w.now + timeout) w xs last w' result := by
  obtain ⟨xs, last, w', result, run, polled⟩ := pollWith_polled sees timeout
    (Poller.live_fresh policy (w.now + timeout)) w s (Nat.le_refl _)
  refine ⟨xs, last, w', result, ?_, polled⟩
  rw [poll, Dialogue.sure, Dialogue.run_bind_of_eq (show (pollBy .whole probe timeout policy).run
    browser none w s = _ from run)]
  rfl

end Probe
end Journey
