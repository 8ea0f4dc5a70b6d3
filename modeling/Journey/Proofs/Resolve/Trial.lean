import Journey.Proofs.Poll
import Journey.Resolve

/-!
One strategy on trial: the calls it makes round by round, and how it is accepted or given up. A unique
match of the first two tiers is checked right after the query that found it; the last tier takes any
unique match and refuses several at once. The order of the strategies is a separate matter.
-/

namespace Journey

variable {β σ : Type}

/-- The calls of one round: a query, and a check of the element if one is due. -/
inductive Round where
  | queried (asked : Nat) (reply : Except BrowserError Matches)
  | checked (asked : Nat) (handle : Handle) (tested : Nat) (answer : Except BrowserError Bool)

namespace Round

def calls (strategy : Strategy) : Round → List Exchange
  | queried asked reply => [⟨asked, .query strategy, some reply⟩]
  | checked asked handle tested answer =>
      [⟨asked, .query strategy, some (.ok (.one handle))⟩,
        ⟨tested, .interactable handle, some answer⟩]

def asked : Round → Nat
  | queried asked _ | checked asked _ _ _ => asked

/-- What a round shows for a strategy of a tier. -/
inductive Shows : Tier → Round → Probe Handle Miss → Prop
  | usable {tier : Tier} {asked tested : Nat} {handle : Handle} (staged : tier ≠ .tertiary) :
      Shows tier (.checked asked handle tested (.ok true)) (.settled (.ok handle))
  | inert {tier : Tier} {asked tested : Nat} {handle : Handle} (staged : tier ≠ .tertiary) :
      Shows tier (.checked asked handle tested (.ok false)) (.pending (.inert handle))
  | unchecked {tier : Tier} {asked tested : Nat} {handle : Handle} {error : BrowserError}
      (staged : tier ≠ .tertiary) :
      Shows tier (.checked asked handle tested (.error error)) (.pending (.browser error))
  | ambiguous {tier : Tier} {asked count : Nat} (staged : tier ≠ .tertiary) :
      Shows tier (.queried asked (.ok (.many count))) (.pending (.ambiguous count))
  | unique {asked : Nat} {handle : Handle} :
      Shows .tertiary (.queried asked (.ok (.one handle))) (.settled (.ok handle))
  | refused {asked count : Nat} :
      Shows .tertiary (.queried asked (.ok (.many count))) (.settled (.error (.ambiguous count)))
  | noMatch {tier : Tier} {asked : Nat} :
      Shows tier (.queried asked (.ok .none)) (.pending .noMatch)
  | unasked {tier : Tier} {asked : Nat} {error : BrowserError} :
      Shows tier (.queried asked (.error error)) (.pending (.browser error))

end Round

/-- A strategy on trial from its first query until it is accepted or given up. -/
structure Trial where
  tier : Tier
  strategy : Strategy
  begun : Nat
  earlier : List Round
  last : Round
  ended : Nat
  outcome : Except Miss Handle

namespace Trial

def calls (t : Trial) : List Exchange :=
  t.earlier.flatMap (Round.calls t.strategy) ++ t.last.calls t.strategy

/-- The window of the tier has elapsed since the strategy was begun. -/
def Elapsed (policy : ResolverPolicy) (t : Trial) : Prop :=
  match t.tier with
  | .primary => t.begun + policy.primary ≤ t.ended
  | .secondary => t.begun + policy.secondary ≤ t.ended
  | .tertiary => t.begun + policy.tertiary ≤ t.ended

/-- A strategy goes on while its rounds give a reason to, is accepted by what its last round shows,
and is given up when its window has elapsed or, in the last tier, when several elements match. -/
structure Lawful (policy : ResolverPolicy) (t : Trial) : Prop where
  earlier : ∀ x ∈ t.earlier, ∃ miss, x.Shows t.tier (.pending miss)
  accepted : ∀ handle, t.outcome = .ok handle → t.last.Shows t.tier (.settled (.ok handle))
  givenUp : ∀ miss, t.outcome = .error miss →
    (t.last.Shows t.tier (.pending miss) ∧ t.Elapsed policy) ∨
      (t.tier = .tertiary ∧ ∃ asked count, t.last = .queried asked (.ok (.many count)))

/-- The last round shows what the trial comes to: it settles the trial, or it gives the reason for
which the strategy is given up when its window has elapsed. -/
structure Exact (policy : ResolverPolicy) (t : Trial) : Prop where
  earlier : ∀ x ∈ t.earlier, ∃ miss, x.Shows t.tier (.pending miss)
  last : t.last.Shows t.tier (.settled t.outcome) ∨ ∃ miss, t.last.Shows t.tier (.pending miss) ∧
    t.outcome = .error miss ∧ t.begun + policy.window t.tier ≤ t.ended

end Trial

def Round.Looks (tier : Tier) (strategy : Strategy) (w : World β) (x : Round) (w' : World β)
    (shown : Probe Handle Miss) : Prop :=
  x.Shows tier shown ∧ w'.log = w.log ++ x.calls strategy ∧ x.asked = w.now

namespace Resolver

variable (browser : Browser β) (strategy : Strategy)

/-- A call that is not cut off is answered, and the answer stands in the log. -/
theorem ask_run (σ : Type) (call : Call) (w : World β) : ∃ outcome w',
    w'.log = w.log ++ [⟨w.now, call, some outcome⟩] ∧ w.now ≤ w'.now ∧
      ∀ {α : Type} (next : call.Outcome → Dialogue σ α) (s : σ),
        (Dialogue.ask call next).run browser none w s = (next outcome).run browser none w' s := by
  let r := browser.react w.now w.browser call
  exact ⟨r.outcome, Dialogue.settle w call r, w.log_settle call r, Nat.le_add_right _ _,
    fun _ _ => rfl⟩

theorem probeUnique_sees :
    Probe.Sees (probeUnique strategy : Dialogue σ _) browser (Round.Looks .tertiary strategy) := by
  intro w s
  obtain ⟨reply, w', log, onward, run⟩ := ask_run browser σ (.query strategy) w
  refine ⟨.queried w.now reply, w', ?_⟩
  rw [probeUnique, run]
  match reply with
  | .ok .none => exact ⟨_, rfl, ⟨.noMatch, log, rfl⟩, onward⟩
  | .ok (.one handle) => exact ⟨_, rfl, ⟨.unique, log, rfl⟩, onward⟩
  | .ok (.many count) => exact ⟨_, rfl, ⟨.refused, log, rfl⟩, onward⟩
  | .error error => exact ⟨_, rfl, ⟨.unasked, log, rfl⟩, onward⟩

theorem probeUsable_sees {tier : Tier} (staged : tier ≠ .tertiary) :
    Probe.Sees (probeUsable strategy : Dialogue σ _) browser (Round.Looks tier strategy) := by
  intro w s
  obtain ⟨reply, w', log, onward, run⟩ := ask_run browser σ (.query strategy) w
  rw [probeUsable, run]
  match reply with
  | .ok .none => exact ⟨.queried w.now _, w', _, rfl, ⟨.noMatch, log, rfl⟩, onward⟩
  | .ok (.many count) => exact ⟨.queried w.now _, w', _, rfl, ⟨.ambiguous staged, log, rfl⟩, onward⟩
  | .error error => exact ⟨.queried w.now _, w', _, rfl, ⟨.unasked, log, rfl⟩, onward⟩
  | .ok (.one handle) =>
      -- The round makes a second call, from the world in which the query was answered.
      obtain ⟨answer, w'', log', onward', run'⟩ :=
        ask_run browser σ (.interactable handle) w'
      have both : w''.log = w.log ++ (Round.checked w.now handle w'.now answer).calls strategy := by
        rw [log', log, List.append_assoc]
        rfl
      refine ⟨.checked w.now handle w'.now answer, w'', ?_⟩
      dsimp only
      rw [run']
      have later := Nat.le_trans onward onward'
      match answer with
      | .ok true => exact ⟨_, rfl, ⟨.usable staged, both, rfl⟩, later⟩
      | .ok false => exact ⟨_, rfl, ⟨.inert staged, both, rfl⟩, later⟩
      | .error error => exact ⟨_, rfl, ⟨.unchecked staged, both, rfl⟩, later⟩

theorem probeFor_sees (tier : Tier) :
    Probe.Sees (probeFor tier strategy : Dialogue σ _) browser (Round.Looks tier strategy) := by
  cases tier with
  | primary | secondary => exact probeUsable_sees browser strategy (by decide)
  | tertiary => exact probeUnique_sees browser strategy

end Resolver

theorem Round.Shows.refused_inv {tier : Tier} {x : Round} {miss : Miss}
    (h : x.Shows tier (.settled (.error miss))) :
    tier = .tertiary ∧ ∃ asked count, x = .queried asked (.ok (.many count)) := by
  cases h with
  | refused => exact ⟨rfl, _, _, rfl⟩

theorem Trial.elapsed_iff (policy : ResolverPolicy) (t : Trial) :
    t.Elapsed policy ↔ t.begun + policy.window t.tier ≤ t.ended := by
  obtain ⟨tier, -⟩ := t
  cases tier <;> exact Iff.rfl

theorem Trial.Exact.lawful {policy : ResolverPolicy} {t : Trial} (h : t.Exact policy) :
    t.Lawful policy where
  earlier := h.earlier
  accepted handle accepted := by
    rcases h.last with shows | ⟨miss, -, lost, -⟩
    · exact accepted ▸ shows
    · rw [accepted] at lost
      cases lost
  givenUp miss lost := by
    rcases h.last with shows | ⟨_, pending, same, late⟩
    · exact .inr (lost ▸ shows).refused_inv
    · obtain rfl := Except.error.inj (lost.symm.trans same)
      exact .inl ⟨pending, (t.elapsed_iff policy).mpr late⟩

namespace Resolver

/-- Trying a strategy is a trial of it, from the time when it is begun. -/
theorem tryStrategy_trial (browser : Browser β) (policy : ResolverPolicy) (tier : Tier)
    (strategy : Strategy) (w : World β) (s : σ) :
    ∃ t : Trial, ∃ w', (tryStrategy policy tier strategy).run browser none w s =
        ⟨some t.outcome, w', s⟩ ∧
      (t.tier, t.strategy) = (tier, strategy) ∧ t.begun = w.now ∧ t.ended = w'.now ∧
      w'.log = w.log ++ t.calls ∧ t.Exact policy := by
  obtain ⟨xs, last, w', outcome, run, polled⟩ :=
    Probe.poll_polled (probeFor_sees browser strategy tier) (policy.window tier) policy.poll w s
  refine ⟨⟨tier, strategy, w.now, xs, last, w'.now, outcome⟩, w', run, rfl, rfl, rfl,
    polled.log fun _ _ _ _ seen => seen.2.1, fun x mem => ?_, ?_⟩
  · obtain ⟨_, _, miss, seen⟩ := polled.earlier x mem
    exact ⟨miss, seen.1⟩
  · obtain ⟨_, settled | ⟨miss, pending, lost, late⟩⟩ := polled.ends
    · exact .inl settled.1
    · exact .inr ⟨miss, pending.1, lost, late⟩

end Resolver
end Journey
