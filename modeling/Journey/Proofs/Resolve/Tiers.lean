import Journey.Proofs.Resolve.Trial

/-!
Tiered resolution. The strategies of a spec are tried in their order, each only after the one before it
was given up, and nothing is asked after a success. What is accepted comes with the remark of its
tier; a failure has tried every strategy and names every tier. How one strategy is tried is its trial.
-/

namespace Journey

variable {β σ : Type}

def Tier.severity? : Tier → Option Severity
  | .primary => none
  | .secondary => some .low
  | .tertiary => some .high

theorem Resolver.remark_severity (key lastError : String) (tier : Tier) (strategy : Strategy) :
    (remark key lastError tier strategy).map Diagnostic.severity = tier.severity? := by
  cases tier <;> rfl

namespace LocatorSpec

/-- What a spec declares, tier by tier: the primary strategy if there is one, the secondary ones in
their order, and the tertiary one if there is one. -/
def declared (spec : LocatorSpec) : List (Tier × Strategy) :=
  (match spec.primary with
    | some strategy => [(.primary, strategy)]
    | none => []) ++
  (spec.secondary.map fun strategy => (.secondary, strategy)) ++
  match spec.tertiary with
  | some strategy => [(.tertiary, strategy)]
  | none => []

theorem strategies_eq (spec : LocatorSpec) : spec.strategies = spec.declared := by
  obtain ⟨primary, secondary, tertiary⟩ := spec
  cases primary <;> cases tertiary <;> rfl

end LocatorSpec

namespace Tier

def enter (entered : List Tier) (tier : Tier) : List Tier :=
  if entered.contains tier then entered else entered ++ [tier]

end Tier

namespace Trial

def place (t : Trial) : Tier × Strategy := (t.tier, t.strategy)

/-- Each trial begins when the one before it has ended. -/
def Chained : Nat → List Trial → Nat → Prop
  | now, [], now' => now' = now
  | now, t :: ts, now' => t.begun = now ∧ Chained t.ended ts now'

def GivenUp (t : Trial) : Prop := ∃ miss, t.outcome = .error miss

end Trial

namespace Resolver

theorem Search.enter_attempted (search : Search) (tier : Tier) :
    (search.enter tier).attempted = Tier.enter search.attempted tier := by
  simp only [Search.enter, Tier.enter]
  split <;> rfl

theorem Search.observe_attempted (search : Search) (tier : Tier) (strategy : Strategy)
    (miss : Miss) : (search.observe tier strategy miss).attempted = search.attempted := by
  cases miss <;> rfl

/-- The trials of a search through strategies, and what it comes to. -/
inductive Walk (key : String) :
    Search → List (Tier × Strategy) → List Trial → Except Search Resolved → Prop
  | exhausted {search : Search} : Walk key search [] [] (.error search)
  | found {search : Search} {rest : List (Tier × Strategy)} {t : Trial} {handle : Handle}
      (accepted : t.outcome = .ok handle) :
      Walk key search (t.place :: rest) [t]
        (.ok ⟨handle, t.tier, t.strategy, remark key search.lastError t.tier t.strategy⟩)
  | next {search : Search} {rest : List (Tier × Strategy)} {t : Trial} {ts : List Trial}
      {miss : Miss} {outcome : Except Search Resolved} (lost : t.outcome = .error miss)
      (more : Walk key ((search.enter t.tier).observe t.tier t.strategy miss) rest ts outcome) :
      Walk key search (t.place :: rest) (t :: ts) outcome

/-- Every search goes by trials, one after the other, that make all of its calls. -/
theorem resolveFrom_walk (browser : Browser β) (policy : ResolverPolicy) (key : String)
    (strategies : List (Tier × Strategy)) (search : Search) (w : World β) (s : σ) :
    ∃ ts w' outcome, (resolveFrom policy key strategies search).run browser none w s =
        ⟨some outcome, w', s⟩ ∧
      Walk key search strategies ts outcome ∧ w'.log = w.log ++ ts.flatMap Trial.calls ∧
      Trial.Chained w.now ts w'.now ∧ ∀ t ∈ ts, t.Exact policy := by
  induction strategies generalizing search w with
  | nil =>
      exact ⟨[], w, _, rfl, .exhausted, by simp, rfl, List.forall_mem_nil _⟩
  | cons place rest ih =>
      obtain ⟨tier, strategy⟩ := place
      obtain ⟨t, w', run, placed, begun, ended, log, whole⟩ :=
        tryStrategy_trial browser policy tier strategy w s
      obtain ⟨rfl, rfl⟩ := Prod.mk.inj placed
      rw [resolveFrom, Dialogue.run_bind_of_eq run]
      cases outcome : t.outcome with
      | ok handle =>
          refine ⟨[t], w', _, rfl, .found outcome, by simpa using log, ⟨begun, ended.symm⟩, ?_⟩
          exact List.forall_mem_cons.mpr ⟨whole, List.forall_mem_nil _⟩
      | error miss =>
          obtain ⟨ts, w'', found, rest, walk, log', chained, all⟩ :=
            ih ((search.enter t.tier).observe t.tier t.strategy miss) w'
          refine ⟨t :: ts, w'', found, rest, .next outcome walk, ?_, ⟨begun, ended ▸ chained⟩,
            List.forall_mem_cons.mpr ⟨whole, all⟩⟩
          rw [log', log, List.flatMap_cons, List.append_assoc]

namespace Walk

variable {key : String} {search : Search} {strategies : List (Tier × Strategy)} {ts : List Trial}
  {outcome : Except Search Resolved}

theorem order (h : Walk key search strategies ts outcome) : ts.map Trial.place <+: strategies := by
  induction h with
  | exhausted => exact List.prefix_rfl
  | found accepted => exact List.cons_prefix_cons.mpr ⟨rfl, List.nil_prefix⟩
  | next lost more ih => exact List.cons_prefix_cons.mpr ⟨rfl, ih⟩

theorem givenUp (h : Walk key search strategies ts outcome) {before after : List Trial} {t : Trial}
    (place : ts = before ++ t :: after) (more : after ≠ []) : t.GivenUp := by
  induction h generalizing before with
  | exhausted => simp at place
  | found accepted =>
      cases before with
      | nil =>
          obtain ⟨_, rfl⟩ := List.cons.inj place
          exact absurd rfl more
      | cons x before => simp at place
  | next lost rest ih =>
      cases before with
      | nil =>
          obtain ⟨rfl, _⟩ := List.cons.inj place
          exact ⟨_, lost⟩
      | cons x before => exact ih (List.cons.inj place).2

theorem found_last {resolved : Resolved} (h : Walk key search strategies ts (.ok resolved)) :
    ∃ before last, ts = before ++ [last] ∧ last.outcome = .ok resolved.handle ∧
      last.place = (resolved.tier, resolved.strategy) ∧
      resolved.diagnostic.map Diagnostic.severity = resolved.tier.severity? := by
  generalize ho : Except.ok resolved = outcome at h
  induction h with
  | exhausted => cases ho
  | @found search rest t handle accepted =>
      cases ho
      exact ⟨[], t, rfl, accepted, rfl, remark_severity _ _ _ _⟩
  | @next search rest t ts miss outcome lost more ih =>
      obtain ⟨before, last, rfl, facts⟩ := ih ho
      exact ⟨t :: before, last, rfl, facts⟩

theorem failed_all {final : Search} (h : Walk key search strategies ts (.error final)) :
    ts.map Trial.place = strategies ∧ (∀ t ∈ ts, t.GivenUp) ∧
      final.attempted = (strategies.map Prod.fst).foldl Tier.enter search.attempted := by
  generalize ho : Except.error final = outcome at h
  induction h with
  | exhausted =>
      cases ho
      exact ⟨rfl, List.forall_mem_nil _, rfl⟩
  | found accepted => cases ho
  | @next search rest t ts miss outcome lost more ih =>
      obtain ⟨all, given, entered⟩ := ih ho
      refine ⟨congrArg _ all, List.forall_mem_cons.mpr ⟨⟨miss, lost⟩, given⟩, ?_⟩
      rw [entered, Search.observe_attempted, Search.enter_attempted]
      rfl

end Walk

theorem spec_error {r : Resolver} {packId key : String} {failure : ResolutionFailure}
    (h : r.spec packId key = .error failure) : ∃ reason, failure = .unattempted key reason := by
  simp only [spec] at h
  split at h
  · exact ⟨_, (Except.error.inj h).symm⟩
  · split at h
    · exact ⟨_, (Except.error.inj h).symm⟩
    · split at h
      · exact ⟨_, (Except.error.inj h).symm⟩
      · cases h

theorem resolve_unasked {r : Resolver} {packId key : String} {failure : ResolutionFailure}
    (h : r.spec packId key = .error failure) (browser : Browser β) (deadline : Option Nat)
    (w : World β) (m : LocatorMetrics) : (r.resolve packId key).run browser deadline w m =
      ⟨some (.error failure), w, m.begun.missed⟩ := by
  simp [resolve, resolveSpec, h, Dialogue.bind, Dialogue.run]

/-- The resolution of a key with something to try is a search through its strategies. -/
theorem resolve_walk {r : Resolver} {packId key : String} {spec : LocatorSpec}
    (h : r.spec packId key = .ok spec) (browser : Browser β) (w : World β) (m : LocatorMetrics) :
    ∃ ts w' outcome m', (r.resolve packId key).run browser none w m =
        ⟨some (outcome.mapError (·.failure key)), w', m'⟩ ∧
      Walk key .begin spec.strategies ts outcome ∧ w'.log = w.log ++ ts.flatMap Trial.calls ∧
      Trial.Chained w.now ts w'.now ∧ ∀ t ∈ ts, t.Exact r.policy := by
  obtain ⟨ts, w', outcome, run, goes⟩ :=
    resolveFrom_walk browser r.policy key spec.strategies .begin w m.begun
  have whole : ∃ m', (r.resolve packId key).run browser none w m =
      ⟨some (outcome.mapError (·.failure key)), w', m'⟩ := by
    rw [resolve, Dialogue.run, resolveSpec, h]
    dsimp only
    rw [Dialogue.run_bind, Dialogue.run_bind_of_eq run]
    cases outcome <;> exact ⟨_, rfl⟩
  obtain ⟨m', whole⟩ := whole
  exact ⟨ts, w', outcome, m', whole, goes⟩

end Resolver
end Journey
