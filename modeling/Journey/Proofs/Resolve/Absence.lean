import Journey.Proofs.Resolve.Tiers

/-!
What a search that is passed on has seen: the element that it accepted, or that no strategy shows more
than an element that cannot be interacted with. The last round of each strategy decides: the failure of
a search is one of absence exactly if all of them are. What an action does with this is its own matter.
-/

namespace Journey

variable {β σ : Type}

namespace Miss

/-- The strategy found nothing, or one element that cannot be interacted with. -/
def isAbsence : Miss → Bool
  | noMatch | inert _ => true
  | ambiguous _ | browser _ => false

def inert? : Miss → Option Handle
  | inert handle => some handle
  | noMatch | ambiguous _ | browser _ => none

end Miss

namespace Round

/-- Nothing matches, or exactly one element does that cannot be interacted with. -/
def isAbsence : Round → Bool
  | queried _ (.ok .none) | checked _ _ _ (.ok false) => true
  | _ => false

/-- The one match that cannot be interacted with. -/
def inert? : Round → Option Handle
  | checked _ handle _ (.ok false) => some handle
  | _ => none

theorem Shows.absence {tier : Tier} {x : Round} {miss : Miss} (h : x.Shows tier (.pending miss)) :
    x.isAbsence = miss.isAbsence ∧ x.inert? = miss.inert? := by
  cases h <;> exact ⟨rfl, rfl⟩

end Round

/-- A strategy is given up for what its last round shows. -/
theorem Trial.Exact.absence {policy : ResolverPolicy} {t : Trial} {miss : Miss}
    (h : t.Exact policy) (lost : t.outcome = .error miss) :
    t.last.isAbsence = miss.isAbsence ∧ t.last.inert? = miss.inert? := by
  rcases h.last with settled | ⟨_, pending, same, -⟩
  · rw [lost] at settled
    generalize t.last = x, t.tier = tier at settled ⊢
    cases settled
    exact ⟨rfl, rfl⟩
  · obtain rfl := Except.error.inj (lost.symm.trans same)
    exact pending.absence

namespace Resolver

namespace Search

theorem observe_absent (search : Search) (tier : Tier) (strategy : Strategy) (miss : Miss) :
    (search.observe tier strategy miss).absent = (search.absent && miss.isAbsence) := by
  cases miss <;> simp [observe, Miss.isAbsence]

theorem observe_inert (search : Search) (tier : Tier) (strategy : Strategy) (miss : Miss) :
    (search.observe tier strategy miss).inert = search.inert.or miss.inert? := by
  cases miss <;> simp [observe, Miss.inert?]

theorem enter_absent (search : Search) (tier : Tier) : (search.enter tier).absent = search.absent := by
  simp only [enter]
  split <;> rfl

theorem enter_inert (search : Search) (tier : Tier) : (search.enter tier).inert = search.inert := by
  simp only [enter]
  split <;> rfl

end Search

/-- What a search that fails has collected are the last rounds of its trials. -/
theorem Walk.absence {policy : ResolverPolicy} {key : String} {search final : Search}
    {strategies : List (Tier × Strategy)} {ts : List Trial}
    (h : Walk key search strategies ts (.error final)) (exact : ∀ t ∈ ts, t.Exact policy) :
    final.absent = (search.absent && ts.all fun t => t.last.isAbsence) ∧
      final.inert = search.inert.or (ts.findSome? fun t => t.last.inert?) := by
  generalize ho : Except.error final = outcome at h
  induction h with
  | exhausted =>
      cases ho
      simp
  | found accepted => cases ho
  | @next search rest t ts miss outcome lost more ih =>
      obtain ⟨absent, inert⟩ := ih (List.forall_mem_cons.mp exact).2 ho
      obtain ⟨seen, unusable⟩ := (exact t List.mem_cons_self).absence lost
      rw [absent, inert, Search.observe_absent, Search.observe_inert, Search.enter_absent,
        Search.enter_inert, List.all_cons, List.findSome?_cons, seen, unusable]
      refine ⟨Bool.and_assoc _ _ _, ?_⟩
      cases search.inert <;> cases miss.inert? <;> rfl

/-- Trials of declared strategies in their order, the last of which accepted the element. -/
structure Accepts (spec : LocatorSpec) (ts : List Trial) (handle : Handle) : Prop where
  declared : ts.map Trial.place <+: spec.declared
  last : ∃ before last, ts = before ++ [last] ∧ last.last.Shows last.tier (.settled (.ok handle))

/-- What a search through a spec has come to if it is passed on: the element that it accepted, or, after
a trial of every strategy that ended in absence, the first match that cannot be interacted with. -/
inductive Finds (spec : LocatorSpec) (ts : List Trial) : Option Handle → Prop
  | present {handle : Handle} (accepts : Accepts spec ts handle) : Finds spec ts (some handle)
  | absent (all : ts.map Trial.place = spec.declared)
      (nothing : ∀ t ∈ ts, t.last.isAbsence = true) :
      Finds spec ts (ts.findSome? fun t => t.last.inert?)

/-- A key that is known, with strategies to try. -/
structure Knows (r : Resolver) (packId key : String) (spec : LocatorSpec) : Prop where
  found : ((Dict.find? r.packs packId).bind fun pack => pack.find? key) = some spec
  declares : spec.isEmpty = false

theorem knows_of_spec {r : Resolver} {packId key : String} {spec : LocatorSpec}
    (h : r.spec packId key = .ok spec) : r.Knows packId key spec := by
  simp only [Resolver.spec] at h
  split at h
  · cases h
  · rename_i pack loaded
    split at h
    · cases h
    · rename_i declared
      split at h
      · cases h
      · rename_i nonempty
        obtain rfl := Except.ok.inj h
        exact ⟨by simp [loaded, declared], by simpa using nonempty⟩

/-- An element is accepted only for a key that is known, and only by its trials. -/
theorem resolve_accepts (r : Resolver) (browser : Browser β) (packId key : String) (w : World β)
    (m : LocatorMetrics) {resolved : Resolved}
    (h : ((r.resolve packId key).run browser none w m).result = some (.ok resolved)) :
    ∃ spec ts, r.Knows packId key spec ∧ (∀ t ∈ ts, t.Lawful r.policy) ∧
      Accepts spec ts resolved.handle ∧
      ((r.resolve packId key).run browser none w m).world.log = w.log ++ ts.flatMap Trial.calls := by
  cases known : r.spec packId key with
  | error failure =>
      rw [resolve_unasked known] at h
      cases h
  | ok spec =>
      obtain ⟨ts, w', outcome, m', run, walk, log, -, exact⟩ := resolve_walk known browser w m
      have lawful : ∀ t ∈ ts, t.Lawful r.policy := fun t mem => (exact t mem).lawful
      rw [run] at h ⊢
      cases outcome with
      | error final => cases h
      | ok found =>
          obtain rfl := Except.ok.inj (Option.some.inj h)
          obtain ⟨before, last, place, accepted, -, -⟩ := walk.found_last
          have shows := (lawful last (by simp [place])).accepted _ accepted
          have order := spec.strategies_eq ▸ walk.order
          exact ⟨spec, ts, knows_of_spec known, lawful, ⟨order, before, last, place, shows⟩, log⟩

/-- A search fails with an absent target only for a key that is known, and only if all of its trials
ended in absence. -/
theorem resolve_absent (r : Resolver) (browser : Browser β) (packId key : String) (w : World β)
    (m : LocatorMetrics) {failure : ResolutionFailure}
    (h : ((r.resolve packId key).run browser none w m).result = some (.error failure))
    (absent : failure.absent = true) :
    ∃ spec ts, r.Knows packId key spec ∧ (∀ t ∈ ts, t.Lawful r.policy) ∧
      Finds spec ts failure.inert ∧
      ((r.resolve packId key).run browser none w m).world.log = w.log ++ ts.flatMap Trial.calls := by
  cases known : r.spec packId key with
  | error failure =>
      obtain ⟨reason, rfl⟩ := spec_error known
      rw [resolve_unasked known] at h
      cases h
      cases absent
  | ok spec =>
      obtain ⟨ts, w', outcome, m', run, walk, log, -, exact⟩ := resolve_walk known browser w m
      rw [run] at h ⊢
      cases outcome with
      | ok found => cases h
      | error final =>
          obtain rfl := Except.error.inj (Option.some.inj h)
          obtain ⟨nothing, inert⟩ := walk.absence exact
          have every := (Bool.and_eq_true_iff.mp absent).1
          rw [nothing] at every
          rw [show (final.failure key).inert = _ from inert]
          exact ⟨spec, ts, knows_of_spec known, fun t mem => (exact t mem).lawful,
            .absent (walk.failed_all.1.trans spec.strategies_eq)
              (by simpa [Search.begin] using every), log⟩

end Resolver
end Journey
