import Journey.Proofs.Run.Frame

/-!
One attempt of an action, from what it starts with: the target that it looks for, how that search
ends, and what the action is handed over to with if the attempt gets that far. The counts of
resolutions after an attempt are those after its search. How attempts follow each other is told by
the trail of a step.
-/

namespace Journey

variable {β μ σ τ α ε κ : Type}

namespace Dialogue

/-- A dialogue within larger notes runs as it does on its own part of them. -/
theorem run_within (get : τ → σ) (set : σ → τ → τ) (get_set : ∀ s t, get (set s t) = s)
    (set_set : ∀ s s' t, set s' (set s t) = set s' t) (set_get : ∀ t, set (get t) t = t)
    (browser : Browser β) (deadline : Option Nat) (d : Dialogue σ α) (w : World β) (t : τ) :
    (d.within get set).run browser deadline w t =
      ⟨(d.run browser deadline w (get t)).result, (d.run browser deadline w (get t)).world,
        set (d.run browser deadline w (get t)).notes t⟩ := by
  induction d generalizing w t with
  | done a => simp only [within, run, set_get]
  | sleep ms next ih =>
      simp only [within, run]
      split
      · exact ih _ _
      · simp only [set_get]
  | clock next ih => exact ih _ _ _
  | note f next ih =>
      simp only [within, run, ih, get_set, set_set]
  | consult next ih => exact ih _ _ _
  | ask call next ih =>
      simp only [within, run]
      split
      · exact ih _ _ _
      · simp only [set_get]

end Dialogue

namespace Resolver

/-- A search acts on no element. -/
def Asks (call : Call) : Prop := call.touched? = none

theorem silent_probeFor (tier : Tier) (strategy : Strategy) :
    (probeFor tier strategy : Dialogue σ _).Silent Asks fun _ => True := by
  cases tier with
  | primary | secondary =>
      refine ⟨rfl, ?_⟩
      rintro (error | none | handle | count)
      · trivial
      · trivial
      · refine ⟨rfl, ?_⟩
        rintro (error | lacks | holds) <;> trivial
      · trivial
  | tertiary =>
      refine ⟨rfl, ?_⟩
      rintro (error | none | handle | count) <;> trivial

theorem silent_resolveFrom (policy : ResolverPolicy) (key : String)
    (strategies : List (Tier × Strategy)) (search : Search) :
    (resolveFrom policy key strategies search : Dialogue σ _).Silent Asks fun _ => True := by
  induction strategies generalizing search with
  | nil => trivial
  | cons strategy rest ih =>
      refine (Probe.silent_poll (silent_probeFor _ _) _ _).bind fun shown _ => ?_
      cases shown with
      | ok handle => trivial
      | error miss => exact ih _

theorem silent_resolveSpec (r : Resolver) (packId key : String) :
    (r.resolveSpec packId key : Dialogue σ _).Silent Asks fun _ => True := by
  simp only [resolveSpec]
  split
  · trivial
  · refine (silent_resolveFrom _ _ _ _).bind fun shown _ => ?_
    cases shown <;> trivial

theorem obeys_resolve (r : Resolver) (packId key : String) :
    (r.resolve packId key).Obeys Asks fun _ => True := by
  refine (r.silent_resolveSpec packId key).obeys.bind fun shown _ => ?_
  cases shown <;> trivial

/-- What a resolution adds to the counts by the time it ends: a call, and a hit or a failure unless
it is cut off before that is known. -/
theorem resolve_notes (r : Resolver) (pack key : String) (browser : Browser β)
    (deadline : Option Nat) (w : World β) (m : LocatorMetrics) :
    ((r.resolve pack key).run browser deadline w m).notes =
      match ((r.resolve pack key).run browser deadline w m).result with
      | some (.ok resolved) => m.begun.hit resolved.tier
      | some (.error _) => m.begun.missed
      | none => m.begun := by
  have kept := ((r.silent_resolveSpec pack key).keeps id).run browser deadline w m.begun
  simp only [resolve, Dialogue.run, Dialogue.run_bind]
  generalize (r.resolveSpec pack key).run browser deadline w m.begun = ending at kept ⊢
  obtain ⟨_ | _ | resolved, w', m'⟩ := ending <;> obtain rfl : m' = m.begun := kept <;> rfl

end Resolver

/-- One attempt as it starts: the action, the time it has, and the scene. -/
structure Attempt (β μ : Type) where
  call : ActionCall
  limit : Nat
  before : Scene β μ

namespace Attempt

variable (e : Engine β μ) (pack : Option String) (x : Attempt β μ)

def deadline : Option Nat := some (x.before.world.now + x.limit)

def ending : Ending β (Notes μ) (Except StepError Outputs) :=
  (e.attempt x.call pack x.limit).run e.browser x.deadline x.before.world
    ⟨x.before.context, x.before.memory, none, []⟩

def result : AttemptResult := (e.runAttempt x.call pack x.limit x.before).1

def after : Scene β μ := (e.runAttempt x.call pack x.limit x.before).2

/-- The pack and the key of the target that is to be resolved, if there is one. -/
def sought? : Option (String × String) :=
  match e.registry.find? x.call.keyword, e.resolveCall x.call x.before.context, pack with
  | some _, .ok (_, some key), some pack => some (pack, key)
  | _, _, _ => none

/-- How the resolution of the target ends, if there is one to resolve. -/
def search? : Option (Ending β LocatorMetrics (Except ResolutionFailure Resolved)) :=
  (x.sought? e pack).map fun (pack, key) =>
    (e.resolver.resolve pack key).run e.browser x.deadline x.before.world x.before.context.metrics

/-- The attempt resolves a target. -/
def seeks : Bool := (x.search? e pack).isSome

/-- The attempt runs out of time while its target is being resolved. -/
def isCut : Bool := (x.search? e pack).any fun ending => ending.result.isNone

/-- The target that the search leaves to be passed on, if it leaves the attempt going. -/
def passes? (spec : ActionSpec) : Option (Option Handle) :=
  (x.search? e pack).bind fun ending =>
    match ending.result with
    | some (.ok resolved) => some (some resolved.handle)
    | some (.error failure) =>
        if spec.target = .absentOk && failure.absent then some failure.inert else none
    | none => none

/-- What the action is handed over to with, if the attempt gets that far. -/
def invocation? : Option (ActionSpec × ActionInput) :=
  match e.registry.find? x.call.keyword, e.resolveCall x.call x.before.context with
  | some spec, .ok (params, target) =>
      (match target with
        | none => some none
        | some _ => x.passes? e pack spec).map fun handle =>
          (spec, ⟨x.call.keyword, handle, params, x.limit, e.poll⟩)
  | _, _ => none

/-- The counts of resolutions that the attempt leaves. -/
def counts : LocatorMetrics := ((x.search? e pack).map Ending.notes).getD x.before.context.metrics

/-- The world in which the search for the target ends; without one it is that of the beginning. -/
def searched : World β := ((x.search? e pack).map Ending.world).getD x.before.world

end Attempt

namespace Engine

theorem locate_run (e : Engine β μ) (spec : ActionSpec) (pack key : String)
    (deadline : Option Nat) (w : World β) (n : Notes μ) :
    (e.locate spec (some pack) (some key)).run e.browser deadline w n =
      let search := (e.resolver.resolve pack key).run e.browser deadline w n.context.metrics
      let notes := n.setMetrics search.notes
      match search.result with
      | some (.ok resolved) =>
          ⟨some (.ok (some resolved.handle)), search.world, notes.found resolved⟩
      | some (.error failure) =>
          ⟨some (if spec.target = .absentOk && failure.absent then .ok failure.inert
            else .error (.resolution failure)), search.world, notes⟩
      | none => ⟨none, search.world, notes⟩ := by
  have inner := Dialogue.run_within Notes.metrics Notes.setMetrics (fun _ _ => rfl)
    (fun _ _ _ => rfl) (fun _ => rfl) e.browser deadline (e.resolver.resolve pack key) w n
  simp only [locate, Dialogue.run_bind, inner, Notes.metrics]
  generalize (e.resolver.resolve pack key).run e.browser deadline w n.context.metrics = search
  obtain ⟨_ | failure | resolved, w', m⟩ := search
  · rfl
  · dsimp only
    split <;> rfl
  · rfl

theorem dispatch_run (e : Engine β μ) {spec : ActionSpec} {p : Primitive} (kind : spec.kind = .atomic p)
    (input : ActionInput) (deadline : Option Nat) (w : World β) (n : Notes μ) :
    (e.dispatch spec input).run e.browser deadline w n =
      let inner := (p.perform input).run e.browser deadline w n.context
      ⟨inner.result, inner.world, n.setContext inner.notes⟩ := by
  rw [dispatch, kind]
  exact Dialogue.run_within Notes.context Notes.setContext (fun _ _ => rfl) (fun _ _ _ => rfl)
    (fun _ => rfl) e.browser deadline (p.perform input) w n

end Engine

namespace Attempt

variable (e : Engine β μ) (pack : Option String) (x : Attempt β μ)

/-- A search that ends is one for a key in a pack, and goes as it does without a deadline. -/
theorem search_in_time {e : Engine β μ} {pack : Option String} {x : Attempt β μ}
    {search : Ending β LocatorMetrics (Except ResolutionFailure Resolved)}
    (h : x.search? e pack = some search) (ends : search.result.isSome = true) :
    ∃ packId key, x.sought? e pack = some (packId, key) ∧ search =
      (e.resolver.resolve packId key).run e.browser none x.before.world x.before.context.metrics := by
  obtain ⟨⟨packId, key⟩, sought, rfl⟩ := Option.map_eq_some_iff.mp h
  exact ⟨packId, key, sought, Dialogue.run_in_time ends⟩

/-- An attempt searches for its target first. If that leaves something to pass on, the action is
carried out with it, and if not, the attempt has failed. -/
theorem ending_eq : ∃ n, n.context.metrics = x.counts e pack ∧
    match x.invocation? e pack with
    | some (spec, input) =>
        x.ending e pack = (e.dispatch spec input).run e.browser x.deadline (x.searched e pack) n
    | none => ∃ result, x.ending e pack = ⟨result, x.searched e pack, n⟩ ∧
        ∀ outputs, result ≠ some (.ok outputs) := by
  simp only [ending, Engine.attempt, counts, searched, invocation?, passes?, search?, sought?]
  cases found : e.registry.find? x.call.keyword with
  | none => exact ⟨_, rfl, _, rfl, by simp⟩
  | some spec =>
      simp only [Dialogue.run]
      cases e.resolveCall x.call x.before.context with
      | error error => exact ⟨_, rfl, _, rfl, by simp⟩
      | ok call =>
          obtain ⟨params, _ | key⟩ := call
          · exact ⟨_, rfl, rfl⟩
          · cases pack with
            | none => exact ⟨_, rfl, _, rfl, by simp⟩
            | some pack =>
                simp only [Dialogue.run_bind, Engine.locate_run, Option.map_some, Option.bind_some,
                  Option.getD_some]
                generalize (e.resolver.resolve pack key).run e.browser x.deadline x.before.world
                  x.before.context.metrics = search
                obtain ⟨_ | failure | resolved, w, m⟩ := search
                · exact ⟨_, rfl, _, rfl, by simp⟩
                · -- A failed search goes on only where it means that the target is absent.
                  dsimp only
                  cases spec.target = .absentOk && failure.absent with
                  | true => exact ⟨_, rfl, rfl⟩
                  | false => exact ⟨_, rfl, _, rfl, by simp⟩
                · exact ⟨_, rfl, rfl⟩

theorem after_metrics : (x.after e pack).context.metrics = x.counts e pack := by
  obtain ⟨n, counts, goes⟩ := x.ending_eq e pack
  change (x.ending e pack).notes.context.metrics = _
  cases invoked : x.invocation? e pack with
  | none =>
      rw [invoked] at goes
      obtain ⟨result, ends, -⟩ := goes
      rw [ends, ← counts]
  | some handed =>
      rw [invoked] at goes
      rw [goes, ← counts]
      exact (Engine.keeps_dispatch (g := Context.metrics) (fun _ _ _ => rfl) e _ _).run _ _ _ _

theorem ending_of_outcome {e : Engine β μ} {pack : Option String} {x : Attempt β μ} {outputs : Outputs}
    (h : (x.result e pack).outcome = .ok outputs) :
    (x.ending e pack).result = some (.ok outputs) := by
  change (x.ending e pack).result.getD _ = _ at h
  cases result : (x.ending e pack).result with
  | none =>
      rw [result] at h
      cases h
  | some outcome =>
      rw [result] at h
      exact congrArg some h

end Attempt

end Journey
