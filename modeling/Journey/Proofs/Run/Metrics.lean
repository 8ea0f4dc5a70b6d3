import Journey.Proofs.Run.Trail

/-!
The counts of resolutions in a run. A resolution is counted when it begins, and again as a hit or a
failure when it is known how it ends. The time of a step may run out in between; such a resolution has
begun and is neither, so that the counts balance but for those that were cut off.
-/

namespace Journey

variable {β μ : Type}

namespace LocatorMetrics

/-- The number of resolutions that have come to an end. -/
def settled (m : LocatorMetrics) : Nat := m.primary + m.secondary + m.tertiary + m.failures

theorem settled_hit (m : LocatorMetrics) (tier : Tier) : (m.hit tier).settled = m.settled + 1 := by
  cases tier <;> simp only [hit, settled] <;> omega

theorem attempts_hit (m : LocatorMetrics) (tier : Tier) : (m.hit tier).attempts = m.attempts := by
  cases tier <;> rfl

/-- The counts grow from one to the other by what the attempts resolve. -/
structure Grows (e : Engine β μ) (pack : Option String) (xs : List (Attempt β μ))
    (m m' : LocatorMetrics) : Prop where
  attempts : m'.attempts = m.attempts + xs.countP (·.seeks e pack)
  settled : m'.settled + xs.countP (·.isCut e pack) = m.settled + xs.countP (·.seeks e pack)

/-- The counts are those of the attempts: each resolution is counted when it is begun, and once
more unless it is cut off. So hits and failures add up to all of them exactly if none was. -/
structure Counts (e : Engine β μ) (pack : Option String) (xs : List (Attempt β μ))
    (m : LocatorMetrics) : Prop where
  attempts : m.attempts = xs.countP (·.seeks e pack)
  balance : m.attempts = m.primary + m.secondary + m.tertiary + m.failures +
    xs.countP (·.isCut e pack)
  balanced : m.attempts = m.primary + m.secondary + m.tertiary + m.failures ↔
    ∀ x ∈ xs, x.isCut e pack = false

section

variable {e : Engine β μ} {pack : Option String} {m m' m'' : LocatorMetrics}

theorem Grows.refl : Grows e pack [] m m := ⟨rfl, rfl⟩

theorem Grows.trans {xs ys : List (Attempt β μ)} (h : Grows e pack xs m m')
    (h' : Grows e pack ys m' m'') : Grows e pack (xs ++ ys) m m'' where
  attempts := by rw [h'.attempts, h.attempts, List.countP_append, Nat.add_assoc]
  settled := by
    have first := h.settled
    have rest := h'.settled
    simp only [List.countP_append]
    omega

theorem Grows.balance {xs : List (Attempt β μ)} (h : Grows e pack xs .zero m) :
    m.attempts = m.primary + m.secondary + m.tertiary + m.failures + xs.countP (·.isCut e pack) := by
  have begun := h.attempts
  have ended := h.settled
  rw [show zero.attempts = 0 from rfl] at begun
  rw [LocatorMetrics.settled, show zero.settled = 0 from rfl] at ended
  omega

theorem Grows.counts {xs : List (Attempt β μ)} (h : Grows e pack xs .zero m) :
    Counts e pack xs m where
  attempts := h.attempts.trans (Nat.zero_add _)
  balance := h.balance
  balanced := by
    have none : xs.countP (·.isCut e pack) = 0 ↔ ∀ x ∈ xs, x.isCut e pack = false := by
      simp [List.countP_eq_zero]
    rw [← none, h.balance]
    omega

end
end LocatorMetrics

namespace Attempt

variable (e : Engine β μ) (pack : Option String) (x : Attempt β μ)

/-- An attempt that resolves a target counts it when it begins, and once more unless it is cut off;
any other attempt leaves the counts alone. -/
theorem counts_grows :
    LocatorMetrics.Grows e pack [x] x.before.context.metrics (x.counts e pack) := by
  cases sought : x.sought? e pack with
  | none =>
      have idle : x.search? e pack = none := by rw [search?, sought]; rfl
      rw [counts, idle]
      exact ⟨by simp [seeks, idle], by simp [seeks, isCut, idle]⟩
  | some target =>
      obtain ⟨pack', key⟩ := target
      have search : x.search? e pack =
          some ((e.resolver.resolve pack' key).run e.browser x.deadline x.before.world
            x.before.context.metrics) := by rw [search?, sought]; rfl
      have notes := e.resolver.resolve_notes pack' key e.browser x.deadline x.before.world
        x.before.context.metrics
      rw [counts, search]
      generalize (e.resolver.resolve pack' key).run e.browser x.deadline x.before.world
        x.before.context.metrics = ending at search notes
      obtain ⟨_ | _ | resolved, w, m⟩ := ending <;> dsimp only at notes <;> subst notes
      · exact ⟨by simp [seeks, search]; rfl, by simp [seeks, isCut, search]; rfl⟩
      · exact ⟨by simp [seeks, search]; rfl, by simp [seeks, isCut, search]; rfl⟩
      · refine ⟨?_, ?_⟩
        · simp [seeks, search, LocatorMetrics.attempts_hit]; rfl
        · simp [seeks, isCut, search, LocatorMetrics.settled_hit]; rfl

theorem Linked.grows {s s' : Scene β μ} {xs : List (Attempt β μ)} (h : Linked e pack s xs s') :
    LocatorMetrics.Grows e pack xs s.context.metrics s'.context.metrics := by
  induction xs generalizing s with
  | nil =>
      obtain ⟨ms, rfl⟩ := h
      exact .refl
  | cons x xs ih =>
      obtain ⟨⟨ms, waited⟩, rest⟩ := h
      have first := x.counts_grows e pack
      rw [← x.after_metrics e pack, waited] at first
      exact first.trans (ih rest)

end Attempt

namespace Turn

variable {e : Engine β μ} {pack : Option String} {x : Turn β μ}

/-- A turn lets the counts grow by what its attempts resolve. -/
theorem Taken.grows (h : x.Taken e pack) : LocatorMetrics.Grows e pack (x.attempts e pack)
    x.before.context.metrics x.after.context.metrics := by
  rcases h with held | passed
  · have run := Turn.run_of_carriedOut held
    have shown : x.result.isSkipped = false :=
      congrArg Option.isSome (Engine.reports_of_run run).carriedOut
    have before : x.scene.context.metrics = x.before.context.metrics :=
      (congrArg Context.metrics (x.before.look_context x.policy) : _)
    have after := e.executeStep_metrics x.step pack x.scene
    rw [run] at after
    rw [Turn.attempts, shown, ← before, show x.after.context.metrics = _ from after]
    exact (e.attemptsOfStep_linked x.step pack x.scene).grows
  · have same : x.after.context.metrics = x.before.context.metrics :=
      (congrArg Context.metrics passed.context : _)
    rw [Turn.attempts, passed.skipped, same]
    exact .refl

theorem grows_of_linked {s s' : Scene β μ} {xs : List (Turn β μ)}
    (linked : Entry.Linked s (xs.map Turn.toEntry) s') (taken : ∀ x ∈ xs, x.Taken e pack) :
    LocatorMetrics.Grows e pack (xs.flatMap (Turn.attempts e pack)) s.context.metrics
      s'.context.metrics := by
  induction xs generalizing s with
  | nil =>
      rw [show s'.context.metrics = s.context.metrics from linked.metrics]
      exact .refl
  | cons x xs ih =>
      obtain ⟨here, later⟩ := List.forall_mem_cons.mp taken
      have first := here.grows
      rw [show x.before.context.metrics = s.context.metrics from linked.1.metrics] at first
      exact first.trans (ih linked.2 later)

end Turn

namespace Record

/-- At every boundary between two steps, the counts are those of the attempts made so far. -/
def Counted (e : Engine β μ) (pack : Option String) (c : Record β μ) : Prop :=
  ∀ before x after, c.turns e = before ++ x :: after →
    x.before.context.metrics.Counts e pack (before.flatMap (Turn.attempts e pack)) ∧
      x.after.context.metrics.Counts e pack ((before ++ [x]).flatMap (Turn.attempts e pack))

end Record

namespace Engine

theorem runBlocks_metrics (e : Engine β μ) (w : Workflow) (s : Scene β μ) :
    (e.runBlocks w s).1.metrics = (e.runBlocks w s).2.context.metrics := rfl

theorem prepare_metrics {e : Engine β μ} {w : Workflow} {context : Context}
    (h : e.prepare w = .ok context) : context.metrics = .zero :=
  seed_untouched (g := Context.metrics) (fun _ _ _ => rfl) e (prepare_seed h)

/-- At every boundary between two steps of a run and at its end, the counts of resolutions balance,
but for the resolutions that were cut off when the time of their step ran out. -/
theorem run_metrics {e : Engine β μ} {w : Workflow} {r : WorkflowResult} {world world' : World β}
    {memory memory' : μ} (run : e.run w world memory = (.ok r, world', memory')) :
    ∃ c : Record β μ, c.TellsRun e w r world memory world' memory' ∧
      c.Counted e w.locatorPack ∧
      r.metrics.Counts e w.locatorPack ((c.turns e).flatMap (Turn.attempts e w.locatorPack)) := by
  obtain ⟨context, s', c, prepared, ran, tells, rfl, rfl⟩ := run_tells run
  have fresh := prepare_metrics prepared
  have linked := tells.linked
  rw [← Record.turns_entries e] at linked
  refine ⟨c, ⟨context, s', prepared, tells, rfl, rfl⟩, fun before x after place => ?_, ?_⟩
  · have taken := tells.each_turn
    rw [place] at linked taken
    obtain ⟨m, first, rest⟩ := (List.map_append ▸ linked).split
    have grown := Turn.grows_of_linked first fun y hy => taken y (List.mem_append_left _ hy)
    have here := (taken x (by simp)).grows
    rw [fresh] at grown
    rw [rest.1.metrics] at here ⊢
    exact ⟨grown.counts, by simpa using (grown.trans here).counts⟩
  · have grown := Turn.grows_of_linked linked tells.each_turn
    have final := e.runBlocks_metrics w ⟨world, context, memory⟩
    rw [ran] at final
    rw [fresh, ← show r.metrics = s'.context.metrics from final] at grown
    exact grown.counts

/-- An engine whose steps have less time than the search for their target. -/
def hurried : Engine Rehearsal Unit :=
  { bare with
    registry := .builtin
    resolver := (Resolver.empty TimeoutPolicy.default.resolverPolicy).addPack
      ⟨"app", [("save", ⟨some (.testId "save"), [], none⟩)]⟩
    settings := { Settings.default with
      timeouts := { TimeoutPolicy.default with step := 10 }
      retry := { RetryPolicy.default with maxAttempts := 1 } } }

end Engine

/-- One click on an element that the page does not have. -/
def Workflow.fruitless : Workflow :=
  ⟨"page", [], some "app", [], none, none, [], [⟨"open", none, none, [⟨.atomic, "element.click", [],
    some "save", none, none, none, false, [], ⟨"page.flow", 3⟩⟩], ⟨"page.flow", 2⟩⟩], [], [],
    ⟨"page.flow", 1⟩, ""⟩

namespace Engine

theorem run_fruitless_counted : ∃ r world' memory' c,
    hurried.run .fruitless Scene.blank.world () = (.ok r, world', memory') ∧
      Record.TellsRun hurried .fruitless r Scene.blank.world () world' memory' c ∧
      c.Counted hurried (some "app") ∧
      r.metrics.Counts hurried (some "app")
        ((c.turns hurried).flatMap (Turn.attempts hurried (some "app"))) := by
  obtain ⟨r, world', memory', -, run, -⟩ :=
    run_of_prepare (show hurried.prepare .fruitless = .ok .empty from rfl) Scene.blank.world ()
  obtain ⟨c, tells, counted, final⟩ := run_metrics run
  exact ⟨r, world', memory', c, run, tells, counted, final⟩

/-- The time of the step is over while its target is still looked for: the resolution has begun, and
is neither a hit nor a failure. -/
theorem run_fruitless_unbalanced : ∃ r world' memory',
    hurried.run .fruitless Scene.blank.world () = (.ok r, world', memory') ∧
      r.metrics.attempts ≠
        r.metrics.primary + r.metrics.secondary + r.metrics.tertiary + r.metrics.failures := by
  obtain ⟨r, world', memory', -, run, -⟩ :=
    run_of_prepare (show hurried.prepare .fruitless = .ok .empty from rfl) Scene.blank.world ()
  have metrics : (hurried.run .fruitless Scene.blank.world ()).1.toOption.map
      WorkflowResult.metrics = some ⟨0, 0, 0, 0, 1⟩ := rfl
  rw [run] at metrics
  have counts : r.metrics = ⟨0, 0, 0, 0, 1⟩ := Option.some.inj metrics
  exact ⟨r, world', memory', run, by rw [counts]; decide⟩

end Engine
end Journey
