import Journey.Proofs.Run.Calm

/-!
Cancellation in the course of a run. A flag that is raised while a step is carried out changes nothing
about that step; every step of setup and phases that comes after it is passed over, and with one of them
the run has failed. Recovery and teardown do not look at the flag. What a block records as the cause is
stated with the root cause.
-/

namespace Journey

variable {β μ : Type}

namespace World

/-- The flag is up the next time somebody looks. -/
def isRaised (w : World β) : Bool := w.look.1

theorem isRaised_look {w : World β} (h : w.isRaised = true) : w.look.2.isRaised = true := by
  obtain ⟨now, cancelled, history, browser, interrupt⟩ := w
  rcases interrupt with _ | _ | looks
  · exact h
  · rfl
  · cases looks <;> first | exact h | rfl

end World

namespace Turn

variable {e : Engine β μ} {pack : Option String} {x : Turn β μ}

/-- A step that looks at the flag is carried out only if it is down. -/
theorem passedOver_of_raised (h : x.Taken e pack) (looks : x.policy ≠ .bestEffort)
    (up : x.before.world.isRaised = true) : x.PassedOver := by
  rcases h with ⟨scene, look, -⟩ | passed
  · have down := x.before.look_of_ne looks
    rw [look] at down
    rw [World.isRaised, ← down] at up
    cases up
  · exact passed

/-- Once the flag is up, it stays up, and nothing is carried out where it is looked at. -/
theorem passedOver_of_linked {s s' : Scene β μ} {xs : List (Turn β μ)}
    (linked : Entry.Linked s (xs.map Turn.toEntry) s')
    (taken : ∀ x ∈ xs, x.Taken e pack ∧ x.policy ≠ .bestEffort) (up : s.world.isRaised = true) :
    ∀ x ∈ xs, x.PassedOver := by
  induction xs generalizing s with
  | nil => exact List.forall_mem_nil _
  | cons x xs ih =>
      obtain ⟨⟨here, looks⟩, later⟩ := List.forall_mem_cons.mp taken
      obtain ⟨leads, rest⟩ := linked
      have before : x.before.world.isRaised = true := leads.world ▸ up
      have passed := passedOver_of_raised here looks before
      have after : x.after.world.isRaised = true := by
        rcases passed.kept with kept | looked
        · exact kept.world ▸ before
        · exact looked.world ▸ World.isRaised_look before
      exact List.forall_mem_cons.mpr ⟨passed, ih rest later after⟩

end Turn

namespace Record

variable {e : Engine β μ} {w : Workflow} {r : WorkflowResult} {c : Record β μ} {s s' : Scene β μ}

theorem watched_looks (e : Engine β μ) (c : Record β μ) :
    ∀ x ∈ c.watched e, x.policy ≠ .bestEffort := by
  intro x mem
  simp only [watched, Chapter.turns, List.mem_append, List.mem_flatMap, List.mem_map] at mem
  rcases mem with ⟨y, -, rfl⟩ | ⟨p, -, y, -, rfl⟩
  · exact BlockPolicy.noConfusion
  · exact e.phasePolicy_ne_bestEffort p.phase

theorem Tells.watched_linked (h : c.Tells e w r s s') :
    ∃ m, Entry.Linked s ((c.watched e).map Turn.toEntry) m := by
  have linked := h.linked
  rw [← turns_entries e, turns, List.map_append] at linked
  obtain ⟨m, first, -⟩ := linked.split
  exact ⟨m, first⟩

theorem Tells.watched_results (h : c.Tells e w r s s') :
    (c.watched e).map (fun x => x.result) = r.trace := by
  have phases : c.phases.flatMap (fun p => p.entries.map Entry.result) =
      r.phases.flatMap PhaseResult.steps := by
    rw [← h.shown, List.flatMap_map, List.flatMap_def, List.flatMap_def]
    exact congrArg List.flatten
      (List.map_congr_left fun p owner => (h.phases p owner).tell.results)
  simp [watched, Chapter.turns, Function.comp_def, List.map_flatMap, WorkflowResult.trace,
    ← h.setup.results, phases]

end Record

/-- A result that stops its block has failed it. -/
theorem Tally.success_of_stop {policy : BlockPolicy} {t : Tally} {step : Step} {r : StepResult}
    {reason : String} (going : t.stop = none) (stop : (t.after policy step r).stop = some reason) :
    (t.after policy step r).success policy = false := by
  by_cases strict : policy = .strict
  · subst strict
    cases counted : Tally.counts .strict r with
    | true => simp [Tally.after, counted, Tally.success]
    | false =>
        rw [Tally.after_of_not_counts counted, going] at stop
        cases stop
  · rw [Tally.stop_after_lenient strict, going] at stop
    cases stop

namespace Engine

variable (e : Engine β μ)

/-- A block that succeeds has carried out all of its steps. -/
theorem runSteps_executed (block : String) (policy : BlockPolicy) (pack : Option String)
    (index : Nat) (steps : List Step) {t : Tally} (going : t.stop = none) (s : Scene β μ)
    (good : (e.runSteps block policy pack index steps t s).2.1.success policy = true) :
    ∀ r ∈ (e.runSteps block policy pack index steps t s).1, r.isSkipped = false := by
  induction steps generalizing index t s with
  | nil => exact List.forall_mem_nil _
  | cons step rest ih =>
      simp only [runSteps, going] at good ⊢
      cases look : (s.look policy).1 with
      | true =>
          -- The flag stops the block, and such a block does not succeed.
          simp only [look, if_true, e.runSteps_of_stop block policy pack (index + 1) rest
            (show t.cancel.stop = some "cancelled" from rfl)] at good
          cases good
      | false =>
          simp only [look, Bool.false_eq_true, if_false] at good ⊢
          rcases ran : e.executeStep step pack ((s.look policy).2.atStep block index) with ⟨r, next⟩
          rw [ran] at good
          have shown : r.isSkipped = false := congrArg Option.isSome (reports_of_run ran).carriedOut
          refine List.forall_mem_cons.mpr ⟨shown, ?_⟩
          cases stop : (t.after policy step r).stop with
          | none => exact ih (index + 1) stop next good
          | some reason =>
              simp only [e.runSteps_of_stop block policy pack (index + 1) rest stop] at good
              rw [Tally.success_of_stop going stop] at good
              cases good

theorem runBlock_executed (block : String) (policy : BlockPolicy) (pack : Option String)
    (steps : List Step) (s : Scene β μ)
    (good : (e.runBlock block policy pack steps s).1.success = true) :
    ∀ r ∈ (e.runBlock block policy pack steps s).1.steps, r.isSkipped = false :=
  e.runSteps_executed block policy pack 0 steps rfl s good

theorem runPhases_executed (goesOn : Bool) (pack : Option String) (phases : List Phase)
    (s : Scene β μ)
    (good : ∀ p ∈ (e.runPhases goesOn pack false phases s).1, p.skipped = false → p.success = true) :
    ∀ r ∈ (e.runPhases goesOn pack false phases s).1.flatMap PhaseResult.steps,
      r.isSkipped = false := by
  induction phases generalizing s with
  | nil => exact List.forall_mem_nil _
  | cons phase rest ih =>
      simp only [runPhases] at good ⊢
      obtain ⟨here, later⟩ := List.forall_mem_cons.mp good
      have success : (e.runBlock phase.name (e.phasePolicy phase) pack phase.steps s).1.success = true :=
        here rfl
      -- A phase that succeeds lets the next one be started.
      simp only [success, Bool.not_true, Bool.false_and] at later ⊢
      intro r mem
      rcases List.mem_append.mp mem with own | others
      · exact e.runBlock_executed _ _ _ _ _ success r own
      · exact ih _ later r others

theorem runBlocks_executed (w : Workflow) (s : Scene β μ) (good : (e.runBlocks w s).1.success = true) :
    ∀ r ∈ (e.runBlocks w s).1.trace, r.isSkipped = false := by
  rw [runBlocks_trace]
  simp only [runBlocks] at good
  cases setup : (e.runBlock "setup" .strict w.locatorPack w.setup s).1.success with
  | false =>
      rw [setup] at good
      cases good
  | true =>
      simp only [setup, Bool.not_true, Bool.false_or, Bool.not_eq_true', List.any_eq_false] at good ⊢
      intro r mem
      rcases List.mem_append.mp mem with own | others
      · exact e.runBlock_executed _ _ _ _ _ setup r own
      · refine e.runPhases_executed _ _ _ _ (fun p among started => ?_) r others
        simpa [started] using good p among

end Engine

/-- The flag is raised while a step of setup or phases is carried out. What comes before the step, and
the step itself, went as they do when nobody raises it; what comes after it is passed over. -/
structure Record.Interrupted (r r₀ : WorkflowResult) (before : List (Turn β μ)) (x : Turn β μ)
    (after : List (Turn β μ)) : Prop where
  same : before.map (fun y => y.result) ++ [x.result] <+: r₀.trace
  passedOver : ∀ y ∈ after, y.PassedOver
  failed : after ≠ [] → r.success = false

namespace Engine

/-- Cancellation takes effect between steps only, whenever and from wherever the flag is raised. -/
theorem run_cancelled {e : Engine β μ} {w : Workflow} {r : WorkflowResult} {world world' : World β}
    {memory memory' : μ} (run : e.run w world memory = (.ok r, world', memory')) :
    ∃ c : Record β μ, c.TellsRun e w r world memory world' memory' ∧
      (∃ r₀ world₀ memory₀, e.muted.run w world.calm memory = (.ok r₀, world₀, memory₀) ∧
        ∀ before x after, c.watched e = before ++ x :: after → x.result.isSkipped = false →
          x.after.world.isRaised = true → Record.Interrupted r r₀ before x after) ∧
      (r.success = false →
        Entry.BestEffort e "recovery" w.locatorPack w.recovery r.recovery c.recovery) ∧
      Entry.BestEffort e "teardown" w.locatorPack w.teardown r.teardown c.teardown := by
  obtain ⟨context, s', c, prepared, ran, tells, hw, hm⟩ := run_tells run
  obtain ⟨r₀, world₀, memory₀, still, cut⟩ := run_muted run
  refine ⟨c, ⟨context, s', prepared, tells, hw, hm⟩, ⟨r₀, world₀, memory₀, still, ?_⟩,
    tells.recovery, tells.teardown⟩
  intro before x after place carriedOut up
  have results := tells.watched_results
  rw [place, List.map_append, List.map_cons] at results
  have passedOver : ∀ y ∈ after, y.PassedOver := by
    obtain ⟨m, linked⟩ := tells.watched_linked
    rw [place, List.map_append] at linked
    obtain ⟨-, -, -, rest⟩ := linked.split
    have taken : ∀ y ∈ after, y.Taken e w.locatorPack ∧ y.policy ≠ .bestEffort := by
      intro y mem
      have mem : y ∈ c.watched e := place ▸ List.mem_append_right _ (List.mem_cons_of_mem _ mem)
      exact ⟨tells.each_turn y (List.mem_append_left _ mem), Record.watched_looks e c y mem⟩
    exact Turn.passedOver_of_linked rest taken up
  refine ⟨cut.prefix_of_carriedOut results.symm carriedOut, passedOver, fun some => ?_⟩
  cases good : r.success with
  | false => rfl
  | true =>
      -- A run that succeeds has carried out all of its steps, and the next one here is passed over.
      obtain ⟨y, others, rfl⟩ := List.exists_cons_of_ne_nil some
      have executed := e.runBlocks_executed w ⟨world, context, memory⟩
      rw [ran] at executed
      have shown := executed good y.result (by rw [← results]; simp)
      rw [(passedOver y List.mem_cons_self).skipped] at shown
      cases shown

end Engine

/-- Two visits, one after the other. -/
def Workflow.visits : Workflow :=
  let visit (line : Nat) (url : String) : Step :=
    ⟨.atomic, "page.goto", [("url", .str url)], none, none, none, none, false, [], ⟨"page.flow", line⟩⟩
  ⟨"page", [], none, [], none, none, [], [⟨"open", none, none, [visit 3 "a", visit 4 "b"],
    ⟨"page.flow", 2⟩⟩], [], [], ⟨"page.flow", 1⟩, ""⟩

/-- A page during the first visit of which the flag is raised. -/
def Scene.interrupted : Scene Rehearsal Unit :=
  ⟨.start ⟨"", [("navigate a", [⟨0, true, .ok .null⟩])], 0⟩, .empty, ()⟩

namespace Engine

def visiting : Engine Rehearsal Unit := { bare with registry := .builtin }

theorem run_visits_interrupted : ∃ r world' memory' c r₀ world₀ memory₀ x after,
    visiting.run .visits Scene.interrupted.world () = (.ok r, world', memory') ∧
      Record.TellsRun visiting .visits r Scene.interrupted.world () world' memory' c ∧
      visiting.muted.run .visits Scene.interrupted.world.calm () = (.ok r₀, world₀, memory₀) ∧
      c.watched visiting = [] ++ x :: after ∧ after ≠ [] ∧ x.result.isSkipped = false ∧
      x.after.world.isRaised = true ∧ Record.Interrupted r r₀ [] x after := by
  have prepared : visiting.prepare .visits = .ok .empty := rfl
  obtain ⟨r, world', memory', -, run, -⟩ := run_of_prepare prepared Scene.interrupted.world ()
  obtain ⟨c, tells, ⟨r₀, world₀, memory₀, still, interrupted⟩, -⟩ := run_cancelled run
  have ⟨context, last, prepared', told, _⟩ := tells
  obtain rfl : Context.empty = context := Except.ok.inj (prepared.symm.trans prepared')
  obtain ⟨cause, result, after, others, watched, -⟩ :=
    told.first_turn (e := visiting) (w := .visits) rfl rfl rfl
  -- The first step is carried out, and the other one is passed over.
  have skipped : (visiting.run .visits Scene.interrupted.world ()).1.toOption.map (fun r =>
      r.trace.map fun y => y.isSkipped) = some [false, true] := rfl
  rw [run] at skipped
  have pattern : r.trace.map (fun y => y.isSkipped) = [false, true] := Option.some.inj skipped
  rw [← told.watched_results, watched, List.map_cons, List.map_cons, List.cons.injEq] at pattern
  obtain ⟨carriedOut, late⟩ := pattern
  have others_ne : others ≠ [] := by
    rintro rfl
    cases late
  have up : after.world.isRaised = true := by
    rcases told.each_turn _ (List.mem_append_left _ (watched ▸ List.mem_cons_self)) with held | passed
    · exact congrArg (fun s => s.2.world.isRaised) (Turn.run_of_carriedOut held).symm
    · have skip := passed.skipped
      rw [carriedOut] at skip
      cases skip
  exact ⟨r, world', memory', c, r₀, world₀, memory₀, _, others, run, tells, still, watched, others_ne,
    carriedOut, up, interrupted [] _ others watched carriedOut up⟩

end Engine
end Journey
