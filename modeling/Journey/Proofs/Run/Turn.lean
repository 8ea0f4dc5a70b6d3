import Journey.Proofs.Run.Record

/-!
The turns of a run: every step of its record in order, with the block that it belongs to and the policy
of that block. Each was carried out under that policy or passed over, and the scene goes from turn to
turn. Which attempts a turn makes is told by its trail.
-/

namespace Journey

variable {β μ : Type}

namespace Entry

theorem Linked.split {s s' : Scene β μ} {xs ys : List (Entry β μ)} (h : Linked s (xs ++ ys) s') :
    ∃ m, Linked s xs m ∧ Linked m ys s' := by
  induction xs generalizing s with
  | nil => exact ⟨s, .refl s, h⟩
  | cons x xs ih =>
      obtain ⟨m, first, rest⟩ := ih h.2
      exact ⟨m, ⟨h.1, first⟩, rest⟩

theorem PassedOver.context {x : Entry β μ} (h : x.PassedOver) :
    { x.after.context with lastError := x.before.context.lastError } = x.before.context := by
  rcases h.kept with kept | looked
  · exact kept.context
  · exact looked.context

end Entry

/-- A step of a run as it went, with its block and the policy of that. -/
structure Turn (β μ : Type) extends Entry β μ where
  block : String
  policy : BlockPolicy

namespace Turn

/-- The scene in which the step is carried out, if it is. -/
def scene (x : Turn β μ) : Scene β μ := (x.before.look x.policy).2.atStep x.block x.index

/-- The step had its turn: it was carried out under the policy of its block, or passed over. -/
def Taken (e : Engine β μ) (pack : Option String) (x : Turn β μ) : Prop :=
  x.CarriedOut e x.block x.policy pack ∨ x.PassedOver

theorem run_of_carriedOut {e : Engine β μ} {pack : Option String} {x : Turn β μ}
    (h : x.CarriedOut e x.block x.policy pack) :
    e.executeStep x.step pack x.scene = (x.result, x.after) := by
  obtain ⟨scene, look, run⟩ := h
  rw [Turn.scene, look]
  exact run

end Turn

namespace Chapter

def turns (e : Engine β μ) (p : Chapter β μ) : List (Turn β μ) :=
  p.entries.map fun x => ⟨x, p.phase.name, e.phasePolicy p.phase⟩

end Chapter

/-- Whether the first step of the first phase was passed over, and whether it succeeded. -/
def WorkflowResult.opening (r : WorkflowResult) : Option (Bool × Bool) :=
  (r.phases.head?.bind fun p => p.steps.head?).map fun x => (x.isSkipped, x.success)

namespace Record

/-- The turns before which the flag is looked at. -/
def watched (e : Engine β μ) (c : Record β μ) : List (Turn β μ) :=
  c.setup.map (⟨·, "setup", .strict⟩) ++ c.phases.flatMap (Chapter.turns e)

def turns (e : Engine β μ) (c : Record β μ) : List (Turn β μ) :=
  c.watched e ++ (c.recovery.map (⟨·, "recovery", .bestEffort⟩) ++
    c.teardown.map (⟨·, "teardown", .bestEffort⟩))

variable {e : Engine β μ} {w : Workflow} {r : WorkflowResult} {c : Record β μ} {s s' : Scene β μ}

theorem turns_entries (e : Engine β μ) (c : Record β μ) :
    (c.turns e).map Turn.toEntry = c.entries := by
  simp [turns, watched, entries, Chapter.turns, Function.comp_def, List.map_flatMap]

theorem Tells.each_turn (h : c.Tells e w r s s') : ∀ x ∈ c.turns e, x.Taken e w.locatorPack := by
  intro x mem
  simp only [turns, watched, List.mem_append, List.mem_flatMap, List.mem_map, Chapter.turns] at mem
  rcases mem with (⟨y, setup, rfl⟩ | ⟨p, owner, y, phase, rfl⟩) | ⟨y, recovery, rfl⟩ |
    ⟨y, teardown, rfl⟩
  · exact h.each y setup
  · exact (h.phases p owner).each y phase
  · cases good : r.success with
    | true =>
        rw [(h.noRecovery good).2] at recovery
        cases recovery
    | false => exact .inl ((h.recovery good).all y recovery)
  · exact .inl (h.teardown.all y teardown)

theorem Tells.each_entry (h : c.Tells e w r s s') : ∀ x ∈ c.entries,
    (∃ block policy, x.CarriedOut e block policy w.locatorPack) ∨ x.PassedOver := by
  intro x mem
  rw [← turns_entries e, List.mem_map] at mem
  obtain ⟨turn, among, rfl⟩ := mem
  exact (h.each_turn turn among).imp_left fun held => ⟨_, _, held⟩

/-- The steps of a run are those that its workflow declares, in the order of its blocks. -/
theorem Tells.steps (h : c.Tells e w r s s') : c.entries.map Entry.step =
    w.setup ++ w.phases.flatMap Phase.steps ++ ((if r.success then [] else w.recovery) ++ w.teardown) := by
  have phases : (c.phases.flatMap Chapter.entries).map Entry.step = w.phases.flatMap Phase.steps := by
    rw [← h.declared, List.map_flatMap, List.flatMap_map, List.flatMap_def, List.flatMap_def]
    exact congrArg List.flatten (List.map_congr_left fun p owner => (h.phases p owner).tell.steps)
  have recovery : c.recovery.map Entry.step = if r.success then [] else w.recovery := by
    cases good : r.success with
    | true =>
        rw [(h.noRecovery good).2]
        rfl
    | false => exact (h.recovery good).tell.steps
  simp only [entries, List.map_append, h.setup.steps, phases, recovery, h.teardown.tell.steps]

theorem Tells.step_mem (h : c.Tells e w r s s') : ∀ x ∈ c.entries, x.step ∈ w.steps := by
  intro x mem
  have among : x.step ∈ c.entries.map Entry.step := List.mem_map_of_mem mem
  rw [h.steps] at among
  cases good : r.success with
  | true =>
      simp only [good, if_true, List.nil_append, List.mem_append] at among
      simp only [Workflow.steps, List.mem_append]
      exact among.imp_left .inl
  | false => simpa [good, Workflow.steps] using among

/-- Nothing is written after the last step of a run. -/
theorem Tells.data_of_last (h : c.Tells e w r s s') {x : Entry β μ} (last : c.entries.getLast? = some x) :
    x.after.context.data = s'.context.data := by
  obtain ⟨before, entries⟩ := List.getLast?_eq_some_iff.mp last
  have linked := h.linked
  rw [entries] at linked
  obtain ⟨m, -, final⟩ := linked.split
  exact final.2.data.symm

/-- Without a setup, the first step of the first phase has the first turn. The run begins with it, though
a cause may have been noted before. -/
theorem Tells.first_turn (h : c.Tells e w r s s') (setup : w.setup = []) {phase : Phase}
    {phases : List Phase} (first : w.phases = phase :: phases) {step : Step} {steps : List Step}
    (opens : phase.steps = step :: steps) :
    ∃ (cause : Option RecordedError) (result : StepResult) (after : Scene β μ) (others : List (Turn β μ)),
      c.watched e = ⟨⟨0, step, { s with context := { s.context with lastError := cause } }, result, after⟩,
        phase.name, e.phasePolicy phase⟩ :: others ∧
      (r.phases.head?.bind fun p => p.steps.head?) = some result := by
  obtain ⟨p, ps, chapters, rfl, -⟩ := List.map_eq_cons_iff.mp (h.declared.trans first)
  have told := h.phases p (chapters ▸ List.mem_cons_self)
  obtain ⟨⟨index, _, before, result, after⟩, xs, entries, rfl, -⟩ :=
    List.map_eq_cons_iff.mp (told.tell.steps.trans opens)
  have quiet : c.setup = [] := by rw [← List.map_eq_nil_iff, h.setup.steps, setup]
  have linked := h.linked
  simp only [Record.entries, quiet, chapters, entries, List.flatMap_cons, List.nil_append,
    List.cons_append] at linked
  have places := told.tell.places
  rw [opens, entries, List.map_cons, List.length_cons, List.range_succ_eq_map] at places
  obtain rfl : index = 0 := (List.cons.inj places).1
  refine ⟨before.context.lastError, result, after,
    xs.map (⟨·, p.phase.name, e.phasePolicy p.phase⟩) ++ ps.flatMap (Chapter.turns e), ?_, ?_⟩
  · rw [← linked.1.eq]
    simp [Record.watched, quiet, chapters, Chapter.turns, entries]
  · rw [← h.shown, chapters, List.map_cons, List.head?_cons, Option.bind_some, ← told.tell.results,
      entries, List.map_cons, List.head?_cons]

theorem Tells.opening_turn (h : c.Tells e w r s s') (setup : w.setup = []) {phase : Phase}
    {phases : List Phase} (first : w.phases = phase :: phases) {step : Step} {steps : List Step}
    (opens : phase.steps = step :: steps) {skipped success : Bool}
    (shown : r.opening = some (skipped, success)) :
    ∃ turn ∈ c.turns e, turn.step = step ∧ turn.result.isSkipped = skipped ∧
      turn.result.success = success := by
  obtain ⟨cause, result, after, others, watched, reported⟩ := h.first_turn setup first opens
  rw [WorkflowResult.opening, reported] at shown
  obtain ⟨rfl, rfl⟩ := Prod.mk.inj (Option.some.inj shown)
  exact ⟨_, List.mem_append_left _ (watched ▸ List.mem_cons_self), rfl, rfl, rfl⟩

end Record

namespace Engine

/-- Every run that gives a result goes through the blocks of its workflow, from the context that was
prepared for it, and has a record of that. -/
theorem run_tells {e : Engine β μ} {w : Workflow} {r : WorkflowResult} {world world' : World β}
    {memory memory' : μ} (run : e.run w world memory = (.ok r, world', memory')) :
    ∃ context s' c, e.prepare w = .ok context ∧
      e.runBlocks w ⟨world, context, memory⟩ = (r, s') ∧
      Record.Tells e w r ⟨world, context, memory⟩ s' c ∧ s'.world = world' ∧ s'.memory = memory' := by
  simp only [Engine.run] at run
  cases prepared : e.prepare w with
  | error error =>
      rw [prepared] at run
      cases run
  | ok context =>
      rw [prepared] at run
      simp only [Prod.mk.injEq, Except.ok.injEq] at run
      obtain ⟨rfl, rfl, rfl⟩ := run
      obtain ⟨c, _, _, _, account⟩ :=
        runBlocks_account (e := e) (w := w) (s := ⟨world, context, memory⟩) rfl
      exact ⟨context, _, c, rfl, rfl, account.tells, rfl, rfl⟩

end Engine
end Journey
