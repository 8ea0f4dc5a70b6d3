import Journey.Proofs.Run.Block

/-!
The phases of a run as they follow each other. A phase that is started is a block of its own; once
the run is halted the remaining phases are passed over. Which of them are started, and which of their
causes is recorded, is read off the passage through all of them.
-/

namespace Journey

variable {β μ : Type}

/-- A phase as it went: its declaration, its result, and its steps. -/
structure Chapter (β μ : Type) where
  phase : Phase
  result : PhaseResult
  entries : List (Entry β μ)

namespace Chapter

/-- The steps are those of the phase, carried out under its policy or passed over. -/
structure Tells (e : Engine β μ) (pack : Option String) (c : Chapter β μ) : Prop where
  name : c.result.name = c.phase.name
  tell : Entry.Tell c.phase.steps c.result.steps c.entries
  each : ∀ x ∈ c.entries,
    x.CarriedOut e c.phase.name (e.phasePolicy c.phase) pack ∨ x.PassedOver

/-- The phase is judged by its own mode and tolerance, or by those of the settings. -/
structure Judged (e : Engine β μ) (pack : Option String) (c : Chapter β μ) : Prop where
  mode : c.result.mode = c.phase.mode.getD e.settings.phases.defaultMode
  tolerance : c.result.tolerance =
    if c.result.mode = .strict then 0
    else c.phase.tolerance.getD e.settings.phases.recoverTolerance
  strict : c.result.mode = .strict → Entry.StopAtFailure c.entries
  recover : c.result.skipped = false → c.result.mode = .recover → Entry.Calm c.entries →
    ∀ x ∈ c.entries, x.CarriedOut e c.phase.name (e.phasePolicy c.phase) pack ∧
      x.result.isSkipped = false
  failures : c.result.skipped = false →
    c.result.failures = c.result.steps.countP fun r => r.isCountedFailure
  success : c.result.skipped = false →
    (c.result.success = true ↔ Entry.Calm c.entries ∧ c.result.failures ≤ c.result.tolerance)
  unstarted : c.result.skipped = true →
    c.result.success = false ∧ ∀ x ∈ c.entries, x.PassedOver ∧ x.isCancelled = false

/-- The phase lets later ones be started. -/
def GoesOn (goesOn : Bool) (c : Chapter β μ) : Prop :=
  Entry.Calm c.entries ∧ (c.result.success = true ∨ goesOn = true)

/-- The phase was started and judged failed, or saw cancellation. -/
def isBlamed (c : Chapter β μ) : Bool :=
  !c.result.skipped && (!c.result.success || c.entries.any Entry.isCancelled)

def causeIn (cs : List (Chapter β μ)) : Option RecordedError :=
  (cs.find? isBlamed).bind fun c => Entry.causeIn c.entries

end Chapter

namespace Engine

variable (e : Engine β μ)

theorem phasePolicy_strict {phase : Phase} (h : e.phaseMode phase = .strict) :
    e.phasePolicy phase = .strict := by
  simp [phasePolicy, h]

theorem phasePolicy_recover {phase : Phase} (h : e.phaseMode phase = .recover) :
    e.phasePolicy phase = .recover (e.phaseTolerance phase) := by
  simp [phasePolicy, h]

theorem phasePolicy_ne_bestEffort (phase : Phase) : e.phasePolicy phase ≠ .bestEffort := by
  cases h : e.phaseMode phase with
  | strict => simp [e.phasePolicy_strict h]
  | recover => simp [e.phasePolicy_recover h]

theorem phasePolicy_tolerance (phase : Phase) :
    (e.phasePolicy phase).tolerance = e.phaseTolerance phase := by
  cases h : e.phaseMode phase with
  | strict => simp [e.phasePolicy_strict h, BlockPolicy.tolerance, phaseTolerance, h]
  | recover => simp [e.phasePolicy_recover h, BlockPolicy.tolerance]

theorem phaseTolerance_eq (phase : Phase) :
    e.phaseTolerance phase =
      if e.phaseMode phase = .strict then 0
      else phase.tolerance.getD e.settings.phases.recoverTolerance := by
  cases h : e.phaseMode phase <;> simp [phaseTolerance, h]

theorem runSteps_of_stop (block : String) (policy : BlockPolicy) (pack : Option String)
    (index : Nat) (steps : List Step) {t : Tally} {reason : String} (stop : t.stop = some reason)
    (s : Scene β μ) :
    e.runSteps block policy pack index steps t s = (steps.map (.passedOver · reason), t, s) := by
  induction steps generalizing index with
  | nil => rfl
  | cons step rest ih => simp [runSteps, stop, ih]

/-- The steps of a phase that is never started. -/
structure Unstarted (phase : Phase) (s : Scene β μ) (xs : List (Entry β μ)) : Prop where
  tell : Entry.Tell phase.steps (e.haltedPhase phase).steps xs
  linked : Entry.Linked s xs s
  passedOver : ∀ x ∈ xs, x.PassedOver
  calm : Entry.Calm xs

theorem exists_unstarted (phase : Phase) (s : Scene β μ) : ∃ xs, e.Unstarted phase s xs := by
  -- A phase that is not started goes like a block that has been stopped before its first step.
  let halt : Tally := ⟨0, none, some "workflow halted before this phase", false⟩
  have stop : halt.stop = some "workflow halted before this phase" := rfl
  have stopped := e.runSteps_of_stop phase.name .strict none 0 phase.steps stop s
  obtain ⟨xs, course, hs, hr, hi⟩ := e.runSteps_course phase.name .strict none 0 phase.steps halt s
  have passed := course.passedOver_of_stop stop
  simp only [stopped] at hr course
  refine ⟨xs, ⟨hs, hr, hi.trans List.range_eq_range'.symm, course.belongsTo⟩, course.linked,
    passed.2.2, fun x hx => ?_⟩
  have shown : x.result ∈ phase.steps.map
      (StepResult.passedOver · "workflow halted before this phase") :=
    hr ▸ List.mem_map_of_mem hx
  obtain ⟨step, _, same⟩ := List.mem_map.mp shown
  simp [Entry.isCancelled, ← same, StepResult.passedOver, StepResult.plain,
    ActionResult.passedOver]

/-- How a run passes through its phases, halted or not, from scene to scene. -/
inductive Passage (goesOn : Bool) (pack : Option String) :
    Bool → Scene β μ → List (Chapter β μ) → Scene β μ → Prop
  | nil {halted : Bool} {s : Scene β μ} : Passage goesOn pack halted s [] s
  | unstarted {phase : Phase} {s s' : Scene β μ} {xs : List (Entry β μ)} {cs : List (Chapter β μ)}
      (passed : e.Unstarted phase s xs) (rest : Passage goesOn pack true s cs s') :
      Passage goesOn pack true s (⟨phase, e.haltedPhase phase, xs⟩ :: cs) s'
  | started {phase : Phase} {s next s' : Scene β μ} {xs : List (Entry β μ)}
      {cs : List (Chapter β μ)} {r : BlockResult}
      (block : BlockRun e phase.name (e.phasePolicy phase) pack phase.steps xs r)
      (linked : Entry.Linked s xs next)
      (cause : next.context.lastError = if r.success then s.context.lastError
        else s.context.lastError.or (Entry.causeIn xs))
      (rest : Passage goesOn pack (!r.success && (r.cancelled || !goesOn)) next cs s') :
      Passage goesOn pack false s (⟨phase, e.phaseResult phase r, xs⟩ :: cs) s'

/-- The phases of every run have a passage, with one chapter for each of them in order. -/
theorem runPhases_passage (goesOn : Bool) (pack : Option String) (halted : Bool)
    (phases : List Phase) (s : Scene β μ) :
    ∃ cs, e.Passage goesOn pack halted s cs (e.runPhases goesOn pack halted phases s).2 ∧
      cs.map Chapter.phase = phases ∧
      cs.map Chapter.result = (e.runPhases goesOn pack halted phases s).1 := by
  induction phases generalizing halted s with
  | nil => exact ⟨[], .nil, rfl, by cases halted <;> rfl⟩
  | cons phase rest ih =>
      cases halted with
      | true =>
          obtain ⟨xs, passed⟩ := e.exists_unstarted phase s
          obtain ⟨cs, passage, hp, hr⟩ := ih true s
          exact ⟨_ :: cs, .unstarted passed passage, congrArg _ hp, congrArg _ hr⟩
      | false =>
          obtain ⟨xs, block, linked, cause⟩ :=
            e.runBlock_run phase.name (e.phasePolicy phase) pack phase.steps s rfl
          obtain ⟨cs, passage, hp, hr⟩ := ih _ _
          exact ⟨_ :: cs, .started block linked cause passage, congrArg _ hp, congrArg _ hr⟩

namespace Passage

variable {e : Engine β μ} {goesOn : Bool} {pack : Option String} {halted : Bool} {s s' : Scene β μ}
  {cs : List (Chapter β μ)}

theorem linked (h : e.Passage goesOn pack halted s cs s') :
    Entry.Linked s (cs.flatMap Chapter.entries) s' := by
  induction h with
  | nil => exact .refl _
  | unstarted passed rest ih => exact passed.linked.append ih
  | started block linked cause rest ih => exact linked.append ih

theorem tells (h : e.Passage goesOn pack halted s cs s') : ∀ c ∈ cs, c.Tells e pack := by
  induction h with
  | nil => exact List.forall_mem_nil _
  | unstarted passed rest ih =>
      exact List.forall_mem_cons.mpr
        ⟨⟨rfl, passed.tell, fun x hx => .inr (passed.passedOver x hx)⟩, ih⟩
  | started block linked cause rest ih =>
      exact List.forall_mem_cons.mpr ⟨⟨rfl, block.tell, block.each⟩, ih⟩

theorem judged_unstarted {phase : Phase} {s : Scene β μ} {xs : List (Entry β μ)}
    (passed : e.Unstarted phase s xs) : Chapter.Judged e pack ⟨phase, e.haltedPhase phase, xs⟩ := by
  have stop : Entry.StopAtFailure xs :=
    List.pairwise_of_forall_mem_list fun _ _ y hy _ => passed.passedOver y hy
  exact {
    mode := rfl
    tolerance := e.phaseTolerance_eq phase
    strict := fun _ => stop
    recover := fun started => by cases started
    failures := fun started => by cases started
    success := fun started => by cases started
    unstarted := fun _ => ⟨rfl, fun x hx => ⟨passed.passedOver x hx, passed.calm x hx⟩⟩ }

theorem judged_started {phase : Phase} {xs : List (Entry β μ)} {r : BlockResult}
    (block : BlockRun e phase.name (e.phasePolicy phase) pack phase.steps xs r) :
    Chapter.Judged e pack ⟨phase, e.phaseResult phase r, xs⟩ := by
  have hp := e.phasePolicy_ne_bestEffort phase
  have success := block.success hp
  rw [phasePolicy_tolerance] at success
  exact {
    mode := rfl
    tolerance := e.phaseTolerance_eq phase
    strict := fun mode => block.strict (e.phasePolicy_strict mode)
    recover := fun _ mode calm => by
      refine block.lenient ?_ fun _ => calm
      rw [e.phasePolicy_recover mode]
      exact BlockPolicy.noConfusion
    failures := fun _ => by
      have counted := block.failures hp
      change r.failures = r.steps.countP fun r => r.isCountedFailure
      rw [← block.tell.results, List.countP_map]
      exact counted
    success := fun _ => success
    unstarted := fun halted => by cases halted }

theorem judged (h : e.Passage goesOn pack halted s cs s') : ∀ c ∈ cs, c.Judged e pack := by
  induction h with
  | nil => exact List.forall_mem_nil _
  | unstarted passed rest ih => exact List.forall_mem_cons.mpr ⟨judged_unstarted passed, ih⟩
  | started block linked cause rest ih =>
      exact List.forall_mem_cons.mpr ⟨judged_started block, ih⟩

/-- A phase is started exactly if the run was not halted and all phases before it let it go on. -/
theorem started_iff (h : e.Passage goesOn pack halted s cs s') {before after : List (Chapter β μ)}
    {c : Chapter β μ} (place : cs = before ++ c :: after) :
    c.result.skipped = false ↔ halted = false ∧ ∀ q ∈ before, q.GoesOn goesOn := by
  induction h generalizing before with
  | nil => simp at place
  | unstarted passed rest ih =>
      cases before with
      | nil =>
          obtain ⟨rfl, rfl⟩ := List.cons.inj place
          simp [haltedPhase]
      | cons q before =>
          obtain ⟨rfl, tail⟩ := List.cons.inj place
          rw [ih tail]
          simp
  | @started phase s next s' xs cs r block linked cause rest ih =>
      cases before with
      | nil =>
          obtain ⟨rfl, rfl⟩ := List.cons.inj place
          exact ⟨fun _ => ⟨rfl, List.forall_mem_nil _⟩, fun _ => rfl⟩
      | cons q before =>
          obtain ⟨rfl, tail⟩ := List.cons.inj place
          have goes : (!r.success && (r.cancelled || !goesOn)) = false ↔
              Chapter.GoesOn goesOn ⟨phase, e.phaseResult phase r, xs⟩ :=
            block.halts_eq_false (e.phasePolicy_ne_bestEffort phase) goesOn
          rw [ih tail, goes, List.forall_mem_cons]
          simp

theorem cause_isSome (h : e.Passage goesOn pack halted s cs s') : ∀ c ∈ cs,
    c.result.skipped = false → c.result.success = false → (Entry.causeIn c.entries).isSome := by
  induction h with
  | nil => exact List.forall_mem_nil _
  | unstarted passed rest ih =>
      refine List.forall_mem_cons.mpr ⟨fun started => ?_, ih⟩
      cases started
  | started block linked cause rest ih =>
      exact List.forall_mem_cons.mpr ⟨fun _ failed => block.cause failed, ih⟩

/-- The root cause after the phases is the one before them, or that of the first phase to blame. -/
theorem lastError_eq (h : e.Passage goesOn pack halted s cs s') :
    s'.context.lastError = s.context.lastError.or (Chapter.causeIn cs) := by
  induction h with
  | nil => simp [Chapter.causeIn]
  | unstarted passed rest ih => exact ih
  | @started phase s next s' xs cs r block linked cause rest ih =>
      rw [ih, cause, Chapter.causeIn, Chapter.causeIn]
      cases outcome : r.success with
      | true =>
          have calm := block.any_isCancelled (e.phasePolicy_ne_bestEffort phase) outcome
          have here : ¬ Chapter.isBlamed ⟨phase, e.phaseResult phase r, xs⟩ = true := by
            simp [Chapter.isBlamed, phaseResult, outcome, calm]
          rw [List.find?_cons_of_neg here]
          rfl
      | false =>
          -- The first cause stays: what later phases would record comes after it.
          have here : Chapter.isBlamed ⟨phase, e.phaseResult phase r, xs⟩ = true := by
            simp [Chapter.isBlamed, phaseResult, outcome]
          obtain ⟨error, some⟩ := Option.isSome_iff_exists.mp (block.cause outcome)
          rw [List.find?_cons_of_pos here]
          simp [some]

end Passage
end Engine
end Journey
