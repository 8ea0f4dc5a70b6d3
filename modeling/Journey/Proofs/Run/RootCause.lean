import Journey.Proofs.Run.Record

/-!
The root cause of a run. A run has one exactly if it has failed, and it is that of the first block that
was judged failed or saw cancellation. What is optional, what a passing phase absorbs, and what fails
in later phases, in recovery or in teardown has no part in it.
-/

namespace Journey

variable {β μ : Type}

/-- The first of setup and phases that was judged failed or saw cancellation. -/
def Record.blamed (c : Record β μ) : Option (List (Entry β μ)) :=
  if c.setup.any fun x => x.isFailure || x.isCancelled then some c.setup
  else (c.phases.find? Chapter.isBlamed).map Chapter.entries

namespace Record

theorem blamed_of_setup {c : Record β μ} (h : ¬ c.SetupSucceeded) : c.blamed = some c.setup := by
  cases any : c.setup.any fun x => x.isFailure || x.isCancelled with
  | true => simp [blamed, any]
  | false => exact absurd (fun x hx => by simpa using List.any_eq_false.mp any x hx) h

theorem blamed_of_phases {c : Record β μ} (h : c.SetupSucceeded) :
    c.blamed = (c.phases.find? Chapter.isBlamed).map Chapter.entries := by
  have none : (c.setup.any fun x => x.isFailure || x.isCancelled) = false := by
    rw [List.any_eq_false]
    intro x hx
    simp [h x hx]
  simp [blamed, none]

end Record

namespace Chapter

theorem Judged.failed_of_blamed {e : Engine β μ} {pack : Option String} {c : Chapter β μ}
    (h : c.Judged e pack) (blamed : c.isBlamed = true) :
    c.result.skipped = false ∧ c.result.success = false := by
  simp only [isBlamed, Bool.and_eq_true, Bool.not_eq_true', Bool.or_eq_true] at blamed
  refine ⟨blamed.1, ?_⟩
  rcases blamed.2 with failed | cancelled
  · exact failed
  · obtain ⟨x, hx, up⟩ := List.any_eq_true.mp cancelled
    cases outcome : c.result.success with
    | false => rfl
    | true =>
        have calm := ((h.success blamed.1).mp outcome).1 x hx
        rw [up] at calm
        cases calm

theorem isBlamed_of_failed {c : Chapter β μ} (started : c.result.skipped = false)
    (failed : c.result.success = false) : c.isBlamed = true := by
  simp [isBlamed, started, failed]

end Chapter

namespace Engine
namespace Account

variable {e : Engine β μ} {w : Workflow} {r : WorkflowResult} {s s' next last : Scene β μ}
  {b : BlockResult} {c : Record β μ}

theorem cause_of_setup (h : e.Account w s b next last r s' c) (fresh : s.context.lastError = none)
    (failed : b.success = false) :
    ∃ cause, last.context.lastError = some cause ∧ Entry.Cause c.setup cause := by
  obtain ⟨cause, some⟩ := Option.isSome_iff_exists.mp (h.setup.cause failed)
  refine ⟨cause, ?_, Entry.cause_of_causeIn (settled_of_each h.setup.each) some⟩
  rw [h.passage.lastError_eq, h.setupCause, fresh, failed, some]
  simp

theorem cause_of_phases (h : e.Account w s b next last r s' c)
    (fresh : s.context.lastError = none) (good : b.success = true)
    (failed : ∃ p ∈ c.phases, p.result.skipped = false ∧ p.result.success = false) :
    ∃ p cause, c.phases.find? Chapter.isBlamed = some p ∧
      last.context.lastError = some cause ∧ Entry.Cause p.entries cause := by
  -- The phase that failed need not be the first to blame, but then there is one.
  obtain ⟨q, hq, started, lost⟩ := failed
  have some : (c.phases.find? Chapter.isBlamed).isSome :=
    List.find?_isSome.mpr ⟨q, hq, Chapter.isBlamed_of_failed started lost⟩
  obtain ⟨p, first⟩ := Option.isSome_iff_exists.mp some
  have hp := List.mem_of_find?_eq_some first
  obtain ⟨begun, bad⟩ := (h.passage.judged p hp).failed_of_blamed (List.find?_some first)
  obtain ⟨cause, given⟩ := Option.isSome_iff_exists.mp (h.passage.cause_isSome p hp begun bad)
  refine ⟨p, cause, first, ?_, ?_⟩
  · rw [h.passage.lastError_eq, h.setupCause, fresh, good, Chapter.causeIn, first]
    simpa using given
  · exact Entry.cause_of_causeIn (settled_of_each (h.passage.tells p hp).each) given

theorem blamed_cause (h : e.Account w s b next last r s' c) (fresh : s.context.lastError = none)
    (failed : r.success = false) :
    ∃ xs cause, c.blamed = some xs ∧ r.rootCause = some cause ∧ Entry.Cause xs cause := by
  have root : r.rootCause = last.context.lastError := by
    rw [h.rootCause, failed]
    rfl
  rw [root]
  cases setup : b.success with
  | false =>
      obtain ⟨cause, kept, exact_⟩ := h.cause_of_setup fresh setup
      have lost : ¬ c.SetupSucceeded := by
        rw [← h.setup_success, setup]
        exact Bool.false_ne_true
      exact ⟨c.setup, cause, Record.blamed_of_setup lost, kept, exact_⟩
  | true =>
      obtain ⟨p, cause, first, kept, exact_⟩ :=
        h.cause_of_phases fresh setup (h.exists_failed failed setup)
      refine ⟨p.entries, cause, ?_, kept, exact_⟩
      rw [Record.blamed_of_phases (h.setup_success.mp setup), first]
      rfl

end Account

/-- A run has a root cause exactly if it has failed, and it is that of the first block to blame. -/
theorem run_rootCause {e : Engine β μ} {w : Workflow} {r : WorkflowResult} {world world' : World β}
    {memory memory' : μ} (run : e.run w world memory = (.ok r, world', memory')) :
    ∃ c : Record β μ, c.TellsRun e w r world memory world' memory' ∧
      (r.rootCause.isSome = true ↔ r.success = false) ∧
      (r.success = false →
        ∃ xs cause, c.blamed = some xs ∧ r.rootCause = some cause ∧ Entry.Cause xs cause) := by
  obtain ⟨s, c, b, next, last, s', fresh, tells, account⟩ := run_account run
  have blamed := account.blamed_cause fresh
  refine ⟨c, tells, ⟨fun some => ?_, fun failed => ?_⟩, blamed⟩
  · cases outcome : r.success with
    | false => rfl
    | true =>
        rw [account.rootCause, outcome] at some
        cases some
  · obtain ⟨xs, cause, _, kept, _⟩ := blamed failed
    rw [kept]
    rfl

/-- The run in which the first click has no time fails for that, and not for what comes after. -/
theorem run_mistimed_rootCause :
    ∃ c : Record Rehearsal Unit,
      c.TellsRun bare .mistimed (bare.runBlocks .mistimed .blank).1 Scene.blank.world ()
        (bare.runBlocks .mistimed .blank).2.world () ∧
      ((bare.runBlocks .mistimed .blank).1.rootCause.isSome = true ↔
        (bare.runBlocks .mistimed .blank).1.success = false) ∧
      ((bare.runBlocks .mistimed .blank).1.success = false → ∃ xs cause, c.blamed = some xs ∧
        (bare.runBlocks .mistimed .blank).1.rootCause = some cause ∧ Entry.Cause xs cause) :=
  run_rootCause (show bare.run .mistimed Scene.blank.world () = _ from rfl)

end Engine
end Journey
