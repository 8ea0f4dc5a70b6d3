import Journey.Engine.Run
import Journey.Proofs.Run.Step

/-!
The steps of a block as they went, each with the scenes around it. A step that was passed over is
told apart from one that was carried out, a failure that counts from one that does not, and the root
cause that a failed block leaves is read off its steps. That a run has such entries, and in which
order they come, is a matter of its course.
-/

namespace Journey

def ActionResult.countedError? (r : ActionResult) : Option RecordedError :=
  if r.isCountedFailure then r.recordedError? else none

theorem ActionResult.Settled.countedError_isSome {r : ActionResult} (h : r.Settled)
    (failed : r.isCountedFailure = true) : r.countedError?.isSome := by
  have lost : r.success = false := by
    simp only [ActionResult.isCountedFailure, Bool.and_eq_true, Bool.not_eq_true'] at failed
    exact failed.1.1
  simp only [ActionResult.countedError?, failed, if_true, ActionResult.recordedError?,
    Option.isSome_map]
  exact h.error lost

variable {β μ : Type}

/-- The two scenes are the same but for the root cause. -/
structure Scene.Leads (s s' : Scene β μ) : Prop where
  world : s'.world = s.world
  memory : s'.memory = s.memory
  context : { s'.context with lastError := s.context.lastError } = s.context

theorem Scene.Leads.refl (s : Scene β μ) : s.Leads s := ⟨rfl, rfl, rfl⟩

theorem Scene.Leads.trans {s m s' : Scene β μ} (h : s.Leads m) (h' : m.Leads s') : s.Leads s' where
  world := h'.world.trans h.world
  memory := h'.memory.trans h.memory
  context := by
    rw [← h.context, ← h'.context]

theorem Scene.Leads.eq {s s' : Scene β μ} (h : s.Leads s') :
    s' = { s with context := { s.context with lastError := s'.context.lastError } } := by
  obtain ⟨world, context, memory⟩ := s'
  obtain ⟨rfl, rfl, same⟩ := h
  rw [← same]

theorem Scene.Leads.data {s s' : Scene β μ} (h : s.Leads s') : s'.context.data = s.context.data := by
  have same := congrArg Context.data h.context
  exact same

theorem Scene.Leads.metrics {s s' : Scene β μ} (h : s.Leads s') :
    s'.context.metrics = s.context.metrics := by
  have same := congrArg Context.metrics h.context
  exact same

/-- One step of a block as it went: its place, the scenes around it, and its result. -/
structure Entry (β μ : Type) where
  index : Nat
  step : Step
  before : Scene β μ
  result : StepResult
  after : Scene β μ

namespace Entry

/-- The step was carried out: the flag did not hold it back, and result and scene are its own. -/
def CarriedOut (e : Engine β μ) (block : String) (policy : BlockPolicy) (pack : Option String)
    (x : Entry β μ) : Prop :=
  ∃ scene, x.before.look policy = (false, scene) ∧
    e.executeStep x.step pack (scene.atStep block x.index) = (x.result, x.after)

/-- The step was passed over: at most the flag was looked at, and the browser has not seen anything
of it. -/
structure PassedOver (x : Entry β μ) : Prop where
  result : ∃ reason, x.result = .passedOver x.step reason
  kept : x.before.Leads x.after ∨
    Scene.Leads { x.before with world := x.before.world.look.2 } x.after
  history : x.after.world.history = x.before.world.history
  browser : x.after.world.browser = x.before.world.browser

/-- The flag was up when the turn of the step came, and the step was passed over for that. -/
def isCancelled (x : Entry β μ) : Bool :=
  x.before.world.look.1 && x.result.skipped == some "cancelled"

def isFailure (x : Entry β μ) : Bool := x.result.isCountedFailure

theorem PassedOver.skipped {x : Entry β μ} (h : x.PassedOver) : x.result.isSkipped := by
  obtain ⟨reason, eq⟩ := h.result
  rw [eq]
  rfl

theorem PassedOver.not_isFailure {x : Entry β μ} (h : x.PassedOver) : x.isFailure = false := by
  simp [isFailure, ActionResult.isCountedFailure, h.skipped]

def failureIn (xs : List (Entry β μ)) : Option RecordedError :=
  (xs.find? isFailure).bind fun x => x.result.recordedError?

def cancellationIn (xs : List (Entry β μ)) : Option RecordedError :=
  (xs.find? isCancelled).map fun x => x.step.cancelledError

theorem failureIn_cons_of_not {x : Entry β μ} (h : x.isFailure = false) (xs : List (Entry β μ)) :
    failureIn (x :: xs) = failureIn xs := by
  simp [failureIn, h]

theorem failureIn_eq_none {xs : List (Entry β μ)} (h : ∀ x ∈ xs, x.isFailure = false) :
    failureIn xs = none := by
  have none : xs.find? isFailure = none := List.find?_eq_none.mpr fun x hx => by simp [h x hx]
  simp [failureIn, none]

theorem cancellationIn_cons {x : Entry β μ} (h : x.isCancelled = true) (xs : List (Entry β μ)) :
    cancellationIn (x :: xs) = some x.step.cancelledError := by
  simp [cancellationIn, h]

theorem cancellationIn_cons_of_not {x : Entry β μ} (h : x.isCancelled = false)
    (xs : List (Entry β μ)) : cancellationIn (x :: xs) = cancellationIn xs := by
  simp [cancellationIn, h]

theorem failureIn_cons {x : Entry β μ} (h : x.result.Settled) (xs : List (Entry β μ)) :
    failureIn (x :: xs) = x.result.countedError?.or (failureIn xs) := by
  cases failed : x.isFailure with
  | false =>
      have none : x.result.countedError? = none := by
        simp [ActionResult.countedError?, show x.result.isCountedFailure = false from failed]
      rw [failureIn_cons_of_not failed, none, Option.none_or]
  | true =>
      obtain ⟨error, some⟩ := Option.isSome_iff_exists.mp (h.countedError_isSome failed)
      have first : failureIn (x :: xs) = x.result.countedError? := by
        simp [failureIn, failed, ActionResult.countedError?,
          show x.result.isCountedFailure = true from failed]
      rw [first, some, Option.some_or]

theorem failureIn_isSome {xs : List (Entry β μ)}
    (h : ∀ x ∈ xs, x.isFailure = true → x.result.Settled) (some : ∃ x ∈ xs, x.isFailure = true) :
    (failureIn xs).isSome := by
  obtain ⟨first, found⟩ := Option.isSome_iff_exists.mp (List.find?_isSome.mpr some)
  have failed := List.find?_some found
  have settled := h first (List.mem_of_find?_eq_some found) failed
  have counted := settled.countedError_isSome failed
  rw [ActionResult.countedError?, if_pos (show first.result.isCountedFailure = true from failed)]
    at counted
  simpa [failureIn, found] using counted

def causeIn (xs : List (Entry β μ)) : Option RecordedError :=
  (failureIn xs).or (cancellationIn xs)

/-- The cause of failure that a block gives: the first failure that counts, or else the cancellation
before the first step that was passed over for it. -/
inductive Cause (xs : List (Entry β μ)) : RecordedError → Prop
  | failure {x : Entry β μ} {error : StepError} (first : xs.find? isFailure = some x)
      (carried : x.result.error = some error) :
      Cause xs ⟨error.kind, error.message, x.result.keyword, some x.result.source⟩
  | cancellation {x : Entry β μ} (noFailure : xs.find? isFailure = none)
      (first : xs.find? isCancelled = some x) :
      Cause xs ⟨.cancelled, "Cancelled before execution", x.step.keyword, some x.step.source⟩

theorem cause_of_causeIn {xs : List (Entry β μ)} {cause : RecordedError}
    (settled : ∀ x ∈ xs, x.isFailure = true → x.result.Settled) (h : causeIn xs = some cause) :
    Cause xs cause := by
  rw [causeIn, failureIn, cancellationIn] at h
  cases failed : xs.find? isFailure with
  | some x =>
      have lost := List.find?_some failed
      have counted := (settled x (List.mem_of_find?_eq_some failed) lost).countedError_isSome lost
      simp only [ActionResult.countedError?, show x.result.isCountedFailure = true from lost,
        if_true, ActionResult.recordedError?, Option.isSome_map] at counted
      obtain ⟨error, carried⟩ := Option.isSome_iff_exists.mp counted
      simp only [failed, Option.bind_some, ActionResult.recordedError?, carried, Option.map_some,
        Option.some_or, Option.some.injEq] at h
      exact h ▸ .failure failed carried
  | none =>
      simp only [failed, Option.bind_none, Option.none_or, Option.map_eq_some_iff] at h
      obtain ⟨x, first, rfl⟩ := h
      exact .cancellation failed first

/-- Each entry begins where the one before it ended, but for the root cause. -/
def Linked : Scene β μ → List (Entry β μ) → Scene β μ → Prop
  | s, [], s' => s.Leads s'
  | s, x :: xs, s' => s.Leads x.before ∧ Linked x.after xs s'

theorem Linked.of_leads {s m s' : Scene β μ} {xs : List (Entry β μ)} (h' : Linked m xs s')
    (h : s.Leads m) : Linked s xs s' := by
  cases xs with
  | nil => exact h.trans h'
  | cons x xs => exact ⟨h.trans h'.1, h'.2⟩

theorem Linked.append {s m s' : Scene β μ} {xs ys : List (Entry β μ)} (h : Linked s xs m)
    (h' : Linked m ys s') : Linked s (xs ++ ys) s' := by
  induction xs generalizing s with
  | nil => exact h'.of_leads h
  | cons x xs ih => exact ⟨h.1, ih h.2⟩

theorem Linked.leads {s m s' : Scene β μ} {xs : List (Entry β μ)} (h : Linked s xs m)
    (h' : m.Leads s') : Linked s xs s' := by
  have whole := h.append (show Linked m [] s' from h')
  rwa [List.append_nil] at whole

end Entry

end Journey
