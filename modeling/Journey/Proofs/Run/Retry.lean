import Journey.Proofs.Run.Trail
import Mathlib.Order.Bounds.Defs

/-!
Trying again. The attempts of an action follow each other by number, each after the pause that its number
calls for, and the last one made is the first that settles the matter or uses up the bound. The result is
that of the last attempt alone. What a single attempt does is stated for the attempt.
-/

namespace Journey

variable {β μ : Type}

/-- Another attempt cannot help, whatever the policy says. -/
def StepError.Permanent : StepError → Prop
  | assertion _ | expression _ | expansion _ | config _ | parameter _ => True
  | resolution failure => failure.attempted = []
  | action _ _ | timeout _ | cancelled => False

theorem StepError.Permanent.not_isRetryable {error : StepError} (h : error.Permanent)
    (policy : RetryPolicy) : error.isRetryable policy = false := by
  cases error with
  | assertion _ | expression _ | expansion _ | config _ | parameter _ => rfl
  | resolution failure =>
      have none : failure.attempted = [] := h
      simp [isRetryable, none]
  | action _ _ | timeout _ | cancelled => exact h.elim

/-- How many attempts a step has: those that it asks for, though never none; one if it is optional and
the policy makes no exception for that; and else those of the policy, though never none. -/
inductive Step.Bound (policy : RetryPolicy) (step : Step) : Nat → Prop
  | own {retry : Nat} (asked : step.retry = some retry) : Bound policy step (max retry 1)
  | single (unasked : step.retry = none) (optional : step.optional = true)
      (strict : policy.retryOptional = false) : Bound policy step 1
  | usual (unasked : step.retry = none)
      (counted : step.optional = false ∨ policy.retryOptional = true) :
      Bound policy step (max policy.maxAttempts 1)

theorem Step.Bound.pos {policy : RetryPolicy} {step : Step} {bound : Nat}
    (h : step.Bound policy bound) : 1 ≤ bound := by
  cases h with
  | own asked => exact Nat.le_max_right _ _
  | single unasked optional strict => exact Nat.le_refl 1
  | usual unasked counted => exact Nat.le_max_right _ _

/-- The result is that of the one attempt, and says its number. -/
structure ActionResult.ReportsOf (r : ActionResult) (number : Nat) (x : AttemptResult) : Prop where
  attempts : r.attempts = number
  tier : r.tier = x.tier
  diagnostics : r.diagnostics = x.diagnostics
  good : ∀ outputs, x.outcome = .ok outputs →
    r.success = true ∧ r.error = none ∧ r.outputs = outputs
  bad : ∀ error, x.outcome = .error error →
    r.success = false ∧ r.error = some error ∧ r.outputs = []

/-- The attempt succeeds, or fails for good. -/
def Attempt.Settles (e : Engine β μ) (pack : Option String) (x : Attempt β μ) : Prop :=
  ∀ error, (x.result e pack).outcome = .error error → error.isRetryable e.settings.retry = false

theorem Attempt.settles_iff {e : Engine β μ} {pack : Option String} {x : Attempt β μ} :
    x.Settles e pack ↔ e.triesAgain (x.result e pack) = false := by
  simp only [Settles, Engine.triesAgain]
  cases (x.result e pack).outcome with
  | ok outputs => simp
  | error error => simp

namespace Engine

variable (e : Engine β μ)

/-- Where the attempt of a number begins, counted from one and if so many are made: the first one at once,
and each further one after a sleep, from the end of the one before it, for the backoff of its number. -/
def attemptScene (call : ActionCall) (pack : Option String) (limit : Nat) (scene : Scene β μ) :
    Nat → Scene β μ
  | 0 | 1 => scene
  | number + 2 =>
      let ended :=
        Attempt.after e pack ⟨call, limit, attemptScene call pack limit scene (number + 1)⟩
      let pause := e.settings.retry.backoff (number + 1)
      { ended with world := { ended.world with now := ended.world.now + pause } }

def attemptNumber (call : ActionCall) (pack : Option String) (limit : Nat) (scene : Scene β μ)
    (number : Nat) : Attempt β μ :=
  ⟨call, limit, e.attemptScene call pack limit scene number⟩

theorem attemptBound_bound (step : Step) : step.Bound e.settings.retry (e.attemptBound step) := by
  simp only [attemptBound]
  cases asked : step.retry with
  | some retry => exact .own asked
  | none =>
      dsimp only
      split
      case isTrue alone =>
        simp only [Bool.and_eq_true, Bool.not_eq_true'] at alone
        exact .single asked alone.1 alone.2
      case isFalse counted =>
        refine .usual asked ?_
        cases optional : step.optional with
        | false => exact .inl rfl
        | true => exact .inr (by simpa [optional] using counted)

theorem attemptReport_reportsOf (step : Step) (number : Nat) (x : AttemptResult) :
    (attemptReport step number x).ReportsOf number x := by
  obtain ⟨outcome, tier, diagnostics⟩ := x
  cases outcome with
  | ok outputs =>
      refine ⟨rfl, rfl, rfl, ?_, nofun⟩
      rintro _ ⟨⟩
      exact ⟨rfl, rfl, rfl⟩
  | error error =>
      refine ⟨rfl, rfl, rfl, nofun, ?_⟩
      rintro _ ⟨⟩
      exact ⟨rfl, rfl, rfl⟩

section Loop

variable (call : ActionCall) (pack : Option String) (limit : Nat) (scene : Scene β μ)

/-- From any of its attempts on, the loop makes attempts up to the first that settles the matter, or to
the last that it may make. -/
theorem attemptFrom_number (step : Step) (spare number : Nat) (counted : 1 ≤ number) :
    let nth := e.attemptNumber call pack limit scene
    ∃ last, number ≤ last ∧ last ≤ number + spare ∧
      (∀ i, number ≤ i → i < last → ¬ (nth i).Settles e pack) ∧
      (last = number + spare ∨ (nth last).Settles e pack) ∧
      e.attemptFrom step call pack limit spare number (nth number).before =
        (attemptReport step last ((nth last).result e pack), (nth last).after e pack) ∧
      e.attemptsFrom call pack limit spare number (nth number).before =
        (List.range' number (last + 1 - number)).map nth := by
  intro nth
  have ran (i : Nat) : e.runAttempt call pack limit (nth i).before =
      ((nth i).result e pack, (nth i).after e pack) := rfl
  have now (i : Nat) : (⟨call, limit, (nth i).before⟩ : Attempt β μ) = nth i := rfl
  induction spare generalizing number with
  | zero =>
      refine ⟨number, Nat.le_refl _, Nat.le_refl _, by omega, .inl rfl, ?_, ?_⟩
      · simp only [attemptFrom, ran]
      · simp [attemptsFrom, now]
  | succ spare ih =>
      by_cases settled : (nth number).Settles e pack
      · have finished : e.triesAgain ((nth number).result e pack) = false :=
          Attempt.settles_iff.mp settled
        refine ⟨number, Nat.le_refl _, by omega, by omega, .inr settled, ?_, ?_⟩
        · simp only [attemptFrom, ran, finished, Bool.false_eq_true, if_false]
        · simp [attemptsFrom, now, ran, finished]
      · have again : e.triesAgain ((nth number).result e pack) = true := by
          rw [← Bool.not_eq_false, ← Attempt.settles_iff]
          exact settled
        have paused : e.rest number ((nth number).after e pack) = (nth (number + 1)).before := by
          obtain ⟨before, rfl⟩ := Nat.exists_eq_add_of_le' counted
          rfl
        obtain ⟨last, later, bounded, unsettled, stop, told, made⟩ := ih (number + 1) (by omega)
        refine ⟨last, by omega, by omega, ?_, ?_, ?_, ?_⟩
        · intro i reached early
          rcases Nat.eq_or_lt_of_le reached with rfl | behind
          · exact settled
          · exact unsettled i behind early
        · rwa [Nat.add_right_comm, Nat.add_assoc] at stop
        · simp only [attemptFrom, ran, again, if_true, paused]
          exact told
        · have more : last + 1 - number = last + 1 - (number + 1) + 1 := by omega
          rw [more, List.range'_succ, List.map_cons, ← made]
          simp only [attemptsFrom, now, ran, again, if_true, paused]

/-- An action whose timeout is known is tried up to the first attempt that settles the matter, or as often
as it may be. -/
theorem carryOut_number (step : Step)
    (known : e.settings.timeouts.stepTimeout? step.timeout = some limit) :
    let nth := e.attemptNumber call pack limit scene
    ∃ last, 1 ≤ last ∧ last ≤ e.attemptBound step ∧
      (∀ i, 1 ≤ i → i < last → ¬ (nth i).Settles e pack) ∧
      (last = e.attemptBound step ∨ (nth last).Settles e pack) ∧
      e.carryOut step call pack scene =
        (attemptReport step last ((nth last).result e pack), (nth last).after e pack) ∧
      e.attemptsOf step call pack scene = (List.range' 1 last).map nth := by
  obtain ⟨last, counted, within, unsettled, stop, told, made⟩ :=
    e.attemptFrom_number call pack limit scene step (e.attemptBound step - 1) 1 (Nat.le_refl 1)
  rw [Nat.add_sub_cancel' (e.attemptBound_bound step).pos] at within stop
  refine ⟨last, counted, within, unsettled, stop, ?_, ?_⟩
  · rw [carryOut, known]
    exact told
  · rw [attemptsOf, known]
    exact made

end Loop

/-- The action is tried `n` times, up to the first attempt that settles the matter or to the bound,
whichever comes first, and its result is that of attempt `n` alone. -/
structure Retries (step : Step) (call : ActionCall) (pack : Option String) (scene : Scene β μ)
    (limit bound n : Nat) : Prop where
  bounded : step.Bound e.settings.retry bound
  least : IsLeast {i | 1 ≤ i ∧
    (i = bound ∨ (e.attemptNumber call pack limit scene i).Settles e pack)} n
  made : e.attemptsOf step call pack scene =
    (List.range' 1 n).map (e.attemptNumber call pack limit scene)
  reports : (e.carryOut step call pack scene).1.ReportsOf n
    ((e.attemptNumber call pack limit scene n).result e pack)
  leaves : (e.carryOut step call pack scene).2 = (e.attemptNumber call pack limit scene n).after e pack
  permanent : ∀ i error, 1 ≤ i → i ≤ n →
    ((e.attemptNumber call pack limit scene i).result e pack).outcome = .error error →
      error.Permanent → i = n

/-- An action whose timeout is known is tried by the law of retries. Under a timeout that is not, nothing
is attempted, and the action fails as one that is set up wrong. -/
theorem carryOut_retries (e : Engine β μ) (step : Step) (call : ActionCall) (pack : Option String)
    (scene : Scene β μ) :
    match e.settings.timeouts.stepTimeout? step.timeout with
    | none =>
        e.attemptsOf step call pack scene = [] ∧
          e.carryOut step call pack scene = ({ ActionResult.blank step with
            error := some (.config (.unknownProfile (step.timeout.getD ""))) }, scene)
    | some limit => ∃ bound n, e.Retries step call pack scene limit bound n := by
  cases known : e.settings.timeouts.stepTimeout? step.timeout with
  | none => exact ⟨by rw [attemptsOf, known], by rw [carryOut, known]⟩
  | some limit =>
      obtain ⟨n, counted, last, unsettled, stop, told, made⟩ :=
        e.carryOut_number call pack limit scene step known
      refine ⟨e.attemptBound step, n, e.attemptBound_bound step, ⟨⟨counted, stop⟩, ?_⟩, made, ?_,
        congrArg Prod.snd told, ?_⟩
      · rintro i ⟨first, rfl | settled⟩
        · exact last
        · exact Nat.le_of_not_lt fun early => unsettled i first early settled
      · exact told ▸ attemptReport_reportsOf step n _
      · intro i error first within failed permanent
        refine Nat.le_antisymm within (Nat.le_of_not_lt fun early => unsettled i first early ?_)
        intro error' failed'
        obtain rfl := Except.error.inj (failed.symm.trans failed')
        exact permanent.not_isRetryable _

/-- A step that asks for no attempt at all is still given one. -/
theorem carryOut_unallowed_attempted :
    ∃ (e : Engine Rehearsal Unit) (step : Step) (retry : Nat), step.retry = some retry ∧
      (e.settings.timeouts.stepTimeout? step.timeout).isSome = true ∧
      retry < (e.carryOut step step.call none Scene.blank).1.attempts :=
  ⟨{ bare with registry := .builtin },
    ⟨.atomic, "assert.equals", [("actual", .int 1), ("expected", .int 1)], none, none, none, some 0, true,
      [], ⟨"page.flow", 3⟩⟩, 0, rfl, rfl, by decide⟩

end Engine
end Journey
