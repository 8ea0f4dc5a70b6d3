import Journey.Proofs.Clock
import Journey.Proofs.Run.Retry
import Mathlib.Algebra.BigOperators.Intervals

/-!
The time that an action takes. An attempt whose work is over when its time is goes on as if there were
no limit, and any other is cut off at that very moment and has timed out; so the attempts of an action
and the pauses between them add up to a bound. What the work consists of does not matter: a search, a
wait with a limit of its own, or an answer that comes late.
-/

namespace Journey

open Finset

variable {β μ : Type}

namespace Attempt

variable (e : Engine β μ) (pack : Option String) (x : Attempt β μ)

/-- The work of the attempt, as it goes if nothing cuts it off. -/
def work : Ending β (Notes μ) (Except StepError Outputs) :=
  (e.attempt x.call pack x.limit).run e.browser none x.before.world
    ⟨x.before.context, x.before.memory, none, []⟩

/-- When the time of the attempt is over. -/
def due : Nat := x.before.world.now + x.limit

/-- The attempt is over when its time is. It comes to what its work does if that is over by then, and
else it has timed out. -/
structure Timely : Prop where
  bounded : (x.after e pack).world.now ≤ x.due
  finished : (x.work e pack).world.now ≤ x.due →
    x.ending e pack = x.work e pack ∧ (x.work e pack).result = some (x.result e pack).outcome
  unfinished : x.due < (x.work e pack).world.now →
    (x.after e pack).world.now = x.due ∧ (x.result e pack).outcome = .error (.timeout x.limit)

theorem outcome_eq : (x.result e pack).outcome =
    (x.ending e pack).result.getD (.error (.timeout x.limit)) := rfl

theorem timely : x.Timely e pack := by
  have early : x.before.world.now ≤ x.due := Nat.le_add_right _ _
  have decided : if (x.work e pack).world.now ≤ x.due then x.ending e pack = x.work e pack
      else Dialogue.CutAt x.due (x.ending e pack) := Dialogue.run_deadline e.browser _ early _
  refine ⟨Dialogue.run_bounded e.browser _ early _, fun inTime => ?_, fun late => ?_⟩
  · rw [if_pos inTime] at decided
    obtain ⟨outcome, world, notes, ends⟩ := Dialogue.run_ends e.browser
      (e.attempt x.call pack x.limit) x.before.world ⟨x.before.context, x.before.memory, none, []⟩
    have result : (x.work e pack).result = some outcome := congrArg Ending.result ends
    exact ⟨decided, by rw [outcome_eq, decided, result, Option.getD_some]⟩
  · rw [if_neg (Nat.not_le.mpr late)] at decided
    exact ⟨decided.2, by rw [outcome_eq, decided.1, Option.getD_none]⟩

end Attempt

namespace Engine

variable (e : Engine β μ)

/-- Each attempt takes no longer than its time, and each pause between two of them what the policy
says. -/
theorem attemptNumber_now (call : ActionCall) (pack : Option String) (limit : Nat)
    (scene : Scene β μ) (earlier : Nat) :
    ((e.attemptNumber call pack limit scene (earlier + 1)).after e pack).world.now ≤
      scene.world.now +
        ((earlier + 1) * limit + ∑ i ∈ Ico 1 (earlier + 1), e.settings.retry.backoff i) := by
  let nth := e.attemptNumber call pack limit scene
  have tried (number : Nat) : ((nth number).after e pack).world.now ≤
      (nth number).before.world.now + limit := ((nth number).timely e pack).bounded
  induction earlier with
  | zero => simpa [nth, attemptNumber, attemptScene] using tried 1
  | succ earlier ih =>
      calc ((nth (earlier + 2)).after e pack).world.now
        _ ≤ (nth (earlier + 2)).before.world.now + limit := tried _
        _ = ((nth (earlier + 1)).after e pack).world.now +
            e.settings.retry.backoff (earlier + 1) + limit := rfl
        _ ≤ _ := Nat.add_le_add_right (Nat.add_le_add_right ih _) _
        _ = _ := by
          rw [sum_Ico_succ_top (Nat.le_add_left 1 earlier), Nat.add_mul (earlier + 1) 1 limit]
          omega

/-- An action takes no longer than its attempts may and the pauses between them do. Each attempt is cut
off when its time is over, and an action whose timeout is not known takes no time. -/
theorem carryOut_timely (step : Step) (call : ActionCall) (pack : Option String)
    (scene : Scene β μ) :
    let n := (e.carryOut step call pack scene).1.attempts
    let ended := (e.carryOut step call pack scene).2.world.now
    (e.attemptsOf step call pack scene).length = n ∧
      match e.settings.timeouts.stepTimeout? step.timeout with
      | none => n = 0 ∧ ended = scene.world.now
      | some limit =>
          (∀ x ∈ e.attemptsOf step call pack scene, x.limit = limit ∧ x.Timely e pack) ∧
            ended ≤ scene.world.now + (n * limit + ∑ i ∈ Ico 1 n, e.settings.retry.backoff i) := by
  cases known : e.settings.timeouts.stepTimeout? step.timeout with
  | none => simp [attemptsOf, carryOut, known, ActionResult.blank]
  | some limit =>
      obtain ⟨n, counted, -, -, -, told, made⟩ :=
        e.carryOut_number call pack limit scene step known
      have number : (e.carryOut step call pack scene).1.attempts = n := by
        rw [told]
        exact (attemptReport_reportsOf step n _).attempts
      have after : (e.carryOut step call pack scene).2 =
          (e.attemptNumber call pack limit scene n).after e pack := congrArg Prod.snd told
      obtain ⟨earlier, rfl⟩ := Nat.exists_eq_add_of_le' counted
      dsimp only
      rw [number, after, made]
      refine ⟨by simp, fun x mem => ?_, e.attemptNumber_now call pack limit scene earlier⟩
      obtain ⟨i, -, rfl⟩ := List.mem_map.mp mem
      exact ⟨rfl, Attempt.timely e pack _⟩

end Engine
end Journey
