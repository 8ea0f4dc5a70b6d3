import Journey.Proofs.Run.Record

/-!
Phase policy over whole runs. The results of every run belong to its declared steps; strict blocks
stop at their first counted failure and recovering phases go on; each phase is judged by its counted
failures and its tolerance; and a phase is started unless the setup, a cancellation, or a failure
under the abort policy came before it.
-/

namespace Journey

variable {β μ : Type}

/-- Later phases may be started after this one: it has not seen cancellation, and has succeeded unless
the workflow, or the settings where it says nothing, go on past a failed phase. -/
def Chapter.LetsGoOn (e : Engine β μ) (w : Workflow) (c : Chapter β μ) : Prop :=
  Entry.Calm c.entries ∧
    (c.result.success = true ∨ w.onPhaseFailure = some .continue ∨
      w.onPhaseFailure = none ∧ e.settings.phases.continuePastFailure = true)

theorem Engine.continuesPast_iff (e : Engine β μ) (w : Workflow) : e.continuesPast w = true ↔
    w.onPhaseFailure = some .continue ∨
      w.onPhaseFailure = none ∧ e.settings.phases.continuePastFailure = true := by
  rw [continuesPast]
  cases w.onPhaseFailure with
  | none => simp
  | some policy => simp

theorem Chapter.goesOn_iff (e : Engine β μ) (w : Workflow) (c : Chapter β μ) :
    c.GoesOn (e.continuesPast w) ↔ c.LetsGoOn e w := by
  rw [GoesOn, LetsGoOn, e.continuesPast_iff w]

namespace Engine

variable {e : Engine β μ} {w : Workflow} {r : WorkflowResult}

namespace Account

variable {s s' next last : Scene β μ} {b : BlockResult} {c : Record β μ}

theorem started_iff (h : e.Account w s b next last r s' c) {before after : List (Chapter β μ)}
    {p : Chapter β μ} (place : c.phases = before ++ p :: after) :
    p.result.skipped = false ↔ c.SetupSucceeded ∧ ∀ q ∈ before, q.LetsGoOn e w := by
  rw [h.passage.started_iff place, Bool.not_eq_false', h.setup_success]
  simp only [Chapter.goesOn_iff]

end Account

end Engine
end Journey
