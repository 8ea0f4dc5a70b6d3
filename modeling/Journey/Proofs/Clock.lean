import Journey.Proofs.Dialogue

/-!
The clock of a run. It never goes back, a run without a deadline comes to its end, and a deadline that
lies ahead decides by the clock alone: what would be over by then goes as it does without it, and all
else is cut off exactly there.
-/

namespace Journey

variable {β σ α : Type}

namespace World

theorem reaches_iff {w : World β} {limit ms : Nat} (early : w.now ≤ limit) :
    w.reaches (some limit) ms = true ↔ w.now + ms ≤ limit := by
  simp only [reaches, Bool.or_eq_true, decide_eq_true_eq, beq_iff_eq]
  omega

end World

namespace Dialogue

theorem run_onward (browser : Browser β) (d : Dialogue σ α) (w : World β) (s : σ) :
    w.now ≤ (d.run browser none w s).world.now := by
  induction d generalizing w s with
  | done a => exact Nat.le_refl _
  | sleep ms next ih => exact Nat.le_trans (Nat.le_add_right _ _) (ih (w.sleep ms) s)
  | clock next ih => exact ih _ w s
  | note f next ih => exact ih w _
  | consult next ih => exact ih _ w s
  | ask call next ih => exact Nat.le_trans (Nat.le_add_right _ _) (ih _ (settle w call _) s)

/-- A run without a deadline has a result. -/
theorem run_ends (browser : Browser β) (d : Dialogue σ α) (w : World β) (s : σ) :
    ∃ a w' s', d.run browser none w s = ⟨some a, w', s'⟩ := by
  induction d generalizing w s with
  | done a => exact ⟨a, w, s, rfl⟩
  | sleep ms next ih => exact ih _ _
  | clock next ih => exact ih _ _ _
  | note f next ih => exact ih _ _
  | consult next ih => exact ih _ _ _
  | ask call next ih => exact ih _ _ _

/-- The run was cut off, and at its deadline. -/
def CutAt (limit : Nat) (ending : Ending β σ α) : Prop :=
  ending.result = none ∧ ending.world.now = limit

/-- What would be over by the deadline is not touched by it, and all else is cut off there. -/
theorem run_deadline (browser : Browser β) (d : Dialogue σ α) {w : World β} {limit : Nat}
    (early : w.now ≤ limit) (s : σ) :
    if (d.run browser none w s).world.now ≤ limit
      then d.run browser (some limit) w s = d.run browser none w s
      else CutAt limit (d.run browser (some limit) w s) := by
  induction d generalizing w s with
  | done a => exact if_pos early ▸ rfl
  | sleep ms next ih =>
      have free : (sleep ms next).run browser none w s = next.run browser none (w.sleep ms) s := rfl
      rw [free, run]
      by_cases inTime : w.now + ms ≤ limit
      · rw [if_pos ((World.reaches_iff early).mpr inTime)]
        exact ih inTime s
      · have later : w.now + ms ≤ (next.run browser none (w.sleep ms) s).world.now :=
          run_onward browser next (w.sleep ms) s
        rw [if_neg (inTime ∘ (World.reaches_iff early).mp), if_neg (by omega)]
        exact ⟨rfl, rfl⟩
  | clock next ih => exact ih _ early s
  | note f next ih => exact ih early _
  | consult next ih => exact ih _ early s
  | ask call next ih =>
      let r := browser.react w.now w.browser call
      have free : (ask call next).run browser none w s =
          (next r.outcome).run browser none (settle w call r) s := rfl
      rw [free, run]
      by_cases inTime : w.now + r.delay ≤ limit
      · rw [if_pos ((World.reaches_iff early).mpr inTime)]
        exact ih r.outcome inTime s
      · have later : w.now + r.delay ≤
            ((next r.outcome).run browser none (settle w call r) s).world.now :=
          run_onward browser (next r.outcome) (settle w call r) s
        rw [if_neg (inTime ∘ (World.reaches_iff early).mp), if_neg (by omega)]
        exact ⟨rfl, rfl⟩

/-- No run goes on beyond a deadline that lies ahead. -/
theorem run_bounded (browser : Browser β) (d : Dialogue σ α) {w : World β} {limit : Nat}
    (early : w.now ≤ limit) (s : σ) : (d.run browser (some limit) w s).world.now ≤ limit := by
  have decided := run_deadline browser d early s
  split at decided
  case isTrue inTime => exact decided ▸ inTime
  case isFalse => exact Nat.le_of_eq decided.2

end Dialogue
end Journey
