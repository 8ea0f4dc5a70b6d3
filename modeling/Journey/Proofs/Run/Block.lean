import Journey.Proofs.Run.Course

/-!
What a block comes to: its results are those of its declared steps in order, its verdict is read off
these and the tolerance, and a block that fails leaves its first failure, or else its cancellation, as
the root cause. How the blocks of a workflow follow each other is stated separately.
-/

namespace Journey

variable {β μ : Type}

/-- The number of counted failures that a block may have and still succeed. -/
def BlockPolicy.tolerance : BlockPolicy → Nat
  | .strict | .bestEffort => 0
  | .recover tolerance => tolerance

namespace Entry

/-- The entries tell of the declared steps, one each and in order, with the results that are shown. -/
structure Tell (declared : List Step) (shown : List StepResult) (xs : List (Entry β μ)) :
    Prop where
  steps : xs.map Entry.step = declared
  results : xs.map Entry.result = shown
  places : xs.map Entry.index = List.range declared.length
  belong : ∀ x ∈ xs, x.result.BelongsTo x.step

/-- Nothing is carried out after the first failure that counts. -/
def StopAtFailure (xs : List (Entry β μ)) : Prop :=
  xs.Pairwise fun x y => x.isFailure = true → y.PassedOver

/-- The first step was carried out, unless the flag held it back and the whole block with it. -/
def Opens (xs : List (Entry β μ)) : Prop :=
  ∀ x ∈ xs.head?, (x.isCancelled = true ∧ ∀ y ∈ xs, y.PassedOver) ∨ x.result.isSkipped = false

/-- The flag has not held back any of the steps. -/
def Calm (xs : List (Entry β μ)) : Prop := ∀ x ∈ xs, x.isCancelled = false

theorem not_calm {xs : List (Entry β μ)} (h : ¬ Calm xs) : ∃ x ∈ xs, x.isCancelled = true := by
  simpa [Calm] using h

theorem cancellationIn_isSome {xs : List (Entry β μ)} (h : ¬ Calm xs) :
    (cancellationIn xs).isSome := by
  obtain ⟨x, hx, up⟩ := not_calm h
  rw [cancellationIn, Option.isSome_map, List.find?_isSome]
  exact ⟨x, hx, up⟩

theorem cancellationIn_eq_none {xs : List (Entry β μ)} (h : Calm xs) : cancellationIn xs = none := by
  rw [cancellationIn, Option.map_eq_none_iff, List.find?_eq_none]
  intro x hx
  simp [h x hx]

end Entry

/-- What the entries of a block and its result have to do with each other. -/
structure BlockRun (e : Engine β μ) (block : String) (policy : BlockPolicy) (pack : Option String)
    (steps : List Step) (xs : List (Entry β μ)) (r : BlockResult) : Prop where
  tell : Entry.Tell steps r.steps xs
  each : ∀ x ∈ xs, x.CarriedOut e block policy pack ∨ x.PassedOver
  opens : Entry.Opens xs
  strict : policy = .strict → Entry.StopAtFailure xs
  lenient : policy ≠ .strict → (policy ≠ .bestEffort → Entry.Calm xs) →
    ∀ x ∈ xs, x.CarriedOut e block policy pack ∧ x.result.isSkipped = false
  failures : policy ≠ .bestEffort → r.failures = xs.countP Entry.isFailure
  cancelled : r.cancelled = false ↔ Entry.Calm xs
  success : policy ≠ .bestEffort →
    (r.success = true ↔ Entry.Calm xs ∧ r.failures ≤ policy.tolerance)
  bestEffort : policy = .bestEffort → r.success = true
  cause : r.success = false → (Entry.causeIn xs).isSome

namespace BlockRun

variable {e : Engine β μ} {block : String} {policy : BlockPolicy} {pack : Option String}
  {steps : List Step} {xs : List (Entry β μ)} {r : BlockResult}

theorem calm_of_success (h : BlockRun e block policy pack steps xs r) (hp : policy ≠ .bestEffort)
    (success : r.success = true) : Entry.Calm xs :=
  ((h.success hp).mp success).1

theorem halts_eq_false (h : BlockRun e block policy pack steps xs r) (hp : policy ≠ .bestEffort)
    (goesOn : Bool) : (!r.success && (r.cancelled || !goesOn)) = false ↔
      Entry.Calm xs ∧ (r.success = true ∨ goesOn = true) := by
  rw [← h.cancelled]
  cases success : r.success with
  | true => simp [h.cancelled.mpr (h.calm_of_success hp success)]
  | false => simp

theorem any_isCancelled (h : BlockRun e block policy pack steps xs r) (hp : policy ≠ .bestEffort)
    (success : r.success = true) : xs.any Entry.isCancelled = false := by
  rw [List.any_eq_false]
  intro x hx
  simp [h.calm_of_success hp success x hx]

theorem success_strict (h : BlockRun e block .strict pack steps xs r) :
    r.success = true ↔ ∀ x ∈ xs, x.isFailure = false ∧ x.isCancelled = false := by
  have none : r.failures ≤ BlockPolicy.strict.tolerance ↔ ∀ x ∈ xs, x.isFailure = false := by
    rw [h.failures (by decide)]
    simp [BlockPolicy.tolerance, List.countP_eq_zero]
  rw [h.success (by decide), none]
  exact ⟨fun ⟨calm, good⟩ x hx => ⟨good x hx, calm x hx⟩,
    fun all => ⟨fun x hx => (all x hx).2, fun x hx => (all x hx).1⟩⟩

end BlockRun

namespace Engine
namespace Course

variable {e : Engine β μ} {block : String} {policy : BlockPolicy} {pack : Option String}
  {t : Tally} {s s' : Scene β μ} {xs : List (Entry β μ)}

theorem cancelled_eq_false (h : Course e block policy pack 0 .zero s xs t s') :
    t.cancelled = false ↔ Entry.Calm xs := by
  have up := h.cancelled_iff Tally.consistent_zero
  constructor
  · intro calm x hx
    cases flag : x.isCancelled with
    | false => rfl
    | true =>
        rw [up.mpr (.inr ⟨x, hx, flag⟩)] at calm
        cases calm
  · intro calm
    cases flag : t.cancelled with
    | false => rfl
    | true =>
        rcases up.mp flag with zero | ⟨x, hx, held⟩
        · cases zero
        · rw [calm x hx] at held
          cases held

theorem success_iff (h : Course e block policy pack 0 .zero s xs t s')
    (hp : policy ≠ .bestEffort) :
    t.success policy = true ↔ Entry.Calm xs ∧ t.failures ≤ policy.tolerance := by
  rw [← h.cancelled_eq_false]
  cases policy with
  | strict => simp [Tally.success, BlockPolicy.tolerance]
  | recover tolerance => simp [Tally.success, BlockPolicy.tolerance]
  | bestEffort => exact absurd rfl hp

theorem success_bestEffort (h : Course e block .bestEffort pack 0 .zero s xs t s') :
    t.success .bestEffort = true := by
  simp [Tally.success, h.bestEffort_calm rfl]

theorem cause_isSome (h : Course e block policy pack 0 .zero s xs t s')
    (failed : t.success policy = false) : (Entry.causeIn xs).isSome := by
  have hp : policy ≠ .bestEffort := by
    rintro rfl
    rw [h.success_bestEffort] at failed
    cases failed
  rw [Entry.causeIn, Option.isSome_or, Bool.or_eq_true]
  by_cases calm : Entry.Calm xs
  -- Without cancellation the block has more failures than its tolerance, so at least one.
  · refine .inl (Entry.failureIn_isSome ?_ ?_)
    · exact settled_of_each h.each
    · have counted := h.failures_eq hp
      have passed : ¬ t.failures ≤ policy.tolerance := fun low => by
        rw [(h.success_iff hp).mpr ⟨calm, low⟩] at failed
        cases failed
      have some : 0 < xs.countP Entry.isFailure := by
        simp only [Tally.zero] at counted
        omega
      exact List.countP_pos_iff.mp some
  · exact .inr (Entry.cancellationIn_isSome calm)

theorem lastError_eq (h : Course e block policy pack 0 .zero s xs t s') :
    (if t.success policy then s'.context else s'.context.recordFirst t.first).lastError =
      if t.success policy then s.context.lastError
      else s.context.lastError.or (Entry.causeIn xs) := by
  cases up : t.cancelled with
  | true =>
      have failed : t.success policy = false := by simp [Tally.success, up]
      obtain ⟨first, cause⟩ := h.lastError_of_cancelled rfl up
      simp only [failed, Bool.false_eq_true, if_false]
      rw [first, Context.recordFirst, cause, Entry.causeIn]
      simp [Tally.zero, Option.or_assoc]
  | false =>
      have same := h.lastError_of_calm up
      have none := Entry.cancellationIn_eq_none (h.cancelled_eq_false.mp up)
      cases outcome : t.success policy with
      | true => exact same
      | false =>
          have hp : policy ≠ .bestEffort := by
            rintro rfl
            rw [h.success_bestEffort] at outcome
            cases outcome
          simp only [Bool.false_eq_true, if_false]
          rw [Context.lastError_recordFirst, same, h.first_of_calm hp up, Entry.causeIn, none]
          simp [Tally.zero]

end Course

/-- The run of a block has entries that its result agrees with, and leaves a root cause if it fails. -/
theorem runBlock_run (e : Engine β μ) (block : String) (policy : BlockPolicy)
    (pack : Option String) (steps : List Step) (s : Scene β μ) {r : BlockResult} {s' : Scene β μ}
    (run : e.runBlock block policy pack steps s = (r, s')) :
    ∃ xs, BlockRun e block policy pack steps xs r ∧ Entry.Linked s xs s' ∧
      s'.context.lastError =
        if r.success then s.context.lastError else s.context.lastError.or (Entry.causeIn xs) := by
  obtain ⟨xs, course, hs, hr, hi⟩ := e.runSteps_course block policy pack 0 steps .zero s
  simp only [runBlock, Prod.mk.injEq] at run
  obtain ⟨rfl, rfl⟩ := run
  refine ⟨xs, ?_, ?_, ?_⟩
  · exact {
      tell := ⟨hs, hr, hi.trans List.range_eq_range'.symm, course.belongsTo⟩
      each := course.each
      opens := course.opens rfl
      strict := fun hp => by subst hp; exact course.strict_pairwise
      lenient := fun hp calm => course.carriedOut_all rfl hp calm
      failures := fun hp => by simpa [Tally.zero] using course.failures_eq hp
      cancelled := course.cancelled_eq_false
      success := course.success_iff
      bestEffort := fun hp => by subst hp; exact course.success_bestEffort
      cause := course.cause_isSome }
  · have linked := course.linked
    split
    · exact linked
    · exact linked.leads (Scene.leads_recordFirst _ _)
  · rw [← course.lastError_eq]
    split <;> rfl

end Engine
end Journey
