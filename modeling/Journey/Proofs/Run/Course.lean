import Journey.Proofs.Run.Frame
import Journey.Proofs.Run.Tally

/-!
The course of a block: its run told step by step, with the scenes between the steps. Each step is
passed over for the reason that stopped the block, passed over because the flag is up, or carried
out. What the tally of a block says at its end is read off this course: its counted failures, the
cancellation, and the root cause that it leaves in the context.
-/

namespace Journey

variable {β μ : Type}

namespace Engine

theorem reports_of_run {e : Engine β μ} {step : Step} {pack : Option String}
    {scene next : Scene β μ} {r : StepResult} (run : e.executeStep step pack scene = (r, next)) :
    r.Reports step := by
  have own := e.executeStep_reports step pack scene
  rwa [run] at own

theorem lastError_of_run {e : Engine β μ} {block : String} {policy : BlockPolicy} {i : Nat}
    {step : Step} {pack : Option String} {s seen next : Scene β μ} {r : StepResult}
    (look : s.look policy = (false, seen))
    (run : e.executeStep step pack (seen.atStep block i) = (r, next)) :
    next.context.lastError = s.context.lastError := by
  have own := executeStep_untouched Context.untouched_lastError e step pack (seen.atStep block i)
  have kept := s.look_context policy
  rw [run] at own
  rw [look] at kept
  exact own.trans ((congrArg Context.lastError kept : seen.context.lastError = _))

theorem settled_of_each {e : Engine β μ} {block : String} {policy : BlockPolicy}
    {pack : Option String} {xs : List (Entry β μ)}
    (each : ∀ x ∈ xs, x.CarriedOut e block policy pack ∨ x.PassedOver) :
    ∀ x ∈ xs, x.isFailure = true → x.result.Settled := by
  intro x hx failed
  rcases each x hx with ⟨scene, _, run⟩ | passed
  · exact (reports_of_run run).toSettled
  · rw [passed.not_isFailure] at failed
    cases failed

/-- How a block goes from one tally and scene to another. -/
inductive Course (e : Engine β μ) (block : String) (policy : BlockPolicy) (pack : Option String) :
    Nat → Tally → Scene β μ → List (Entry β μ) → Tally → Scene β μ → Prop
  | nil {i : Nat} {t : Tally} {s : Scene β μ} : Course e block policy pack i t s [] t s
  | stopped {i : Nat} {t t' : Tally} {s s' : Scene β μ} {xs : List (Entry β μ)} {reason : String}
      (step : Step) (stop : t.stop = some reason)
      (rest : Course e block policy pack (i + 1) t s xs t' s') :
      Course e block policy pack i t s (⟨i, step, s, .passedOver step reason, s⟩ :: xs) t' s'
  | cancelled {i : Nat} {t t' : Tally} {s seen s' : Scene β μ} {xs : List (Entry β μ)}
      (step : Step) (stop : t.stop = none) (look : s.look policy = (true, seen))
      (rest : Course e block policy pack (i + 1) t.cancel (seen.cancelBefore t step) xs t' s') :
      Course e block policy pack i t s
        (⟨i, step, s, .passedOver step "cancelled", seen.cancelBefore t step⟩ :: xs) t' s'
  | carriedOut {i : Nat} {t t' : Tally} {s seen next s' : Scene β μ} {xs : List (Entry β μ)}
      {r : StepResult} (step : Step) (stop : t.stop = none) (look : s.look policy = (false, seen))
      (run : e.executeStep step pack (seen.atStep block i) = (r, next))
      (rest : Course e block policy pack (i + 1) (t.after policy step r) next xs t' s') :
      Course e block policy pack i t s (⟨i, step, s, r, next⟩ :: xs) t' s'

/-- Every run of a block has a course, with one entry for each step in order. -/
theorem runSteps_course (e : Engine β μ) (block : String) (policy : BlockPolicy)
    (pack : Option String) (index : Nat) (steps : List Step) (tally : Tally) (scene : Scene β μ) :
    ∃ xs, e.Course block policy pack index tally scene xs
        (e.runSteps block policy pack index steps tally scene).2.1
        (e.runSteps block policy pack index steps tally scene).2.2 ∧
      xs.map Entry.step = steps ∧
      xs.map Entry.result = (e.runSteps block policy pack index steps tally scene).1 ∧
      xs.map Entry.index = List.range' index steps.length := by
  induction steps generalizing index tally scene with
  | nil => exact ⟨[], .nil, rfl, rfl, rfl⟩
  | cons step rest ih =>
      simp only [runSteps]
      cases stop : tally.stop with
      | some reason =>
          obtain ⟨xs, course, hs, hr, hi⟩ := ih (index + 1) tally scene
          exact ⟨_ :: xs, .stopped step stop course, congrArg _ hs, congrArg _ hr, congrArg _ hi⟩
      | none =>
          dsimp only
          cases look : (scene.look policy).1 with
          | true =>
              obtain ⟨xs, course, hs, hr, hi⟩ :=
                ih (index + 1) tally.cancel ((scene.look policy).2.cancelBefore tally step)
              exact ⟨_ :: xs, .cancelled step stop (Prod.ext look rfl) course, congrArg _ hs,
                congrArg _ hr, congrArg _ hi⟩
          | false =>
              obtain ⟨xs, course, hs, hr, hi⟩ := ih (index + 1) _
                (e.executeStep step pack ((scene.look policy).2.atStep block index)).2
              exact ⟨_ :: xs, .carriedOut step stop (Prod.ext look rfl) rfl course, congrArg _ hs,
                congrArg _ hr, congrArg _ hi⟩

namespace Course

variable {e : Engine β μ} {block : String} {policy : BlockPolicy} {pack : Option String} {i : Nat}
  {t t' : Tally} {s s' : Scene β μ} {xs : List (Entry β μ)}

theorem linked (h : Course e block policy pack i t s xs t' s') : Entry.Linked s xs s' := by
  induction h with
  | nil => exact .refl _
  | stopped step stop rest ih => exact ⟨.refl _, ih⟩
  | cancelled step stop look rest ih => exact ⟨.refl _, ih⟩
  | carriedOut step stop look run rest ih => exact ⟨.refl _, ih⟩

theorem belongsTo (h : Course e block policy pack i t s xs t' s') :
    ∀ x ∈ xs, x.result.BelongsTo x.step := by
  induction h with
  | nil => exact List.forall_mem_nil _
  | stopped step stop rest ih | cancelled step stop look rest ih =>
      exact List.forall_mem_cons.mpr ⟨StepResult.passedOver_belongsTo step _, ih⟩
  | carriedOut step stop look run rest ih =>
      exact List.forall_mem_cons.mpr ⟨(reports_of_run run).toBelongsTo, ih⟩

theorem entry_stopped (i : Nat) (step : Step) (s : Scene β μ) (reason : String) :
    (⟨i, step, s, .passedOver step reason, s⟩ : Entry β μ).PassedOver :=
  ⟨⟨reason, rfl⟩, .inl (.refl s), rfl, rfl⟩

theorem entry_cancelled (i : Nat) (step : Step) (t : Tally) {s seen : Scene β μ}
    (look : s.look policy = (true, seen)) :
    (⟨i, step, s, .passedOver step "cancelled", seen.cancelBefore t step⟩ : Entry β μ).PassedOver := by
  have looked := s.look_world (Scene.ne_bestEffort_of_look look)
  rw [look] at looked
  subst looked
  exact ⟨⟨_, rfl⟩, .inr (Scene.leads_cancelBefore _ t step), s.world.look_history,
    s.world.look_browser⟩

theorem entry_isCancelled (i : Nat) (step : Step) (next : Scene β μ) {s seen : Scene β μ}
    (look : s.look policy = (true, seen)) :
    Entry.isCancelled ⟨i, step, s, .passedOver step "cancelled", next⟩ = true := by
  have up := s.look_of_ne (Scene.ne_bestEffort_of_look look)
  rw [look] at up
  simp [Entry.isCancelled, ← up, StepResult.passedOver, StepResult.plain, ActionResult.passedOver]

theorem entry_not_isCancelled (i : Nat) (step : Step) (s next : Scene β μ) {r : StepResult}
    (h : r.Settled) : Entry.isCancelled ⟨i, step, s, r, next⟩ = false := by
  simp [Entry.isCancelled, h.carriedOut]

theorem each (h : Course e block policy pack i t s xs t' s') :
    ∀ x ∈ xs, x.CarriedOut e block policy pack ∨ x.PassedOver := by
  induction h with
  | nil => exact List.forall_mem_nil _
  | stopped step stop rest ih =>
      exact List.forall_mem_cons.mpr ⟨.inr (entry_stopped _ step _ _), ih⟩
  | cancelled step stop look rest ih =>
      exact List.forall_mem_cons.mpr ⟨.inr (entry_cancelled _ step _ look), ih⟩
  | carriedOut step stop look run rest ih =>
      exact List.forall_mem_cons.mpr ⟨.inl ⟨_, look, run⟩, ih⟩

theorem passedOver_of_stop (h : Course e block policy pack i t s xs t' s') {reason : String}
    (stop : t.stop = some reason) :
    t' = t ∧ s' = s ∧ ∀ x ∈ xs, x.PassedOver := by
  induction h with
  | nil => exact ⟨rfl, rfl, List.forall_mem_nil _⟩
  | stopped step _ rest ih =>
      obtain ⟨ht, hs, all⟩ := ih stop
      exact ⟨ht, hs, List.forall_mem_cons.mpr ⟨entry_stopped _ step _ _, all⟩⟩
  | cancelled step none look rest ih | carriedOut step none look run rest ih =>
      rw [stop] at none
      cases none

theorem passedOver_of_cancel (h : Course e block policy pack i t.cancel s xs t' s') :
    t' = t.cancel ∧ s' = s ∧ ∀ x ∈ xs, x.PassedOver :=
  h.passedOver_of_stop (show t.cancel.stop = some "cancelled" from rfl)

/-- A block that has not been stopped carries out its next step, unless the flag holds that back. -/
theorem opens (h : Course e block policy pack i t s xs t' s') (going : t.stop = none) :
    ∀ x ∈ xs.head?, (x.isCancelled = true ∧ ∀ y ∈ xs, y.PassedOver) ∨ x.result.isSkipped = false := by
  intro x first
  cases h with
  | nil => cases first
  | stopped step stop rest =>
      rw [going] at stop
      cases stop
  | cancelled step stop look rest =>
      obtain rfl := Option.some.inj first
      refine .inl ⟨entry_isCancelled _ step _ look, List.forall_mem_cons.mpr ⟨?_, ?_⟩⟩
      · exact entry_cancelled _ step _ look
      · exact rest.passedOver_of_cancel.2.2
  | carriedOut step stop look run rest =>
      obtain rfl := Option.some.inj first
      exact .inr (congrArg Option.isSome (reports_of_run run).carriedOut)

/-- In a strict block nothing is carried out after the first failure that counts. -/
theorem strict_pairwise (h : Course e block .strict pack i t s xs t' s') :
    xs.Pairwise fun x y => x.isFailure → y.PassedOver := by
  generalize hp : BlockPolicy.strict = policy at h
  induction h with
  | nil => exact .nil
  | stopped step stop rest ih =>
      refine .cons (fun y _ failed => ?_) ih
      rw [(entry_stopped _ step _ _).not_isFailure] at failed
      cases failed
  | cancelled step stop look rest ih =>
      refine .cons (fun y _ failed => ?_) ih
      rw [(entry_cancelled _ step _ look).not_isFailure] at failed
      cases failed
  | @carriedOut i t t' s seen next s' xs r step stop look run rest ih =>
      refine .cons (fun y hy failed => ?_) ih
      subst hp
      -- The failure stops the block, so that the entries left are those of a stopped one.
      have counted : Tally.counts .strict r = true :=
        (Tally.counts_eq (by decide) (reports_of_run run).carriedOut).trans failed
      exact (rest.passedOver_of_stop (Tally.stop_after_strict counted t step)).2.2 y hy

/-- A block that does not stop at failures and is not cancelled carries out every step. -/
theorem carriedOut_all (h : Course e block policy pack i t s xs t' s') (stop : t.stop = none)
    (lenient : policy ≠ .strict)
    (calm : policy ≠ .bestEffort → ∀ x ∈ xs, x.isCancelled = false) :
    ∀ x ∈ xs, x.CarriedOut e block policy pack ∧ x.result.isSkipped = false := by
  induction h with
  | nil => exact List.forall_mem_nil _
  | stopped step some rest ih =>
      rw [stop] at some
      cases some
  | cancelled step none look rest ih =>
      have flag := calm (Scene.ne_bestEffort_of_look look) _ List.mem_cons_self
      rw [entry_isCancelled _ step _ look] at flag
      cases flag
  | @carriedOut i t t' s seen next s' xs r step none look run rest ih =>
      have stop' := (Tally.stop_after_lenient lenient t step r).trans none
      refine List.forall_mem_cons.mpr ⟨⟨⟨seen, look, run⟩, ?_⟩, ih stop' fun hp x hx => ?_⟩
      · exact congrArg Option.isSome (reports_of_run run).carriedOut
      · exact calm hp x (List.mem_cons_of_mem _ hx)

theorem failures_eq (h : Course e block policy pack i t s xs t' s')
    (hp : policy ≠ .bestEffort) : t'.failures = t.failures + xs.countP Entry.isFailure := by
  induction h with
  | nil => rfl
  | stopped step stop rest ih =>
      rw [List.countP_cons_of_neg (by simp [(entry_stopped _ step _ _).not_isFailure]), ih]
  | cancelled step stop look rest ih =>
      rw [List.countP_cons_of_neg (by simp [(entry_cancelled _ step _ look).not_isFailure]), ih]
      rfl
  | @carriedOut i t t' s seen next s' xs r step stop look run rest ih =>
      have counts := Tally.counts_eq hp (reports_of_run run).carriedOut
      rw [ih]
      cases failed : r.isCountedFailure with
      | true =>
          have here : Entry.isFailure ⟨i, step, s, r, next⟩ = true := failed
          rw [List.countP_cons_of_pos here]
          simp only [Tally.after, counts, failed, if_true]
          omega
      | false =>
          have here : ¬ Entry.isFailure ⟨i, step, s, r, next⟩ = true := by
            rw [Entry.isFailure, failed]
            exact Bool.false_ne_true
          rw [List.countP_cons_of_neg here, Tally.after_of_not_counts (counts.trans failed)]

/-- A block is cancelled exactly if one of its steps is passed over while the flag is up. -/
theorem cancelled_iff (h : Course e block policy pack i t s xs t' s') (ht : t.Consistent) :
    t'.cancelled = true ↔ t.cancelled = true ∨ ∃ x ∈ xs, x.isCancelled = true := by
  induction h with
  | nil => simp
  | @stopped i t t' s s' xs reason step stop rest ih =>
      rw [ih ht]
      constructor
      · rintro (up | ⟨x, hx, up⟩)
        · exact .inl up
        · exact .inr ⟨x, List.mem_cons_of_mem _ hx, up⟩
      · rintro (up | ⟨x, hx, up⟩)
        · exact .inl up
        · rcases List.mem_cons.mp hx with rfl | later
          -- The flag may be up by now, but the step is passed over for the reason that stopped the block.
          · simp [Entry.isCancelled, StepResult.passedOver, StepResult.plain,
              ActionResult.passedOver] at up
            exact .inl (ht.mpr (up.2 ▸ stop))
          · exact .inr ⟨x, later, up⟩
  | @cancelled i t t' s seen s' xs step stop look rest ih =>
      have here := entry_isCancelled i step (seen.cancelBefore t step) look
      refine ⟨fun _ => .inr ⟨_, List.mem_cons_self, here⟩, fun _ => ?_⟩
      rw [rest.passedOver_of_cancel.1]
      rfl
  | @carriedOut i t t' s seen next s' xs r step stop look run rest ih =>
      rw [ih (ht.after policy step r stop), Tally.cancelled_after]
      simp [entry_not_isCancelled _ step _ _ (reports_of_run run).toSettled]

theorem bestEffort_calm (h : Course e block .bestEffort pack i t s xs t' s')
    (ht : t.cancelled = false) : t'.cancelled = false := by
  generalize hp : BlockPolicy.bestEffort = policy at h
  induction h with
  | nil => exact ht
  | stopped step stop rest ih => exact ih ht
  | cancelled step stop look rest ih =>
      subst hp
      cases look
  | carriedOut step stop look run rest ih => exact ih ((Tally.cancelled_after _ _ _ _).trans ht)

/-- Unless it is cancelled, a course leaves the root cause alone, whatever fails in it. -/
theorem lastError_of_calm (h : Course e block policy pack i t s xs t' s')
    (calm : t'.cancelled = false) : s'.context.lastError = s.context.lastError := by
  induction h with
  | nil => rfl
  | stopped step stop rest ih => exact ih calm
  | cancelled step stop look rest ih =>
      rw [rest.passedOver_of_cancel.1] at calm
      cases calm
  | carriedOut step stop look run rest ih =>
      rw [ih calm]
      exact lastError_of_run look run

theorem first_of_calm (h : Course e block policy pack i t s xs t' s') (hp : policy ≠ .bestEffort)
    (calm : t'.cancelled = false) : t'.first = t.first.or (Entry.failureIn xs) := by
  induction h with
  | nil => simp [Entry.failureIn]
  | stopped step stop rest ih =>
      rw [Entry.failureIn_cons_of_not (entry_stopped _ step _ _).not_isFailure]
      exact ih calm
  | cancelled step stop look rest ih =>
      rw [rest.passedOver_of_cancel.1] at calm
      cases calm
  | @carriedOut i t t' s seen next s' xs r step stop look run rest ih =>
      rw [ih calm]
      exact Tally.first_after_or hp (reports_of_run run).toSettled t step xs

/-- A course that is cancelled has recorded its first failure, or else the cancellation. -/
theorem lastError_of_cancelled (h : Course e block policy pack i t s xs t' s')
    (ht : t.cancelled = false) (up : t'.cancelled = true) :
    t'.first = none ∧ s'.context.lastError =
      (s.context.lastError.or (t.first.or (Entry.failureIn xs))).or (Entry.cancellationIn xs) := by
  induction h with
  | nil =>
      rw [ht] at up
      cases up
  | stopped step stop rest ih =>
      -- A block that stopped for another reason does not look at the flag any more.
      rw [(rest.passedOver_of_stop stop).1, ht] at up
      cases up
  | @cancelled i t t' s seen s' xs step stop look rest ih =>
      obtain ⟨ended, same, passed⟩ := rest.passedOver_of_cancel
      have kept := s.look_context policy
      rw [look] at kept
      have none := Entry.failureIn_eq_none (List.forall_mem_cons.mpr
        ⟨(entry_cancelled i step t look).not_isFailure, fun x hx => (passed x hx).not_isFailure⟩)
      have here := entry_isCancelled i step (seen.cancelBefore t step) look
      refine ⟨by rw [ended]; rfl, ?_⟩
      rw [same, none, Option.or_none, Entry.cancellationIn_cons here, Scene.cancelBefore,
        Context.lastError_recordRootCause, Context.lastError_recordFirst,
        show seen.context = s.context from kept]
  | @carriedOut i t t' s seen next s' xs r step stop look run rest ih =>
      have settled := (reports_of_run run).toSettled
      obtain ⟨first, cause⟩ := ih ((Tally.cancelled_after policy t step r).trans ht) up
      have calm := entry_not_isCancelled i step s next settled
      -- Since the block is cancelled further on, its policy is one that looks at the flag.
      have hp : policy ≠ .bestEffort := by
        rintro rfl
        rw [rest.bestEffort_calm ((Tally.cancelled_after _ t step r).trans ht)] at up
        cases up
      refine ⟨first, ?_⟩
      rw [cause, lastError_of_run look run, Entry.cancellationIn_cons_of_not calm,
        Tally.first_after_or hp settled t step xs]

end Course
end Engine
end Journey
