import Journey.Proofs.Except
import Journey.Proofs.Run.Phases
import Journey.Rehearsal

/-!
The record of a whole run: what became of each step of setup, phases, recovery and teardown, with the
world going through all of them from the start of the run to its end. Every run that gives a result
has such a record. What policy and root cause make of it are separate theorems.
-/

namespace Journey

variable {β μ : Type}

structure Record (β μ : Type) where
  setup : List (Entry β μ)
  phases : List (Chapter β μ)
  recovery : List (Entry β μ)
  teardown : List (Entry β μ)

/-- A block that is carried out to its end, whatever fails in it and whatever the flag. -/
structure Entry.BestEffort (e : Engine β μ) (block : String) (pack : Option String)
    (declared : List Step) (shown : List StepResult) (xs : List (Entry β μ)) : Prop where
  tell : Entry.Tell declared shown xs
  all : ∀ x ∈ xs, x.CarriedOut e block .bestEffort pack

namespace Record

def entries (c : Record β μ) : List (Entry β μ) :=
  c.setup ++ c.phases.flatMap Chapter.entries ++ (c.recovery ++ c.teardown)

/-- The record tells how the run of a workflow went from one scene to another. -/
structure Tells (e : Engine β μ) (w : Workflow) (r : WorkflowResult) (s s' : Scene β μ)
    (c : Record β μ) : Prop where
  linked : Entry.Linked s c.entries s'
  setup : Entry.Tell w.setup r.setup c.setup
  each : ∀ x ∈ c.setup, x.CarriedOut e "setup" .strict w.locatorPack ∨ x.PassedOver
  declared : c.phases.map Chapter.phase = w.phases
  shown : c.phases.map Chapter.result = r.phases
  phases : ∀ p ∈ c.phases, p.Tells e w.locatorPack
  recovery : r.success = false →
    Entry.BestEffort e "recovery" w.locatorPack w.recovery r.recovery c.recovery
  noRecovery : r.success = true → r.recovery = [] ∧ c.recovery = []
  teardown : Entry.BestEffort e "teardown" w.locatorPack w.teardown r.teardown c.teardown

/-- The record tells how a run went, from the context that was prepared for it. -/
def TellsRun (e : Engine β μ) (w : Workflow) (r : WorkflowResult) (world : World β) (memory : μ)
    (world' : World β) (memory' : μ) (c : Record β μ) : Prop :=
  ∃ context s', e.prepare w = .ok context ∧ c.Tells e w r ⟨world, context, memory⟩ s' ∧
    s'.world = world' ∧ s'.memory = memory'

/-- No step of the setup failed for good, and none was held back by the flag. -/
def SetupSucceeded (c : Record β μ) : Prop :=
  ∀ x ∈ c.setup, x.isFailure = false ∧ x.isCancelled = false

end Record

namespace Engine

variable {e : Engine β μ}

/-- How the blocks of a workflow come to its result: the setup with its result `b`, the phases from
scene `next` to scene `last`, and what is carried out after them. -/
structure Account (e : Engine β μ) (w : Workflow) (s : Scene β μ) (b : BlockResult)
    (next last : Scene β μ) (r : WorkflowResult) (s' : Scene β μ) (c : Record β μ) : Prop where
  setup : BlockRun e "setup" .strict w.locatorPack w.setup c.setup b
  setupShown : r.setup = b.steps
  setupLinked : Entry.Linked s c.setup next
  setupCause : next.context.lastError = if b.success then s.context.lastError
    else s.context.lastError.or (Entry.causeIn c.setup)
  passage : e.Passage (e.continuesPast w) w.locatorPack (!b.success) next c.phases last
  declared : c.phases.map Chapter.phase = w.phases
  shown : c.phases.map Chapter.result = r.phases
  outcome : r.success = !(!b.success || r.phases.any fun p => !p.skipped && !p.success)
  recovery : r.success = false →
    Entry.BestEffort e "recovery" w.locatorPack w.recovery r.recovery c.recovery
  noRecovery : r.success = true → r.recovery = [] ∧ c.recovery = []
  teardown : Entry.BestEffort e "teardown" w.locatorPack w.teardown r.teardown c.teardown
  restLinked : Entry.Linked last (c.recovery ++ c.teardown) s'
  rootCause : r.rootCause = if r.success then none else last.context.lastError

theorem runBlock_bestEffort {block : String} {pack : Option String} {steps : List Step}
    {s s' : Scene β μ} {r : BlockResult} (run : e.runBlock block .bestEffort pack steps s = (r, s')) :
    ∃ xs, Entry.BestEffort e block pack steps r.steps xs ∧ Entry.Linked s xs s' ∧
      s'.context.lastError = s.context.lastError := by
  obtain ⟨xs, block, linked, cause⟩ := e.runBlock_run block .bestEffort pack steps s run
  rw [block.bestEffort rfl] at cause
  refine ⟨xs, ⟨block.tell, fun x hx => ?_⟩, linked, cause⟩
  exact (block.lenient (by decide) (fun hp => absurd rfl hp) x hx).1

theorem runBlocks_account {w : Workflow} {s s' : Scene β μ} {r : WorkflowResult}
    (run : e.runBlocks w s = (r, s')) : ∃ c b next last, e.Account w s b next last r s' c := by
  rcases hb : e.runBlock "setup" .strict w.locatorPack w.setup s with ⟨b, next⟩
  obtain ⟨xs, setup, setupLinked, setupCause⟩ := e.runBlock_run _ _ _ _ _ hb
  obtain ⟨cs, passage, declared, shown⟩ :=
    e.runPhases_passage (e.continuesPast w) w.locatorPack (!b.success) w.phases next
  rcases hp : e.runPhases (e.continuesPast w) w.locatorPack (!b.success) w.phases next with
    ⟨phases, last⟩
  rw [hp] at passage shown
  simp only [runBlocks, hb, hp] at run
  -- Recovery is there after a failure only; neither it nor the teardown records a root cause.
  cases failed : !b.success || phases.any fun p => !p.skipped && !p.success with
  | true =>
      rcases hr : e.runBlock "recovery" .bestEffort w.locatorPack w.recovery last with ⟨rb, mid⟩
      rcases ht : e.runBlock "teardown" .bestEffort w.locatorPack w.teardown mid with ⟨tb, final⟩
      obtain ⟨ys, recovery, recoveryLinked, recoveryCause⟩ := runBlock_bestEffort hr
      obtain ⟨zs, teardown, teardownLinked, teardownCause⟩ := runBlock_bestEffort ht
      simp only [failed, hr, ht, if_true, Bool.not_true, Prod.mk.injEq] at run
      obtain ⟨rfl, rfl⟩ := run
      exact ⟨⟨xs, cs, ys, zs⟩, b, next, last, {
        setup, setupLinked, setupCause, passage, declared, shown, teardown
        setupShown := rfl
        outcome := by simp [failed]
        recovery := fun _ => recovery
        noRecovery := fun good => by cases good
        restLinked := recoveryLinked.append teardownLinked
        rootCause := teardownCause.trans recoveryCause }⟩
  | false =>
      rcases ht : e.runBlock "teardown" .bestEffort w.locatorPack w.teardown last with ⟨tb, final⟩
      obtain ⟨zs, teardown, teardownLinked, _⟩ := runBlock_bestEffort ht
      simp only [failed, ht, Bool.false_eq_true, if_false, Bool.not_false, Prod.mk.injEq] at run
      obtain ⟨rfl, rfl⟩ := run
      exact ⟨⟨xs, cs, [], zs⟩, b, next, last, {
        setup, setupLinked, setupCause, passage, declared, shown, teardown
        setupShown := rfl
        outcome := by simp [failed]
        recovery := fun lost => by cases lost
        noRecovery := fun _ => ⟨rfl, rfl⟩
        restLinked := teardownLinked
        rootCause := rfl }⟩

namespace Account

variable {w : Workflow} {s s' next last : Scene β μ} {b : BlockResult} {r : WorkflowResult}
  {c : Record β μ}

theorem tells (h : e.Account w s b next last r s' c) : c.Tells e w r s s' where
  linked := (h.setupLinked.append h.passage.linked).append h.restLinked
  setup := h.setupShown ▸ h.setup.tell
  each := h.setup.each
  declared := h.declared
  shown := h.shown
  phases := h.passage.tells
  recovery := h.recovery
  noRecovery := h.noRecovery
  teardown := h.teardown

theorem setup_success (h : e.Account w s b next last r s' c) :
    b.success = true ↔ c.SetupSucceeded := h.setup.success_strict

theorem success_iff (h : e.Account w s b next last r s' c) :
    r.success = true ↔ b.success = true ∧
      ∀ p ∈ c.phases, p.result.skipped = false → p.result.success = true := by
  have phases : (r.phases.any fun p => !p.skipped && !p.success) = false ↔
      ∀ p ∈ c.phases, p.result.skipped = false → p.result.success = true := by
    rw [← h.shown, List.any_map, List.any_eq_false]
    exact forall₂_congr fun p _ => by simp
  rw [h.outcome, ← phases]
  simp

theorem exists_failed (h : e.Account w s b next last r s' c) (failed : r.success = false)
    (setup : b.success = true) :
    ∃ p ∈ c.phases, p.result.skipped = false ∧ p.result.success = false := by
  have some : (r.phases.any fun p => !p.skipped && !p.success) = true := by
    have outcome := h.outcome
    rw [failed, setup] at outcome
    simpa using outcome
  rw [← h.shown, List.any_map, List.any_eq_true] at some
  obtain ⟨p, hp, lost⟩ := some
  exact ⟨p, hp, by simpa using lost⟩

end Account

theorem seed_untouched {κ : Type} {g : Context → κ}
    (hg : ∀ (c : Context) (key : String) (value : Value), g (c.set key value) = g c)
    (e : Engine β μ) {vars : List (String × Value)} {c c' : Context} (h : e.seed vars c = .ok c') : g c' = g c := by
  induction vars generalizing c with
  | nil =>
      obtain rfl := Except.ok.inj h
      rfl
  | cons entry rest ih =>
      simp only [seed] at h
      split at h
      · cases h
      · exact (ih h).trans (hg _ _ _)

theorem prepare_of_loaded {w : Workflow}
    (loaded : ∀ pack, w.locatorPack = some pack → e.resolver.hasPack pack = true) :
    e.prepare w = (e.seed w.vars .empty).mapError .expression := by
  rw [prepare]
  cases held : w.locatorPack with
  | none => rfl
  | some pack => exact if_pos (loaded pack held)

theorem prepare_seed {w : Workflow} {c : Context} (h : e.prepare w = .ok c) :
    e.seed w.vars .empty = .ok c := by
  simp only [prepare] at h
  split at h
  · split at h
    · exact Except.ok_of_mapError h
    · cases h
  · exact Except.ok_of_mapError h

theorem prepare_lastError {w : Workflow} {c : Context} (h : e.prepare w = .ok c) :
    c.lastError = none :=
  seed_untouched Context.untouched_lastError.set e (prepare_seed h)

/-- Every run that gives a result has an account, from a scene in which nothing has failed. -/
theorem run_account {w : Workflow} {world world' : World β} {memory memory' : μ}
    {r : WorkflowResult} (run : e.run w world memory = (.ok r, world', memory')) :
    ∃ s c b next last s', s.context.lastError = none ∧
      c.TellsRun e w r world memory world' memory' ∧ e.Account w s b next last r s' c := by
  simp only [Engine.run] at run
  cases prepared : e.prepare w with
  | error error =>
      rw [prepared] at run
      cases run
  | ok context =>
      rw [prepared] at run
      simp only [Prod.mk.injEq, Except.ok.injEq] at run
      obtain ⟨rfl, rfl, rfl⟩ := run
      obtain ⟨c, b, next, last, account⟩ :=
        runBlocks_account (e := e) (w := w) (s := ⟨world, context, memory⟩) rfl
      exact ⟨_, c, b, next, last, _, prepare_lastError prepared,
        ⟨context, _, prepared, account.tells, rfl, rfl⟩, account⟩

/-- A run that is prepared gives a result, and its first step begins with what has been prepared. -/
theorem run_of_prepare {w : Workflow} {context : Context} (prepared : e.prepare w = .ok context)
    (world : World β) (memory : μ) :
    ∃ r world' memory' record, e.run w world memory = (.ok r, world', memory') ∧
      Record.TellsRun e w r world memory world' memory' record ∧
      ∀ x ∈ record.entries.head?, x.before.context.data = context.data := by
  have run : e.run w world memory =
      (.ok (e.runBlocks w ⟨world, context, memory⟩).1,
        (e.runBlocks w ⟨world, context, memory⟩).2.world,
        (e.runBlocks w ⟨world, context, memory⟩).2.memory) := by
    rw [Engine.run, prepared]
  obtain ⟨-, record, -, -, -, -, -, tells, -⟩ := run_account run
  refine ⟨_, _, _, record, run, tells, fun x first => ?_⟩
  obtain ⟨context', s', prepared', told, -⟩ := tells
  obtain rfl : context = context' := Except.ok.inj (prepared.symm.trans prepared')
  obtain ⟨others, entries⟩ := List.head?_eq_some_iff.mp first
  have linked := told.linked
  rw [entries] at linked
  exact linked.1.data

/-- An engine to which nothing has been added, in front of an empty page. -/
def bare : Engine Rehearsal Unit where
  registry := .empty
  expander := .empty .empty
  resolver := .empty TimeoutPolicy.default.resolverPolicy
  browser := Rehearsal.browser
  plugins := noPlugin
  settings := .default
  template := .empty
  collector := none

end Engine

/-- Two clicks in one phase, the first under a time that no settings name, and one after them. -/
def Workflow.mistimed : Workflow :=
  let click (line : Nat) (timeout : Option String) : Step :=
    ⟨.atomic, "click", [], none, none, timeout, none, false, [], ⟨"page.flow", line⟩⟩
  ⟨"page", [], none, [], none, none, [], [⟨"open", none, none, [click 3 "forever", click 4 none],
    ⟨"page.flow", 2⟩⟩], [], [click 6 "forever"], ⟨"page.flow", 1⟩, ""⟩

def Scene.blank : Scene Rehearsal Unit := ⟨.start ⟨"", [], 0⟩, .empty, ()⟩

end Journey
