import Journey.Compile
import Journey.Proofs.Dict
import Journey.Proofs.Run.Turn

/-!
What a failed step leaves in the context. An attempt writes a value only where it succeeds, and then
one at most, so that a failed action leaves the values as they were. A composite step is not undone:
after it has failed, the values hold what its actions wrote before one of them failed.
-/

namespace Journey

variable {β μ σ κ : Type}

namespace Engine

/-- The actions under the keyword store a value in the context. -/
def stores (e : Engine β μ) (keyword : String) : Bool :=
  (e.registry.find? keyword).any fun spec => spec.kind = .atomic .ctxSet

/-- The action has stored a value. -/
def stored (e : Engine β μ) (r : ActionResult) : Bool := r.success && e.stores r.keyword

variable (e : Engine β μ)

theorem keeps_data_locate (spec : ActionSpec) (pack target : Option String) :
    (e.locate spec pack target).Keeps fun n => n.context.data :=
  keeps_locate (g := Context.data) (fun _ _ => rfl) e spec pack target

theorem keeps_data_dispatch {spec : ActionSpec} (other : spec.kind ≠ .atomic .ctxSet)
    (input : ActionInput) : (e.dispatch spec input).Keeps fun n => n.context.data := by
  simp only [dispatch]
  split
  case h_1 primitive kind =>
    have plain : primitive ≠ .ctxSet := fun same => other (same ▸ kind)
    exact ((Primitive.silent_perform plain input).keeps Context.data).within fun _ _ same => same
  case h_2 => exact fun n => (Dialogue.keeps_const () _).within fun _ _ _ => rfl

/-- An attempt at an action that does not store leaves the values alone. -/
theorem keeps_data_attempt {call : ActionCall} (other : e.stores call.keyword = false)
    (pack : Option String) (limit : Nat) :
    (e.attempt call pack limit).Keeps fun n => n.context.data := by
  simp only [attempt]
  split
  case h_1 => trivial
  case h_2 spec found =>
    have plain : spec.kind ≠ .atomic .ctxSet := by simpa [stores, found] using other
    intro n
    dsimp only
    split
    · trivial
    · refine (e.keeps_data_locate spec pack _).bind ?_
      rintro (error | handle)
      · trivial
      · exact e.keeps_data_dispatch plain _

/-- Storing writes one value if it succeeds, and none if it fails. -/
theorem dispatch_writes {spec : ActionSpec} (kind : spec.kind = .atomic .ctxSet)
    (input : ActionInput) (deadline : Option Nat) (w : World β) (n : Notes μ) :
    ∃ outcome notes, (e.dispatch spec input).run e.browser deadline w n = ⟨some outcome, w, notes⟩ ∧
      Dict.Writes (if outcome.isOk then 1 else 0) n.context.data notes.context.data := by
  have store : e.dispatch spec input =
      (Primitive.store input).within Notes.context Notes.setContext := by
    rw [dispatch, kind]
    rfl
  rw [store, Primitive.store]
  cases input.paramText "key" with
  | error error => exact ⟨.error error, n, rfl, .refl _⟩
  | ok key =>
      cases input.param "value" with
      | error error => exact ⟨.error error, n, rfl, .refl _⟩
      | ok value => exact ⟨.ok [], _, rfl, .insert key value _⟩

theorem runAttempt_writes (call : ActionCall) (pack : Option String) (limit : Nat)
    (scene : Scene β μ) :
    Dict.Writes (if (e.runAttempt call pack limit scene).1.outcome.isOk && e.stores call.keyword
        then 1 else 0) scene.context.data (e.runAttempt call pack limit scene).2.context.data := by
  cases storing : e.stores call.keyword with
  | false =>
      have kept : (e.runAttempt call pack limit scene).2.context.data = scene.context.data :=
        (e.keeps_data_attempt storing pack limit).run _ _ _ _
      rw [Bool.and_false, kept]
      exact .refl _
  | true =>
      obtain ⟨spec, found, kind⟩ : ∃ spec, e.registry.find? call.keyword = some spec ∧
          spec.kind = .atomic .ctxSet := by simpa [stores, Option.any_eq_true] using storing
      simp only [runAttempt, attempt, found, Dialogue.run, Bool.and_true]
      cases e.resolveCall call scene.context with
      | error error => exact .refl _
      | ok resolved =>
          obtain ⟨params, target⟩ := resolved
          dsimp only
          -- The target comes first, and finding it leaves the values alone.
          rw [Dialogue.run_bind]
          have kept := (e.keeps_data_locate spec pack target).run e.browser
            (some (scene.world.now + limit)) scene.world ⟨scene.context, scene.memory, none, []⟩
          generalize (e.locate spec pack target).run e.browser (some (scene.world.now + limit))
            scene.world ⟨scene.context, scene.memory, none, []⟩ = ending at kept ⊢
          obtain ⟨_ | _ | handle, w, n⟩ := ending <;> dsimp only at kept ⊢ <;> rw [← kept]
          · exact .refl _
          · exact .refl _
          · obtain ⟨outcome, notes, run, writes⟩ := e.dispatch_writes kind
              ⟨call.keyword, handle, params, limit, e.poll⟩ (some (scene.world.now + limit)) w n
            simp only [run]
            exact writes

theorem attemptReport_success (step : Step) (number : Nat) (r : AttemptResult) :
    (attemptReport step number r).success = r.outcome.isOk := by
  rw [attemptReport]
  cases r.outcome <;> rfl

theorem attemptFrom_writes (step : Step) (call : ActionCall) (pack : Option String)
    (limit spare number : Nat) (scene : Scene β μ) :
    Dict.Writes (if (e.attemptFrom step call pack limit spare number scene).1.success &&
        e.stores call.keyword then 1 else 0)
      scene.context.data (e.attemptFrom step call pack limit spare number scene).2.context.data := by
  have first := e.runAttempt_writes call pack limit scene
  induction spare generalizing number scene with
  | zero =>
      simp only [attemptFrom, attemptReport_success]
      exact first
  | succ spare ih =>
      simp only [attemptFrom]
      split
      case isTrue again =>
        -- Only a failed attempt is made again, and it has written nothing.
        have failed : (e.runAttempt call pack limit scene).1.outcome.isOk = false := by
          rw [triesAgain] at again
          cases outcome : (e.runAttempt call pack limit scene).1.outcome with
          | error error => rfl
          | ok outputs =>
              rw [outcome] at again
              cases again
        rw [failed] at first
        rw [← first.eq_of_zero]
        exact ih _ _ (e.runAttempt_writes call pack limit _)
      case isFalse =>
        rw [attemptReport_success]
        exact first

theorem carryOut_writes (step : Step) (call : ActionCall) (pack : Option String)
    (scene : Scene β μ) :
    Dict.Writes (if (e.carryOut step call pack scene).1.success && e.stores call.keyword
        then 1 else 0) scene.context.data (e.carryOut step call pack scene).2.context.data := by
  rw [carryOut]
  split
  · exact .refl _
  · exact e.attemptFrom_writes step call pack _ _ _ scene

theorem countP_stored_passOver (step : Step) (total : Nat) (composite : Params) (reason : String)
    (index : Nat) (actions : List ExpandedStep) :
    (passOver step total composite reason index actions).countP e.stored = 0 := by
  induction actions generalizing index with
  | nil => rfl
  | cons child rest ih =>
      rw [passOver, List.countP_cons_of_neg, ih]
      exact Bool.false_ne_true

/-- The actions of a composite step write one value for each of them that stores and succeeds. -/
theorem carryOutAll_writes (step : Step) (pack : Option String) (total : Nat) (composite : Params)
    (index : Nat) (actions : List ExpandedStep) (scene : Scene β μ) :
    Dict.Writes ((e.carryOutAll step pack total composite index actions scene).1.countP e.stored)
      scene.context.data
      (e.carryOutAll step pack total composite index actions scene).2.context.data := by
  induction actions generalizing index scene with
  | nil => exact .refl _
  | cons child rest ih =>
      have first := e.carryOut_writes step (child.call composite) pack scene
      simp only [carryOutAll]
      split
      · rw [List.countP_cons, Nat.add_comm]
        exact first.trans (ih _ _)
      · rw [List.countP_cons, countP_stored_passOver, Nat.zero_add]
        exact first

theorem carryOutComposite_writes (step : Step) (pack : Option String) (scene : Scene β μ) :
    Dict.Writes ((e.carryOutComposite step pack scene).1.children.countP e.stored)
      scene.context.data (e.carryOutComposite step pack scene).2.context.data := by
  simp only [carryOutComposite]
  split
  · exact .refl _
  · split
    · exact .refl _
    · exact e.carryOutAll_writes step pack _ _ _ _ scene

end Engine

/-- What a failed step leaves: a composite step the values that its actions stored before one of them
failed, and any other step nothing. -/
structure Entry.Residue (e : Engine β μ) (x : Entry β μ) : Prop where
  plain : x.step.kind ≠ .semantic → x.after.context.data = x.before.context.data
  composite : Dict.Writes (x.result.children.countP e.stored)
    x.before.context.data x.after.context.data

namespace Engine

variable {e : Engine β μ}

theorem carryOutStep_residue {step : Step} {pack : Option String} {scene : Scene β μ}
    (failed : (e.carryOutStep step pack scene).1.success = false) :
    Dict.Writes ((e.carryOutStep step pack scene).1.children.countP e.stored)
      scene.context.data (e.carryOutStep step pack scene).2.context.data ∧
      (step.kind ≠ .semantic →
        (e.carryOutStep step pack scene).2.context.data = scene.context.data) := by
  have plain (lost : (e.carryOut step step.call pack scene).1.success = false) :
      (e.carryOut step step.call pack scene).2.context.data = scene.context.data := by
    have writes := e.carryOut_writes step step.call pack scene
    rw [lost] at writes
    exact writes.eq_of_zero
  rw [carryOutStep] at failed ⊢
  cases kind : step.kind with
  | semantic => exact ⟨e.carryOutComposite_writes step pack scene, fun other => absurd rfl other⟩
  | atomic | plugin _ =>
      rw [kind] at failed
      refine ⟨?_, fun _ => plain failed⟩
      dsimp only
      rw [plain failed]
      exact .refl _

theorem gather_children (step : Step) (r : StepResult) (scene : Scene β μ) :
    (e.gather step r scene).1.children = r.children := by
  simp only [gather]
  split <;> rfl

theorem executeStep_residue {step : Step} {pack : Option String} {scene : Scene β μ}
    (failed : (e.executeStep step pack scene).1.success = false) :
    Dict.Writes ((e.executeStep step pack scene).1.children.countP e.stored)
      scene.context.data (e.executeStep step pack scene).2.context.data ∧
      (step.kind ≠ .semantic →
        (e.executeStep step pack scene).2.context.data = scene.context.data) := by
  simp only [executeStep] at failed ⊢
  split at failed
  case isTrue good =>
    rw [good] at failed
    cases failed
  case isFalse lost =>
    rw [gather_success] at failed
    rw [if_neg lost, gather_children, gather_context]
    exact carryOutStep_residue failed

end Engine

namespace Entry

variable {e : Engine β μ} {x : Entry β μ}

theorem CarriedOut.residue {block : String} {policy : BlockPolicy} {pack : Option String}
    (h : x.CarriedOut e block policy pack) (failed : x.result.success = false) : x.Residue e := by
  obtain ⟨scene, look, run⟩ := h
  have same : (scene.atStep block x.index).context.data = x.before.context.data := by
    have kept := congrArg Context.data (x.before.look_context policy)
    rw [look] at kept
    exact kept
  have residue (lost : (e.executeStep x.step pack (scene.atStep block x.index)).1.success = false) :=
    Engine.executeStep_residue lost
  rw [run, same] at residue
  obtain ⟨composite, plain⟩ := residue failed
  exact ⟨plain, composite⟩

theorem PassedOver.residue (h : x.PassedOver) : x.Residue e := by
  have same : x.after.context.data = x.before.context.data :=
    (congrArg Context.data h.context : _)
  obtain ⟨reason, passed⟩ := h.result
  refine ⟨fun _ => same, ?_⟩
  rw [passed, same]
  exact .refl _

end Entry

namespace Record

variable {e : Engine β μ} {w : Workflow} {r : WorkflowResult} {c : Record β μ}

theorem Tells.residue {s s' : Scene β μ} (h : c.Tells e w r s s') :
    ∀ x ∈ c.entries, x.result.success = false → x.Residue e := by
  intro x mem failed
  rcases h.each_entry x mem with ⟨block, policy, held⟩ | passed
  · exact held.residue failed
  · exact passed.residue

end Record

namespace Engine

/-- Every failed step of a run leaves the values as they were, but for what the actions of a composite
step stored before one of them failed. -/
theorem run_residue {e : Engine β μ} {w : Workflow} {r : WorkflowResult} {world world' : World β}
    {memory memory' : μ} (run : e.run w world memory = (.ok r, world', memory')) :
    ∃ c : Record β μ, c.TellsRun e w r world memory world' memory' ∧
      ∀ x ∈ c.entries, x.result.success = false → x.Residue e := by
  obtain ⟨s, c, b, next, last, s', fresh, tells, account⟩ := run_account run
  exact ⟨c, tells, account.tells.residue⟩

/-- An engine with a composite action whose first action stores and whose second one fails. -/
def halving : Engine Rehearsal Unit :=
  { bare with
    registry := .builtin
    expander := ⟨.builtin, [("half", fun _ _ => .ok [
      ⟨"ctx.set", none, [("key", .str "k"), ("value", .str "v")]⟩,
      ⟨"assert.equals", none, [("actual", .int 1), ("expected", .int 2)]⟩])]⟩ }

def halves : String := "workflow: w\nphase: one\ndo half\nend phase\nend workflow"

def halves.phase : Phase :=
  ⟨"one", none, none, [⟨.semantic, "half", [], none, none, none, none, false, [], ⟨"page.flow", 3⟩⟩],
    ⟨"page.flow", 2⟩⟩

theorem compileAll_halves : ∃ w,
    (⟨.empty, none, false⟩ : Compiler).compileAll halves "page.flow" = .ok [w] ∧
      halving.prepare w = .ok .empty ∧ w.setup = [] ∧ w.phases = [halves.phase] ∧
      (halving.run w Scene.blank.world ()).1.toOption.map (fun r => r.phases.map fun p =>
        p.steps.map fun x => (x.success, x.children.countP halving.stored)) = some [[(false, 1)]] := by
  have one : ((⟨.empty, none, false⟩ : Compiler).compileAll halves "page.flow").toOption.map
      (List.map fun w => (w.locatorPack, w.vars, w.setup, w.phases)) =
        some [(none, [], [], [halves.phase])] := rfl
  obtain ⟨w, compiled, same⟩ := Except.ok_of_toOption_singleton one
  simp only [Prod.mk.injEq] at same
  obtain ⟨pack, vars, setup, phases⟩ := same
  refine ⟨w, compiled, ?_⟩
  cases w
  subst pack vars setup phases
  exact ⟨rfl, rfl, rfl, rfl⟩

theorem run_halves_kept : ∃ w r world' memory' c,
    (⟨.empty, none, false⟩ : Compiler).compileAll halves "page.flow" = .ok [w] ∧
      halving.run w Scene.blank.world () = (.ok r, world', memory') ∧
      Record.TellsRun halving w r Scene.blank.world () world' memory' c ∧
      ∀ x ∈ c.entries, x.result.success = false → x.Residue halving := by
  obtain ⟨w, compiled, prepared, -⟩ := compileAll_halves
  obtain ⟨r, world', memory', -, run, -⟩ := run_of_prepare prepared Scene.blank.world ()
  obtain ⟨c, tells, residue⟩ := run_residue run
  exact ⟨w, r, world', memory', c, compiled, run, tells, residue⟩

/-- The composite step fails, and what its first action stored is still there. -/
theorem run_halves_left : ∃ w r world' memory' c,
    (⟨.empty, none, false⟩ : Compiler).compileAll halves "page.flow" = .ok [w] ∧
      halving.run w Scene.blank.world () = (.ok r, world', memory') ∧
      Record.TellsRun halving w r Scene.blank.world () world' memory' c ∧
      ∃ x ∈ c.entries, x.step.kind = .semantic ∧ x.result.success = false ∧
        x.after.context.data ≠ x.before.context.data := by
  obtain ⟨w, compiled, prepared, setup, phases, outcome⟩ := compileAll_halves
  obtain ⟨r, world', memory', c, run, tells, first⟩ := run_of_prepare prepared Scene.blank.world ()
  refine ⟨w, r, world', memory', c, compiled, run, tells, ?_⟩
  obtain ⟨context, last, -, told, -⟩ := tells
  -- The record has one entry, that of the composite step.
  obtain ⟨p, only, declared⟩ := List.map_eq_singleton_iff.mp (told.declared.trans phases)
  have tell := (told.phases p (by simp [only])).tell
  rw [declared] at tell
  obtain ⟨x, steps, half⟩ := List.map_eq_singleton_iff.mp tell.steps
  have empty : c.setup = [] := by rw [← List.map_eq_nil_iff, told.setup.steps, setup]
  have mem : x ∈ c.entries := by simp [Record.entries, only, steps]
  have fresh : x.before.context.data = [] := first x (by simp [Record.entries, empty, only, steps])
  -- It has failed with one action that stored.
  rw [run] at outcome
  have shown : r.phases.map (fun p => p.steps.map fun x =>
      (x.success, x.children.countP halving.stored)) = [[(false, 1)]] := Option.some.inj outcome
  rw [← told.shown, only, List.map_singleton, List.map_singleton, ← tell.results, steps] at shown
  simp only [List.map_cons, List.map_nil, List.cons.injEq, Prod.mk.injEq, and_true] at shown
  obtain ⟨failed, stored⟩ := shown
  obtain ⟨new, one, written⟩ := (told.residue x mem failed).composite
  obtain ⟨entry, rfl⟩ := List.length_eq_one_iff.mp (one.trans stored)
  refine ⟨x, mem, congrArg Step.kind half, failed, ?_⟩
  rw [written, fresh]
  exact List.cons_ne_nil _ _

end Engine
end Journey
