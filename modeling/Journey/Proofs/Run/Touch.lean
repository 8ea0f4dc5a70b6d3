import Journey.Proofs.Resolve.Absence
import Journey.Proofs.Run.Action
import Journey.Proofs.Run.Invocation

/-!
Calls that act on an element. In a run of built-in actions each comes right after the round in which the
search of the same attempt has accepted that element, by a declared strategy for the target of the
action: no element is kept from an earlier attempt. What the search itself asks acts on nothing, and what
a collector of evidence does when the attempts are over is its own matter.
-/

namespace Journey

variable {β μ σ α : Type}

namespace Dialogue

/-- The dialogue acts on no element, whatever it hears. -/
def HandsOff (d : Dialogue σ α) : Prop := d.Obeys (fun call => call.touched? = none) fun _ => True

end Dialogue

theorem screenshotCollector_handsOff (source : SourceRef) (label : String) :
    (screenshotCollector source label : Dialogue μ _).HandsOff := by
  refine ⟨rfl, fun outcome => ?_⟩
  cases outcome <;> trivial

namespace Attempt

/-- Right before a call on an element, its acceptance: the log ends in the round that shows, to the
search of this attempt, the element as the one match of a declared strategy for its target. -/
inductive Accepts (e : Engine β μ) (pack : Option String) (x : Attempt β μ) (handle : Handle) :
    List Exchange → Prop
  | shown {packId key : String} {locator : LocatorSpec} {tier : Tier} {strategy : Strategy}
      {earlier : List Exchange} {round : Round} (sought : x.sought? e pack = some (packId, key))
      (known : e.resolver.Knows packId key locator) (declared : (tier, strategy) ∈ locator.declared)
      (shows : round.Shows tier (.settled (.ok handle))) :
      Accepts e pack x handle (x.before.world.log ++ earlier ++ round.calls strategy)

/-- An acceptance ends in a query with exactly one match, or in a check that is answered true. -/
theorem Accepts.last {e : Engine β μ} {pack : Option String} {x : Attempt β μ} {handle : Handle}
    {log : List Exchange} (h : x.Accepts e pack handle log) : ∃ asked,
      (∃ strategy, log.getLast? = some ⟨asked, .query strategy, some (.ok (.one handle))⟩) ∨
        log.getLast? = some ⟨asked, .interactable handle, some (.ok true)⟩ := by
  obtain ⟨-, -, -, shows⟩ := h
  simp only [List.getLast?_append]
  cases shows with
  | usable => exact ⟨_, .inr rfl⟩
  | unique => exact ⟨_, .inl ⟨_, rfl⟩⟩

/-- If the call acts on an element, the attempt has accepted that right before. -/
def Justifies (e : Engine β μ) (pack : Option String) (x : Attempt β μ) (log : List Exchange)
    (y : Exchange) : Prop :=
  ∀ handle, y.call.touched? = some handle → x.Accepts e pack handle log

variable {e : Engine β μ} {pack : Option String} {x : Attempt β μ} {spec : ActionSpec}
  {input : ActionInput}

theorem searched_log (e : Engine β μ) (pack : Option String) (x : Attempt β μ) :
    ∃ calls, (x.searched e pack).log = x.before.world.log ++ calls ∧
      ∀ y ∈ calls, y.call.touched? = none := by
  simp only [searched, search?]
  cases x.sought? e pack with
  | none => exact ⟨[], (List.append_nil _).symm, List.forall_mem_nil _⟩
  | some place => exact (e.resolver.obeys_resolve place.1 place.2).log _ _ _ _

/-- The element that is handed over where a target is required has been accepted. -/
theorem accepts_of_invocation (h : x.invocation? e pack = some (spec, input))
    (required : spec.target = .required) {handle : Handle} (given : input.target = some handle) :
    x.Accepts e pack handle (x.searched e pack).log := by
  obtain ⟨params, target, -, -, -, ⟨-, bare⟩ | ⟨-, passed⟩⟩ := invocation_inv h
  · rw [bare] at given
    cases given
  · obtain ⟨search, found, due⟩ := passes_inv passed
    obtain ⟨resolved, result, same⟩ := due required
    obtain rfl := Option.some.inj (given.symm.trans same)
    obtain ⟨packId, key, sought, rfl⟩ := search_in_time found (by rw [result]; rfl)
    obtain ⟨locator, ts, known, -, ⟨declared, before, last, rfl, shows⟩, log⟩ :=
      e.resolver.resolve_accepts _ _ _ _ _ result
    have among : last.place ∈ locator.declared := declared.subset (by simp)
    have ends : (x.searched e pack).log = x.before.world.log ++
        (before.flatMap Trial.calls ++ last.earlier.flatMap (Round.calls last.strategy)) ++
          last.last.calls last.strategy := by
      rw [searched, found, Option.map_some, Option.getD_some, log]
      simp [Trial.calls]
    rw [ends]
    exact .shown sought known among shows

theorem justifies_none {y : Exchange} (h : y.call.touched? = none) (log : List Exchange) :
    x.Justifies e pack log y := by
  intro handle acts
  rw [h] at acts
  cases acts

/-- An attempt of a built-in action acts on an element only right after it has accepted it. -/
theorem extends_log (builtin : ∀ spec, e.registry.find? x.call.keyword = some spec →
      spec ∈ ActionSpec.builtins) :
    Extends (x.Justifies e pack) x.before.world.log (x.after e pack).world.log := by
  obtain ⟨calls, searched, idle⟩ := searched_log e pack x
  have search : Extends (x.Justifies e pack) x.before.world.log (x.searched e pack).log :=
    searched ▸ .of_forall fun y mem => justifies_none (idle y mem)
  refine search.trans ?_
  obtain ⟨n, -, goes⟩ := x.ending_eq e pack
  change Extends _ _ (x.ending e pack).world.log
  cases invoked : x.invocation? e pack with
  | none =>
      rw [invoked] at goes
      obtain ⟨result, ends, -⟩ := goes
      rw [ends]
      exact .refl _ _
  | some handed =>
      obtain ⟨spec, input⟩ := handed
      rw [invoked] at goes
      obtain ⟨-, -, found, -⟩ := invocation_inv invoked
      have among := builtin spec found
      obtain ⟨p, primitive⟩ := Option.isSome_iff_exists.mp (ActionSpec.builtin_primitive spec among)
      rw [goes, Engine.dispatch_run e (ActionSpec.kind_of_primitive primitive)]
      cases touches : p.touches with
      | false =>
          obtain ⟨calls, log, all⟩ := (p.obeys_perform input).log e.browser x.deadline
            (x.searched e pack) n.context
          rw [log]
          exact .of_forall fun y mem => justifies_none (all y mem touches)
      | true =>
          rcases (Primitive.touches_perform touches input).log e.browser x.deadline
            (x.searched e pack) n.context with same | ⟨handle, y, given, acts, log⟩
          · rw [same]
            exact .refl _ _
          · have required := ActionSpec.builtin_touches spec among (by simp [primitive, touches])
            rw [log]
            refine .single fun other acts' => ?_
            obtain rfl := Option.some.inj (acts.symm.trans acts')
            exact accepts_of_invocation invoked required given

end Attempt

namespace Engine

/-- The collector, if there is one, acts on no element. -/
def GathersHandsOff (e : Engine β μ) : Prop :=
  ∀ collect, e.collector = some collect → ∀ source label, (collect source label).HandsOff

theorem gathersHandsOff_screenshot {e : Engine β μ} (h : e.collector = some screenshotCollector) :
    e.GathersHandsOff := by
  intro collect collects source label
  obtain rfl := Option.some.inj (h.symm.trans collects)
  exact screenshotCollector_handsOff source label

theorem gather_log (e : Engine β μ) (step : Step) (r : StepResult) (scene : Scene β μ) :
    ∃ calls, (e.gather step r scene).2.world.log = scene.world.log ++ calls ∧
      (calls ≠ [] → e.collector.isSome = true) ∧
      (e.GathersHandsOff → ∀ y ∈ calls, y.call.touched? = none) := by
  simp only [gather]
  cases collects : e.collector with
  | none =>
      exact ⟨[], (List.append_nil _).symm, fun some => absurd rfl some, fun _ => List.forall_mem_nil _⟩
  | some collect =>
      obtain ⟨calls, grown⟩ := (collect step.source r.label).log_grows e.browser none scene.world
        scene.memory
      refine ⟨calls, grown.symm, fun _ => rfl, fun handsOff y mem => ?_⟩
      obtain ⟨calls', grown', all⟩ := (handsOff collect collects step.source r.label).log e.browser none
        scene.world scene.memory
      obtain rfl := List.append_cancel_left (grown.trans grown')
      exact all y mem

theorem storeOutputs_world (step : Step) (r : StepResult) (scene : Scene β μ) :
    (storeOutputs step r scene).world = scene.world := by
  simp only [storeOutputs]
  split <;> rfl

/-- After the attempts of a step nothing is asked, or evidence is gathered of its failure. -/
theorem executeStep_log (e : Engine β μ) (step : Step) (pack : Option String) (scene : Scene β μ) :
    ∃ calls, (e.executeStep step pack scene).2.world.log =
        (e.carryOutStep step pack scene).2.world.log ++ calls ∧
      (calls ≠ [] → e.collector.isSome = true ∧ (e.executeStep step pack scene).1.success = false) ∧
      (e.GathersHandsOff → ∀ y ∈ calls, y.call.touched? = none) := by
  simp only [executeStep]
  split
  case isTrue =>
    rw [storeOutputs_world]
    exact ⟨[], (List.append_nil _).symm, fun some => absurd rfl some, fun _ => List.forall_mem_nil _⟩
  case isFalse failed =>
    obtain ⟨calls, grown, collects, idle⟩ := e.gather_log step (e.carryOutStep step pack scene).1
      (e.carryOutStep step pack scene).2
    refine ⟨calls, grown, fun some => ⟨collects some, ?_⟩, idle⟩
    rw [e.gather_success]
    exact Bool.not_eq_true _ ▸ failed

end Engine

/-- If the call acts on an element, one of the attempts has accepted that right before, and makes the
call. -/
def Attempt.JustifiedBy (e : Engine β μ) (pack : Option String) (xs : List (Attempt β μ))
    (log : List Exchange) (y : Exchange) : Prop :=
  ∀ handle, y.call.touched? = some handle →
    ∃ x ∈ xs, x.Accepts e pack handle log ∧ log ++ [y] <+: (x.after e pack).world.log

/-- The call is made by the collector, for a step that has been carried out and has failed, when the
attempts of the step are over. -/
structure Turn.Gathers (e : Engine β μ) (pack : Option String) (x : Turn β μ) (log : List Exchange)
    (y : Exchange) : Prop where
  collects : e.collector.isSome = true
  carriedOut : x.result.isSkipped = false
  failed : x.result.success = false
  later : (e.carryOutStep x.step pack x.scene).2.world.log <+: log
  within : log ++ [y] <+: x.after.world.log

/-- If the call acts on an element, an attempt of the steps has accepted that right before, and makes the
call, unless it is made by the collector. -/
def Turn.JustifiedBy (e : Engine β μ) (pack : Option String) (xs : List (Turn β μ))
    (log : List Exchange) (y : Exchange) : Prop :=
  Attempt.JustifiedBy e pack (xs.flatMap (Turn.attempts e pack)) log y ∨
    ∃ x ∈ xs, x.Gathers e pack log y

/-- The action of the attempt is a built-in one, if it is known at all. -/
def Attempt.IsBuiltin (e : Engine β μ) (x : Attempt β μ) : Prop :=
  ∀ spec, e.registry.find? x.call.keyword = some spec → spec ∈ ActionSpec.builtins

section Run

variable {e : Engine β μ} {pack : Option String}

theorem Attempt.JustifiedBy.subset {xs ys : List (Attempt β μ)} (among : ∀ x ∈ xs, x ∈ ys)
    {log : List Exchange} {y : Exchange} (h : JustifiedBy e pack xs log y) :
    JustifiedBy e pack ys log y := by
  intro handle acts
  obtain ⟨x, mem, accepted⟩ := h handle acts
  exact ⟨x, among x mem, accepted⟩

theorem Attempt.JustifiedBy.last {xs : List (Attempt β μ)} {log before : List Exchange} {y : Exchange}
    {handle : Handle} (h : Extends (JustifiedBy e pack xs) [] log) (ends : log = before ++ [y])
    (acts : y.call.touched? = some handle) : ∃ x, Attempt.Accepts e pack x handle before := by
  obtain ⟨calls, rfl, law⟩ := h
  obtain ⟨x, -, accepted, -⟩ := law before y [] ends handle acts
  exact ⟨x, accepted⟩

theorem Attempt.justifiedBy_none {y : Exchange} (h : y.call.touched? = none)
    (xs : List (Attempt β μ)) (log : List Exchange) : JustifiedBy e pack xs log y := by
  intro handle acts
  rw [h] at acts
  cases acts

theorem Turn.JustifiedBy.subset {xs ys : List (Turn β μ)} (among : ∀ x ∈ xs, x ∈ ys)
    {log : List Exchange} {y : Exchange} (h : JustifiedBy e pack xs log y) :
    JustifiedBy e pack ys log y := by
  rcases h with accepted | ⟨x, mem, gathers⟩
  · refine .inl (accepted.subset fun a mem => ?_)
    obtain ⟨x, owner, own⟩ := List.mem_flatMap.mp mem
    exact List.mem_flatMap.mpr ⟨x, among x owner, own⟩
  · exact .inr ⟨x, among x mem, gathers⟩

theorem Attempt.Linked.extends_log {s s' : Scene β μ} {xs : List (Attempt β μ)}
    (linked : Linked e pack s xs s') (builtin : ∀ x ∈ xs, x.IsBuiltin e) :
    Extends (JustifiedBy e pack xs) s.world.log s'.world.log := by
  induction xs generalizing s with
  | nil =>
      obtain ⟨ms, rfl⟩ := linked
      exact .refl _ _
  | cons x xs ih =>
      obtain ⟨⟨ms, waited⟩, rest⟩ := linked
      obtain ⟨here, later⟩ := List.forall_mem_cons.mp builtin
      have acted : Extends (x.Justifies e pack) x.before.world.log (x.after e pack).world.log :=
        Attempt.extends_log here
      have first := acted.within
      rw [waited] at first
      have own : Extends (JustifiedBy e pack (x :: xs)) s.world.log (x.after e pack).world.log :=
        first.mono fun log y law handle acts => ⟨x, List.mem_cons_self, law.1 handle acts, law.2⟩
      exact own.trans ((ih rest later).mono fun log y law =>
        law.subset fun z mem => List.mem_cons_of_mem _ mem)

theorem Scene.look_log (s : Scene β μ) (policy : BlockPolicy) :
    (s.look policy).2.world.log = s.world.log := by
  simp only [Scene.look]
  split
  · rfl
  · exact congrArg List.reverse s.world.look_history

/-- When a step has been carried out, its attempts are over, and only the collector has been at work. -/
theorem Turn.extends_gathered {x : Turn β μ} (run : e.executeStep x.step pack x.scene = (x.result, x.after)) :
    Extends (x.Gathers e pack) (e.carryOutStep x.step pack x.scene).2.world.log x.after.world.log := by
  have shown : x.result.isSkipped = false :=
    congrArg Option.isSome (Engine.reports_of_run run).carriedOut
  obtain ⟨calls, log, collects, -⟩ := e.executeStep_log x.step pack x.scene
  rw [run] at log collects
  dsimp only at log collects
  rw [log]
  cases calls with
  | nil =>
      rw [List.append_nil]
      exact .refl _ _
  | cons y more =>
      obtain ⟨some, failed⟩ := collects (List.cons_ne_nil y more)
      exact (Extends.grown _ _).mono fun _ _ law => ⟨some, shown, failed, law.1, log ▸ law.2⟩

/-- A collector that acts on nothing makes no call on an element. -/
theorem Turn.Gathers.idle {x : Turn β μ} {log : List Exchange} {y : Exchange}
    (h : x.Gathers e pack log y) (taken : x.Taken e pack) (handsOff : e.GathersHandsOff) :
    y.call.touched? = none := by
  rcases taken with held | passed
  · obtain ⟨calls, grown, -, all⟩ := e.executeStep_log x.step pack x.scene
    rw [Turn.run_of_carriedOut held] at grown
    obtain ⟨between, rfl⟩ := h.later
    have within := h.within
    rw [show x.after.world.log = _ from grown, List.append_assoc, List.prefix_append_right_inj] at within
    exact all handsOff y (within.subset (by simp))
  · exact absurd passed.skipped (by simp [h.carriedOut])

theorem Turn.Taken.extends_log {x : Turn β μ} (h : x.Taken e pack)
    (builtin : ∀ y ∈ x.attempts e pack, y.IsBuiltin e) :
    Extends (Turn.JustifiedBy e pack [x]) x.before.world.log x.after.world.log := by
  rcases h with held | passed
  · have run := Turn.run_of_carriedOut held
    have shown : x.result.isSkipped = false :=
      congrArg Option.isSome (Engine.reports_of_run run).carriedOut
    have made : x.attempts e pack = e.attemptsOfStep x.step pack x.scene := by
      rw [Turn.attempts, shown]
      rfl
    rw [made] at builtin
    have acted := (e.attemptsOfStep_linked x.step pack x.scene).extends_log builtin
    rw [show x.scene.world.log = x.before.world.log from x.before.look_log x.policy] at acted
    refine (acted.mono fun log y law => .inl ?_).trans
      ((Turn.extends_gathered run).mono fun log y law => .inr ⟨x, List.mem_cons_self, law⟩)
    rwa [List.flatMap_singleton, made]
  · rw [show x.after.world.log = x.before.world.log from congrArg List.reverse passed.history]
    exact .refl _ _

theorem Turn.extends_of_linked {s s' : Scene β μ} {xs : List (Turn β μ)}
    (linked : Entry.Linked s (xs.map Turn.toEntry) s') (taken : ∀ x ∈ xs, x.Taken e pack)
    (builtin : ∀ x ∈ xs, ∀ y ∈ x.attempts e pack, y.IsBuiltin e) :
    Extends (Turn.JustifiedBy e pack xs) s.world.log s'.world.log := by
  induction xs generalizing s with
  | nil =>
      rw [show s'.world = s.world from linked.world]
      exact .refl _ _
  | cons x xs ih =>
      obtain ⟨here, later⟩ := List.forall_mem_cons.mp taken
      obtain ⟨own, others⟩ := List.forall_mem_cons.mp builtin
      have first := here.extends_log own
      rw [show x.before.world = s.world from linked.1.world] at first
      have rest := ih linked.2 later others
      exact (first.mono fun log y law => law.subset (by simp)).trans
        (rest.mono fun log y law => law.subset fun z mem => List.mem_cons_of_mem _ mem)

end Run

namespace Engine

/-- In a run of built-in actions, every call that acts on an element comes right after the acceptance of
that element, in the same attempt, for the target of the action, unless the collector makes it when the
attempts of a failed step are over. A collector that acts on no element makes none. -/
theorem run_touches {e : Engine β μ} {w : Workflow} {r : WorkflowResult} {world world' : World β}
    {memory memory' : μ} (run : e.run w world memory = (.ok r, world', memory')) :
    ∃ c : Record β μ, c.TellsRun e w r world memory world' memory' ∧
      ((∀ turn ∈ c.turns e, ∀ x ∈ turn.attempts e w.locatorPack, x.IsBuiltin e) →
        Extends (Turn.JustifiedBy e w.locatorPack (c.turns e)) world.log world'.log ∧
        (e.GathersHandsOff → Extends (Attempt.JustifiedBy e w.locatorPack
          ((c.turns e).flatMap (Turn.attempts e w.locatorPack))) world.log world'.log)) := by
  obtain ⟨context, s', c, prepared, ran, tells, rfl, rfl⟩ := run_tells run
  refine ⟨c, ⟨context, s', prepared, tells, rfl, rfl⟩, fun builtin => ?_⟩
  have linked := tells.linked
  rw [← Record.turns_entries e] at linked
  have justified := Turn.extends_of_linked linked tells.each_turn builtin
  refine ⟨justified, fun handsOff => justified.mono fun log y law => ?_⟩
  rcases law with accepted | ⟨x, mem, gathers⟩
  · exact accepted
  · exact Attempt.justifiedBy_none (gathers.idle (tells.each_turn x mem) handsOff) _ _

end Engine

/-- A click on the element that a variable names. -/
def Workflow.clicking : Workflow :=
  ⟨"page", [], some "app", [("name", .str "save")], none, none, [], [⟨"open", none, none,
    [⟨.atomic, "element.click", [], some "$name", none, none, none, false, ["name"], ⟨"page.flow", 4⟩⟩],
    ⟨"page.flow", 3⟩⟩], [], [], ⟨"page.flow", 1⟩, ""⟩

/-- An assertion that fails. -/
def Step.failing : Step :=
  ⟨.atomic, "assert.equals", [("actual", .int 1), ("expected", .int 2)], none, none, none, none, false, [],
    ⟨"page.flow", 6⟩⟩

/-- The same click, and then an assertion that fails. -/
def Workflow.clickingFirst : Workflow :=
  { Workflow.clicking with
    phases := Workflow.clicking.phases ++ [⟨"check", none, none, [.failing], ⟨"page.flow", 5⟩⟩] }

/-- A collector that clicks. -/
def clickingCollector {μ : Type} : Collector μ := fun _ _ =>
  .ask (.click "h1") fun outcome => .done (outcome.map fun _ => [])

/-- A click under another keyword, which also takes an element that is out of reach. -/
def ActionSpec.pressing : ActionSpec := atomic "element.press" .click .absentOk [] "Press an element"

def Step.pressing : Step :=
  ⟨.atomic, "element.press", [], some "save", none, none, none, false, [], ⟨"page.flow", 4⟩⟩

/-- A page that has the element, out of reach. -/
def Scene.unready : Scene Rehearsal Unit :=
  ⟨.start ⟨"", [("query test_id=save", [⟨0, false, .ok (.str "h1")⟩]),
    ("interactable h1", [⟨0, false, .ok (.bool false)⟩])], 0⟩, .empty, ()⟩

/-- A workflow of one step. -/
def Workflow.single (step : Step) : Workflow :=
  ⟨"page", [], some "app", [], none, none, [], [⟨"open", none, none, [step], ⟨"page.flow", 3⟩⟩], [], [],
    ⟨"page.flow", 1⟩, ""⟩

namespace Engine

/-- The engine with a collector that takes screenshots. -/
def recording : Engine Rehearsal Unit := { pointing with collector := some screenshotCollector }

theorem run_clicking_touches : ∃ r world' memory' c,
    recording.GathersHandsOff ∧
      recording.run .clickingFirst Scene.saving.world () = (.ok r, world', memory') ∧
      Record.TellsRun recording .clickingFirst r Scene.saving.world () world' memory' c ∧
      Extends (Attempt.JustifiedBy recording (some "app")
        ((c.turns recording).flatMap (Turn.attempts recording (some "app")))) [] world'.log ∧
      world'.log.map Exchange.call =
        [.query (.testId "save"), .interactable "h1", .click "h1", .screenshot] := by
  have handsOff : recording.GathersHandsOff := gathersHandsOff_screenshot rfl
  have prepared : recording.prepare .clickingFirst = .ok (Context.empty.set "name" (.str "save")) := rfl
  obtain ⟨r, world', memory', -, run, -⟩ := run_of_prepare prepared Scene.saving.world ()
  have asked : (recording.run .clickingFirst Scene.saving.world ()).2.1.log.map Exchange.call =
      [.query (.testId "save"), .interactable "h1", .click "h1", .screenshot] := by decide +kernel
  obtain ⟨c, tells, justified⟩ := run_touches run
  rw [run] at asked
  have builtin : ∀ turn ∈ c.turns recording, ∀ x ∈ turn.attempts recording (some "app"),
      x.IsBuiltin recording := fun _ _ _ _ _ found => Registry.builtin_find found
  exact ⟨r, world', memory', c, handsOff, run, tells, (justified builtin).2 handsOff, asked⟩

/-- The engine with a collector that clicks. -/
def snatching : Engine Rehearsal Unit := { pointing with collector := some clickingCollector }

/-- The engine with one more click, which looks at each place of an element once. -/
def pressing : Engine Rehearsal Unit :=
  { pointing with
    registry := ⟨Dict.insert "element.press" .pressing Registry.builtin.actions, false⟩
    resolver := { pointing.resolver with policy := { pointing.resolver.policy with primary := 0 } } }

/-- A collector can act on an element that nobody has looked for, and so can a built-in action that is
registered once more: it is handed an element that has just been found out of reach. -/
theorem run_touches_unaccepted :
    (∃ r world' memory', snatching.run (.single .failing) Scene.saving.world () = (.ok r, world', memory') ∧
      (∀ x, Attempt.IsBuiltin snatching x) ∧ world'.log = [⟨0, .click "h1", some (.ok ())⟩] ∧
      ∀ xs, ¬ Extends (Attempt.JustifiedBy snatching (some "app") xs) [] world'.log) ∧
    ∃ r world' memory', pressing.run (.single .pressing) Scene.unready.world () = (.ok r, world', memory') ∧
      Registry.register .builtin .pressing = .ok pressing.registry ∧
      (∀ spec ∈ pressing.registry.specs, spec.primitive?.isSome = true) ∧
      world'.log = [⟨0, .query (.testId "save"), some (.ok (.one "h1"))⟩,
        ⟨0, .interactable "h1", some (.ok false)⟩, ⟨0, .click "h1", some (.ok ())⟩] ∧
      ∀ xs, ¬ Extends (Attempt.JustifiedBy pressing (some "app") xs) [] world'.log := by
  constructor
  · have prepared : snatching.prepare (.single .failing) = .ok .empty := rfl
    obtain ⟨r, world', memory', -, run, -⟩ := run_of_prepare prepared Scene.saving.world ()
    have asked : (snatching.run (.single .failing) Scene.saving.world ()).2.1.log =
        [⟨0, .click "h1", some (.ok ())⟩] := rfl
    rw [run] at asked
    refine ⟨r, world', memory', run, fun x spec found => Registry.builtin_find found, asked, ?_⟩
    intro xs justified
    have ends : world'.log = [] ++ [⟨0, .click "h1", some (.ok ())⟩] := asked
    obtain ⟨x, accepts⟩ := Attempt.JustifiedBy.last justified ends rfl
    obtain ⟨at_, ⟨_, ends⟩ | ends⟩ := accepts.last
    all_goals cases ends
  · have prepared : pressing.prepare (.single .pressing) = .ok .empty := rfl
    obtain ⟨r, world', memory', -, run, -⟩ := run_of_prepare prepared Scene.unready.world ()
    have asked : (pressing.run (.single .pressing) Scene.unready.world ()).2.1.log =
        [⟨0, .query (.testId "save"), some (.ok (.one "h1"))⟩,
          ⟨0, .interactable "h1", some (.ok false)⟩, ⟨0, .click "h1", some (.ok ())⟩] := rfl
    rw [run] at asked
    refine ⟨r, world', memory', run, rfl, ?_, asked, ?_⟩
    · decide
    · intro xs justified
      have ends : world'.log = [⟨0, .query (.testId "save"), some (.ok (.one "h1"))⟩,
          ⟨0, .interactable "h1", some (.ok false)⟩] ++ [⟨0, .click "h1", some (.ok ())⟩] := asked
      obtain ⟨x, accepts⟩ := Attempt.JustifiedBy.last justified ends rfl
      obtain ⟨at_, ⟨_, ends⟩ | ends⟩ := accepts.last
      all_goals cases ends

end Engine
end Journey
