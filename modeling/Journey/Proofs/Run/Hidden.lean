import Journey.Proofs.Resolve.Absence
import Journey.Proofs.Run.Invocation

/-!
What an attempt that asserts or awaits that an element is hidden has seen if it succeeds: the browser
said that the element is hidden, or nothing usable was found and, if an unusable element was, that this
is hidden. This is so whenever a target is given; nothing is looked for without one.
-/

namespace Journey

variable {β μ σ : Type}

namespace Condition

/-- The browser was asked for a condition until it said that it holds. -/
inductive Confirmed (condition : Condition) : List Exchange → Prop
  | holds {asked : Nat} : Confirmed condition [⟨asked, .probe condition, some (.ok true)⟩]
  | again {asked : Nat} {calls : List Exchange} (rest : Confirmed condition calls) :
      Confirmed condition (⟨asked, .probe condition, some (.ok false)⟩ :: calls)

/-- What the answer to a probe shows. -/
inductive Shows (condition : Condition) : Exchange → Probe Unit WaitError → Prop
  | holds {asked : Nat} : Shows condition ⟨asked, .probe condition, some (.ok true)⟩ (.settled (.ok ()))
  | lacks {asked : Nat} {reason : WaitError} :
      Shows condition ⟨asked, .probe condition, some (.ok false)⟩ (.pending reason)
  | unanswered {asked : Nat} {error : BrowserError} {reason : WaitError} :
      Shows condition ⟨asked, .probe condition, some (.error error)⟩ (.settled (.error reason))

def Looks (condition : Condition) (w : World β) (x : Exchange) (w' : World β)
    (shown : Probe Unit WaitError) : Prop :=
  condition.Shows x shown ∧ w'.log = w.log ++ [x]

theorem probeOnce_sees (condition : Condition) (limit : Nat) (browser : Browser β) :
    Probe.Sees (condition.probeOnce limit : Dialogue σ _) browser condition.Looks := by
  intro w s
  obtain ⟨answer, w', log, onward, run⟩ := Resolver.ask_run browser σ (.probe condition) w
  refine ⟨⟨w.now, .probe condition, some answer⟩, w', ?_⟩
  rw [probeOnce, run]
  match answer with
  | .ok true => exact ⟨_, rfl, ⟨.holds, log⟩, onward⟩
  | .ok false => exact ⟨_, rfl, ⟨.lacks, log⟩, onward⟩
  | .error error => exact ⟨_, rfl, ⟨.unanswered, log⟩, onward⟩

/-- A wait that is over because the condition holds has heard so, after only answers that it does
not. -/
theorem confirmed_of_polled {condition : Condition} {deadline : Nat} {w w' : World β}
    {xs : List Exchange} {last : Exchange}
    (h : Polled condition.Looks deadline w xs last w' (.ok ())) :
    condition.Confirmed (xs ++ [last]) := by
  generalize ho : (Except.ok () : Except WaitError Unit) = result at h
  induction h with
  | settled seen =>
      cases ho
      cases seen.1
      exact .holds
  | elapsed seen late => cases ho
  | again seen early pause rest ih =>
      cases seen.1
      exact .again (ih ho)

theorem await_confirmed (condition : Condition) (limit : Nat) (policy : PollPolicy)
    (browser : Browser β) (w : World β) (s : σ)
    (h : ((condition.await limit policy).run browser none w s).result = some (.ok ())) :
    ∃ calls, ((condition.await limit policy).run browser none w s).world.log = w.log ++ calls ∧
      condition.Confirmed calls := by
  obtain ⟨xs, last, w', result, run, polled⟩ :=
    Probe.poll_polled (condition.probeOnce_sees limit browser) limit policy w s
  rw [show condition.await limit policy = Probe.poll _ _ _ from rfl, run] at h ⊢
  obtain rfl := Option.some.inj h
  refine ⟨xs ++ [last], ?_, confirmed_of_polled polled⟩
  have made : w'.log = w.log ++ (xs.flatMap (fun x => [x]) ++ [last]) :=
    polled.log fun _ _ _ _ seen => seen.2
  simpa using made

end Condition

namespace Primitive

/-- What the action is handed is hidden: the browser has said so of an element, and nothing is asked
if there is none. -/
def SeesHidden (target : Option Handle) (calls : List Exchange) : Prop :=
  match target with
  | some handle => (Condition.hidden handle).Confirmed calls
  | none => calls = []

theorem waiting_confirmed (input : ActionInput) (condition : Condition) (browser : Browser β)
    (w : World β) (s : σ) {outputs : Outputs}
    (h : ((waiting input condition).run browser none w s).result = some (.ok outputs)) :
    ∃ calls, ((waiting input condition).run browser none w s).world.log = w.log ++ calls ∧
      condition.Confirmed calls := by
  have confirmed := condition.await_confirmed input.limit input.poll browser w s
  simp only [waiting, Dialogue.run_bind] at h ⊢
  generalize (condition.await input.limit input.poll).run browser none w s = ending at confirmed h ⊢
  obtain ⟨_ | (_ | _) | _, w', s'⟩ := ending
  · cases h
  · cases h
  · cases h
  · exact confirmed rfl

theorem verify_hidden (input : ActionInput) (browser : Browser β) (w : World β) (s : σ)
    {outputs : Outputs}
    (h : ((verify .assertHidden input).run browser none w s).result = some (.ok outputs)) :
    ∃ calls, ((verify .assertHidden input).run browser none w s).world.log = w.log ++ calls ∧
      SeesHidden input.target calls := by
  simp only [verify] at h ⊢
  cases target : input.target with
  | none => exact ⟨[], (List.append_nil _).symm, rfl⟩
  | some handle =>
      obtain ⟨answer, w', log, -, run⟩ := Resolver.ask_run browser σ (.probe (.hidden handle)) w
      rw [target] at h
      simp only [asking, run] at h ⊢
      rcases answer with error | lacks | holds
      · cases h
      · cases h
      · exact ⟨_, log, .holds⟩

theorem browse_hidden (input : ActionInput) (browser : Browser β) (w : World β) (s : σ)
    {outputs : Outputs}
    (h : ((browse .waitHidden input).run browser none w s).result = some (.ok outputs)) :
    ∃ calls, ((browse .waitHidden input).run browser none w s).world.log = w.log ++ calls ∧
      SeesHidden input.target calls := by
  simp only [browse] at h ⊢
  cases target : input.target with
  | none => exact ⟨[], (List.append_nil _).symm, rfl⟩
  | some handle =>
      rw [target] at h
      exact waiting_confirmed input _ browser w s h

end Primitive

/-- Two built-in actions take a target that may be absent. -/
theorem ActionSpec.absentOk_kind : ∀ spec ∈ builtins, spec.target = .absentOk →
    spec.kind = .atomic .assertHidden ∨ spec.kind = .atomic .waitHidden := by
  decide

theorem Engine.dispatch_hidden (e : Engine β μ) {spec : ActionSpec}
    (kind : spec.kind = .atomic .assertHidden ∨ spec.kind = .atomic .waitHidden)
    (input : ActionInput) (w : World β) (n : Notes μ) {outputs : Outputs}
    (h : ((e.dispatch spec input).run e.browser none w n).result = some (.ok outputs)) :
    ∃ calls, ((e.dispatch spec input).run e.browser none w n).world.log = w.log ++ calls ∧
      Primitive.SeesHidden input.target calls := by
  rcases kind with kind | kind
  · rw [dispatch_run e kind] at h ⊢
    exact Primitive.verify_hidden input e.browser w n.context h
  · rw [dispatch_run e kind] at h ⊢
    exact Primitive.browse_hidden input e.browser w n.context h

/-- Without a target there is nothing to ask. -/
theorem Engine.dispatch_untargeted (e : Engine β μ) {spec : ActionSpec}
    (kind : spec.kind = .atomic .assertHidden ∨ spec.kind = .atomic .waitHidden) {input : ActionInput}
    (untargeted : input.target = none) (deadline : Option Nat) (w : World β) (n : Notes μ) :
    (e.dispatch spec input).run e.browser deadline w n = ⟨some (.ok []), w, n⟩ := by
  rcases kind with kind | kind
  · simp only [dispatch_run e kind, Primitive.perform, Primitive.verify, untargeted]
    rfl
  · simp only [dispatch_run e kind, Primitive.perform, Primitive.browse, untargeted]
    rfl

namespace Attempt

/-- What an attempt has seen that its target is hidden: a known key with strategies to try, trials that
come to an element or to absence, and the confirmation of what they come to. Nothing else was asked. -/
structure Hidden (e : Engine β μ) (pack : Option String) (x : Attempt β μ) (packId key : String)
    (locator : LocatorSpec) (ts : List Trial) (handle : Option Handle) (probes : List Exchange) :
    Prop where
  sought : x.sought? e pack = some (packId, key)
  known : e.resolver.Knows packId key locator
  lawful : ∀ t ∈ ts, t.Lawful e.resolver.policy
  finds : Resolver.Finds locator ts handle
  confirmed : Primitive.SeesHidden handle probes
  log : (x.after e pack).world.log = x.before.world.log ++ (ts.flatMap Trial.calls ++ probes)

variable {e : Engine β μ} {pack : Option String} {x : Attempt β μ} {spec : ActionSpec}

/-- An attempt that succeeds has handed its action over, and that has succeeded. -/
theorem invocation_of_outcome {outputs : Outputs} (known : e.registry.find? x.call.keyword = some spec)
    (h : (x.result e pack).outcome = .ok outputs) :
    ∃ input n, x.invocation? e pack = some (spec, input) ∧
      ((e.dispatch spec input).run e.browser none (x.searched e pack) n).result = some (.ok outputs) ∧
      (x.after e pack).world =
        ((e.dispatch spec input).run e.browser none (x.searched e pack) n).world := by
  obtain ⟨spec', input, invoked⟩ := invoked_of_outcome h
  obtain ⟨_, _, found, -⟩ := invocation_inv invoked
  obtain rfl := Option.some.inj (known.symm.trans found)
  have ended := ending_of_outcome h
  obtain ⟨n, -, goes⟩ := x.ending_eq e pack
  rw [invoked] at goes
  dsimp only at goes
  rw [goes] at ended
  have inTime := Dialogue.run_in_time (congrArg Option.isSome ended)
  exact ⟨input, n, invoked, inTime ▸ ended, congrArg Ending.world (goes.trans inTime)⟩

/-- A target that is passed on was looked for, and what is passed on is what the search came to. -/
theorem finds_of_passes {handle : Option Handle} (h : x.passes? e pack spec = some handle) :
    ∃ packId key locator ts, x.sought? e pack = some (packId, key) ∧
      e.resolver.Knows packId key locator ∧ (∀ t ∈ ts, t.Lawful e.resolver.policy) ∧
      Resolver.Finds locator ts handle ∧
      (x.searched e pack).log = x.before.world.log ++ ts.flatMap Trial.calls := by
  obtain ⟨search, found, passed⟩ := Option.bind_eq_some_iff.mp h
  rw [searched, found, Option.map_some, Option.getD_some]
  cases result : search.result with
  | none =>
      rw [result] at passed
      cases passed
  | some outcome =>
      obtain ⟨packId, key, sought, rfl⟩ := search_in_time found (by rw [result]; rfl)
      rw [result] at passed
      cases outcome with
      | ok resolved =>
          obtain rfl := Option.some.inj passed
          obtain ⟨locator, ts, known, lawful, accepts, log⟩ :=
            e.resolver.resolve_accepts _ _ _ _ _ result
          exact ⟨packId, key, locator, ts, sought, known, lawful, .present accepts, log⟩
      | error failure =>
          dsimp only at passed
          split at passed
          case isFalse => cases passed
          case isTrue absent =>
            obtain rfl := Option.some.inj passed
            obtain ⟨locator, ts, known, lawful, finds, log⟩ :=
              e.resolver.resolve_absent _ _ _ _ _ result (Bool.and_eq_true_iff.mp absent).2
            exact ⟨packId, key, locator, ts, sought, known, lawful, finds, log⟩

theorem idle_of_untargeted (known : e.registry.find? x.call.keyword = some spec)
    (kind : spec.kind = .atomic .assertHidden ∨ spec.kind = .atomic .waitHidden)
    (untargeted : x.call.target = none) :
    ((∃ outputs, (x.result e pack).outcome = .ok outputs) ↔
        ∃ params, e.resolveCall x.call x.before.context = .ok (params, none)) ∧
      (x.after e pack).world = x.before.world := by
  obtain ⟨n, -, goes⟩ := x.ending_eq e pack
  cases resolved : e.resolveCall x.call x.before.context with
  | error error =>
      have idle : x.search? e pack = none := by simp [search?, sought?, known, resolved]
      have nothing : x.invocation? e pack = none := by simp [invocation?, known, resolved]
      rw [nothing, searched, idle] at goes
      obtain ⟨result, ends, lost⟩ := goes
      refine ⟨⟨?_, ?_⟩, congrArg Ending.world ends⟩
      · rintro ⟨outputs, succeeded⟩
        have ended := ending_of_outcome succeeded
        rw [ends] at ended
        exact absurd ended (lost outputs)
      · rintro ⟨params, ⟨⟩⟩
  | ok call =>
      obtain ⟨params, target⟩ := call
      have absent := (Engine.resolveCall_shape resolved).2
      rw [untargeted] at absent
      obtain rfl : target = none := by simpa using absent
      have idle : x.search? e pack = none := search_of_untargeted resolved
      have handed : x.invocation? e pack =
          some (spec, ⟨x.call.keyword, none, params, x.limit, e.poll⟩) := by
        simp [invocation?, known, resolved]
      rw [handed, searched, idle] at goes
      have whole := goes.trans (e.dispatch_untargeted kind rfl _ _ n)
      refine ⟨⟨fun _ => ⟨params, rfl⟩, fun _ => ⟨[], ?_⟩⟩, congrArg Ending.world whole⟩
      change (x.ending e pack).result.getD _ = _
      rw [whole]
      rfl

/-- An attempt of an action whose target may be absent succeeds with a target only if that was seen to
be hidden. Without a target it succeeds if its parameters can be resolved, and asks nothing. -/
theorem succeeds_hidden (e : Engine β μ) (pack : Option String) (x : Attempt β μ) {spec : ActionSpec}
    (known : e.registry.find? x.call.keyword = some spec) (builtin : spec ∈ ActionSpec.builtins)
    (use : spec.target = .absentOk) :
    (x.call.target ≠ none → ∀ outputs, (x.result e pack).outcome = .ok outputs →
      ∃ packId key locator ts handle probes, x.Hidden e pack packId key locator ts handle probes) ∧
    (x.call.target = none → ((∃ outputs, (x.result e pack).outcome = .ok outputs) ↔
        ∃ params, e.resolveCall x.call x.before.context = .ok (params, none)) ∧
      (x.after e pack).world = x.before.world) := by
  have kind := ActionSpec.absentOk_kind spec builtin use
  constructor
  · intro targeted outputs succeeded
    obtain ⟨input, n, invoked, ends, left⟩ := invocation_of_outcome known succeeded
    obtain ⟨probes, log, hidden⟩ := e.dispatch_hidden kind input _ n ends
    obtain ⟨params, target, -, resolved, -, handed⟩ := invocation_inv invoked
    rcases handed with ⟨rfl, -⟩ | ⟨-, passed⟩
    · have absent := (Engine.resolveCall_shape resolved).2
      exact absurd (by simpa using absent.symm) targeted
    · obtain ⟨packId, key, locator, ts, sought, found, lawful, finds, asked⟩ :=
        finds_of_passes passed
      refine ⟨packId, key, locator, ts, input.target, probes, sought, found, lawful, finds, hidden, ?_⟩
      rw [left, log, asked, List.append_assoc]
  · intro untargeted
    exact idle_of_untargeted known kind untargeted

end Attempt

/-- A page whose one element can neither be interacted with nor be seen. -/
def Scene.fading : Scene Rehearsal Unit :=
  ⟨.start ⟨"", [("query test_id=save", [⟨0, false, .ok (.str "h1")⟩]),
    ("interactable h1", [⟨0, false, .ok (.bool false)⟩]),
    ("hidden h1", [⟨0, false, .ok (.bool true)⟩])], 0⟩, .empty, ()⟩

namespace Engine

/-- An engine that looks for an element only once. -/
def glancing : Engine Rehearsal Unit :=
  { pointing with resolver := { pointing.resolver with policy := ⟨0, 0, 0, .default .whole⟩ } }

end Engine

namespace Attempt

def fading : Attempt Rehearsal Unit := ⟨⟨"assert.hidden", some "save", [], none⟩, 10, .fading⟩

theorem succeeds_fading_hidden : ∃ spec,
    Engine.glancing.registry.find? fading.call.keyword = some spec ∧ spec ∈ ActionSpec.builtins ∧
      spec.target = .absentOk ∧ fading.call.target ≠ none ∧
      (fading.result .glancing (some "app")).outcome = .ok [] ∧
      ∃ packId key locator ts handle probes,
        fading.Hidden .glancing (some "app") packId key locator ts handle probes := by
  have targeted : fading.call.target ≠ none := by decide
  have succeeded : (fading.result .glancing (some "app")).outcome = .ok [] := rfl
  obtain ⟨spec, known, builtin, use⟩ : ∃ spec,
      Engine.glancing.registry.find? fading.call.keyword = some spec ∧ spec ∈ ActionSpec.builtins ∧
        spec.target = .absentOk := ⟨_, rfl, by decide, rfl⟩
  exact ⟨spec, known, builtin, use, targeted, succeeded,
    (succeeds_hidden .glancing (some "app") fading known builtin use).1 targeted [] succeeded⟩

end Attempt

/-- An application whose only action asserts that something is hidden, and does not say what. -/
def DeclaredAdapter.vanishing : DeclaredAdapter :=
  ⟨"app", none, [("save", ⟨some (.testId "save"), [], none⟩)],
    [("gone", ⟨[], [⟨"assert.hidden", none, [], none⟩]⟩)]⟩

def Installed.vanishing : Installed :=
  ⟨Registry.builtin.sealed, ⟨Registry.builtin.sealed, DeclaredAdapter.vanishing.adapter.semantic⟩,
    [DeclaredAdapter.vanishing.locatorPack]⟩

theorem install_vanishing : install .builtin [DeclaredAdapter.vanishing.adapter] = .ok .vanishing := rfl

namespace Engine

def vanishing : Engine Rehearsal Unit := .ofInstalled .vanishing noPlugin Rehearsal.browser .empty

def vanishes : String :=
  "workflow: w\nlocators: app\nphase: one\ndo gone\nend phase\nend workflow"

def vanishes.step : Step :=
  ⟨.semantic, "gone", [], none, none, none, none, false, [], ⟨"page.flow", 4⟩⟩

theorem compileAll_vanishes : ∃ w,
    (⟨vanishing.registry, none, false⟩ : Compiler).compileAll vanishes "page.flow" = .ok [w] ∧
      vanishing.prepare w = .ok .empty ∧ w.locatorPack = some "app" ∧ w.setup = [] ∧
      w.phases = [⟨"one", none, none, [vanishes.step], ⟨"page.flow", 3⟩⟩] ∧
      (vanishing.run w Scene.saving.world ()).1.toOption.map (fun r =>
        (r.phases.head?.bind fun p => p.steps.head?).map fun x => x.isSkipped) =
          some (some false) := by
  have one : ((⟨vanishing.registry, none, false⟩ : Compiler).compileAll vanishes
      "page.flow").toOption.map (List.map fun w => (w.locatorPack, w.vars, w.setup, w.phases)) =
        some [(some "app", [], [], [⟨"one", none, none, [vanishes.step], ⟨"page.flow", 3⟩⟩])] := rfl
  obtain ⟨w, compiled, same⟩ := Except.ok_of_toOption_singleton one
  simp only [Prod.mk.injEq] at same
  obtain ⟨pack, vars, setup, phases⟩ := same
  refine ⟨w, compiled, ?_⟩
  cases w
  subst pack vars setup phases
  exact ⟨rfl, rfl, rfl, rfl, rfl⟩

/-- An application that can be installed has an attempt of an assertion, which must be given a target,
without one. It succeeds, and nothing was seen. -/
theorem run_vanishes_unseen :
    install .builtin [DeclaredAdapter.vanishing.adapter] = .ok .vanishing ∧
    ∃ w r world' memory' record,
      (⟨vanishing.registry, none, false⟩ : Compiler).compileAll vanishes "page.flow" = .ok [w] ∧
      vanishing.run w Scene.saving.world () = (.ok r, world', memory') ∧
      Record.TellsRun vanishing w r Scene.saving.world () world' memory' record ∧
      ∃ turn ∈ record.turns vanishing, ∃ x ∈ turn.attempts vanishing w.locatorPack, ∃ spec,
        vanishing.registry.find? x.call.keyword = some spec ∧ spec ∈ ActionSpec.builtins ∧
          spec.target = .absentOk ∧ (x.result vanishing w.locatorPack).outcome = .ok [] ∧
          ¬ ∃ packId key locator ts handle probes,
            x.Hidden vanishing w.locatorPack packId key locator ts handle probes := by
  obtain ⟨w, compiled, prepared, pack, setup, phases, executed⟩ := compileAll_vanishes
  obtain ⟨r, world', memory', record, run, tells, -⟩ :=
    run_of_prepare prepared Scene.saving.world ()
  refine ⟨install_vanishing, w, r, world', memory', record, compiled, run, tells, ?_⟩
  obtain ⟨context, last, prepared', told, -⟩ := tells
  obtain rfl : Context.empty = context := Except.ok.inj (prepared.symm.trans prepared')
  obtain ⟨cause, result, after, others, watched, shown⟩ := told.first_turn setup phases rfl
  refine ⟨_, List.mem_append_left _ (watched ▸ List.mem_cons_self), ?_⟩
  -- The step is carried out, in a scene that is known but for the root cause.
  rw [run] at executed
  have first : (r.phases.head?.bind fun p => p.steps.head?).map (fun x => x.isSkipped) =
      some false := Option.some.inj executed
  rw [shown] at first
  have carriedOut : result.isSkipped = false := Option.some.inj first
  simp only [Turn.attempts, carriedOut, Bool.false_eq_true, if_false, pack]
  refine ⟨_, List.mem_cons_self, _, rfl, by decide, rfl, rfl, ?_⟩
  rintro ⟨packId, key, locator, ts, handle, probes, hidden⟩
  cases hidden.sought

end Engine

end Journey
