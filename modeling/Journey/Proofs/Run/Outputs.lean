import Journey.Proofs.Compile.Shown
import Journey.Proofs.Run.Naming
import Journey.Proofs.Run.Residue
import Journey.Proofs.Run.Seeding
import Journey.Proofs.Run.Turn

/-!
What a step gives back, by name. The outputs of a step that succeeds are written under its id, over those
that are there already, and each has the id, a point and its own name for a path. A value that is kept under
the whole of that path comes first. Of ids that have points of their own there is but an example.
-/

namespace Journey

namespace Path

/-- The path to what is kept within something else under a name of its own. -/
def within (id name : String) : String := id ++ "." ++ name

variable {id name : String}

theorem toList_within : (within id name).toList = id.toList ++ '.' :: name.toList := by
  simp [within]

theorem words_within (plainId : IsPlain id) (plain : IsPlain name) :
    words (within id name) = [id, name] := by
  rw [words, toList_within, Text.splitOn_append plainId, Text.splitOn_of_not_mem plain]
  simp

theorem within_ne (plainId : IsPlain id) : within id name ≠ id := by
  intro same
  apply plainId
  rw [← same, toList_within]
  exact List.mem_append_right _ List.mem_cons_self

/-- The whole path comes first as a key. -/
theorem lookup_within (plainId : IsPlain id) (plain : IsPlain name) (data : List (String × Value)) :
    lookup data (within id name) = (Dict.find? data (within id name)).or
      ((Dict.find? data id).bind fun v => v.field? name) := by
  rw [lookup]
  cases Dict.find? data (within id name) with
  | some v => rfl
  | none =>
      rw [walk?, words_within plainId plain, Option.none_or]
      simp only [Value.walk, Option.bind_fun_some]

end Path

namespace Context

theorem get?_setOutputs (c : Context) (id : String) (outputs : List (String × Value)) :
    (c.setOutputs id outputs).get? id = some (.obj (Dict.insertAll (c.fieldsAt id) outputs)) := by
  rw [setOutputs, get?_set, if_pos rfl]

theorem get?_setOutputs_of_ne {id key : String} (other : key ≠ id) (c : Context)
    (outputs : List (String × Value)) : (c.setOutputs id outputs).get? key = c.get? key := by
  rw [setOutputs, get?_set, if_neg other]

/-- Once the outputs are written under the id, each is found by its path, but for a value that was kept under
the whole path: that one comes first. -/
def Addresses (c : Context) (id : String) (outputs : List (String × Value)) : Prop :=
  ∀ name value, Path.IsPlain name → Dict.find? (Dict.ofList outputs) name = some value →
    ∀ template : Template, (Scope.mk none (c.setOutputs id outputs) template).lookup (Path.within id name) =
      some ((c.get? (Path.within id name)).getD value)

theorem addresses_of_isPlain {id : String} (plainId : Path.IsPlain id) (c : Context)
    (outputs : List (String × Value)) : c.Addresses id outputs := by
  intro name value plain given template
  have kept : (c.setOutputs id outputs).get? (Path.within id name) = c.get? (Path.within id name) :=
    get?_setOutputs_of_ne (Path.within_ne plainId) c outputs
  have field : ((c.setOutputs id outputs).get? id).bind (fun v => v.field? name) = some value := by
    rw [get?_setOutputs, Option.bind_some, Value.field?, Dict.find?_insertAll, given, Option.some_or]
  have found : (c.setOutputs id outputs).lookup (Path.within id name) =
      some ((c.get? (Path.within id name)).getD value) := calc
    _ = ((c.setOutputs id outputs).get? (Path.within id name)).or
          (((c.setOutputs id outputs).get? id).bind fun v => v.field? name) :=
        Path.lookup_within plainId plain _
    _ = (c.get? (Path.within id name)).or (some value) := by rw [kept, field]
    _ = some ((c.get? (Path.within id name)).getD value) := by
        cases c.get? (Path.within id name) <;> rfl
  simp [Scope.lookup, found]

end Context

variable {β μ : Type} {e : Engine β μ}

namespace Engine

/-- What is stored for a step that succeeds is written to the context in which it ended. -/
theorem executeStep_stores {step : Step} {pack : Option String} {scene : Scene β μ}
    (good : (e.executeStep step pack scene).1.success = true) {id : String} (named : step.id = some id) :
    (e.executeStep step pack scene).2.context =
      (e.carryOutStep step pack scene).2.context.setOutputs id (e.executeStep step pack scene).1.outputs := by
  simp only [executeStep] at good ⊢
  split at good
  case isTrue done =>
    rw [if_pos done]
    simp only [storeOutputs, named]
  case isFalse lost =>
    rw [gather_success] at good
    exact absurd good lost

end Engine

namespace Entry

variable {x : Entry β μ}

theorem PassedOver.not_success (h : x.PassedOver) : x.result.success = false := by
  obtain ⟨reason, passed⟩ := h.result
  rw [passed]
  rfl

/-- The outputs of the step are written under its id, and any that it could have had in their place would
be found there as well. -/
def Stores (x : Entry β μ) (id : String) : Prop :=
  ∃ ended : Context, x.after.context = ended.setOutputs id x.result.outputs ∧
    ∀ outputs, ended.Addresses id outputs

theorem CarriedOut.stores {block : String} {policy : BlockPolicy} {pack : Option String}
    (h : x.CarriedOut e block policy pack) (good : x.result.success = true) {id : String}
    (named : x.step.id = some id) (plainId : Path.IsPlain id) : x.Stores id := by
  obtain ⟨scene, -, run⟩ := h
  have stores (done : (e.executeStep x.step pack (scene.atStep block x.index)).1.success = true) :=
    Engine.executeStep_stores done named
  rw [run] at stores
  exact ⟨_, stores good, Context.addresses_of_isPlain plainId _⟩

end Entry

namespace Engine

/-- Right after a step of a run that succeeds, its outputs are found under its id, if that has no point. -/
theorem run_stores {w : Workflow} {r : WorkflowResult} {world world' : World β}
    {memory memory' : μ} (run : e.run w world memory = (.ok r, world', memory')) :
    ∃ c : Record β μ, c.TellsRun e w r world memory world' memory' ∧
      ∀ x ∈ c.entries, x.result.success = true → ∀ id, x.step.id = some id → Path.IsPlain id →
        x.Stores id := by
  obtain ⟨context, s', c, prepared, -, tells, hw, hm⟩ := run_tells run
  refine ⟨c, ⟨context, s', prepared, tells, hw, hm⟩, fun x mem good id named plainId => ?_⟩
  rcases tells.each_entry x mem with ⟨block, policy, held⟩ | passed
  · exact held.stores good named plainId
  · rw [passed.not_success] at good
    cases good

end Engine

/-- A screenshot is taken under an id, after other steps. -/
def shoots (before id : String) : String :=
  "workflow: w\nphase: one\n" ++ before ++ "step browser.screenshot id=" ++ id ++ "\nend phase\nend workflow"

def Workflow.shoots (before : List Step) (line : Nat) (id digest : String) : Workflow :=
  ⟨"w", [], none, [], none, none, [], [⟨"one", none, none, before ++ [⟨.atomic, "browser.screenshot", [],
    none, some id, none, none, false, [], ⟨"page.flow", line⟩⟩], ⟨"page.flow", 2⟩⟩], [], [],
    ⟨"page.flow", 1⟩, digest⟩

/-- A page whose screenshots are all the same. -/
def Scene.shooting : Scene Rehearsal Unit :=
  ⟨.start ⟨"", [("screenshot", [⟨0, false, .ok (.str "new")⟩])], 0⟩, .empty, ()⟩

namespace Record

theorem Tells.last_shoots {before : List Step} {line : Nat} {id digest : String} {r : WorkflowResult}
    {s s' : Scene β μ} {c : Record β μ} (h : c.Tells e (.shoots before line id digest) r s s') :
    ∃ x, c.entries.getLast? = some x ∧ x.step.id = some id ∧ r.results.getLast? = some x.result := by
  have named : ((c.entries.map Entry.step).map Step.id).getLast? = some (some id) := by
    rw [h.steps]
    simp [Workflow.shoots]
  rw [List.map_map, List.getLast?_map] at named
  obtain ⟨x, last, same⟩ := Option.map_eq_some_iff.mp named
  refine ⟨x, last, same, ?_⟩
  rw [← h.results, List.getLast?_map, last]
  rfl

end Record

namespace Engine

def shooting : Engine Rehearsal Unit := { bare with registry := .builtin }

theorem run_shoots_stored : ∃ r world' memory' c,
    shooting.run (.shoots [] 3 "s" "") Scene.shooting.world () = (.ok r, world', memory') ∧
      Record.TellsRun shooting (.shoots [] 3 "s" "") r Scene.shooting.world () world' memory' c ∧
      ∃ x ∈ c.entries, x.step.id = some "s" ∧ x.result.success = true ∧ x.Stores "s" := by
  have prepared : shooting.prepare (.shoots [] 3 "s" "") = .ok .empty := rfl
  obtain ⟨r, world', memory', -, run, -⟩ := run_of_prepare prepared Scene.shooting.world ()
  obtain ⟨c, tells, stores⟩ := run_stores run
  have ⟨context, s', _, told, _⟩ := tells
  obtain ⟨x, last, named, shown⟩ := told.last_shoots
  have mem : x ∈ c.entries := List.mem_of_getLast? last
  have succeeds : (shooting.run (.shoots [] 3 "s" "") Scene.shooting.world ()).1.toOption.bind (fun r =>
      r.results.getLast?.map fun y => y.success) = some true := rfl
  have good : x.result.success = true := by
    rw [run] at succeeds
    simpa [Except.toOption, shown] using succeeds
  exact ⟨r, world', memory', c, run, tells, x, mem, named, good, stores x mem good "s" named (by decide)⟩

/-- In the run of a text, a screenshot is taken under the id, and this is found by its path right
afterwards. -/
def FindsShot (text id : String) (found : Option Value) : Prop :=
  ∃ w r world' memory' c, (⟨.builtin, none, false⟩ : Compiler).compileAll text "page.flow" = .ok [w] ∧
    shooting.run w Scene.shooting.world () = (.ok r, world', memory') ∧
    Record.TellsRun shooting w r Scene.shooting.world () world' memory' c ∧
    ∃ x ∈ c.entries, x.step.id = some id ∧ x.result.success = true ∧
      x.result.outputs = [("evidence", .str "new")] ∧
      (Scope.mk none x.after.context shooting.template).lookup (Path.within id "evidence") = found

theorem findsShot_of_last {text id : String} {found : Option Value} (before : List Step) (line : Nat)
    (compiles : ((⟨.builtin, none, false⟩ : Compiler).compileAll text "page.flow").toOption.map
      (List.map Workflow.undigested) = some [.shoots before line id ""])
    (shown : ∀ digest,
      (shooting.runBlocks (.shoots before line id digest) Scene.shooting).1.results.getLast?.map (fun y =>
        (y.success, y.outputs)) = some (true, [("evidence", .str "new")]))
    (finds : ∀ digest, (Scope.mk none
      (shooting.runBlocks (.shoots before line id digest) Scene.shooting).2.context
      shooting.template).lookup (Path.within id "evidence") = found) : FindsShot text id found := by
  obtain ⟨w, compiled, same⟩ := Except.ok_of_toOption_singleton compiles
  obtain ⟨digest, rfl⟩ : ∃ digest, w = .shoots before line id digest :=
    ⟨w.digest, congrArg (fun v => { v with digest := w.digest }) same⟩
  have prepared : shooting.prepare (.shoots before line id digest) = .ok .empty := rfl
  obtain ⟨r, world', memory', -, run, -⟩ := run_of_prepare prepared Scene.shooting.world ()
  obtain ⟨context, s', c, prepared', ran, told, ends⟩ := run_tells run
  obtain rfl : Context.empty = context := Except.ok.inj (prepared.symm.trans prepared')
  obtain ⟨x, last, named, result⟩ := told.last_shoots
  have shown := shown digest
  have finds := finds digest
  rw [show shooting.runBlocks (.shoots before line id digest) Scene.shooting = (r, s') from ran]
    at shown finds
  rw [result, Option.map_some, Option.some.injEq, Prod.mk.injEq] at shown
  refine ⟨_, r, world', memory', c, compiled, run, ⟨.empty, s', prepared, told, ends⟩, x,
    List.mem_of_getLast? last, named, shown.1, shown.2, ?_⟩
  rw [Scope.lookup, Context.lookup, told.data_of_last last]
  exact finds

/-- A value is kept under the path that the screenshot has later. -/
def keeps : Step :=
  ⟨.atomic, "ctx.set", [("key", .str "s.evidence"), ("value", .str "old")], none, none, none, none, false,
    [], ⟨"page.flow", 3⟩⟩

/-- What was kept under the path before is found in place of the screenshot; and if the id has a point,
nothing is found. -/
theorem findsShot_amiss :
    FindsShot (shoots "step ctx.set key=s.evidence value=old\n" "s") "s" (some (.str "old")) ∧
      FindsShot (shoots "" "a.b") "a.b" none := by
  constructor
  · apply findsShot_of_last [keeps] 4
    · decide +kernel
    · intro digest
      rfl
    · intro digest
      rfl
  · apply findsShot_of_last [] 3
    · decide +kernel
    · intro digest
      rfl
    · intro digest
      rfl

end Engine
end Journey
