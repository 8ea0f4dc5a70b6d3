import Journey.Proofs.ActionLine
import Journey.Proofs.Adapter
import Journey.Proofs.Run.References
import Journey.Proofs.Run.Touch
import Journey.Proofs.Substitution
import Journey.Rehearsal

/-!
What a declared semantic action hands on. A text that a parameter of the step has resolved to is put in place
of the placeholder for it, and what it says is not looked at: an action gets it as it is, and types it so.
How a text is scanned for placeholders is told by its pieces.
-/

namespace Journey

open Placeholder

variable {β μ σ : Type}

namespace Primitive

theorem asking_log (keyword : String) (call : Call)
    {next : call.Answer → Dialogue σ (Except StepError Outputs)} (ends : ∀ a, ∃ r, next a = .done r)
    (browser : Browser β) (deadline : Option Nat) (w : World β) (s : σ) :
    ∃ outcome : Option call.Outcome,
      ((asking keyword call next).run browser deadline w s).world.log =
        w.log ++ [⟨w.now, call, outcome⟩] := by
  refine Dialogue.log_ask (fun outcome => ?_) browser deadline w s
  cases outcome with
  | ok a => exact ends a
  | error error => exact ⟨_, rfl⟩

/-- A fill that is given a text types this text, once, or it fails before. -/
theorem fill_log {input : ActionInput} {text : String}
    (given : Dict.find? input.params "value" = some (.str text)) (browser : Browser β)
    (deadline : Option Nat) (w : World β) (c : Context) :
    let ending := (perform .fill input).run browser deadline w c
    (ending.world.log = w.log ∧ ∀ outputs, ending.result ≠ some (.ok outputs)) ∨
      ∃ handle y, y.call = .fill handle text ∧ ending.world.log = w.log ++ [y] := by
  have value : input.paramText "value" = .ok text := by
    rw [ActionInput.paramText, ActionInput.param, given]
    rfl
  dsimp only [perform, browse]
  rw [value]
  dsimp only [checked]
  cases input.handle with
  | error error => exact .inl ⟨rfl, by simp [Dialogue.run]⟩
  | ok handle =>
      refine .inr ⟨handle, ?_⟩
      obtain ⟨outcome, log⟩ := asking_log input.keyword (.fill handle text)
        (fun _ => ⟨.ok [], rfl⟩ : ∀ _ : Unit, ∃ r, passes = .done r) browser deadline w c
      exact ⟨_, rfl, log⟩

end Primitive

namespace Attempt

/-- What an attempt does that types a text: it searches, which acts on nothing, and then it types this text
and makes no other call, or else it fails. -/
inductive Types (e : Engine β μ) (pack : Option String) (x : Attempt β μ) (text : String) : Prop
  | failed {calls : List Exchange} (idle : ∀ y ∈ calls, y.call.touched? = none)
      (log : (x.after e pack).world.log = x.before.world.log ++ calls)
      (unsuccessful : ∀ outputs, (x.result e pack).outcome ≠ .ok outputs)
  | typed {calls : List Exchange} (idle : ∀ y ∈ calls, y.call.touched? = none) {handle : Handle}
      {y : Exchange} (fill : y.call = .fill handle text)
      (log : (x.after e pack).world.log = x.before.world.log ++ (calls ++ [y]))

/-- The parameter resolves to the text, in whatever context, and the action is handed over to with it. An
action that fills an element with it types just that. -/
structure Receives (e : Engine β μ) (pack : Option String) (x : Attempt β μ) (q text : String) : Prop where
  resolves : ∀ context, ∃ v, Dict.find? x.call.params q = some v ∧
    (e.scopeOf x.call context).resolve v = .ok (.str text)
  given : ∀ spec input, x.invocation? e pack = some (spec, input) →
    Dict.find? input.params q = some (.str text)
  types : q = "value" → ∀ spec, e.registry.find? x.call.keyword = some spec →
    spec.kind = .atomic .fill → x.Types e pack text

variable {e : Engine β μ} {pack : Option String} {x : Attempt β μ}

theorem types_of_given {text : String} (given : ∀ spec input, x.invocation? e pack = some (spec, input) →
      Dict.find? input.params "value" = some (.str text)) {spec : ActionSpec}
    (known : e.registry.find? x.call.keyword = some spec) (fills : spec.kind = .atomic .fill) :
    x.Types e pack text := by
  obtain ⟨calls, searched, idle⟩ := searched_log e pack x
  obtain ⟨n, -, goes⟩ := x.ending_eq e pack
  have ended : (x.after e pack).world = (x.ending e pack).world := rfl
  cases invoked : x.invocation? e pack with
  | none =>
      rw [invoked] at goes
      obtain ⟨result, ends, unsuccessful⟩ := goes
      refine .failed idle (by rw [ended, ends, searched]) fun outputs good => ?_
      exact unsuccessful outputs ((congrArg Ending.result ends).symm.trans (ending_of_outcome good))
  | some handed =>
      obtain ⟨spec', input⟩ := handed
      rw [invoked] at goes
      obtain ⟨-, -, found, -⟩ := invocation_inv invoked
      obtain rfl := Option.some.inj (known.symm.trans found)
      dsimp only at goes
      rw [Engine.dispatch_run e fills] at goes
      rcases Primitive.fill_log (given _ _ invoked) e.browser x.deadline (x.searched e pack) n.context with
        ⟨same, unsuccessful⟩ | ⟨handle, y, typed, log⟩
      · refine .failed idle (by rw [ended, goes, same, searched]) fun outputs good => ?_
        exact unsuccessful outputs ((congrArg Ending.result goes).symm.trans (ending_of_outcome good))
      · exact .typed idle typed (by rw [ended, goes, log, searched, List.append_assoc])

/-- What a parameter resolves to is what the action is handed over to with. -/
theorem receives_of_resolves {q text : String} {v : Value} (declared : Dict.find? x.call.params q = some v)
    (resolves : ∀ context, (e.scopeOf x.call context).resolve v = .ok (.str text)) :
    x.Receives e pack q text := by
  have given : ∀ spec input, x.invocation? e pack = some (spec, input) →
      Dict.find? input.params q = some (.str text) := by
    intro spec input invoked
    obtain ⟨params, target, -, resolved, rfl, -⟩ := invocation_inv invoked
    have filled := (Engine.resolveFields_of_resolveCall resolved).1
    obtain ⟨w, here, found⟩ := Scope.find?_resolveFields filled declared
    obtain rfl := Except.ok.inj (here.symm.trans (resolves x.before.context))
    exact found
  refine ⟨fun context => ⟨v, declared, resolves context⟩, given, ?_⟩
  rintro rfl spec known fills
  exact types_of_given given known fills

/-- What a parameter of the step says takes the place of the placeholder for it. -/
theorem receives_braced {child : StepTemplate} {params : Params} (own : x.call = child.expanded.call params)
    {p v : String} (named : Text.isIdentifier p.toList = true) (held : Dict.find? params p = some (.str v))
    {q before after : String} (free : names before = []) (free' : names after = [])
    (template : Dict.find? child.params q = some (.str (before ++ braced p ++ after))) :
    x.Receives e pack q (framed before after v) := by
  have sought : Dict.find? x.call.params q = some (.str (before ++ braced p ++ after)) := by
    rw [own]
    exact template
  refine receives_of_resolves sought fun context => ?_
  have known : (e.scopeOf x.call context).lookup p = some (.str v) := by
    rw [own]
    exact Scope.lookup_param held context e.template
  exact Scope.resolve_braced named free free' known

/-- The attempt is at an action of the template, which gets what the parameters of the step say in place of
the placeholders for them. -/
def HandedOn (e : Engine β μ) (pack : Option String) (t : ActionTemplate) (params : Params)
    (x : Attempt β μ) : Prop :=
  ∃ child ∈ t.steps, x.call = child.expanded.call params ∧
    ∀ p v, Dict.find? params p = some (.str v) →
      ∀ q before after, names before = [] → names after = [] →
        Dict.find? child.params q = some (.str (before ++ braced p ++ after)) →
          x.Receives e pack q (framed before after v)

end Attempt

/-- Wherever the step is carried out, its template gets what its parameters resolve to. -/
def Step.HandsOn (step : Step) : Prop :=
  ∀ {β μ : Type} (e : Engine β μ) (t : ActionTemplate),
    Dict.find? e.expander.actions step.keyword = some (t.expansion step.keyword) →
    ∀ (pack : Option String) (scene : Scene β μ) (params : Params),
      (Scope.mk none scene.context e.template).resolveParams step.params = .ok params →
        ∀ x ∈ e.attemptsOfStep step pack scene, x.HandedOn e pack t params

namespace Compiler

theorem semantic_of_compileStep {c : Compiler} {line : ActionLine} {source : SourceRef} {step : Step}
    (do_ : line.verb = .do_) (compiled : c.compileStep line source = .ok step) : step.kind = .semantic := by
  obtain ⟨d, compiles⟩ := compiles_of_compileStep compiled
  obtain ⟨spec, found, kind, -⟩ := compiles.spec
  rw [specFor, do_] at found
  obtain rfl := Except.ok.inj found
  exact kind

theorem named_of_compileStep {c : Compiler} {raw : List Char} {line : ActionLine} {source : SourceRef}
    {step : Step} (read : ActionLine.parse raw = .ok (some line))
    (compiled : c.compileStep line source = .ok step) :
    ∀ param ∈ step.params, Text.isIdentifier param.1.toList = true := by
  obtain ⟨d, compiles⟩ := compiles_of_compileStep compiled
  have given := StepDraft.from_of_foldlM compiles.collected
  intro param mem
  rw [compiles.params] at mem
  exact ActionLine.parse_named read param (given.params param mem).1

end Compiler

namespace Engine

variable {e : Engine β μ} {step : Step} {t : ActionTemplate} {params : Params} {pack : Option String}
  {scene : Scene β μ}

theorem attemptsOfStep_expanded (semantic : step.kind = .semantic)
    (declared : Dict.find? e.expander.actions step.keyword = some (t.expansion step.keyword))
    (resolved : (Scope.mk none scene.context e.template).resolveParams step.params = .ok params) :
    ∀ x ∈ e.attemptsOfStep step pack scene, ∃ child ∈ t.steps, x.call = child.expanded.call params := by
  intro x made
  rcases e.attemptsOfStep_call made with ⟨plain, -⟩ | ⟨-, params', actions, expanded, child, brought, own⟩
  · exact absurd semantic plain
  · rw [expansion?, resolved] at expanded
    dsimp only at expanded
    split at expanded
    case h_1 => cases expanded
    case h_2 expands =>
      obtain ⟨rfl, rfl⟩ := Prod.mk.inj (Option.some.inj expanded)
      obtain ⟨expansion, found, brings, -⟩ := Expander.expand_ok expands
      obtain rfl := Option.some.inj (declared.symm.trans found)
      obtain ⟨s, among, -, rfl⟩ := ActionTemplate.mem_of_expansion brings child brought
      exact ⟨s, among, own⟩

theorem attemptsOfStep_handedOn (semantic : step.kind = .semantic)
    (named : ∀ param ∈ step.params, Text.isIdentifier param.1.toList = true)
    (declared : Dict.find? e.expander.actions step.keyword = some (t.expansion step.keyword))
    (resolved : (Scope.mk none scene.context e.template).resolveParams step.params = .ok params) :
    ∀ x ∈ e.attemptsOfStep step pack scene, x.HandedOn e pack t params := by
  intro x made
  obtain ⟨child, among, own⟩ := attemptsOfStep_expanded semantic declared resolved x made
  refine ⟨child, among, own, fun p v held q before after free free' template => ?_⟩
  have present : Dict.contains step.params p = true := by
    rw [← Scope.contains_resolveFields _ resolved p, Dict.contains, held]
    rfl
  obtain ⟨written, given⟩ := Option.isSome_iff_exists.mp present
  have name : Text.isIdentifier p.toList = true := named _ (Dict.mem_of_find? given)
  exact Attempt.receives_braced own name held free free' template

/-- A text is read for placeholders once, and what is put in for them is not read. So a text that a
parameter of a written step resolves to reaches the actions that the step expands to as it is, in the text
around the placeholder for it unless there are but blanks around it. -/
theorem substitutes_once : (∀ (s : Scope) (text : String), s.ScansOnce text) ∧
    ∀ {c : Compiler} {raw : List Char} {line : ActionLine} {source : SourceRef} {step : Step},
      ActionLine.parse raw = .ok (some line) → line.verb = .do_ →
        c.compileStep line source = .ok step → step.HandsOn := by
  refine ⟨Scope.scansOnce, fun read do_ compiled => ?_⟩
  intro β μ e t declared pack scene params resolved
  exact attemptsOfStep_handedOn (Compiler.semantic_of_compileStep do_ compiled)
    (Compiler.named_of_compileStep read compiled) declared resolved

end Engine

/-- An application whose only action fills a box with a text of its own, made of the text that it is given. -/
def DeclaredAdapter.noting (text : String) : DeclaredAdapter :=
  ⟨"app", none, [("box", ⟨some (.testId "box"), [], none⟩)],
    [("note", ⟨["text"], [⟨"element.fill", some "box", [("value", .str text)], none⟩]⟩)]⟩

def Installed.noting (text : String) : Installed :=
  ⟨Registry.builtin.sealed, ⟨Registry.builtin.sealed, (DeclaredAdapter.noting text).adapter.semantic⟩,
    [(DeclaredAdapter.noting text).locatorPack]⟩

/-- A page that has the box, where some data has been stored. -/
def Scene.noting (data : String) : Scene Rehearsal Unit :=
  ⟨.start ⟨"", [("query test_id=box", [⟨0, false, .ok (.str "h1")⟩])], 0⟩,
    Context.empty.set "data" (.str data), ()⟩

namespace Engine

def noting (text : String) : Engine Rehearsal Unit :=
  .ofInstalled (.noting text) noPlugin Rehearsal.browser .empty

/-- Templates for the text: one with brackets around it, one with a blank before it. -/
def noting.bracketed : String := "[\x7b\x7btext\x7d\x7d]"

def noting.spaced : String := " \x7b\x7btext\x7d\x7d"

/-- Stored data that looks like placeholders. -/
def noting.lookalike : String := "$x \x7b\x7bx\x7d\x7d"

def noting.line : ActionLine := ⟨.do_, "note", [("text", .str "$data")], []⟩

def noting.step : Step :=
  ⟨.semantic, "note", [("text", .str "$data")], none, none, none, none, false, ["data"], ⟨"page.flow", 4⟩⟩

theorem parse_noting : ActionLine.parse "do note text=$data".toList = .ok (some noting.line) := by
  decide +kernel

theorem compileStep_noting :
    (⟨.builtin, none, false⟩ : Compiler).compileStep noting.line ⟨"page.flow", 4⟩ = .ok noting.step := rfl

theorem noting_substitutes_once :
    install .builtin [(DeclaredAdapter.noting noting.bracketed).adapter] = .ok (.noting noting.bracketed) ∧
    ActionLine.parse "do note text=$data".toList = .ok (some noting.line) ∧ noting.line.verb = .do_ ∧
    (⟨.builtin, none, false⟩ : Compiler).compileStep noting.line ⟨"page.flow", 4⟩ = .ok noting.step ∧
    (Scope.mk none (Scene.noting noting.lookalike).context .empty).interpolate "<$data>" =
      .ok "<$x \x7b\x7bx\x7d\x7d>" ∧
    ∃ x ∈ (noting noting.bracketed).attemptsOfStep noting.step (some "app") (Scene.noting noting.lookalike),
      x.Receives (noting noting.bracketed) (some "app") "value" "[$x \x7b\x7bx\x7d\x7d]" := by
  refine ⟨rfl, parse_noting, rfl, compileStep_noting, ?_, _, List.mem_cons_self, ?_⟩
  · obtain ⟨ps, only, becomes⟩ :=
      substitutes_once.1 ⟨none, (Scene.noting noting.lookalike).context, .empty⟩ "<$data>"
    obtain rfl := (only _).mp (leftmost_pieces _)
    have met : (pieces "<$data>".toList).filterMap Piece.hole? = ["data"] := rfl
    exact becomes (met ▸ List.forall_mem_singleton.mpr rfl)
  · obtain ⟨child, own, same, given⟩ :=
      substitutes_once.2 parse_noting rfl compileStep_noting (noting noting.bracketed)
        ⟨["text"], [⟨"element.fill", some "box", [("value", .str noting.bracketed)], none⟩]⟩ rfl
        (some "app") (Scene.noting noting.lookalike) [("text", .str noting.lookalike)] rfl _
        List.mem_cons_self
    obtain rfl := List.mem_singleton.mp own
    exact given "text" _ rfl "value" "[" "]" rfl rfl rfl

/-- A blank beside the placeholder is not typed. -/
theorem noting_drops_blank :
    install .builtin [(DeclaredAdapter.noting noting.spaced).adapter] = .ok (.noting noting.spaced) ∧
    noting.spaced = " " ++ braced "text" ++ "" ∧ names " " = [] ∧ names "" = [] ∧
    ActionLine.parse "do note text=$data".toList = .ok (some noting.line) ∧
    (⟨.builtin, none, false⟩ : Compiler).compileStep noting.line ⟨"page.flow", 4⟩ = .ok noting.step ∧
    (Scope.mk none (Scene.noting "x").context .empty).resolveParams noting.step.params =
      .ok [("text", .str "x")] ∧
    ((noting noting.spaced).attemptsOfStep noting.step (some "app") (Scene.noting "x")).map (fun x =>
      (x.after (noting noting.spaced) (some "app")).world.log.map Exchange.call) =
        [[.query (.testId "box"), .interactable "h1", .fill "h1" "x"]] ∧
    "x" ≠ " " ++ "x" ++ "" :=
  ⟨rfl, rfl, rfl, rfl, parse_noting, compileStep_noting, rfl, rfl, by decide⟩

end Engine
end Journey
