import Journey.Engine
import Journey.Proofs.Compile.Purity
import Journey.Proofs.Scope

/-!
What an action refers to. The placeholders that the compiler notes for a step are those that its resolution
asks for, in the order in which it asks: the first unknown one is the error, and nothing else in a scope has
a part in the outcome.
-/

namespace Journey

variable {β μ : Type}

namespace Engine

/-- Where the placeholders of a call get their values. -/
def scopeOf (e : Engine β μ) (call : ActionCall) (context : Context) : Scope :=
  ⟨call.composite, context, e.template⟩

theorem resolveCall_answers (e : Engine β μ) (call : ActionCall) (context : Context) :
    (e.scopeOf call context).Answers (Compiler.placeholdersOf call.params call.target)
      (e.resolveCall call context) := by
  have first := (e.scopeOf call context).resolveFields_answers call.params
  refine first.seq (fun error lost => ?_) fun params found => ?_
  · rw [scopeOf] at lost
    simp only [resolveCall, Scope.resolveParams, lost]
  · rw [scopeOf] at found
    simp only [resolveCall, Scope.resolveParams, found]
    cases call.target with
    | none => exact .nil _
    | some target =>
        have rest := (e.scopeOf call context).interpolate_answers target
        simpa [scopeOf] using rest.map fun key => (params, some key)

/-- A call is resolved by its texts and by what their placeholders stand for. -/
theorem resolveCall_congr {e e' : Engine β μ} {call call' : ActionCall} {c c' : Context}
    (params : call.params = call'.params) (target : call.target = call'.target)
    (agree : ∀ name ∈ Compiler.placeholdersOf call.params call.target,
      (e.scopeOf call c).lookup name = (e'.scopeOf call' c').lookup name) :
    e.resolveCall call c = e'.resolveCall call' c' := by
  rw [Compiler.placeholdersOf, List.forall_mem_append] at agree
  obtain ⟨inParams, inTarget⟩ := agree
  have same := Scope.resolveFields_congr call.params inParams
  rw [scopeOf, scopeOf] at same inTarget
  simp only [resolveCall, Scope.resolveParams, ← params, ← target, same]
  cases given : call.target with
  | none => rfl
  | some text =>
      have key : Scope.interpolate ⟨call.composite, c, e.template⟩ text =
          Scope.interpolate ⟨call'.composite, c', e'.template⟩ text := by
        apply Scope.interpolate_congr
        intro name mem
        exact inTarget name (by simpa [given])
      simp only [key]

end Engine

/-- The action of a step, as it would be within a composite step with these parameters. -/
def Step.callIn (s : Step) (composite : Option Params) : ActionCall :=
  { s.call with composite }

/-- The names that are noted for the step are those that decide how it is resolved. -/
structure Step.NotesNames (s : Step) : Prop where
  resolves : ∀ {β μ : Type} (e : Engine β μ) (composite : Option Params) (context : Context),
    (∃ resolved, e.resolveCall (s.callIn composite) context = .ok resolved) ↔
      ∀ name ∈ s.placeholders, (e.scopeOf (s.callIn composite) context).Knows name
  fails : ∀ {β μ : Type} (e : Engine β μ) (composite : Option Params) (context : Context) (name : String),
    (s.placeholders.find? fun name =>
      ((e.scopeOf (s.callIn composite) context).lookup name).isNone) = some name →
        e.resolveCall (s.callIn composite) context = .error (.unknownVariable name)
  agrees : ∀ {β μ : Type} (e e' : Engine β μ) (composite composite' : Option Params)
    (context context' : Context),
    (∀ name ∈ s.placeholders, (e.scopeOf (s.callIn composite) context).lookup name =
      (e'.scopeOf (s.callIn composite') context').lookup name) →
        e.resolveCall (s.callIn composite) context = e'.resolveCall (s.callIn composite') context'

theorem Step.notesNames_of_noted {s : Step}
    (noted : s.placeholders = Compiler.placeholdersOf s.params s.target) : s.NotesNames where
  resolves e composite context := by
    rw [noted]
    exact (e.resolveCall_answers (s.callIn composite) context).ok_iff
  fails e composite context name first := by
    rw [noted] at first
    exact (e.resolveCall_answers (s.callIn composite) context).error_of_first first
  agrees e e' composite composite' context context' agree := by
    rw [noted] at agree
    exact Engine.resolveCall_congr rfl rfl agree

namespace Compiler

/-- Every compiled step notes the names that it refers to, in the order in which they are looked up. -/
theorem compileAll_notesNames {c : Compiler} {text file : String} {ws : List Workflow}
    (compiled : c.compileAll text file = .ok ws) : ∀ w ∈ ws, ∀ s ∈ w.steps, s.NotesNames := by
  refine steps_of_compileAll (fun made => ?_) compiled
  obtain ⟨d, compiles⟩ := compiles_of_compileStep made
  apply Step.notesNames_of_noted
  rw [compiles.placeholders, compiles.params, compiles.target]

/-- A workflow whose step refers to two names, the second of them within a longer text. -/
def greeted : String :=
  "workflow: w\nphase: one\nassert assert.equals expected=\"Hi, $name\" actual=$a\nend phase\nend workflow"

theorem compileAll_greeted : ∃ w,
    (⟨.builtin, none, false⟩ : Compiler).compileAll greeted "page.flow" = .ok [w] ∧
      w.steps.map Step.placeholders = [["a", "name"]] ∧ ∀ s ∈ w.steps, s.NotesNames := by
  have one : ((⟨.builtin, none, false⟩ : Compiler).compileAll greeted "page.flow").toOption.map
      (List.map fun w => w.steps.map Step.placeholders) = some [[["a", "name"]]] := by decide +kernel
  obtain ⟨w, compiled, noted⟩ := Except.ok_of_toOption_singleton one
  exact ⟨w, compiled, noted, compileAll_notesNames compiled w List.mem_cons_self⟩

end Compiler
end Journey
