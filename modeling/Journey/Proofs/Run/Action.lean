import Journey.Perform
import Journey.Proofs.Dict
import Journey.Proofs.Log

/-!
What a built-in action asks, gives and notes. It acts on no element, or on the one that it is handed and
with a single call; it never fails over the name of an action or of a timeout; and only one that stores
a value takes a note. In which scene it is carried out does not matter here.
-/

namespace Journey

variable {β σ α : Type}

/-- The element that a call acts on or reads. -/
def Call.touched? : Call → Option Handle
  | .click handle | .fill handle _ | .text handle => some handle
  | _ => none

/-- The error is that something is not known by its name: an action, a timeout or a semantic action. -/
def StepError.isMisnamed : StepError → Bool
  | .config (.unknownKeyword _) | .config (.unknownProfile _) => true
  | .expansion (.unknownAction _) | .expansion (.unknownPrimitive _ _) => true
  | _ => false

/-- If the attempt fails, then not over a name. -/
def WellNamed (result : Except StepError α) : Prop := ∀ error, result = .error error → error.isMisnamed = false

theorem wellNamed_ok (a : α) : WellNamed (.ok a : Except StepError α) := by
  rintro error ⟨⟩

theorem wellNamed_error {error : StepError} (h : error.isMisnamed = false) :
    WellNamed (.error error : Except StepError α) := by
  rintro _ ⟨⟩
  exact h

theorem Registry.builtin_find {keyword : String} {spec : ActionSpec}
    (h : builtin.find? keyword = some spec) : spec ∈ ActionSpec.builtins := by
  rcases Dict.mem_insertAll (Dict.mem_of_find? h) with none | entry
  · cases none
  · obtain ⟨spec', mem, same⟩ := List.mem_map.mp entry
    obtain ⟨-, rfl⟩ := Prod.mk.inj same
    exact mem

namespace ActionInput

theorem wellNamed_param (input : ActionInput) (name : String) : WellNamed (input.param name) := by
  simp only [param]
  split
  · exact wellNamed_ok _
  · exact wellNamed_error rfl

theorem wellNamed_paramText (input : ActionInput) (name : String) : WellNamed (input.paramText name) := by
  have named := input.wellNamed_param name
  simp only [paramText]
  cases given : input.param name with
  | ok value => exact wellNamed_ok _
  | error error => exact wellNamed_error (named error given)

theorem wellNamed_handle (input : ActionInput) : WellNamed input.handle := by
  simp only [handle]
  split
  · exact wellNamed_ok _
  · exact wellNamed_error rfl

end ActionInput

namespace Primitive

/-- The action acts on the element that it is handed, or reads it. -/
def touches : Primitive → Bool
  | .click | .fill | .text | .assertText => true
  | _ => false

section Silent

variable {asks : Call → Prop}

theorem silent_checked {input : Except StepError α}
    {next : α → Dialogue σ (Except StepError Outputs)} (named : WellNamed input)
    (h : ∀ a, (next a).Silent asks WellNamed) : (checked input next).Silent asks WellNamed := by
  cases input with
  | ok a => exact h a
  | error error => exact wellNamed_error (named error rfl)

theorem silent_asking {keyword : String} {call : Call}
    {next : call.Answer → Dialogue σ (Except StepError Outputs)} (asked : asks call)
    (h : ∀ a, (next a).Silent asks WellNamed) : (asking keyword call next).Silent asks WellNamed := by
  refine ⟨asked, fun outcome => ?_⟩
  cases outcome with
  | ok a => exact h a
  | error error => exact wellNamed_error rfl

theorem silent_waiting (input : ActionInput) {condition : Condition} (asked : asks (.probe condition)) :
    (waiting input condition : Dialogue σ _).Silent asks WellNamed := by
  have probe : (condition.probeOnce input.limit : Dialogue σ _).Silent asks fun _ => True := by
    refine ⟨asked, ?_⟩
    rintro (error | lacks | holds) <;> trivial
  refine (Probe.silent_poll probe _ _).bind fun shown _ => ?_
  rcases shown with (⟨_, _⟩ | error) | ⟨⟩
  · exact wellNamed_error rfl
  · exact wellNamed_error rfl
  · exact wellNamed_ok _

theorem silent_passes : (passes : Dialogue σ _).Silent asks WellNamed := wellNamed_ok _

theorem silent_fails (fault : AssertionFault) : (fails fault : Dialogue σ _).Silent asks WellNamed :=
  wellNamed_error rfl

end Silent

/-- An action that does not touch its element acts on none. -/
def Asks (p : Primitive) (call : Call) : Prop := p.touches = false → call.touched? = none

theorem silent_browse (p : Primitive) (input : ActionInput) :
    (p.browse input : Dialogue σ _).Silent p.Asks WellNamed := by
  cases p with
  | goto =>
      exact silent_checked (input.wellNamed_paramText _) fun url =>
        silent_asking (fun _ => rfl) fun _ => silent_passes
  | click =>
      exact silent_checked input.wellNamed_handle fun handle => silent_asking nofun fun _ => silent_passes
  | fill =>
      exact silent_checked (input.wellNamed_paramText _) fun value =>
        silent_checked input.wellNamed_handle fun handle => silent_asking nofun fun _ => silent_passes
  | text =>
      exact silent_checked input.wellNamed_handle fun handle => silent_asking nofun fun _ => wellNamed_ok _
  | waitVisible =>
      exact silent_checked input.wellNamed_handle fun handle => silent_waiting input fun _ => rfl
  | waitHidden =>
      simp only [browse]
      split
      · exact silent_waiting input fun _ => rfl
      · exact silent_passes
  | waitNavigation => exact silent_waiting input fun _ => rfl
  | screenshot => exact silent_asking (fun _ => rfl) fun _ => wellNamed_ok _
  | ctxSet | assertVisible | assertHidden | assertText | assertUrl | assertEquals =>
      exact wellNamed_error rfl

theorem silent_verify (p : Primitive) (input : ActionInput) :
    (p.verify input : Dialogue σ _).Silent p.Asks WellNamed := by
  cases p with
  | assertVisible =>
      refine silent_checked input.wellNamed_handle fun handle =>
        silent_asking (fun _ => rfl) fun visible => ?_
      split
      · exact silent_passes
      · exact silent_fails _
  | assertHidden =>
      simp only [verify]
      split
      · refine silent_asking (fun _ => rfl) fun hidden => ?_
        split
        · exact silent_passes
        · exact silent_fails _
      · exact silent_passes
  | assertText =>
      refine silent_checked (input.wellNamed_paramText _) fun expected =>
        silent_checked input.wellNamed_handle fun handle => silent_asking nofun fun actual => ?_
      split
      · exact silent_passes
      · exact silent_fails _
  | assertUrl =>
      refine silent_checked (input.wellNamed_paramText _) fun part =>
        silent_asking (fun _ => rfl) fun url => ?_
      split
      · exact silent_passes
      · exact silent_fails _
  | assertEquals =>
      refine silent_checked (input.wellNamed_param _) fun actual =>
        silent_checked (input.wellNamed_param _) fun expected => ?_
      split
      · exact silent_passes
      · exact silent_fails _
  | goto | click | fill | text | waitVisible | waitHidden | waitNavigation | screenshot | ctxSet =>
      exact wellNamed_error rfl

/-- Storing is refused for its input, or writes one value. -/
inductive Stores : Dialogue Context (Except StepError Outputs) → Prop
  | refused {error : StepError} (named : error.isMisnamed = false) : Stores (.done (.error error))
  | written {key : String} {value : Value} : Stores (.note (·.set key value) (.done (.ok [])))

theorem stores_store (input : ActionInput) : Stores (store input) := by
  have key := input.wellNamed_paramText "key"
  have value := input.wellNamed_param "value"
  simp only [store, checked]
  split
  · split
    · exact .written
    · exact .refused (value _ ‹_›)
  · exact .refused (key _ ‹_›)

/-- Only an action that stores takes a note. -/
theorem silent_perform {p : Primitive} (other : p ≠ .ctxSet) (input : ActionInput) :
    (p.perform input).Silent p.Asks WellNamed := by
  cases p with
  | ctxSet => exact absurd rfl other
  | goto | click | fill | text | waitVisible | waitHidden | waitNavigation | screenshot =>
      exact silent_browse _ input
  | assertVisible | assertHidden | assertText | assertUrl | assertEquals => exact silent_verify _ input

theorem obeys_perform (p : Primitive) (input : ActionInput) :
    (p.perform input).Obeys p.Asks WellNamed := by
  by_cases storing : p = .ctxSet
  · subst storing
    have stores := stores_store input
    rw [perform]
    generalize store input = d at stores ⊢
    cases stores with
    | refused named => exact wellNamed_error named
    | written => exact wellNamed_ok []
  · exact (silent_perform storing input).obeys

/-- The dialogue is over, or it makes a single call, which acts on the element. -/
inductive Touches (target : Option Handle) : Dialogue σ α → Prop
  | ended {a : α} : Touches target (.done a)
  | once {handle : Handle} {call : Call} {next : call.Outcome → Dialogue σ α}
      (given : target = some handle) (acts : call.touched? = some handle)
      (ends : ∀ outcome, ∃ a, next outcome = .done a) : Touches target (.ask call next)

theorem touches_checked {target : Option Handle} {input : Except StepError α}
    {next : α → Dialogue σ (Except StepError Outputs)}
    (h : ∀ a, input = .ok a → Touches target (next a)) : Touches target (checked input next) := by
  cases input with
  | ok a => exact h a rfl
  | error error => exact .ended

theorem touches_asking {input : ActionInput} {handle : Handle} (given : input.handle = .ok handle)
    {keyword : String} {call : Call} (acts : call.touched? = some handle)
    {next : call.Answer → Dialogue σ (Except StepError Outputs)} (h : ∀ a, ∃ r, next a = .done r) :
    Touches input.target (asking keyword call next) := by
  refine .once ?_ acts fun outcome => ?_
  · simp only [ActionInput.handle] at given
    split at given
    · rename_i target
      rw [target, Except.ok.inj given]
    · cases given
  · cases outcome with
    | ok a => exact h a
    | error error => exact ⟨_, rfl⟩

/-- An action that acts on its element does so once, and asks nothing else. -/
theorem touches_perform {p : Primitive} (h : p.touches = true) (input : ActionInput) :
    Touches input.target (p.perform input) := by
  cases p with
  | click | text =>
      exact touches_checked fun handle given => touches_asking given rfl fun _ => ⟨_, rfl⟩
  | fill =>
      exact touches_checked fun value _ => touches_checked fun handle given =>
        touches_asking given rfl fun _ => ⟨_, rfl⟩
  | assertText =>
      refine touches_checked fun expected _ => touches_checked fun handle given =>
        touches_asking given rfl fun actual => ?_
      split <;> exact ⟨_, rfl⟩
  | goto | waitVisible | waitHidden | waitNavigation | screenshot | ctxSet | assertVisible |
    assertHidden | assertUrl | assertEquals => cases h

theorem Touches.log {target : Option Handle} {d : Dialogue σ α} (h : Touches target d)
    (browser : Browser β) (deadline : Option Nat) (w : World β) (s : σ) :
    (d.run browser deadline w s).world.log = w.log ∨
      ∃ handle x, target = some handle ∧ x.call.touched? = some handle ∧
        (d.run browser deadline w s).world.log = w.log ++ [x] := by
  cases h with
  | ended => exact .inl rfl
  | @once handle call next given acts ends =>
      obtain ⟨outcome, log⟩ := Dialogue.log_ask ends browser deadline w s
      exact .inr ⟨handle, _, given, acts, log⟩

end Primitive

namespace ActionSpec

/-- The primitive of a built-in action. -/
def primitive? (spec : ActionSpec) : Option Primitive :=
  match spec.kind with
  | .atomic p => some p
  | .plugin _ _ => none

theorem kind_of_primitive {spec : ActionSpec} {p : Primitive} (h : spec.primitive? = some p) :
    spec.kind = .atomic p := by
  simp only [primitive?] at h
  split at h
  · rename_i kind
    rw [kind, Option.some.inj h]
  · cases h

theorem builtin_primitive : ∀ spec ∈ builtins, spec.primitive?.isSome = true := by
  decide

/-- A built-in action that acts on the element it is handed must be given a target. -/
theorem builtin_touches : ∀ spec ∈ builtins, spec.primitive?.any Primitive.touches = true →
    spec.target = .required := by
  decide

end ActionSpec

end Journey
