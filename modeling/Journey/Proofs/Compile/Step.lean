import Journey.Compile.Step
import Journey.Proofs.Dict
import Journey.Proofs.Except
import Journey.Proofs.Text

/-!
Where the parts of a compiled step come from. Each of its parameters, its target and its timeout stands
on the action line, and none of the line's is lost; its keyword is that of the line, with the prefix of
an assertion if it is one. What the registry says about the keyword is not stated here.
-/

namespace Journey

namespace StepDraft

/-- The parameters that are options of the step itself. -/
def reserved : List String := ["target", "id", "timeout", "retry"]

/-- What one parameter of an action line adds to the options of the step. -/
inductive Adds (profiles : Option (List String)) (d : StepDraft) :
    String × Value → StepDraft → Prop
  | target {text : String} : Adds profiles d ("target", .str text) { d with target := some text }
  | id {text : String} : Adds profiles d ("id", .str text) { d with id := some text }
  | timeout {text : String} (known : knownProfile profiles text = true) :
      Adds profiles d ("timeout", .str text) { d with timeout := some text }
  | retry {value : Value} {bound : Nat} (number : expectRetry value = .ok bound) :
      Adds profiles d ("retry", value) { d with retry := some bound }
  | param {key : String} {value : Value} (free : key ∉ reserved)
      (fresh : Dict.contains d.params key = false) :
      Adds profiles d (key, value) { d with params := Dict.insert key value d.params }

theorem text_of_expectName {key name : String} {value : Value}
    (h : expectName key value = .ok name) : value = .str name := by
  cases value with
  | str s =>
      simp only [expectName] at h
      split at h
      case isTrue => cases h
      case isFalse => exact congrArg _ (Except.ok.inj h)
  | null | bool _ | int _ | float _ | arr _ | obj _ => cases h

theorem adds_of_addParam {profiles : Option (List String)} {d d' : StepDraft}
    {param : String × Value} (h : d.addParam profiles param = .ok d') :
    d.Adds profiles param d' := by
  obtain ⟨key, value⟩ := param
  simp only [addParam] at h
  split at h
  case h_1 =>
    obtain ⟨text, named, rfl⟩ := Except.ok_of_map h
    rw [text_of_expectName named]
    exact .target
  case h_2 =>
    obtain ⟨text, named, rfl⟩ := Except.ok_of_map h
    rw [text_of_expectName named]
    exact .id
  case h_3 =>
    split at h
    case h_1 => cases h
    case h_2 named =>
      rw [text_of_expectName named]
      split at h
      case isTrue known =>
        obtain rfl := Except.ok.inj h
        exact .timeout known
      case isFalse => cases h
  case h_4 =>
    obtain ⟨bound, number, rfl⟩ := Except.ok_of_map h
    exact .retry number
  case h_5 noTarget noId noTimeout noRetry =>
    split at h
    case isTrue => cases h
    case isFalse fresh =>
      obtain rfl := Except.ok.inj h
      have free : key ∉ reserved := by
        simp only [reserved, List.mem_cons, List.not_mem_nil, or_false, not_or]
        exact ⟨noTarget, noId, noTimeout, noRetry⟩
      exact .param free (by simpa using fresh)

/-- The options stand among the parameters of the line. -/
structure From (given : List (String × Value)) (d : StepDraft) : Prop where
  params : ∀ p ∈ d.params, p ∈ given ∧ p.1 ∉ reserved
  target : ∀ text, d.target = some text → ("target", .str text) ∈ given
  id : ∀ text, d.id = some text → ("id", .str text) ∈ given
  timeout : ∀ text, d.timeout = some text → ("timeout", .str text) ∈ given

theorem from_empty (given : List (String × Value)) : empty.From given where
  params p h := absurd h List.not_mem_nil
  target _ h := by cases h
  id _ h := by cases h
  timeout _ h := by cases h

theorem From.adds {given : List (String × Value)} {profiles : Option (List String)}
    {d d' : StepDraft} {param : String × Value} (h : d.From given) (mem : param ∈ given)
    (adds : d.Adds profiles param d') : d'.From given := by
  cases adds with
  | target => exact ⟨h.params, fun text same => Option.some.inj same ▸ mem, h.id, h.timeout⟩
  | id => exact ⟨h.params, h.target, fun text same => Option.some.inj same ▸ mem, h.timeout⟩
  | timeout known => exact ⟨h.params, h.target, h.id, fun text same => Option.some.inj same ▸ mem⟩
  | retry number => exact ⟨h.params, h.target, h.id, h.timeout⟩
  | param free fresh =>
      refine ⟨fun p hp => ?_, h.target, h.id, h.timeout⟩
      rcases Dict.mem_insert hp with rfl | old
      · exact ⟨mem, free⟩
      · exact h.params p old

theorem from_of_foldlM {profiles : Option (List String)} {given : List (String × Value)}
    {d : StepDraft} (h : given.foldlM (addParam profiles) empty = .ok d) : d.From given :=
  Except.foldlM_preserves (fun _ _ _ mem kept added => kept.adds mem (adds_of_addParam added))
    (from_empty given) h

/-- The parameters that are left for the action itself. -/
def free (given : List (String × Value)) : List (String × Value) :=
  given.filter fun p => p.1 ∉ reserved

/-- The target that is given last. -/
def targetOf (given : List (String × Value)) : Option String :=
  (given.filter fun p => p.1 = "target").getLast?.bind fun p => p.2.text?

/-- The options are made of the parameters: nothing is left out. -/
structure MadeOf (given : List (String × Value)) (d : StepDraft) : Prop where
  params : d.params.Perm (free given)
  target : d.target = targetOf given

theorem MadeOf.adds {given : List (String × Value)} {profiles : Option (List String)}
    {d d' : StepDraft} {param : String × Value} (h : d.MadeOf given)
    (adds : d.Adds profiles param d') : d'.MadeOf (given ++ [param]) := by
  cases adds with
  | target =>
      refine ⟨?_, ?_⟩
      · simpa [free, reserved] using h.params
      · simp [targetOf, Value.text?]
  | id | timeout known | retry number =>
      refine ⟨?_, ?_⟩
      · simpa [free, reserved] using h.params
      · simpa [targetOf] using h.target
  | @param key value unreserved fresh =>
      have other : key ≠ "target" := by
        rintro rfl
        exact unreserved (by decide)
      refine ⟨?_, ?_⟩
      · have kept : free (given ++ [(key, value)]) = free given ++ [(key, value)] := by
          simp [free, unreserved]
        rw [kept]
        exact ((Dict.insert_perm value fresh).trans (h.params.cons _)).trans
          (List.perm_append_singleton _ _).symm
      · simpa [targetOf, other] using h.target

theorem madeOf_of_foldlM {profiles : Option (List String)} {given : List (String × Value)}
    {d : StepDraft} (h : given.foldlM (addParam profiles) empty = .ok d) : d.MadeOf given :=
  Except.foldlM_history (fun _ _ _ _ made added => made.adds (adds_of_addParam added))
    (show MadeOf [] empty from ⟨.refl _, rfl⟩) h

/-- A timeout is taken in only if it is known. -/
theorem knownProfile_of_foldlM {profiles : Option (List String)} {given : List (String × Value)}
    {d : StepDraft} (h : given.foldlM (addParam profiles) empty = .ok d) :
    ∀ profile ∈ d.timeout, knownProfile profiles profile = true := by
  refine Except.foldlM_preserves
    (I := fun d => ∀ profile ∈ d.timeout, knownProfile profiles profile = true) ?_
    (fun profile given => by cases given) h
  intro d param d' _ kept added
  cases adds_of_addParam added with
  | target | id | retry number | param free fresh => exact kept
  | timeout known =>
      rintro _ ⟨⟩
      exact known

end StepDraft

/-- The keyword that a line means: as it is written, but that of an assertion may lack its prefix. -/
inductive ActionLine.Means (action : ActionLine) : String → Prop
  | written (plain : action.verb ≠ .assert ∨ ∃ word, action.keyword = "assert." ++ word) :
      Means action action.keyword
  | prefixed (asserts : action.verb = .assert)
      (bare : ∀ word, action.keyword ≠ "assert." ++ word) : Means action ("assert." ++ action.keyword)

/-- The step is what its line says. -/
structure Step.Reads (s : Step) (action : ActionLine) : Prop where
  keyword : action.Means s.keyword
  params : s.params.Perm (StepDraft.free action.params)
  target : s.target = StepDraft.targetOf action.params
  optional : s.optional = action.flags.contains "optional"

namespace Compiler

/-- A compiled step is made of the parameters and flags of its action line. -/
structure Compiles (c : Compiler) (action : ActionLine) (source : SourceRef) (d : StepDraft)
    (step : Step) : Prop where
  collected : action.params.foldlM (StepDraft.addParam c.profiles) .empty = .ok d
  flags : checkFlags action.flags = .ok ()
  spec : ∃ spec, c.specFor action = .ok spec ∧ step.kind = kindOf spec ∧
    checkAgainst (fullKeyword action) d spec = .ok ()
  keyword : step.keyword = fullKeyword action
  params : step.params = d.params
  target : step.target = d.target
  id : step.id = d.id
  timeout : step.timeout = d.timeout
  retry : step.retry = d.retry
  optional : step.optional = !action.flags.isEmpty
  placeholders : step.placeholders = placeholdersOf d.params d.target
  source : step.source = source

theorem compiles_of_compileStep {c : Compiler} {action : ActionLine} {source : SourceRef}
    {step : Step} (h : c.compileStep action source = .ok step) :
    ∃ d, c.Compiles action source d step := by
  obtain ⟨spec, found, h⟩ := Except.ok_of_bind h
  obtain ⟨d, collected, h⟩ := Except.ok_of_bind h
  obtain ⟨_, flags, h⟩ := Except.ok_of_bind h
  obtain ⟨_, checked, h⟩ := Except.ok_of_bind h
  obtain rfl := Except.ok.inj h
  exact ⟨d, {
    collected, flags
    spec := ⟨spec, found, rfl, checked⟩
    keyword := rfl
    params := rfl
    target := rfl
    id := rfl
    timeout := rfl
    retry := rfl
    optional := rfl
    placeholders := rfl
    source := rfl }⟩

theorem flags_of_checkFlags {flags : List String} (h : checkFlags flags = .ok ()) :
    ∀ flag ∈ flags, flag = "optional" := by
  simp only [checkFlags] at h
  split at h
  case h_1 => cases h
  case h_2 none => simpa using none

theorem means_fullKeyword (action : ActionLine) : action.Means (fullKeyword action) := by
  have spelled : Text.startsWith "assert.".toList action.keyword.toList = true ↔
      ∃ word, action.keyword = "assert." ++ word := by
    rw [Text.startsWith_iff]
    constructor
    · rintro ⟨rest, same⟩
      exact ⟨String.ofList rest, by rw [← String.toList_inj, same, String.toList_append]; simp⟩
    · rintro ⟨word, same⟩
      exact ⟨word.toList, by rw [same, String.toList_append]⟩
  cases verb : action.verb with
  | step | do_ =>
      rw [fullKeyword, verb]
      exact .written (.inl (by simp [verb]))
  | assert =>
      simp only [fullKeyword, verb]
      split
      case isTrue whole => exact .written (.inr (spelled.mp whole))
      case isFalse bare => exact .prefixed verb (not_exists.mp (mt spelled.mpr bare))

theorem Compiles.reads {c : Compiler} {action : ActionLine} {source : SourceRef} {d : StepDraft}
    {step : Step} (h : c.Compiles action source d step) : step.Reads action := by
  have made := StepDraft.madeOf_of_foldlM h.collected
  refine ⟨h.keyword ▸ means_fullKeyword action, h.params ▸ made.params, h.target.trans made.target, ?_⟩
  have only := flags_of_checkFlags h.flags
  rw [h.optional]
  cases flags : action.flags with
  | nil => rfl
  | cons flag rest =>
      rw [flags] at only
      rw [only flag List.mem_cons_self]
      simp

end Compiler
end Journey
