import Journey.Adapter
import Journey.Proofs.Dict
import Journey.Proofs.Except

/-!
What installing declared adapters comes to. They add semantic actions only, each of which expands by a
template, and every action that an expansion brings in is looked up in the registry. An expansion of
an installed action fails for a parameter that it lacks, or for an action that its template makes up;
whether the steps of a workflow name installed actions is a matter of validation.
-/

namespace Journey

theorem Expander.register_ok {x x' : Expander} {keyword : String} {expansion : Expansion}
    (h : x.register keyword expansion = .ok x') :
    x' = { x with actions := Dict.insert keyword expansion x.actions } := by
  simp only [register] at h
  split at h
  · cases h
  · exact (Except.ok.inj h).symm

/-- The actions that an expansion brings in are those of the expansion, and all of them are registered. -/
theorem Expander.expand_ok {x : Expander} {keyword : String} {params : Params} {context : Context}
    {actions : List ExpandedStep} (h : x.expand keyword params context = .ok actions) :
    ∃ expansion, Dict.find? x.actions keyword = some expansion ∧ expansion params context = .ok actions ∧
      ∀ child ∈ actions, x.registry.has child.keyword = true := by
  simp only [expand] at h
  split at h
  case h_1 => cases h
  case h_2 expansion found =>
    split at h
    case h_1 => cases h
    case h_2 expands =>
      split at h
      case h_1 => cases h
      case h_2 none =>
        obtain rfl := Except.ok.inj h
        exact ⟨expansion, found, expands, by simpa using none⟩

namespace Adapter

theorem registerPlugins_none {a : Adapter} {r r' : Registry} (none : a.plugins = [])
    (h : registerPlugins r a = .ok r') : r' = r := by
  simp only [registerPlugins, none] at h
  split at h
  · exact (Except.ok.inj h).symm
  · cases h

theorem registerAction_ok {a : Adapter} {x x' : Expander} {entry : String × Expansion}
    (h : a.registerAction x entry = .ok x') :
    x' = { x with actions := Dict.insert entry.1 entry.2 x.actions } := by
  simp only [registerAction] at h
  split at h
  · cases h
  · split at h
    case h_1 registered =>
      obtain rfl := Except.ok.inj h
      exact Expander.register_ok registered
    case h_2 => cases h

end Adapter

namespace ActionTemplate

variable {t : ActionTemplate} {action : String} {params : Params} {context : Context}

theorem mem_of_expansion {actions : List ExpandedStep}
    (h : t.expansion action params context = .ok actions) :
    ∀ child ∈ actions, ∃ s ∈ t.steps, s.applies context = true ∧ child = s.expanded := by
  simp only [expansion] at h
  split at h
  case h_1 => cases h
  case h_2 =>
    obtain rfl := Except.ok.inj h
    intro child mem
    obtain ⟨s, kept, rfl⟩ := List.mem_map.mp mem
    obtain ⟨among, applies⟩ := List.mem_filter.mp kept
    exact ⟨s, among, applies, rfl⟩

theorem expansion_error {error : ExpansionError}
    (h : t.expansion action params context = .error error) :
    ∃ param, error = .missingParameter action param := by
  simp only [expansion] at h
  split at h
  case h_1 param _ => exact ⟨param, (Except.error.inj h).symm⟩
  case h_2 => cases h

end ActionTemplate

/-- The adapter declares the semantic action by a template one step of which has that keyword. -/
def DeclaredAdapter.Uses (d : DeclaredAdapter) (action keyword : String) : Prop :=
  ∃ t, (action, t) ∈ d.actions ∧ ∃ s ∈ t.steps, s.keyword = keyword

/-- The expander expands by the templates of the adapters. -/
def Expander.Declares (adapters : List DeclaredAdapter) (x : Expander) : Prop :=
  ∀ entry ∈ x.actions, ∃ d ∈ adapters, ∃ t, (entry.1, t) ∈ d.actions ∧ entry.2 = t.expansion entry.1

theorem Expander.Declares.registerActions {adapters : List DeclaredAdapter} {d : DeclaredAdapter}
    {x x' : Expander} (kept : x.Declares adapters) (among : d ∈ adapters)
    (h : Adapter.registerActions x d.adapter = .ok x') :
    x'.registry = x.registry ∧ x'.Declares adapters := by
  refine Except.foldlM_preserves (I := fun y => y.registry = x.registry ∧ y.Declares adapters) ?_
    ⟨rfl, kept⟩ h
  rintro y entry y' own ⟨registry, declares⟩ taken
  obtain rfl := Adapter.registerAction_ok taken
  refine ⟨registry, fun other mem => ?_⟩
  rcases Dict.mem_insert mem with rfl | old
  · obtain ⟨⟨action, t⟩, declared, rfl⟩ := List.mem_map.mp own
    exact ⟨d, among, t, declared, rfl⟩
  · exact declares other old

/-- What is installed are the built-in actions and the semantic actions that the adapters declare. -/
structure Installed.Declares (adapters : List DeclaredAdapter) (i : Installed) : Prop where
  registry : i.registry = Registry.builtin.sealed
  checks : i.expander.registry = i.registry
  actions : i.expander.Declares adapters

theorem declares_of_install {adapters : List DeclaredAdapter} {i : Installed}
    (h : install .builtin (adapters.map DeclaredAdapter.adapter) = .ok i) : i.Declares adapters := by
  simp only [install] at h
  split at h
  case h_1 => cases h
  case h_2 r registered =>
    split at h
    case h_1 => cases h
    case h_2 x expands =>
      obtain rfl := Except.ok.inj h
      have plain : r = .builtin := by
        refine Except.foldlM_preserves (I := (· = Registry.builtin)) ?_ rfl registered
        rintro s _ s' mem rfl added
        obtain ⟨d, -, rfl⟩ := List.mem_map.mp mem
        exact Adapter.registerPlugins_none rfl added
      subst plain
      have known : x.registry = Registry.builtin.sealed ∧ x.Declares adapters := by
        refine Except.foldlM_preserves
          (I := fun y => y.registry = Registry.builtin.sealed ∧ y.Declares adapters) ?_
          ⟨rfl, List.forall_mem_nil _⟩ expands
        rintro y _ y' mem ⟨registry, declares⟩ added
        obtain ⟨d, among, rfl⟩ := List.mem_map.mp mem
        obtain ⟨same, more⟩ := declares.registerActions among added
        exact ⟨same.trans registry, more⟩
      exact ⟨rfl, known.1, known.2⟩

namespace Installed.Declares

variable {adapters : List DeclaredAdapter} {i : Installed}

/-- An action that is installed fails to expand for a parameter, or because its template has an action
that is not registered. -/
theorem expand_error (h : i.Declares adapters) {keyword : String} {params : Params}
    {context : Context} {error : ExpansionError} (known : i.expander.has keyword = true)
    (failed : i.expander.expand keyword params context = .error error) :
    (∃ param, error = .missingParameter keyword param) ∨
      ∃ missing, error = .unknownPrimitive keyword missing ∧ i.registry.has missing = false ∧
        ∃ d ∈ adapters, d.Uses keyword missing := by
  obtain ⟨expansion, found⟩ := Option.isSome_iff_exists.mp known
  obtain ⟨d, among, t, declared, template⟩ := h.actions _ (Dict.mem_of_find? found)
  simp only at declared template
  subst template
  simp only [Expander.expand, found] at failed
  split at failed
  case h_1 error' lacking =>
    obtain rfl := Except.error.inj failed
    exact .inl (ActionTemplate.expansion_error lacking)
  case h_2 actions expanded =>
    split at failed
    case h_1 child strange =>
      obtain rfl := Except.error.inj failed
      obtain ⟨s, own, -, rfl⟩ :=
        ActionTemplate.mem_of_expansion expanded child (List.mem_of_find?_eq_some strange)
      have missing : i.expander.registry.has s.expanded.keyword = false := by
        simpa using List.find?_some strange
      rw [h.checks] at missing
      exact .inr ⟨s.keyword, rfl, missing, d, among, t, declared, s, own, rfl⟩
    case h_2 => cases failed

end Installed.Declares

end Journey
