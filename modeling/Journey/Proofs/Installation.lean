import Journey.Proofs.Adapter
import Journey.Proofs.Text

/-!
When adapters can be installed, and what is then installed. Every adapter and every action of one is looked
at in turn, against what those before it have brought; together the checks come to one condition on the
whole list. If that is met, each keyword belongs to the one adapter that brings it, or is built in.
-/

namespace Journey

variable {ε α β σ : Type}

namespace Dict

/-- The new entries have different keys, and none of them is there yet. -/
structure Fresh (entries new : List (String × α)) : Prop where
  distinct : (new.map Prod.fst).Nodup
  unknown : ∀ key ∈ new.map Prod.fst, contains entries key = false

theorem fresh_singleton {entries : List (String × α)} {entry : String × α} :
    Fresh entries [entry] ↔ contains entries entry.1 = false := by
  constructor
  · intro h
    exact h.unknown entry.1 List.mem_cons_self
  · intro unknown
    exact ⟨List.pairwise_singleton _ _, List.forall_mem_singleton.mpr unknown⟩

theorem fresh_append {entries first second : List (String × α)} :
    Fresh entries (first ++ second) ↔ Fresh entries first ∧ Fresh (insertAll entries first) second := by
  have known (key : String) : contains (insertAll entries first) key = false ↔
      contains entries key = false ∧ key ∉ first.map Prod.fst := by
    rw [← Bool.not_eq_true, contains_insertAll, not_or, Bool.not_eq_true]
  constructor
  · rintro ⟨distinct, unknown⟩
    rw [List.map_append] at distinct unknown
    obtain ⟨one, two, apart⟩ := List.nodup_append.mp distinct
    refine ⟨⟨one, fun key mem => unknown key (List.mem_append_left _ mem)⟩, two, fun key mem => ?_⟩
    exact (known key).mpr ⟨unknown key (List.mem_append_right _ mem), fun early =>
      apart key early key mem rfl⟩
  · rintro ⟨⟨one, unknown⟩, two, later⟩
    refine ⟨?_, ?_⟩ <;> rw [List.map_append]
    · refine List.nodup_append.mpr ⟨one, two, ?_⟩
      rintro key early _ late rfl
      exact ((known key).mp (later key late)).2 early
    · intro key mem
      rcases List.mem_append.mp mem with early | late
      · exact unknown key early
      · exact ((known key).mp (later key late)).1

end Dict

namespace Except

/-- If each element brings its entries to a dictionary where it fits and their keys are new, then all of them
together do, where each of them fits and all the keys are new. -/
theorem foldlM_decides (mk : Dict β → σ) (entries : α → List (String × β))
    {f : σ → α → Except ε σ} {fits : α → Prop}
    (step : ∀ d x, Decides (f (mk d) x) (fits x ∧ Dict.Fresh d (entries x))
      (mk (Dict.insertAll d (entries x)))) (d : Dict β) (xs : List α) :
    Decides (xs.foldlM f (mk d)) ((∀ x ∈ xs, fits x) ∧ Dict.Fresh d (xs.flatMap entries))
      (mk (Dict.insertAll d (xs.flatMap entries))) := by
  induction xs generalizing d with
  | nil => exact ⟨⟨List.forall_mem_nil _, List.nodup_nil, List.forall_mem_nil _⟩, rfl⟩
  | cons x xs ih =>
      rw [List.foldlM_cons, List.flatMap_cons, Dict.insertAll_append]
      refine ((step d x).bind (ih _)).congr ?_
      rw [Dict.fresh_append, List.forall_mem_cons]
      exact and_and_and_comm

end Except

namespace ActionSpec

def entry (spec : ActionSpec) : String × ActionSpec := (spec.keyword, spec)

theorem plugin?_eq_some {spec : ActionSpec} {plugin : String} :
    spec.plugin? = some plugin ↔ ∃ handler, spec.kind = .plugin plugin handler := by
  simp only [plugin?]
  cases spec.kind with
  | atomic primitive => simp
  | plugin name handler => simp

/-- A keyword in the namespace of a plugin is that of one of its words. -/
theorem inNamespace_iff {plugin keyword : String} : inNamespace plugin keyword = true ↔
    ∃ word, word ≠ "" ∧ '.' ∉ word.toList ∧ keyword = pluginKeyword plugin word := by
  have spelled (word : String) :
      (pluginKeyword plugin word).toList = s!"plugin.{plugin}.".toList ++ word.toList := by
    simp only [pluginKeyword, String.toList_append]
    rfl
  simp only [inNamespace]
  constructor
  · intro h
    split at h
    case h_1 rest found =>
      simp only [Bool.and_eq_true, Bool.not_eq_true', List.isEmpty_eq_false_iff] at h
      refine ⟨String.ofList rest, ?_, ?_, ?_⟩
      · simpa using h.1
      · simpa using h.2
      · rw [← String.toList_inj, spelled, String.toList_ofList]
        exact Text.eq_append_of_after? found
    case h_2 => cases h
  · rintro ⟨word, filled, free, rfl⟩
    rw [spelled, Text.after?_append]
    simpa using ⟨filled, free⟩

end ActionSpec

namespace Adapter

def pluginKeywords (a : Adapter) : List String := a.plugins.map ActionSpec.keyword

def semanticKeywords (a : Adapter) : List String := a.semantic.map Prod.fst

/-- The name can be a part of a keyword. -/
def Named (a : Adapter) : Prop := a.name ≠ "" ∧ '.' ∉ a.name.toList

/-- The action is one of the plugin that has the name of the adapter, and so is its keyword. -/
def Owns (a : Adapter) (spec : ActionSpec) : Prop :=
  (∃ handler, spec.kind = .plugin a.name handler) ∧
    ∃ word, word ≠ "" ∧ '.' ∉ word.toList ∧ spec.keyword = ActionSpec.pluginKeyword a.name word

/-- The adapters can be installed together. -/
structure Installable (adapters : List Adapter) : Prop where
  named : ∀ a ∈ adapters, a.Named
  owned : ∀ a ∈ adapters, ∀ spec ∈ a.plugins, a.Owns spec
  plugins : (adapters.flatMap pluginKeywords).Nodup
  unlisted : ∀ keyword ∈ adapters.flatMap pluginKeywords,
    keyword ∉ ActionSpec.builtins.map ActionSpec.keyword
  actions : (adapters.flatMap semanticKeywords).Nodup
  unregistered : ∀ keyword ∈ adapters.flatMap semanticKeywords,
    keyword ∉ ActionSpec.builtins.map ActionSpec.keyword ∧ keyword ∉ adapters.flatMap pluginKeywords

/-- What the adapter brings, handlers and expansions, is what its keywords stand for, and no other
adapter brings them. -/
structure Supplies (a : Adapter) (others : List Adapter) (i : Installed) : Prop where
  plugins : ∀ spec ∈ a.plugins, ∃ handler, spec.kind = .plugin a.name handler ∧
    i.registry.find? spec.keyword = some spec ∧ ∀ b ∈ others, spec.keyword ∉ b.pluginKeywords
  actions : ∀ entry ∈ a.semantic, Dict.find? i.expander.actions entry.1 = some entry.2 ∧
    ∀ b ∈ others, entry.1 ∉ b.semanticKeywords

end Adapter

/-- The adapters are installed: with the built-in actions and what the adapters bring, and nothing else. -/
structure Installed.Holds (adapters : List Adapter) (i : Installed) : Prop where
  isSealed : i.registry.isSealed = true
  registered : i.registry.actions.Perm
    ((ActionSpec.builtins ++ adapters.flatMap Adapter.plugins).map ActionSpec.entry)
  builtin : ∀ spec ∈ ActionSpec.builtins, i.registry.find? spec.keyword = some spec
  checks : i.expander.registry = i.registry
  known : i.expander.actions.Perm (adapters.flatMap Adapter.semantic)
  apart : ∀ keyword, ¬(i.registry.has keyword = true ∧ i.expander.has keyword = true)
  supplied : ∀ before a after, adapters = before ++ a :: after → a.Supplies (before ++ after) i
  packs : i.packs = adapters.map Adapter.pack

namespace Registry

theorem register_decides (d : Dict ActionSpec) (spec : ActionSpec) :
    Except.Decides (register ⟨d, false⟩ spec)
      (wellShaped spec = true ∧ Dict.contains d spec.keyword = false)
      ⟨Dict.insert spec.keyword spec d, false⟩ := by
  simp only [register, Bool.false_eq_true, if_false]
  split
  case isTrue crooked => exact fun both => by simp [both.1] at crooked
  case isFalse shaped =>
    split
    case isTrue known => exact fun both => Bool.false_ne_true (both.2.symm.trans known)
    case isFalse unknown => exact ⟨⟨by simpa using shaped, Bool.eq_false_iff.mpr unknown⟩, rfl⟩

end Registry

namespace Adapter

theorem hasGoodName_iff {a : Adapter} : a.hasGoodName = true ↔ a.Named := by
  simp [hasGoodName, Named]

theorem owns_iff {a : Adapter} {spec : ActionSpec} :
    a.Owns spec ↔ spec.plugin? = some a.name ∧ Registry.wellShaped spec = true := by
  rw [Owns, ← ActionSpec.plugin?_eq_some, ← ActionSpec.inNamespace_iff]
  refine and_congr_right fun own => ?_
  rw [Registry.wellShaped, own]

theorem registerPlugin_decides (a : Adapter) (d : Dict ActionSpec) (spec : ActionSpec) :
    Except.Decides (a.registerPlugin ⟨d, false⟩ spec) (a.Owns spec ∧ Dict.Fresh d [spec.entry])
      ⟨Dict.insertAll d [spec.entry], false⟩ := by
  rw [Dict.fresh_singleton, owns_iff]
  simp only [registerPlugin]
  split
  case isFalse foreign => exact fun both => foreign both.1.1
  case isTrue own =>
    have registers := (Registry.register_decides d spec).congr (q :=
      (spec.plugin? = some a.name ∧ Registry.wellShaped spec = true) ∧
        Dict.contains d spec.keyword = false) (by rw [and_iff_right own])
    generalize Registry.register ⟨d, false⟩ spec = r at registers ⊢
    cases r <;> exact registers

theorem registerPlugins_decides (d : Dict ActionSpec) (a : Adapter) :
    Except.Decides (registerPlugins ⟨d, false⟩ a)
      ((a.Named ∧ ∀ spec ∈ a.plugins, a.Owns spec) ∧ Dict.Fresh d (a.plugins.map ActionSpec.entry))
      ⟨Dict.insertAll d (a.plugins.map ActionSpec.entry), false⟩ := by
  have all := Except.foldlM_decides (Registry.mk · false) ([·.entry]) a.registerPlugin_decides d a.plugins
  rw [← List.map_eq_flatMap] at all
  simp only [registerPlugins]
  split
  case isTrue named => exact all.congr (by rw [and_iff_right (hasGoodName_iff.mp named)])
  case isFalse unnamed => exact fun both => unnamed (hasGoodName_iff.mpr both.1.1)

theorem registerAction_decides (a : Adapter) (registry : Registry) (d : Dict Expansion)
    (entry : String × Expansion) :
    Except.Decides (a.registerAction ⟨registry, d⟩ entry)
      (registry.has entry.1 = false ∧ Dict.Fresh d [entry])
      ⟨registry, Dict.insertAll d [entry]⟩ := by
  rw [Dict.fresh_singleton]
  simp only [registerAction]
  split
  case isTrue shadowing => exact fun both => by simp [shadowing] at both
  case isFalse unlisted =>
    simp only [Expander.register]
    cases known : Expander.has ⟨registry, d⟩ entry.1 with
    | true => exact fun both => Bool.false_ne_true (both.2.symm.trans known)
    | false => exact ⟨⟨Bool.eq_false_iff.mpr unlisted, known⟩, rfl⟩

theorem registerActions_decides (registry : Registry) (d : Dict Expansion) (a : Adapter) :
    Except.Decides (registerActions ⟨registry, d⟩ a)
      ((∀ entry ∈ a.semantic, registry.has entry.1 = false) ∧ Dict.Fresh d a.semantic)
      ⟨registry, Dict.insertAll d a.semantic⟩ := by
  have all := Except.foldlM_decides (Expander.mk registry) ([·]) (a.registerAction_decides registry) d
    a.semantic
  rw [← List.map_eq_flatMap, List.map_id'] at all
  exact all

end Adapter

/-- The registry with the actions that the adapters bring. -/
def Registry.of (adapters : List Adapter) : Registry :=
  ⟨Dict.ofList ((ActionSpec.builtins ++ adapters.flatMap Adapter.plugins).map ActionSpec.entry), true⟩

theorem Registry.of_actions (adapters : List Adapter) : (Registry.of adapters).actions =
    Dict.ofList ((ActionSpec.builtins ++ adapters.flatMap Adapter.plugins).map ActionSpec.entry) := by
  rw [Registry.of]

/-- What the adapters come to once they are installed. -/
def Installed.of (adapters : List Adapter) : Installed :=
  ⟨.of adapters, ⟨.of adapters, Dict.ofList (adapters.flatMap Adapter.semantic)⟩,
    adapters.map Adapter.pack⟩

namespace Dict

theorem fresh_ofList {old new : List (String × α)} :
    Fresh (ofList old) new ↔
      (new.map Prod.fst).Nodup ∧ ∀ key ∈ new.map Prod.fst, key ∉ old.map Prod.fst := by
  have unknown (key : String) : contains (ofList old) key = false ↔ key ∉ old.map Prod.fst := by
    rw [← contains_ofList, Bool.not_eq_true]
  constructor
  · rintro ⟨distinct, fresh⟩
    exact ⟨distinct, fun key mem => (unknown key).mp (fresh key mem)⟩
  · rintro ⟨distinct, fresh⟩
    exact ⟨distinct, fun key mem => (unknown key).mpr (fresh key mem)⟩

end Dict

namespace ActionSpec

theorem map_entry_keys (specs : List ActionSpec) :
    (specs.map entry).map Prod.fst = specs.map keyword := by
  rw [List.map_map]
  rfl

end ActionSpec

namespace Adapter

variable {adapters : List Adapter}

theorem plugins_keywords (adapters : List Adapter) :
    (adapters.flatMap plugins).map ActionSpec.keyword = adapters.flatMap pluginKeywords :=
  List.map_flatMap

theorem semantic_keywords (adapters : List Adapter) :
    (adapters.flatMap semantic).map Prod.fst = adapters.flatMap semanticKeywords :=
  List.map_flatMap

theorem registry_has {keyword : String} : (Registry.of adapters).has keyword = true ↔
    keyword ∈ ActionSpec.builtins.map ActionSpec.keyword ∨
      keyword ∈ adapters.flatMap pluginKeywords := by
  rw [Registry.has, Registry.of, Dict.contains_ofList, ActionSpec.map_entry_keys, List.map_append,
    plugins_keywords, List.mem_append]

/-- The checks that the adapters and their actions go through in turn come to the one condition. -/
theorem installable_iff : Installable adapters ↔
    ((∀ a ∈ adapters, a.Named ∧ ∀ spec ∈ a.plugins, a.Owns spec) ∧
      Dict.Fresh (Dict.ofList (ActionSpec.builtins.map ActionSpec.entry))
        (adapters.flatMap fun a => a.plugins.map ActionSpec.entry)) ∧
    (∀ a ∈ adapters, ∀ entry ∈ a.semantic, (Registry.of adapters).has entry.1 = false) ∧
      Dict.Fresh [] (adapters.flatMap semantic) := by
  have plugins : (adapters.flatMap fun a => a.plugins.map ActionSpec.entry).map Prod.fst =
      adapters.flatMap pluginKeywords := by
    rw [← List.map_flatMap, ActionSpec.map_entry_keys, plugins_keywords]
  have absent : (∀ a ∈ adapters, ∀ entry ∈ a.semantic,
      (Registry.of adapters).has entry.1 = false) ↔
        ∀ keyword ∈ adapters.flatMap semanticKeywords,
          keyword ∉ ActionSpec.builtins.map ActionSpec.keyword ∧
            keyword ∉ adapters.flatMap pluginKeywords := by
    simp only [← Bool.not_eq_true, registry_has, not_or, semanticKeywords, List.forall_mem_flatMap,
      List.forall_mem_map]
  have fresh : Dict.Fresh [] (adapters.flatMap semantic) ↔
      (adapters.flatMap semanticKeywords).Nodup := by
    rw [← semantic_keywords]
    exact ⟨Dict.Fresh.distinct, fun distinct => ⟨distinct, fun _ _ => rfl⟩⟩
  rw [Dict.fresh_ofList, plugins, ActionSpec.map_entry_keys, absent, fresh]
  constructor
  · intro h
    exact ⟨⟨fun a mem => ⟨h.named a mem, h.owned a mem⟩, h.plugins, h.unlisted⟩, h.unregistered,
      h.actions⟩
  · rintro ⟨⟨own, plugins, unlisted⟩, unregistered, actions⟩
    exact ⟨fun a mem => (own a mem).1, fun a mem => (own a mem).2, plugins, unlisted, actions,
      unregistered⟩

theorem install_decides (adapters : List Adapter) :
    Except.Decides (install .builtin adapters) (Installable adapters) (.of adapters) := by
  have builtin : Registry.builtin =
      ⟨Dict.ofList (ActionSpec.builtins.map ActionSpec.entry), false⟩ := rfl
  have first := Except.foldlM_decides (Registry.mk · false) (·.plugins.map ActionSpec.entry)
    registerPlugins_decides (Dict.ofList (ActionSpec.builtins.map ActionSpec.entry)) adapters
  have second := Except.foldlM_decides (Expander.mk (.of adapters)) semantic
    (registerActions_decides (.of adapters)) [] adapters
  refine Except.Decides.congr ?_ installable_iff.symm
  rw [install, builtin]
  -- The first pass leaves the whole registry, against which the second one goes.
  generalize adapters.foldlM registerPlugins _ = plugins at first ⊢
  cases plugins with
  | error error => exact fun both => first both.1
  | ok registry =>
      obtain ⟨own, rfl⟩ := first
      have brought : Registry.sealed ⟨Dict.insertAll
          (Dict.ofList (ActionSpec.builtins.map ActionSpec.entry))
          (adapters.flatMap fun a => a.plugins.map ActionSpec.entry), false⟩ = .of adapters := by
        rw [Registry.of, List.map_append, List.map_flatMap, Dict.ofList, Dict.ofList,
          Dict.insertAll_append]
        rfl
      simp only [brought, Expander.empty]
      generalize adapters.foldlM registerActions _ = actions at second ⊢
      cases actions with
      | error error => exact fun both => second both.2
      | ok expander =>
          obtain ⟨new, rfl⟩ := second
          exact ⟨⟨own, new⟩, rfl⟩

theorem not_mem_of_nodup_flatMap {keys : α → List String} {before after : List α} {a : α}
    (distinct : ((before ++ a :: after).flatMap keys).Nodup) {key : String} (mem : key ∈ keys a) :
    ∀ b ∈ before ++ after, key ∉ keys b := by
  intro b other own
  -- The keys of the one element can stand in front of those of all others.
  have moved := (List.perm_middle.flatMap_right keys).nodup_iff.mp distinct
  rw [List.flatMap_cons] at moved
  exact (List.nodup_append.mp moved).2.2 key mem key (List.mem_flatMap.mpr ⟨b, other, own⟩) rfl

theorem Installable.keywords (h : Installable adapters) :
    (((ActionSpec.builtins ++ adapters.flatMap Adapter.plugins).map ActionSpec.entry).map
      Prod.fst).Nodup := by
  have builtins : (ActionSpec.builtins.map ActionSpec.keyword).Nodup := by decide
  rw [ActionSpec.map_entry_keys, List.map_append, plugins_keywords]
  refine List.nodup_append.mpr ⟨builtins, h.plugins, ?_⟩
  rintro keyword listed _ brought rfl
  exact h.unlisted keyword brought listed

theorem Installable.registered (h : Installable adapters) : (Registry.of adapters).actions.Perm
    ((ActionSpec.builtins ++ adapters.flatMap Adapter.plugins).map ActionSpec.entry) := by
  rw [Registry.of_actions]
  exact Dict.ofList_perm h.keywords

theorem Installable.find? (h : Installable adapters) {spec : ActionSpec}
    (mem : spec ∈ ActionSpec.builtins ++ adapters.flatMap Adapter.plugins) :
    (Registry.of adapters).find? spec.keyword = some spec := by
  have sorted : Dict.Sorted (Registry.of adapters).actions := by
    rw [Registry.of_actions]
    exact Dict.sorted_ofList _
  have stored : spec.entry ∈ (Registry.of adapters).actions :=
    h.registered.mem_iff.mpr (List.mem_map_of_mem mem)
  exact Dict.find?_of_mem sorted.nodup_keys stored

/-- Adapters that can be installed together come to what they bring, beside the built-in actions. -/
theorem holds_of_installable (h : Installable adapters) : (Installed.of adapters).Holds adapters := by
  have known : (Dict.ofList (adapters.flatMap semantic)).Perm (adapters.flatMap semantic) :=
    Dict.ofList_perm (semantic_keywords adapters ▸ h.actions)
  refine ⟨rfl, h.registered, ?_, rfl, known, ?_, ?_, rfl⟩
  · exact fun spec mem => h.find? (List.mem_append_left _ mem)
  · rintro keyword ⟨listed, brought⟩
    have mem : keyword ∈ adapters.flatMap semanticKeywords := by
      rw [← semantic_keywords]
      exact Dict.contains_ofList.mp brought
    obtain ⟨unlisted, unregistered⟩ := h.unregistered keyword mem
    exact (registry_has.mp listed).elim unlisted unregistered
  · intro before a after split
    have among : a ∈ adapters := by simp [split]
    refine ⟨fun spec mem => ?_, fun entry mem => ⟨?_, ?_⟩⟩
    · obtain ⟨⟨handler, own⟩, -⟩ := h.owned a among spec mem
      refine ⟨handler, own, h.find? ?_, ?_⟩
      · exact List.mem_append_right _ (List.mem_flatMap.mpr ⟨a, among, mem⟩)
      · exact not_mem_of_nodup_flatMap (split ▸ h.plugins) (List.mem_map_of_mem mem)
    · exact Dict.find?_of_mem (Dict.sorted_ofList _).nodup_keys
        (known.mem_iff.mpr (List.mem_flatMap.mpr ⟨a, among, mem⟩))
    · exact not_mem_of_nodup_flatMap (split ▸ h.actions) (List.mem_map_of_mem mem)

/-- Adapters are installed exactly if they can be, and then every keyword stands for what the one adapter
brings that has it, or for the built-in action. -/
theorem install_unambiguous (adapters : List Adapter) :
    match install .builtin adapters with
    | .ok i => Installable adapters ∧ i.Holds adapters
    | .error _ => ¬Installable adapters := by
  have decides := install_decides adapters
  cases installed : install .builtin adapters with
  | error error =>
      rw [installed] at decides
      exact decides
  | ok i =>
      rw [installed] at decides
      obtain ⟨installable, rfl⟩ := decides
      exact ⟨installable, holds_of_installable installable⟩

/-- An adapter with one action, of the plugin that has its name. -/
example : (install .builtin [⟨"app", [⟨"plugin.app.greet", .plugin "app" ⟨"greet"⟩, [], .none, ""⟩], [],
    ⟨"app", []⟩⟩]).isOk = true := by rfl

end Adapter

end Journey
