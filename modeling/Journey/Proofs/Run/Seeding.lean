import Journey.Proofs.Compile.Declaration
import Journey.Proofs.Run.Record
import Journey.Proofs.Scope
import Journey.Proofs.Text

/-!
Seeding the variables of a workflow. They are set by ascending name, whatever their order in the text,
so that a variable sees those with smaller names and no others. Where the two orders agree on what is
referred to, each variable has the value that the text in front of it gives; otherwise a run may fail
before its first step. What the steps make of the variables is not stated here.
-/

namespace Journey

/-- The name has no point, and so is looked up as a whole. -/
def Path.IsPlain (name : String) : Prop := '.' ∉ name.toList

instance (name : String) : Decidable (Path.IsPlain name) := inferInstanceAs (Decidable (¬ _))

theorem Path.lookup_of_isPlain {name : String} (plain : Path.IsPlain name)
    (data : List (String × Value)) : Path.lookup data name = Dict.find? data name := by
  rw [Path.lookup]
  cases held : Dict.find? data name with
  | some v => rfl
  | none =>
      rw [Path.walk?, Path.words, Text.splitOn_of_not_mem plain]
      simp [held]

/-- The statement holds of each entry and those in front of it. -/
def InTurn {α : Type} (P : List α → α → Prop) (entries : List α) : Prop :=
  ∀ before entry after, entries = before ++ entry :: after → P before entry

namespace InTurn

variable {α : Type} {P : List α → α → Prop} {entry : α} {rest : List α}

theorem nil : InTurn P [] := fun before _ _ split => by
  cases before <;> cases split

theorem cons_iff : InTurn P (entry :: rest) ↔
    P [] entry ∧ InTurn (fun before => P (entry :: before)) rest := by
  constructor
  · intro h
    exact ⟨h [] entry rest rfl, fun before later after split =>
      h (entry :: before) later after (by rw [split, List.cons_append])⟩
  · rintro ⟨first, others⟩ (_ | ⟨_, before⟩) later after split
    · cases split
      exact first
    · cases split
      exact others before later after rfl

end InTurn

namespace Context

/-- The context with no values but those under the names. -/
def only (c : Context) (names : List String) : Context :=
  { c with data := c.data.filter fun entry => entry.1 ∈ names }

theorem get?_only (c : Context) (names : List String) (name : String) :
    (c.only names).get? name = if name ∈ names then c.get? name else none := by
  simp only [get?, only]
  induction c.data with
  | nil => simp [Dict.find?]
  | cons entry rest ih =>
      obtain ⟨key, v⟩ := entry
      by_cases same : key = name
      · subst same
        by_cases kept : key ∈ names <;> simp_all [Dict.find?]
      · by_cases kept : key ∈ names <;> simp [Dict.find?, kept, same, ih]

theorem get?_set (c : Context) (key name : String) (v : Value) :
    (c.set key v).get? name = if name = key then some v else c.get? name := by
  rw [get?, set]
  split
  case isTrue same => rw [same, Dict.find?_insert_self]
  case isFalse other => exact Dict.find?_insert_of_ne other v c.data

end Context

/-- All that the values refer to has a plain name. -/
def ReferPlainly (entries : List (String × Value)) : Prop :=
  ∀ entry ∈ entries, ∀ ref ∈ Placeholder.valueNames entry.2, Path.IsPlain ref

namespace Engine

variable {β μ : Type} {e : Engine β μ}

/-- What a variable sees while it is seeded. -/
def seedScope (e : Engine β μ) (context : Context) : Scope := ⟨none, context, e.template⟩

theorem lookup_seedScope {context : Context} {name : String} (plain : Path.IsPlain name) :
    (e.seedScope context).lookup name = (context.get? name).or (e.template.lookup name) := by
  rw [seedScope, Scope.lookup, Context.lookup, Path.lookup_of_isPlain plain]
  simp [Context.get?]

/-- Seeding one variable after others. -/
theorem seed_append {before after : List (String × Value)} {context last : Context}
    (h : e.seed (before ++ after) context = .ok last) :
    ∃ mid, e.seed before context = .ok mid ∧ e.seed after mid = .ok last := by
  induction before generalizing context with
  | nil => exact ⟨context, rfl, h⟩
  | cons entry rest ih =>
      obtain ⟨name, value⟩ := entry
      rw [List.cons_append, seed] at h
      rw [seed]
      split at h
      case h_1 => cases h
      case h_2 resolved made => exact ih h

theorem seed_cons {name : String} {value : Value} {rest : List (String × Value)}
    {context last : Context} (h : e.seed ((name, value) :: rest) context = .ok last) :
    ∃ v, (e.seedScope context).resolve value = .ok v ∧
      e.seed rest (context.set name v) = .ok last := by
  rw [seed] at h
  split at h
  case h_1 => cases h
  case h_2 resolved made => exact ⟨resolved, made, h⟩

/-- Seeding does not touch what has another name. -/
theorem seed_get?_of_not_mem {entries : List (String × Value)} {context last : Context}
    {name : String} (h : e.seed entries context = .ok last)
    (absent : name ∉ entries.map Prod.fst) : last.get? name = context.get? name := by
  induction entries generalizing context with
  | nil => exact Except.ok.inj h ▸ rfl
  | cons entry rest ih =>
      obtain ⟨key, value⟩ := entry
      obtain ⟨v, _, more⟩ := seed_cons h
      rw [List.map_cons, List.mem_cons, not_or] at absent
      rw [ih more absent.2, Context.get?_set, if_neg absent.1]

/-- Each variable is resolved where the ones in front of it have their last values and no other
variable has any. -/
theorem seed_place {before after : List (String × Value)} {name : String} {value : Value}
    {last : Context} (h : e.seed (before ++ (name, value) :: after) .empty = .ok last)
    (distinct : ((before ++ (name, value) :: after).map Prod.fst).Nodup) :
    ∃ mid v, (e.seedScope mid).resolve value = .ok v ∧ last.get? name = some v ∧
      ∀ n, mid.get? n = (last.only (before.map Prod.fst)).get? n := by
  obtain ⟨mid, first, rest⟩ := seed_append h
  obtain ⟨v, made, more⟩ := seed_cons rest
  rw [List.map_append, List.map_cons, List.nodup_append] at distinct
  obtain ⟨-, later, apart⟩ := distinct
  refine ⟨mid, v, made, ?_, fun n => ?_⟩
  · rw [seed_get?_of_not_mem more (List.nodup_cons.mp later).1, Context.get?_set, if_pos rfl]
  · rw [Context.get?_only]
    split
    case isTrue early =>
      have absent : n ∉ after.map Prod.fst := fun mem =>
        apart n early n (List.mem_cons_of_mem _ mem) rfl
      rw [seed_get?_of_not_mem more absent, Context.get?_set,
        if_neg (apart n early name List.mem_cons_self)]
    case isFalse late => exact seed_get?_of_not_mem first late

/-- The value of each entry refers, by plain names, to entries in front of it and to what the template
knows. -/
def Grounded (e : Engine β μ) : List (String × Value) → Prop :=
  InTurn fun before entry => ∀ ref ∈ Placeholder.valueNames entry.2, Path.IsPlain ref ∧
    (ref ∈ before.map Prod.fst ∨ (e.template.lookup ref).isSome = true)

theorem Grounded.referPlainly {entries : List (String × Value)} (h : e.Grounded entries) :
    ReferPlainly entries := by
  intro entry owner ref mem
  obtain ⟨before, after, split⟩ := List.append_of_mem owner
  exact (h before entry after split ref mem).1

/-- Each entry has the value that it resolves to where the entries in front of it have theirs and no
other entry has any. -/
def Binds (e : Engine β μ) (entries : List (String × Value)) (context : Context) : Prop :=
  InTurn (fun before entry => ∃ v, context.get? entry.1 = some v ∧
    (e.seedScope (context.only (before.map Prod.fst))).resolve entry.2 = .ok v) entries

theorem knows_seedScope {context : Context} {name : String} (plain : Path.IsPlain name) :
    (e.seedScope context).Knows name ↔
      (context.get? name).isSome = true ∨ (e.template.lookup name).isSome = true := by
  rw [Scope.Knows, lookup_seedScope plain, Option.isSome_or, Bool.or_eq_true]

theorem resolve_seedScope_congr {context context' : Context} {value : Value}
    (plain : ∀ ref ∈ Placeholder.valueNames value, Path.IsPlain ref)
    (same : ∀ ref ∈ Placeholder.valueNames value, context.get? ref = context'.get? ref) :
    (e.seedScope context).resolve value = (e.seedScope context').resolve value := by
  refine Scope.resolve_congr value fun ref mem => ?_
  rw [lookup_seedScope (plain ref mem), lookup_seedScope (plain ref mem), same ref mem]

/-- Seeding succeeds if all that is referred to stands in front, is there already, or is known to the
template. -/
theorem seed_succeeds {entries : List (String × Value)} {context : Context}
    (known : InTurn (fun before entry => ∀ ref ∈ Placeholder.valueNames entry.2,
      Path.IsPlain ref ∧ (ref ∈ before.map Prod.fst ∨
        (context.get? ref).isSome = true ∨ (e.template.lookup ref).isSome = true)) entries) :
    ∃ last, e.seed entries context = .ok last := by
  induction entries generalizing context with
  | nil => exact ⟨context, rfl⟩
  | cons entry rest ih =>
      obtain ⟨name, value⟩ := entry
      obtain ⟨first, others⟩ := InTurn.cons_iff.mp known
      obtain ⟨v, made⟩ : ∃ v, (e.seedScope context).resolve value = .ok v := by
        refine (Scope.resolve_ok_iff _ value).mpr fun ref mem => ?_
        obtain ⟨plain, here⟩ := first ref mem
        exact (knows_seedScope plain).mpr (here.resolve_left List.not_mem_nil)
      obtain ⟨last, more⟩ := @ih (context.set name v) fun before entry after split => by
        intro ref mem
        obtain ⟨plain, here⟩ := others before entry after split ref mem
        refine ⟨plain, ?_⟩
        rw [Context.get?_set]
        by_cases same : ref = name
        · simp [same]
        · simpa [same] using here
      refine ⟨last, ?_⟩
      rw [seed, show (Scope.mk none context e.template).resolve value = .ok v from made]
      exact more

section Plain

variable {entries : List (String × Value)} (plain : ReferPlainly entries)

include plain

theorem binds_of_seed (distinct : (entries.map Prod.fst).Nodup) {last : Context}
    (h : e.seed entries .empty = .ok last) : e.Binds entries last := by
  rintro before ⟨name, value⟩ after rfl
  obtain ⟨mid, v, made, bound, same⟩ := seed_place h distinct
  refine ⟨v, bound, ?_⟩
  exact (resolve_seedScope_congr (plain (name, value) (by simp)) fun ref _ => same ref) ▸ made

/-- Variables with plain references are seeded exactly if each is grounded in those before it. -/
theorem seed_ok_iff (distinct : (entries.map Prod.fst).Nodup) :
    (∃ last, e.seed entries .empty = .ok last) ↔ e.Grounded entries := by
  constructor
  · rintro ⟨last, made⟩ before entry after split ref mem
    have dotless := plain entry (by simp [split]) ref mem
    refine ⟨dotless, ?_⟩
    obtain ⟨v, -, resolved⟩ := binds_of_seed plain distinct made before entry after split
    have known := (Scope.resolve_ok_iff _ entry.2).mp ⟨v, resolved⟩ ref mem
    rw [knows_seedScope dotless, Context.get?_only] at known
    by_cases early : ref ∈ before.map Prod.fst
    · exact .inl early
    · rw [if_neg early] at known
      exact .inr (known.resolve_left Bool.false_ne_true)
  · intro grounded
    refine seed_succeeds fun before entry after split ref mem => ?_
    obtain ⟨dotless, here⟩ := grounded before entry after split ref mem
    exact ⟨dotless, here.imp_right .inr⟩

theorem Binds.of_data {context context' : Context} (h : e.Binds entries context)
    (same : context'.data = context.data) : e.Binds entries context' := by
  have get (n : String) : context'.get? n = context.get? n := congrArg (Dict.find? · n) same
  intro before entry after split
  obtain ⟨v, bound, made⟩ := h before entry after split
  refine ⟨v, (get entry.1).trans bound, ?_⟩
  rw [← made]
  refine resolve_seedScope_congr (plain entry (by simp [split])) fun ref _ => ?_
  simp only [Context.get?_only, get]

end Plain

end Engine

/-- What a value refers to stands in front of it exactly if it has a smaller name. -/
def FollowsNames (entries : List (String × Value)) : Prop :=
  InTurn (fun before entry => ∀ ref ∈ Placeholder.valueNames entry.2,
    ref ∈ before.map Prod.fst ↔ ref ∈ entries.map Prod.fst ∧ ref < entry.1) entries

namespace FollowsNames

variable {β μ : Type} {e : Engine β μ} {entries before after before' after' : List (String × Value)}
  {entry : String × Value}

/-- What a value refers to stands in front of it by name exactly if it does so in the text. -/
theorem mem_before (h : FollowsNames entries) (distinct : (entries.map Prod.fst).Nodup)
    (split : entries = before ++ entry :: after)
    (split' : Dict.ofList entries = before' ++ entry :: after') :
    ∀ ref ∈ Placeholder.valueNames entry.2,
      (ref ∈ before'.map Prod.fst ↔ ref ∈ before.map Prod.fst) := by
  intro ref mem
  have names : ref ∈ (Dict.ofList entries).map Prod.fst ↔ ref ∈ entries.map Prod.fst :=
    ((Dict.ofList_perm distinct).map Prod.fst).mem_iff
  have sorted := Dict.sorted_ofList entries
  rw [split'] at sorted
  rw [sorted.mem_before, ← split', names]
  exact (h before entry after split ref mem).symm

theorem grounded (h : FollowsNames entries) (distinct : (entries.map Prod.fst).Nodup)
    (grounded : e.Grounded entries) : e.Grounded (Dict.ofList entries) := by
  intro before' entry after' split' ref mem
  have owner : entry ∈ entries := (Dict.ofList_perm distinct).mem_iff.mp (by simp [split'])
  obtain ⟨before, after, split⟩ := List.append_of_mem owner
  rw [h.mem_before distinct split split' ref mem]
  exact grounded before entry after split ref mem

theorem binds (h : FollowsNames entries) (distinct : (entries.map Prod.fst).Nodup)
    (plain : ReferPlainly entries)
    {context : Context} (binds : e.Binds (Dict.ofList entries) context) :
    e.Binds entries context := by
  intro before entry after split
  have owner : entry ∈ entries := by simp [split]
  obtain ⟨before', after', split'⟩ :=
    List.append_of_mem ((Dict.ofList_perm distinct).mem_iff.mpr owner)
  obtain ⟨v, bound, made⟩ := binds before' entry after' split'
  refine ⟨v, bound, ?_⟩
  rw [← made]
  refine Engine.resolve_seedScope_congr (plain entry owner) fun ref mem => ?_
  simp only [Context.get?_only, h.mem_before distinct split split' ref mem]

end FollowsNames

namespace Engine

variable {β μ : Type} {e : Engine β μ}

/-- With plain references a run is prepared exactly if each variable is grounded in those that have
smaller names. -/
theorem prepare_ok_iff {w : Workflow}
    (loaded : ∀ pack, w.locatorPack = some pack → e.resolver.hasPack pack = true)
    (plain : ReferPlainly w.vars)
    (distinct : (w.vars.map Prod.fst).Nodup) :
    (∃ context, e.prepare w = .ok context) ↔ e.Grounded w.vars := by
  rw [← seed_ok_iff plain distinct, prepare_of_loaded loaded]
  cases e.seed w.vars .empty with
  | ok context => exact ⟨fun _ => ⟨context, rfl⟩, fun _ => ⟨context, rfl⟩⟩
  | error error => exact ⟨nofun, nofun⟩

/-- Variables that refer, by plain names, to variables in front of them and to what the template knows
are seeded as the text has them, provided that they come by name after what they refer to. -/
theorem run_seeds {c : Compiler} {text file : String} {ws : List Workflow}
    (compiled : c.compileAll text file = .ok ws) {w : Workflow} (mem : w ∈ ws)
    (loaded : ∀ pack, w.locatorPack = some pack → e.resolver.hasPack pack = true)
    (grounded : e.Grounded (Line.declarations text w.source.line))
    (follows : FollowsNames (Line.declarations text w.source.line)) (world : World β) (memory : μ) :
    ∃ r world' memory' record, e.run w world memory = (.ok r, world', memory') ∧
      Record.TellsRun e w r world memory world' memory' record ∧
      ∀ x ∈ record.entries.head?, e.Binds (Line.declarations text w.source.line) x.before.context := by
  have declares := Compiler.declares_of_compileAll compiled mem
  have plain := grounded.referPlainly
  have plainVars : ReferPlainly w.vars := fun entry owner =>
    plain entry (declares.perm.mem_iff.mp owner)
  have groundedVars : e.Grounded w.vars := declares.vars ▸ follows.grounded declares.distinct grounded
  obtain ⟨context, prepared⟩ :=
    (prepare_ok_iff loaded plainVars declares.nodup_vars).mpr groundedVars
  have seeded := binds_of_seed plainVars declares.nodup_vars (prepare_seed prepared)
  rw [declares.vars] at seeded
  have binds := follows.binds declares.distinct plain seeded
  obtain ⟨r, world', memory', record, run, tells, first⟩ := run_of_prepare prepared world memory
  exact ⟨r, world', memory', record, run, tells, fun x here => binds.of_data plain (first x here)⟩

/-- A workflow whose second variable refers to its first. -/
def forwards : String :=
  "workflow: w\nvar a = x\nvar b = $a\nphase: one\ndo greet\nend phase\nend workflow"

theorem declarations_forwards :
    Line.declarations forwards 1 = [("a", .str "x"), ("b", .str "$a")] := rfl

theorem run_forwards_seeded : ∃ w r world' memory' record,
    (⟨.empty, none, false⟩ : Compiler).compileAll forwards "page.flow" = .ok [w] ∧
      (bare : Engine Rehearsal Unit).run w Scene.blank.world () = (.ok r, world', memory') ∧
      Record.TellsRun bare w r Scene.blank.world () world' memory' record ∧
      ∀ x ∈ record.entries.head?, (bare : Engine Rehearsal Unit).Binds
        (Line.declarations forwards w.source.line) x.before.context := by
  have one : ((⟨.empty, none, false⟩ : Compiler).compileAll forwards "page.flow").toOption.map
      (List.map fun w => (w.locatorPack, w.source.line)) = some [(none, 1)] := by decide
  obtain ⟨w, compiled, same⟩ := Except.ok_of_toOption_singleton one
  obtain ⟨pack, line⟩ := Prod.mk.inj same
  have loaded : ∀ pack, w.locatorPack = some pack →
      (bare : Engine Rehearsal Unit).resolver.hasPack pack = true := by
    intro name named
    rw [pack] at named
    cases named
  have grounded : (bare : Engine Rehearsal Unit).Grounded
      (Line.declarations forwards w.source.line) := by
    rw [line, declarations_forwards]
    exact InTurn.cons_iff.mpr ⟨nofun, InTurn.cons_iff.mpr
      ⟨List.forall_mem_singleton.mpr ⟨by decide, .inl List.mem_cons_self⟩, .nil⟩⟩
  have follows : FollowsNames (Line.declarations forwards w.source.line) := by
    rw [line, declarations_forwards]
    exact InTurn.cons_iff.mpr ⟨nofun, InTurn.cons_iff.mpr
      ⟨List.forall_mem_singleton.mpr (by decide), .nil⟩⟩
  obtain ⟨r, world', memory', record, run⟩ :=
    run_seeds compiled List.mem_cons_self loaded grounded follows Scene.blank.world ()
  exact ⟨w, r, world', memory', record, compiled, run⟩

/-- The same workflow with the names of its variables exchanged. -/
def backwards : String :=
  "workflow: w\nvar b = x\nvar a = $b\nphase: one\ndo greet\nend phase\nend workflow"

theorem declarations_backwards :
    Line.declarations backwards 1 = [("b", .str "x"), ("a", .str "$b")] := rfl

theorem run_backwards_unknown : ∃ w,
    (⟨.empty, none, false⟩ : Compiler).compileAll backwards "page.flow" = .ok [w] ∧
      (bare : Engine Rehearsal Unit).Grounded (Line.declarations backwards w.source.line) ∧
      ((bare : Engine Rehearsal Unit).run w Scene.blank.world ()).1 =
        .error (.expression (.unknownVariable "b")) := by
  have one : ((⟨.empty, none, false⟩ : Compiler).compileAll backwards "page.flow").toOption.map
      (List.map fun w => (w.locatorPack, w.source.line)) = some [(none, 1)] := by decide
  obtain ⟨w, compiled, same⟩ := Except.ok_of_toOption_singleton one
  obtain ⟨pack, line⟩ := Prod.mk.inj same
  have vars := (Compiler.declares_of_compileAll compiled List.mem_cons_self).vars
  rw [line, declarations_backwards] at vars
  refine ⟨w, compiled, ?_, ?_⟩
  · rw [line, declarations_backwards]
    exact InTurn.cons_iff.mpr ⟨nofun, InTurn.cons_iff.mpr
      ⟨List.forall_mem_singleton.mpr ⟨by decide, .inl List.mem_cons_self⟩, .nil⟩⟩
  · have prepared : (bare : Engine Rehearsal Unit).prepare w =
        .error (.expression (.unknownVariable "b")) := by
      rw [prepare, pack, vars]
      rfl
    rw [run, prepared]

end Engine
end Journey
