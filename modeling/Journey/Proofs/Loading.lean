import Journey.CommandLine.Execution
import Journey.Proofs.Adapter

/-!
Loading that succeeds, from storage with a state of its own: each of its parts has succeeded in turn.
Every workflow that is loaded was compiled from some text, and a configuration that can be prepared has
adapters that can be installed. Nothing is said here about what storage holds.
-/

namespace Journey

variable {ε α γ ρ : Type}

/-- The computation succeeds with a value, and leads the storage from one state to another. -/
def Gives (x : ExceptT ε (StateM ρ) α) (d : ρ) (a : α) (d' : ρ) : Prop := x.run.run d = (.ok a, d')

namespace Gives

variable {d d' : ρ}

theorem bind {x : ExceptT ε (StateM ρ) α} {f : α → ExceptT ε (StateM ρ) γ} {a : α} {c : γ} {m : ρ}
    (first : Gives x d a m) (rest : Gives (f a) m c d') : Gives (x >>= f) d c d' := by
  simp only [Gives, ExceptT.run_bind, StateT.run_bind] at first rest ⊢
  rw [first]
  exact rest

theorem of_bind {x : ExceptT ε (StateM ρ) α} {f : α → ExceptT ε (StateM ρ) γ} {c : γ}
    (h : Gives (x >>= f) d c d') : ∃ a m, Gives x d a m ∧ Gives (f a) m c d' := by
  simp only [Gives, ExceptT.run_bind, StateT.run_bind] at h ⊢
  rcases ran : x.run.run d with ⟨error | a, m⟩
  · rw [ran] at h
    cases h
  · rw [ran] at h
    exact ⟨a, m, rfl, h⟩

theorem of_pure {a c : α} (h : Gives (pure a : ExceptT ε (StateM ρ) α) d c d') : c = a ∧ d' = d := by
  obtain ⟨value, state⟩ := Prod.mk.inj h
  exact ⟨(Except.ok.inj value).symm, state.symm⟩

theorem not_throw {error : ε} {a : α} : ¬ Gives (throw error : ExceptT ε (StateM ρ) α) d a d' := by
  intro h
  cases (Prod.mk.inj h).1

theorem of_loading {x : ExceptT LoadError (StateM ρ) α} {a : α}
    (h : Gives (Command.loading x) d a d') : Gives x d a d' := by
  rcases ran : x.run.run d with ⟨result, m⟩
  have adapted : (Command.loading x).run.run d = (result.mapError .load, m) :=
    congrArg (fun p : Except LoadError α × ρ => (p.1.mapError CommandError.load, p.2)) ran
  obtain ⟨given, same⟩ := Prod.mk.inj (adapted.symm.trans h)
  rw [Gives, ran, Except.ok_of_mapError given, same]

theorem of_mapM {f : α → ExceptT ε (StateM ρ) γ} {xs : List α} {ys : List γ}
    (h : Gives (xs.mapM f) d ys d') : ∀ y ∈ ys, ∃ x ∈ xs, ∃ m m', Gives (f x) m y m' := by
  induction xs generalizing d d' ys with
  | nil =>
      rw [List.mapM_nil] at h
      obtain ⟨rfl, -⟩ := of_pure h
      exact List.forall_mem_nil _
  | cons x xs ih =>
      rw [List.mapM_cons] at h
      obtain ⟨y, m, first, h⟩ := of_bind h
      obtain ⟨more, m', rest, h⟩ := of_bind h
      obtain ⟨rfl, -⟩ := of_pure h
      refine List.forall_mem_cons.mpr ⟨⟨x, List.mem_cons_self, d, m, first⟩, fun z later => ?_⟩
      obtain ⟨x', among, ran⟩ := ih rest z later
      exact ⟨x', List.mem_cons_of_mem _ among, ran⟩

end Gives

/-- Every workflow that is loaded was compiled from a text. -/
theorem Loader.compiled_of_load {fs : Storage (StateM ρ)} {c : Compiler} {location : String}
    {d d' : ρ} {ws : List Workflow} (h : Gives (load fs c location) d ws d') :
    ∀ w ∈ ws, ∃ text file ws', c.compileAll text file = .ok ws' ∧ w ∈ ws' := by
  obtain ⟨files, m, -, h⟩ := Gives.of_bind h
  obtain ⟨parts, m', loaded, h⟩ := Gives.of_bind h
  obtain ⟨rfl, -⟩ := Gives.of_pure h
  intro w mem
  obtain ⟨part, among, owner⟩ := List.mem_flatten.mp mem
  obtain ⟨file, -, m, m', read⟩ := loaded.of_mapM part among
  obtain ⟨text, m, -, read⟩ := Gives.of_bind read
  split at read
  case h_1 compiled =>
    obtain ⟨rfl, -⟩ := Gives.of_pure read
    exact ⟨text, file, part, compiled, owner⟩
  case h_2 => exact absurd read Gives.not_throw

namespace Command

/-- What a configuration comes to: its settings, the adapters that they name, and what installing these
gives, with the packs of the settings besides those of the adapters. -/
structure Prepares (fs : Storage (StateM ρ)) (yaml : Node.Reader) (config : Option String) (d : ρ)
    (settings : Settings) (adapters : List DeclaredAdapter) (installed : Installed) (d' : ρ) :
    Prop where
  prepared : Gives (prepare fs yaml config) d (settings, installed) d'
  loaded : ∃ m m', Gives (settings.adapters.mapM (Loader.loadAdapter fs yaml)) m adapters m'
  installs : ∃ base packs, install .builtin (adapters.map DeclaredAdapter.adapter) = .ok base ∧
    installed = { base with packs := base.packs ++ packs }

theorem prepares_of_prepare {fs : Storage (StateM ρ)} {yaml : Node.Reader}
    {config : Option String} {d d' : ρ} {settings : Settings} {installed : Installed}
    (h : Gives (prepare fs yaml config) d (settings, installed) d') :
    ∃ adapters, Prepares fs yaml config d settings adapters installed d' := by
  have prepared := h
  obtain ⟨settings', m, -, h⟩ := Gives.of_bind h
  obtain ⟨adapters, m', loaded, h⟩ := Gives.of_bind h
  split at h
  case h_1 => exact absurd h Gives.not_throw
  case h_2 base installs =>
    obtain ⟨packs, m'', -, h⟩ := Gives.of_bind h
    obtain ⟨same, -⟩ := Gives.of_pure h
    obtain ⟨rfl, rfl⟩ := Prod.mk.inj same
    exact ⟨adapters, prepared, ⟨m, m', loaded.of_loading⟩, base, packs, installs, rfl⟩

theorem Prepares.declares {fs : Storage (StateM ρ)} {yaml : Node.Reader} {config : Option String}
    {d d' : ρ} {settings : Settings} {adapters : List DeclaredAdapter} {installed : Installed}
    (h : Prepares fs yaml config d settings adapters installed d') : installed.Declares adapters := by
  obtain ⟨base, packs, installs, rfl⟩ := h.installs
  obtain ⟨registry, checks, actions⟩ := declares_of_install installs
  exact ⟨registry, checks, actions⟩

end Command
end Journey
