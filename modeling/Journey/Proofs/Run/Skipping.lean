import Journey.Proofs.Compile.Ownership
import Journey.Proofs.Run.Record

/-!
What the skipped flag of a phase says. A phase that was never started has the flag, and all of its
steps are skipped. The converse has one exception: a phase whose first step is held back by
cancellation has skipped all of its steps as well, and does not have the flag. Which phases are
started at all is stated with the passage through them.
-/

namespace Journey

variable {β μ : Type}

/-- Every step of the phase is recorded as skipped. -/
def PhaseResult.Idle (p : PhaseResult) : Prop := ∀ r ∈ p.steps, r.isSkipped = true

namespace Chapter

/-- Cancellation was seen when the turn of the first step came. -/
def isForestalled (c : Chapter β μ) : Bool := c.entries.head?.any Entry.isCancelled

/-- The flag and the steps agree on whether the phase was skipped, unless the phase was forestalled.
Such a phase has failed without a step carried out, and does not have the flag. -/
structure Skips (c : Chapter β μ) : Prop where
  agrees : (c.result.skipped = true ↔ c.result.Idle) ↔ c.isForestalled = false
  forestalled : c.isForestalled = true → c.result.skipped = false ∧ c.result.Idle ∧
    c.result.success = false ∧ ∀ x ∈ c.entries, x.PassedOver

theorem isForestalled_cons (phase : Phase) (p : PhaseResult) (x : Entry β μ) (xs : List (Entry β μ)) :
    isForestalled ⟨phase, p, x :: xs⟩ = x.isCancelled := rfl

theorem isForestalled_of_calm {c : Chapter β μ} (calm : Entry.Calm c.entries) :
    c.isForestalled = false := by
  rw [isForestalled]
  cases first : c.entries.head? with
  | none => rfl
  | some x => exact calm x (List.mem_of_head? first)

end Chapter

theorem Entry.isCancelled_of_carriedOut {x : Entry β μ} (h : x.result.isSkipped = false) :
    x.isCancelled = false := by
  have none : x.result.skipped = none :=
    Option.isNone_iff_eq_none.mp (Option.isSome_eq_false_iff.mp h)
  simp [Entry.isCancelled, none]

theorem Entry.Tell.idle {declared : List Step} {p : PhaseResult} {xs : List (Entry β μ)}
    (tell : Entry.Tell declared p.steps xs) (passed : ∀ x ∈ xs, x.PassedOver) : p.Idle := by
  rw [PhaseResult.Idle, ← tell.results, List.forall_mem_map]
  exact fun x mem => (passed x mem).skipped

/-- A phase that is started carries out its first step, or is forestalled. -/
theorem BlockRun.skips {e : Engine β μ} {phase : Phase} {pack : Option String}
    {xs : List (Entry β μ)} {r : BlockResult} (filled : phase.steps ≠ [])
    (block : BlockRun e phase.name (e.phasePolicy phase) pack phase.steps xs r) :
    Chapter.Skips ⟨phase, e.phaseResult phase r, xs⟩ := by
  have some : xs ≠ [] := by
    rintro rfl
    exact filled block.tell.steps.symm
  obtain ⟨x, rest, rfl⟩ := List.exists_cons_of_ne_nil some
  have unflagged : (e.phaseResult phase r).skipped = false := rfl
  rcases block.opens x rfl with ⟨held, passed⟩ | carriedOut
  · have idle : (e.phaseResult phase r).Idle := Entry.Tell.idle block.tell passed
    have failed : r.success = false := by
      cases outcome : r.success with
      | false => rfl
      | true =>
          have calm := block.calm_of_success (e.phasePolicy_ne_bestEffort phase) outcome
          rw [calm x List.mem_cons_self] at held
          cases held
    refine ⟨?_, fun _ => ⟨unflagged, idle, failed, passed⟩⟩
    simp [Chapter.isForestalled_cons, held, idle, unflagged]
  · have busy : ¬ (e.phaseResult phase r).Idle := by
      intro idle
      have shown : x.result ∈ r.steps :=
        block.tell.results ▸ List.mem_map_of_mem List.mem_cons_self
      rw [idle x.result shown] at carriedOut
      cases carriedOut
    have calm : x.isCancelled = false := Entry.isCancelled_of_carriedOut carriedOut
    rw [← Chapter.isForestalled_cons phase (e.phaseResult phase r) x rest] at calm
    refine ⟨?_, fun held => ?_⟩
    · simp [calm, busy, unflagged]
    · rw [calm] at held
      cases held

namespace Engine

variable {e : Engine β μ} {pack : Option String}

theorem Unstarted.skips {phase : Phase} {s : Scene β μ} {xs : List (Entry β μ)}
    (passed : e.Unstarted phase s xs) : Chapter.Skips ⟨phase, e.haltedPhase phase, xs⟩ := by
  have never : Chapter.isForestalled ⟨phase, e.haltedPhase phase, xs⟩ = false :=
    Chapter.isForestalled_of_calm passed.calm
  have idle := passed.tell.idle passed.passedOver
  refine ⟨⟨fun _ => never, fun _ => ⟨fun _ => idle, fun _ => rfl⟩⟩, fun held => ?_⟩
  rw [never] at held
  cases held

namespace Passage

variable {goesOn : Bool} {halted : Bool} {s s' : Scene β μ} {cs : List (Chapter β μ)}

theorem skips (h : e.Passage goesOn pack halted s cs s')
    (filled : ∀ c ∈ cs, c.phase.steps ≠ []) : ∀ c ∈ cs, c.Skips := by
  induction h with
  | nil => exact List.forall_mem_nil _
  | unstarted passed rest ih =>
      exact List.forall_mem_cons.mpr ⟨passed.skips, ih (List.forall_mem_cons.mp filled).2⟩
  | started block linked cause rest ih =>
      obtain ⟨here, later⟩ := List.forall_mem_cons.mp filled
      exact List.forall_mem_cons.mpr ⟨block.skips here, ih later⟩

/-- A phase that is forestalled halts the run. -/
theorem skipped_after {c : Chapter β μ} (h : e.Passage goesOn pack halted s (c :: cs) s')
    (held : c.isForestalled = true) : ∀ q ∈ cs, q.result.skipped = true := by
  intro q mem
  obtain ⟨before, after, rfl⟩ := List.append_of_mem mem
  cases flag : q.result.skipped with
  | true => rfl
  | false =>
      obtain ⟨-, goes⟩ := (h.started_iff (List.cons_append (a := c)).symm).mp flag
      rw [Chapter.isForestalled_of_calm (goes c List.mem_cons_self).1] at held
      cases held

theorem pairwise_forestalled (h : e.Passage goesOn pack halted s cs s') :
    cs.Pairwise fun p q => p.isForestalled = true → q.result.skipped = true := by
  induction h with
  | nil => exact .nil
  | unstarted passed rest ih =>
      exact .cons (fun q mem held => (Passage.unstarted passed rest).skipped_after held q mem) ih
  | started block linked cause rest ih =>
      refine .cons (fun q mem held => ?_) ih
      exact (Passage.started block linked cause rest).skipped_after held q mem

end Passage

/-- A phase of a compiled workflow is recorded as skipped exactly if all of its steps are, unless
cancellation was seen at its first step; from then on no later phase is started. -/
theorem run_skips {compiler : Compiler} {text file : String} {ws : List Workflow} {w : Workflow}
    {r : WorkflowResult} {world world' : World β} {memory memory' : μ}
    (compiled : compiler.compileAll text file = .ok ws) (mem : w ∈ ws)
    (run : e.run w world memory = (.ok r, world', memory')) :
    ∃ c : Record β μ, c.TellsRun e w r world memory world' memory' ∧
      (∀ p ∈ c.phases, p.Skips) ∧
      c.phases.Pairwise fun p q => p.isForestalled = true → q.result.skipped = true := by
  obtain ⟨s, c, b, next, last, s', fresh, tells, account⟩ := run_account run
  refine ⟨c, tells, account.passage.skips fun p among => ?_, account.passage.pairwise_forestalled⟩
  have declared : p.phase ∈ w.phases := account.declared ▸ List.mem_map_of_mem among
  exact Compiler.compileAll_filled compiled mem p.phase declared

def waves : String :=
  "workflow: w\nphase: one\ndo wave\nend phase\nphase: two\ndo wave\nend phase\nend workflow"

def waves.phase (name : String) (line : Nat) : Phase :=
  ⟨name, none, none, [⟨.semantic, "wave", [], none, none, none, none, false, [],
    ⟨"page.flow", line + 1⟩⟩], ⟨"page.flow", line⟩⟩

/-- A page in front of which the flag has been raised before anything is run. -/
def waves.world : World Rehearsal := { Scene.blank.world with cancelled := true }

theorem compileAll_waves : ∃ w,
    (⟨.empty, none, false⟩ : Compiler).compileAll waves "page.flow" = .ok [w] ∧
      bare.prepare w = .ok .empty ∧
      (bare.run w waves.world ()).1.toOption.map (fun r => r.phases.map fun p =>
        (p.skipped, p.steps.map fun x => x.isSkipped)) = some [(false, [true]), (true, [true])] := by
  have one : ((⟨.empty, none, false⟩ : Compiler).compileAll waves "page.flow").toOption.map
      (List.map fun w => (w.locatorPack, w.vars, w.setup, w.phases)) =
        some [(none, [], [], [waves.phase "one" 2, waves.phase "two" 5])] := rfl
  obtain ⟨w, compiled, same⟩ := Except.ok_of_toOption_singleton one
  simp only [Prod.mk.injEq] at same
  obtain ⟨pack, vars, setup, phases⟩ := same
  refine ⟨w, compiled, ?_⟩
  cases w
  subst pack vars setup phases
  exact ⟨rfl, rfl⟩

theorem run_waves_skips : ∃ w r world' memory' c,
    (⟨.empty, none, false⟩ : Compiler).compileAll waves "page.flow" = .ok [w] ∧
      bare.run w waves.world () = (.ok r, world', memory') ∧
      Record.TellsRun bare w r waves.world () world' memory' c ∧ (∀ p ∈ c.phases, p.Skips) ∧
      c.phases.Pairwise fun p q => p.isForestalled = true → q.result.skipped = true := by
  obtain ⟨w, compiled, prepared, -⟩ := compileAll_waves
  obtain ⟨r, world', memory', -, run, -⟩ := run_of_prepare prepared waves.world ()
  obtain ⟨c, tells, skips, halts⟩ := run_skips compiled List.mem_cons_self run
  exact ⟨w, r, world', memory', c, compiled, run, tells, skips, halts⟩

/-- Both phases have skipped their only step, and the first one does not have the flag. -/
theorem run_waves_unflagged : ∃ w r world' memory',
    (⟨.empty, none, false⟩ : Compiler).compileAll waves "page.flow" = .ok [w] ∧
      bare.run w waves.world () = (.ok r, world', memory') ∧
      ∃ p ∈ r.phases, p.skipped = false ∧ p.steps ≠ [] ∧ p.Idle := by
  obtain ⟨w, compiled, prepared, shown⟩ := compileAll_waves
  obtain ⟨r, world', memory', -, run, -⟩ := run_of_prepare prepared waves.world ()
  refine ⟨w, r, world', memory', compiled, run, ?_⟩
  rw [run] at shown
  have phases : r.phases.map (fun p => (p.skipped, p.steps.map fun x => x.isSkipped)) =
      [(false, [true]), (true, [true])] := Option.some.inj shown
  obtain ⟨p, others, split, first, -⟩ := List.map_eq_cons_iff.mp phases
  obtain ⟨unflagged, steps⟩ := Prod.mk.inj first
  obtain ⟨x, only, passed⟩ := List.map_eq_singleton_iff.mp steps
  refine ⟨p, by simp [split], unflagged, by simp [only], ?_⟩
  simpa [PhaseResult.Idle, only] using passed

end Engine
end Journey
