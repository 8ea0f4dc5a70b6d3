import Journey.Proofs.Conduct

/-!
The log of a run. It only grows, by the calls of what is run, cut off or not. A law about each new call
and what comes before it is composed from one stretch of the log to the next; which calls there can be
is a matter of the conduct of what is run.
-/

namespace Journey

variable {β σ α : Type}

namespace World

theorem log_sleep (w : World β) (ms : Nat) : (w.sleep ms).log = w.log := rfl

theorem log_settle (w : World β) (call : Call) (r : Reaction β call) :
    (Dialogue.settle w call r).log = w.log ++ [⟨w.now, call, some r.outcome⟩] := by
  simp [log, Dialogue.settle]

theorem log_abandon (w : World β) (deadline : Option Nat) (call : Call) (r : Reaction β call) :
    (Dialogue.abandon w deadline call r).log = w.log ++ [⟨w.now, call, none⟩] := by
  simp [log, Dialogue.abandon]

end World

/-- The later log has more calls, each of which is lawful after what comes before it. -/
def Extends (law : List Exchange → Exchange → Prop) (log log' : List Exchange) : Prop :=
  ∃ calls, log' = log ++ calls ∧
    ∀ before x after, calls = before ++ x :: after → law (log ++ before) x

namespace Extends

variable {law law' : List Exchange → Exchange → Prop} {log log' log'' : List Exchange}

theorem refl (law : List Exchange → Exchange → Prop) (log : List Exchange) : Extends law log log :=
  ⟨[], (List.append_nil _).symm, fun before x after split => by simp at split⟩

theorem of_forall {calls : List Exchange} (h : ∀ x ∈ calls, ∀ log, law log x) :
    Extends law log (log ++ calls) :=
  ⟨calls, rfl, fun before x after split => h x (by simp [split]) _⟩

theorem single {x : Exchange} (h : law log x) : Extends law log (log ++ [x]) := by
  refine ⟨[x], rfl, fun before y after split => ?_⟩
  cases before with
  | nil =>
      obtain ⟨rfl, -⟩ := List.cons.inj split
      rwa [List.append_nil]
  | cons z before => simp at split

theorem trans (h : Extends law log log') (h' : Extends law log' log'') : Extends law log log'' := by
  obtain ⟨calls, rfl, first⟩ := h
  obtain ⟨calls', rfl, second⟩ := h'
  refine ⟨calls ++ calls', List.append_assoc _ _ _, fun before x after split => ?_⟩
  rcases List.append_eq_append_iff.mp split with ⟨between, rfl, later⟩ | ⟨between, early, later⟩
  · rw [← List.append_assoc]
    exact second between x after later
  · cases between with
    | nil =>
        rw [List.append_nil] at early
        rw [← early, ← List.append_nil (log ++ calls)]
        exact second [] x after later.symm
    | cons y between =>
        obtain ⟨rfl, -⟩ := List.cons.inj later
        exact first before x between early

theorem mono (h : Extends law log log') (weaker : ∀ log x, law log x → law' log x) :
    Extends law' log log' := by
  obtain ⟨calls, grown, lawful⟩ := h
  exact ⟨calls, grown, fun before x after split => weaker _ x (lawful before x after split)⟩

/-- Every call that comes to a log comes after what is there. -/
theorem grown (log calls : List Exchange) :
    Extends (fun before x => log <+: before ∧ before ++ [x] <+: log ++ calls) log (log ++ calls) := by
  refine ⟨calls, rfl, fun before x after split => ⟨List.prefix_append _ _, after, ?_⟩⟩
  simp [split]

/-- Every new call is one of the later log. -/
theorem within (h : Extends law log log') :
    Extends (fun before x => law before x ∧ before ++ [x] <+: log') log log' := by
  obtain ⟨calls, rfl, lawful⟩ := h
  refine ⟨calls, rfl, fun before x after split => ⟨lawful before x after split, after, ?_⟩⟩
  simp [split]

end Extends

/-- The calls that a run adds to the log are such as its dialogue may make. -/
theorem Dialogue.Obeys.log {asks : Call → Prop} {gives : α → Prop} {d : Dialogue σ α}
    (hd : d.Obeys asks gives) (browser : Browser β) (deadline : Option Nat) (w : World β)
    (s : σ) : ∃ calls, (d.run browser deadline w s).world.log = w.log ++ calls ∧
      ∀ x ∈ calls, asks x.call := by
  induction d generalizing w s with
  | done a => exact ⟨[], (List.append_nil _).symm, List.forall_mem_nil _⟩
  | sleep ms next ih =>
      simp only [Dialogue.run]
      split
      · exact ih hd _ _
      · exact ⟨[], (List.append_nil _).symm, List.forall_mem_nil _⟩
  | clock next ih => exact ih _ (hd _) _ _
  | note g next ih => exact ih hd _ _
  | consult next ih => exact ih _ (hd _) _ _
  | ask call next ih =>
      simp only [Dialogue.run]
      split
      · let r := browser.react w.now w.browser call
        obtain ⟨calls, grown, all⟩ := ih r.outcome (hd.2 _) (Dialogue.settle w call r) s
        refine ⟨⟨w.now, call, some r.outcome⟩ :: calls, ?_, List.forall_mem_cons.mpr ⟨hd.1, all⟩⟩
        rw [grown, World.log_settle, List.append_assoc, List.singleton_append]
      · exact ⟨[⟨w.now, call, none⟩], World.log_abandon _ _ _ _,
          List.forall_mem_cons.mpr ⟨hd.1, List.forall_mem_nil _⟩⟩

/-- The log only grows. -/
theorem Dialogue.log_grows (d : Dialogue σ α) (browser : Browser β) (deadline : Option Nat)
    (w : World β) (s : σ) : w.log <+: (d.run browser deadline w s).world.log := by
  obtain ⟨calls, grown, -⟩ := d.obeys_true.log browser deadline w s
  exact ⟨calls, grown.symm⟩

/-- A dialogue that makes one call and is over adds this call to the log, whether it is answered or not. -/
theorem Dialogue.log_ask {call : Call} {next : call.Outcome → Dialogue σ α}
    (ends : ∀ outcome, ∃ a, next outcome = .done a) (browser : Browser β) (deadline : Option Nat)
    (w : World β) (s : σ) : ∃ outcome : Option call.Outcome,
      ((Dialogue.ask call next).run browser deadline w s).world.log = w.log ++ [⟨w.now, call, outcome⟩] := by
  simp only [Dialogue.run]
  split
  · obtain ⟨a, ended⟩ := ends (browser.react w.now w.browser call).outcome
    rw [ended]
    exact ⟨_, World.log_settle _ _ _⟩
  · exact ⟨_, World.log_abandon _ _ _ _⟩

end Journey
