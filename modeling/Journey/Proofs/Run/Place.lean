import Journey.Proofs.Run.Attempt
import Journey.Proofs.Run.References

/-!
The place of a step in its workflow does not matter to a built-in action: an action that is carried out
at another place goes the same way and leaves the same, but for the place. Placeholders are looked up in
parameters, data and template only. What a plugin makes of its place is its own matter.
-/

namespace Journey

variable {β μ σ τ α γ : Type}

namespace Dialogue

/-- If the notes are changed by `f` beforehand, the dialogue goes the same way, and its notes are changed
by `f` in the end. -/
def Ignores (f : σ → σ) : Dialogue σ α → Prop
  | done _ => True
  | sleep _ next => next.Ignores f
  | clock next => ∀ now, (next now).Ignores f
  | note g next => (∀ s, g (f s) = f (g s)) ∧ next.Ignores f
  | consult next => ∀ s, next (f s) = next s ∧ (next s).Ignores f
  | ask _ next => ∀ outcome, (next outcome).Ignores f

variable {f : σ → σ} {d : Dialogue σ α}

theorem Ignores.run (h : d.Ignores f) (browser : Browser β) (deadline : Option Nat) (w : World β)
    (s : σ) : d.run browser deadline w (f s) =
      ⟨(d.run browser deadline w s).result, (d.run browser deadline w s).world,
        f (d.run browser deadline w s).notes⟩ := by
  induction d generalizing w s with
  | done a => rfl
  | sleep ms next ih =>
      simp only [Dialogue.run]
      split
      · exact ih h _ _
      · rfl
  | clock next ih => exact ih _ (h _) _ _
  | note g next ih =>
      simp only [Dialogue.run, h.1]
      exact ih h.2 _ _
  | consult next ih =>
      simp only [Dialogue.run, (h s).1]
      exact ih _ (h s).2 _ _
  | ask call next ih =>
      simp only [Dialogue.run]
      split
      · exact ih _ (h _) _ _
      · rfl

theorem Ignores.bind {k : α → Dialogue σ γ} (hd : d.Ignores f) (hk : ∀ a, (k a).Ignores f) :
    (d.bind k).Ignores f := by
  induction d with
  | done a => exact hk a
  | sleep ms next ih => exact ih hd
  | clock next ih => exact fun now => ih now (hd now)
  | note g next ih => exact ⟨hd.1, ih hd.2⟩
  | consult next ih => exact fun s => ⟨congrArg (·.bind k) (hd s).1, ih s (hd s).2⟩
  | ask call next ih => exact fun outcome => ih outcome (hd outcome)

theorem Ignores.within {F : τ → τ} {get : τ → σ} {set : σ → τ → τ} (hd : d.Ignores f)
    (hget : ∀ t, get (F t) = f (get t)) (hset : ∀ s t, set (f s) (F t) = F (set s t)) :
    (d.within get set).Ignores F := by
  induction d with
  | done a => trivial
  | sleep ms next ih => exact ih hd
  | clock next ih => exact fun now => ih now (hd now)
  | note g next ih =>
      refine ⟨fun t => ?_, ih hd.2⟩
      dsimp only
      rw [hget, hd.1, hset]
  | consult next ih =>
      refine fun t => ⟨?_, ih (get t) (hd (get t)).2⟩
      dsimp only
      rw [hget, (hd (get t)).1]
  | ask call next ih => exact fun outcome => ih outcome (hd outcome)

end Dialogue

/-- The same context at another place. -/
def Context.placed (phase : Option String) (step : Option Nat) (c : Context) : Context :=
  { c with phase, step }

/-- The same scene at another place. -/
def Scene.placed (phase : Option String) (step : Option Nat) (s : Scene β μ) : Scene β μ :=
  { s with context := s.context.placed phase step }

namespace Primitive

end Primitive

namespace Engine

variable (e : Engine β μ)

/-- The keyword, if it is known, is that of an action with an implementation of its own. -/
def IsNative (keyword : String) : Prop :=
  ∀ spec, e.registry.find? keyword = some spec → spec.primitive?.isSome = true

variable (phase : Option String) (place : Option Nat)

end Engine
end Journey
