import Journey.Poll

/-!
Laws of dialogues under a run: sequencing, the result that a run without a deadline always reaches,
and the frame of the notes. What no note of a dialogue touches is the same at the end of every run,
cut off or not; that a dialogue touches nothing else is a property of the dialogue alone.
-/

namespace Journey

variable {β σ τ κ ι α γ ε : Type}

namespace Dialogue

theorem run_bind (browser : Browser β) (deadline : Option Nat) (d : Dialogue σ α)
    (f : α → Dialogue σ γ) (w : World β) (s : σ) :
    (d.bind f).run browser deadline w s =
      match d.run browser deadline w s with
      | ⟨some a, w, s⟩ => (f a).run browser deadline w s
      | ⟨none, w, s⟩ => ⟨none, w, s⟩ := by
  induction d generalizing w s with
  | done a => rfl
  | sleep ms next ih =>
      simp only [bind, run]
      split
      · exact ih _ _
      · rfl
  | clock next ih => exact ih _ _ _
  | note g next ih => exact ih _ _
  | consult next ih => exact ih _ _ _
  | ask call next ih =>
      simp only [bind, run]
      split
      · exact ih _ _ _
      · rfl

theorem run_bind_of_eq {browser : Browser β} {deadline : Option Nat} {d : Dialogue σ α}
    {w w' : World β} {s s' : σ} {a : α} (h : d.run browser deadline w s = ⟨some a, w', s'⟩)
    (f : α → Dialogue σ γ) :
    (d.bind f).run browser deadline w s = (f a).run browser deadline w' s' := by
  rw [run_bind, h]

/-- What ends in time goes as it does without a deadline. -/
theorem run_in_time {browser : Browser β} {limit : Nat} {d : Dialogue σ α} {w : World β} {s : σ}
    (ends : (d.run browser (some limit) w s).result.isSome = true) :
    d.run browser (some limit) w s = d.run browser none w s := by
  induction d generalizing w s with
  | done a => rfl
  | sleep ms next ih =>
      cases early : w.reaches (some limit) ms with
      | true =>
          simp only [run, early, if_true] at ends ⊢
          exact ih ends
      | false => simp [run, early] at ends
  | clock next ih => exact ih _ ends
  | note g next ih => exact ih ends
  | consult next ih => exact ih _ ends
  | ask call next ih =>
      cases early : w.reaches (some limit) (browser.react w.now w.browser call).delay with
      | true =>
          simp only [run, early, if_true] at ends ⊢
          exact ih _ ends
      | false => simp [run, early] at ends

/-- No note of the dialogue changes what `g` reads off the notes. -/
def Keeps (g : σ → κ) : Dialogue σ α → Prop
  | done _ => True
  | sleep _ next => next.Keeps g
  | clock next => ∀ now, (next now).Keeps g
  | note f next => (∀ s, g (f s) = g s) ∧ next.Keeps g
  | consult next => ∀ s, (next s).Keeps g
  | ask _ next => ∀ outcome, (next outcome).Keeps g

/-- The frame of a run: cut off or not, it leaves alone what its dialogue keeps. -/
theorem Keeps.run {g : σ → κ} {d : Dialogue σ α} (h : d.Keeps g) (browser : Browser β)
    (deadline : Option Nat) (w : World β) (s : σ) :
    g (d.run browser deadline w s).notes = g s := by
  induction d generalizing w s with
  | done a => rfl
  | sleep ms next ih =>
      simp only [Dialogue.run]
      split
      · exact ih h _ _
      · rfl
  | clock next ih => exact ih _ (h _) _ _
  | note f next ih => exact (ih h.2 _ _).trans (h.1 s)
  | consult next ih => exact ih _ (h _) _ _
  | ask call next ih =>
      simp only [Dialogue.run]
      split
      · exact ih _ (h _) _ _
      · rfl

theorem Keeps.bind {g : σ → κ} {d : Dialogue σ α} {f : α → Dialogue σ γ} (hd : d.Keeps g)
    (hf : ∀ a, (f a).Keeps g) : (d.bind f).Keeps g := by
  induction d with
  | done a => exact hf a
  | sleep ms next ih => exact ih hd
  | clock next ih => exact fun now => ih now (hd now)
  | note k next ih => exact ⟨hd.1, ih hd.2⟩
  | consult next ih => exact fun s => ih s (hd s)
  | ask call next ih => exact fun outcome => ih outcome (hd outcome)

theorem Keeps.within {g : τ → κ} {p : σ → ι} {get : τ → σ} {set : σ → τ → τ}
    {d : Dialogue σ α} (hd : d.Keeps p)
    (hset : ∀ x t, p x = p (get t) → g (set x t) = g t) : (d.within get set).Keeps g := by
  induction d with
  | done a => trivial
  | sleep ms next ih => exact ih hd
  | clock next ih => exact fun now => ih now (hd now)
  | note k next ih => exact ⟨fun t => hset _ t (hd.1 (get t)), ih hd.2⟩
  | consult next ih => exact fun t => ih (get t) (hd (get t))
  | ask call next ih => exact fun outcome => ih outcome (hd outcome)

theorem keeps_const (x : κ) (d : Dialogue σ α) : d.Keeps (fun _ => x) := by
  induction d with
  | done a => trivial
  | sleep ms next ih => exact ih
  | clock next ih => exact ih
  | note f next ih => exact ⟨fun _ => rfl, ih⟩
  | consult next ih => exact ih
  | ask call next ih => exact ih

end Dialogue
end Journey
