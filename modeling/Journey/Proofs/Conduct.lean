import Journey.Proofs.Dialogue

/-!
The conduct of a dialogue: which calls it may make and which results it may give, whatever it hears. A
dialogue that is silent besides has nothing to do with its notes, so that it leaves them alone and does
not depend on them. A poll conducts itself as its probe does.
-/

namespace Journey

variable {β σ τ κ α γ ε : Type}

namespace Dialogue

/-- Whatever the dialogue hears, it asks only such calls and gives only such results. -/
def Obeys (asks : Call → Prop) (gives : α → Prop) : Dialogue σ α → Prop
  | done a => gives a
  | sleep _ next => next.Obeys asks gives
  | clock next => ∀ now, (next now).Obeys asks gives
  | note _ next => next.Obeys asks gives
  | consult next => ∀ s, (next s).Obeys asks gives
  | ask call next => asks call ∧ ∀ outcome, (next outcome).Obeys asks gives

/-- The dialogue obeys, and neither looks at its notes nor takes any. -/
def Silent (asks : Call → Prop) (gives : α → Prop) : Dialogue σ α → Prop
  | done a => gives a
  | sleep _ next => next.Silent asks gives
  | clock next => ∀ now, (next now).Silent asks gives
  | note _ _ | consult _ => False
  | ask call next => asks call ∧ ∀ outcome, (next outcome).Silent asks gives

/-- Every dialogue obeys where everything is allowed. -/
theorem obeys_true (d : Dialogue σ α) : d.Obeys (fun _ => True) fun _ => True := by
  induction d with
  | done a => trivial
  | sleep ms next ih => exact ih
  | clock next ih => exact ih
  | note f next ih => exact ih
  | consult next ih => exact ih
  | ask call next ih => exact ⟨trivial, ih⟩

variable {asks : Call → Prop} {gives : α → Prop} {d : Dialogue σ α}

namespace Obeys

theorem bind {gives' : γ → Prop} {f : α → Dialogue σ γ} (hd : d.Obeys asks gives)
    (hf : ∀ a, gives a → (f a).Obeys asks gives') : (d.bind f).Obeys asks gives' := by
  induction d with
  | done a => exact hf a hd
  | sleep ms next ih => exact ih hd
  | clock next ih => exact fun now => ih now (hd now)
  | note g next ih => exact ih hd
  | consult next ih => exact fun s => ih s (hd s)
  | ask call next ih => exact ⟨hd.1, fun outcome => ih outcome (hd.2 outcome)⟩

theorem within (hd : d.Obeys asks gives) (get : τ → σ) (set : σ → τ → τ) :
    (d.within get set).Obeys asks gives := by
  induction d with
  | done a => exact hd
  | sleep ms next ih => exact ih hd
  | clock next ih => exact fun now => ih now (hd now)
  | note g next ih => exact ih hd
  | consult next ih => exact fun t => ih (get t) (hd (get t))
  | ask call next ih => exact ⟨hd.1, fun outcome => ih outcome (hd.2 outcome)⟩

theorem mono {asks' : Call → Prop} {gives' : α → Prop} (hd : d.Obeys asks gives)
    (ha : ∀ call, asks call → asks' call) (hg : ∀ a, gives a → gives' a) : d.Obeys asks' gives' := by
  induction d with
  | done a => exact hg a hd
  | sleep ms next ih => exact ih hd
  | clock next ih => exact fun now => ih now (hd now)
  | note g next ih => exact ih hd
  | consult next ih => exact fun s => ih s (hd s)
  | ask call next ih => exact ⟨ha call hd.1, fun outcome => ih outcome (hd.2 outcome)⟩

/-- What a run gives, if it is not cut off, is such a result. -/
theorem result (hd : d.Obeys asks gives) (browser : Browser β) (deadline : Option Nat) (w : World β)
    (s : σ) : ∀ a, (d.run browser deadline w s).result = some a → gives a := by
  induction d generalizing w s with
  | done a =>
      intro b same
      exact Option.some.inj same ▸ hd
  | sleep ms next ih =>
      simp only [Dialogue.run]
      split
      · exact ih hd _ _
      · rintro a ⟨⟩
  | clock next ih => exact ih _ (hd _) _ _
  | note g next ih => exact ih hd _ _
  | consult next ih => exact ih _ (hd _) _ _
  | ask call next ih =>
      simp only [Dialogue.run]
      split
      · exact ih _ (hd.2 _) _ _
      · rintro a ⟨⟩

end Obeys

namespace Silent

theorem bind {gives' : γ → Prop} {f : α → Dialogue σ γ} (hd : d.Silent asks gives)
    (hf : ∀ a, gives a → (f a).Silent asks gives') : (d.bind f).Silent asks gives' := by
  induction d with
  | done a => exact hf a hd
  | sleep ms next ih => exact ih hd
  | clock next ih => exact fun now => ih now (hd now)
  | note k next ih | consult next ih => exact hd.elim
  | ask call next ih => exact ⟨hd.1, fun outcome => ih outcome (hd.2 outcome)⟩

theorem obeys (hd : d.Silent asks gives) : d.Obeys asks gives := by
  induction d with
  | done a => exact hd
  | sleep ms next ih => exact ih hd
  | clock next ih => exact fun now => ih now (hd now)
  | note k next ih | consult next ih => exact hd.elim
  | ask call next ih => exact ⟨hd.1, fun outcome => ih outcome (hd.2 outcome)⟩

theorem keeps (hd : d.Silent asks gives) (g : σ → κ) : d.Keeps g := by
  induction d with
  | done a => trivial
  | sleep ms next ih => exact ih hd
  | clock next ih => exact fun now => ih now (hd now)
  | note k next ih | consult next ih => exact hd.elim
  | ask call next ih => exact fun outcome => ih outcome (hd.2 outcome)

end Silent

end Dialogue

variable {asks : Call → Prop}

theorem Dialogue.silent_sure {d : Dialogue σ (Except Empty α)} (h : d.Silent asks fun _ => True) :
    d.sure.Silent asks fun _ => True :=
  h.bind fun _ _ => trivial

theorem Poller.silent_tick {π : Type} (c : Clockwork π) (p : Poller) :
    (p.tick c : Dialogue σ _).Silent asks fun _ => True := by
  simp only [tick]
  cases c.count p.probes with
  | error panic => trivial
  | ok probes =>
      intro now
      dsimp only
      split <;> trivial

namespace Probe

variable {probe : Dialogue σ (Probe α ε)}

section Clockwork

variable {π : Type} {c : Clockwork π}

theorem silent_round (h : probe.Silent asks fun _ => True) (p : Poller)
    {again : ε → Poller → Dialogue σ (Except π (Except ε α))}
    (more : ∀ reason p, (again reason p).Silent asks fun _ => True) :
    (round c probe p again).Silent asks fun _ => True := by
  refine h.bind fun shown _ => ?_
  cases shown with
  | settled result => trivial
  | pending reason =>
      refine (p.silent_tick c).bind fun answer _ => ?_
      match answer with
      | .error panic => trivial
      | .ok (false, _) => trivial
      | .ok (true, p) => exact more reason p

theorem silent_pollWith (h : probe.Silent asks fun _ => True) (rounds : Nat) (p : Poller) :
    (pollWith c probe rounds p).Silent asks fun _ => True := by
  induction rounds generalizing p with
  | zero => exact silent_round h p fun _ _ => trivial
  | succ rounds ih => exact silent_round h p fun _ p => ih p

theorem silent_pollBy (h : probe.Silent asks fun _ => True) (timeout : Nat) (policy : PollPolicy) :
    (pollBy c probe timeout policy).Silent asks fun _ => True := by
  intro now
  dsimp only
  cases Poller.start c now timeout policy with
  | error panic => trivial
  | ok poller => exact silent_pollWith h _ _

end Clockwork

theorem silent_poll (h : probe.Silent asks fun _ => True) (timeout : Nat) (policy : PollPolicy) :
    (poll probe timeout policy).Silent asks fun _ => True :=
  Dialogue.silent_sure (silent_pollBy h timeout policy)

end Probe
end Journey
