import Journey.Browser

/-!
Dialogues with a browser on a virtual clock. A dialogue asks, sleeps, looks at the clock and keeps
notes; running it against a browser under a deadline tells how it ends. A sleep or an answer that
would come after the deadline is cut off there: the notes taken so far stay, the call that was under
way stays in the history, and its effects do not happen. What is ready at the deadline goes first.
-/

namespace Journey

/-- A computation that talks to a browser and keeps notes of type `σ`. -/
inductive Dialogue (σ α : Type) where
  | done (a : α)
  | sleep (ms : Nat) (next : Dialogue σ α)
  | clock (next : Nat → Dialogue σ α)
  | note (f : σ → σ) (next : Dialogue σ α)
  | consult (next : σ → Dialogue σ α)
  | ask (call : Call) (next : call.Outcome → Dialogue σ α)

namespace Dialogue

variable {σ τ α β γ : Type}

def bind (d : Dialogue σ α) (f : α → Dialogue σ γ) : Dialogue σ γ :=
  match d with
  | done a => f a
  | sleep ms next => sleep ms (next.bind f)
  | clock next => clock fun now => (next now).bind f
  | note g next => note g (next.bind f)
  | consult next => consult fun s => (next s).bind f
  | ask call next => ask call fun outcome => (next outcome).bind f

instance : Monad (Dialogue σ) where
  pure := done
  bind := bind

def pause (ms : Nat) : Dialogue σ Unit := sleep ms (done ())

def now : Dialogue σ Nat := clock done

def record (f : σ → σ) : Dialogue σ Unit := note f (done ())

def notes : Dialogue σ σ := consult done

def call (c : Call) : Dialogue σ c.Outcome := ask c done

def within (get : τ → σ) (set : σ → τ → τ) : Dialogue σ α → Dialogue τ α
  | done a => done a
  | sleep ms next => sleep ms (next.within get set)
  | clock next => clock fun now => (next now).within get set
  | note f next => note (fun t => set (f (get t)) t) (next.within get set)
  | consult next => consult fun t => (next (get t)).within get set
  | ask c next => ask c fun outcome => (next outcome).within get set

end Dialogue

/-- A call in the history of a run: when it was made and how it ended, if it was not cut off. -/
structure Exchange where
  at_ : Nat
  call : Call
  outcome : Option call.Outcome

/-- The outside of a run: the clock, the flag that asks for its end, every call so far with the
latest first, the browser, and whoever else may raise the flag. A run only ever looks at the flag,
so that the moment at which it is raised from elsewhere is the number of looks that come before. -/
structure World (β : Type) where
  now : Nat
  cancelled : Bool
  history : List Exchange
  browser : β
  interrupt : Option Nat

namespace World

variable {β : Type}

def start (browser : β) : World β := ⟨0, false, [], browser, none⟩

def look (w : World β) : Bool × World β :=
  match w.interrupt with
  | none => (w.cancelled, w)
  | some 0 => (true, { w with cancelled := true, interrupt := none })
  | some (looks + 1) => (w.cancelled, { w with interrupt := some looks })

def log (w : World β) : List Exchange := w.history.reverse

def reaches (w : World β) (deadline : Option Nat) (ms : Nat) : Bool :=
  match deadline with
  | none => true
  | some d => w.now + ms ≤ d || ms == 0

def atDeadline (w : World β) (deadline : Option Nat) : Nat := deadline.getD w.now

def sleep (w : World β) (ms : Nat) : World β := { w with now := w.now + ms }

end World

structure Ending (β σ α : Type) where
  result : Option α
  world : World β
  notes : σ

namespace Dialogue

variable {β σ α : Type}

def abandon (w : World β) (deadline : Option Nat) (call : Call) (r : Reaction β call) : World β :=
  { w with
    now := w.atDeadline deadline, history := ⟨w.now, call, none⟩ :: w.history, browser := r.working }

def settle (w : World β) (call : Call) (r : Reaction β call) : World β :=
  { w with
    now := w.now + r.delay, cancelled := w.cancelled || r.cancels,
    history := ⟨w.now, call, some r.outcome⟩ :: w.history, browser := r.settled }

/-- Runs a dialogue against a browser, under a deadline if there is one. -/
def run (browser : Browser β) (deadline : Option Nat) :
    Dialogue σ α → World β → σ → Ending β σ α
  | done a, w, s => ⟨some a, w, s⟩
  | sleep ms next, w, s =>
      if w.reaches deadline ms then next.run browser deadline (w.sleep ms) s
      else ⟨none, { w with now := w.atDeadline deadline }, s⟩
  | clock next, w, s => (next w.now).run browser deadline w s
  | note f next, w, s => next.run browser deadline w (f s)
  | consult next, w, s => (next s).run browser deadline w s
  | ask call next, w, s =>
      let r := browser.react w.now w.browser call
      if w.reaches deadline r.delay then
        (next r.outcome).run browser deadline (settle w call r) s
      else ⟨none, abandon w deadline call r, s⟩

end Dialogue
end Journey
