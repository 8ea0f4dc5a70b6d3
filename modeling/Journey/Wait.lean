import Journey.Poll

/-!
Waiting for a condition of the page: probe it until it holds, the time is over, or the browser
reports an error.
-/

namespace Journey

inductive WaitError where
  | timeout (condition : Condition) (limit : Nat)
  | browser (error : BrowserError)
  deriving DecidableEq

def WaitError.message {π : Type} (c : Clockwork π) : WaitError → String
  | .timeout condition limit =>
      s!"Timed out after {limit / c.millisecond}ms waiting for {condition.describe}"
  | .browser error => error.message

namespace Condition

variable {σ : Type}

def probeOnce (condition : Condition) (limit : Nat) : Dialogue σ (Probe Unit WaitError) :=
  .ask (.probe condition) fun
    | .ok true => .done (.settled (.ok ()))
    | .ok false => .done (.pending (.timeout condition limit))
    | .error e => .done (.settled (.error (.browser e)))

def awaitBy {π : Type} (c : Clockwork π) (condition : Condition) (limit : Nat) (policy : PollPolicy) :
    Dialogue σ (Except π (Except WaitError Unit)) :=
  Probe.pollBy c (condition.probeOnce limit) limit policy

def await (condition : Condition) (limit : Nat) (policy : PollPolicy) :
    Dialogue σ (Except WaitError Unit) :=
  (condition.awaitBy .whole limit policy).sure

end Condition
end Journey
