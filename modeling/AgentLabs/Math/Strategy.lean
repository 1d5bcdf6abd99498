import AgentLabs.Math.Triple

/-!
# Strategies

Someone who is not known makes calls, one after the other. Each call is chosen when the answer to
the one before it is there, and a call that raises is an answer too. A strategy is a way to do this,
and a run of it is a run of whoever answers. What every answer keeps is kept by the run, whatever
the strategy is. Calls that are made at the same time are not among these: where they are handed
over together, they are taken one after the other, in some order.

## Main definitions

* `Strategy`: strategies
* `Strategy.run`: a strategy against a program for each call

## Main results

* `Strategy.keeps_run`: what is kept by each answer is kept by a run
* `triple_run`: a preorder that holds from before each answer to behind it holds from the
  start of a run to its end
-/

namespace AgentLabs.Math

open Program

variable {σ κ ρ ε α : Type}

/-- A strategy: it ends, or it makes a call and goes on with the answer. -/
inductive Strategy (κ ρ ε α : Type) : Type where
  | done (result : Except ε α)
  | ask (call : κ) (next : Except ε ρ → Strategy κ ρ ε α)

namespace Strategy

/-- A run of a strategy. -/
def run (answer : κ → Program σ ε ρ) : Strategy κ ρ ε α → Program σ ε α
  | .done result => Program.ofExcept result
  | .ask call next => fun s => (next (answer call s).1).run answer (answer call s).2

variable {answer : κ → Program σ ε ρ} {P : σ → Prop}

theorem keeps_run (each : ∀ call, Keeps P (answer call)) (strategy : Strategy κ ρ ε α) :
    Keeps P (strategy.run answer) := by
  induction strategy with
  | done result => exact keeps_ofExcept result
  | ask call next ih =>
    intro s holds
    exact ih _ _ (each call s holds)

theorem triple_run (each : ∀ call, Keeps P (answer call)) (strategy : Strategy κ ρ ε α) :
    Triple P (strategy.run answer) (fun _ => P) P := fun s holds =>
  have ends := keeps_run each strategy s holds
  ⟨fun _ _ => ends, fun _ _ => ends⟩

end Strategy

end AgentLabs.Math
