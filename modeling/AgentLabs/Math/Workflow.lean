import AgentLabs.Math.Journal

/-!
# Workflows

A workflow is a graph of nodes over a state. A node is a program that makes a new state of the one
it is given, and the edges out of it may look at that new state. A run has a limit of nodes, as a
loop in the graph may go on for ever.

To know what a run comes to, it is enough to know what holds where a node is entered, and a rank
that goes down along each edge: then the limit is not reached if it is above the rank of the start.

## Main definitions

* `Workflow`, `Workflow.run`: workflows, and their runs with the path that was taken

## Main results

* `Workflow.run_of_next`, `Workflow.run_of_end`: a run where the edge is the same for all states
* `Workflow.notes_run`: what holds at the end of a run, and that there is one
* `Workflow.keeps_run`: what is kept by each node is kept by a run
* `Workflow.tracks_run`: a run without the journal
-/

namespace AgentLabs.Math

/-- A workflow: what its nodes do, and the edge that is taken behind each. -/
structure Workflow (σ ε ν τ : Type) where
  node : ν → τ → Program σ ε τ
  next : ν → τ → Option ν

namespace Workflow

open Program

variable {σ ξ ε ν τ : Type}

/-- A run from a node, behind a path. There is no state at its end if the limit is reached first. -/
def run (w : Workflow σ ε ν τ) : ℕ → List ν → ν → τ → Program σ ε (Option (List ν × τ))
  | 0, _, _, _ => pure none
  | limit + 1, path, v, state => do
    let after ← w.node v state
    match w.next v after with
    | none => pure (some (path ++ [v], after))
    | some u => w.run limit (path ++ [v]) u after

theorem run_of_next {w : Workflow σ ε ν τ} {v u : ν} (edge : ∀ after, w.next v after = some u)
    (limit : ℕ) (path : List ν) (state : τ) :
    w.run (limit + 1) path v state =
      w.node v state >>= fun after => w.run limit (path ++ [v]) u after := by
  rw [run]
  apply congrArg
  funext after
  rw [edge after]

theorem run_of_end {w : Workflow σ ε ν τ} {v : ν} (edge : ∀ after, w.next v after = none)
    (limit : ℕ) (path : List ν) (state : τ) :
    w.run (limit + 1) path v state =
      w.node v state >>= fun after => Pure.pure (some (path ++ [v], after)) := by
  rw [run]
  apply congrArg
  funext after
  rw [edge after]

variable {w : Workflow (σ × List ξ) ε ν τ} {I : List ν → ν → τ → List ξ → Prop}
  {Q : List ν → τ → List ξ → Prop} {rank : ν → τ → ℕ}

/-- What has to be shown of one node: at the end `Q` holds, and along an edge `I` holds at the next
node, whose rank is lower. -/
def Advances (w : Workflow (σ × List ξ) ε ν τ) (I : List ν → ν → τ → List ξ → Prop)
    (Q : List ν → τ → List ξ → Prop) (path : List ν) (bound : ℕ) (rank : ν → τ → ℕ) (v : ν)
    (after : τ) (journal : List ξ) : Prop :=
  (w.next v after = none → Q (path ++ [v]) after journal) ∧
    ∀ u, w.next v after = some u → I (path ++ [v]) u after journal ∧ rank u after < bound

/-- **A run** below whose limit the rank starts comes to an end, where `Q` holds. -/
theorem notes_run
    (each : ∀ path v state journal, I path v state journal → Notes (w.node v state)
      fun after more => w.Advances I Q path (rank v state) rank v after (journal ++ more))
    {limit : ℕ} {path : List ν} {v : ν} {state : τ} {journal : List ξ}
    (room : rank v state < limit) (start : I path v state journal) :
    Notes (w.run limit path v state) fun ended more =>
      ∃ path' after, ended = some (path', after) ∧ Q path' after (journal ++ more) := by
  -- By induction on the limit: the next node has a lower rank than the one before, so the limit
  -- that is left is still above it.
  induction limit generalizing path v state journal with
  | zero => exact absurd room (Nat.not_lt_zero _)
  | succ limit ih =>
    refine (each path v state journal start).bind fun after x advances => ?_
    cases edge : w.next v after with
    | none =>
      refine logs_pure ⟨_, after, rfl, ?_⟩
      rw [List.append_nil]
      exact advances.1 edge
    | some u =>
      obtain ⟨holds, lower⟩ := advances.2 u edge
      have below : rank u after < limit := by omega
      refine (ih below holds).imp fun ended y last => ?_
      obtain ⟨path', final, same, done⟩ := last
      exact ⟨path', final, same, List.append_assoc journal x y ▸ done⟩

/-- What each node keeps is kept by a run. -/
theorem keeps_run {w : Workflow σ ε ν τ} {P : σ → Prop}
    (nodes : ∀ v state, Keeps P (w.node v state)) (limit : ℕ) (path : List ν) (v : ν) (state : τ) :
    Keeps P (w.run limit path v state) := by
  induction limit generalizing path v state with
  | zero => exact keeps_pure _
  | succ limit ih =>
    refine (nodes v state).bind fun after => ?_
    cases w.next v after with
    | none => exact keeps_pure _
    | some u => exact ih _ _ _

/-- Two workflows whose nodes are the same but for the journal run in the same way. -/
theorem tracks_run {w' : Workflow σ ε ν τ}
    (nodes : ∀ v state, Tracks (w.node v state) (w'.node v state)) (edges : w.next = w'.next)
    (limit : ℕ) (path : List ν) (v : ν) (state : τ) :
    Tracks (w.run limit path v state) (w'.run limit path v state) := by
  induction limit generalizing path v state with
  | zero => exact tracks_pure _
  | succ limit ih =>
    refine (nodes v state).bind fun after => ?_
    rw [edges]
    cases w'.next v after with
    | none => exact tracks_pure _
    | some u => exact ih _ _ _

end Workflow

end AgentLabs.Math
