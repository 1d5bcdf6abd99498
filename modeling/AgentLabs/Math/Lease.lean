import AgentLabs.Math.Run
import Mathlib.Order.Lattice
import Mathlib.Logic.Function.Basic

/-!
# Leases

Parties share resources. A resource carries the instant until which it is let. A
resource whose lease has run out may be let to any party, and a party whose own
lease still runs may set a new one, or give the resource back by setting one that
is over. Nothing else marks an owner: each party only remembers the lease it set
last.

Time is any linear order. Each step takes time, from the instant it reads to the
instant it ends.

## Main definitions

* `LeaseState`: the clock, the leases, and what the parties remember
* `LeaseState.Step`: waiting, letting a free resource, renewing one's own lease
* `LeaseState.Holds`: the lease a party remembers still runs
* `LeaseState.Exclusive`: the invariant behind mutual exclusion

## Main results

* `LeaseState.Exclusive.step`: every step keeps the invariant
* `LeaseState.exclusive_of_reachable`: so at most one party holds a resource, at any time
-/

namespace AgentLabs.Math

/-- The clock, the lease of each resource, and the lease of it that each party set
last. -/
structure LeaseState (κ ω τ : Type*) where
  clock : τ
  lease : κ → τ
  held : κ → ω → τ

namespace LeaseState

variable {κ ω τ : Type*}

section

variable [DecidableEq κ] [DecidableEq ω]

/-- Let a resource to a party until `expiry`, in a step that ends at `later`. -/
def put (s : LeaseState κ ω τ) (w : ω) (k : κ) (later expiry : τ) : LeaseState κ ω τ where
  clock := later
  lease := Function.update s.lease k expiry
  held := Function.update s.held k (Function.update (s.held k) w expiry)

variable {s : LeaseState κ ω τ} {v w : ω} {k l : κ} {later expiry : τ}

@[simp] theorem clock_put : (s.put w k later expiry).clock = later := rfl

@[simp] theorem lease_put_self : (s.put w k later expiry).lease k = expiry :=
  Function.update_self ..

theorem lease_put_of_ne (h : l ≠ k) : (s.put w k later expiry).lease l = s.lease l :=
  Function.update_of_ne h ..

@[simp] theorem held_put_self : (s.put w k later expiry).held k w = expiry := by
  simp [put]

theorem held_put_of_ne_party (h : v ≠ w) : (s.put w k later expiry).held k v = s.held k v := by
  simp [put, h]

theorem held_put_of_ne (h : l ≠ k) : (s.put w k later expiry).held l v = s.held l v := by
  simp [put, h]

end

variable [LinearOrder τ]

/-- The party holds the resource: the lease it set last has not run out. -/
def Holds (s : LeaseState κ ω τ) (w : ω) (k : κ) : Prop := s.clock < s.held k w

/-- Nobody holds anything. -/
def Unheld (s : LeaseState κ ω τ) : Prop := ∀ w k, ¬ s.Holds w k

/-- The lease of a holder is the lease of the resource, and it has no other holder. -/
structure Exclusive (s : LeaseState κ ω τ) : Prop where
  current : ∀ {w k}, s.Holds w k → s.lease k = s.held k w
  unique : ∀ {v w k}, s.Holds v k → s.Holds w k → v = w

variable {s t : LeaseState κ ω τ} {v w : ω} {k l : κ} {now later expiry : τ}

/-- What is held later was held before, unless it was let in between. -/
theorem Holds.mono (passes : s.clock ≤ later) (h : later < s.held k w) : s.Holds w k :=
  passes.trans_lt h

theorem Exclusive.of_unheld (h : s.Unheld) : s.Exclusive where
  current holds := absurd holds (h _ _)
  unique holds := absurd holds (h _ _)

/-- A running lease of a party is the running lease of the resource. -/
theorem Exclusive.running (h : s.Exclusive) (begins : s.clock ≤ now) (holds : now < s.held k w) :
    now < s.lease k := by
  rwa [h.current (Holds.mono begins holds)]

theorem Exclusive.wait (h : s.Exclusive) (passes : s.clock ≤ later) :
    Exclusive { s with clock := later } where
  current holds := h.current (Holds.mono passes holds)
  unique hv hw := h.unique (Holds.mono passes hv) (Holds.mono passes hw)

section

variable [DecidableEq κ] [DecidableEq ω]

/-- One step. A resource is let only when its lease has run out, and a lease is
renewed only by a party whose own lease runs. -/
inductive Step : LeaseState κ ω τ → LeaseState κ ω τ → Prop
  | wait {s : LeaseState κ ω τ} {later : τ} (passes : s.clock ≤ later) :
      Step s { s with clock := later }
  | grant {s : LeaseState κ ω τ} (w : ω) (k : κ) {now later expiry : τ} (begins : s.clock ≤ now)
      (ends : now ≤ later) (expired : s.lease k ≤ now) : Step s (s.put w k later expiry)
  | renew {s : LeaseState κ ω τ} (w : ω) (k : κ) {now later expiry : τ} (begins : s.clock ≤ now)
      (ends : now ≤ later) (holds : now < s.held k w) : Step s (s.put w k later expiry)

namespace Exclusive

/-- A resource may be let while no other party holds it. -/
theorem put (h : s.Exclusive) (passes : s.clock ≤ later)
    (others : ∀ v, v ≠ w → s.held k v ≤ later) : (s.put w k later expiry).Exclusive := by
  have only : ∀ {v}, (s.put w k later expiry).Holds v k → v = w := by
    intro v holds
    by_contra other
    rw [Holds, clock_put, held_put_of_ne_party other] at holds
    exact absurd (others v other) (not_le.mpr holds)
  constructor
  · intro v l holds
    by_cases same : l = k
    · subst same
      rw [only holds, lease_put_self, held_put_self]
    · rw [Holds, clock_put, held_put_of_ne same] at holds
      rw [lease_put_of_ne same, held_put_of_ne same, h.current (Holds.mono passes holds)]
  · intro u v l hu hv
    by_cases same : l = k
    · subst same
      rw [only hu, only hv]
    · rw [Holds, clock_put, held_put_of_ne same] at hu hv
      exact h.unique (Holds.mono passes hu) (Holds.mono passes hv)

/-- **Every step** keeps holders alone. -/
theorem step (h : s.Exclusive) (one : Step s t) : t.Exclusive := by
  cases one with
  | wait passes => exact h.wait passes
  | @grant w k now later expiry begins ends expired =>
    -- A lease that has run out runs for nobody.
    refine h.put (begins.trans ends) fun v _ => ?_
    by_contra running
    have holds : now < s.held k v := ends.trans_lt (not_le.mp running)
    exact absurd expired (not_le.mpr (h.running begins holds))
  | @renew w k now later expiry begins ends holds =>
    refine h.put (begins.trans ends) fun v other => ?_
    by_contra running
    have also : now < s.held k v := ends.trans_lt (not_le.mp running)
    exact other (h.unique (Holds.mono begins also) (Holds.mono begins holds))

end Exclusive

/-- **Mutual exclusion**: from a state in which nobody holds anything, no steps lead
to a state in which two parties hold one resource. -/
theorem exclusive_of_reachable (reached : Reachable Unheld Step s) : s.Exclusive := by
  apply reached.invariant
  · exact fun _ unheld => Exclusive.of_unheld unheld
  · exact fun _ _ _ exclusive one => exclusive.step one

end

end LeaseState

end AgentLabs.Math
